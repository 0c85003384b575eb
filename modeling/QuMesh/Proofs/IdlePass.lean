import QuMesh.Proofs.ReplyReads

/-!
# A pass over nothing

A socket that a retry has discarded can still call `readMore`, which then makes
a pass over the socket the retry runs on, where there is nothing new. A reply
that was left in want of more is at rest: what it has, it has looked at. So
such a pass finds something only in three cases. The new socket has lost its
connection while the head of the response is awaited, or while the body is
read to the close, or a head lies in the buffer that came before the request
was written.
-/

namespace QuMesh.Wsman

open QuMesh.Lib

namespace Reply

/-- The chunk reader has taken all it can. -/
def ChunkRest (rd : Reply) : Prop :=
  if rd.readingChunkSize then
    indexOfInt (ascii "\r\n") rd.responseBuffer = none
  else
    rd.dataHere = 0 ∧
      (rd.currentChunkRemaining = 0 → rd.responseBuffer.length < 2)

/-- What a pass that wants more leaves of a body. -/
def AtRest (rd : Reply) : Prop :=
  match rd.state with
  | .readingBodyContentLength =>
      rd.responseBuffer = [] ∧
        (rd.expectedBody ≠ -2 → rd.body.length < rd.expectedBody)
  | .readingBodyChunked => rd.ChunkRest
  | _ => True

/-- A pass over nothing would find something. -/
def Stirs (connected : Bool) (rd : Reply) : Prop :=
  match rd.state with
  | .readingHeaders =>
      connected = false ∨
        indexOfInt (ascii "\r\n\r\n") rd.responseBuffer ≠ none
  | .readingBodyContentLength => connected = false ∧ rd.expectedBody = -2
  | _ => False

instance (connected : Bool) (rd : Reply) : Decidable (rd.Stirs connected) := by
  unfold Stirs
  split <;> infer_instance

theorem AtRest.of_state {rd : Reply} (hl : rd.state ≠ .readingBodyContentLength)
    (hc : rd.state ≠ .readingBodyChunked) : rd.AtRest := by
  unfold AtRest
  split
  · next h => exact absurd h hl
  · next h => exact absurd h hc
  · trivial

theorem atRest_length {rd : Reply} (h : rd.state = .readingBodyContentLength) :
    rd.AtRest ↔ rd.responseBuffer = [] ∧
      (rd.expectedBody ≠ -2 → rd.body.length < rd.expectedBody) := by
  rw [AtRest, h]

theorem atRest_chunked {rd : Reply} (h : rd.state = .readingBodyChunked) :
    rd.AtRest ↔ rd.ChunkRest := by
  rw [AtRest, h]

/-! ## Where passes stop -/

theorem readContentLength_atRest {connected : Bool} {rd rd' : Reply}
    (h : rd.readContentLength connected = (rd', .needMore)) :
    rd'.responseBuffer = [] ∧
      (rd'.expectedBody ≠ -2 → rd'.body.length < rd'.expectedBody) := by
  rw [readContentLength] at h
  split at h
  · next hclose =>
      split at h
      · cases h
      · obtain ⟨rfl, -⟩ := Prod.mk.inj h
        exact ⟨rfl, fun hne => absurd hclose hne⟩
  · simp only [] at h
    split at h
    · cases h
    · next hneed =>
        obtain ⟨rfl, hverdict⟩ := Prod.mk.inj h
        split at hverdict
        · cases hverdict
        · next hshort =>
            dsimp only at hshort ⊢
            refine ⟨List.drop_eq_nil_iff.mpr ?_, fun _ => by omega⟩
            rw [List.length_append, List.length_take] at hshort
            omega

theorem chunkEnd_rests {rd rd' : Reply} (hsize : rd.readingChunkSize = false)
    (hnone : rd.dataHere = 0)
    (h : rd.chunkEnd = (rd', some .needMore)) : rd'.ChunkRest := by
  have hrest (hshort : rd.currentChunkRemaining = 0 →
      rd.responseBuffer.length < 2) : rd.ChunkRest := by
    rw [ChunkRest, hsize]
    exact ⟨hnone, hshort⟩
  rw [chunkEnd] at h
  split at h
  · split at h
    · next hshort =>
        cases h
        exact hrest fun _ => hshort
    · cases h
  · next hleft =>
      cases h
      exact hrest fun hzero => absurd hzero hleft

theorem took_dataHere (rd : Reply) : rd.took.dataHere = 0 := by
  simp only [dataHere, took, List.length_drop]
  omega

theorem chunkData_rests {rd rd' : Reply} (hsize : rd.readingChunkSize = false)
    (h : rd.chunkData = (rd', some .needMore)) : rd'.ChunkRest := by
  rw [chunkData_eq] at h
  split at h
  · next hnil =>
      cases h
      rw [ChunkRest, hsize, dataHere, hnil]
      refine ⟨Nat.min_eq_right (Nat.zero_le _), fun _ => ?_⟩
      show 0 < 2
      omega
  · split at h
    · cases h
    · exact chunkEnd_rests (show rd.took.readingChunkSize = false from hsize)
        (took_dataHere rd) h

theorem chunkStep_rests {rd rd' : Reply}
    (h : rd.chunkStep = (rd', some .needMore)) : rd'.ChunkRest := by
  rw [chunkStep_eq] at h
  split at h
  · next hsize =>
      split at h
      · next hnone =>
          cases h
          rw [ChunkRest, hsize]
          exact hnone
      · unfold sizeRead at h
        simp only [] at h
        split at h
        · cases h
        · split at h
          · cases h
          · exact chunkData_rests rfl h
  · next hsize => exact chunkData_rests (eq_false_of_ne_true hsize) h

theorem chunks_rests {rd rd' : Reply} (h : rd.chunks = (rd', .needMore)) :
    rd'.ChunkRest := by
  generalize hn : rd.responseBuffer.length = n
  induction n using Nat.strongRecOn generalizing rd with
  | ind n ih =>
      cases hstep : rd.chunkStep with
      | mk mid verdict =>
          cases verdict with
          | some verdict =>
              rw [chunks_stop hstep] at h
              cases h
              exact chunkStep_rests hstep
          | none =>
              rw [chunks_go hstep] at h
              exact ih _ (hn ▸ chunkStep_shrinks hstep) h rfl

theorem readBody_atRest {connected : Bool} {rd rd' : Reply}
    (h : rd.readBody connected = (rd', .needMore)) : rd'.AtRest := by
  have hstate := readBody_state connected rd
  rw [h] at hstate
  by_cases hlength : rd.state = .readingBodyContentLength
  · rw [readBody_length hlength] at h
    exact (atRest_length (hstate.trans hlength)).mpr (readContentLength_atRest h)
  · by_cases hchunked : rd.state = .readingBodyChunked
    · rw [readBody_chunked hchunked] at h
      exact (atRest_chunked (hstate.trans hchunked)).mpr (chunks_rests h)
    · refine .of_state ?_ ?_
      · rw [hstate]
        exact hlength
      · rw [hstate]
        exact hchunked

/-- A pass that wants more leaves the reply at rest. -/
theorem readPass_atRest {connected : Bool} {chunk : Bytes} {rd rd' : Reply}
    (h : rd.readPass connected chunk = (rd', .needMore)) : rd'.AtRest := by
  rw [readPass] at h
  split at h
  · cases h
  · simp only [] at h
    split at h
    · next hheaders =>
        split at h
        · cases h
          refine .of_state ?_ ?_
          · show rd.state ≠ _
            rw [hheaders]
            decide
          · show rd.state ≠ _
            rw [hheaders]
            decide
        · obtain ⟨-, -, -, -, mid, -, -, -, hbody⟩ := readHeaders_wants h
          exact readBody_atRest hbody
    · exact readBody_atRest h

/-! ## The pass over nothing -/

theorem readContentLength_nothing {connected : Bool} {rd : Reply}
    (hcap : rd.body.length ≤ maxBodyBytes)
    (hrest : rd.responseBuffer = [] ∧
      (rd.expectedBody ≠ -2 → rd.body.length < rd.expectedBody))
    (hlive : rd.expectedBody = -2 → connected = true) :
    rd.readContentLength connected = (rd, .needMore) := by
  obtain ⟨hnil, hneed⟩ := hrest
  have hsame : ({ rd with body := rd.body, responseBuffer := [] } : Reply) =
      rd := by
    rw [← hnil]
  rw [readContentLength]
  split
  · next hclose =>
      rw [hnil, if_neg (by rw [List.length_nil]; omega), List.append_nil, hsame,
        hlive hclose]
      rfl
  · next hclose =>
      have hlt := hneed hclose
      simp only [hnil, List.length_nil, Nat.min_zero, List.take_nil,
        List.drop_nil, List.append_nil]
      rw [if_neg (by omega), hsame, if_neg (by omega)]

theorem chunks_nothing {rd : Reply} (hcap : rd.body.length ≤ maxBodyBytes)
    (hrest : rd.ChunkRest) : rd.chunks = (rd, .needMore) := by
  refine chunks_stop ?_
  rw [chunkStep_eq]
  rw [ChunkRest] at hrest
  split at hrest
  · next hsize => rw [if_pos hsize, hrest]
  · next hsize =>
      obtain ⟨hnone, hshort⟩ := hrest
      rw [if_neg hsize, chunkData_eq]
      split
      · rfl
      · have htook : rd.took = rd := by
          rw [took, hnone]
          simp
        rw [hnone, if_neg (by omega), htook, chunkEnd]
        split
        · next hzero => rw [if_pos (hshort hzero)]
        · rfl

/-- A reply at rest that has nothing to find is left as it was. -/
theorem readPass_nothing {connected : Bool} {rd : Reply} (hcap : rd.Capped)
    (hrest : rd.AtRest) (hquiet : ¬rd.Stirs connected) :
    rd.readPass connected [] = (rd, .needMore) := by
  have hsame : ({ rd with responseBuffer := rd.responseBuffer ++ [] } : Reply) =
      rd := by
    rw [List.append_nil]
  rw [readPass, hsame]
  by_cases hheaders : rd.state = .readingHeaders
  · rw [Stirs, hheaders, not_or, not_not] at hquiet
    obtain ⟨hlive, hnone⟩ := hquiet
    rw [if_neg fun h => by simp [hlive] at h]
    simp only [hheaders, if_true, hnone]
  · rw [if_neg fun h => hheaders h.2.2]
    simp only [hheaders, if_false]
    by_cases hlength : rd.state = .readingBodyContentLength
    · rw [readBody_length hlength]
      rw [atRest_length hlength] at hrest
      rw [Stirs, hlength] at hquiet
      refine readContentLength_nothing hcap.body hrest fun hclose => ?_
      exact eq_true_of_ne_false fun h => hquiet ⟨h, hclose⟩
    · by_cases hchunked : rd.state = .readingBodyChunked
      · rw [readBody_chunked hchunked]
        exact chunks_nothing hcap.body ((atRest_chunked hchunked).mp hrest)
      · -- nothing is read yet, or any more
        unfold readBody
        split
        · next hs => exact absurd hs hlength
        · next hs => exact absurd hs hchunked
        · rfl

/-- Otherwise the pass comes to a verdict or goes on to the body. -/
theorem readPass_stirred {connected : Bool} {rd : Reply} (hcap : rd.Capped)
    (hrest : rd.AtRest) (hstirs : rd.Stirs connected) :
    (rd.readPass connected []).2 ≠ .needMore ∨
      (rd.readPass connected []).1.state ≠ rd.state := by
  have hsame : ({ rd with responseBuffer := rd.responseBuffer ++ [] } : Reply) =
      rd := by
    rw [List.append_nil]
  rw [readPass, hsame]
  unfold Stirs at hstirs
  split at hstirs
  · next hheaders =>
      split
      · exact .inl fun h => by cases h
      · next hlive =>
          simp only [hheaders, if_true]
          split
          · next hnone =>
              rcases hstirs with hclosed | hsome
              · refine absurd ⟨rfl, ?_, hheaders⟩ hlive
                rw [hclosed]
                rfl
              · exact absurd hnone hsome
          · next headerEnd hend =>
              refine or_iff_not_imp_left.mpr fun hwants => ?_
              rw [not_not] at hwants
              exact (readHeaders_cut (Prod.ext rfl hwants) true []).1
  · next hlength =>
      obtain ⟨hclosed, hclose⟩ := hstirs
      obtain ⟨hnil, -⟩ := (atRest_length hlength).mp hrest
      have hbody := hcap.body
      left
      rw [if_neg fun h => by rw [hlength] at h; cases h.2.2]
      simp only [hlength]
      rw [if_neg (by decide), readBody_length hlength, readContentLength,
        if_pos hclose, hnil, if_neg (by rw [List.length_nil]; omega), hclosed]
      exact fun h => by cases h
  · exact hstirs.elim

end Reply

end QuMesh.Wsman
