import QuMesh.Proofs.HttpText

/-!
# Reading a reply in pieces

Where one pass of `readMore` ends in want of more, the next one goes on as if
the bytes of both had come at once. A line that was not there yet is looked
for again from its start, a chunk that was cut goes on with what is missing of
it, and the line end behind it is skipped when both its bytes have come. So
however a stream is cut, the reply comes to where one pass over all of it
does. The one thing that depends on the cuts is how much of a body was kept
when it proved too long, and that reply has failed.
-/

namespace QuMesh.Wsman

open QuMesh.Lib

namespace Reply

/-- The reply with these bytes behind what it has not looked at. -/
def more (t : Bytes) (rd : Reply) : Reply :=
  { rd with responseBuffer := rd.responseBuffer ++ t }

theorem more_more (t u : Bytes) (rd : Reply) :
    (rd.more t).more u = rd.more (t ++ u) := by
  simp only [more, List.append_assoc]

theorem more_nil (rd : Reply) : rd.more [] = rd := by
  rw [more, List.append_nil]

/-- The same, or too long a body in both. -/
def Agree (p q : Reply × Verdict) : Prop :=
  p = q ∨ (p.2 = .finish bodyTooLong ∧ q.2 = .finish bodyTooLong)

theorem Agree.refl (p : Reply × Verdict) : Agree p p := .inl rfl

theorem Agree.trans {p q r : Reply × Verdict} (h : Agree p q)
    (h' : Agree q r) : Agree p r := by
  rcases h with rfl | ⟨hp, hq⟩
  · exact h'
  · rcases h' with rfl | ⟨-, hr⟩
    · exact .inr ⟨hp, hq⟩
    · exact .inr ⟨hp, hr⟩

theorem Agree.symm {p q : Reply × Verdict} (h : Agree p q) : Agree q p := by
  rcases h with rfl | ⟨hp, hq⟩
  · exact .inl rfl
  · exact .inr ⟨hq, hp⟩

/-! ## The loop over the chunks -/

theorem chunkData_shrinks {rd rd' : Reply} (h : rd.chunkData = (rd', none)) :
    rd'.responseBuffer.length < rd.responseBuffer.length := by
  unfold chunkData at h
  simp only [] at h
  split at h
  · cases h
  · split at h
    · cases h
    · split at h
      · split at h
        · cases h
        · next hroom =>
            cases h
            simp only [List.length_drop] at hroom ⊢
            omega
      · cases h

theorem chunkStep_shrinks {rd rd' : Reply} (h : rd.chunkStep = (rd', none)) :
    rd'.responseBuffer.length < rd.responseBuffer.length := by
  unfold chunkStep at h
  split at h
  · split at h
    · cases h
    · simp only [] at h
      split at h
      · cases h
      · split at h
        · cases h
        · have hlt := chunkData_shrinks h
          simp only [List.length_drop] at hlt
          omega
  · exact chunkData_shrinks h

/-- The loop to its end. -/
def chunks (rd : Reply) : Reply × Verdict :=
  chunkLoop rd.responseBuffer.length rd

theorem chunkStep_empty {rd : Reply} (h : rd.responseBuffer = []) :
    rd.chunkStep = (rd, some .needMore) := by
  rw [chunkStep, h]
  split
  · rfl
  · rw [chunkData, if_pos h]

theorem chunkLoop_fuel (f g : Nat) (rd : Reply)
    (hf : rd.responseBuffer.length ≤ f) (hg : rd.responseBuffer.length ≤ g) :
    chunkLoop f rd = chunkLoop g rd := by
  induction f generalizing g rd with
  | zero =>
      have hnil := List.length_eq_zero_iff.mp (Nat.le_zero.mp hf)
      cases g with
      | zero => rfl
      | succ g => rw [chunkLoop, chunkLoop, chunkStep_empty hnil]
  | succ f ih =>
      cases g with
      | zero =>
          have hnil := List.length_eq_zero_iff.mp (Nat.le_zero.mp hg)
          rw [chunkLoop, chunkLoop, chunkStep_empty hnil]
      | succ g =>
          rw [chunkLoop, chunkLoop]
          split
          · rfl
          · next rd' heq =>
              have hlt := chunkStep_shrinks heq
              exact ih g rd' (by omega) (by omega)

/-- One round, and what is left. -/
theorem chunks_eq (rd : Reply) :
    rd.chunks =
      match rd.chunkStep with
      | (rd', some verdict) => (rd', verdict)
      | (rd', none) => rd'.chunks := by
  rw [chunks]
  cases hlen : rd.responseBuffer.length with
  | zero =>
      rw [chunkStep_empty (List.length_eq_zero_iff.mp hlen)]
      rfl
  | succ n =>
      rw [chunkLoop]
      cases hstep : rd.chunkStep with
      | mk rd' verdict =>
          cases verdict with
          | some verdict => rfl
          | none =>
              have hlt := chunkStep_shrinks hstep
              show chunkLoop n rd' = rd'.chunks
              exact chunkLoop_fuel _ _ rd' (by omega) (Nat.le_refl _)

theorem chunks_stop {rd rd' : Reply} {verdict : Verdict}
    (h : rd.chunkStep = (rd', some verdict)) : rd.chunks = (rd', verdict) := by
  rw [chunks_eq, h]

theorem chunks_go {rd rd' : Reply} (h : rd.chunkStep = (rd', none)) :
    rd.chunks = rd'.chunks := by
  rw [chunks_eq, h]

/-- Rounds that end alike are the ends of loops that do. -/
theorem chunks_agree {p q : Reply}
    (h : p.chunkStep = q.chunkStep ∨
      (p.chunkStep.2 = some (.finish bodyTooLong) ∧
        q.chunkStep.2 = some (.finish bodyTooLong))) :
    Agree p.chunks q.chunks := by
  rcases h with h | ⟨hp, hq⟩
  · rw [chunks_eq p, chunks_eq q, h]
    exact Agree.refl _
  · refine .inr ⟨?_, ?_⟩
    · exact congrArg Prod.snd (chunks_stop (Prod.ext rfl hp))
    · exact congrArg Prod.snd (chunks_stop (Prod.ext rfl hq))

/-! ## A round that was cut -/

/-- How much of the chunk is there. -/
def dataHere (rd : Reply) : Nat :=
  min rd.currentChunkRemaining.toNat rd.responseBuffer.length

/-- That much of it taken. -/
def took (rd : Reply) : Reply :=
  { rd with
    body := rd.body ++ rd.responseBuffer.take rd.dataHere
    responseBuffer := rd.responseBuffer.drop rd.dataHere
    currentChunkRemaining := rd.currentChunkRemaining - rd.dataHere }

/-- The line end behind a chunk that is complete. -/
def chunkEnd (rd : Reply) : Reply × Option Verdict :=
  if rd.currentChunkRemaining = 0 then
    if rd.responseBuffer.length < 2 then (rd, some .needMore)
    else
      ({ rd with
          responseBuffer := rd.responseBuffer.drop 2
          readingChunkSize := true }, none)
  else (rd, some .needMore)

theorem chunkData_eq (rd : Reply) :
    rd.chunkData =
      if rd.responseBuffer = [] then (rd, some .needMore)
      else if rd.body.length + rd.dataHere > maxBodyBytes then
        (rd, some (.finish bodyTooLong))
      else rd.took.chunkEnd := rfl

theorem took_body_length (rd : Reply) :
    rd.took.body.length = rd.body.length + rd.dataHere := by
  rw [took, List.length_append, List.length_take, dataHere]
  omega

theorem dataHere_more (t : Bytes) (rd : Reply) :
    (rd.more t).dataHere = rd.dataHere + (rd.took.more t).dataHere := by
  simp only [dataHere, more, took, List.length_append, List.length_drop]
  omega

/-- Taken in two goes or in one. -/
theorem took_more (t : Bytes) (rd : Reply) :
    (rd.more t).took = (rd.took.more t).took := by
  have hhere := dataHere_more t rd
  have hle : rd.dataHere ≤ rd.responseBuffer.length := Nat.min_le_right _ _
  have htake : (rd.responseBuffer ++ t).take rd.dataHere =
      rd.responseBuffer.take rd.dataHere := List.take_append_of_le_length hle
  have hdrop : (rd.responseBuffer ++ t).drop rd.dataHere =
      rd.responseBuffer.drop rd.dataHere ++ t :=
    List.drop_append_of_le_length hle
  have hbody : rd.body ++ (rd.responseBuffer ++ t).take (rd.more t).dataHere =
      rd.took.body ++
        (rd.took.more t).responseBuffer.take (rd.took.more t).dataHere := by
    rw [hhere, List.take_add, htake, hdrop, ← List.append_assoc]
    rfl
  have hbuffer : (rd.responseBuffer ++ t).drop (rd.more t).dataHere =
      (rd.took.more t).responseBuffer.drop (rd.took.more t).dataHere := by
    rw [hhere, ← List.drop_drop, hdrop]
    rfl
  have hleft : rd.currentChunkRemaining - (rd.more t).dataHere =
      rd.took.currentChunkRemaining - (rd.took.more t).dataHere := by
    rw [hhere, took]
    dsimp only
    omega
  rw [took, took.eq_def (rd.took.more t)]
  simp only [more] at hbody hbuffer hleft ⊢
  rw [hbody, hbuffer, hleft]
  rfl

theorem chunkEnd_more {rd rd' : Reply} (h : rd.chunkEnd = (rd', none))
    (t : Bytes) : (rd.more t).chunkEnd = (rd'.more t, none) := by
  rw [chunkEnd] at h
  split at h
  · next hzero =>
      split at h
      · cases h
      · next hroom =>
          cases h
          have hroom' : ¬(rd.responseBuffer ++ t).length < 2 := by
            rw [List.length_append]
            omega
          have hdrop : (rd.responseBuffer ++ t).drop 2 =
              rd.responseBuffer.drop 2 ++ t :=
            List.drop_append_of_le_length (Nat.not_lt.mp hroom)
          simp only [chunkEnd, more, hzero, if_true, hroom', if_false, hdrop]
  · cases h

/-- A round that went on goes on whatever comes behind. -/
theorem chunkData_more {rd rd' : Reply} (h : rd.chunkData = (rd', none))
    (t : Bytes) : (rd.more t).chunkData = (rd'.more t, none) := by
  rw [chunkData_eq] at h
  split at h
  · cases h
  · next hne =>
      split at h
      · cases h
      · next hfits =>
          -- all of the chunk was there, so no more of it is
          have hzero : rd.took.currentChunkRemaining = 0 := by
            by_contra hleft
            rw [chunkEnd, if_neg hleft] at h
            cases h
          have hnone : (rd.took.more t).dataHere = 0 := by
            simp only [dataHere, more, hzero]
            omega
          have hsame : (rd.took.more t).took = rd.took.more t := by
            rw [took, hnone]
            simp
          have hne' : (rd.more t).responseBuffer ≠ [] :=
            fun hnil => hne (List.append_eq_nil_iff.mp hnil).1
          have hfits' : ¬(rd.more t).body.length + (rd.more t).dataHere >
              maxBodyBytes := by
            rw [dataHere_more, hnone]
            exact hfits
          rw [chunkData_eq, if_neg hne', if_neg hfits', took_more, hsame]
          exact chunkEnd_more h t

/-- Data that ran out is taken up where it did. -/
theorem chunkData_cut {rd rd' : Reply}
    (h : rd.chunkData = (rd', some .needMore)) (t : Bytes) :
    (rd.more t).chunkData = (rd'.more t).chunkData ∨
      ((rd.more t).chunkData.2 = some (.finish bodyTooLong) ∧
        (rd'.more t).chunkData.2 = some (.finish bodyTooLong)) := by
  have hwhole := h
  rw [chunkData_eq] at h
  split at h
  · cases h
    exact .inl rfl
  · next hne =>
      split at h
      · cases h
      · next hfits =>
          have hrd : rd.took = rd' := by
            rw [chunkEnd] at h
            split at h
            · split at h
              · cases h
                rfl
              · cases h
            · cases h
              rfl
          subst hrd
          have hne' : (rd.more t).responseBuffer ≠ [] :=
            fun hnil => hne (List.append_eq_nil_iff.mp hnil).1
          have hlong : (rd.took.more t).body.length +
              (rd.took.more t).dataHere =
              (rd.more t).body.length + (rd.more t).dataHere := by
            show rd.took.body.length + _ = rd.body.length + _
            rw [dataHere_more t rd, took_body_length]
            omega
          by_cases hnil : (rd.took.more t).responseBuffer = []
          · -- nothing is left, and nothing came
            obtain ⟨hleft, rfl⟩ := List.append_eq_nil_iff.mp hnil
            rw [more_nil, more_nil, hwhole, chunkData_eq, if_pos hleft]
            exact .inl rfl
          · rw [chunkData_eq (rd.more t), chunkData_eq (rd.took.more t),
              if_neg hne', if_neg hnil, hlong, took_more]
            split
            · exact .inr ⟨rfl, rfl⟩
            · exact .inl rfl

theorem chunkData_wants {rd rd' : Reply}
    (h : rd.chunkData = (rd', some .needMore)) :
    rd'.readingChunkSize = rd.readingChunkSize := by
  unfold chunkData at h
  simp only [] at h
  split at h
  · cases h
    rfl
  · split at h
    · cases h
    · split at h
      · split at h
        · cases h
          rfl
        · cases h
      · cases h
        rfl

/-- The round behind a size line that ends at `eol`. -/
def sizeRead (eol : Nat) (rd : Reply) : Reply × Option Verdict :=
  let sizeLine := (rd.responseBuffer.take eol).takeWhile (· != 0x3B)
  let size := toLongLong 16 sizeLine
  let rd := { rd with
    responseBuffer := rd.responseBuffer.drop (eol + 2)
    currentChunkRemaining := size.getD 0 }
  if size = none ∨ rd.currentChunkRemaining < 0 then
    (rd, some (.finish "Bad chunk size"))
  else if rd.currentChunkRemaining = 0 then (rd, some (.finish ""))
  else ({ rd with readingChunkSize := false }).chunkData

theorem chunkStep_eq (rd : Reply) :
    rd.chunkStep =
      if rd.readingChunkSize then
        match indexOfInt (ascii "\r\n") rd.responseBuffer with
        | none => (rd, some .needMore)
        | some eol => rd.sizeRead eol
      else rd.chunkData := rfl

/-- A size line is read as it was, whatever comes behind: it ends the reply or
leads on to the data. -/
theorem sizeRead_more {eol : Nat} {rd : Reply}
    (h : eol + 2 ≤ rd.responseBuffer.length) (t : Bytes) :
    (∃ err mid, rd.sizeRead eol = (mid, some (.finish err))) ∨
      ∃ mid : Reply, mid.readingChunkSize = false ∧
        rd.sizeRead eol = mid.chunkData ∧
        (rd.more t).sizeRead eol = (mid.more t).chunkData := by
  have htake : (rd.responseBuffer ++ t).take eol = rd.responseBuffer.take eol :=
    List.take_append_of_le_length (by omega)
  have hdrop : (rd.responseBuffer ++ t).drop (eol + 2) =
      rd.responseBuffer.drop (eol + 2) ++ t :=
    List.drop_append_of_le_length h
  simp only [sizeRead, more, htake, hdrop]
  split
  · exact .inl ⟨_, _, rfl⟩
  · split
    · exact .inl ⟨_, _, rfl⟩
    · exact .inr ⟨_, rfl, rfl, rfl⟩

theorem chunkStep_more {rd rd' : Reply} (h : rd.chunkStep = (rd', none))
    (t : Bytes) : (rd.more t).chunkStep = (rd'.more t, none) := by
  rw [chunkStep_eq] at h ⊢
  split at h
  · next hsize =>
      rw [if_pos (show (rd.more t).readingChunkSize = true from hsize)]
      split at h
      · cases h
      · next eol heol =>
          have hlong : indexOfInt (ascii "\r\n") (rd.more t).responseBuffer =
              some eol := indexOfInt_append heol t
          rw [hlong]
          dsimp only
          rcases sizeRead_more (indexOfInt_le heol) t with
            ⟨err, mid, hend⟩ | ⟨mid, -, hmid, hmore⟩
          · rw [hend] at h
            cases h
          · rw [hmid] at h
            rw [hmore]
            exact chunkData_more h t
  · next hsize =>
      rw [if_neg (show ¬(rd.more t).readingChunkSize = true from hsize)]
      exact chunkData_more h t

theorem chunkStep_cut {rd rd' : Reply}
    (h : rd.chunkStep = (rd', some .needMore)) (t : Bytes) :
    (rd.more t).chunkStep = (rd'.more t).chunkStep ∨
      ((rd.more t).chunkStep.2 = some (.finish bodyTooLong) ∧
        (rd'.more t).chunkStep.2 = some (.finish bodyTooLong)) := by
  have hdata {mid : Reply} (hsize : mid.readingChunkSize = false)
      (hmid : mid.chunkData = (rd', some .needMore)) :
      (rd'.more t).chunkStep = (rd'.more t).chunkData := by
    have hsize' : (rd'.more t).readingChunkSize = false :=
      (chunkData_wants hmid).trans hsize
    rw [chunkStep_eq, hsize']
    rfl
  rw [chunkStep_eq] at h
  split at h
  · next hsize =>
      split at h
      · cases h
        exact .inl rfl
      · next eol heol =>
          have hlong : indexOfInt (ascii "\r\n") (rd.more t).responseBuffer =
              some eol := indexOfInt_append heol t
          rcases sizeRead_more (indexOfInt_le heol) t with
            ⟨err, mid, hend⟩ | ⟨mid, hsize', hmid, hmore⟩
          · rw [hend] at h
            cases h
          · rw [hmid] at h
            have hstep : (rd.more t).chunkStep = (mid.more t).chunkData := by
              rw [chunkStep_eq,
                if_pos (show (rd.more t).readingChunkSize = true from hsize),
                hlong, ← hmore]
            rw [hstep, hdata hsize' h]
            exact chunkData_cut h t
  · next hsize =>
      have hsize' : rd.readingChunkSize = false := by simpa using hsize
      have hstep : (rd.more t).chunkStep = (rd.more t).chunkData := by
        rw [chunkStep_eq,
          if_neg (show ¬(rd.more t).readingChunkSize = true from hsize)]
      rw [hstep, hdata hsize' h]
      exact chunkData_cut h t

/-- A loop that wants more goes on as if it had had it. -/
theorem chunks_cut {rd rd' : Reply} (h : rd.chunks = (rd', .needMore))
    (t : Bytes) : Agree (rd.more t).chunks (rd'.more t).chunks := by
  generalize hn : rd.responseBuffer.length = n
  induction n using Nat.strongRecOn generalizing rd with
  | ind n ih =>
      rw [chunks_eq] at h
      split at h
      · next mid verdict hstep =>
          cases h
          exact chunks_agree (chunkStep_cut hstep t)
      · next mid hstep =>
          have hlt := chunkStep_shrinks hstep
          rw [chunks_go (chunkStep_more hstep t)]
          exact ih _ (hn ▸ hlt) h rfl

/-! ## The other modes -/

theorem readContentLength_cut {connected : Bool} {rd rd' : Reply}
    (h : rd.readContentLength connected = (rd', .needMore)) (later : Bool)
    (t : Bytes) :
    Agree ((rd.more t).readContentLength later)
      ((rd'.more t).readContentLength later) := by
  rw [readContentLength] at h
  split at h
  · next hclose =>
      split at h
      · cases h
      · next hfits =>
          obtain ⟨rfl, -⟩ := Prod.mk.inj h
          have hlen : rd.body.length + (rd.responseBuffer ++ t).length =
              (rd.body ++ rd.responseBuffer).length + ([] ++ t).length := by
            simp only [List.length_append, List.length_nil]
            omega
          simp only [readContentLength, more, hclose, if_true, hlen,
            List.nil_append, List.append_assoc]
          split
          · exact .inr ⟨rfl, rfl⟩
          · exact .refl _
  · next hclose =>
      simp only [] at h
      split at h
      · cases h
      · next hneed =>
          obtain ⟨hrd, hverdict⟩ := Prod.mk.inj h
          split at hverdict
          · cases hverdict
          · next hshort =>
              -- all that was there was needed, and more is
              have hall : min (rd.expectedBody - rd.body.length).toNat
                  rd.responseBuffer.length = rd.responseBuffer.length := by
                rw [List.length_append, List.length_take] at hshort
                omega
              have hleft : rd.responseBuffer.length <
                  (rd.expectedBody - rd.body.length).toNat := by
                rw [List.length_append, List.length_take] at hshort
                omega
              rw [hall, List.take_length, List.drop_length] at hrd
              subst hrd
              have htake : min (rd.expectedBody - rd.body.length).toNat
                  (rd.responseBuffer ++ t).length =
                  rd.responseBuffer.length + min (rd.expectedBody -
                    (rd.body ++ rd.responseBuffer).length).toNat t.length := by
                simp only [List.length_append]
                omega
              have hneed' : ¬rd.expectedBody -
                  (rd.body ++ rd.responseBuffer).length ≤ 0 := by
                rw [List.length_append]
                omega
              simp only [readContentLength, more, hclose, if_false, hneed,
                hneed', htake, List.nil_append, List.take_length_add_append,
                List.drop_length_add_append, List.append_assoc]
              exact .refl _

theorem readContentLength_state (connected : Bool) (rd : Reply) :
    (rd.readContentLength connected).1.state = rd.state := by
  unfold readContentLength
  simp only []
  split
  · split <;> rfl
  · split <;> rfl

theorem chunkData_state (rd : Reply) : rd.chunkData.1.state = rd.state := by
  rw [chunkData_eq]
  split
  · rfl
  · split
    · rfl
    · unfold chunkEnd
      split
      · split <;> rfl
      · rfl

theorem chunkStep_state (rd : Reply) : rd.chunkStep.1.state = rd.state := by
  rw [chunkStep_eq]
  split
  · split
    · rfl
    · unfold sizeRead
      simp only []
      split
      · rfl
      · split
        · rfl
        · exact chunkData_state _
  · exact chunkData_state rd

theorem chunkLoop_state (fuel : Nat) (rd : Reply) :
    (chunkLoop fuel rd).1.state = rd.state := by
  induction fuel generalizing rd with
  | zero => rfl
  | succ fuel ih =>
      have hstep := chunkStep_state rd
      rw [chunkLoop]
      split
      · next heq =>
          rw [heq] at hstep
          exact hstep
      · next heq =>
          rw [heq] at hstep
          rw [ih]
          exact hstep

theorem readBody_state (connected : Bool) (rd : Reply) :
    (rd.readBody connected).1.state = rd.state := by
  unfold readBody
  split
  · exact readContentLength_state connected rd
  · exact chunkLoop_state _ rd
  · rfl

theorem readBody_length {rd : Reply}
    (h : rd.state = .readingBodyContentLength) (connected : Bool) :
    rd.readBody connected = rd.readContentLength connected := by
  rw [readBody, h]

theorem readBody_chunked {rd : Reply} (h : rd.state = .readingBodyChunked)
    (connected : Bool) : rd.readBody connected = rd.chunks := by
  rw [readBody, h]
  rfl

theorem readBody_cut {connected : Bool} {rd rd' : Reply}
    (h : rd.readBody connected = (rd', .needMore)) (later : Bool) (t : Bytes) :
    Agree ((rd.more t).readBody later) ((rd'.more t).readBody later) := by
  have hstate : rd'.state = rd.state := by
    have := readBody_state connected rd
    rw [h] at this
    exact this
  by_cases hlength : rd.state = .readingBodyContentLength
  · rw [readBody_length hlength] at h
    rw [readBody_length (show (rd.more t).state = _ from hlength),
      readBody_length (show (rd'.more t).state = _ from hstate.trans hlength)]
    exact readContentLength_cut h later t
  · by_cases hchunked : rd.state = .readingBodyChunked
    · rw [readBody_chunked hchunked] at h
      rw [readBody_chunked (show (rd.more t).state = _ from hchunked),
        readBody_chunked
          (show (rd'.more t).state = _ from hstate.trans hchunked)]
      exact chunks_cut h t
    · -- no body is read in the other states
      rw [readBody] at h
      split at h
      · next hs => exact absurd hs hlength
      · next hs => exact absurd hs hchunked
      · cases h
        exact .refl _

/-! ## A pass -/

theorem bodyMode_more (t : Bytes) (rd : Reply) :
    (rd.more t).bodyMode = (rd.bodyMode.1.more t, rd.bodyMode.2) := by
  unfold bodyMode more
  simp only []
  split
  · rfl
  · split
    · split
      · rfl
      · split <;> rfl
    · rfl

theorem bodyMode_state (rd : Reply) :
    rd.bodyMode.1.state = .readingBodyContentLength ∨
      rd.bodyMode.1.state = .readingBodyChunked := by
  unfold bodyMode
  simp only []
  split
  · exact .inr rfl
  · split
    · split
      · exact .inl rfl
      · split <;> exact .inl rfl
    · exact .inl rfl

/-- The head is in. -/
def headed (code : Bytes) (responseHeaders : Headers) (rd : Reply) : Reply :=
  { rd with httpStatus := toInt code, responseHeaders }

theorem readHeaders_eq {rawHeaders version code : Bytes} {parts : List Bytes}
    {headers : Headers}
    (hparse : parseHead rawHeaders = (version :: code :: parts, headers))
    (h401 : toInt code ≠ 401) (connected : Bool) (rd : Reply) :
    rd.readHeaders connected rawHeaders =
      match (rd.headed code headers).bodyMode with
      | (mid, some err) => (mid, .finish err)
      | (mid, none) => mid.readBody connected := by
  rw [readHeaders, hparse]
  exact if_neg h401

/-- A head that leaves the reply in want of more was taken, and what is behind
it is being read. -/
theorem readHeaders_wants {connected : Bool} {rawHeaders : Bytes}
    {rd rd' : Reply}
    (h : rd.readHeaders connected rawHeaders = (rd', .needMore)) :
    ∃ version code parts headers mid,
      parseHead rawHeaders = (version :: code :: parts, headers) ∧
        toInt code ≠ 401 ∧ (rd.headed code headers).bodyMode = (mid, none) ∧
        mid.readBody connected = (rd', .needMore) := by
  cases hparse : parseHead rawHeaders with
  | mk parts headers =>
      rw [readHeaders, hparse] at h
      rcases parts with - | ⟨version, - | ⟨code, parts⟩⟩
      · cases h
      · cases h
      · by_cases h401 : toInt code = 401
        · have hverdict := congrArg Prod.snd h
          simp only [h401, if_true] at hverdict
          split at hverdict <;> cases hverdict
        · simp only [h401, if_false] at h
          cases hmode : (rd.headed code headers).bodyMode with
          | mk mid err =>
              have hmid := hmode
              rw [headed] at hmid
              rw [hmid] at h
              cases err with
              | some err => cases h
              | none =>
                  exact ⟨version, code, parts, headers, mid, rfl, h401, hmode, h⟩

theorem readHeaders_cut {connected : Bool} {rawHeaders : Bytes}
    {rd rd' : Reply}
    (h : rd.readHeaders connected rawHeaders = (rd', .needMore)) (later : Bool)
    (t : Bytes) :
    rd'.state ≠ .readingHeaders ∧
      Agree ((rd.more t).readHeaders later rawHeaders)
        ((rd'.more t).readBody later) := by
  obtain ⟨version, code, parts, headers, mid, hparse, h401, hmode, hbody⟩ :=
    readHeaders_wants h
  have hstate := bodyMode_state (rd.headed code headers)
  have hmid := readBody_state connected mid
  rw [hmode] at hstate
  rw [hbody] at hmid
  have hmore : ((rd.more t).headed code headers).bodyMode =
      (mid.more t, none) := by
    have := bodyMode_more t (rd.headed code headers)
    rw [hmode] at this
    exact this
  refine ⟨fun hheaders => ?_, ?_⟩
  · rw [← hmid, hheaders] at hstate
    rcases hstate with hstate | hstate
    · cases hstate
    · cases hstate
  · rw [readHeaders_eq hparse h401, hmore]
    exact readBody_cut hbody later t

/-- A pass over bytes, or over none on a socket that is still connected. -/
theorem readPass_eq {connected : Bool} {t : Bytes}
    (hlive : connected = true ∨ t ≠ []) (rd : Reply) :
    rd.readPass connected t =
      if rd.state = .readingHeaders then
        match indexOfInt (ascii "\r\n\r\n") (rd.responseBuffer ++ t) with
        | none => (rd.more t, .needMore)
        | some headerEnd =>
            ({ rd with
                responseBuffer := (rd.responseBuffer ++ t).drop
                  (headerEnd + 4) }).readHeaders connected
              ((rd.responseBuffer ++ t).take headerEnd)
      else (rd.more t).readBody connected := by
  have hnot : ¬(t = [] ∧ !connected ∧ rd.state = .readingHeaders) := by
    rintro ⟨hnil, hclosed, -⟩
    rcases hlive with hconnected | hne
    · rw [hconnected] at hclosed
      cases hclosed
    · exact hne hnil
  rw [readPass, if_neg hnot]
  rfl

/-- What a pass that wants more left behind is where the next one goes on. -/
theorem readPass_cut {connected : Bool} {chunk : Bytes} {rd rd' : Reply}
    (hlive : connected = true ∨ chunk ≠ [])
    (h : rd.readPass connected chunk = (rd', .needMore)) {later : Bool}
    {t : Bytes} (hlater : later = true ∨ t ≠ []) :
    Agree (rd.readPass later (chunk ++ t)) (rd'.readPass later t) := by
  have hboth : later = true ∨ chunk ++ t ≠ [] :=
    hlater.imp id fun hne hnil => hne (List.append_eq_nil_iff.mp hnil).2
  rw [readPass_eq hlive] at h
  rw [readPass_eq hboth, readPass_eq hlater, ← List.append_assoc]
  split at h
  · next hheaders =>
      rw [if_pos hheaders]
      split at h
      · next hnone =>
          cases h
          rw [if_pos (show (rd.more chunk).state = .readingHeaders from
            hheaders), more_more]
          exact .refl _
      · next headerEnd hend =>
          have hle := indexOfInt_le hend
          have hlen : (ascii "\r\n\r\n").length = 4 := by decide
          rw [hlen] at hle
          rw [indexOfInt_append hend t]
          dsimp only
          rw [List.take_append_of_le_length (by omega),
            List.drop_append_of_le_length hle]
          obtain ⟨hstate, hagree⟩ := readHeaders_cut h later t
          rw [if_neg hstate]
          exact hagree
  · next hheaders =>
      have hstate := readBody_state connected (rd.more chunk)
      rw [h] at hstate
      have hnot : rd'.state ≠ .readingHeaders := by
        rw [hstate]
        exact hheaders
      rw [if_neg hheaders, if_neg hnot, ← more_more]
      exact readBody_cut h later t

/-! ## Passes -/

/-- What one call of `readMore` finds: whether the socket is connected, and
what it has. -/
abbrev Pass := Bool × Bytes

/-- `readyRead` comes with bytes, and a pass that finds none finds a socket
that is connected. -/
def Live (passes : List Pass) : Prop := ∀ p ∈ passes, p.1 = true ∨ p.2 ≠ []

/-- The bytes of all of them. -/
def arrived (passes : List Pass) : Bytes := passes.flatMap Prod.snd

/-- `readMore` after `readMore`. A reply that has its verdict is finished, or
has gone on to another socket, and reads no further here. -/
def reads : List Pass → Reply → Reply × Verdict
  | [], rd => (rd, .needMore)
  | (connected, chunk) :: passes, rd =>
      match rd.readPass connected chunk with
      | (rd, .needMore) => reads passes rd
      | (rd, verdict) => (rd, verdict)

theorem reads_more {connected : Bool} {chunk : Bytes} {rd rd' : Reply}
    (h : rd.readPass connected chunk = (rd', .needMore)) (passes : List Pass) :
    rd.reads ((connected, chunk) :: passes) = rd'.reads passes := by
  rw [reads, h]

theorem reads_stop {connected : Bool} {chunk : Bytes} {rd rd' : Reply}
    {verdict : Verdict} (h : rd.readPass connected chunk = (rd', verdict))
    (hv : verdict ≠ .needMore) (passes : List Pass) :
    rd.reads ((connected, chunk) :: passes) = (rd', verdict) := by
  rw [reads, h]
  cases verdict with
  | needMore => exact absurd rfl hv
  | finish err => rfl
  | unauthorized wwwAuth => rfl

/-- However the bytes are cut, the reply comes to where one pass over all of
them does, up to the pass that gave a verdict. -/
theorem reads_pass {passes : List Pass} (hlive : Live passes)
    (hne : passes ≠ []) (rd : Reply) :
    ∃ before last after, passes = before ++ last :: after ∧
      Agree (rd.reads passes)
        (rd.readPass last.1 (arrived before ++ last.2)) ∧
      (after = [] ∨ (rd.reads passes).2 ≠ .needMore) := by
  induction passes generalizing rd with
  | nil => exact absurd rfl hne
  | cons p passes ih =>
      obtain ⟨connected, chunk⟩ := p
      have hhead : connected = true ∨ chunk ≠ [] := hlive _ List.mem_cons_self
      cases hpass : rd.readPass connected chunk with
      | mk rd' verdict =>
          by_cases hv : verdict = .needMore
          · rw [hv] at hpass
            rw [reads_more hpass]
            rcases passes with - | ⟨q, passes⟩
            · refine ⟨[], (connected, chunk), [], rfl, ?_, .inl rfl⟩
              rw [arrived, List.flatMap_nil, List.nil_append, hpass]
              exact .refl _
            · have hrest : Live (q :: passes) :=
                fun s hs => hlive s (List.mem_cons_of_mem _ hs)
              obtain ⟨before, last, after, hsplit, hagree, hend⟩ :=
                ih hrest (List.cons_ne_nil q passes) rd'
              refine ⟨(connected, chunk) :: before, last, after, ?_, ?_, hend⟩
              · rw [hsplit, List.cons_append]
              · have hlast : last.1 = true ∨ last.2 ≠ [] := by
                  refine hrest last ?_
                  rw [hsplit]
                  exact List.mem_append_right _ List.mem_cons_self
                have hlater : last.1 = true ∨ arrived before ++ last.2 ≠ [] :=
                  hlast.imp id fun h hnil => h (List.append_eq_nil_iff.mp hnil).2
                have hcut := readPass_cut hhead hpass hlater
                rw [arrived, List.flatMap_cons, List.append_assoc]
                exact hagree.trans hcut.symm
          · rw [reads_stop hpass hv]
            refine ⟨[], (connected, chunk), passes, rfl, ?_, .inr hv⟩
            rw [arrived, List.flatMap_nil, List.nil_append, hpass]
            exact .refl _

/-! ## The cap -/

/-- The body is within the cap, and so is the length it is read to. -/
structure Capped (rd : Reply) : Prop where
  body : rd.body.length ≤ maxBodyBytes
  expected : rd.state = .readingBodyContentLength →
    rd.expectedBody ≤ maxBodyBytes

theorem Capped.readContentLength {rd : Reply} (h : rd.Capped)
    (hstate : rd.state = .readingBodyContentLength) (connected : Bool) :
    (rd.readContentLength connected).1.Capped := by
  have hexpected := h.expected hstate
  unfold Reply.readContentLength
  split
  · split
    · exact h
    · next hfits =>
        refine ⟨?_, fun _ => hexpected⟩
        rw [List.length_append]
        omega
  · simp only []
    split
    · exact h
    · refine ⟨?_, fun _ => hexpected⟩
      rw [List.length_append, List.length_take]
      omega

theorem chunkData_capped {rd : Reply} (h : rd.body.length ≤ maxBodyBytes) :
    rd.chunkData.1.body.length ≤ maxBodyBytes := by
  have htook := took_body_length rd
  rw [chunkData_eq]
  split
  · exact h
  · split
    · exact h
    · next hfits =>
        have hend : rd.took.chunkEnd.1.body = rd.took.body := by
          unfold chunkEnd
          split
          · split <;> rfl
          · rfl
        rw [hend, htook]
        exact Nat.not_lt.mp hfits

theorem chunkStep_capped {rd : Reply} (h : rd.body.length ≤ maxBodyBytes) :
    rd.chunkStep.1.body.length ≤ maxBodyBytes := by
  rw [chunkStep_eq]
  split
  · split
    · exact h
    · unfold sizeRead
      simp only []
      split
      · exact h
      · split
        · exact h
        · exact chunkData_capped h
  · exact chunkData_capped h

theorem chunkLoop_capped (fuel : Nat) {rd : Reply}
    (h : rd.body.length ≤ maxBodyBytes) :
    (chunkLoop fuel rd).1.body.length ≤ maxBodyBytes := by
  induction fuel generalizing rd with
  | zero => exact h
  | succ fuel ih =>
      have hstep := chunkStep_capped h
      rw [chunkLoop]
      split
      · next heq =>
          rw [heq] at hstep
          exact hstep
      · next heq =>
          rw [heq] at hstep
          exact ih hstep

theorem Capped.readBody {rd : Reply} (h : rd.Capped) (connected : Bool) :
    (rd.readBody connected).1.Capped := by
  have hstate := readBody_state connected rd
  by_cases hlength : rd.state = .readingBodyContentLength
  · rw [Reply.readBody, hlength]
    exact h.readContentLength hlength connected
  · refine ⟨?_, fun hs => absurd (hstate.symm.trans hs) hlength⟩
    unfold Reply.readBody
    split
    · next hs => exact absurd hs hlength
    · exact chunkLoop_capped _ h.body
    · exact h.body

theorem bodyMode_body (rd : Reply) : rd.bodyMode.1.body = rd.body := by
  unfold bodyMode
  simp only []
  split
  · rfl
  · split
    · split
      · rfl
      · split <;> rfl
    · rfl

theorem bodyMode_capped {rd mid : Reply} (h : rd.body.length ≤ maxBodyBytes)
    (hmode : rd.bodyMode = (mid, none)) : mid.Capped := by
  have hbody := bodyMode_body rd
  rw [hmode] at hbody
  refine ⟨hbody ▸ h, fun hs => ?_⟩
  unfold bodyMode at hmode
  simp only [] at hmode
  split at hmode
  · cases hmode
    cases hs
  · split at hmode
    · split at hmode
      · cases hmode
      · split at hmode
        · cases hmode
        · next hfits =>
            cases hmode
            exact Int.not_lt.mp hfits
    · cases hmode
      show (-2 : Int) ≤ maxBodyBytes
      omega

theorem readHeaders_capped {connected : Bool} {rawHeaders : Bytes} {rd : Reply}
    (h : rd.body.length ≤ maxBodyBytes) :
    (rd.readHeaders connected rawHeaders).1.body.length ≤ maxBodyBytes ∧
      ((rd.readHeaders connected rawHeaders).2 = .needMore →
        (rd.readHeaders connected rawHeaders).1.Capped) := by
  unfold readHeaders
  split
  · next code _ responseHeaders _ =>
      simp only []
      split
      · refine ⟨h, fun hwants => ?_⟩
        dsimp only at hwants
        split at hwants <;> cases hwants
      · let mid := rd.headed code responseHeaders
        have hbody := bodyMode_body mid
        split
        · next heq =>
            have hmid : mid.bodyMode = _ := heq
            rw [hmid] at hbody
            refine ⟨?_, fun hwants => by cases hwants⟩
            rw [hbody]
            exact h
        · next heq =>
            have hbody' : mid.body.length ≤ maxBodyBytes := h
            have hcapped := (bodyMode_capped hbody' heq).readBody connected
            exact ⟨hcapped.body, fun _ => hcapped⟩
  · exact ⟨h, fun hwants => by cases hwants⟩

/-- No pass takes a body beyond the cap, whatever the bytes. -/
theorem readPass_capped (connected : Bool) (chunk : Bytes) {rd : Reply}
    (h : rd.Capped) :
    (rd.readPass connected chunk).1.body.length ≤ maxBodyBytes ∧
      ((rd.readPass connected chunk).2 = .needMore →
        (rd.readPass connected chunk).1.Capped) := by
  have hall {p : Reply × Verdict} (hp : p.1.Capped) :
      p.1.body.length ≤ maxBodyBytes ∧ (p.2 = .needMore → p.1.Capped) :=
    ⟨hp.body, fun _ => hp⟩
  have hmore : (rd.more chunk).Capped := ⟨h.body, h.expected⟩
  rw [readPass]
  split
  · exact hall h
  · simp only []
    split
    · split
      · exact hall hmore
      · exact readHeaders_capped h.body
    · exact hall (hmore.readBody connected)

theorem reads_capped {rd : Reply} (h : rd.Capped) (passes : List Pass) :
    (rd.reads passes).1.body.length ≤ maxBodyBytes := by
  induction passes generalizing rd with
  | nil => exact h.body
  | cons p passes ih =>
      obtain ⟨connected, chunk⟩ := p
      obtain ⟨hbody, hnext⟩ := readPass_capped connected chunk h
      cases hpass : rd.readPass connected chunk with
      | mk rd' verdict =>
          rw [hpass] at hbody hnext
          by_cases hv : verdict = .needMore
          · rw [hv] at hpass
            rw [reads_more hpass]
            exact ih (hnext hv)
          · rw [reads_stop hpass hv]
            exact hbody

end Reply

end QuMesh.Wsman
