import QuMesh.Lib.Run
import QuMesh.Proofs.KvmSteps

/-!
# Where a session can wait for ever

Every length the parsers believe is bounded, except that the bound on the name
in `ServerInit` is checked inside the parser, which answers a name that is too
long as it answers a message that is not all there. So a session in
`ServerInit` whose name length is out of range waits for bytes that cannot
help it: `server_init_stalls`.

`no_stall_iff` says that is the only way. A length counts as far as it has
arrived; missing bytes are read as zero, which is the least they can be. In
every other state, and for every other inbox, enough zeros make the session go
on or fail.
-/

namespace QuMesh.Kvm

open QuMesh.Lib

variable {z : Zlib}

/-- The states in which the session reads the stream. -/
def State.reading : State → Bool
  | .version | .security | .authResult | .serverInit | .frameLoop => true
  | .idle | .failed => false

/-- The session is not going to wait for ever: if a round neither takes bytes
nor fails, bytes can come that make one do so. -/
def Session.NoStall (link : Link) (s : Session z) : Prop :=
  ¬ Acted (s.step link) → ∃ more, Acted ((s.feed more).step link)

/-- The name length of a `ServerInit` is out of range, whatever is still to
come of it. -/
def nameTooLong (inbox : Bytes) : Prop := read32Be inbox 20 > 1048576

/-! ## Lengths that have not all arrived -/

theorem byteAt_le_append (b t : Bytes) (i : Nat) :
    byteAt b i ≤ byteAt (b ++ t) i := by
  by_cases h : i < b.length
  · exact Nat.le_of_eq (byteAt_append h t).symm
  · have hzero : byteAt b i = 0 := by
      rw [byteAt, List.getD_eq_default _ _ (by omega)]
      rfl
    rw [hzero]
    exact Nat.zero_le _

theorem read32Be_le_append (b t : Bytes) (i : Nat) :
    read32Be b i ≤ read32Be (b ++ t) i := by
  have h0 := byteAt_le_append b t i
  have h1 := byteAt_le_append b t (i + 1)
  have h2 := byteAt_le_append b t (i + 2)
  have h3 := byteAt_le_append b t (i + 2 + 1)
  simp only [read32Be, read16Be]
  omega

theorem read32Be_lt (b : Bytes) (i : Nat) : read32Be b i < 2 ^ 32 := by
  have h0 := read16Be_lt b i
  have h1 := read16Be_lt b (i + 2)
  rw [read32Be]
  omega

/-- Zeros behind a string are what its readers find there anyway. -/
theorem byteAt_zeros (b : Bytes) (n i : Nat) :
    byteAt (b ++ List.replicate n 0) i = byteAt b i := by
  by_cases h : i < b.length
  · exact byteAt_append h _
  · have hzero : byteAt b i = 0 := by
      rw [byteAt, List.getD_eq_default _ _ (by omega)]
      rfl
    rw [hzero, byteAt, List.getD_append_right _ _ _ _ (by omega)]
    simp [List.getD_eq_getElem?_getD, List.getElem?_replicate]
    split <;> rfl

theorem read32Be_zeros (b : Bytes) (n i : Nat) :
    read32Be (b ++ List.replicate n 0) i = read32Be b i := by
  simp only [read32Be, read16Be, byteAt_zeros]

/-- The parser refuses a name length that is too long, as it refuses one that
is negative. -/
theorem signed32_out_of_range {v : Nat} (hv : v < 2 ^ 32) :
    (signed32 v < 0 ∨ signed32 v > 1048576) ↔ v > 1048576 := by
  rw [signed32]
  split <;> omega

/-! ## Enough bytes -/

/-- More bytes than any frame has. -/
def plenty : Nat := 2 ^ 27

theorem maxBlock_le {rect : RectHeader} (f : PixelFormat)
    (hw : rect.w ≤ 4096) (hh : rect.h ≤ 4096) :
    maxBlock f rect ≤ 2 ^ 26 := by
  have hpix : rect.w * rect.h ≤ 4096 * 4096 := Nat.mul_le_mul hw hh
  have hbpp : bytesPerPixel f + 1 ≤ 3 := by cases f <;> decide
  have hmul : rect.w * rect.h * (bytesPerPixel f + 1) ≤ 4096 * 4096 * 3 :=
    Nat.mul_le_mul hpix hbpp
  simp only [maxBlock]
  omega

theorem decodeRle_answers {b : Bytes} {rect : RectHeader}
    (inflate : Option (InflateStream z)) (f : PixelFormat)
    (hw : rect.w ≤ 4096) (hh : rect.h ≤ 4096) (hb : 2 ^ 26 + 4 ≤ b.length) :
    (decodeRle b rect inflate f).status ≠ .needMore := by
  have hmax := maxBlock_le f hw hh
  have htile (argb : Option (List UInt32)) (n : Nat)
      (s : Option (InflateStream z)) :
      (tileDecoding argb rect n s).status ≠ .needMore := by
    cases argb <;> simp [tileDecoding]
  simp only [decodeRle]
  rw [if_neg (by omega)]
  split
  · simp
  · split
    · simp
    · rw [if_neg (by omega)]
      split
      · exact htile _ _ _
      · split
        · simp
        · split
          · simp
          · simp
          · exact htile _ _ _

theorem tryDecodeRect_answers {b : Bytes} (rect : RectHeader)
    (inflate : Option (InflateStream z)) (f : PixelFormat)
    (hb : 2 ^ 26 + 4 ≤ b.length) :
    (tryDecodeRect b rect inflate f).status ≠ .needMore := by
  rw [tryDecodeRect]
  split
  · simp
  · split
    · simp
    · split
      · simp
      · next hbig =>
          rw [not_or] at hbig
          have hw : rect.w ≤ 4096 := by omega
          have hh : rect.h ≤ 4096 := by omega
          split
          · have hpix : rect.w * rect.h ≤ 4096 * 4096 := Nat.mul_le_mul hw hh
            have hbpp : bytesPerPixel f ≤ 2 := by cases f <;> decide
            have hmul : rect.w * rect.h * bytesPerPixel f ≤ 4096 * 4096 * 2 :=
              Nat.mul_le_mul hpix hbpp
            obtain ⟨cs, hcs⟩ := pullPixels_some f (n := rect.w * rect.h)
              (b := b) (by omega)
            simp only [decodeRaw]
            rw [if_neg (by omega), hcs]
            simp
          · split
            · exact decodeRle_answers inflate f hw hh hb
            · simp

namespace Session

theorem stepRect_answers (link : Link) {s : Session z}
    (hb : plenty ≤ s.inbox.length) : Acted (s.stepRect link) := by
  rw [plenty] at hb
  have hparse : tryParseRectHeader s.inbox = some (⟨read16Be s.inbox 0,
      read16Be s.inbox 2, read16Be s.inbox 4, read16Be s.inbox 6,
      signed32 (read32Be s.inbox 8)⟩, kRectHeaderSize) := by
    rw [tryParseRectHeader, if_neg (by rw [kRectHeaderSize]; omega)]
  rw [stepRect, hparse]
  dsimp only
  generalize hd : tryDecodeRect (s.inbox.drop kRectHeaderSize) _
    (some s.inflate) s.format = d
  have hmore : d.status ≠ .needMore := by
    rw [← hd]
    refine tryDecodeRect_answers _ _ _ ?_
    rw [List.length_drop, kRectHeaderSize]
    omega
  rw [onDecoding]
  dsimp only
  split
  · next h => exact absurd h hmore
  · exact Or.inr (state_fail _ _)
  · exact Or.inr (state_fail _ _)
  · exact Or.inr (state_fail _ _)
  · exact applyRect_acted ..

theorem stepMessage_answers {s : Session z} (hb : plenty ≤ s.inbox.length) :
    Acted s.stepMessage := by
  rw [plenty] at hb
  simp only [stepMessage]
  split
  · next h0 =>
      rw [tryParseFrameUpdate, if_neg (by omega), if_neg (by omega)]
      exact Or.inl rfl
  · split
    · exact Or.inl rfl
    · split
      · rw [if_neg (by omega)]
        split
        · exact Or.inr (state_fail _ _)
        · next hmax =>
            rw [kServerCutTextMax] at hmax
            rw [if_neg (by omega)]
            exact Or.inl rfl
      · exact Or.inr (state_fail _ _)

/-- With plenty of bytes every state goes on or fails, unless the name length
says otherwise. -/
theorem step_answers (link : Link) {s : Session z}
    (hst : s.state.reading = true) (hb : plenty ≤ s.inbox.length)
    (hname : ¬ (s.state = .serverInit ∧ nameTooLong s.inbox)) :
    Acted (s.step link) := by
  have hb' := hb
  rw [plenty] at hb'
  cases hs : s.state with
  | version =>
      simp only [step, hs, stepHandshake]
      rw [if_neg (by omega)]
      exact Or.inl rfl
  | security =>
      have hlt := byteAt_lt s.inbox 0
      have hn : tryParseSecurityTypes s.inbox ≠ 0 := by
        rw [tryParseSecurityTypes, if_neg (by omega)]
        dsimp only
        rw [if_neg (by omega)]
        omega
      simp only [step, hs, stepHandshake]
      rw [if_neg hn]
      exact Or.inl rfl
  | authResult =>
      have hsize : kSecurityResultSize = 4 := rfl
      have hp : tryParseSecurityResult s.inbox =
          (signed32 (read32Be s.inbox 0) == 0, 4) := by
        rw [tryParseSecurityResult, if_neg (by omega), hsize]
      simp only [step, hs, stepHandshake, hp]
      rw [if_neg (by omega)]
      split
      · exact Or.inr (state_fail _ _)
      · exact Or.inl rfl
  | serverInit =>
      have hshort : ¬ nameTooLong s.inbox := fun h => hname ⟨hs, h⟩
      rw [nameTooLong] at hshort
      have hsize : kServerInitFixedSize = 24 := rfl
      have hrange := (signed32_out_of_range (read32Be_lt s.inbox 20)).not.mpr
        hshort
      obtain ⟨info, n, hp⟩ : ∃ info n,
          tryParseServerInit s.inbox = some (info, n) := by
        rw [tryParseServerInit, if_neg (by omega)]
        dsimp only
        rw [if_neg hrange, if_neg (by omega)]
        exact ⟨_, _, rfl⟩
      simp only [step, hs, stepHandshake, hp]
      split
      · next hnp => exact Or.inr (negotiate_false hnp)
      · exact Or.inl rfl
  | frameLoop =>
      simp only [step, hs, stepFrameLoop]
      split
      · exact stepRect_answers link hb
      · rw [if_neg]
        · exact stepMessage_answers hb
        · intro hempty
          rw [List.isEmpty_iff.mp hempty] at hb'
          simp at hb'
  | idle => rw [hs] at hst; cases hst
  | failed => rw [hs] at hst; cases hst

/-- The `ServerInit` that never parses. -/
theorem step_stalls (link : Link) {s : Session z} (hs : s.state = .serverInit)
    (hname : nameTooLong s.inbox) (more : Bytes) :
    ¬ Acted ((s.feed more).step link) := by
  have hlong : read32Be (s.inbox ++ more) 20 > 1048576 :=
    Nat.lt_of_lt_of_le hname (read32Be_le_append _ _ _)
  have hrange := (signed32_out_of_range (read32Be_lt _ _)).mpr hlong
  have hnone : tryParseServerInit (s.feed more).inbox = none := by
    rw [feed_inbox, tryParseServerInit]
    split
    · rfl
    · dsimp only
      rw [if_pos hrange]
  simp only [step, feed_state, hs, stepHandshake, hnone]
  rintro (h | h)
  · cases h
  · rw [feed_state, hs] at h
    cases h

end Session

/-- A session that reads the stream can always be made to go on or fail,
except in `ServerInit` with a name length out of range. -/
theorem no_stall_iff (link : Link) (s : Session z)
    (hs : s.state.reading = true) :
    s.NoStall link ↔ ¬ (s.state = .serverInit ∧ nameTooLong s.inbox) := by
  constructor
  · rintro h ⟨hst, hname⟩
    have hnow := Session.step_stalls link hst hname []
    rw [Session.feed_nil] at hnow
    obtain ⟨more, hmore⟩ := h hnow
    exact Session.step_stalls link hst hname more hmore
  · intro hname _
    refine ⟨List.replicate plenty 0, Session.step_answers link hs ?_ ?_⟩
    · rw [Session.feed_inbox, List.length_append, List.length_replicate]
      omega
    · rw [nameTooLong] at hname ⊢
      rw [Session.feed_state, Session.feed_inbox, read32Be_zeros]
      exact hname

/-- A handshake up to a `ServerInit` whose name is -1 bytes long. -/
def stallingRun : List Event :=
  [.start true true, .rawBytes (List.replicate 14 1),
    .rawBytes [0, 0, 0, 0], .rawBytes (List.replicate 20 0 ++
      [0xFF, 0xFF, 0xFF, 0xFF])]

theorem server_init_stalls :
    ¬ (run (Loop.handle .open) ({} : Loop .stored) stallingRun).session.NoStall
        .open := by
  have hstuck := Session.step_stalls .open
    (s := (run (Loop.handle .open) ({} : Loop .stored) stallingRun).session)
    (by decide) (by rw [nameTooLong]; decide)
  intro h
  have hnow := hstuck []
  rw [Session.feed_nil] at hnow
  obtain ⟨more, hmore⟩ := h hnow
  exact hstuck more hmore

/-- The same with an honest name length waits for the name. -/
theorem server_init_waits :
    (run (Loop.handle .open) ({} : Loop .stored) (stallingRun.take 3 ++
      [.rawBytes (List.replicate 23 0 ++ [5])])).session.NoStall .open :=
  (no_stall_iff .open _ (by decide)).mpr fun h =>
    absurd h.2 (by rw [nameTooLong]; decide)

end QuMesh.Kvm
