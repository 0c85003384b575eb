import QuMesh.Kvm.Session

/-!
# What a parser said stays said

Once a parser of the RFB stream answers, whatever comes behind the bytes it
looked at does not change the answer. Every length it compares with is read
from bytes it already has, so the proofs are the same for each: the
comparisons hold, the reads are inside the old buffer, and the slices are too.
For a rectangle the answer includes what became of the inflate stream, so a
block that was decoded would not be decoded differently later, and a block
that has to wait leaves the stream alone.
-/

namespace QuMesh.Kvm

open QuMesh.Lib

theorem tryParseSecurityTypes_append {b : Bytes} {n : Nat}
    (h : tryParseSecurityTypes b = n) (hn : n ≠ 0) (t : Bytes) :
    tryParseSecurityTypes (b ++ t) = n ∧ n ≤ b.length := by
  simp only [tryParseSecurityTypes] at h ⊢
  split at h
  · exact absurd h.symm hn
  · next h1 =>
      rw [byteAt_append (by omega)]
      split at h
      · exact absurd h.symm hn
      · next h2 =>
          have htotal : 1 + byteAt b 0 = n := h
          rw [if_neg (by rw [List.length_append]; omega),
            if_neg (by rw [List.length_append]; omega)]
          exact ⟨h, by omega⟩

theorem tryParseSecurityResult_append {b : Bytes} {ok : Bool} {n : Nat}
    (h : tryParseSecurityResult b = (ok, n)) (hn : n ≠ 0) (t : Bytes) :
    tryParseSecurityResult (b ++ t) = (ok, n) ∧ n ≤ b.length := by
  have hsize : kSecurityResultSize = 4 := rfl
  simp only [tryParseSecurityResult] at h ⊢
  split at h
  · cases h
    exact absurd rfl hn
  · next h1 =>
      rw [if_neg (by simp; omega), read32Be_append (by omega)]
      cases h
      exact ⟨rfl, by omega⟩

/-- A slice inside the old buffer. -/
theorem slice_append {b : Bytes} {off n : Nat} (h : off + n ≤ b.length)
    (t : Bytes) : ((b ++ t).drop off).take n = (b.drop off).take n := by
  rw [List.drop_append_of_le_length (by omega),
    List.take_append_of_le_length (by rw [List.length_drop]; omega)]

theorem tryParseServerInit_append {b : Bytes} {info : ServerInit} {n : Nat}
    (h : tryParseServerInit b = some (info, n)) (t : Bytes) :
    tryParseServerInit (b ++ t) = some (info, n) ∧
      kServerInitFixedSize ≤ n ∧ n ≤ b.length := by
  have hsize : kServerInitFixedSize = 24 := rfl
  simp only [tryParseServerInit] at h ⊢
  split at h
  · cases h
  · next h1 =>
      rw [if_neg (by simp; omega), read32Be_append (by omega)]
      split at h
      · cases h
      · next h2 =>
          rw [if_neg h2]
          split at h
          · cases h
          · next h3 =>
              rw [if_neg (by simp; omega), read16Be_append (by omega),
                read16Be_append (by omega), slice_append (by omega)]
              cases h
              exact ⟨rfl, by omega, by omega⟩

theorem tryParseFrameUpdate_append {b : Bytes} {k n : Nat}
    (h : tryParseFrameUpdate b = some (k, n)) (t : Bytes) :
    tryParseFrameUpdate (b ++ t) = some (k, n) ∧ n = 4 ∧ 4 ≤ b.length := by
  simp only [tryParseFrameUpdate] at h ⊢
  split at h
  · cases h
  · next h1 =>
      rw [if_neg (by simp; omega), byteAt_append (by omega)]
      split at h
      · cases h
      · next h2 =>
          rw [if_neg h2, read16Be_append (by omega)]
          cases h
          exact ⟨rfl, rfl, by omega⟩

theorem tryParseRectHeader_append {b : Bytes} {r : RectHeader} {n : Nat}
    (h : tryParseRectHeader b = some (r, n)) (t : Bytes) :
    tryParseRectHeader (b ++ t) = some (r, n) ∧ n = kRectHeaderSize ∧
      kRectHeaderSize ≤ b.length := by
  have hsize : kRectHeaderSize = 12 := rfl
  simp only [tryParseRectHeader] at h ⊢
  split at h
  · cases h
  · next h1 =>
      rw [if_neg (by simp; omega),
        read16Be_append (by omega), read16Be_append (by omega),
        read16Be_append (by omega), read16Be_append (by omega),
        read32Be_append (by omega)]
      cases h
      exact ⟨rfl, rfl, by omega⟩

/-! ## Pixels -/

theorem pullPixel_append {f : PixelFormat} {b rest : Bytes} {c : UInt32}
    (h : pullPixel f b = some (c, rest)) (t : Bytes) :
    pullPixel f (b ++ t) = some (c, rest ++ t) := by
  cases f with
  | rgb565 =>
      match b with
      | [] => cases h
      | [_] => cases h
      | lo :: hi :: tail => cases h; rfl
  | rgb332 =>
      match b with
      | [] => cases h
      | v :: tail => cases h; rfl

/-- A wire pixel is there as soon as its bytes are. -/
theorem pullPixel_some (f : PixelFormat) {b : Bytes}
    (h : bytesPerPixel f ≤ b.length) :
    ∃ c, pullPixel f b = some (c, b.drop (bytesPerPixel f)) := by
  cases f with
  | rgb565 =>
      match b with
      | [] => simp [bytesPerPixel] at h
      | [_] => simp [bytesPerPixel] at h
      | lo :: hi :: tail => exact ⟨_, rfl⟩
  | rgb332 =>
      match b with
      | [] => simp [bytesPerPixel] at h
      | v :: tail => exact ⟨_, rfl⟩

theorem pullPixels_append {f : PixelFormat} {n : Nat} {b rest : Bytes}
    {cs : List UInt32} (h : pullPixels f n b = some (cs, rest)) (t : Bytes) :
    pullPixels f n (b ++ t) = some (cs, rest ++ t) := by
  induction n generalizing b cs with
  | zero => cases h; rfl
  | succ n ih =>
      rw [pullPixels] at h ⊢
      split at h
      · cases h
      · next c rest' hp =>
          rw [pullPixel_append hp t]
          split at h
          · cases h
          · next cs' rest'' hps =>
              cases h
              simp only [ih hps]

/-- So are `n` of them. -/
theorem pullPixels_some (f : PixelFormat) {n : Nat} {b : Bytes}
    (h : n * bytesPerPixel f ≤ b.length) :
    ∃ cs, pullPixels f n b = some (cs, b.drop (n * bytesPerPixel f)) := by
  induction n generalizing b with
  | zero => exact ⟨[], by simp [pullPixels]⟩
  | succ n ih =>
      rw [Nat.succ_mul] at h
      obtain ⟨c, hc⟩ := pullPixel_some f (b := b) (by omega)
      obtain ⟨cs, hcs⟩ := ih (b := b.drop (bytesPerPixel f)) (by
        rw [List.length_drop]
        omega)
      refine ⟨c :: cs, ?_⟩
      simp only [pullPixels, hc, hcs, List.drop_drop]
      rw [Nat.succ_mul, Nat.add_comm]

theorem decodeRaw_append {b : Bytes} {rect : RectHeader} {f : PixelFormat}
    {p : Image × Nat} (h : decodeRaw b rect f = some p) (t : Bytes) :
    decodeRaw (b ++ t) rect f = some p ∧ p.2 ≤ b.length := by
  simp only [decodeRaw] at h ⊢
  split at h
  · cases h
  · next h1 =>
      rw [if_neg (by simp; omega)]
      obtain ⟨cs, hcs⟩ := pullPixels_some f (n := rect.w * rect.h) (b := b)
        (by omega)
      rw [pullPixels_append hcs t]
      rw [hcs] at h
      simp only [Option.map_some, Option.some.injEq] at h ⊢
      rw [← h]
      exact ⟨rfl, by simp; omega⟩

/-! ## Blocks and rectangles -/

section

variable {z : Zlib}

theorem decodeRle_append {b : Bytes} {rect : RectHeader}
    {inflate : Option (InflateStream z)} {f : PixelFormat}
    (h : (decodeRle b rect inflate f).status ≠ .needMore) (t : Bytes) :
    decodeRle (b ++ t) rect inflate f = decodeRle b rect inflate f := by
  simp only [decodeRle] at h ⊢
  split at h
  · exact absurd rfl h
  · next h1 =>
      rw [if_neg (by simp; omega), if_neg h1, read32Be_append (by omega)]
      split at h
      · next h2 => rw [if_pos h2, if_pos h2]
      · next h2 =>
          rw [if_neg h2, if_neg h2]
          split at h
          · next h3 => rw [if_pos h3, if_pos h3]
          · next h3 =>
              rw [if_neg h3, if_neg h3]
              split at h
              · exact absurd rfl h
              · next h4 =>
                  rw [if_neg (by simp; omega), if_neg h4,
                    slice_append (by omega)]

/-- A block that has to wait leaves the inflate stream alone. -/
theorem decodeRle_needMore {b : Bytes} {rect : RectHeader}
    {inflate : Option (InflateStream z)} {f : PixelFormat}
    (h : (decodeRle b rect inflate f).status = .needMore) :
    (decodeRle b rect inflate f).inflate = inflate := by
  simp only [decodeRle] at h ⊢
  split at h
  · next h1 => rw [if_pos h1]
  · next h1 =>
      rw [if_neg h1]
      split at h
      · cases h
      · next h2 =>
          rw [if_neg h2]
          split at h
          · cases h
          · next h3 =>
              rw [if_neg h3]
              split at h
              · next h4 => rw [if_pos h4]
              · -- The whole block is here: whatever it is, it is answered.
                exfalso
                revert h
                simp only [tileDecoding]
                split
                · split <;> simp
                · split
                  · simp
                  · split
                    · simp
                    · simp
                    · split <;> simp

/-- A block that was answered was inside the buffer. -/
theorem decodeRle_consumed {b : Bytes} {rect : RectHeader}
    {inflate : Option (InflateStream z)} {f : PixelFormat}
    (h : (decodeRle b rect inflate f).status ≠ .needMore) :
    (decodeRle b rect inflate f).consumed ≤ b.length := by
  simp only [decodeRle] at h ⊢
  split at h
  · exact absurd rfl h
  · next h1 =>
      rw [if_neg h1]
      split at h
      · next h2 => rw [if_pos h2]; exact Nat.zero_le _
      · next h2 =>
          rw [if_neg h2]
          split at h
          · next h3 => rw [if_pos h3]; exact Nat.zero_le _
          · next h3 =>
              rw [if_neg h3]
              split at h
              · exact absurd rfl h
              · next h4 =>
                  rw [if_neg h4]
                  have htile (argb : Option (List UInt32))
                      (s : Option (InflateStream z)) :
                      (tileDecoding argb rect
                        (4 + (signed32 (read32Be b 0)).toNat) s).consumed ≤
                        b.length := by
                    cases argb with
                    | none => exact Nat.zero_le _
                    | some argb => simp only [tileDecoding]; omega
                  split
                  · exact htile _ _
                  · split
                    · exact Nat.zero_le _
                    · split
                      · exact Nat.zero_le _
                      · exact Nat.zero_le _
                      · exact htile _ _

theorem tryDecodeRect_append {b : Bytes} {rect : RectHeader}
    {inflate : Option (InflateStream z)} {f : PixelFormat}
    (h : (tryDecodeRect b rect inflate f).status ≠ .needMore) (t : Bytes) :
    tryDecodeRect (b ++ t) rect inflate f = tryDecodeRect b rect inflate f := by
  rw [tryDecodeRect] at h ⊢
  rw [tryDecodeRect]
  split
  · rfl
  · next h1 =>
      rw [if_neg h1] at h
      split
      · rfl
      · next h2 =>
          rw [if_neg h2] at h
          split
          · rfl
          · next h3 =>
              rw [if_neg h3] at h
              split
              · next h4 =>
                  rw [if_pos h4] at h
                  cases hp : decodeRaw b rect f with
                  | none => rw [hp] at h; exact absurd rfl h
                  | some p => rw [(decodeRaw_append hp t).1]
              · next h4 =>
                  rw [if_neg h4] at h
                  split
                  · next h5 =>
                      rw [if_pos h5] at h
                      exact decodeRle_append h t
                  · rfl

theorem tryDecodeRect_needMore {b : Bytes} {rect : RectHeader}
    {inflate : Option (InflateStream z)} {f : PixelFormat}
    (h : (tryDecodeRect b rect inflate f).status = .needMore) :
    (tryDecodeRect b rect inflate f).inflate = inflate := by
  rw [tryDecodeRect] at h ⊢
  split
  · rfl
  · next h1 =>
      rw [if_neg h1] at h
      split
      · rfl
      · next h2 =>
          rw [if_neg h2] at h
          split
          · rfl
          · next h3 =>
              rw [if_neg h3] at h
              split
              · split <;> rfl
              · next h4 =>
                  rw [if_neg h4] at h
                  split
                  · next h5 =>
                      rw [if_pos h5] at h
                      exact decodeRle_needMore h
                  · rfl

theorem tryDecodeRect_consumed {b : Bytes} {rect : RectHeader}
    {inflate : Option (InflateStream z)} {f : PixelFormat}
    (h : (tryDecodeRect b rect inflate f).status ≠ .needMore) :
    (tryDecodeRect b rect inflate f).consumed ≤ b.length := by
  rw [tryDecodeRect] at h ⊢
  split
  · exact Nat.zero_le _
  · next h1 =>
      rw [if_neg h1] at h
      split
      · exact Nat.zero_le _
      · next h2 =>
          rw [if_neg h2] at h
          split
          · exact Nat.zero_le _
          · next h3 =>
              rw [if_neg h3] at h
              split
              · next h4 =>
                  cases hp : decodeRaw b rect f with
                  | none => exact Nat.zero_le _
                  | some p => exact (decodeRaw_append hp []).2
              · next h4 =>
                  rw [if_neg h4] at h
                  split
                  · next h5 =>
                      rw [if_pos h5] at h
                      exact decodeRle_consumed h
                  · exact Nat.zero_le _

end

end QuMesh.Kvm
