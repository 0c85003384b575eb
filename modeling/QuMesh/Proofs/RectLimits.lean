import QuMesh.Proofs.KvmSteps
import QuMesh.Proofs.KvmStable
import QuMesh.Proofs.TileDecode

/-!
# The desktop's limit and the rectangle's

Two ceilings decide how large a picture may be. A desktop is accepted by the
bytes it takes, width and height together; a rectangle is turned down by each
of its sides. A wide desktop of few rows keeps to the first and has rectangles
that break the second, so the two agree just on desktops no side of which is
above 4096.
-/

namespace QuMesh.Kvm

open QuMesh.Lib

variable {z : Zlib}

/-- A rectangle with pixels inside of a desktop. -/
def RectHeader.Inside (r : RectHeader) (w h : Nat) : Prop :=
  1 ≤ r.w ∧ 1 ≤ r.h ∧ r.x + r.w ≤ w ∧ r.y + r.h ≤ h

instance RectHeader.Inside.decidable (r : RectHeader) (w h : Nat) :
    Decidable (r.Inside w h) :=
  inferInstanceAs (Decidable (_ ∧ _ ∧ _ ∧ _))

/-- No rectangle of a desktop is turned down for its size: with nothing behind
its header it is not malformed, and with enough behind it, it is decoded. -/
structure RectsDecode (z : Zlib) (f : PixelFormat) (w h : Nat) : Prop where
  sized : ∀ (rect : RectHeader) (stream : Option (InflateStream z)),
    rect.Inside w h → rect.encoding = encRaw ∨ rect.encoding = encRle →
    (tryDecodeRect [] rect stream f).status ≠ .malformed
  raw : ∀ (rect : RectHeader) (stream : Option (InflateStream z))
    (payload : Bytes), rect.Inside w h → rect.encoding = encRaw →
    rect.w * rect.h * bytesPerPixel f ≤ payload.length →
    ∃ argb, tryDecodeRect payload rect stream f =
      { status := .ok
        rect := { image := some ⟨rect.w, rect.h, argb⟩ }
        consumed := rect.w * rect.h * bytesPerPixel f
        inflate := stream }
  rle : ∀ (rect : RectHeader) (stream stream' : Option (InflateStream z))
    (px : List (Wire f)) (t : Tile f) (block rest : Bytes), rect.Inside w h →
    rect.encoding = encRle → px.length = rect.w * rect.h → t.Encodes px →
    Framed f rect t.bytes stream block stream' →
    tryDecodeRect (pack32Be block.length ++ block ++ rest) rect stream f =
      { status := .ok
        rect := { image := some ⟨rect.w, rect.h, px.map (wireArgb f)⟩ }
        consumed := 4 + block.length
        inflate := stream' }

section

variable {rect : RectHeader} {f : PixelFormat}

theorem tryDecodeRect_over (henc : rect.encoding = encRaw)
    (hpos : 1 ≤ rect.w ∧ 1 ≤ rect.h) (hover : rect.w > 4096 ∨ rect.h > 4096)
    (payload : Bytes) (stream : Option (InflateStream z)) :
    (tryDecodeRect payload rect stream f).status = .malformed := by
  rw [tryDecodeRect, if_neg (by rw [henc]; decide), if_neg (by omega),
    if_pos hover]

theorem tryDecodeRect_raw (henc : rect.encoding = encRaw)
    (hw : 1 ≤ rect.w ∧ rect.w ≤ 4096) (hh : 1 ≤ rect.h ∧ rect.h ≤ 4096)
    {payload : Bytes} (henough : rect.w * rect.h * bytesPerPixel f ≤
      payload.length) (stream : Option (InflateStream z)) :
    ∃ argb, tryDecodeRect payload rect stream f =
      { status := .ok
        rect := { image := some ⟨rect.w, rect.h, argb⟩ }
        consumed := rect.w * rect.h * bytesPerPixel f
        inflate := stream } := by
  obtain ⟨argb, hargb⟩ := pullPixels_some f henough
  have hraw : decodeRaw payload rect f = some (⟨rect.w, rect.h, argb⟩,
      rect.w * rect.h * bytesPerPixel f) := by
    unfold decodeRaw
    dsimp only
    rw [if_neg (by omega), hargb]
    rfl
  refine ⟨argb, ?_⟩
  rw [tryDecodeRect, if_neg (by rw [henc]; decide), if_neg (by omega),
    if_neg (by omega), if_pos henc, hraw]

/-- Nothing behind the header asks for more. -/
theorem tryDecodeRect_empty (henc : rect.encoding = encRaw ∨
      rect.encoding = encRle) (hw : 1 ≤ rect.w ∧ rect.w ≤ 4096)
    (hh : 1 ≤ rect.h ∧ rect.h ≤ 4096) (stream : Option (InflateStream z)) :
    (tryDecodeRect [] rect stream f).status = .needMore := by
  rcases henc with henc | henc
  · have hpixels : 0 < rect.w * rect.h * bytesPerPixel f := by
      refine Nat.mul_pos (Nat.mul_pos hw.1 hh.1) ?_
      cases f <;> decide
    have hraw : decodeRaw [] rect f = none := if_pos hpixels
    rw [tryDecodeRect, if_neg (by rw [henc]; decide), if_neg (by omega),
      if_neg (by omega), if_pos henc, hraw]
  · rw [tryDecodeRect_rle henc hw hh, decodeRle, if_pos (by simp)]

end

theorem rectsDecode_within {f : PixelFormat} {w h : Nat} (hw : w ≤ 4096)
    (hh : h ≤ 4096) : RectsDecode z f w h where
  sized := by
    rintro rect stream ⟨hw1, hh1, hx, hy⟩ henc
    rw [tryDecodeRect_empty henc (by omega) (by omega)]
    decide
  raw := by
    rintro rect stream payload ⟨hw1, hh1, hx, hy⟩ henc henough
    exact tryDecodeRect_raw henc (by omega) (by omega) henough stream
  rle := by
    rintro rect stream stream' px t block rest ⟨hw1, hh1, hx, hy⟩ henc hlen ht
      hblock
    exact tryDecodeRect_tile henc (by omega) (by omega) hlen ht hblock rest

/-- A desktop without pixels has no rectangles with any. -/
theorem rectsDecode_empty {f : PixelFormat} {w h : Nat} (hempty : w = 0 ∨ h = 0) :
    RectsDecode z f w h where
  sized := by
    rintro rect stream ⟨hw1, hh1, hx, hy⟩
    omega
  raw := by
    rintro rect stream payload ⟨hw1, hh1, hx, hy⟩
    omega
  rle := by
    rintro rect stream stream' px t block rest ⟨hw1, hh1, hx, hy⟩
    omega

theorem rectsDecode_iff (f : PixelFormat) (w h : Nat) :
    RectsDecode z f w h ↔ w = 0 ∨ h = 0 ∨ w ≤ 4096 ∧ h ≤ 4096 := by
  constructor
  · intro hdecode
    by_contra hover
    have hinside : (⟨0, 0, w, h, encRaw⟩ : RectHeader).Inside w h := by
      unfold RectHeader.Inside
      dsimp only
      omega
    refine hdecode.sized _ none hinside (.inl rfl) ?_
    exact tryDecodeRect_over rfl (by dsimp only; omega) (by dsimp only; omega)
      [] none
  · rintro (hw | hh | ⟨hw, hh⟩)
    · exact rectsDecode_empty (.inl hw)
    · exact rectsDecode_empty (.inr hh)
    · exact rectsDecode_within hw hh

theorem format_pinFormat (link : Link) (f : PixelFormat) (s : Session z) :
    (s.pinFormat link f).format = f := by
  have hfail (t : Session z) (reason : Reason) :
      (t.fail reason).format = t.format := by
    rw [Session.fail, Session.setState]
    split <;> rfl
  have hwrite : (({ s with format := f } : Session z).writeFrame link
      (.setPixelFormat f)).format = f := by
    rw [Session.writeFrame]
    split
    · rfl
    · exact hfail _ _
  rw [Session.pinFormat]
  split
  · exact hwrite
  · exact hwrite

/-- A desktop the session accepts keeps to the first ceiling in the format that
was pinned for it. All its rectangles decode just if no side of it is above
4096. -/
theorem limits_agree_iff {link : Link} {s t : Session z} {w h : Nat}
    (haccept : s.negotiatePixelFormat link w h = (t, true)) :
    (w = 0 ∨ h = 0 ∨
        displayBufferBytes t.format w h ≤ kMaxDisplayBufferBytes) ∧
      (RectsDecode z t.format w h ↔
        w = 0 ∨ h = 0 ∨ w ≤ 4096 ∧ h ≤ 4096) := by
  refine ⟨?_, rectsDecode_iff t.format w h⟩
  rw [Session.negotiatePixelFormat] at haccept
  split at haccept
  next hempty =>
    rcases hempty with hw | hh
    · exact .inl hw
    · exact .inr (.inl hh)
  next hsized =>
    dsimp only at haccept
    split at haccept
    · cases haccept
    next hfits =>
      cases haccept
      rw [format_pinFormat]
      exact .inr (.inr (by omega))

/-- A desktop of 3840 by 2160, at 8 bits. -/
theorem limits_agree_4k :
    RectsDecode .stored .rgb332 3840 2160 :=
  (@limits_agree_iff .stored .open {} _ 3840 2160 rfl).2.mpr
    (.inr (.inr (by decide)))

/-- A desktop of 5120 by 1440 is accepted, and no row of it is. -/
theorem limits_disagree :
    ¬∀ (s t : Session .stored) (w h : Nat), w < 65536 → h < 65536 →
      s.negotiatePixelFormat .open w h = (t, true) →
      RectsDecode .stored t.format w h := by
  intro hall
  have hdecode := hall {} _ 5120 1440 (by decide) (by decide) rfl
  refine hdecode.sized ⟨0, 0, 5120, 1, encRaw⟩ none (by decide) (.inl rfl) ?_
  exact tryDecodeRect_over rfl (by decide) (by decide) [] none

end QuMesh.Kvm
