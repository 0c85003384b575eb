import QuMesh.Lib.Hex

/-!
# UUIDs

A UUID is its sixteen bytes in the order of RFC 4122. It is written as five
groups of lower-case digits with dashes between them. The reader takes digits
of both cases and a brace in front, stops behind the last digit it needs, and
makes the null UUID of anything else. What was written is read back, and the
null UUID cannot be told from what is none.
-/

namespace QuMesh.Lib.Uuid

/-- `QUuid::fromRfc4122(b).toString(QUuid::WithoutBraces)` -/
def toText (b : Bytes) : Bytes :=
  toHex (b.take 4) ++ 0x2D :: (toHex ((b.drop 4).take 2) ++
    0x2D :: (toHex ((b.drop 6).take 2) ++ 0x2D ::
      (toHex ((b.drop 8).take 2) ++ 0x2D :: toHex (b.drop 10))))

/-- `n` bytes in hex, and what stands behind them. -/
def takeHex (n : Nat) (src : Bytes) : Option (Bytes × Bytes) :=
  let digits := src.take (2 * n)
  if digits.length = 2 * n ∧ isHex digits then
    some (fromHex digits, src.drop (2 * n))
  else none

def takeDash : Bytes → Option Bytes
  | 0x2D :: src => some src
  | _ => none

def isNull (b : Bytes) : Bool := b.all (· == 0)

/-- `QUuid(text)` on the Latin-1 of the text, and nothing for the null UUID. -/
def ofText (text : Bytes) : Option Bytes := do
  let src := text.take 38
  let src := if src.head? = some 0x7B then src.drop 1 else src
  let (d1, src) ← takeHex 4 src
  let src ← takeDash src
  let (d2, src) ← takeHex 2 src
  let src ← takeDash src
  let (d3, src) ← takeHex 2 src
  let src ← takeDash src
  let (d4, src) ← takeHex 2 src
  let src ← takeDash src
  let (d5, _) ← takeHex 6 src
  let b := d1 ++ d2 ++ d3 ++ d4 ++ d5
  if isNull b then none else some b

theorem takeHex_toHex {n : Nat} {b : Bytes} (h : b.length = n) (rest : Bytes) :
    takeHex n (toHex b ++ rest) = some (b, rest) := by
  have hlen : (toHex b).length = 2 * n := by rw [length_toHex, h]
  simp only [takeHex]
  rw [List.take_left' hlen, List.drop_left' hlen,
    if_pos ⟨hlen, isHex_toHex b⟩, fromHex_toHex]

theorem takeDash_cons (rest : Bytes) : takeDash (0x2D :: rest) = some rest :=
  rfl

theorem length_toText {b : Bytes} (h : b.length = 16) :
    (toText b).length = 36 := by
  simp [toText, length_toHex, h]

/-- The first digit is no brace. -/
theorem head_toText {b : Bytes} (h : b.length = 16) :
    (toText b).head? ≠ some 0x7B := by
  intro hbrace
  have hmem : (0x7B : UInt8) ∈ toHex (b.take 4) := by
    have hlen : (toHex (b.take 4)).length = 8 := by
      rw [length_toHex, List.length_take, h]
      rfl
    rw [toText] at hbrace
    cases hhex : toHex (b.take 4) with
    | nil =>
        rw [hhex] at hlen
        cases hlen
    | cons c rest =>
        rw [hhex] at hbrace
        rw [Option.some.inj hbrace]
        exact List.mem_cons_self
  obtain ⟨d, hd, hdigit⟩ := mem_toHex hmem
  have hnone : ∀ d < 16, hexDigitByte d ≠ 0x7B := by decide
  exact hnone d hd hdigit

/-- What was written is read back, but for the null UUID. -/
theorem ofText_toText {b : Bytes} (h : b.length = 16) :
    ofText (toText b) = if isNull b then none else some b := by
  have htake : (toText b).take 38 = toText b :=
    List.take_of_length_le (by rw [length_toText h]; decide)
  have hparts : b.take 4 ++ (b.drop 4).take 2 ++ (b.drop 6).take 2 ++
      (b.drop 8).take 2 ++ b.drop 10 = b := by
    have hgroup : ∀ off, (b.drop off).take 2 ++ b.drop (off + 2) =
        b.drop off := by
      intro off
      rw [← List.drop_drop, List.take_append_drop]
    rw [List.append_assoc, List.append_assoc, List.append_assoc, hgroup 8,
      hgroup 6, hgroup 4, List.take_append_drop]
  have hlast : takeHex 6 (toHex (b.drop 10)) = some (b.drop 10, []) := by
    have := takeHex_toHex (n := 6) (b := b.drop 10) (by simp [h]) []
    rwa [List.append_nil] at this
  rw [ofText, htake]
  dsimp only
  rw [if_neg (head_toText h), toText, takeHex_toHex (by simp [h])]
  simp only [Option.bind_eq_bind, Option.bind_some, takeDash_cons]
  rw [takeHex_toHex (by simp [h])]
  simp only [Option.bind_some, takeDash_cons]
  rw [takeHex_toHex (by simp [h])]
  simp only [Option.bind_some, takeDash_cons]
  rw [takeHex_toHex (by simp [h])]
  simp only [Option.bind_some, takeDash_cons]
  rw [hlast]
  simp only [Option.bind_some, hparts]

end QuMesh.Lib.Uuid
