import QuMesh.Lib.Text

/-!
# Base64

The encoder takes three bytes at a time and pads the last group. The reader
keeps the bits it has not handed out yet; strict, it stops at the first
character that is none of the alphabet, unless it is padding where padding may
stand, and otherwise it passes over such characters. Four digits of a group
leave it with no bits over, so groups are read one by one.
-/

namespace QuMesh.Lib

def base64Digit (v : Nat) : UInt8 :=
  UInt8.ofNat
    (if v < 26 then 0x41 + v
    else if v < 52 then 0x61 + (v - 26)
    else if v < 62 then 0x30 + (v - 52)
    else if v = 62 then 0x2B
    else 0x2F)

def toBase64 : Bytes → Bytes
  | [] => []
  | [a] =>
      [base64Digit (a.toNat / 4), base64Digit (a.toNat % 4 * 16), 0x3D, 0x3D]
  | [a, b] =>
      [base64Digit (a.toNat / 4),
        base64Digit (a.toNat % 4 * 16 + b.toNat / 16),
        base64Digit (b.toNat % 16 * 4), 0x3D]
  | a :: b :: c :: rest =>
      base64Digit (a.toNat / 4) ::
        base64Digit (a.toNat % 4 * 16 + b.toNat / 16) ::
        base64Digit (b.toNat % 16 * 4 + c.toNat / 64) ::
        base64Digit (c.toNat % 64) :: toBase64 rest

def base64Value (c : UInt8) : Option Nat :=
  if 0x41 ≤ c && c ≤ 0x5A then some (c.toNat - 0x41)
  else if 0x61 ≤ c && c ≤ 0x7A then some (c.toNat - 0x61 + 26)
  else if 0x30 ≤ c && c ≤ 0x39 then some (c.toNat - 0x30 + 52)
  else if c = 0x2B then some 62
  else if c = 0x2F then some 63
  else none

/-- The bits that are left over, and how many they are. -/
structure BitBuffer where
  buf : Nat := 0
  nbits : Nat := 0

/-- Six more bits: the byte that is full now, if one is. -/
def BitBuffer.push (s : BitBuffer) (d : Nat) : Bytes × BitBuffer :=
  let buf := s.buf * 64 + d
  let nbits := s.nbits + 6
  if 8 ≤ nbits then
    ([UInt8.ofNat (buf / 2 ^ (nbits - 8))],
      { buf := buf % 2 ^ (nbits - 8), nbits := nbits - 8 })
  else ([], { buf, nbits })

/-- `size` is the length of the whole input. -/
def fromBase64Loop (strict : Bool) (size : Nat) :
    BitBuffer → Bytes → Option Bytes
  | _, [] => some []
  | s, c :: rest =>
      match base64Value c with
      | some d =>
          let (out, s) := s.push d
          (fromBase64Loop strict size s rest).map (out ++ ·)
      | none =>
          if strict then
            if c = 0x3D && size % 4 = 0 && (rest = [] || rest = [0x3D]) then
              some []
            else none
          else fromBase64Loop strict size s rest

/-- Nothing where the strict reader stops. -/
def fromBase64 (strict : Bool) (b : Bytes) : Option Bytes :=
  fromBase64Loop strict b.length {} b

theorem base64Value_digit {v : Nat} (h : v < 64) :
    base64Value (base64Digit v) = some v := by
  have hall : ∀ v < 64, base64Value (base64Digit v) = some v := by
    decide
  exact hall v h

theorem length_toBase64 (b : Bytes) : (toBase64 b).length % 4 = 0 := by
  induction b using toBase64.induct with
  | case1 | case2 | case3 => simp [toBase64]
  | case4 a b c rest ih =>
      rw [toBase64]
      simp only [List.length_cons]
      omega

/-- The text is no shorter than the bytes. -/
theorem le_length_toBase64 (b : Bytes) : b.length ≤ (toBase64 b).length := by
  induction b using toBase64.induct with
  | case1 | case2 | case3 => simp [toBase64]
  | case4 a b c rest ih =>
      rw [toBase64]
      simp only [List.length_cons]
      omega

theorem ascii_base64Digit {v : Nat} (h : v < 64) : base64Digit v < 0x80 := by
  have hall : ∀ v < 64, base64Digit v < 0x80 := by decide
  exact hall v h

theorem ascii_toBase64 (b : Bytes) : Text.Ascii (toBase64 b) := by
  have hpad : (0x3D : UInt8) < 0x80 := by decide
  induction b using toBase64.induct with
  | case1 => simp [toBase64, Text.Ascii]
  | case2 a =>
      have ha := a.toNat_lt
      have h₁ := ascii_base64Digit (v := a.toNat / 4) (by omega)
      have h₂ := ascii_base64Digit (v := a.toNat % 4 * 16) (by omega)
      simp [toBase64, Text.Ascii, h₁, h₂, hpad]
  | case3 a b =>
      have ha := a.toNat_lt
      have hb := b.toNat_lt
      have h₁ := ascii_base64Digit (v := a.toNat / 4) (by omega)
      have h₂ := ascii_base64Digit (v := a.toNat % 4 * 16 + b.toNat / 16)
        (by omega)
      have h₃ := ascii_base64Digit (v := b.toNat % 16 * 4) (by omega)
      simp [toBase64, Text.Ascii, h₁, h₂, h₃, hpad]
  | case4 a b c rest ih =>
      have ha := a.toNat_lt
      have hb := b.toNat_lt
      have hc := c.toNat_lt
      have h₁ := ascii_base64Digit (v := a.toNat / 4) (by omega)
      have h₂ := ascii_base64Digit (v := a.toNat % 4 * 16 + b.toNat / 16)
        (by omega)
      have h₃ := ascii_base64Digit (v := b.toNat % 16 * 4 + c.toNat / 64)
        (by omega)
      have h₄ := ascii_base64Digit (v := c.toNat % 64) (by omega)
      intro x hx
      simp only [toBase64, List.mem_cons] at hx
      rcases hx with rfl | rfl | rfl | rfl | hx
      · exact h₁
      · exact h₂
      · exact h₃
      · exact h₄
      · exact ih x hx

/-- A digit is read as its six bits. -/
theorem fromBase64Loop_digit {strict : Bool} {size : Nat} {s : BitBuffer}
    {v : Nat} (h : v < 64) (rest : Bytes) :
    fromBase64Loop strict size s (base64Digit v :: rest) =
      (fromBase64Loop strict size (s.push v).2 rest).map ((s.push v).1 ++ ·) := by
  rw [fromBase64Loop, base64Value_digit h]

/-- The four digits of a group are its three bytes, and nothing is left over. -/
theorem fromBase64Loop_group {strict : Bool} {size : Nat} (a b c : UInt8)
    (rest : Bytes) :
    fromBase64Loop strict size {} (base64Digit (a.toNat / 4) ::
        base64Digit (a.toNat % 4 * 16 + b.toNat / 16) ::
        base64Digit (b.toNat % 16 * 4 + c.toNat / 64) ::
        base64Digit (c.toNat % 64) :: rest) =
      (fromBase64Loop strict size {} rest).map ([a, b, c] ++ ·) := by
  have ha := a.toNat_lt
  have hb := b.toNat_lt
  have hc := c.toNat_lt
  have hfirst : (a.toNat / 4 * 64 + (a.toNat % 4 * 16 + b.toNat / 16)) / 16 =
      a.toNat := by omega
  have hsecond : (a.toNat / 4 * 64 + (a.toNat % 4 * 16 + b.toNat / 16)) % 16 =
      b.toNat / 16 := by omega
  have hthird : (b.toNat / 16 * 64 + (b.toNat % 16 * 4 + c.toNat / 64)) / 4 =
      b.toNat := by omega
  have hfourth : (b.toNat / 16 * 64 + (b.toNat % 16 * 4 + c.toNat / 64)) % 4 =
      c.toNat / 64 := by omega
  have hlast : c.toNat / 64 * 64 + c.toNat % 64 = c.toNat := by omega
  rw [fromBase64Loop_digit (by omega), fromBase64Loop_digit (by omega),
    fromBase64Loop_digit (by omega), fromBase64Loop_digit (by omega)]
  simp only [BitBuffer.push, Nat.zero_mul, Nat.zero_add, Nat.reduceAdd,
    Nat.reduceLeDiff, if_true, if_false, Nat.reduceSub, Nat.reducePow, hfirst,
    hsecond, hthird, hfourth, hlast, Nat.div_one, Nat.mod_one,
    UInt8.ofNat_toNat, Option.map_map]
  rfl

/-- What was encoded is read back, whether strictly or not. -/
theorem fromBase64_toBase64 (strict : Bool) (b : Bytes) :
    fromBase64 strict (toBase64 b) = some b := by
  have hsize := length_toBase64 b
  rw [fromBase64]
  generalize (toBase64 b).length = size at hsize ⊢
  induction b using toBase64.induct with
  | case1 => rfl
  | case2 a =>
      have ha := a.toNat_lt
      have hvalue : (a.toNat / 4 * 64 + a.toNat % 4 * 16) / 16 = a.toNat := by
        omega
      rw [toBase64, fromBase64Loop_digit (by omega),
        fromBase64Loop_digit (by omega)]
      cases strict <;>
        simp [fromBase64Loop, BitBuffer.push, base64Value, hsize, hvalue]
  | case3 a b =>
      have ha := a.toNat_lt
      have hb := b.toNat_lt
      have hfirst : (a.toNat / 4 * 64 + (a.toNat % 4 * 16 + b.toNat / 16)) /
          16 = a.toNat := by omega
      have hsecond : (a.toNat / 4 * 64 + (a.toNat % 4 * 16 + b.toNat / 16)) %
          16 = b.toNat / 16 := by omega
      have hthird : (b.toNat / 16 * 64 + b.toNat % 16 * 4) / 4 = b.toNat := by
        omega
      rw [toBase64, fromBase64Loop_digit (by omega),
        fromBase64Loop_digit (by omega), fromBase64Loop_digit (by omega)]
      cases strict <;>
        simp [fromBase64Loop, BitBuffer.push, base64Value, hsize, hfirst,
          hsecond, hthird]
  | case4 a b c rest ih =>
      rw [toBase64, fromBase64Loop_group, ih]
      rfl

example : toBase64 [0x66, 0x6F, 0x6F, 0x62] =
    [0x5A, 0x6D, 0x39, 0x76, 0x59, 0x67, 0x3D, 0x3D] := by decide

end QuMesh.Lib
