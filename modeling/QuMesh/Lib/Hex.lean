import QuMesh.Lib.Text

/-!
# Hex

Bytes are written two lower-case digits each. The reader is more liberal: it
takes digits of both cases, passes over everything else, and pairs them from
the end, so that of an odd number the first stands alone. What was written is
read back, and it is ASCII.
-/

namespace QuMesh.Lib

def toHex (b : Bytes) : Bytes := b.flatMap fun x => hexLower 2 x.toNat

/-- The value of a hex digit. -/
def hexValue (c : UInt8) : Option Nat :=
  if 0x30 ≤ c && c ≤ 0x39 then some (c.toNat - 0x30)
  else if 0x61 ≤ c && c ≤ 0x66 then some (c.toNat - 0x57)
  else if 0x41 ≤ c && c ≤ 0x46 then some (c.toNat - 0x37)
  else none

def isHex (b : Bytes) : Bool := b.all fun c => (hexValue c).isSome

/-- Values of digits, the last one first, to bytes, the last one first. -/
def pairDigits : List Nat → Bytes
  | [] => []
  | [low] => [UInt8.ofNat low]
  | low :: high :: rest => UInt8.ofNat (16 * high + low) :: pairDigits rest

def fromHex (b : Bytes) : Bytes :=
  (pairDigits (b.filterMap hexValue).reverse).reverse

theorem toHex_cons (x : UInt8) (b : Bytes) :
    toHex (x :: b) = hexLower 2 x.toNat ++ toHex b := rfl

theorem length_toHex (b : Bytes) : (toHex b).length = 2 * b.length := by
  induction b with
  | nil => rfl
  | cons x b ih =>
      have hpair : (hexLower 2 x.toNat).length = 2 := by simp [hexLower]
      rw [toHex_cons, List.length_append, ih, hpair, List.length_cons]
      omega

set_option maxRecDepth 10000 in
/-- The two digits of a byte have the values of its halves. -/
theorem hexValue_pair (x : UInt8) :
    (hexLower 2 x.toNat).map hexValue =
      [some (x.toNat / 16), some (x.toNat % 16)] := by
  have hall : ∀ n < 256, (hexLower 2 n).map hexValue =
      [some (n / 16), some (n % 16)] := by decide
  exact hall x.toNat x.toNat_lt

theorem isHex_append (a b : Bytes) : isHex (a ++ b) = (isHex a && isHex b) :=
  List.all_append

theorem isHex_toHex (b : Bytes) : isHex (toHex b) = true := by
  induction b with
  | nil => rfl
  | cons x b ih =>
      have hpair : isHex (hexLower 2 x.toNat) = true := by
        have hmap := hexValue_pair x
        rw [isHex, List.all_eq_true]
        intro c hc
        have hmem := List.mem_map_of_mem (f := hexValue) hc
        rw [hmap] at hmem
        rcases List.mem_cons.mp hmem with heq | hmem
        · simp [heq]
        · simp [List.mem_singleton.mp hmem]
      rw [toHex_cons, isHex_append, hpair, ih, Bool.and_self]

set_option maxRecDepth 10000 in
theorem ascii_toHex (b : Bytes) : Text.Ascii (toHex b) := by
  have hall : ∀ n < 256, (hexLower 2 n).all (· < 0x80) = true := by
    decide
  intro c hc
  obtain ⟨x, _, hcx⟩ := List.mem_flatMap.mp hc
  have hpair := List.all_eq_true.mp (hall x.toNat x.toNat_lt) c hcx
  exact of_decide_eq_true hpair

/-- Digits in front of an even number of them are paired on their own. -/
theorem pairDigits_append (a : Bytes) (more : List Nat) :
    pairDigits ((a.flatMap fun x => [x.toNat / 16, x.toNat % 16]).reverse ++
      more) = a.reverse ++ pairDigits more := by
  induction a generalizing more with
  | nil => rfl
  | cons x a ih =>
      have hx : 16 * (x.toNat / 16) + x.toNat % 16 = x.toNat := by omega
      simp only [List.flatMap_cons, List.reverse_cons, List.nil_append,
        List.cons_append, List.append_assoc]
      rw [ih, pairDigits, hx, UInt8.ofNat_toNat]

/-- What was written in hex is read back. -/
theorem fromHex_toHex (b : Bytes) : fromHex (toHex b) = b := by
  have hdigits : (toHex b).filterMap hexValue =
      b.flatMap fun x => [x.toNat / 16, x.toNat % 16] := by
    induction b with
    | nil => rfl
    | cons x b ih =>
        have hpair : (hexLower 2 x.toNat).filterMap hexValue =
            [x.toNat / 16, x.toNat % 16] := by
          have hmap := congrArg (List.filterMap id) (hexValue_pair x)
          rwa [List.filterMap_map] at hmap
        rw [toHex_cons, List.filterMap_append, ih, hpair, List.flatMap_cons]
  have hpairs := pairDigits_append b []
  rw [List.append_nil] at hpairs
  rw [fromHex, hdigits, hpairs, pairDigits, List.append_nil,
    List.reverse_reverse]

example : fromHex [0x46, 0x31, 0x7A, 0x32] = [0x0F, 0x12] := by decide

/-! ## How much is read -/

theorem length_pairDigits (digits : List Nat) :
    (pairDigits digits).length = (digits.length + 1) / 2 := by
  induction digits using pairDigits.induct with
  | case1 | case2 => simp [pairDigits]
  | case3 low high rest ih =>
      rw [pairDigits, List.length_cons, ih, List.length_cons, List.length_cons]
      omega

theorem length_fromHex (b : Bytes) :
    (fromHex b).length = ((b.filterMap hexValue).length + 1) / 2 := by
  rw [fromHex, List.length_reverse, length_pairDigits, List.length_reverse]

/-- Values of digits, two for each byte. -/
theorem exists_bytes {digits : List Nat} (hdigits : ∀ d ∈ digits, d < 16)
    {n : Nat} (hlength : digits.length = 2 * n) :
    ∃ b : Bytes, digits = b.flatMap fun x => [x.toNat / 16, x.toNat % 16] := by
  induction n generalizing digits with
  | zero => exact ⟨[], List.length_eq_zero_iff.mp hlength⟩
  | succ n ih =>
      obtain ⟨high, low, rest, rfl⟩ :
          ∃ high low rest, digits = high :: low :: rest := by
        match digits, hlength with
        | high :: low :: rest, _ => exact ⟨high, low, rest, rfl⟩
      simp only [List.forall_mem_cons] at hdigits
      obtain ⟨hhigh, hlow, hrest⟩ := hdigits
      obtain ⟨b, rfl⟩ := ih hrest (by
        simp only [List.length_cons] at hlength
        omega)
      refine ⟨UInt8.ofNat (16 * high + low) :: b, ?_⟩
      have hbyte : (UInt8.ofNat (16 * high + low)).toNat = 16 * high + low :=
        UInt8.toNat_ofNat_of_lt' (show _ < 256 by omega)
      have hdiv : (16 * high + low) / 16 = high := by omega
      have hmod : (16 * high + low) % 16 = low := by omega
      rw [List.flatMap_cons, hbyte, hdiv, hmod]
      rfl

/-- The lower-case digit of a value. -/
def hexDigitByte (d : Nat) : UInt8 :=
  UInt8.ofNat (if d < 10 then 0x30 + d else 0x57 + d)

theorem hexValue_hexDigitByte {d : Nat} (h : d < 16) :
    hexValue (hexDigitByte d) = some d := by
  have hall : ∀ d < 16, hexValue (hexDigitByte d) = some d := by
    decide
  exact hall d h

theorem length_halves (b : Bytes) :
    (b.flatMap fun x => [x.toNat / 16, x.toNat % 16]).length =
      2 * b.length := by
  induction b with
  | nil => rfl
  | cons x b ih =>
      rw [List.flatMap_cons, List.length_append, ih, List.length_cons]
      simp only [List.length_cons, List.length_nil]
      omega

set_option maxRecDepth 10000 in
theorem toHex_eq_digits (b : Bytes) :
    toHex b =
      (b.flatMap fun x => [x.toNat / 16, x.toNat % 16]).map hexDigitByte := by
  have hpair : ∀ n < 256, hexLower 2 n =
      [n / 16, n % 16].map hexDigitByte := by
    decide
  induction b with
  | nil => rfl
  | cons x b ih =>
      rw [toHex_cons, List.flatMap_cons, List.map_append, ← ih,
        hpair x.toNat x.toNat_lt]

theorem mem_toHex {b : Bytes} {c : UInt8} (hc : c ∈ toHex b) :
    ∃ d < 16, hexDigitByte d = c := by
  rw [toHex_eq_digits] at hc
  obtain ⟨d, hd, rfl⟩ := List.mem_map.mp hc
  obtain ⟨x, -, hx⟩ := List.mem_flatMap.mp hd
  have hlt := x.toNat_lt
  refine ⟨d, ?_, rfl⟩
  rcases List.mem_cons.mp hx with rfl | hx
  · omega
  · rw [List.mem_singleton.mp hx]
    omega

theorem filterMap_hexDigitByte {digits : List Nat}
    (hdigits : ∀ d ∈ digits, d < 16) :
    (digits.map hexDigitByte).filterMap hexValue = digits := by
  induction digits with
  | nil => rfl
  | cons d digits ih =>
      rw [List.forall_mem_cons] at hdigits
      rw [List.map_cons,
        List.filterMap_cons_some (hexValue_hexDigitByte hdigits.1),
        ih hdigits.2]

/-- An even number of lower-case digits is written back as it was read. -/
theorem toHex_fromHex {digits : List Nat} (hdigits : ∀ d ∈ digits, d < 16)
    {n : Nat} (hlength : digits.length = 2 * n) :
    toHex (fromHex (digits.map hexDigitByte)) = digits.map hexDigitByte := by
  obtain ⟨b, rfl⟩ := exists_bytes hdigits hlength
  rw [← toHex_eq_digits, fromHex_toHex]

end QuMesh.Lib
