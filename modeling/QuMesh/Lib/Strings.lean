import QuMesh.Lib.Bytes
import Mathlib.Data.List.TakeWhile
import Mathlib.Tactic.Common

/-!
# Strings, as the source handles them

The conversions of `QString` that the model needs, on `String`: a string is a
list of code points, and has no unpaired surrogates.
-/

namespace QuMesh.Lib

namespace Strings

/-- `QChar::isSpace` -/
def isSpace (c : Char) : Bool :=
  let n := c.toNat
  n = 0x20 || (0x09 ≤ n && n ≤ 0x0D) || n = 0x85 || n = 0xA0 || n = 0x1680 ||
    (0x2000 ≤ n && n ≤ 0x200A) || n = 0x2028 || n = 0x2029 || n = 0x202F ||
    n = 0x205F || n = 0x3000

/-- `QString::trimmed`, on the code points. -/
def trimmedChars (cs : List Char) : List Char :=
  ((cs.dropWhile isSpace).reverse.dropWhile isSpace).reverse

/-- `QString::trimmed` -/
def trimmed (s : String) : String := String.ofList (trimmedChars s.toList)

/-- `QString::toUtf8` -/
def toUtf8 (s : String) : Bytes := s.toList.flatMap String.utf8EncodeChar

/-- `QString::fromLatin1` -/
def fromLatin1 (b : Bytes) : String :=
  String.ofList (b.map fun x => Char.ofNat x.toNat)

/-- `QString::toLatin1`: a question mark for each UTF-16 unit that has no
Latin-1. -/
def toLatin1 (s : String) : Bytes :=
  s.toList.flatMap fun c =>
    if c.toNat < 0x100 then [UInt8.ofNat c.toNat]
    else if c.toNat < 0x10000 then [0x3F]
    else [0x3F, 0x3F]

/-- Behind the sign: digits, and nothing else. -/
def digits (cs : List Char) : Option Nat :=
  if cs ≠ [] ∧ cs.all Char.isDigit then some (Nat.ofDigitChars 10 cs 0) else none

/-- `QString::toInt`, with nothing for what it reports as not ok. -/
def toInt (s : String) : Option Int :=
  let value : Option Int :=
    match trimmedChars s.toList with
    | '-' :: cs => (digits cs).map fun n => -(n : Int)
    | '+' :: cs => (digits cs).map Int.ofNat
    | cs => (digits cs).map Int.ofNat
  match value with
  | some v => if -(2 : Int) ^ 31 ≤ v ∧ v < (2 : Int) ^ 31 then some v else none
  | none => none

/-- The number that a string spells, if it spells one. -/
def numeral (s : String) : Option Int :=
  match trimmedChars s.toList with
  | '-' :: cs => (digits cs).map fun n => -(n : Int)
  | '+' :: cs => (digits cs).map Int.ofNat
  | cs => (digits cs).map Int.ofNat

/-- `QString::toLongLong`, with nothing for what it reports as not ok. -/
def toLongLong (s : String) : Option Int :=
  (numeral s).filter fun v => -(2 : Int) ^ 63 ≤ v ∧ v < (2 : Int) ^ 63

/-- Digits, with a plus in front or nothing. -/
def unsigned (cs : List Char) : Option Nat :=
  match cs with
  | '+' :: cs => digits cs
  | cs => digits cs

/-- `QString::toULongLong` -/
def toULongLong (s : String) : Option Nat :=
  (unsigned (trimmedChars s.toList)).filter (· < 2 ^ 64)

/-- `QString::toUInt` -/
def toUInt (s : String) : Option Nat :=
  (unsigned (trimmedChars s.toList)).filter (· < 2 ^ 32)

/-- `QString::number(n, 16).toUpper()`: a negative number is read as one of 64
bits. -/
def hexUpper (n : Int) : String :=
  String.ofList
    ((Nat.toDigits 16 (n % (2 : Int) ^ 64).toNat).map Char.toUpper)

set_option maxRecDepth 10000 in
/-- Latin-1 comes back from text. -/
theorem toLatin1_fromLatin1 (b : Bytes) : toLatin1 (fromLatin1 b) = b := by
  have hall : ∀ n < 256, (Char.ofNat n).toNat = n := by decide
  rw [toLatin1, fromLatin1, String.toList_ofList]
  induction b with
  | nil => rfl
  | cons x b ih =>
      have hx := x.toNat_lt
      rw [List.map_cons, List.flatMap_cons, ih, hall _ hx, if_pos hx,
        UInt8.ofNat_toNat]
      rfl

/-! ## Numerals -/

theorem isSpace_digit {c : Char} (h : c.isDigit = true) : isSpace c = false := by
  have hdigit : 48 ≤ c.toNat ∧ c.toNat ≤ 57 := by
    simp only [Char.isDigit, Bool.and_eq_true, decide_eq_true_eq] at h
    exact ⟨h.1, h.2⟩
  simp only [isSpace, Bool.or_eq_false_iff, Bool.and_eq_false_iff,
    decide_eq_false_iff_not]
  omega

theorem trimmedChars_of_noSpace {cs : List Char}
    (h : ∀ c ∈ cs, isSpace c = false) : trimmedChars cs = cs := by
  have hkeep : ∀ {l : List Char}, (∀ c ∈ l, isSpace c = false) →
      l.dropWhile isSpace = l := by
    intro l hl
    cases l with
    | nil => rfl
    | cons c l =>
        rw [List.dropWhile_cons, hl c List.mem_cons_self]
        rfl
  rw [trimmedChars, hkeep h,
    hkeep (fun c hc => h c (List.mem_reverse.mp hc)), List.reverse_reverse]

theorem trimmedChars_digits {cs : List Char} (h : ∀ c ∈ cs, c.isDigit = true) :
    trimmedChars cs = cs :=
  trimmedChars_of_noSpace fun c hc => isSpace_digit (h c hc)

/-- Spaces at the end do not matter. -/
theorem trimmedChars_append_spaces (cs : List Char) {sp : List Char}
    (h : ∀ c ∈ sp, isSpace c = true) :
    trimmedChars (cs ++ sp) = trimmedChars cs := by
  have hgone : sp.dropWhile isSpace = [] := List.dropWhile_eq_nil_iff.mpr h
  have hback : sp.reverse.dropWhile isSpace = [] :=
    List.dropWhile_eq_nil_iff.mpr fun c hc => h c (List.mem_reverse.mp hc)
  rw [trimmedChars, trimmedChars, List.dropWhile_append]
  split
  · next hnil =>
      rw [List.isEmpty_iff] at hnil
      rw [hgone, hnil]
  · rw [List.reverse_append, List.dropWhile_append, hback]
    rfl

/-- Behind a beginning without spaces only the end is trimmed. -/
theorem trimmedChars_append {c d : Char} (cs rest : List Char)
    (hc : isSpace c = false) (hd : isSpace d = false) :
    ∃ kept sp, rest = kept ++ sp ∧ (∀ x ∈ sp, isSpace x = true) ∧
      trimmedChars (c :: cs ++ d :: rest) = c :: cs ++ d :: kept := by
  refine ⟨(rest.reverse.dropWhile isSpace).reverse,
    (rest.reverse.takeWhile isSpace).reverse, ?_, ?_, ?_⟩
  · rw [← List.reverse_append, List.takeWhile_append_dropWhile,
      List.reverse_reverse]
  · exact fun x hx => List.mem_takeWhile_imp (List.mem_reverse.mp hx)
  · have hfront : (c :: cs ++ d :: rest).dropWhile isSpace =
        c :: cs ++ d :: rest := by
      rw [List.cons_append, List.dropWhile_cons, hc]
      rfl
    rw [trimmedChars, hfront, List.reverse_append, List.reverse_cons,
      List.append_assoc, List.dropWhile_append]
    split
    · next hnil =>
        rw [List.isEmpty_iff] at hnil
        rw [hnil, List.cons_append, List.dropWhile_cons, hd]
        simp
    · simp

/-- What is trimmed away is spaces. -/
theorem mem_trimmedChars {c : Char} {cs : List Char} (h : c ∈ cs) :
    isSpace c = true ∨ c ∈ trimmedChars cs := by
  have hkeep : ∀ {l : List Char}, c ∈ l →
      isSpace c = true ∨ c ∈ l.dropWhile isSpace := by
    intro l hl
    rw [← List.takeWhile_append_dropWhile (p := isSpace) (l := l)] at hl
    rcases List.mem_append.mp hl with hl | hl
    · exact Or.inl (List.mem_takeWhile_imp hl)
    · exact Or.inr hl
  rcases hkeep h with hs | hfront
  · exact Or.inl hs
  · rcases hkeep (List.mem_reverse.mpr hfront) with hs | hback
    · exact Or.inl hs
    · exact Or.inr (List.mem_reverse.mpr hback)

theorem toInt_congr {s t : String}
    (h : trimmedChars s.toList = trimmedChars t.toList) : toInt s = toInt t := by
  simp only [toInt, h]

theorem digits_chars {cs : List Char} {n : Nat} (h : digits cs = some n) :
    ∀ c ∈ cs, c.isDigit = true := by
  rw [digits] at h
  split at h
  · next hall => exact List.all_eq_true.mp hall.2
  · cases h

/-- What reads as a number is digits, a sign and spaces. -/
theorem toInt_chars {s : String} {v : Int} (h : toInt s = some v) {c : Char}
    (hc : c ∈ s.toList) :
    isSpace c = true ∨ c.isDigit = true ∨ c = '-' ∨ c = '+' := by
  rcases mem_trimmedChars hc with hs | hmem
  · exact Or.inl hs
  refine Or.inr ?_
  have hread : ∀ {cs : List Char}, digits cs ≠ none → c ∈ cs →
      c.isDigit = true := by
    intro cs hsome hmem
    obtain ⟨n, hn⟩ := Option.ne_none_iff_exists'.mp hsome
    exact digits_chars hn c hmem
  simp only [toInt] at h
  split at h
  · next value hvalue =>
      split at hvalue
      · next cs hcs =>
          have hsome : digits cs ≠ none := by
            intro hnone
            simp [hnone] at hvalue
          rw [hcs] at hmem
          rcases List.mem_cons.mp hmem with rfl | hmem
          · exact Or.inr (Or.inl rfl)
          · exact Or.inl (hread hsome hmem)
      · next cs hcs =>
          have hsome : digits cs ≠ none := by
            intro hnone
            simp [hnone] at hvalue
          rw [hcs] at hmem
          rcases List.mem_cons.mp hmem with rfl | hmem
          · exact Or.inr (Or.inr rfl)
          · exact Or.inl (hread hsome hmem)
      · refine Or.inl (hread (fun hnone => ?_) hmem)
        simp [hnone] at hvalue
  · cases h

theorem toList_toString (n : Nat) : (toString n).toList = Nat.toDigits 10 n :=
  Nat.toList_repr

/-- Digits read as their number while an `int` holds it. -/
theorem toInt_digits {s : String} {n : Nat} (h : digits s.toList = some n) :
    toInt s = if n < 2 ^ 31 then some (n : Int) else none := by
  have hdigits := digits_chars h
  have hvalue : (match trimmedChars s.toList with
      | '-' :: cs => (digits cs).map fun n => -(n : Int)
      | '+' :: cs => (digits cs).map Int.ofNat
      | cs => (digits cs).map Int.ofNat) = some (n : Int) := by
    rw [trimmedChars_digits hdigits]
    split
    next cs hcs =>
      have hminus := hdigits '-' (by rw [hcs]; exact List.mem_cons_self)
      exact absurd hminus (by decide)
    next cs hcs =>
      have hplus := hdigits '+' (by rw [hcs]; exact List.mem_cons_self)
      exact absurd hplus (by decide)
    · rw [h]
      rfl
  simp only [toInt]
  rw [hvalue]
  by_cases hn : n < 2 ^ 31
  · rw [if_pos hn]
    exact if_pos ⟨by omega, by omega⟩
  · rw [if_neg hn]
    exact if_neg (by omega)

theorem digits_toString (n : Nat) : digits (toString n).toList = some n := by
  have hdigits : ∀ c ∈ Nat.toDigits 10 n, c.isDigit = true := by
    intro c hc
    exact Nat.isDigit_of_mem_toDigits (by decide) (by decide) hc
  rw [toList_toString, digits,
    if_pos ⟨Nat.toDigits_ne_nil, List.all_eq_true.mpr hdigits⟩,
    Nat.ofDigitChars_ten_toDigits]

/-- A number is read while an `int` holds it. -/
theorem toInt_numeral {s : String} {v : Int} (h : numeral s = some v) :
    toInt s =
      if -(2 : Int) ^ 31 ≤ v ∧ v < (2 : Int) ^ 31 then some v else none := by
  unfold numeral at h
  simp only [toInt]
  rw [h]

/-- A number that is written out reads back while an `int` holds it. -/
theorem toInt_toString (n : Nat) :
    toInt (toString n) = if n < 2 ^ 31 then some (n : Int) else none :=
  toInt_digits (digits_toString n)

/-- The same of the readers that know no minus. -/
theorem unsigned_toString (n : Nat) :
    unsigned (trimmedChars (toString n).toList) = some n := by
  have hread := digits_toString n
  have hdigits := digits_chars hread
  rw [trimmedChars_digits hdigits]
  unfold unsigned
  split
  · next cs hcs =>
      have hplus := hdigits '+' (by rw [hcs]; exact List.mem_cons_self)
      exact absurd hplus (by decide)
  · exact hread

theorem toUInt_toString {n : Nat} (h : n < 2 ^ 32) :
    toUInt (toString n) = some n := by
  rw [toUInt, unsigned_toString, Option.filter_some, if_pos (by simpa using h)]

theorem toULongLong_toString {n : Nat} (h : n < 2 ^ 64) :
    toULongLong (toString n) = some n := by
  rw [toULongLong, unsigned_toString, Option.filter_some,
    if_pos (by simpa using h)]

end Strings

end QuMesh.Lib
