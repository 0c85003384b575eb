import Mathlib.Algebra.Group.Int.Defs
import Mathlib.Algebra.Group.Nat.Defs
import Mathlib.Data.List.GetD
import Mathlib.Tactic.Common

/-!
# Bytes and the integers laid out in them

Byte strings are lists of `UInt8`. The readers take an offset, as the code
they serve does, and read zero past the end; every caller checks the length
first, so what the lemmas say is that a read inside the string does not
depend on what follows it. Widths are explicit: a reader of two bytes is
below `2 ^ 16` because its bytes are below `2 ^ 8`, and a packer reduces
what does not fit.
-/

namespace QuMesh.Lib

abbrev Bytes := List UInt8

/-- The byte at an offset, as a number. -/
def byteAt (b : Bytes) (off : Nat) : Nat := (b.getD off 0).toNat

def read16Le (b : Bytes) (off : Nat) : Nat :=
  byteAt b off + 2 ^ 8 * byteAt b (off + 1)

def read32Le (b : Bytes) (off : Nat) : Nat :=
  read16Le b off + 2 ^ 16 * read16Le b (off + 2)

def read16Be (b : Bytes) (off : Nat) : Nat :=
  2 ^ 8 * byteAt b off + byteAt b (off + 1)

def read32Be (b : Bytes) (off : Nat) : Nat :=
  2 ^ 16 * read16Be b off + read16Be b (off + 2)

/-- Two's complement: what a 32-bit pattern is as a signed number. -/
def signed32 (n : Nat) : Int := if n < 2 ^ 31 then n else (n : Int) - 2 ^ 32

def pack16Le (v : Nat) : Bytes := [UInt8.ofNat v, UInt8.ofNat (v / 2 ^ 8)]

def pack32Le (v : Nat) : Bytes := pack16Le v ++ pack16Le (v / 2 ^ 16)

def pack16Be (v : Nat) : Bytes := [UInt8.ofNat (v / 2 ^ 8), UInt8.ofNat v]

def pack32Be (v : Nat) : Bytes := pack16Be (v / 2 ^ 16) ++ pack16Be v

/-! ## Reads inside a string -/

theorem byteAt_lt (b : Bytes) (off : Nat) : byteAt b off < 2 ^ 8 :=
  UInt8.toNat_lt _

theorem read32Be_eq (b : Bytes) (off : Nat) :
    read32Be b off = 2 ^ 16 * (2 ^ 8 * byteAt b off + byteAt b (off + 1)) +
      (2 ^ 8 * byteAt b (off + 2) + byteAt b (off + 3)) := rfl

theorem byteAt_append {b : Bytes} {off : Nat} (h : off < b.length) (t : Bytes) :
    byteAt (b ++ t) off = byteAt b off := by
  rw [byteAt, byteAt, List.getD_append _ _ _ _ h]

theorem read16Be_lt (b : Bytes) (off : Nat) : read16Be b off < 2 ^ 16 := by
  have h0 := byteAt_lt b off
  have h1 := byteAt_lt b (off + 1)
  rw [read16Be]; omega

theorem read32Le_lt (b : Bytes) (off : Nat) : read32Le b off < 2 ^ 32 := by
  have h0 := byteAt_lt b off
  have h1 := byteAt_lt b (off + 1)
  have h2 := byteAt_lt b (off + 2)
  have h3 := byteAt_lt b (off + 2 + 1)
  rw [read32Le, read16Le, read16Le]
  omega

theorem read16Le_append {b : Bytes} {off : Nat} (h : off + 2 ≤ b.length)
    (t : Bytes) : read16Le (b ++ t) off = read16Le b off := by
  rw [read16Le, read16Le, byteAt_append (by omega), byteAt_append (by omega)]

theorem read32Le_append {b : Bytes} {off : Nat} (h : off + 4 ≤ b.length)
    (t : Bytes) : read32Le (b ++ t) off = read32Le b off := by
  rw [read32Le, read32Le, read16Le_append (by omega),
    read16Le_append (by omega)]

theorem read16Be_append {b : Bytes} {off : Nat} (h : off + 2 ≤ b.length)
    (t : Bytes) : read16Be (b ++ t) off = read16Be b off := by
  rw [read16Be, read16Be, byteAt_append (by omega), byteAt_append (by omega)]

theorem read32Be_append {b : Bytes} {off : Nat} (h : off + 4 ≤ b.length)
    (t : Bytes) : read32Be (b ++ t) off = read32Be b off := by
  rw [read32Be, read32Be, read16Be_append (by omega),
    read16Be_append (by omega)]

theorem byteAt_take {b : Bytes} {n off : Nat} (h : off < n) :
    byteAt (b.take n) off = byteAt b off := by
  rw [byteAt, byteAt, List.getD_eq_getElem?_getD, List.getD_eq_getElem?_getD,
    List.getElem?_take_of_lt h]

theorem slice_take {b : Bytes} {n off k : Nat} (h : off + k ≤ n) :
    ((b.take n).drop off).take k = (b.drop off).take k := by
  rw [List.drop_take, List.take_take, Nat.min_eq_left (by omega)]

/-! ## Reads past a string -/

theorem byteAt_past (b t : Bytes) (off : Nat) :
    byteAt (b ++ t) (b.length + off) = byteAt t off := by
  rw [byteAt, byteAt, List.getD_append_right _ _ _ _ (by omega)]
  congr 2
  omega

theorem read16Le_past (b t : Bytes) (off : Nat) :
    read16Le (b ++ t) (b.length + off) = read16Le t off := by
  rw [read16Le, read16Le, Nat.add_assoc, byteAt_past, byteAt_past]

theorem read32Le_past (b t : Bytes) (off : Nat) :
    read32Le (b ++ t) (b.length + off) = read32Le t off := by
  rw [read32Le, read32Le, Nat.add_assoc, read16Le_past, read16Le_past]

theorem read16Be_past (b t : Bytes) (off : Nat) :
    read16Be (b ++ t) (b.length + off) = read16Be t off := by
  rw [read16Be, read16Be, Nat.add_assoc, byteAt_past, byteAt_past]

theorem read32Be_past (b t : Bytes) (off : Nat) :
    read32Be (b ++ t) (b.length + off) = read32Be t off := by
  rw [read32Be, read32Be, Nat.add_assoc, read16Be_past, read16Be_past]

theorem slice_past (b t : Bytes) (off k : Nat) :
    ((b ++ t).drop (b.length + off)).take k = (t.drop off).take k := by
  rw [← List.drop_drop, List.drop_left]

/-! ## What was packed -/

theorem read16Le_pack (v : Nat) (t : Bytes) :
    read16Le (pack16Le v ++ t) 0 = v % 2 ^ 16 := by
  simp only [read16Le, pack16Le, byteAt, List.cons_append, List.getD_cons_zero,
    List.getD_cons_succ, UInt8.toNat_ofNat']
  omega

theorem read32Le_pack (v : Nat) (t : Bytes) :
    read32Le (pack32Le v ++ t) 0 = v % 2 ^ 32 := by
  simp only [read32Le, read16Le, pack32Le, pack16Le, byteAt, List.cons_append,
    List.nil_append, List.getD_cons_zero, List.getD_cons_succ,
    UInt8.toNat_ofNat']
  omega

theorem read16Be_pack (v : Nat) (t : Bytes) :
    read16Be (pack16Be v ++ t) 0 = v % 2 ^ 16 := by
  simp only [read16Be, pack16Be, byteAt, List.cons_append, List.getD_cons_zero,
    List.getD_cons_succ, UInt8.toNat_ofNat']
  omega

theorem read32Be_pack (v : Nat) (t : Bytes) :
    read32Be (pack32Be v ++ t) 0 = v % 2 ^ 32 := by
  simp only [read32Be, read16Be, pack32Be, pack16Be, byteAt, List.cons_append,
    List.nil_append, List.getD_cons_zero, List.getD_cons_succ,
    UInt8.toNat_ofNat']
  omega

/-- A number behind a head. -/
theorem read32Be_behind (head : Bytes) {v : Nat} (h : v < 2 ^ 32) (t : Bytes) :
    read32Be (head ++ (pack32Be v ++ t)) head.length = v := by
  have hpast := read32Be_past head (pack32Be v ++ t) 0
  rw [Nat.add_zero] at hpast
  rw [hpast, read32Be_pack, Nat.mod_eq_of_lt h]

end QuMesh.Lib
