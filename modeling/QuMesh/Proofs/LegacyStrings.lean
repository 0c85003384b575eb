import QuMesh.App.Migrator
import QuMesh.Lib.JsonText

/-!
# Legacy strings

A string of the legacy application is kept in one of two ways, one byte a
character where Latin-1 is enough and in UTF-16 where it is not, and comes out
of `decodeValue` to be read as UTF-8. For UTF-16 the value is re-encoded, and a
string survives as long as nothing is taken for a byte order mark at its front.
The bytes of Latin-1 are passed on as they are. Those of ASCII mean the same in
both; that a string with any other of them is never read right is a matter of
counting. Reading makes a character of a byte at most, so that every byte of the
string has to be read on its own to get as many characters as it has, and on its
own a byte past ASCII is none.
-/

namespace QuMesh.Migrate

open QuMesh.Lib

/-! ## Strings -/

/-- The UTF-8 of a string. -/
def charsUtf8 (s : List Char) : Bytes := s.flatMap fun c => codePoint c.toNat

def isLatin1 (s : List Char) : Bool := s.all (·.toNat ≤ 0xFF)

/-- A string the way the header documents: the tag, and Latin-1 or UTF-16LE. -/
def storedValue (s : List Char) : Bytes :=
  if isLatin1 s then 0x01 :: s.map fun c => UInt8.ofNat c.toNat
  else 0x00 ::
    (s.flatMap fun c => utf16Units c.toNat).flatMap fun u => pack16Le u.toNat

theorem charsUtf8_cons (c : Char) (s : List Char) :
    charsUtf8 (c :: s) = codePoint c.toNat ++ charsUtf8 s := rfl

/-- No half of a pair, and nothing past the last plane. -/
def Scalar (v : Nat) : Prop := v < 0xD800 ∨ 0xDFFF < v ∧ v < 0x110000

theorem scalar_toNat (c : Char) : Scalar c.toNat := c.valid

theorem continuation_ofNat {n : Nat} (h : n < 64) :
    isContinuation (UInt8.ofNat (0x80 + n)) = true := by
  have hn : (UInt8.ofNat (0x80 + n)).toNat = 0x80 + n :=
    UInt8.toNat_ofNat_of_lt' (show _ < 256 by omega)
  rw [isContinuation_iff, hn]
  omega

/-- The bounds on the second byte of a sequence hold for what `codePoint`
writes, since it writes no half of a pair. -/
theorem sequence_codePoint {v : Nat} (hv : Scalar v) :
    sequenceLength (codePoint v) = some (codePoint v).length := by
  have htail (k : Nat) :=
    continuation_ofNat (Nat.mod_lt (v / k) (show 64 > 0 by omega))
  unfold Scalar at hv
  unfold codePoint
  dsimp only
  split
  next hone =>
    have hb : (UInt8.ofNat v).toNat = v :=
      UInt8.toNat_ofNat_of_lt' (show _ < 256 by omega)
    refine sequenceLength_ascii ?_ []
    rw [UInt8.lt_iff_toNat_lt, hb]
    exact hone
  split
  next hone htwo =>
    have hb : (UInt8.ofNat (0xC0 + v / 64)).toNat = 0xC0 + v / 64 :=
      UInt8.toNat_ofNat_of_lt' (show _ < 256 by omega)
    simp only [sequenceLength, UInt8.lt_iff_toNat_lt, hb, UInt8.reduceToNat,
      htail, if_true]
    rw [if_neg (by omega), if_neg (by omega), if_pos (by omega)]
    rfl
  split
  next hone htwo hthree =>
    have hb : (UInt8.ofNat (0xE0 + v / 4096)).toNat = 0xE0 + v / 4096 :=
      UInt8.toNat_ofNat_of_lt' (show _ < 256 by omega)
    have hc : (UInt8.ofNat (0x80 + v / 64 % 64)).toNat = 0x80 + v / 64 % 64 :=
      UInt8.toNat_ofNat_of_lt' (show _ < 256 by omega)
    simp only [sequenceLength, UInt8.lt_iff_toNat_lt, UInt8.le_iff_toNat_le, hb,
      hc, UInt8.reduceToNat, htail, ← UInt8.toNat_inj, Bool.and_true,
      Bool.and_eq_true, decide_eq_true_eq]
    rw [if_neg (by omega), if_neg (by omega), if_neg (by omega),
      if_pos (by omega), if_pos]
    · rfl
    · constructor
      · split <;> simp only [UInt8.reduceToNat] <;> omega
      · split <;> simp only [UInt8.reduceToNat] <;> omega
  next hone htwo hthree =>
    have hb : (UInt8.ofNat (0xF0 + v / 262144)).toNat = 0xF0 + v / 262144 :=
      UInt8.toNat_ofNat_of_lt' (show _ < 256 by omega)
    have hc : (UInt8.ofNat (0x80 + v / 4096 % 64)).toNat =
        0x80 + v / 4096 % 64 :=
      UInt8.toNat_ofNat_of_lt' (show _ < 256 by omega)
    simp only [sequenceLength, UInt8.lt_iff_toNat_lt, UInt8.le_iff_toNat_le, hb,
      hc, UInt8.reduceToNat, htail, ← UInt8.toNat_inj, Bool.and_true,
      Bool.and_eq_true, decide_eq_true_eq]
    rw [if_neg (by omega), if_neg (by omega), if_neg (by omega),
      if_neg (by omega), if_pos (by omega), if_pos]
    · rfl
    · constructor
      · split <;> simp only [UInt8.reduceToNat] <;> omega
      · split <;> simp only [UInt8.reduceToNat] <;> omega

theorem wellFormed_charsUtf8 (s : List Char) : WellFormed (charsUtf8 s) := by
  induction s with
  | nil => exact .nil
  | cons c s ih => exact .cons (sequence_codePoint (scalar_toNat c)) ih

/-- The string as the application has it. -/
def ofChars (s : List Char) : Text := ⟨charsUtf8 s, wellFormed_charsUtf8 s⟩

theorem leads_charsUtf8 (s : List Char) : leads (charsUtf8 s) = s.length := by
  induction s with
  | nil => rfl
  | cons c s ih =>
      rw [charsUtf8_cons, leads_append, ih, List.length_cons,
        leads_sequence (sequence_codePoint (scalar_toNat c))]
      omega

/-! ## UTF-16 -/

theorem units_packed (us : List UInt16) :
    units (us.flatMap fun u => pack16Le u.toNat) = us := by
  induction us with
  | nil => rfl
  | cons u us ih =>
      have hu : (UInt8.ofNat u.toNat).toUInt16 +
          256 * (UInt8.ofNat (u.toNat / 2 ^ 8)).toUInt16 = u := by
        have hlt := u.toNat_lt
        rw [← UInt16.toNat_inj]
        simp only [UInt16.toNat_add, UInt16.toNat_mul, UInt8.toNat_toUInt16,
          UInt8.toNat_ofNat', UInt16.reduceToNat]
        omega
      rw [List.flatMap_cons]
      show ((UInt8.ofNat u.toNat).toUInt16 +
        256 * (UInt8.ofNat (u.toNat / 2 ^ 8)).toUInt16) ::
          units (us.flatMap fun u => pack16Le u.toNat) = _
      rw [hu, ih]

theorem length_packed (us : List UInt16) :
    (us.flatMap fun u => pack16Le u.toNat).length = 2 * us.length := by
  induction us with
  | nil => rfl
  | cons u us ih =>
      rw [List.flatMap_cons, List.length_append, ih, List.length_cons]
      show 2 + _ = _
      omega

/-- A unit that is no half of a pair stands for itself. -/
theorem toUtf8_unit {u : UInt16} (hhigh : isHighSurrogate u = false)
    (hlow : isLowSurrogate u = false) (us : List UInt16) :
    toUtf8 (u :: us) = codePoint u.toNat ++ toUtf8 us := by
  have hone : unitUtf8 u = codePoint u.toNat := by
    simp [unitUtf8, hhigh, hlow]
  cases us with
  | nil => rw [toUtf8, hone, toUtf8, List.append_nil]
  | cons lo us => rw [toUtf8, hhigh, Bool.false_and, if_neg (by simp), hone]

theorem toUtf8_units {v : Nat} (hv : Scalar v) (us : List UInt16) :
    toUtf8 (utf16Units v ++ us) = codePoint v ++ toUtf8 us := by
  unfold Scalar at hv
  unfold utf16Units
  split
  · next hsmall =>
    have hu : (UInt16.ofNat v).toNat = v := UInt16.toNat_ofNat_of_lt' hsmall
    have hplain := fun hhigh hlow =>
      toUtf8_unit (u := UInt16.ofNat v) hhigh hlow us
    rw [hu] at hplain
    refine hplain ?_ ?_
    · simp only [isHighSurrogate, Bool.and_eq_false_iff,
        decide_eq_false_iff_not, UInt16.le_iff_toNat_le,
        UInt16.lt_iff_toNat_lt, hu, UInt16.reduceToNat]
      omega
    · simp only [isLowSurrogate, Bool.and_eq_false_iff, decide_eq_false_iff_not,
        UInt16.le_iff_toNat_le, UInt16.lt_iff_toNat_lt, hu, UInt16.reduceToNat]
      omega
  · next hbig =>
    have hhigh : (UInt16.ofNat (0xD800 + (v - 0x10000) / 1024)).toNat =
        0xD800 + (v - 0x10000) / 1024 :=
      UInt16.toNat_ofNat_of_lt' (show _ < 65536 by omega)
    have hlow : (UInt16.ofNat (0xDC00 + (v - 0x10000) % 1024)).toNat =
        0xDC00 + (v - 0x10000) % 1024 :=
      UInt16.toNat_ofNat_of_lt' (show _ < 65536 by omega)
    have hpair : (isHighSurrogate
          (UInt16.ofNat (0xD800 + (v - 0x10000) / 1024)) &&
        isLowSurrogate
          (UInt16.ofNat (0xDC00 + (v - 0x10000) % 1024))) = true := by
      simp only [isHighSurrogate, isLowSurrogate, Bool.and_eq_true,
        decide_eq_true_eq, UInt16.le_iff_toNat_le, UInt16.lt_iff_toNat_lt,
        hhigh, hlow, UInt16.reduceToNat]
      omega
    have hvalue : 0x10000 + (0xD800 + (v - 0x10000) / 1024 - 0xD800) * 1024 +
        (0xDC00 + (v - 0x10000) % 1024 - 0xDC00) = v := by omega
    show toUtf8 (_ :: _ :: us) = _
    rw [toUtf8, if_pos hpair, hhigh, hlow, hvalue]

theorem toUtf8_chars (s : List Char) :
    toUtf8 (s.flatMap fun c => utf16Units c.toNat) = charsUtf8 s := by
  induction s with
  | nil => rfl
  | cons c s ih =>
      rw [List.flatMap_cons, toUtf8_units (scalar_toNat c), ih, charsUtf8_cons]

/-! ## The byte order mark -/

theorem codePoint_mark {v : Nat} (h : codePoint v = byteOrderMark) :
    v = 0xFEFF := by
  have hlength := congrArg List.length h
  unfold codePoint byteOrderMark at h hlength
  dsimp only at h hlength
  split at h
  next hone => simp [if_pos hone] at hlength
  next hone =>
    split at h
    next htwo => simp [if_neg hone, if_pos htwo] at hlength
    next htwo =>
      split at h
      next hthree =>
        simp only [List.cons.injEq, ← UInt8.toNat_inj, UInt8.toNat_ofNat',
          UInt8.reduceToNat, and_true] at h
        omega
      next hthree => simp [if_neg hone, if_neg htwo, if_neg hthree] at hlength

/-- Text begins with a mark only where the string does. -/
theorem mark_charsUtf8 {s : List Char} (h : byteOrderMark <+: charsUtf8 s) :
    s.head? = some '\uFEFF' := by
  cases s with
  | nil => exact absurd (List.prefix_nil.mp h) (by decide)
  | cons c s =>
      obtain ⟨rest, hrest⟩ := h
      have hmark : sequenceLength byteOrderMark =
          some byteOrderMark.length := by decide
      have hfront := sequence_codePoint (scalar_toNat c)
      have hlength : byteOrderMark.length = (codePoint c.toNat).length := by
        have heq := sequenceLength_append hmark rest
        rw [hrest, charsUtf8_cons, sequenceLength_append hfront] at heq
        exact (Option.some.inj heq).symm
      have hcode := (List.append_inj hrest hlength).1
      have hvalue := codePoint_mark hcode.symm
      rw [List.head?_cons, Option.some.injEq]
      exact Char.ext (UInt32.toNat_inj.mp hvalue)

theorem head_utf16Units {v : Nat} (hv : Scalar v) (hmark : v ≠ 0xFEFF)
    (us : List UInt16) : (utf16Units v ++ us).head? ≠ some 0xFEFF := by
  unfold Scalar at hv
  unfold utf16Units
  split
  · next hsmall =>
    intro h
    have hu : (UInt16.ofNat v).toNat = v := UInt16.toNat_ofNat_of_lt' hsmall
    have heq := congrArg UInt16.toNat (Option.some.inj h)
    rw [hu] at heq
    exact hmark heq
  · next hbig =>
    intro h
    have hhigh : (UInt16.ofNat (0xD800 + (v - 0x10000) / 1024)).toNat =
        0xD800 + (v - 0x10000) / 1024 :=
      UInt16.toNat_ofNat_of_lt' (show _ < 65536 by omega)
    have heq := congrArg UInt16.toNat (Option.some.inj h)
    simp only [hhigh, UInt16.reduceToNat] at heq
    omega

theorem decodeValue_packed (us : List UInt16) :
    decodeValue (0x00 :: us.flatMap fun u => pack16Le u.toNat) =
      if us.head? = some 0xFEFF then toUtf8 us.tail else toUtf8 us := by
  have heven : ¬(us.flatMap fun u => pack16Le u.toNat).length % 2 ≠ 0 := by
    rw [length_packed]
    omega
  rw [decodeValue, if_neg heven, units_packed]
  split
  · next rest => rw [List.head?_cons, if_pos rfl, List.tail_cons]
  · next hfirst =>
    rw [if_neg]
    intro h
    obtain ⟨u, rest, rfl⟩ : ∃ u rest, us = u :: rest := by
      cases us with
      | nil => cases h
      | cons u rest => exact ⟨u, rest, rfl⟩
    rw [List.head?_cons, Option.some.injEq] at h
    exact hfirst rest (by rw [h])

/-! ## Either way -/

/-- Reading well-formed text drops a mark, if anything. -/
theorem length_fromUtf8_wellFormed {b : Bytes} (hb : WellFormed b) :
    (fromUtf8 b).length ≤ b.length := by
  by_cases hmark : byteOrderMark <+: b
  · obtain ⟨rest, rfl⟩ := hmark
    rw [fromUtf8_marked, hb.drop_mark.loop (Nat.le_refl _), List.length_append]
    omega
  · rw [hb.fromUtf8 hmark]

theorem wide_survives_iff {s : List Char} (hs : isLatin1 s = false) :
    fromUtf8 (decodeValue (storedValue s)) = charsUtf8 s ↔
      s.head? ≠ some '\uFEFF' := by
  rw [storedValue, hs, if_neg (by simp), decodeValue_packed]
  cases s with
  | nil => cases hs
  | cons c s =>
      rw [List.head?_cons]
      by_cases hmark : c = '\uFEFF'
      · subst hmark
        refine iff_of_false ?_ fun h => h rfl
        intro h
        have htail : ('\uFEFF' :: s).flatMap (fun c => utf16Units c.toNat) =
            0xFEFF :: s.flatMap fun c => utf16Units c.toNat := rfl
        rw [htail, List.head?_cons, if_pos rfl, List.tail_cons,
          toUtf8_chars] at h
        have hle := length_fromUtf8_wellFormed (wellFormed_charsUtf8 s)
        have hthree : (codePoint '\uFEFF'.toNat).length = 3 := by decide
        rw [h, charsUtf8_cons, List.length_append, hthree] at hle
        omega
      · have hvalue : c.toNat ≠ 0xFEFF := fun h =>
          hmark (Char.ext (UInt32.toNat_inj.mp h))
        have hhead := head_utf16Units (scalar_toNat c) hvalue
          (s.flatMap fun c => utf16Units c.toNat)
        have hunmarked : ¬byteOrderMark <+: charsUtf8 (c :: s) := fun h =>
          hmark (Option.some.inj (mark_charsUtf8 h))
        rw [List.flatMap_cons, if_neg hhead, toUtf8_units (scalar_toNat c),
          toUtf8_chars, ← charsUtf8_cons,
          (wellFormed_charsUtf8 _).fromUtf8 hunmarked]
        exact iff_of_true rfl fun h => hmark (Option.some.inj h)

/-- Bytes of Latin-1 that are read as the characters they stand for are ASCII.
A byte past ASCII is either replaced, by what no Latin-1 character is written
as, or takes the next one with it, and then there are too few characters. -/
theorem latin1_loop {s : List Char} (hs : isLatin1 s = true) {fuel : Nat}
    (hfuel : s.length ≤ fuel)
    (h : fromUtf8Loop fuel (s.map fun c => UInt8.ofNat c.toNat) =
      charsUtf8 s) : ∀ c ∈ s, c.toNat < 0x80 := by
  induction s generalizing fuel with
  | nil => exact fun c hc => nomatch hc
  | cons c s ih =>
      rw [isLatin1, List.all_cons, Bool.and_eq_true, decide_eq_true_eq] at hs
      cases fuel with
      | zero => cases hfuel
      | succ fuel =>
          have hb : (UInt8.ofNat c.toNat).toNat = c.toNat :=
            UInt8.toNat_ofNat_of_lt' (show _ < 256 by omega)
          rw [List.map_cons, fromUtf8Loop, if_neg (by simp)] at h
          by_cases hascii : c.toNat < 0x80
          · have hlt : UInt8.ofNat c.toNat < 0x80 :=
              UInt8.lt_iff_toNat_lt.mpr (by rw [hb]; exact hascii)
            have hcode : codePoint c.toNat = [UInt8.ofNat c.toNat] :=
              if_pos hascii
            rw [sequenceLength_ascii hlt, charsUtf8_cons, hcode] at h
            have hrest := ih hs.2 (Nat.le_of_succ_le_succ hfuel)
              (List.append_cancel_left h)
            exact List.forall_mem_cons.mpr ⟨hascii, hrest⟩
          · exfalso
            have hcode : codePoint c.toNat = [UInt8.ofNat (0xC0 + c.toNat / 64),
                UInt8.ofNat (0x80 + c.toNat / 1 % 64)] := by
              rw [codePoint, if_neg hascii, if_pos (by omega)]
            have hleads := leads_charsUtf8 (c :: s)
            split at h
            · next n hn =>
              obtain ⟨hpos, hle, happ⟩ := sequenceLength_some hn
              have hlong : n ≠ 1 := by
                rintro rfl
                have hlt := UInt8.lt_iff_toNat_lt.mp (ascii_of_sequence hn)
                rw [hb] at hlt
                exact hascii hlt
              have hone : leads ((UInt8.ofNat c.toNat ::
                  s.map fun c => UInt8.ofNat c.toNat).take n) = 1 := by
                refine leads_sequence ?_
                rw [List.length_take_of_le hle,
                  ← List.append_nil (List.take n _)]
                exact happ []
              have hfew := leads_fromUtf8Loop fuel ((UInt8.ofNat c.toNat ::
                  s.map fun c => UInt8.ofNat c.toNat).drop n)
              rw [List.length_drop] at hfew
              rw [← h, leads_append, hone] at hleads
              simp only [List.length_cons, List.length_map] at hleads hfew hle
              omega
            · rw [charsUtf8_cons, hcode] at h
              have hfirst := congrArg UInt8.toNat (List.head_eq_of_cons_eq h)
              have hlead : (UInt8.ofNat (0xC0 + c.toNat / 64)).toNat =
                  0xC0 + c.toNat / 64 :=
                UInt8.toNat_ofNat_of_lt' (show _ < 256 by omega)
              simp only [hlead, UInt8.reduceToNat] at hfirst
              omega

theorem charsUtf8_ascii {s : List Char} (hs : ∀ c ∈ s, c.toNat < 0x80) :
    charsUtf8 s = s.map fun c => UInt8.ofNat c.toNat := by
  induction s with
  | nil => rfl
  | cons c s ih =>
      obtain ⟨hc, hrest⟩ := List.forall_mem_cons.mp hs
      have hcode : codePoint c.toNat = [UInt8.ofNat c.toNat] := if_pos hc
      rw [charsUtf8_cons, hcode, ih hrest, List.map_cons, List.singleton_append]

theorem latin1_survives_iff {s : List Char} (hs : isLatin1 s = true) :
    fromUtf8 (decodeValue (storedValue s)) = charsUtf8 s ↔
      ∀ c ∈ s, c.toNat < 0x80 := by
  rw [storedValue, if_pos hs, decodeValue]
  constructor
  · intro h
    by_cases hmark : byteOrderMark <+: s.map fun c => UInt8.ofNat c.toNat
    · exfalso
      obtain ⟨rest, hrest⟩ := hmark
      have hlength := congrArg List.length hrest
      rw [List.length_append, List.length_map] at hlength
      have hthree : byteOrderMark.length = 3 := rfl
      have hfew := leads_fromUtf8Loop rest.length rest
      rw [← hrest, fromUtf8_marked] at h
      rw [h, leads_charsUtf8] at hfew
      omega
    · rw [fromUtf8_unmarked hmark] at h
      exact latin1_loop hs (by rw [List.length_map]) h
  · intro hascii
    have hunmarked : ¬byteOrderMark <+: charsUtf8 s := by
      intro h
      have hmem := List.mem_of_mem_head? (mark_charsUtf8 h)
      exact absurd (hascii _ hmem) (by decide)
    rw [← charsUtf8_ascii hascii]
    exact (wellFormed_charsUtf8 s).fromUtf8 hunmarked

/-- Only ASCII, or a character that Latin-1 lacks and no mark at the front. -/
def Preserved (s : List Char) : Prop :=
  (∀ c ∈ s, c.toNat < 0x80) ∨
    (∃ c ∈ s, 0xFF < c.toNat) ∧ s.head? ≠ some '\uFEFF'

theorem survives_iff (s : List Char) :
    Text.ofUtf8 (decodeValue (storedValue s)) = ofChars s ↔ Preserved s := by
  have htext : Text.ofUtf8 (decodeValue (storedValue s)) = ofChars s ↔
      fromUtf8 (decodeValue (storedValue s)) = charsUtf8 s := by
    rw [Text.ofUtf8, ofChars, Text.mk.injEq]
  rw [htext]
  cases hs : isLatin1 s with
  | false =>
      have hwide : ∃ c ∈ s, 0xFF < c.toNat := by
        simpa [isLatin1] using hs
      rw [wide_survives_iff hs]
      constructor
      · exact fun hhead => .inr ⟨hwide, hhead⟩
      · rintro (hascii | ⟨-, hhead⟩)
        · obtain ⟨c, hc, hlarge⟩ := hwide
          have hsmall := hascii c hc
          omega
        · exact hhead
  | true =>
      rw [latin1_survives_iff hs]
      constructor
      · exact .inl
      · rintro (hascii | ⟨⟨c, hc, hlarge⟩, -⟩)
        · exact hascii
        · have hsmall := List.all_eq_true.mp hs c hc
          rw [decide_eq_true_eq] at hsmall
          omega

/-- What the migrator puts under the key of a setting is the string that the
legacy application kept there, if and only if it is one of those. -/
theorem setting_survives_iff (ssl : OpenSsl) (json : JsonText) (g : Gathered)
    (start key : Bytes) (s : List Char)
    (hcomputers : (entryOf start (key, storedValue s)).key ≠ kComputersKey)
    (hcertificates :
      (entryOf start (key, storedValue s)).key ≠ kCertificatesKey) :
    (gather ssl json g [entryOf start (key, storedValue s)]).1.settings =
        insertField (entryOf start (key, storedValue s)).key (.str (ofChars s))
          g.settings ↔ Preserved s := by
  rw [gather, if_neg hcomputers, if_neg hcertificates, gather]
  show insertField _ (.str (.ofUtf8 (decodeValue (storedValue s)))) _ = _ ↔ _
  rw [← survives_iff, insertField, insertField, List.cons.injEq, Prod.mk.injEq,
    Json.str.injEq]
  exact ⟨fun h => h.1.2, fun h => ⟨⟨rfl, h⟩, rfl⟩⟩

def noSsl : OpenSsl where
  aes256Ctr _ _ _ := .error "no cipher"
  md5 _ := []

/-- `€5` under `p`, which is kept in UTF-16. -/
theorem setting_survives_euro :
    (gather noSsl qtJson {}
        [entryOf [] ([0x70], storedValue ['€', '5'])]).1.settings =
      insertField (entryOf [] ([0x70], storedValue ['€', '5'])).key
        (.str (ofChars ['€', '5'])) [] :=
  (setting_survives_iff noSsl qtJson {} [] [0x70] ['€', '5'] (by decide)
    (by decide)).mpr (.inr ⟨⟨'€', by decide, by decide⟩, by decide⟩)

/-- An `é` is a byte of Latin-1 that no UTF-8 is. -/
theorem setting_lost : ¬∀ s : List Char,
    Text.ofUtf8 (decodeValue (storedValue s)) = ofChars s := by
  intro h
  have hread := congrArg Text.utf8 (h ['é'])
  revert hread
  decide

end QuMesh.Migrate
