import QuMesh.Lib.Strings
import QuMesh.Wsman.WatchdogIds

/-!
# The ids of watchdogs

What is checked of a GUID is that it has thirty-two letters and digits and that
reading them as hex gives sixteen bytes. The reader passes over what is no hex
digit and lets an odd digit stand alone, so thirty-one digits give sixteen bytes
as well: a letter among them goes unnoticed, and the id is that of another
watchdog, `foreign_letter`. With two letters there are fifteen bytes, and with
none the digits come back from the bytes, as the reader's inverse writes two for
each of them.
-/

namespace QuMesh.Wsman

open QuMesh.Lib

/-! ## What an id is to keep -/

/-- A string without dashes and braces. -/
def bare (s : Units) : Units :=
  s.filter fun c => c ≠ 0x2D ∧ c ≠ 0x7B ∧ c ≠ 0x7D

def IsHexDigit (u : UInt16) : Prop := (hexUnit u).isSome = true

instance (u : UInt16) : Decidable (IsHexDigit u) :=
  inferInstanceAs (Decidable (_ = true))

/-- Thirty-two hex digits. -/
def IsGuid (s : Units) : Prop :=
  (bare s).length = 32 ∧ ∀ u ∈ bare s, IsHexDigit u

instance (s : Units) : Decidable (IsGuid s) :=
  inferInstanceAs (Decidable (_ ∧ _))

/-- The 8-4-4-4-12 form of thirty-two digits. -/
def dashed (hex : Units) : Units :=
  hex.take 8 ++ [0x2D] ++ (hex.drop 8).take 4 ++ [0x2D] ++
    (hex.drop 12).take 4 ++ [0x2D] ++ (hex.drop 16).take 4 ++ [0x2D] ++
      (hex.drop 20).take 12

/-- An id comes out exactly for a GUID, and is that of the GUID. -/
structure KeepsGuid (tables : CharTables) (s : Units) : Prop where
  accepts : encodeWatchdogDeviceId tables s ≠ [] ↔ IsGuid s
  decodes : IsGuid s →
    decodeWatchdogDeviceId (encodeWatchdogDeviceId tables s) =
      dashed ((bare s).map asciiLower)

/-- One letter or digit among thirty-one hex digits. -/
def OneForeign (tables : CharTables) (s : Units) : Prop :=
  (∀ u ∈ bare s, tables.isLetterOrNumber u = true) ∧
    (bare s).length = 32 ∧ ((bare s).filter fun u => IsHexDigit u).length = 31

/-! ## Units -/

theorem ascii_ofNat {u : UInt16} (hu : u < 0x80) :
    ∃ n < 0x80, UInt16.ofNat n = u :=
  ⟨u.toNat, UInt16.lt_iff_toNat_lt.mp hu, UInt16.ofNat_toNat⟩

set_option maxRecDepth 10000 in
theorem hexUnit_other {u : UInt16} (hu : 0x80 ≤ u) : hexUnit u = none := by
  unfold hexUnit
  split
  · next hlt =>
    have hall : ∀ n < 0x100, 0x80 ≤ n → hexValue (UInt16.ofNat n).toUInt8 =
        none := by
      decide
    have hn : u.toNat < 0x100 := UInt16.lt_iff_toNat_lt.mp hlt
    have hle : 0x80 ≤ u.toNat := UInt16.le_iff_toNat_le.mp hu
    have hnone := hall u.toNat hn hle
    rwa [UInt16.ofNat_toNat] at hnone
  · rfl

variable (tables : CharTables)

/-- The lower case of a unit has the value of the unit. -/
theorem hexValue_lower (u : UInt16) :
    (unitsToLatin1 [tables.toLower u]).filterMap hexValue =
      (hexUnit u).toList := by
  by_cases hu : u < 0x80
  · have hall : ∀ n < 0x80,
        (unitsToLatin1 [asciiLower (UInt16.ofNat n)]).filterMap hexValue =
          (hexUnit (UInt16.ofNat n)).toList := by
      decide
    rw [tables.toLower_ascii u hu]
    obtain ⟨n, hn, rfl⟩ := ascii_ofNat hu
    exact hall n hn
  · have hle : 0x80 ≤ u := UInt16.not_lt.mp hu
    have hlower := tables.toLower_other u hle
    rw [hexUnit_other hle]
    unfold hexUnit at hlower
    unfold unitsToLatin1
    split at hlower
    · next hlt => simp [hlt, hlower]
    · next hlt =>
      simp only [List.map_cons, List.map_nil, if_neg hlt]
      decide

theorem letter_of_hex {u : UInt16} (h : IsHexDigit u) :
    tables.isLetterOrNumber u = true := by
  by_cases hu : u < 0x80
  · have hall : ∀ n < 0x80, IsHexDigit (UInt16.ofNat n) →
        ((0x30 ≤ UInt16.ofNat n && UInt16.ofNat n ≤ 0x39) ||
          (0x41 ≤ UInt16.ofNat n && UInt16.ofNat n ≤ 0x5A) ||
            (0x61 ≤ UInt16.ofNat n && UInt16.ofNat n ≤ 0x7A)) = true := by
      decide
    rw [tables.isLetterOrNumber_ascii u hu]
    obtain ⟨n, hn, rfl⟩ := ascii_ofNat hu
    exact hall n hn h
  · rw [IsHexDigit, hexUnit_other (UInt16.not_lt.mp hu)] at h
    cases h

/-! ## What is read of a string -/

theorem guidDigits_eq (s : Units) :
    guidDigits tables s =
      if (bare s).all tables.isLetterOrNumber then
        some ((bare s).map tables.toLower)
      else none := by
  induction s with
  | nil => rfl
  | cons c s ih =>
      rw [guidDigits, ih]
      split
      · next hskip =>
        have hbare : bare (c :: s) = bare s := by
          rcases hskip with rfl | rfl | rfl <;> rfl
        rw [hbare]
      · next hkeep =>
        have hbare : bare (c :: s) = c :: bare s :=
          List.filter_cons_of_pos (by simpa using hkeep)
        rw [hbare, List.all_cons]
        cases tables.isLetterOrNumber c with
        | false => rfl
        | true => split <;> simp_all

/-- The values of the digits of a string. -/
def values (s : Units) : List Nat := (bare s).filterMap hexUnit

theorem values_lower (s : Units) :
    (unitsToLatin1 ((bare s).map tables.toLower)).filterMap hexValue =
      values s := by
  unfold values
  induction bare s with
  | nil => rfl
  | cons u us ih =>
      have hone := hexValue_lower tables u
      rw [List.map_cons, ← List.singleton_append]
      unfold unitsToLatin1 at hone ih ⊢
      rw [List.map_append, List.filterMap_append, hone, ih]
      cases h : hexUnit u <;> simp [h]

theorem values_length (s : Units) :
    (values s).length = ((bare s).filter fun u => IsHexDigit u).length := by
  unfold values IsHexDigit
  induction bare s with
  | nil => rfl
  | cons u us ih =>
      cases h : hexUnit u <;> simp [h, ih]

/-- An id comes out for thirty-two letters and digits of which at most one is no
hex digit. -/
theorem encode_eq (s : Units) :
    encodeWatchdogDeviceId tables s =
      if (bare s).all tables.isLetterOrNumber ∧ (bare s).length = 32 ∧
          31 ≤ (values s).length then
        unitsOfLatin1
          (toBase64 (fromHex (unitsToLatin1 ((bare s).map tables.toLower))))
      else [] := by
  have hle : (values s).length ≤ (bare s).length := List.length_filterMap_le ..
  have hlength := length_fromHex (unitsToLatin1 ((bare s).map tables.toLower))
  rw [values_lower] at hlength
  unfold encodeWatchdogDeviceId
  rw [guidDigits_eq]
  by_cases hall : (bare s).all tables.isLetterOrNumber = true
  · rw [if_pos hall]
    dsimp only
    rw [List.length_map, hlength]
    by_cases h32 : (bare s).length = 32
    · rw [if_neg (fun h => h h32)]
      by_cases h31 : 31 ≤ (values s).length
      · rw [if_neg (by omega), if_pos ⟨hall, h32, h31⟩]
      · rw [if_pos (by omega), if_neg (fun h => h31 h.2.2)]
    · rw [if_pos h32, if_neg (fun h => h32 h.2.1)]
  · rw [if_neg hall, if_neg (fun h => hall h.1)]

theorem encode_ne_nil (s : Units) :
    encodeWatchdogDeviceId tables s ≠ [] ↔
      (∀ u ∈ bare s, tables.isLetterOrNumber u = true) ∧
        (bare s).length = 32 ∧
          31 ≤ ((bare s).filter fun u => IsHexDigit u).length := by
  rw [encode_eq, ← List.all_eq_true, ← values_length]
  split
  · next h =>
    refine iff_of_true (fun hnil => ?_) h
    have hlength := length_fromHex (unitsToLatin1 ((bare s).map tables.toLower))
    rw [values_lower] at hlength
    have hle := le_length_toBase64
      (fromHex (unitsToLatin1 ((bare s).map tables.toLower)))
    rw [List.map_eq_nil_iff.mp hnil, List.length_nil] at hle
    omega
  · next h => exact iff_of_false (fun hnil => hnil rfl) h

theorem isGuid_iff (s : Units) :
    IsGuid s ↔ (∀ u ∈ bare s, tables.isLetterOrNumber u = true) ∧
      (bare s).length = 32 ∧
        ((bare s).filter fun u => IsHexDigit u).length = 32 := by
  constructor
  · rintro ⟨hlength, hdigits⟩
    refine ⟨fun u hu => letter_of_hex tables (hdigits u hu), hlength, ?_⟩
    rw [List.filter_eq_self.mpr fun u hu => decide_eq_true (hdigits u hu),
      hlength]
  · rintro ⟨-, hlength, hcount⟩
    refine ⟨hlength, fun u hu => ?_⟩
    have hall := List.length_filter_eq_length_iff.mp (hcount.trans hlength.symm)
    exact of_decide_eq_true (hall u hu)

/-! ## The way back -/

set_option maxRecDepth 10000 in
theorem unitsToLatin1_ofLatin1 (b : Bytes) :
    unitsToLatin1 (unitsOfLatin1 b) = b := by
  have hall : ∀ n < 0x100, (if (UInt8.ofNat n).toUInt16 < 0x100 then
      (UInt8.ofNat n).toUInt16.toUInt8 else 0x3F) = UInt8.ofNat n := by
    decide
  induction b with
  | nil => rfl
  | cons x b ih =>
      have hx := hall x.toNat x.toNat_lt
      rw [UInt8.ofNat_toNat] at hx
      show (if x.toUInt16 < 0x100 then _ else _) ::
        unitsToLatin1 (unitsOfLatin1 b) = _
      rw [ih, hx]

theorem unitsOfLatin1_length (b : Bytes) :
    (unitsOfLatin1 b).length = b.length :=
  List.length_map _

/-- Sixteen bytes on the wire, as a GUID. -/
theorem decode_toBase64 {raw : Bytes} (h : raw.length = 16) :
    decodeWatchdogDeviceId (unitsOfLatin1 (toBase64 raw)) =
      dashed (unitsOfLatin1 (toHex raw)) := by
  have hne : unitsOfLatin1 (toBase64 raw) ≠ [] := by
    intro hnil
    have hle := le_length_toBase64 raw
    rw [List.map_eq_nil_iff.mp hnil, List.length_nil] at hle
    omega
  unfold decodeWatchdogDeviceId
  rw [if_neg hne, unitsToLatin1_ofLatin1, fromBase64_toBase64, Option.getD_some]
  dsimp only
  rw [if_neg (fun hlength => hlength h)]
  simp only [dashed, unitsOfLatin1, List.map_take, List.map_drop,
    List.drop_zero]

/-- The lower case of hex digits is that of ASCII. -/
theorem map_lower {us : Units} (h : ∀ u ∈ us, IsHexDigit u) :
    us.map tables.toLower = us.map asciiLower := by
  refine List.map_congr_left fun u hu => tables.toLower_ascii u ?_
  by_contra hother
  have hdigit := h u hu
  rw [IsHexDigit, hexUnit_other (UInt16.not_lt.mp hother)] at hdigit
  cases hdigit

/-- Hex digits in lower case are what is written for their values. -/
theorem lower_digits {us : Units} (h : ∀ u ∈ us, IsHexDigit u) :
    (∀ d ∈ us.filterMap hexUnit, d < 16) ∧
      (us.filterMap hexUnit).length = us.length ∧
        us.map asciiLower =
          unitsOfLatin1 ((us.filterMap hexUnit).map hexDigitByte) := by
  induction us with
  | nil => exact ⟨List.forall_mem_nil _, rfl, rfl⟩
  | cons u us ih =>
      rw [List.forall_mem_cons] at h
      obtain ⟨hlt, hlength, hlower⟩ := ih h.2
      have hall : ∀ n < 0x80, ∀ d ∈ hexUnit (UInt16.ofNat n),
          d < 16 ∧ asciiLower (UInt16.ofNat n) =
            (hexDigitByte d).toUInt16 := by
        decide
      obtain ⟨d, hd⟩ := Option.isSome_iff_exists.mp h.1
      have hu : u < 0x80 := by
        by_contra hother
        rw [hexUnit_other (UInt16.not_lt.mp hother)] at hd
        cases hd
      obtain ⟨n, hn, rfl⟩ := ascii_ofNat hu
      obtain ⟨hd16, hdigit⟩ := hall n hn d hd
      rw [List.filterMap_cons_some hd]
      refine ⟨List.forall_mem_cons.mpr ⟨hd16, hlt⟩, ?_, ?_⟩
      · rw [List.length_cons, hlength, List.length_cons]
      · rw [List.map_cons, hdigit, hlower]
        rfl

/-- A GUID comes back in lower case. -/
theorem decode_encodeGuid {s : Units} (h : IsGuid s) :
    decodeWatchdogDeviceId (encodeWatchdogDeviceId tables s) =
      dashed ((bare s).map asciiLower) := by
  obtain ⟨hlength, hdigits⟩ := h
  obtain ⟨hlt, hcount, hlower⟩ := lower_digits hdigits
  have h32 : (values s).length = 32 := hcount.trans hlength
  have hall : (bare s).all tables.isLetterOrNumber = true :=
    List.all_eq_true.mpr fun u hu => letter_of_hex tables (hdigits u hu)
  rw [encode_eq, if_pos ⟨hall, hlength, by omega⟩, map_lower tables hdigits,
    hlower, unitsToLatin1_ofLatin1, decode_toBase64,
    toHex_fromHex (n := 16) hlt h32]
  rw [length_fromHex, filterMap_hexDigitByte hlt, hcount, hlength]

theorem bare_dashed {hex : Units} (hlength : hex.length = 32)
    (hbare : bare hex = hex) : bare (dashed hex) = hex := by
  have hpart : ∀ part : Units, part.Sublist hex → bare part = part := by
    intro part hsub
    refine List.filter_eq_self.mpr fun u hu => ?_
    exact List.filter_eq_self.mp hbare u (hsub.mem hu)
  have hslice : ∀ i n, bare ((hex.drop i).take n) = (hex.drop i).take n :=
    fun i n => hpart _ ((List.take_sublist _ _).trans (List.drop_sublist _ _))
  have hdash : bare [0x2D] = [] := rfl
  have hjoin : ∀ i n, (hex.drop i).take n ++ hex.drop (i + n) = hex.drop i := by
    intro i n
    rw [← List.drop_drop, List.take_append_drop]
  have hlast : (hex.drop 20).take 12 = hex.drop 20 := by
    refine List.take_of_length_le ?_
    rw [List.length_drop]
    omega
  have hfirst := hslice 0 8
  have hstart := hjoin 0 8
  rw [List.drop_zero] at hfirst hstart
  unfold dashed bare at *
  simp only [List.filter_append, hslice, hfirst, hdash, List.append_nil]
  rw [hlast, List.append_assoc, hjoin 16 4, List.append_assoc, hjoin 12 4,
    List.append_assoc, hjoin 8 4, hstart]

set_option maxRecDepth 10000 in
/-- Sixteen bytes come back. -/
theorem encode_decodeGuid {raw : Bytes} (h : raw.length = 16) :
    encodeWatchdogDeviceId tables
        (decodeWatchdogDeviceId (unitsOfLatin1 (toBase64 raw))) =
      unitsOfLatin1 (toBase64 raw) := by
  have hdigit : ∀ c ∈ toHex raw, IsHexDigit c.toUInt16 ∧
      asciiLower c.toUInt16 = c.toUInt16 ∧
        c.toUInt16 ≠ 0x2D ∧ c.toUInt16 ≠ 0x7B ∧ c.toUInt16 ≠ 0x7D := by
    have hall : ∀ d < 16, IsHexDigit (hexDigitByte d).toUInt16 ∧
        asciiLower (hexDigitByte d).toUInt16 = (hexDigitByte d).toUInt16 ∧
          (hexDigitByte d).toUInt16 ≠ 0x2D ∧
            (hexDigitByte d).toUInt16 ≠ 0x7B ∧
              (hexDigitByte d).toUInt16 ≠ 0x7D := by
      decide
    intro c hc
    obtain ⟨d, hd, rfl⟩ := mem_toHex hc
    exact hall d hd
  have hunits : ∀ u ∈ unitsOfLatin1 (toHex raw), IsHexDigit u ∧
      asciiLower u = u ∧ u ≠ 0x2D ∧ u ≠ 0x7B ∧ u ≠ 0x7D := by
    intro u hu
    obtain ⟨c, hc, rfl⟩ := List.mem_map.mp hu
    exact hdigit c hc
  have hlength : (unitsOfLatin1 (toHex raw)).length = 32 := by
    rw [unitsOfLatin1_length, length_toHex, h]
  have hbare : bare (unitsOfLatin1 (toHex raw)) = unitsOfLatin1 (toHex raw) :=
    List.filter_eq_self.mpr fun u hu => decide_eq_true (hunits u hu).2.2
  have hhex : ∀ u ∈ unitsOfLatin1 (toHex raw), IsHexDigit u :=
    fun u hu => (hunits u hu).1
  have hsame : (unitsOfLatin1 (toHex raw)).map asciiLower =
      unitsOfLatin1 (toHex raw) := by
    conv => rhs; rw [← List.map_id (unitsOfLatin1 (toHex raw))]
    exact List.map_congr_left fun u hu => (hunits u hu).2.1
  rw [decode_toBase64 h, encode_eq]
  unfold values
  rw [bare_dashed hlength hbare, map_lower tables hhex, hsame,
    unitsToLatin1_ofLatin1, fromHex_toHex]
  refine if_pos ⟨?_, hlength, ?_⟩
  · exact List.all_eq_true.mpr fun u hu => letter_of_hex tables (hhex u hu)
  · rw [(lower_digits hhex).2.1, hlength]
    decide

/-- An id is kept exactly where no single letter stands among hex digits; and
sixteen bytes are always kept. -/
theorem keepsGuid_iff :
    (∀ s, KeepsGuid tables s ↔ ¬OneForeign tables s) ∧
      ∀ raw : Bytes, raw.length = 16 →
        encodeWatchdogDeviceId tables
            (decodeWatchdogDeviceId (unitsOfLatin1 (toBase64 raw))) =
          unitsOfLatin1 (toBase64 raw) := by
  refine ⟨fun s => ?_, fun raw h => encode_decodeGuid tables h⟩
  have hle : ((bare s).filter fun u => IsHexDigit u).length ≤
      (bare s).length := List.length_filter_le ..
  constructor
  · rintro h ⟨hall, hlength, hcount⟩
    have hguid := h.accepts.mp
      ((encode_ne_nil tables s).mpr ⟨hall, hlength, by omega⟩)
    have := ((isGuid_iff tables s).mp hguid).2.2
    omega
  · intro h
    refine ⟨?_, fun hguid => decode_encodeGuid tables hguid⟩
    rw [encode_ne_nil, isGuid_iff tables]
    refine and_congr_right fun hall => and_congr_right fun hlength => ?_
    have hne : ((bare s).filter fun u => IsHexDigit u).length ≠ 31 :=
      fun hcount => h ⟨hall, hlength, hcount⟩
    omega

/-! ## A letter among the digits -/

/-- Tables that know ASCII only. -/
def asciiTables : CharTables where
  isLetterOrNumber u := (0x30 ≤ u && u ≤ 0x39) || (0x41 ≤ u && u ≤ 0x5A) ||
    (0x61 ≤ u && u ≤ 0x7A)
  toLower := asciiLower
  isLetterOrNumber_ascii _ _ := rfl
  toLower_ascii _ _ := rfl
  toLower_other u hu := by
    have hupper : ¬(0x41 ≤ u ∧ u ≤ 0x5A) := by
      rintro ⟨-, hle⟩
      have hle' := UInt16.le_trans hu hle
      revert hle'
      decide
    rw [asciiLower, if_neg hupper, hexUnit_other hu]

/-- The GUID `12345678-1234-1234-1234-123456789abc`, or with another unit for
its last one. -/
def guidEnding (last : UInt16) : Units :=
  dashed ((Strings.toUtf8 "12345678123412341234123456789ab").map
    UInt8.toUInt16 ++ [last])

/-- A GUID, and the bytes 0 to 15. -/
theorem keepsGuid_iff_digit :
    (KeepsGuid asciiTables (guidEnding 0x63) ↔
      ¬OneForeign asciiTables (guidEnding 0x63)) ∧
      encodeWatchdogDeviceId asciiTables (decodeWatchdogDeviceId
        (unitsOfLatin1 (toBase64 ((List.range 16).map UInt8.ofNat)))) =
          unitsOfLatin1 (toBase64 ((List.range 16).map UInt8.ofNat)) :=
  ⟨(keepsGuid_iff asciiTables).1 _, (keepsGuid_iff asciiTables).2 _ rfl⟩

/-- A `g` at its end makes it the id of another watchdog. -/
theorem foreign_letter :
    ¬KeepsGuid asciiTables (guidEnding 0x67) ∧
      decodeWatchdogDeviceId
          (encodeWatchdogDeviceId asciiTables (guidEnding 0x67)) =
        (Strings.toUtf8 "01234567-8123-4123-4123-4123456789ab").map
          UInt8.toUInt16 := by
  refine ⟨fun h => ?_, by decide +kernel⟩
  have hguid : IsGuid (guidEnding 0x67) := h.accepts.mp (by decide +kernel)
  revert hguid
  decide +kernel

end QuMesh.Wsman
