import QuMesh.Wsman.HeaderFilters

/-!
# The addresses of a filter

A filter with another address than the one that was typed blocks or admits the
wrong host. What an address is, is said here apart from the readers of the
source: four decimal numbers with points between, or eight groups of up to four
hex digits with colons between. The readers take more. A number of the first is
read as any integer, with a sign or with spaces around it; of the second only
the colons are dropped, and the rest has to be letters and digits, so that
neither a letter behind `f` nor a colon in another place is noticed.

`filter_exact_iff` says that these are all: a filter is refused or carries the
addresses that were typed if and only if no text is among them that the readers
take and that is no address. Addresses that are sent at all are told apart in
any case.
-/

namespace QuMesh.Wsman

open QuMesh.Lib

/-! ## Addresses -/

/-- The upper-case digit of a value. -/
def upperDigit (d : Nat) : Char :=
  Char.ofNat (if d < 10 then 0x30 + d else 0x37 + d)

def upperDigits (b : Bytes) : List Char :=
  b.flatMap fun x => [upperDigit (x.toNat / 16), upperDigit (x.toNat % 16)]

/-- Bytes in upper-case hex. -/
def upperHex (b : Bytes) : String := String.ofList (upperDigits b)

/-- The value of a character that is a hex digit. -/
def hexDigit (c : Char) : Option Nat :=
  if c.toNat < 0x80 then hexValue (UInt8.ofNat c.toNat) else none

/-- A plain decimal number that is a byte. -/
structure IsOctet (part : List Char) (x : UInt8) : Prop where
  nonempty : part ≠ []
  digits : ∀ c ∈ part, c.isDigit = true
  value : Nat.ofDigitChars 10 part 0 = x.toNat

structure IsDottedQuad (cs : List Char) (address : Bytes) : Prop where
  count : (cs.splitOn '.').length = 4
  octets : List.Forall₂ IsOctet (cs.splitOn '.') address

/-- The two bytes of a number of 16 bits, the high one first. -/
def groupBytes (digits : List Nat) : Bytes :=
  pack16Be (digits.foldl (fun v d => 16 * v + d) 0)

/-- One to four hex digits. -/
structure IsGroup (part : List Char) (two : Bytes) : Prop where
  nonempty : part ≠ []
  short : part.length ≤ 4
  value : ∃ digits,
    part.map hexDigit = digits.map some ∧ two = groupBytes digits

structure IsColonHex (cs : List Char) (address : Bytes) : Prop where
  count : (cs.splitOn ':').length = 8
  groups : ∃ gs, List.Forall₂ IsGroup (cs.splitOn ':') gs ∧ address = gs.flatten

/-- The address that a text is under an IP version. -/
def Denotes (version : Int) (text : String) (address : Bytes) : Prop :=
  (version = 4 ∧ IsDottedQuad (Strings.trimmed text).toList address) ∨
    (version = 6 ∧ IsColonHex (Strings.trimmed text).toList address)

def Blank (text : String) : Prop := Strings.trimmed text = ""

/-- A dotted quad, or eight groups of four hex digits each. -/
def WrittenOut (version : Int) (text : String) : Prop :=
  (version = 4 ∧ ∃ address,
      IsDottedQuad (Strings.trimmed text).toList address) ∨
    (version = 6 ∧ ((Strings.trimmed text).toList.splitOn ':').length = 8 ∧
      ∀ part ∈ (Strings.trimmed text).toList.splitOn ':',
        part.length = 4 ∧ ∀ c ∈ part, (hexDigit c).isSome)

/-! ## What is promised of a filter -/

/-- What else is asked of a filter. -/
structure Checked (f : IpHeadersFilter) : Prop where
  name : f.name ≠ ""
  version : f.ipVersion = 4 ∨ f.ipVersion = 6
  profile : 0 ≤ f.filterProfile ∧ f.filterProfile ≤ 4
  direction : f.filterDirection = 0 ∨ f.filterDirection = 1

section Promise

variable (tables : LetterTables) (f : IpHeadersFilter)

/-- Of one of the addresses, which goes out in the element of that name. -/
structure KeepsAddress (name text : String) : Prop where
  sent : ∀ body, addIpHeadersFilter tables f = .ok body →
    ∀ hex, (name, hex) ∈ body →
      ∃ address, Denotes f.ipVersion text address ∧ hex = upperHex address
  refused : ¬Blank text → (∀ address, ¬Denotes f.ipVersion text address) →
    ∃ error, addIpHeadersFilter tables f = .error error

structure KeepsAddresses : Prop where
  source : KeepsAddress tables f "HdrSrcAddress" f.srcAddress
  destination : KeepsAddress tables f "HdrDestAddress" f.dstAddress
  accepted : Checked f →
    Blank f.srcAddress ∨ WrittenOut f.ipVersion f.srcAddress →
    Blank f.dstAddress ∨ WrittenOut f.ipVersion f.dstAddress →
      ∃ body, addIpHeadersFilter tables f = .ok body ∧
        (¬Blank f.srcAddress → ∃ hex, ("HdrSrcAddress", hex) ∈ body) ∧
        (¬Blank f.dstAddress → ∃ hex, ("HdrDestAddress", hex) ∈ body)

/-- What the readers take: four integers from 0 to 255, or thirty-two letters
and digits with colons among them. -/
def Readable (version : Int) (text : String) : Prop :=
  (version = 4 ∧ ((Strings.trimmed text).toList.splitOn '.').length = 4 ∧
      ∀ part ∈ (Strings.trimmed text).toList.splitOn '.',
        ∃ v, Strings.toInt (String.ofList part) = some v ∧ 0 ≤ v ∧ v ≤ 255) ∨
    (version = 6 ∧
      ((Strings.trimmed text).toList.filter (· ≠ ':')).length = 32 ∧
      ∀ c ∈ (Strings.trimmed text).toList, c ≠ ':' →
        c.toNat < 0x10000 ∧ tables.isLetterOrNumber c = true)

/-- No text that is taken is other than an address that is written out. -/
def AllWrittenOut : Prop :=
  Checked f →
    Blank f.srcAddress ∨ Readable tables f.ipVersion f.srcAddress →
    Blank f.dstAddress ∨ Readable tables f.ipVersion f.dstAddress →
      (Blank f.srcAddress ∨ WrittenOut f.ipVersion f.srcAddress) ∧
        (Blank f.dstAddress ∨ WrittenOut f.ipVersion f.dstAddress)

end Promise

/-! ## Dotted quads -/

theorem toInt_of_octet {part : List Char} {x : UInt8} (h : IsOctet part x) :
    Strings.toInt (String.ofList part) = some (x.toNat : Int) := by
  have hlt := x.toNat_lt
  have hread : Strings.digits (String.ofList part).toList = some x.toNat := by
    rw [String.toList_ofList, Strings.digits,
      if_pos ⟨h.nonempty, List.all_eq_true.mpr h.digits⟩, h.value]
  rw [Strings.toInt_digits hread, if_pos (by omega)]

theorem readOctet_eq_some {part : List Char} {x : UInt8} :
    readOctet part = some x ↔ ∃ v, Strings.toInt (String.ofList part) = some v ∧
      (0 ≤ v ∧ v ≤ 255) ∧ UInt8.ofNat v.toNat = x := by
  unfold readOctet
  cases hv : Strings.toInt (String.ofList part) with
  | none => simp
  | some v =>
      dsimp only
      split
      · next hout =>
        refine iff_of_false (by simp) ?_
        rintro ⟨w, hw, hrange, -⟩
        cases hw
        omega
      · next hin =>
        have hrange : 0 ≤ v ∧ v ≤ 255 := by omega
        simp [hrange]

theorem readOctets_of_quad {parts : List (List Char)} {address : Bytes}
    (h : List.Forall₂ IsOctet parts address) :
    readOctets parts = some address := by
  induction h with
  | nil => rfl
  | @cons part x parts address hx _ ih =>
      have hlt := x.toNat_lt
      have hone : readOctet part = some x :=
        readOctet_eq_some.mpr ⟨x.toNat, toInt_of_octet hx, by omega, by
          rw [Int.toNat_natCast, UInt8.ofNat_toNat]⟩
      rw [readOctets, hone, ih]
      rfl

theorem readOctets_isSome {parts : List (List Char)} :
    (readOctets parts).isSome ↔ ∀ part ∈ parts,
      ∃ v, Strings.toInt (String.ofList part) = some v ∧ 0 ≤ v ∧ v ≤ 255 := by
  induction parts with
  | nil => simp [readOctets]
  | cons part parts ih =>
      rw [List.forall_mem_cons, ← ih, readOctets]
      cases hone : readOctet part with
      | none =>
          refine iff_of_false (by simp) ?_
          rintro ⟨⟨v, hv, hrange⟩, -⟩
          rw [readOctet_eq_some.mpr ⟨v, hv, hrange, rfl⟩] at hone
          cases hone
      | some x =>
          obtain ⟨v, hv, hrange, -⟩ := readOctet_eq_some.mp hone
          rw [Option.isSome_map]
          exact ⟨fun hrest => ⟨⟨v, hv, hrange⟩, hrest⟩, fun h => h.2⟩

set_option maxRecDepth 10000 in
theorem toHexUpper_eq (b : Bytes) :
    Strings.fromLatin1 (toHexUpper b) = upperHex b := by
  have hall : ∀ n < 256, ((hexLower 2 n).map fun x =>
      if 0x61 ≤ x && x ≤ 0x7A then x - 0x20 else x).map
        (fun x => Char.ofNat x.toNat) =
          [upperDigit (n / 16), upperDigit (n % 16)] := by
    decide
  unfold Strings.fromLatin1 upperHex toHexUpper upperDigits
  congr 1
  induction b with
  | nil => rfl
  | cons x b ih =>
      rw [toHex_cons, List.map_append, List.map_append, ih, List.flatMap_cons,
        hall x.toNat x.toNat_lt]

/-! ## Groups with colons -/

theorem flatten_splitOn (a : Char) (cs : List Char) :
    (cs.splitOn a).flatten = cs.filter (· ≠ a) := by
  induction cs with
  | nil => rfl
  | cons c cs ih =>
      rw [List.splitOn_cons_eq_if_modifyHead]
      split
      · next heq =>
        rw [beq_iff_eq] at heq
        rw [List.flatten_cons, List.nil_append, ih, heq,
          List.filter_cons_of_neg (by simp)]
      · next hne =>
        rw [beq_iff_eq] at hne
        rw [List.filter_cons_of_pos (by simpa using hne), ← ih]
        cases hsplit : cs.splitOn a with
        | nil => exact absurd hsplit (List.splitOn_ne_nil _ _)
        | cons part parts => rfl

/-- The letters and digits in their order, where there is nothing else but
colons. -/
theorem addressDigits_eq_some (tables : LetterTables) {cs hex : List Char} :
    addressDigits tables cs = some hex ↔
      (∀ c ∈ cs, c ≠ ':' →
        c.toNat < 0x10000 ∧ tables.isLetterOrNumber c = true) ∧
      (cs.filter (· ≠ ':')).map tables.toUpper = hex := by
  induction cs generalizing hex with
  | nil =>
      constructor
      · intro h
        cases h
        exact ⟨List.forall_mem_nil _, rfl⟩
      · rintro ⟨-, rfl⟩
        rfl
  | cons c cs ih =>
      rw [addressDigits, List.forall_mem_cons]
      split
      · next hcolon =>
        rw [ih, List.filter_cons_of_neg (by simp [hcolon])]
        simp [hcolon]
      · next hcolon =>
        rw [List.filter_cons_of_pos (by simpa using hcolon)]
        split
        · next hother =>
          refine iff_of_false (by simp) ?_
          rintro ⟨⟨hletter, -⟩, -⟩
          obtain ⟨hbmp, halpha⟩ := hletter hcolon
          rw [Bool.or_eq_true, decide_eq_true_eq, halpha] at hother
          simp at hother
          omega
        · next hletter =>
          rw [Bool.or_eq_true, decide_eq_true_eq, Bool.not_eq_true'] at hletter
          rw [Option.map_eq_some_iff]
          constructor
          · rintro ⟨rest, hrest, rfl⟩
            obtain ⟨hall, rfl⟩ := ih.mp hrest
            exact ⟨⟨fun _ => ⟨by omega, by simpa using (not_or.mp hletter).2⟩,
              hall⟩, rfl⟩
          · rintro ⟨⟨-, hall⟩, rfl⟩
            exact ⟨_, ih.mpr ⟨hall, rfl⟩, rfl⟩

set_option maxRecDepth 10000 in
/-- What is known of a hex digit. -/
theorem hexDigit_facts (tables : LetterTables) {c : Char} {d : Nat}
    (h : hexDigit c = some d) :
    d < 16 ∧ tables.toUpper c = upperDigit d ∧ c.toNat < 0x80 ∧
      tables.isLetterOrNumber c = true := by
  unfold hexDigit at h
  split at h
  · next hascii =>
    have hall : ∀ n < 0x80, ∀ d ∈ hexValue (UInt8.ofNat n),
        d < 16 ∧ (Char.ofNat n).toUpper = upperDigit d ∧
          (Char.ofNat n).isAlphanum = true := by
      decide
    obtain ⟨hlt, hupper, halpha⟩ := hall c.toNat hascii d h
    rw [Char.ofNat_toNat] at hupper halpha
    rw [tables.toUpper_ascii c hascii, tables.isLetterOrNumber_ascii c hascii]
    exact ⟨hlt, hupper, hascii, halpha⟩
  · cases h

/-- Four digits are the digits of the two bytes. -/
theorem upperDigits_group (tables : LetterTables) {part : List Char}
    {digits : List Nat} (hlength : part.length = 4)
    (hdigits : part.map hexDigit = digits.map some) :
    part.map tables.toUpper = upperDigits (groupBytes digits) := by
  have hcount : digits.length = 4 := by
    have h := congrArg List.length hdigits
    rw [List.length_map, List.length_map] at h
    omega
  match digits, hcount with
  | [a, b, c, d], _ =>
  match part, hlength with
  | [p, q, r, s], _ =>
  simp only [List.map_cons, List.map_nil, List.cons.injEq, and_true] at hdigits
  obtain ⟨hp, hq, hr, hs⟩ := hdigits
  obtain ⟨ha, hpu, -⟩ := hexDigit_facts tables hp
  obtain ⟨hb, hqu, -⟩ := hexDigit_facts tables hq
  obtain ⟨hc, hru, -⟩ := hexDigit_facts tables hr
  obtain ⟨hd, hsu, -⟩ := hexDigit_facts tables hs
  have hhigh : (UInt8.ofNat ((16 * (16 * (16 * (16 * 0 + a) + b) + c) + d) /
      2 ^ 8)).toNat = 16 * a + b := by
    rw [UInt8.toNat_ofNat']
    omega
  have hlow : (UInt8.ofNat
      (16 * (16 * (16 * (16 * 0 + a) + b) + c) + d)).toNat = 16 * c + d := by
    rw [UInt8.toNat_ofNat']
    omega
  simp only [List.map_cons, List.map_nil, hpu, hqu, hru, hsu, groupBytes,
    List.foldl_cons, List.foldl_nil, pack16Be, upperDigits, List.flatMap_cons,
    List.flatMap_nil, hhigh, hlow, List.cons_append, List.nil_append,
    List.append_nil]
  have h1 : (16 * a + b) / 16 = a := by omega
  have h2 : (16 * a + b) % 16 = b := by omega
  have h3 : (16 * c + d) / 16 = c := by omega
  have h4 : (16 * c + d) % 16 = d := by omega
  rw [h1, h2, h3, h4]

/-- Groups of four digits each, without the colons. -/
theorem upperDigits_groups (tables : LetterTables) {parts : List (List Char)}
    {gs : List Bytes} (hgroups : List.Forall₂ IsGroup parts gs)
    (hfour : ∀ part ∈ parts, part.length = 4) :
    parts.flatten.map tables.toUpper = upperDigits gs.flatten := by
  induction hgroups with
  | nil => rfl
  | @cons part two parts gs hone _ ih =>
      rw [List.forall_mem_cons] at hfour
      obtain ⟨digits, hdigits, rfl⟩ := hone.value
      rw [List.flatten_cons, List.map_append, ih hfour.2,
        upperDigits_group tables hfour.1 hdigits, List.flatten_cons,
        upperDigits, upperDigits, upperDigits, List.flatMap_append]

theorem groups_digits {parts : List (List Char)} {gs : List Bytes}
    (h : List.Forall₂ IsGroup parts gs) :
    ∀ part ∈ parts, part.length ≤ 4 ∧ ∀ c ∈ part, (hexDigit c).isSome := by
  induction h with
  | nil => exact List.forall_mem_nil _
  | @cons part two parts gs hone _ ih =>
      refine List.forall_mem_cons.mpr ⟨⟨hone.short, fun c hc => ?_⟩, ih⟩
      obtain ⟨digits, hdigits, -⟩ := hone.value
      have hmem := List.mem_map_of_mem (f := hexDigit) hc
      rw [hdigits] at hmem
      obtain ⟨d, -, hd⟩ := List.mem_map.mp hmem
      rw [← hd]
      rfl

/-- Eight groups of up to four digits, thirty-two in all, have four each. -/
theorem four_each {parts : List (List Char)} (hshort : ∀ part ∈ parts,
    part.length ≤ 4) (htotal : parts.flatten.length = 4 * parts.length) :
    ∀ part ∈ parts, part.length = 4 := by
  have hbound : ∀ {parts : List (List Char)},
      (∀ part ∈ parts, part.length ≤ 4) →
        parts.flatten.length ≤ 4 * parts.length := by
    intro parts hparts
    induction parts with
    | nil => exact Nat.zero_le _
    | cons part parts ih =>
        rw [List.forall_mem_cons] at hparts
        have hrest := ih hparts.2
        rw [List.flatten_cons, List.length_append, List.length_cons]
        omega
  induction parts with
  | nil => exact List.forall_mem_nil _
  | cons part parts ih =>
      rw [List.forall_mem_cons] at hshort
      have hrest := hbound hshort.2
      rw [List.flatten_cons, List.length_append, List.length_cons] at htotal
      exact List.forall_mem_cons.mpr ⟨by omega, ih hshort.2 (by omega)⟩

/-- The groups that the parts are. -/
theorem exists_groups {parts : List (List Char)}
    (h : ∀ part ∈ parts, part.length = 4 ∧ ∀ c ∈ part, (hexDigit c).isSome) :
    ∃ gs, List.Forall₂ IsGroup parts gs := by
  induction parts with
  | nil => exact ⟨[], .nil⟩
  | cons part parts ih =>
      rw [List.forall_mem_cons] at h
      obtain ⟨⟨hlength, hhex⟩, hrest⟩ := h
      obtain ⟨gs, hgs⟩ := ih hrest
      have hdigits : part.map hexDigit =
          (part.filterMap hexDigit).map some := by
        clear hlength hgs
        induction part with
        | nil => rfl
        | cons c part ihpart =>
            rw [List.forall_mem_cons] at hhex
            obtain ⟨d, hd⟩ := Option.isSome_iff_exists.mp hhex.1
            rw [List.map_cons, List.filterMap_cons_some hd, List.map_cons,
              ihpart hhex.2, hd]
      have hne : part ≠ [] := by
        rintro rfl
        cases hlength
      exact ⟨_, .cons ⟨hne, by omega, _, hdigits, rfl⟩ hgs⟩

/-! ## What the encoder makes of a text -/

theorem upperDigits_injective {a b : Bytes}
    (h : upperDigits a = upperDigits b) : a = b := by
  have hall : ∀ m < 16, ∀ n < 16, upperDigit m = upperDigit n → m = n := by
    decide
  induction a generalizing b with
  | nil =>
      cases b with
      | nil => rfl
      | cons y b => cases h
  | cons x a ih =>
      cases b with
      | nil => cases h
      | cons y b =>
          have hx := x.toNat_lt
          have hy := y.toNat_lt
          simp only [upperDigits, List.flatMap_cons, List.cons_append,
            List.nil_append, List.cons.injEq] at h
          obtain ⟨hhigh, hlow, hrest⟩ := h
          have hdiv := hall _ (by omega) _ (by omega) hhigh
          have hmod := hall _ (by omega) _ (by omega) hlow
          have hbyte : x = y := UInt8.toNat_inj.mp (by omega)
          rw [hbyte, ih hrest]

theorem upperHex_injective {a b : Bytes} (h : upperHex a = upperHex b) :
    a = b := by
  have hlist := congrArg String.toList h
  rw [upperHex, upperHex, String.toList_ofList, String.toList_ofList] at hlist
  exact upperDigits_injective hlist

theorem upperHex_ne_empty {a : Bytes} (h : a ≠ []) : upperHex a ≠ "" := by
  intro hempty
  exact h (upperHex_injective (b := []) hempty)

theorem length_readOctets {parts : List (List Char)} {raw : Bytes}
    (h : readOctets parts = some raw) : raw.length = parts.length := by
  induction parts generalizing raw with
  | nil => cases h; rfl
  | cons part parts ih =>
      rw [readOctets] at h
      split at h
      · cases h
      · obtain ⟨rest, hrest, rfl⟩ := Option.map_eq_some_iff.mp h
        rw [List.length_cons, List.length_cons, ih hrest]

section Encoder

variable (tables : LetterTables) {version : Int} {text : String}

theorem not_readable_blank (hblank : Blank text) :
    ¬Readable tables version text := by
  rintro (⟨-, hcount, -⟩ | ⟨-, hcount, -⟩)
  · rw [hblank] at hcount
    cases hcount
  · rw [hblank] at hcount
    cases hcount

/-- A text is encoded if and only if it can be read. -/
theorem encode_ne_empty_iff :
    encodeFilterAddress tables text version ≠ "" ↔
      Readable tables version text := by
  by_cases hblank : Blank text
  · have hempty : encodeFilterAddress tables text version = "" := by
      unfold encodeFilterAddress
      dsimp only
      rw [hblank]
      rfl
    exact iff_of_false (fun h => h hempty) (not_readable_blank tables hblank)
  · have hne : ¬(Strings.trimmed text).isEmpty = true := by
      rw [String.isEmpty_iff]
      exact hblank
    unfold encodeFilterAddress Readable
    dsimp only
    rw [if_neg hne]
    split
    · next h4 =>
      subst h4
      unfold encodeIPv4ForFilter
      dsimp only
      split
      · next hcount =>
        refine iff_of_false (fun h => h rfl) ?_
        rintro (⟨-, h, -⟩ | ⟨h, -⟩)
        · exact hcount h
        · cases h
      · next hcount =>
        rw [not_not] at hcount
        rw [← readOctets_isSome]
        split
        · next hnone => simp [hnone]
        · next raw hraw =>
          have hraw4 : raw ≠ [] := by
            rintro rfl
            have := length_readOctets hraw
            rw [hcount] at this
            cases this
          rw [toHexUpper_eq]
          exact iff_of_true (upperHex_ne_empty hraw4)
            (.inl ⟨rfl, hcount, by rw [hraw]; rfl⟩)
    · next h4 =>
      split
      · next h6 =>
        subst h6
        split
        · next hnone =>
          refine iff_of_false (fun h => h rfl) ?_
          rintro (⟨h, -⟩ | ⟨-, -, hletters⟩)
          · cases h
          · rw [(addressDigits_eq_some tables).mpr ⟨hletters, rfl⟩] at hnone
            cases hnone
        · next hex hhex =>
          obtain ⟨hletters, rfl⟩ := (addressDigits_eq_some tables).mp hhex
          rw [List.length_map]
          split
          · next hcount =>
            refine iff_of_true ?_ (.inr ⟨rfl, hcount, hletters⟩)
            intro hempty
            have hnil := congrArg String.toList hempty
            rw [String.toList_ofList] at hnil
            have := congrArg List.length hnil
            rw [List.length_map, hcount] at this
            cases this
          · next hcount =>
            refine iff_of_false (fun h => h rfl) ?_
            rintro (⟨h, -⟩ | ⟨-, h, -⟩)
            · cases h
            · exact hcount h
      · next h6 =>
        refine iff_of_false (fun h => h rfl) ?_
        rintro (⟨h, -⟩ | ⟨h, -⟩)
        · exact h4 h
        · exact h6 h

/-- An address that is sent at all is written out, and sent as it is. -/
theorem encode_denoted {address : Bytes} (h : Denotes version text address)
    (hread : Readable tables version text) :
    WrittenOut version text ∧
      encodeFilterAddress tables text version = upperHex address := by
  have hblank : ¬Blank text := fun hblank =>
    not_readable_blank tables hblank hread
  have hne : ¬(Strings.trimmed text).isEmpty = true := by
    rw [String.isEmpty_iff]
    exact hblank
  unfold encodeFilterAddress
  dsimp only
  rw [if_neg hne]
  obtain ⟨rfl, hquad⟩ | ⟨rfl, hcolon⟩ := h
  · refine ⟨.inl ⟨rfl, address, hquad⟩, ?_⟩
    rw [if_pos rfl, encodeIPv4ForFilter]
    rw [if_neg (fun hcount => hcount hquad.count),
      readOctets_of_quad hquad.octets]
    exact toHexUpper_eq address
  · obtain ⟨h46, -⟩ | ⟨-, htotal, hletters⟩ := hread
    · cases h46
    obtain ⟨hcount, gs, hgroups, rfl⟩ := hcolon
    have hone := groups_digits hgroups
    have hfour := four_each (fun part hpart => (hone part hpart).1) (by
      rw [flatten_splitOn, htotal, hcount])
    refine ⟨.inr ⟨rfl, hcount, fun part hpart =>
      ⟨hfour part hpart, (hone part hpart).2⟩⟩, ?_⟩
    have hupper := upperDigits_groups tables hgroups hfour
    rw [flatten_splitOn] at hupper
    rw [if_neg (by decide), if_pos rfl,
      (addressDigits_eq_some tables).mpr ⟨hletters, rfl⟩]
    dsimp only
    rw [List.length_map, if_pos htotal, hupper, upperHex]

theorem WrittenOut.denotes (h : WrittenOut version text) :
    ∃ address, Denotes version text address := by
  obtain ⟨rfl, address, hquad⟩ | ⟨rfl, hcount, hparts⟩ := h
  · exact ⟨address, .inl ⟨rfl, hquad⟩⟩
  · obtain ⟨gs, hgs⟩ := exists_groups hparts
    exact ⟨gs.flatten, .inr ⟨rfl, hcount, gs, hgs, rfl⟩⟩

theorem WrittenOut.readable (h : WrittenOut version text) :
    Readable tables version text := by
  obtain ⟨rfl, address, hquad⟩ | ⟨rfl, hcount, hparts⟩ := h
  · refine .inl ⟨rfl, hquad.count, readOctets_isSome.mp ?_⟩
    rw [readOctets_of_quad hquad.octets]
    rfl
  · have hflat := flatten_splitOn ':' (Strings.trimmed text).toList
    refine .inr ⟨rfl, ?_, fun c hc hcolon => ?_⟩
    · have hlength : ∀ {parts : List (List Char)},
          (∀ part ∈ parts, part.length = 4) →
            parts.flatten.length = 4 * parts.length := by
        intro parts hfour
        induction parts with
        | nil => rfl
        | cons part parts ih =>
            rw [List.forall_mem_cons] at hfour
            rw [List.flatten_cons, List.length_append, List.length_cons,
              ih hfour.2, hfour.1]
            omega
      rw [← hflat, hlength fun part hpart => (hparts part hpart).1, hcount]
    · have hmem : c ∈ (Strings.trimmed text).toList.filter (· ≠ ':') :=
        List.mem_filter.mpr ⟨hc, by simpa using hcolon⟩
      rw [← hflat] at hmem
      obtain ⟨part, hpart, hcpart⟩ := List.mem_flatten.mp hmem
      obtain ⟨d, hd⟩ :=
        Option.isSome_iff_exists.mp ((hparts part hpart).2 c hcpart)
      obtain ⟨-, -, hascii, halpha⟩ := hexDigit_facts tables hd
      exact ⟨by omega, halpha⟩

end Encoder

/-! ## What is sent -/

section Sent

variable (tables : LetterTables) (f : IpHeadersFilter)

theorem not_malformed_iff (text : String) :
    malformed tables text f.ipVersion = false ↔
      Blank text ∨ Readable tables f.ipVersion text := by
  have hempty : (encodeFilterAddress tables text f.ipVersion).isEmpty = false ↔
      encodeFilterAddress tables text f.ipVersion ≠ "" := by
    rw [ne_eq, ← String.isEmpty_iff, Bool.not_eq_true]
  rw [malformed, Bool.and_eq_false_iff, Bool.not_eq_false', String.isEmpty_iff,
    ← encode_ne_empty_iff, hempty]
  exact Iff.rfl

theorem addIpHeadersFilter_eq_ok {body : List (String × String)} :
    addIpHeadersFilter tables f = .ok body ↔
      (Checked f ∧
        (Blank f.srcAddress ∨ Readable tables f.ipVersion f.srcAddress) ∧
        (Blank f.dstAddress ∨ Readable tables f.ipVersion f.dstAddress)) ∧
      body = buildAddIpHeadersFilterEnvelope tables f := by
  rw [← not_malformed_iff, ← not_malformed_iff]
  constructor
  · intro h
    unfold addIpHeadersFilter at h
    split at h
    · cases h
    split at h
    · cases h
    split at h
    · cases h
    split at h
    · cases h
    split at h
    · cases h
    split at h
    · cases h
    next hname hversion hprofile hdirection hsource hdestination =>
    cases h
    refine ⟨⟨⟨?_, by omega, by omega, by omega⟩,
      Bool.not_eq_true _ ▸ hsource, Bool.not_eq_true _ ▸ hdestination⟩, rfl⟩
    rw [String.isEmpty_iff] at hname
    exact hname
  · rintro ⟨⟨⟨hname, hversion, hprofile, hdirection⟩, hsource, hdestination⟩,
      rfl⟩
    unfold addIpHeadersFilter
    rw [if_neg (by rw [String.isEmpty_iff]; exact hname), if_neg (by omega),
      if_neg (by omega), if_neg (by omega), hsource, hdestination]
    rfl

theorem mem_source {hex : String} :
    ("HdrSrcAddress", hex) ∈ buildAddIpHeadersFilterEnvelope tables f ↔
      hex = encodeFilterAddress tables f.srcAddress f.ipVersion ∧ hex ≠ "" := by
  have hfield :
      ("HdrSrcAddress", hex) ∈ buildAddIpHeadersFilterEnvelope tables f ↔
      encodeFilterAddress tables f.srcAddress f.ipVersion ≠ "" ∧
        hex = encodeFilterAddress tables f.srcAddress f.ipVersion := by
    simp [buildAddIpHeadersFilterEnvelope, optionalText, portRange]
  rw [hfield]
  constructor
  · rintro ⟨hne, rfl⟩
    exact ⟨rfl, hne⟩
  · rintro ⟨rfl, hne⟩
    exact ⟨hne, rfl⟩

theorem mem_destination {hex : String} :
    ("HdrDestAddress", hex) ∈ buildAddIpHeadersFilterEnvelope tables f ↔
      hex = encodeFilterAddress tables f.dstAddress f.ipVersion ∧ hex ≠ "" := by
  have hfield :
      ("HdrDestAddress", hex) ∈ buildAddIpHeadersFilterEnvelope tables f ↔
      encodeFilterAddress tables f.dstAddress f.ipVersion ≠ "" ∧
        hex = encodeFilterAddress tables f.dstAddress f.ipVersion := by
    simp [buildAddIpHeadersFilterEnvelope, optionalText, portRange]
  rw [hfield]
  constructor
  · rintro ⟨hne, rfl⟩
    exact ⟨rfl, hne⟩
  · rintro ⟨rfl, hne⟩
    exact ⟨hne, rfl⟩

variable {tables f}

/-- One of the addresses, where those that are read are written out. The element
of its name carries what the encoder gives, if it gives anything. -/
theorem keepsAddress_of {name text : String}
    (hmem : ∀ hex, (name, hex) ∈ buildAddIpHeadersFilterEnvelope tables f ↔
      hex = encodeFilterAddress tables text f.ipVersion ∧ hex ≠ "")
    (hplain : ∀ body, addIpHeadersFilter tables f = .ok body →
      Blank text ∨ WrittenOut f.ipVersion text) :
    KeepsAddress tables f name text where
  sent body hbody hex hhex := by
    obtain ⟨-, rfl⟩ := (addIpHeadersFilter_eq_ok tables f).mp hbody
    obtain ⟨rfl, hne⟩ := (hmem hex).mp hhex
    have hread := (encode_ne_empty_iff tables).mp hne
    obtain hblank | hwritten := hplain _ hbody
    · exact absurd hread (not_readable_blank tables hblank)
    · obtain ⟨address, haddress⟩ := hwritten.denotes
      exact ⟨address, haddress, (encode_denoted tables haddress hread).2⟩
  refused hgiven hnone := by
    cases hbody : addIpHeadersFilter tables f with
    | error e => exact ⟨e, rfl⟩
    | ok body =>
        obtain hblank | hwritten := hplain body hbody
        · exact absurd hblank hgiven
        · obtain ⟨address, haddress⟩ := hwritten.denotes
          exact absurd haddress (hnone address)

/-- An address that is sent is written out. -/
theorem writtenOut_of_sent {name text : String}
    (hmem : ∀ hex, (name, hex) ∈ buildAddIpHeadersFilterEnvelope tables f ↔
      hex = encodeFilterAddress tables text f.ipVersion ∧ hex ≠ "")
    (hkeeps : KeepsAddress tables f name text)
    (hbody : addIpHeadersFilter tables f =
      .ok (buildAddIpHeadersFilterEnvelope tables f))
    (h : Blank text ∨ Readable tables f.ipVersion text) :
    Blank text ∨ WrittenOut f.ipVersion text := by
  refine h.imp_right fun hread => ?_
  have hne := (encode_ne_empty_iff tables).mpr hread
  obtain ⟨address, haddress, -⟩ :=
    hkeeps.sent _ hbody _ ((hmem _).mpr ⟨rfl, hne⟩)
  exact (encode_denoted tables haddress hread).1

variable (tables f)

theorem keepsAddresses_iff : KeepsAddresses tables f ↔ AllWrittenOut tables f := by
  constructor
  · intro hkeeps hchecked hsource hdestination
    have hbody := (addIpHeadersFilter_eq_ok tables f).mpr
      ⟨⟨hchecked, hsource, hdestination⟩, rfl⟩
    exact ⟨writtenOut_of_sent (fun _ => mem_source tables f) hkeeps.source hbody
        hsource,
      writtenOut_of_sent (fun _ => mem_destination tables f) hkeeps.destination
        hbody hdestination⟩
  · intro hplain
    have hboth : ∀ body, addIpHeadersFilter tables f = .ok body →
        (Blank f.srcAddress ∨ WrittenOut f.ipVersion f.srcAddress) ∧
          (Blank f.dstAddress ∨ WrittenOut f.ipVersion f.dstAddress) := by
      intro body hbody
      obtain ⟨⟨hchecked, hsource, hdestination⟩, -⟩ :=
        (addIpHeadersFilter_eq_ok tables f).mp hbody
      exact hplain hchecked hsource hdestination
    refine ⟨keepsAddress_of (fun _ => mem_source tables f)
        fun body hbody => (hboth body hbody).1,
      keepsAddress_of (fun _ => mem_destination tables f)
        fun body hbody => (hboth body hbody).2,
      fun hchecked hsource hdestination => ?_⟩
    have hencoded : ∀ {text : String}, ¬Blank text →
        Blank text ∨ WrittenOut f.ipVersion text →
          encodeFilterAddress tables text f.ipVersion ≠ "" := by
      intro text hgiven h
      exact (encode_ne_empty_iff tables).mpr
        ((h.resolve_left hgiven).readable tables)
    refine ⟨_, (addIpHeadersFilter_eq_ok tables f).mpr ⟨⟨hchecked,
      hsource.imp_right fun h => h.readable tables,
      hdestination.imp_right fun h => h.readable tables⟩, rfl⟩,
      fun hgiven => ⟨_, (mem_source tables f).mpr
        ⟨rfl, hencoded hgiven hsource⟩⟩,
      fun hgiven => ⟨_, (mem_destination tables f).mpr
        ⟨rfl, hencoded hgiven hdestination⟩⟩⟩

end Sent

/-- The characters of ASCII and no others. -/
def asciiLetters : LetterTables where
  isLetterOrNumber := Char.isAlphanum
  toUpper := Char.toUpper
  isLetterOrNumber_ascii _ _ := rfl
  toUpper_ascii _ _ := rfl

/-- A filter on packets that come in, from one address. -/
def dropFrom (version : Int) (source : String) : IpHeadersFilter where
  name := "Drop"
  ipVersion := version
  filterProfile := 4
  filterDirection := 1
  srcAddress := source

theorem not_keeps_dropFrom {version : Int} {source : String}
    (hversion : version = 4 ∨ version = 6)
    (hsent : encodeFilterAddress asciiLetters source version ≠ "")
    (hforeign : ¬WrittenOut version source) :
    ¬KeepsAddresses asciiLetters (dropFrom version source) := by
  rw [keepsAddresses_iff]
  intro hplain
  have hchecked : Checked (dropFrom version source) :=
    ⟨by simp [dropFrom], hversion, by simp [dropFrom], .inr rfl⟩
  have hread : Readable asciiLetters version source :=
    (encode_ne_empty_iff asciiLetters).mp hsent
  obtain ⟨hblank | hwritten, -⟩ := hplain hchecked (.inr hread) (.inl rfl)
  · exact not_readable_blank asciiLetters hblank hread
  · exact hforeign hwritten

/-- A sign goes unnoticed, and so does a letter that is no digit. -/
theorem foreign_address :
    ¬KeepsAddresses asciiLetters (dropFrom 4 "10.0.0.+5") ∧
      ¬KeepsAddresses asciiLetters
        (dropFrom 6 "gggg:0000:0000:0000:0000:0000:0000:0001") := by
  constructor
  · refine not_keeps_dropFrom (.inl rfl) (by decide) ?_
    rintro (⟨-, address, hquad⟩ | ⟨h46, -⟩)
    · have hparts : (Strings.trimmed "10.0.0.+5").toList.splitOn '.' =
          [['1', '0'], ['0'], ['0'], ['+', '5']] := by
        decide
      have hoctets := hquad.octets
      rw [hparts] at hoctets
      obtain _ | ⟨-, _ | ⟨-, _ | ⟨-, _ | ⟨hlast, -⟩⟩⟩⟩ := hoctets
      exact absurd (hlast.digits '+' (by simp)) (by decide)
    · cases h46
  · refine not_keeps_dropFrom (.inr rfl) (by decide) ?_
    rintro (⟨h64, -⟩ | ⟨-, -, hparts⟩)
    · cases h64
    · obtain ⟨-, hdigits⟩ := hparts ['g', 'g', 'g', 'g'] (by decide)
      exact absurd (hdigits 'g' (by simp)) (by decide)

/-- A filter carries the addresses that were typed, or is refused, in just these
cases; and addresses that are sent are told apart in any case. -/
theorem filter_exact_iff (tables : LetterTables) :
    (∀ f, KeepsAddresses tables f ↔ AllWrittenOut tables f) ∧
    ∀ version s t a b, Denotes version s a → Denotes version t b → a ≠ b →
      encodeFilterAddress tables s version ≠ "" →
      encodeFilterAddress tables t version ≠ "" →
        encodeFilterAddress tables s version ≠
          encodeFilterAddress tables t version := by
  refine ⟨keepsAddresses_iff tables, ?_⟩
  intro version s t a b hs ht hne hsent htent heq
  rw [(encode_denoted tables hs ((encode_ne_empty_iff tables).mp hsent)).2,
    (encode_denoted tables ht ((encode_ne_empty_iff tables).mp htent)).2] at heq
  exact hne (upperHex_injective heq)

end QuMesh.Wsman
