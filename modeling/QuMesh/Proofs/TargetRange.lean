import QuMesh.Rmcp.TargetRange
import Mathlib.Data.List.Basic
import Mathlib.Data.Nat.Bitwise

/-!
# A specification expands to the addresses it names

The two loops are intervals of natural numbers, read back as addresses,
`networkLoop_eq` and `rangeLoop_eq`. Nothing wraps in them: a network begins
at its base with the last bits cleared, `toNat_network`, so it ends below the
next multiple of its size, and a range ends at an address. The rest is about
the text: what stands before the slash or the dash reads as the address it was
printed from, and what stands behind it as whatever it reads as alone.
-/

namespace QuMesh.Rmcp

open QuMesh.Lib

/-! ## Intervals of addresses -/

/-- `n` addresses from the one with the number `first`. -/
def consecutive (first n : Nat) : List HostAddress :=
  (List.range' first n).map UInt32.ofNat

theorem consecutive_succ (first n : Nat) :
    consecutive first (n + 1) =
      UInt32.ofNat first :: consecutive (first + 1) n := by
  rw [consecutive, List.range'_succ, List.map_cons]
  rfl

theorem networkLoop_eq (network : HostAddress) (count i : Nat) :
    networkLoop network count i =
      consecutive (network.toNat + i) (count - i) := by
  fun_induction networkLoop network count i with
  | case1 i hlt ih =>
      have hmore : count - i = (count - (i + 1)) + 1 := by omega
      rw [ih, hmore, consecutive_succ, Nat.add_assoc]
  | case2 i hge =>
      have hnone : count - i = 0 := by omega
      rw [hnone]
      rfl

theorem rangeLoop_eq (hi v : Nat) :
    rangeLoop hi v = consecutive v (hi + 1 - v) := by
  fun_induction rangeLoop hi v with
  | case1 v hle ih =>
      have hmore : hi + 1 - v = (hi + 1 - (v + 1)) + 1 := by omega
      rw [ih, hmore, consecutive_succ]
  | case2 v hgt =>
      have hnone : hi + 1 - v = 0 := by omega
      rw [hnone]
      rfl

@[simp] theorem length_consecutive (first n : Nat) :
    (consecutive first n).length = n := by
  rw [consecutive, List.length_map, List.length_range']

theorem map_toNat_consecutive {first n : Nat} (h : first + n ≤ 2 ^ 32) :
    (consecutive first n).map UInt32.toNat = List.range' first n := by
  rw [consecutive, List.map_map]
  conv_rhs => rw [← List.map_id (List.range' first n)]
  refine List.map_congr_left fun v hv => ?_
  obtain ⟨-, hlt⟩ := List.mem_range'_1.mp hv
  exact UInt32.toNat_ofNat_of_lt' (by show v < 2 ^ 32; omega)

theorem mem_consecutive {first n : Nat} (h : first + n ≤ 2 ^ 32)
    {x : HostAddress} :
    x ∈ consecutive first n ↔ first ≤ x.toNat ∧ x.toNat < first + n := by
  have hinj : Function.Injective UInt32.toNat := fun a b => UInt32.toNat_inj.mp
  rw [← List.mem_map_of_injective hinj, map_toNat_consecutive h,
    List.mem_range'_1]

/-- They ascend. -/
theorem consecutive_ascending {first n : Nat} (h : first + n ≤ 2 ^ 32) :
    (consecutive first n).Pairwise (· < ·) := by
  have hnat : ((consecutive first n).map UInt32.toNat).Pairwise (· < ·) := by
    rw [map_toNat_consecutive h]
    exact List.pairwise_lt_range'
  rw [List.pairwise_map] at hnat
  exact hnat.imp fun hlt => UInt32.lt_iff_toNat_lt.mpr hlt

/-! ## The bits of a network -/

/-- The base of a network is the address with its last bits cleared. -/
theorem toNat_network (a : HostAddress) {k : Nat} (hk : k < 32) :
    (a &&& (~~~0 <<< UInt32.ofNat k)).toNat = a.toNat / 2 ^ k * 2 ^ k := by
  have hshift : (UInt32.ofNat k).toNat % 32 = k := by
    rw [UInt32.toNat_ofNat_of_lt' (by show k < 2 ^ 32; omega)]
    omega
  have hall : (~~~0 : UInt32).toNat = 2 ^ 32 - 1 := by decide
  rw [UInt32.toNat_and, UInt32.toNat_shiftLeft, hshift, hall]
  refine Nat.eq_of_testBit_eq fun i => ?_
  rw [Nat.testBit_and, Nat.testBit_mod_two_pow, Nat.testBit_shiftLeft,
    Nat.testBit_two_pow_sub_one, Nat.testBit_mul_two_pow,
    Nat.testBit_div_two_pow]
  by_cases hlow : k ≤ i
  · have hat : i - k + k = i := by omega
    by_cases hhigh : i < 32
    · have hin : i - k < 32 := by omega
      simp [hlow, hhigh, hin, hat]
    · have hzero : a.toNat.testBit i = false := by
        refine Nat.testBit_lt_two_pow (lt_of_lt_of_le a.toNat_lt ?_)
        exact Nat.pow_le_pow_right (by decide) (by omega)
      simp [hlow, hzero, hat]
  · simp [hlow]

/-- A network ends inside the address space. -/
theorem network_fits (a : HostAddress) {k : Nat} (hk : k ≤ 32) :
    a.toNat / 2 ^ k * 2 ^ k + 2 ^ k ≤ 2 ^ 32 := by
  have hsplit : 2 ^ 32 = 2 ^ (32 - k) * 2 ^ k := by
    rw [← Nat.pow_add]
    congr 1
    omega
  have hlt : a.toNat / 2 ^ k < 2 ^ (32 - k) := by
    rw [Nat.div_lt_iff_lt_mul (Nat.two_pow_pos k), ← hsplit]
    exact a.toNat_lt
  calc a.toNat / 2 ^ k * 2 ^ k + 2 ^ k
      = (a.toNat / 2 ^ k + 1) * 2 ^ k := by rw [Nat.add_mul, Nat.one_mul]
    _ ≤ 2 ^ (32 - k) * 2 ^ k := Nat.mul_le_mul_right _ hlt
    _ = 2 ^ 32 := hsplit.symm

/-- Its addresses are the ones that agree before the last `k` bits. -/
theorem mem_network (a x : HostAddress) {k : Nat} (hk : k ≤ 32) :
    x ∈ consecutive (a.toNat / 2 ^ k * 2 ^ k) (2 ^ k) ↔
      x.toNat / 2 ^ k = a.toNat / 2 ^ k := by
  rw [mem_consecutive (network_fits a hk)]
  have hpos := Nat.two_pow_pos k
  rw [Nat.div_eq_iff hpos]
  omega

/-! ## The text -/

/-- What Qt documents of the dotted form. -/
def AddressReader.Reads (q : AddressReader) : Prop :=
  ∀ a : HostAddress, (q.setAddress a.toText).bind q.toIPv4Address = some a

/-- One of the four numbers. -/
def partOf (a : HostAddress) (shift : Nat) : List Char :=
  Nat.toDigits 10 (a.toNat / shift % 256)

theorem toList_toText (a : HostAddress) :
    a.toText.toList =
      partOf a 16777216 ++ '.' :: (partOf a 65536 ++ '.' ::
        (partOf a 256 ++ '.' :: partOf a 1)) := by
  simp [HostAddress.toText, partOf]

theorem partOf_digits {a : HostAddress} {shift : Nat} :
    ∀ c ∈ partOf a shift, c.isDigit = true :=
  fun _ hc => Nat.isDigit_of_mem_toDigits (by decide) (by decide) hc

theorem toText_chars {a : HostAddress} {c : Char} (h : c ∈ a.toText.toList) :
    c.isDigit = true ∨ c = '.' := by
  rw [toList_toText] at h
  simp only [List.mem_append, List.mem_cons] at h
  rcases h with h | rfl | h | rfl | h | rfl | h
  · exact Or.inl (partOf_digits c h)
  · exact Or.inr rfl
  · exact Or.inl (partOf_digits c h)
  · exact Or.inr rfl
  · exact Or.inl (partOf_digits c h)
  · exact Or.inr rfl
  · exact Or.inl (partOf_digits c h)

theorem toText_noSpace {a : HostAddress} :
    ∀ c ∈ a.toText.toList, Strings.isSpace c = false := by
  intro c hc
  rcases toText_chars hc with hdigit | rfl
  · exact Strings.isSpace_digit hdigit
  · decide

theorem toText_cons (a : HostAddress) :
    ∃ c cs, a.toText.toList = c :: cs ∧ Strings.isSpace c = false := by
  obtain ⟨c, cs, h⟩ : ∃ c cs, a.toText.toList = c :: cs := by
    refine List.exists_cons_of_ne_nil ?_
    rw [toList_toText]
    simp
  exact ⟨c, cs, h, toText_noSpace c (by rw [h]; exact List.mem_cons_self)⟩

/-- The text is not split inside an address. -/
theorem not_mem_toText {a : HostAddress} {sep : Char}
    (hsep : sep.isDigit = false) (hdot : sep ≠ '.') :
    sep ∉ a.toText.toList := by
  intro h
  rcases toText_chars h with hdigit | heq
  · rw [hsep] at hdigit
    cases hdigit
  · exact hdot heq

theorem parseIPv4_toText {q : AddressReader} (hq : q.Reads) (a : HostAddress) :
    parseIPv4 q a.toText = some a := by
  rw [parseIPv4, Strings.trimmed, Strings.trimmedChars_of_noSpace toText_noSpace,
    String.ofList_toList]
  exact hq a

theorem split_first {sep : Char} {x : String} (y : List Char)
    (h : sep ∉ x.toList) :
    split sep (String.ofList (x.toList ++ sep :: y)) =
      x :: split sep (String.ofList y) := by
  rw [split, split, String.toList_ofList, String.toList_ofList,
    List.splitOn_append_cons_self_of_not_mem h, List.map_cons,
    String.ofList_toList]

theorem split_last {sep : Char} {x : String} (h : sep ∉ x.toList) :
    split sep x = [x] := by
  rw [split, List.splitOn_eq_singleton h, List.map_singleton,
    String.ofList_toList]

/-- Trimmed, the text behind the separator loses its last spaces. -/
theorem trimmed_behind (a : HostAddress) {sep : Char}
    (hsep : Strings.isSpace sep = false) (t : String) :
    ∃ kept sp, t.toList = kept ++ sp ∧
      (∀ x ∈ sp, Strings.isSpace x = true) ∧
      Strings.trimmed (a.toText ++ String.singleton sep ++ t) =
        String.ofList (a.toText.toList ++ sep :: kept) := by
  obtain ⟨c, cs, htext, hc⟩ := toText_cons a
  obtain ⟨kept, sp, ht, hsp, htrim⟩ :=
    Strings.trimmedChars_append cs t.toList hc hsep
  refine ⟨kept, sp, ht, hsp, ?_⟩
  rw [Strings.trimmed, String.toList_append, String.toList_append,
    String.toList_singleton, htext, List.append_assoc, List.singleton_append,
    htrim]

/-- Not the empty text, and the separator is in it. -/
theorem behind_ne_empty (a : HostAddress) (sep : Char) (kept : List Char) :
    String.ofList (a.toText.toList ++ sep :: kept) ≠ "" := by
  intro h
  have hnil := congrArg String.toList h
  simp at hnil

/-- With a slash behind the address, the rest is read as a mask. -/
theorem parseTargets_slash (q : AddressReader) (a : HostAddress) (t : String) :
    ∃ kept : String, Strings.toInt kept = Strings.toInt t ∧
      (∀ c ∈ kept.toList, c ∈ t.toList) ∧
      parseTargets q (a.toText ++ "/" ++ t) =
        parseNetwork q (a.toText :: split '/' kept) := by
  obtain ⟨kept, sp, ht, hsp, htrim⟩ :=
    trimmed_behind a (by decide : Strings.isSpace '/' = false) t
  refine ⟨String.ofList kept, ?_, ?_, ?_⟩
  · refine Strings.toInt_congr ?_
    rw [String.toList_ofList, ht, Strings.trimmedChars_append_spaces kept hsp]
  · intro c hc
    rw [String.toList_ofList] at hc
    rw [ht]
    exact List.mem_append_left _ hc
  · have hslash : '/' ∉ a.toText.toList := not_mem_toText (by decide) (by decide)
    have htrim' : Strings.trimmed (a.toText ++ "/" ++ t) =
        String.ofList (a.toText.toList ++ '/' :: kept) := htrim
    simp only [parseTargets, htrim']
    rw [if_neg (behind_ne_empty a '/' kept), if_pos (by simp),
      split_first kept hslash]

/-- The mask decides: a network, or an error. -/
theorem parseNetwork_mask {q : AddressReader} (hq : q.Reads) (a : HostAddress)
    {kept : String} {mask : Int} (hmask : Strings.toInt kept = some mask)
    (hlow : 16 ≤ mask) (hhigh : mask ≤ 32) :
    parseNetwork q [a.toText, kept] =
      .ok (consecutive
        (a.toNat / 2 ^ (32 - mask.toNat) * 2 ^ (32 - mask.toNat))
        (2 ^ (32 - mask.toNat))) := by
  have hbits : 32 - mask.toNat < 32 := by omega
  have hbase := toNat_network a hbits
  simp only [parseNetwork, parseIPv4_toText hq, hmask]
  rw [if_neg (by omega), if_neg (by omega), if_neg (by omega), networkLoop_eq,
    hbase, Nat.one_shiftLeft]
  rfl

theorem parseNetwork_other {q : AddressReader} {x kept : String}
    (hmask : ∀ mask, Strings.toInt kept = some mask →
      ¬(16 ≤ mask ∧ mask ≤ 32)) :
    ∃ e, parseNetwork q [x, kept] = .error e := by
  simp only [parseNetwork]
  split
  · exact ⟨_, rfl⟩
  · split
    · exact ⟨_, rfl⟩
    · next mask hread =>
        have hout := hmask mask hread
        split
        · exact ⟨_, rfl⟩
        · rw [if_pos (by omega)]
          exact ⟨_, rfl⟩

/-- Two slashes are one too many. -/
theorem parseNetwork_long {q : AddressReader} {x : String} {parts : List String}
    (h : parts.length ≠ 1) : ∃ e, parseNetwork q (x :: parts) = .error e := by
  match parts with
  | [] => exact ⟨_, rfl⟩
  | [_] => exact absurd rfl h
  | _ :: _ :: _ => exact ⟨_, rfl⟩

theorem split_length {sep : Char} {x : String} (h : sep ∈ x.toList) :
    (split sep x).length ≠ 1 := by
  obtain ⟨xs, ys, hsplit⟩ := List.append_of_mem h
  rw [split, hsplit, List.splitOn_append_cons_self, List.length_map,
    List.length_append]
  have hx := List.length_pos_of_ne_nil (List.splitOn_ne_nil sep xs)
  have hy := List.length_pos_of_ne_nil (List.splitOn_ne_nil sep ys)
  omega

/-- An address, a slash and any text. -/
theorem parseTargets_network {q : AddressReader} (hq : q.Reads)
    (a : HostAddress) (t : String) {mask : Int}
    (hmask : Strings.toInt t = some mask) (hlow : 16 ≤ mask)
    (hhigh : mask ≤ 32) :
    parseTargets q (a.toText ++ "/" ++ t) =
      .ok (consecutive
        (a.toNat / 2 ^ (32 - mask.toNat) * 2 ^ (32 - mask.toNat))
        (2 ^ (32 - mask.toNat))) := by
  obtain ⟨kept, hread, hkept, hparse⟩ := parseTargets_slash q a t
  have hslash : '/' ∉ kept.toList := by
    intro hmem
    rcases Strings.toInt_chars hmask (hkept _ hmem) with h | h | h | h
    · exact absurd h (by decide)
    · exact absurd h (by decide)
    · exact absurd h (by decide)
    · exact absurd h (by decide)
  rw [hparse, split_last hslash,
    parseNetwork_mask hq a (hread.trans hmask) hlow hhigh]

theorem parseTargets_bad_mask (q : AddressReader) (a : HostAddress) (t : String)
    (hmask : ∀ mask, Strings.toInt t = some mask → ¬(16 ≤ mask ∧ mask ≤ 32)) :
    ∃ e, parseTargets q (a.toText ++ "/" ++ t) = .error e := by
  obtain ⟨kept, hread, -, hparse⟩ := parseTargets_slash q a t
  rw [hparse]
  by_cases hslash : '/' ∈ kept.toList
  · exact parseNetwork_long (split_length hslash)
  · rw [split_last hslash]
    exact parseNetwork_other fun mask h => hmask mask (hread ▸ h)

/-- An address, a dash and an address. -/
theorem parseTargets_dash (q : AddressReader) (a b : HostAddress) :
    parseTargets q (a.toText ++ "-" ++ b.toText) =
      parseRange q [a.toText, b.toText] := by
  obtain ⟨kept, sp, ht, hsp, htrim⟩ :=
    trimmed_behind a (by decide : Strings.isSpace '-' = false) b.toText
  have hnone : sp = [] := by
    refine List.eq_nil_iff_forall_not_mem.mpr fun x hx => ?_
    have hspace := hsp x hx
    rw [toText_noSpace x (by rw [ht]; exact List.mem_append_right _ hx)] at hspace
    cases hspace
  rw [hnone, List.append_nil] at ht
  have htrim' : Strings.trimmed (a.toText ++ "-" ++ b.toText) =
      String.ofList (a.toText.toList ++ '-' :: b.toText.toList) := by
    rw [ht]
    exact htrim
  have hslash : ∀ x : HostAddress, '/' ∉ x.toText.toList :=
    fun _ => not_mem_toText (by decide) (by decide)
  have hdash : ∀ x : HostAddress, '-' ∉ x.toText.toList :=
    fun _ => not_mem_toText (by decide) (by decide)
  simp only [parseTargets, htrim']
  rw [if_neg (behind_ne_empty a '-' _), if_neg, if_pos (by simp),
    split_first _ (hdash a), String.ofList_toList, split_last (hdash b)]
  simp [hslash a, hslash b]

theorem parseRange_ok {q : AddressReader} (hq : q.Reads) {a b : HostAddress}
    (hle : a ≤ b) (hspan : b.toNat - a.toNat < 65536) :
    parseRange q [a.toText, b.toText] =
      .ok (consecutive a.toNat (b.toNat - a.toNat + 1)) := by
  have hnat : a.toNat ≤ b.toNat := UInt32.le_iff_toNat_le.mp hle
  have hnot : ¬b < a := by
    rw [UInt32.lt_iff_toNat_lt]
    omega
  have hcount : b.toNat + 1 - a.toNat = b.toNat - a.toNat + 1 := by omega
  simp only [parseRange, parseIPv4_toText hq]
  rw [if_neg hnot, if_neg (by omega), rangeLoop_eq, hcount]

theorem parseRange_other {q : AddressReader} (hq : q.Reads) {a b : HostAddress}
    (h : b < a ∨ 65536 ≤ b.toNat - a.toNat) :
    ∃ e, parseRange q [a.toText, b.toText] = .error e := by
  simp only [parseRange, parseIPv4_toText hq]
  split
  · exact ⟨_, rfl⟩
  · next hnot =>
      have hspan := h.resolve_left hnot
      rw [if_pos (by omega)]
      exact ⟨_, rfl⟩

/-! ## What any accepted specification yields -/

/-- From one address to 65536, no two alike. -/
structure Bounded (l : List HostAddress) : Prop where
  some_address : 1 ≤ l.length
  few : l.length ≤ 65536
  ascending : l.Pairwise (· < ·)

theorem bounded_consecutive {first n : Nat} (hpos : 1 ≤ n) (hfew : n ≤ 65536)
    (hfits : first + n ≤ 2 ^ 32) : Bounded (consecutive first n) where
  some_address := by rw [length_consecutive]; exact hpos
  few := by rw [length_consecutive]; exact hfew
  ascending := consecutive_ascending hfits

theorem bounded_network (a : HostAddress) {mask : Int} (hlow : 16 ≤ mask) :
    Bounded (consecutive
      (a.toNat / 2 ^ (32 - mask.toNat) * 2 ^ (32 - mask.toNat))
      (2 ^ (32 - mask.toNat))) := by
  refine bounded_consecutive (Nat.one_le_two_pow) ?_
    (network_fits a (by omega))
  calc 2 ^ (32 - mask.toNat) ≤ 2 ^ 16 :=
        Nat.pow_le_pow_right (by decide) (by omega)
    _ = 65536 := rfl

theorem parseNetwork_bounded {q : AddressReader} {parts : List String}
    {l : List HostAddress} (h : parseNetwork q parts = .ok l) : Bounded l := by
  match parts, h with
  | [], h => cases h
  | [_], h => cases h
  | _ :: _ :: _ :: _, h => cases h
  | [x, prefixLength], h =>
      simp only [parseNetwork] at h
      split at h
      · cases h
      · next base _ =>
          split at h
          · cases h
          · next mask _ =>
              split at h
              · cases h
              · next hin =>
                  split at h
                  · cases h
                  · next hwide =>
                      rw [if_neg (by omega), networkLoop_eq,
                        toNat_network base (by omega), Nat.one_shiftLeft] at h
                      cases h
                      exact bounded_network base (by omega)

theorem parseRange_bounded {q : AddressReader} {parts : List String}
    {l : List HostAddress} (h : parseRange q parts = .ok l) : Bounded l := by
  match parts, h with
  | [], h => cases h
  | [_], h => cases h
  | _ :: _ :: _ :: _, h => cases h
  | [first, last], h =>
      simp only [parseRange] at h
      split at h
      · next lo hi _ _ =>
          split at h
          · cases h
          · next hnot =>
              split at h
              · cases h
              · next hcount =>
                  rw [rangeLoop_eq] at h
                  cases h
                  have hhi := hi.toNat_lt
                  rw [UInt32.lt_iff_toNat_lt] at hnot
                  exact bounded_consecutive (by omega) (by omega) (by omega)
      · cases h

theorem parseTargets_bounded {q : AddressReader} {spec : String}
    {l : List HostAddress} (h : parseTargets q spec = .ok l) : Bounded l := by
  simp only [parseTargets] at h
  split at h
  · cases h
  · split at h
    · exact parseNetwork_bounded h
    · split at h
      · exact parseRange_bounded h
      · split at h
        · cases h
        · cases h
          exact ⟨by simp, by simp, List.pairwise_singleton _ _⟩

/-- What is accepted is a list of targets as the scanner takes it. -/
theorem exists_targets {q : AddressReader} {spec : String}
    {l : List HostAddress} (h : parseTargets q spec = .ok l) :
    ∃ targets : Targets, targets.addresses = l := by
  have hbounded := parseTargets_bounded h
  refine ⟨⟨l, hbounded.ascending.imp fun hlt heq => ?_⟩, rfl⟩
  rw [heq, UInt32.lt_iff_toNat_lt] at hlt
  omega

/-- A network is the addresses that agree with its address in the first bits,
a range the addresses between its ends, everything else of these forms an
error, and whatever is accepted is between one address and 65536. -/
theorem parseTargets_expands {q : AddressReader} (hq : q.Reads) :
    (∀ (a : HostAddress) (m : Nat), 16 ≤ m → m ≤ 32 →
      ∃ l, parseTargets q (a.toText ++ "/" ++ toString m) = .ok l ∧
        l.length = 2 ^ (32 - m) ∧ l.Pairwise (· < ·) ∧
        ∀ x, x ∈ l ↔
          x.toNat / 2 ^ (32 - m) = a.toNat / 2 ^ (32 - m)) ∧
    (∀ a b : HostAddress, a ≤ b → b.toNat - a.toNat < 65536 →
      ∃ l, parseTargets q (a.toText ++ "-" ++ b.toText) = .ok l ∧
        l.map UInt32.toNat =
          List.range' a.toNat (b.toNat - a.toNat + 1)) ∧
    (∀ (a : HostAddress) (t : String),
      (∀ m, Strings.toInt t = some m → ¬(16 ≤ m ∧ m ≤ 32)) →
      ∃ e, parseTargets q (a.toText ++ "/" ++ t) = .error e) ∧
    (∀ a b : HostAddress, b < a ∨ 65536 ≤ b.toNat - a.toNat →
      ∃ e, parseTargets q (a.toText ++ "-" ++ b.toText) = .error e) ∧
    ∀ spec l, parseTargets q spec = .ok l →
      1 ≤ l.length ∧ l.length ≤ 65536 := by
  refine ⟨?_, ?_, parseTargets_bad_mask q, ?_, ?_⟩
  · intro a m hlow hhigh
    have hread : Strings.toInt (toString m) = some (m : Int) := by
      rw [Strings.toInt_toString, if_pos (by omega)]
    have hparse := parseTargets_network hq a (toString m) hread (by omega)
      (by omega)
    rw [Int.toNat_natCast] at hparse
    exact ⟨_, hparse, length_consecutive _ _,
      consecutive_ascending (network_fits a (by omega)),
      fun x => mem_network a x (by omega)⟩
  · intro a b hle hspan
    refine ⟨_, (parseTargets_dash q a b).trans (parseRange_ok hq hle hspan), ?_⟩
    have hb := b.toNat_lt
    rw [UInt32.le_iff_toNat_le] at hle
    exact map_toNat_consecutive (by omega)
  · intro a b h
    rw [parseTargets_dash]
    exact parseRange_other hq h
  · intro spec l h
    have hbounded := parseTargets_bounded h
    exact ⟨hbounded.some_address, hbounded.few⟩

/-- A reader of the dotted form alone. -/
def readDotted (s : String) : Option HostAddress :=
  match (split '.' s).map Strings.toInt with
  | [some a, some b, some c, some d] =>
      if [a, b, c, d].all fun n => 0 ≤ n && n < 256 then
        some (UInt32.ofNat
          (a.toNat * 16777216 + b.toNat * 65536 + c.toNat * 256 + d.toNat))
      else none
  | _ => none

def dotted : AddressReader where
  Address := HostAddress
  setAddress := readDotted
  toIPv4Address := some

theorem toInt_part (a : HostAddress) (shift : Nat) :
    Strings.toInt (toString (a.toNat / shift % 256)) =
      some ((a.toNat / shift % 256 : Nat) : Int) := by
  rw [Strings.toInt_toString, if_pos (by omega)]

theorem split_toText (a : HostAddress) :
    split '.' a.toText =
      [toString (a.toNat / 16777216 % 256), toString (a.toNat / 65536 % 256),
        toString (a.toNat / 256 % 256), toString (a.toNat / 1 % 256)] := by
  have hdot : ∀ n : Nat, '.' ∉ (toString n).toList := by
    intro n h
    rw [Strings.toList_toString] at h
    exact absurd (Nat.isDigit_of_mem_toDigits (by decide) (by decide) h)
      (by decide)
  have htext : a.toText = String.ofList (a.toText.toList) :=
    String.ofList_toList.symm
  rw [htext, toList_toText]
  simp only [partOf, ← Strings.toList_toString]
  rw [split_first _ (hdot _), split_first _ (hdot _), split_first _ (hdot _),
    String.ofList_toList, split_last (hdot _)]

/-- The four numbers make the address. -/
theorem ofNat_parts (n : Nat) (hlt : n < 2 ^ 32) :
    n / 16777216 % 256 * 16777216 + n / 65536 % 256 * 65536 +
      n / 256 % 256 * 256 + n / 1 % 256 = n := by
  omega

theorem readDotted_toText (a : HostAddress) : readDotted a.toText = some a := by
  have hrange : ∀ n : Nat, (0 ≤ ((n % 256 : Nat) : Int) &&
      ((n % 256 : Nat) : Int) < 256) = true := by
    intro n
    simp
    omega
  rw [readDotted, split_toText]
  simp only [List.map_cons, List.map_nil, toInt_part, List.all_cons,
    List.all_nil, hrange, Int.toNat_natCast, Bool.and_true, if_true]
  rw [ofNat_parts a.toNat a.toNat_lt, UInt32.ofNat_toNat]

theorem dotted_reads : dotted.Reads := by
  intro a
  simp only [dotted, readDotted_toText, Option.bind_some]

/-- 10.0.0.16/30. -/
theorem parseTargets_expands_network :
    ∃ l, parseTargets dotted
        ((0x0A000010 : HostAddress).toText ++ "/" ++ toString 30) = .ok l ∧
      l.length = 2 ^ (32 - 30) ∧ l.Pairwise (· < ·) ∧
      ∀ x, x ∈ l ↔ x.toNat / 2 ^ (32 - 30) =
        (0x0A000010 : HostAddress).toNat / 2 ^ (32 - 30) :=
  (parseTargets_expands dotted_reads).1 0x0A000010 30 (by decide) (by decide)

end QuMesh.Rmcp
