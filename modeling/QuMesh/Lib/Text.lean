import QuMesh.Lib.Utf8

/-!
# Text

A value of `Text` is UTF-8 with nothing ill-formed in it, so text cannot be
built from bytes that are none: `ofUtf8` mends what it reads, `ofLatin1` takes
one character a byte. What makes a round trip through UTF-8 work, and where it
does not, is two facts. The reading loop leaves well-formed bytes alone, and
its output is well formed; so bytes that were read once read the same ever
after. Only the byte order mark is different: reading drops one at the front
each time, and text that begins with one is not read back.
-/

namespace QuMesh.Lib

/-- Well-formed UTF-8: one well-formed sequence after the other. -/
inductive WellFormed : Bytes → Prop
  | nil : WellFormed []
  | cons {c rest : Bytes} (hc : sequenceLength c = some c.length)
      (hrest : WellFormed rest) : WellFormed (c ++ rest)

/-! ## The sequence at the front -/

/-- The sequence at the front does not depend on what follows it. -/
theorem sequenceLength_some {b : Bytes} {n : Nat}
    (h : sequenceLength b = some n) :
    0 < n ∧ n ≤ b.length ∧ ∀ t, sequenceLength (b.take n ++ t) = some n := by
  cases b with
  | nil => cases h
  | cons x rest =>
      unfold sequenceLength at h
      dsimp only at h
      split at h
      · next hx =>
        cases h
        exact ⟨by omega, by simp, fun t => if_pos hx⟩
      next h₁ =>
      split at h
      · cases h
      next h₂ =>
      split at h
      · next h₃ =>
        split at h
        · next c rest =>
          obtain ⟨hc, hn⟩ := Option.ite_none_right_eq_some.mp h
          cases hn
          refine ⟨by omega, by simp, fun t => ?_⟩
          change sequenceLength (x :: c :: t) = _
          rw [sequenceLength, if_neg h₁, if_neg h₂, if_pos h₃]
          exact if_pos hc
        · cases h
      next h₃ =>
      split at h
      · next h₄ =>
        split at h
        · next c d rest =>
          obtain ⟨hc, hn⟩ := Option.ite_none_right_eq_some.mp h
          cases hn
          refine ⟨by omega, by simp, fun t => ?_⟩
          change sequenceLength (x :: c :: d :: t) = _
          rw [sequenceLength, if_neg h₁, if_neg h₂, if_neg h₃, if_pos h₄]
          exact if_pos hc
        · cases h
      next h₄ =>
      split at h
      · next h₅ =>
        split at h
        · next c d e rest =>
          obtain ⟨hc, hn⟩ := Option.ite_none_right_eq_some.mp h
          cases hn
          refine ⟨by omega, by simp, fun t => ?_⟩
          change sequenceLength (x :: c :: d :: e :: t) = _
          rw [sequenceLength, if_neg h₁, if_neg h₂, if_neg h₃, if_neg h₄,
            if_pos h₅]
          exact if_pos hc
        · cases h
      · cases h

theorem sequenceLength_append {c : Bytes}
    (hc : sequenceLength c = some c.length) (t : Bytes) :
    sequenceLength (c ++ t) = some c.length := by
  have happ := (sequenceLength_some hc).2.2 t
  rwa [List.take_length] at happ

theorem sequenceLength_ascii {x : UInt8} (hx : x < 0x80) (t : Bytes) :
    sequenceLength (x :: t) = some 1 := by
  simp [sequenceLength, hx]

/-! ## Well-formed bytes -/

theorem WellFormed.append {a b : Bytes} (ha : WellFormed a)
    (hb : WellFormed b) : WellFormed (a ++ b) := by
  induction ha with
  | nil => exact hb
  | cons hc _ ih =>
      rw [List.append_assoc]
      exact .cons hc ih

theorem wellFormed_replacement : WellFormed replacementUtf8 := by
  have hone : sequenceLength replacementUtf8 = some 3 := by decide
  exact .cons hone .nil

theorem wellFormed_fromUtf8Loop (fuel : Nat) (b : Bytes) :
    WellFormed (fromUtf8Loop fuel b) := by
  induction fuel generalizing b with
  | zero => exact .nil
  | succ fuel ih =>
      rw [fromUtf8Loop]
      split
      · exact .nil
      · split
        · next n hn =>
          obtain ⟨_, hle, happ⟩ := sequenceLength_some hn
          refine .cons ?_ (ih _)
          rw [List.length_take_of_le hle, ← List.append_nil (b.take n)]
          exact happ []
        · exact wellFormed_replacement.append (ih _)

/-- The reading loop leaves well-formed bytes alone. -/
theorem WellFormed.loop {b : Bytes} (hb : WellFormed b) {fuel : Nat}
    (hfuel : b.length ≤ fuel) : fromUtf8Loop fuel b = b := by
  induction hb generalizing fuel with
  | nil => cases fuel <;> simp [fromUtf8Loop]
  | @cons c rest hc _ ih =>
      have hpos := (sequenceLength_some hc).1
      rw [List.length_append] at hfuel
      cases fuel with
      | zero => omega
      | succ fuel =>
          have hne : (c ++ rest).isEmpty = false := by
            cases c with
            | nil => cases hc
            | cons x c => rfl
          rw [fromUtf8Loop, if_neg (by simp [hne]), sequenceLength_append hc]
          simp only [List.take_left', List.drop_left']
          rw [ih (by omega)]

theorem wellFormed_iff {b : Bytes} :
    WellFormed b ↔ fromUtf8Loop b.length b = b := by
  constructor
  · intro hb
    exact hb.loop (Nat.le_refl _)
  · intro h
    rw [← h]
    exact wellFormed_fromUtf8Loop _ _

instance (b : Bytes) : Decidable (WellFormed b) :=
  decidable_of_iff (fromUtf8Loop b.length b = b) wellFormed_iff.symm

/-- The byte order mark. -/
def byteOrderMark : Bytes := [0xEF, 0xBB, 0xBF]

theorem wellFormed_fromUtf8 (b : Bytes) : WellFormed (fromUtf8 b) := by
  unfold fromUtf8
  split <;> exact wellFormed_fromUtf8Loop _ _

theorem fromUtf8_unmarked {b : Bytes} (h : ¬byteOrderMark <+: b) :
    fromUtf8 b = fromUtf8Loop b.length b := by
  unfold fromUtf8
  split
  · next rest => exact absurd ⟨rest, rfl⟩ h
  · rfl

/-- Well-formed bytes are read as they are, but for a byte order mark. -/
theorem WellFormed.fromUtf8 {b : Bytes} (hb : WellFormed b)
    (hmark : ¬ byteOrderMark <+: b) : fromUtf8 b = b := by
  rw [fromUtf8_unmarked hmark]
  exact hb.loop (Nat.le_refl _)

/-! ## How long the reading is -/

theorem sequenceLength_le {b : Bytes} {n : Nat} (h : sequenceLength b = some n) :
    n ≤ 4 := by
  cases b with
  | nil => cases h
  | cons x rest =>
      unfold sequenceLength at h
      dsimp only at h
      repeat' first
        | (cases h; omega)
        | (split at h)
      all_goals cases h

/-- Mending makes three bytes of one at most. -/
theorem length_fromUtf8Loop_le (fuel : Nat) (b : Bytes) :
    (fromUtf8Loop fuel b).length ≤ 3 * b.length := by
  induction fuel generalizing b with
  | zero => simp [fromUtf8Loop]
  | succ fuel ih =>
      rw [fromUtf8Loop]
      split
      · simp
      next hne =>
        have hpos : 0 < b.length := by
          cases b with
          | nil => simp at hne
          | cons x b => simp
        split
        next n hn =>
          obtain ⟨hn0, hle, -⟩ := sequenceLength_some hn
          have hrest := ih (b.drop n)
          rw [List.length_drop] at hrest
          rw [List.length_append, List.length_take]
          omega
        next =>
          have hrest := ih (b.drop 1)
          rw [List.length_drop] at hrest
          rw [List.length_append, replacementUtf8]
          simp only [List.length_cons, List.length_nil]
          omega

/-- A front of well-formed text has three bytes to mend at most. -/
theorem WellFormed.loop_prefix {t : Bytes} (ht : WellFormed t) {b : Bytes}
    (hb : b <+: t) (fuel : Nat) :
    (fromUtf8Loop fuel b).length ≤ b.length + 6 := by
  induction ht generalizing b fuel with
  | nil =>
      rw [List.prefix_nil.mp hb]
      have hnone := length_fromUtf8Loop_le fuel []
      rw [List.length_nil] at hnone
      omega
  | @cons c rest hc hrest ih =>
      by_cases hlen : c.length ≤ b.length
      · obtain ⟨b', rfl⟩ : c <+: b :=
          List.prefix_of_prefix_length_le (List.prefix_append c rest) hb hlen
        have hb' : b' <+: rest := (List.prefix_append_right_inj c).mp hb
        have hpos := (sequenceLength_some hc).1
        cases fuel with
        | zero => simp [fromUtf8Loop]
        | succ fuel =>
            have hne : (c ++ b').isEmpty = false := by
              cases c with
              | nil => cases hc
              | cons x c => rfl
            rw [fromUtf8Loop, if_neg (by simp [hne]), sequenceLength_append hc]
            simp only [List.take_left', List.drop_left', List.length_append]
            have := ih hb' fuel
            omega
      · have hfour := sequenceLength_le hc
        have := length_fromUtf8Loop_le fuel b
        omega

theorem fromUtf8_marked (rest : Bytes) :
    fromUtf8 (byteOrderMark ++ rest) = fromUtf8Loop rest.length rest := rfl

theorem length_fromUtf8_le (b : Bytes) : (fromUtf8 b).length ≤ 3 * b.length := by
  by_cases hmark : byteOrderMark <+: b
  · obtain ⟨rest, rfl⟩ := hmark
    have hrest := length_fromUtf8Loop_le rest.length rest
    rw [fromUtf8_marked, List.length_append]
    omega
  · rw [fromUtf8_unmarked hmark]
    exact length_fromUtf8Loop_le b.length b

/-- The mark is a sequence. -/
theorem WellFormed.drop_mark {rest : Bytes}
    (h : WellFormed (byteOrderMark ++ rest)) : WellFormed rest := by
  have hmark : sequenceLength byteOrderMark = some byteOrderMark.length := by
    decide
  generalize hb : byteOrderMark ++ rest = b at h
  cases h with
  | nil => cases hb
  | @cons c tail hc htail =>
      have hlen : byteOrderMark.length = c.length := by
        have hfront := sequenceLength_append hmark rest
        rw [hb, sequenceLength_append hc] at hfront
        exact (Option.some.inj hfront).symm
      obtain ⟨-, rfl⟩ := List.append_inj hb hlen
      exact htail

/-- Bytes at the front of what they are read as have hardly grown. -/
theorem length_fromUtf8_prefix {b : Bytes} (hb : b <+: fromUtf8 b) :
    (fromUtf8 b).length ≤ b.length + 6 := by
  have ht := wellFormed_fromUtf8 b
  by_cases hmark : byteOrderMark <+: b
  · obtain ⟨rest, rfl⟩ := hmark
    obtain ⟨tail, htail⟩ := hb
    rw [← htail, List.append_assoc] at ht
    have hloop := ht.drop_mark.loop_prefix (List.prefix_append rest tail)
      rest.length
    rw [fromUtf8_marked, List.length_append]
    omega
  · rw [fromUtf8_unmarked hmark] at hb ⊢
    rw [fromUtf8_unmarked hmark] at ht
    exact ht.loop_prefix hb b.length

/-! ## How many characters -/

theorem isContinuation_iff (c : UInt8) :
    isContinuation c = true ↔ 0x80 ≤ c.toNat ∧ c.toNat ≤ 0xBF := by
  simp only [isContinuation, Bool.and_eq_true, decide_eq_true_eq,
    UInt8.le_iff_toNat_le, UInt8.reduceToNat]

/-- A sequence of one byte is ASCII. -/
theorem ascii_of_sequence {x : UInt8} {t : Bytes}
    (h : sequenceLength (x :: t) = some 1) : x < 0x80 := by
  by_contra hx
  unfold sequenceLength at h
  dsimp only at h
  rw [if_neg hx] at h
  repeat' split at h
  all_goals simp at h

/-- The first byte of a sequence begins it, and the others continue it. -/
theorem sequence_parts {x : UInt8} {tail : Bytes}
    (h : sequenceLength (x :: tail) = some (tail.length + 1)) :
    isContinuation x = false ∧ ∀ c ∈ tail, isContinuation c = true := by
  have hlead : x < 0x80 ∨ ¬x < 0xC2 → isContinuation x = false := by
    intro hx
    by_contra hcont
    rw [Bool.not_eq_false, isContinuation_iff] at hcont
    simp only [UInt8.lt_iff_toNat_lt, UInt8.reduceToNat] at hx
    omega
  have hbound {lo hi c : UInt8} (hlo : 0x80 ≤ lo.toNat) (hhi : hi.toNat ≤ 0xBF)
      (hc : lo ≤ c ∧ c ≤ hi) : isContinuation c = true := by
    rw [UInt8.le_iff_toNat_le, UInt8.le_iff_toNat_le] at hc
    exact (isContinuation_iff c).mpr ⟨Nat.le_trans hlo hc.1, Nat.le_trans hc.2 hhi⟩
  unfold sequenceLength at h
  dsimp only at h
  split at h
  next hx =>
    obtain rfl : tail = [] := by simpa [eq_comm] using h
    exact ⟨hlead (.inl hx), fun c hc => nomatch hc⟩
  split at h
  · cases h
  next hx =>
  refine ⟨hlead (.inr hx), ?_⟩
  split at h
  · split at h
    · next c rest =>
      obtain ⟨hc, hn⟩ := Option.ite_none_right_eq_some.mp h
      obtain rfl : rest = [] := by simpa [eq_comm] using hn
      simpa using hc
    · cases h
  split at h
  · split at h
    · next c d rest =>
      obtain ⟨hc, hn⟩ := Option.ite_none_right_eq_some.mp h
      obtain rfl : rest = [] := by simpa [eq_comm] using hn
      simp only [Bool.and_eq_true, decide_eq_true_eq] at hc
      have hfirst := hbound (by split <;> decide) (by split <;> decide) hc.1
      simpa using ⟨hfirst, hc.2⟩
    · cases h
  split at h
  · split at h
    · next c d e rest =>
      obtain ⟨hc, hn⟩ := Option.ite_none_right_eq_some.mp h
      obtain rfl : rest = [] := by simpa [eq_comm] using hn
      simp only [Bool.and_eq_true, decide_eq_true_eq] at hc
      have hfirst := hbound (by split <;> decide) (by split <;> decide) hc.1.1
      simpa using ⟨hfirst, hc.1.2, hc.2⟩
    · cases h
  · cases h

/-- A byte that is no continuation begins a character. -/
def leads (b : Bytes) : Nat := b.countP fun c => !isContinuation c

theorem leads_append (a b : Bytes) : leads (a ++ b) = leads a + leads b :=
  List.countP_append

/-- The bytes behind the first one of a sequence continue it. -/
theorem leads_sequence {c : Bytes} (hc : sequenceLength c = some c.length) :
    leads c = 1 := by
  cases c with
  | nil => cases hc
  | cons x tail =>
      have hrest := sequence_parts hc
      rw [leads, List.countP_cons_of_pos (by simp [hrest.1]), List.countP_eq_zero.mpr]
      intro c hc
      simp [hrest.2 c hc]

theorem leads_fromUtf8Loop (fuel : Nat) (b : Bytes) :
    leads (fromUtf8Loop fuel b) ≤ b.length := by
  induction fuel generalizing b with
  | zero => simp [fromUtf8Loop, leads]
  | succ fuel ih =>
      rw [fromUtf8Loop]
      split
      · simp [leads]
      next hne =>
        have hpos : 0 < b.length := by
          cases b with
          | nil => simp at hne
          | cons x b => simp
        split
        next n hn =>
          obtain ⟨hn0, hle, happ⟩ := sequenceLength_some hn
          have hrest := ih (b.drop n)
          have hone : leads (b.take n) = 1 := by
            refine leads_sequence ?_
            rw [List.length_take_of_le hle, ← List.append_nil (b.take n)]
            exact happ []
          rw [List.length_drop] at hrest
          rw [leads_append, hone]
          omega
        next =>
          have hrest := ih (b.drop 1)
          have hone : leads replacementUtf8 = 1 := by decide
          rw [List.length_drop] at hrest
          rw [leads_append, hone]
          omega

/-! ## Text -/

structure Text where
  utf8 : Bytes
  valid : WellFormed utf8
  deriving DecidableEq

namespace Text

/-- `QString::fromUtf8` -/
def ofUtf8 (b : Bytes) : Text := ⟨fromUtf8 b, wellFormed_fromUtf8 b⟩

def empty : Text := ⟨[], .nil⟩

instance : Inhabited Text := ⟨empty⟩

def isEmpty (t : Text) : Bool := t.utf8.isEmpty

def append (s t : Text) : Text := ⟨s.utf8 ++ t.utf8, s.valid.append t.valid⟩

instance : Append Text := ⟨append⟩

/-- The UTF-8 of a Latin-1 character. -/
def latin1Utf8 (x : UInt8) : Bytes :=
  if x < 0x80 then [x] else [0xC0 + x / 0x40, 0x80 + x % 0x40]

set_option maxRecDepth 10000 in
theorem wellFormed_latin1Utf8 (x : UInt8) : WellFormed (latin1Utf8 x) := by
  have hall : ∀ n < 256, WellFormed (latin1Utf8 (UInt8.ofNat n)) := by
    decide
  have hx := hall x.toNat x.toNat_lt
  rwa [UInt8.ofNat_toNat] at hx

/-- `QString::fromLatin1` -/
def ofLatin1 (b : Bytes) : Text where
  utf8 := b.flatMap latin1Utf8
  valid := by
    induction b with
    | nil => exact .nil
    | cons x b ih => exact (wellFormed_latin1Utf8 x).append ih

/-- `QString::toLatin1`: what has no Latin-1 becomes a question mark. -/
def toLatin1 (utf8 : Bytes) : Bytes :=
  (utf16 utf8).map fun u => if u < 0x100 then u.toUInt8 else 0x3F

/-- Text out of a literal of the source. -/
def lit (s : String) : Text :=
  ofLatin1 (s.toList.map fun c => UInt8.ofNat c.toNat)

def charsLoop : Nat → Bytes → List Char
  | 0, _ => []
  | fuel + 1, b =>
      match sequenceLength b with
      | some n =>
          Char.ofNat (sequenceValue (b.take n)) :: charsLoop fuel (b.drop n)
      | none => []

/-- The same text, code point by code point. -/
def str (t : Text) : String := String.ofList (charsLoop t.utf8.length t.utf8)

def startsWith (t : Text) (mark : Bytes) : Bool := mark.isPrefixOf t.utf8

/-- Reading drops a byte order mark at the front. -/
def Marked (t : Text) : Prop := byteOrderMark <+: t.utf8

instance (t : Text) : Decidable t.Marked :=
  inferInstanceAs (Decidable (_ <+: _))

@[simp] theorem utf8_append (s t : Text) : (s ++ t).utf8 = s.utf8 ++ t.utf8 :=
  rfl

/-- Text that was written out reads back, unless a mark is dropped. -/
theorem ofUtf8_utf8 {t : Text} (h : ¬ t.Marked) : ofUtf8 t.utf8 = t := by
  cases t with
  | mk utf8 valid => simp only [ofUtf8, valid.fromUtf8 h]

/-! ## ASCII -/

/-- Nothing past U+007F. -/
def Ascii (b : Bytes) : Prop := ∀ x ∈ b, x < 0x80

instance (b : Bytes) : Decidable (Ascii b) :=
  decidable_of_iff (b.all (· < 0x80) = true) (by simp [Ascii])

theorem Ascii.append {a b : Bytes} (ha : Ascii a) (hb : Ascii b) :
    Ascii (a ++ b) := by
  intro x hx
  rcases List.mem_append.mp hx with hx | hx
  · exact ha x hx
  · exact hb x hx

theorem ofLatin1_ascii {b : Bytes} (hb : Ascii b) :
    (ofLatin1 b).utf8 = b := by
  induction b with
  | nil => rfl
  | cons x b ih =>
      have hx : x < 0x80 := hb x List.mem_cons_self
      have hrest := ih fun y hy => hb y (List.mem_cons_of_mem _ hy)
      simp only [ofLatin1, List.flatMap_cons, latin1Utf8, if_pos hx] at hrest ⊢
      rw [hrest]
      rfl

theorem utf16Loop_ascii {b : Bytes} (hb : Ascii b) {fuel : Nat}
    (hfuel : b.length ≤ fuel) :
    utf16Loop fuel b = b.map fun x => UInt16.ofNat x.toNat := by
  induction b generalizing fuel with
  | nil => cases fuel <;> rfl
  | cons x b ih =>
      have hx : x < 0x80 := hb x List.mem_cons_self
      cases fuel with
      | zero => cases hfuel
      | succ fuel =>
          rw [utf16Loop, sequenceLength_ascii hx]
          have hrest := ih (fun y hy => hb y (List.mem_cons_of_mem _ hy))
            (Nat.le_of_succ_le_succ hfuel)
          have hvalue : x.toNat < 0x10000 := by
            have := x.toNat_lt
            omega
          simp [sequenceValue, byteAt, utf16Units, hvalue, hrest]

theorem charsLoop_ascii {b : Bytes} (hb : Ascii b) {fuel : Nat}
    (hfuel : b.length ≤ fuel) :
    charsLoop fuel b = b.map fun x => Char.ofNat x.toNat := by
  induction b generalizing fuel with
  | nil => cases fuel <;> rfl
  | cons x b ih =>
      have hx : x < 0x80 := hb x List.mem_cons_self
      cases fuel with
      | zero => cases hfuel
      | succ fuel =>
          rw [charsLoop, sequenceLength_ascii hx]
          have hrest := ih (fun y hy => hb y (List.mem_cons_of_mem _ hy))
            (Nat.le_of_succ_le_succ hfuel)
          simp [sequenceValue, byteAt, hrest]

/-- ASCII in front is read byte by byte. -/
theorem charsLoop_append {b : Bytes} (hb : Ascii b) (rest : Bytes)
    (fuel : Nat) :
    charsLoop (b.length + fuel) (b ++ rest) =
      (b.map fun x => Char.ofNat x.toNat) ++ charsLoop fuel rest := by
  induction b with
  | nil => rw [List.length_nil, Nat.zero_add]; rfl
  | cons x b ih =>
      have hx : x < 0x80 := hb x List.mem_cons_self
      have hrest := ih fun y hy => hb y (List.mem_cons_of_mem _ hy)
      rw [List.length_cons, Nat.add_right_comm, List.cons_append, charsLoop,
        sequenceLength_ascii hx]
      simp [sequenceValue, byteAt, hrest]

/-- A literal reads as it stands in the source. -/
theorem str_lit {s : String} (h : ∀ c ∈ s.toList, c.toNat < 0x80) :
    (lit s).str = s := by
  have hbyte : ∀ c ∈ s.toList, (UInt8.ofNat c.toNat).toNat = c.toNat := by
    intro c hc
    have hlt := h c hc
    exact UInt8.toNat_ofNat_of_lt' (show c.toNat < 256 by omega)
  have hascii : Ascii (s.toList.map fun c => UInt8.ofNat c.toNat) := by
    intro x hx
    obtain ⟨c, hc, rfl⟩ := List.mem_map.mp hx
    rw [UInt8.lt_iff_toNat_lt, hbyte c hc]
    exact h c hc
  have hback : ∀ c ∈ s.toList,
      Char.ofNat (UInt8.ofNat c.toNat).toNat = id c := by
    intro c hc
    rw [hbyte c hc, Char.ofNat_toNat]
    rfl
  rw [str, lit, ofLatin1_ascii hascii, charsLoop_ascii hascii (Nat.le_refl _),
    List.map_map]
  have hall := List.map_congr_left hback
  rw [List.map_id] at hall
  show String.ofList (s.toList.map fun c =>
    Char.ofNat (UInt8.ofNat c.toNat).toNat) = s
  rw [hall, String.ofList_toList]

set_option maxRecDepth 10000 in
/-- ASCII text is its own Latin-1. -/
theorem toLatin1_ascii {b : Bytes} (hb : Ascii b) : toLatin1 b = b := by
  rw [toLatin1, utf16, utf16Loop_ascii hb (Nat.le_refl _), List.map_map]
  refine (List.map_congr_left fun x hx => ?_).trans (List.map_id b)
  have hall : ∀ n < 256, (if UInt16.ofNat n < 0x100 then
      (UInt16.ofNat n).toUInt8 else 0x3F) = UInt8.ofNat n := by decide
  have hone := hall x.toNat x.toNat_lt
  rwa [UInt8.ofNat_toNat] at hone

end Text

end QuMesh.Lib
