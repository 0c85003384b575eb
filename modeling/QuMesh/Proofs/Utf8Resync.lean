import QuMesh.Proofs.EscapeResync
import QuMesh.Proofs.TerminalGrid
import QuMesh.Lib.Text

/-!
# Characters behind broken ones

A character is to be written as one cell wherever its bytes come. The parser
counts the bytes a lead byte announces, and takes as many of the next ones,
whatever they are; what is announced and does not come is taken from the
character behind it. So a character is written if nothing is awaited where it
begins, and else its bytes end the one before it: too many of them and the rest
are question marks, too few and nothing is written. Where it is just as many,
one cell is written, with the replacement of the broken lead byte; so this is
right by accident for the replacement character itself.

`character_shown_iff` has these cases, and no other, for a parser on the ground
whatever was fed to it before.
-/

namespace QuMesh.Terminal

open QuMesh.Lib

/-! ## Bytes as the parser counts them -/

/-- How many bytes a lead byte announces. -/
def announced (b : UInt8) : Nat :=
  if b &&& 0xE0 = 0xC0 then 1
  else if b &&& 0xF0 = 0xE0 then 2
  else if b &&& 0xF8 = 0xF0 then 3
  else 0

set_option maxRecDepth 10000 in
theorem announced_eq (b : UInt8) :
    announced b =
      if b < 0xC0 then 0 else if b < 0xE0 then 1 else if b < 0xF0 then 2
      else if b < 0xF8 then 3 else 0 := by
  have hall : ∀ n < 256, announced (UInt8.ofNat n) =
      if UInt8.ofNat n < 0xC0 then 0 else if UInt8.ofNat n < 0xE0 then 1
      else if UInt8.ofNat n < 0xF0 then 2
      else if UInt8.ofNat n < 0xF8 then 3 else 0 := by
    decide
  have hb := hall b.toNat b.toNat_lt
  rwa [UInt8.ofNat_toNat] at hb

/-- What is written for the bytes of a character. -/
def shownText (utf8 : Bytes) : List UInt16 :=
  if utf16 (fromUtf8 utf8) = [] then [0x3F] else utf16 (fromUtf8 utf8)

theorem shownText_ne (utf8 : Bytes) : shownText utf8 ≠ [] := by
  unfold shownText
  split
  · exact List.cons_ne_nil _ _
  next hne => exact hne

namespace Vt100Parser

variable {p : Vt100Parser}

/-- A byte where nothing is awaited. -/
theorem consumeUtf8_free (hfree : p.utf8Remaining = 0) (b : UInt8) :
    p.consumeUtf8 b =
      if announced b = 0 then ([0x3F], p)
      else ([], { p with utf8 := [b], utf8Remaining := announced b }) := by
  unfold consumeUtf8 announced
  simp only []
  rw [if_pos hfree]
  split
  · rfl
  split
  · rfl
  split <;> rfl

/-- A byte that is awaited. -/
theorem consumeUtf8_awaited {r : Nat} (hr : p.utf8Remaining = r + 1) (b : UInt8) :
    p.consumeUtf8 b =
      if r = 0 then
        (shownText (p.utf8 ++ [b]), { p with utf8 := [], utf8Remaining := 0 })
      else ([], { p with utf8 := p.utf8 ++ [b], utf8Remaining := r }) := by
  unfold consumeUtf8 shownText
  simp only [hr, Nat.add_sub_cancel]
  rw [if_neg (Nat.succ_ne_zero r)]

/-- The text a byte on the ground is written as. -/
def textOf (b : UInt8) (p : Vt100Parser) : List UInt16 × Vt100Parser :=
  if b < 0x80 then ([b.toUInt16], p) else p.consumeUtf8 b

/-- The texts of some bytes, one after the other. -/
def texts : Vt100Parser → Bytes → List (List UInt16)
  | _, [] => []
  | p, b :: bytes => (p.textOf b).1 :: texts (p.textOf b).2 bytes

def parsed (p : Vt100Parser) (bytes : Bytes) : Vt100Parser :=
  bytes.foldl (fun p b => (p.textOf b).2) p

theorem texts_append (p : Vt100Parser) (xs ys : Bytes) :
    p.texts (xs ++ ys) = p.texts xs ++ (p.parsed xs).texts ys := by
  induction xs generalizing p with
  | nil => rfl
  | cons x xs ih => exact congrArg _ (ih _)

theorem textOf_high {b : UInt8} (hb : ¬b < 0x80) (p : Vt100Parser) :
    p.textOf b = p.consumeUtf8 b :=
  if_neg hb

/-- Fewer bytes than are awaited. -/
theorem texts_few {bytes : Bytes} (hhigh : ∀ b ∈ bytes, ¬b < 0x80)
    (hfew : bytes.length < p.utf8Remaining) :
    p.texts bytes = List.replicate bytes.length [] ∧
      p.parsed bytes = { p with
        utf8 := p.utf8 ++ bytes
        utf8Remaining := p.utf8Remaining - bytes.length } := by
  induction bytes generalizing p with
  | nil => exact ⟨rfl, by simp [parsed]⟩
  | cons b bytes ih =>
      rw [List.forall_mem_cons] at hhigh
      rw [List.length_cons] at hfew
      have hr : p.utf8Remaining = (p.utf8Remaining - 1) + 1 := by omega
      have hone := consumeUtf8_awaited hr b
      rw [if_neg (by omega), ← textOf_high hhigh.1] at hone
      obtain ⟨htexts, hparsed⟩ := ih (p := { p with
        utf8 := p.utf8 ++ [b], utf8Remaining := p.utf8Remaining - 1 }) hhigh.2
        (show bytes.length < p.utf8Remaining - 1 by omega)
      constructor
      · rw [texts, hone, htexts]
        rfl
      · show parsed (p.textOf b).2 bytes = _
        rw [hone, hparsed]
        simp only [List.append_assoc, List.singleton_append, List.length_cons]
        congr 1
        omega

/-- Just the bytes that are awaited. -/
theorem texts_awaited {bytes : Bytes} (hhigh : ∀ b ∈ bytes, ¬b < 0x80)
    (hne : bytes ≠ []) (hall : bytes.length = p.utf8Remaining) :
    p.texts bytes = List.replicate (bytes.length - 1) [] ++
        [shownText (p.utf8 ++ bytes)] ∧
      (p.parsed bytes).utf8Remaining = 0 := by
  obtain ⟨first, last, rfl⟩ : ∃ first last, bytes = first ++ [last] :=
    ⟨_, _, (List.dropLast_concat_getLast hne).symm⟩
  have hlen : (first ++ [last]).length = first.length + 1 := by simp
  have hfirst : ∀ b ∈ first, ¬b < 0x80 :=
    fun b hb => hhigh b (List.mem_append_left _ hb)
  obtain ⟨htexts, hparsed⟩ := texts_few (p := p) hfirst (by omega)
  have hlast : ¬last < 0x80 := hhigh last (by simp)
  have hone := consumeUtf8_awaited (p := p.parsed first) (r := 0)
    (by rw [hparsed]; show p.utf8Remaining - first.length = 0 + 1; omega) last
  rw [if_pos rfl, ← textOf_high hlast] at hone
  constructor
  · rw [texts_append, htexts, texts, hone, hparsed]
    simp [texts]
  · have hfold : p.parsed (first ++ [last]) = ((p.parsed first).textOf last).2 :=
      List.foldl_append
    rw [hfold, hone]

/-- Bytes that are no lead bytes, where nothing is awaited. -/
theorem texts_stray {bytes : Bytes} (hhigh : ∀ b ∈ bytes, ¬b < 0x80)
    (hstray : ∀ b ∈ bytes, announced b = 0) (hfree : p.utf8Remaining = 0) :
    p.texts bytes = List.replicate bytes.length [0x3F] := by
  induction bytes with
  | nil => rfl
  | cons b bytes ih =>
      rw [List.forall_mem_cons] at hhigh hstray
      have hone := consumeUtf8_free hfree b
      rw [if_pos hstray.1, ← textOf_high hhigh.1] at hone
      rw [texts, hone, ih hhigh.2 hstray.2]
      rfl

end Vt100Parser

/-! ## Well-formed sequences -/

/-- The second byte's bounds are inside those of a continuation byte. -/
theorem continuation_of_bounds {p q : Prop} [Decidable p] [Decidable q]
    {c lo hi : UInt8} (hlo : 0x80 ≤ lo) (hhi : hi ≤ 0xBF)
    (h : (if p then lo else 0x80) ≤ c ∧ c ≤ if q then hi else 0xBF) :
    isContinuation c = true := by
  have hlow : 0x80 ≤ if p then lo else 0x80 := by
    split
    · exact hlo
    · exact UInt8.le_refl _
  have hhigh : (if q then hi else 0xBF) ≤ 0xBF := by
    split
    · exact hhi
    · exact UInt8.le_refl _
  simp only [isContinuation, Bool.and_eq_true, decide_eq_true_eq]
  exact ⟨UInt8.le_trans hlow h.1, UInt8.le_trans h.2 hhigh⟩

/-- A sequence of more than one byte: the lead byte announces the others. -/
theorem sequence_lead {seq : Bytes} (hseq : sequenceLength seq = some seq.length)
    (hlong : seq.length ≠ 1) :
    ∃ lead tail, seq = lead :: tail ∧ ¬lead < 0xC2 ∧ announced lead = tail.length ∧
      tail ≠ [] ∧ ∀ c ∈ tail, isContinuation c = true := by
  cases seq with
  | nil => cases hseq
  | cons lead tail =>
      refine ⟨lead, tail, rfl, ?_⟩
      rw [announced_eq]
      unfold sequenceLength at hseq
      dsimp only at hseq
      simp only [UInt8.lt_iff_toNat_lt, UInt8.reduceToNat] at hseq ⊢
      split at hseq
      · exact absurd (Option.some.inj hseq).symm hlong
      split at hseq
      · cases hseq
      next hlow =>
      split at hseq
      next h₂ =>
        split at hseq
        · next c rest =>
          obtain ⟨hc, hn⟩ := Option.ite_none_right_eq_some.mp hseq
          obtain rfl : rest = [] := by
            simpa [eq_comm] using hn
          refine ⟨hlow, ?_, List.cons_ne_nil _ _, by simpa using hc⟩
          rw [if_neg (by omega), if_pos h₂]
          rfl
        · cases hseq
      next h₂ =>
      split at hseq
      next h₃ =>
        split at hseq
        · next c d rest =>
          obtain ⟨hc, hn⟩ := Option.ite_none_right_eq_some.mp hseq
          obtain rfl : rest = [] := by
            simpa [eq_comm] using hn
          refine ⟨hlow, ?_, List.cons_ne_nil _ _, ?_⟩
          · rw [if_neg (by omega), if_neg h₂, if_pos h₃]
            rfl
          · simp only [Bool.and_eq_true, decide_eq_true_eq] at hc
            have hfirst := continuation_of_bounds (by decide) (by decide) hc.1
            simpa using ⟨hfirst, hc.2⟩
        · cases hseq
      next h₃ =>
      split at hseq
      next h₄ =>
        split at hseq
        · next c d e rest =>
          obtain ⟨hc, hn⟩ := Option.ite_none_right_eq_some.mp hseq
          obtain rfl : rest = [] := by
            simpa [eq_comm] using hn
          refine ⟨hlow, ?_, List.cons_ne_nil _ _, ?_⟩
          · rw [if_neg (by omega), if_neg h₂, if_neg h₃, if_pos (by omega)]
            rfl
          · simp only [Bool.and_eq_true, decide_eq_true_eq] at hc
            have hfirst :=
              continuation_of_bounds (by decide) (by decide) hc.1.1
            simpa using ⟨hfirst, hc.1.2, hc.2⟩
        · cases hseq
      · cases hseq

theorem sequenceLength_single {b : UInt8} (h : sequenceLength [b] = some 1) :
    b < 0x80 := by
  unfold sequenceLength at h
  dsimp only at h
  split at h
  next hlt => exact hlt
  · repeat' split at h
    all_goals cases h

theorem continuation_facts {c : UInt8} (h : isContinuation c = true) :
    ¬c < 0x80 ∧ announced c = 0 ∧ c < 0xC0 := by
  simp only [isContinuation, Bool.and_eq_true, decide_eq_true_eq,
    UInt8.le_iff_toNat_le, UInt8.reduceToNat] at h
  have hlt : c < 0xC0 := by
    rw [UInt8.lt_iff_toNat_lt]
    simp only [UInt8.reduceToNat]
    omega
  refine ⟨?_, ?_, hlt⟩
  · rw [UInt8.lt_iff_toNat_lt]
    simp only [UInt8.reduceToNat]
    omega
  · rw [announced_eq, if_pos hlt]

theorem not_continuation {c : UInt8} (h : ¬c < 0xC2) :
    isContinuation c = false := by
  by_contra hc
  obtain ⟨-, -, hlt⟩ := continuation_facts (by simpa using hc)
  rw [UInt8.lt_iff_toNat_lt] at h hlt
  simp only [UInt8.reduceToNat] at h hlt
  omega

theorem announced_le (b : UInt8) : announced b ≤ 3 := by
  unfold announced
  repeat' split
  all_goals omega

/-- A lead byte of a long sequence. -/
theorem long_lead {lead : UInt8} (h : 2 ≤ announced lead) :
    ¬lead < 0x80 ∧ ¬lead < 0xC2 ∧ ¬lead < 0xE0 ∧
      (lead < 0xF0 ↔ announced lead = 2) := by
  rw [announced_eq] at h ⊢
  simp only [UInt8.lt_iff_toNat_lt, UInt8.reduceToNat] at h ⊢
  split at h
  · omega
  split at h
  · omega
  next h₁ h₂ =>
  rw [if_neg h₁, if_neg h₂]
  refine ⟨by omega, by omega, by omega, ?_⟩
  split
  next hlt => exact iff_of_true hlt rfl
  next hge =>
    refine iff_of_false hge ?_
    split <;> omega

/-- A lead byte and what came of its sequence, with another one behind it, is
none. -/
theorem sequenceLength_broken {lead next : UInt8} {tail rest : Bytes}
    (hlead : announced lead = tail.length + (rest.length + 1))
    (hrest : rest ≠ []) (hnext : ¬next < 0xC2) :
    sequenceLength (lead :: tail ++ next :: rest) = none := by
  have hcont := not_continuation hnext
  have hpos := List.length_pos_iff.mpr hrest
  have hle := announced_le lead
  have hbig : 2 ≤ announced lead := by omega
  obtain ⟨h₁, h₂, h₃, h₄⟩ := long_lead hbig
  cases tail with
  | nil =>
      obtain ⟨d, rest, rfl⟩ := List.exists_cons_of_ne_nil hrest
      show sequenceLength (lead :: next :: d :: rest) = none
      rw [sequenceLength, if_neg h₁, if_neg h₂, if_neg h₃]
      have hbounds : ∀ {p q : Prop} [Decidable p] [Decidable q] {lo hi : UInt8},
          0x80 ≤ lo → hi ≤ 0xBF →
          ¬((if p then lo else 0x80) ≤ next ∧ next ≤ if q then hi else 0xBF) := by
        intro p q _ _ lo hi hlo hhi h
        rw [continuation_of_bounds hlo hhi h] at hcont
        cases hcont
      split
      · refine if_neg fun h => ?_
        simp only [Bool.and_eq_true, decide_eq_true_eq] at h
        exact hbounds (by decide) (by decide) h.1
      split
      · split
        · next heq =>
          cases heq
          refine if_neg fun h => ?_
          simp only [Bool.and_eq_true, decide_eq_true_eq] at h
          exact hbounds (by decide) (by decide) h.1.1
        · rfl
      · rfl
  | cons x tail =>
      rw [List.length_cons] at hlead
      obtain rfl : tail = [] := List.length_eq_zero_iff.mp (by omega)
      rw [List.length_nil] at hlead
      have hlong : ¬lead < 0xF0 := fun h => by
        have := h₄.mp h
        omega
      obtain ⟨d, rest, rfl⟩ := List.exists_cons_of_ne_nil hrest
      show sequenceLength (lead :: x :: next :: d :: rest) = none
      rw [sequenceLength, if_neg h₁, if_neg h₂, if_neg h₃, if_neg hlong]
      split
      · refine if_neg ?_
        rw [hcont]
        simp
      · rfl

/-- So the lead byte is replaced. -/
theorem fromUtf8_broken {lead next : UInt8} {tail rest : Bytes}
    (hlead : announced lead = tail.length + (rest.length + 1))
    (hrest : rest ≠ []) (hnext : ¬next < 0xC2) :
    ∃ more, fromUtf8 (lead :: tail ++ next :: rest) = replacementUtf8 ++ more := by
  have hnone := sequenceLength_broken hlead hrest hnext
  have hmark : ¬byteOrderMark <+: lead :: tail ++ next :: rest := by
    rintro ⟨more, hmore⟩
    rw [← hmore] at hnone
    cases hnone
  have hloop : fromUtf8 (lead :: tail ++ next :: rest) =
      fromUtf8Loop (lead :: tail ++ next :: rest).length
        (lead :: tail ++ next :: rest) := by
    unfold fromUtf8
    split
    next more heq => exact absurd ⟨more, heq.symm⟩ hmark
    · rfl
  refine ⟨fromUtf8Loop (tail ++ next :: rest).length (tail ++ next :: rest), ?_⟩
  rw [hloop]
  show fromUtf8Loop ((tail ++ next :: rest).length + 1) _ = _
  rw [fromUtf8Loop, if_neg (by simp), hnone]
  rfl

/-! ## What a cell shows of a text -/

/-- The units that go into a cell. -/
def glyph : List UInt16 → Option (UInt16 × UInt16)
  | [] => none
  | first :: rest =>
      some (first,
        match rest with
        | second :: _ =>
            if isHighSurrogate first && isLowSurrogate second then second else 0
        | [] => 0)

theorem utf16_sequence {seq : Bytes}
    (hseq : sequenceLength seq = some seq.length) :
    utf16 seq = utf16Units (sequenceValue seq) := by
  obtain ⟨hpos, -, -⟩ := sequenceLength_some hseq
  obtain ⟨n, hn⟩ : ∃ n, seq.length = n + 1 := ⟨seq.length - 1, by omega⟩
  have hrest : ∀ fuel, utf16Loop fuel [] = [] := by
    intro fuel
    cases fuel <;> rfl
  rw [utf16, hn, utf16Loop, hseq]
  simp only [List.take_length, List.drop_length, hrest, List.append_nil]

/-- A character is read from its own bytes. -/
theorem shownText_sequence {seq : Bytes}
    (hseq : sequenceLength seq = some seq.length) (hmark : seq ≠ byteOrderMark) :
    shownText seq = utf16 seq := by
  have hwf : WellFormed seq := by
    have hone := WellFormed.cons hseq .nil
    rwa [List.append_nil] at hone
  have hnot : ¬byteOrderMark <+: seq := by
    rintro ⟨more, rfl⟩
    have hthree : sequenceLength byteOrderMark = some byteOrderMark.length := by
      decide
    rw [sequenceLength_append hthree, List.length_append] at hseq
    have hlen := Option.some.inj hseq
    obtain rfl : more = [] := List.length_eq_zero_iff.mp (by omega)
    exact hmark (List.append_nil _)
  rw [shownText, hwf.fromUtf8 hnot, if_neg]
  rw [utf16_sequence hseq, utf16Units]
  split <;> exact List.cons_ne_nil _ _

/-- A text that begins with a replacement shows one. -/
theorem glyph_replacement {utf8 more : Bytes}
    (h : fromUtf8 utf8 = replacementUtf8 ++ more) :
    glyph (shownText utf8) = some (0xFFFD, 0) := by
  have hunits : ∃ rest, utf16 (fromUtf8 utf8) = 0xFFFD :: rest := by
    have hthree : sequenceLength replacementUtf8 = some 3 := by decide
    refine ⟨utf16Loop (more.length + 2) more, ?_⟩
    rw [h, utf16]
    show utf16Loop (more.length + 2 + 1) _ = _
    rw [utf16Loop, sequenceLength_append hthree]
    simp only [List.take_left', List.drop_left']
    rfl
  obtain ⟨rest, hrest⟩ := hunits
  rw [shownText, hrest, if_neg (List.cons_ne_nil _ _)]
  unfold glyph
  cases rest with
  | nil => rfl
  | cons second rest =>
      have hhigh : isHighSurrogate 0xFFFD = false := by decide
      simp only [hhigh, Bool.false_and]
      rfl

theorem continuation_value {c : UInt8} (h : isContinuation c = true) :
    c.toNat = 128 + c.toNat % 64 := by
  simp only [isContinuation, Bool.and_eq_true, decide_eq_true_eq,
    UInt8.le_iff_toNat_le, UInt8.reduceToNat] at h
  omega

/-- Of the short sequences only the replacement character has its value. -/
theorem value_replacement {seq : Bytes}
    (hseq : sequenceLength seq = some seq.length) (hlong : seq.length ≠ 1)
    (hshort : seq.length ≤ 3) (hvalue : sequenceValue seq = 0xFFFD) :
    seq = replacementUtf8 := by
  obtain ⟨lead, tail, rfl, hlow, hlead, hne, hcont⟩ := sequence_lead hseq hlong
  obtain ⟨c, tail, rfl⟩ := List.exists_cons_of_ne_nil hne
  rw [List.forall_mem_cons] at hcont
  have hc := continuation_value hcont.1
  simp only [List.length_cons] at hshort hlead
  have hleadLt := lead.toNat_lt
  cases tail with
  | nil =>
      have htwo : lead.toNat % 32 * 64 + (0 * 64 + c.toNat % 64) = 0xFFFD :=
        hvalue
      omega
  | cons d tail =>
      rw [List.forall_mem_cons] at hcont
      have hd := continuation_value hcont.2.1
      rw [List.length_cons] at hshort hlead
      obtain rfl : tail = [] := List.length_eq_zero_iff.mp (by omega)
      have hthree : lead.toNat % 16 * 4096 +
          ((0 * 64 + c.toNat % 64) * 64 + d.toNat % 64) = 0xFFFD := hvalue
      rw [List.length_nil] at hlead
      have hbig : 2 ≤ announced lead := by omega
      obtain ⟨-, -, hlo, hhi⟩ := long_lead hbig
      have hhi := hhi.mpr hlead
      rw [UInt8.lt_iff_toNat_lt] at hlo hhi
      simp only [UInt8.reduceToNat] at hlo hhi
      have h₁ : lead = 0xEF := UInt8.toNat_inj.mp (by simp; omega)
      have h₂ : c = 0xBF := UInt8.toNat_inj.mp (by simp; omega)
      have h₃ : d = 0xBD := UInt8.toNat_inj.mp (by simp; omega)
      rw [h₁, h₂, h₃]
      rfl

theorem value_lt {seq : Bytes} (hlong : seq.length ≠ 1)
    (hseq : sequenceLength seq = some seq.length) (hshort : seq.length ≤ 3) :
    sequenceValue seq < 0x10000 := by
  obtain ⟨lead, tail, rfl, -, -, hne, -⟩ := sequence_lead hseq hlong
  obtain ⟨c, tail, rfl⟩ := List.exists_cons_of_ne_nil hne
  simp only [List.length_cons] at hshort
  cases tail with
  | nil =>
      show lead.toNat % 32 * 64 + (0 * 64 + c.toNat % 64) < 0x10000
      omega
  | cons d tail =>
      rw [List.length_cons] at hshort
      obtain rfl : tail = [] := List.length_eq_zero_iff.mp (by omega)
      show lead.toNat % 16 * 4096 +
        ((0 * 64 + c.toNat % 64) * 64 + d.toNat % 64) < 0x10000
      omega

/-- Only the replacement character itself is shown as one. -/
theorem glyph_sequence {seq : Bytes}
    (hseq : sequenceLength seq = some seq.length) (hlong : seq.length ≠ 1)
    (hshort : seq.length ≤ 3) :
    glyph (utf16 seq) = some (0xFFFD, 0) ↔ seq = replacementUtf8 := by
  constructor
  · intro hglyph
    refine value_replacement hseq hlong hshort ?_
    have hlt := value_lt hlong hseq hshort
    rw [utf16_sequence hseq, utf16Units, if_pos hlt] at hglyph
    have hfirst : UInt16.ofNat (sequenceValue seq) = 0xFFFD :=
      congrArg Prod.fst (Option.some.inj hglyph)
    have hnat := congrArg UInt16.toNat hfirst
    rw [UInt16.toNat_ofNat'] at hnat
    have : (0xFFFD : UInt16).toNat = 0xFFFD := rfl
    omega
  · rintro rfl
    rfl

namespace TerminalScreen

variable {s t v : TerminalScreen}

/-! ## The screen without its parser -/

/-- What is seen of a screen: all but what the parser holds, and the repaints
that the end of every call asks for. -/
def visible (s : TerminalScreen) : TerminalScreen :=
  { s with parser := {}, out := s.out.filter (· ≠ .screenUpdated) }

/-- The bytes that come in some calls, all of them, are written as one cell. -/
def Shows (s : TerminalScreen) (chunks : List Bytes) : Prop :=
  visible <$> chunks.foldlM (fun s chunk => s.feed chunk) s =
    visible <$> s.putCellAtCursor (utf16 chunks.flatten)

def putAll (texts : List (List UInt16)) (s : TerminalScreen) :
    Except Fault TerminalScreen :=
  texts.foldlM (fun s text => s.putCellAtCursor text) s

/-- Where the next character goes. -/
def column (s : TerminalScreen) : Int :=
  if s.cursorColumn ≥ s.columns then s.columns - 1 else s.cursorColumn

/-- The cells once it is there. -/
def cellsWith (g : UInt16 × UInt16) (s : TerminalScreen) :
    Except Fault (Array Cell) := do
  let i ← cellIndex s.columns s.cursorRow s.column
  writeAt s.cells i { s.pen with ch := g.1, lowSurrogate := g.2 }

def written (cells : Array Cell) (s : TerminalScreen) : TerminalScreen :=
  ({ s with cells }.withCursor s.cursorRow
    (if s.column < s.columns - 1 then s.column + 1 else s.columns)).emit
      .cursorMoved

/-- Of a text only the glyph matters. -/
theorem putCellAtCursor_glyph (text : List UInt16) (s : TerminalScreen) :
    s.putCellAtCursor text =
      match glyph text with
      | none => .ok s
      | some g => s.cellsWith g >>= fun cells => .ok (s.written cells) := by
  cases text with
  | nil => rfl
  | cons first rest =>
      unfold putCellAtCursor setCell cellsWith written column
      simp only [glyph, bind_assoc]
      rfl

theorem visible_putCell (text : List UInt16) (s : TerminalScreen) :
    visible <$> s.putCellAtCursor text = s.visible.putCellAtCursor text := by
  rw [putCellAtCursor_glyph, putCellAtCursor_glyph]
  cases glyph text with
  | none => rfl
  | some g =>
      have hwritten (cells : Array Cell) :
          (s.written cells).visible = s.visible.written cells := by
        simp [written, visible, emit, withCursor, column]
      show visible <$> (s.cellsWith g >>= _) = s.cellsWith g >>= _
      cases s.cellsWith g with
      | error e => rfl
      | ok cells => exact congrArg Except.ok (hwritten cells)

/-- A byte of a text is seen as the text it completes. -/
theorem visible_feedByte (hground : s.parser.state = .ground) {b : UInt8}
    (hb : ¬b < 0x20) :
    visible <$> s.feedByte b = s.visible.putCellAtCursor (s.parser.textOf b).1 ∧
      ∀ t, s.feedByte b = .ok t → t.parser = (s.parser.textOf b).2 := by
  have hesc : ¬b = 0x1B := by
    rintro rfl
    exact hb (by decide)
  unfold feedByte Vt100Parser.textOf
  simp only [hground]
  rw [if_neg hesc, if_neg hb]
  split
  · exact ⟨visible_putCell _ s, putCellAtCursor_parses _ s⟩
  · exact ⟨visible_putCell _ (s.withParser _), putCellAtCursor_parses _ _⟩

theorem textOf_state (b : UInt8) (p : Vt100Parser) :
    (p.textOf b).2.state = p.state := by
  unfold Vt100Parser.textOf
  split
  · rfl
  · exact (consumeUtf8_seq b p).1

theorem map_bind_ok {m : Except Fault TerminalScreen}
    {f g : TerminalScreen → Except Fault TerminalScreen}
    (h : ∀ t, m = .ok t → visible <$> f t = g t.visible) :
    visible <$> (m >>= f) = (visible <$> m) >>= g := by
  cases m with
  | error e => rfl
  | ok t => exact h t rfl

/-- Bytes of a text are seen as the texts they complete. -/
theorem visible_bytes {bytes : Bytes} (hbytes : ∀ b ∈ bytes, ¬b < 0x20)
    (hground : s.parser.state = .ground) :
    visible <$> bytes.foldlM feedByte s = s.visible.putAll (s.parser.texts bytes) ∧
      ∀ t, bytes.foldlM feedByte s = .ok t →
        t.parser = s.parser.parsed bytes := by
  induction bytes generalizing s with
  | nil =>
      refine ⟨rfl, fun t ht => ?_⟩
      cases ht
      rfl
  | cons b bytes ih =>
      rw [List.forall_mem_cons] at hbytes
      obtain ⟨hone, hparser⟩ := visible_feedByte hground hbytes.1
      have hnext (t : TerminalScreen) (ht : s.feedByte b = .ok t) :
          t.parser.state = .ground := by
        rw [hparser t ht, textOf_state, hground]
      constructor
      · rw [List.foldlM_cons, Vt100Parser.texts, putAll, List.foldlM_cons, ← hone]
        refine map_bind_ok fun t ht => ?_
        rw [← hparser t ht]
        exact (ih hbytes.2 (hnext t ht)).1
      · intro t ht
        obtain ⟨u, hu, htail⟩ := bind_ok ht
        rw [(ih hbytes.2 (hnext u hu)).2 t htail, hparser u hu]
        rfl

theorem parsed_state (bytes : Bytes) (p : Vt100Parser) :
    (p.parsed bytes).state = p.state := by
  induction bytes generalizing p with
  | nil => rfl
  | cons b bytes ih => exact (ih _).trans (textOf_state b p)

/-- So it does not matter in how many calls they come. -/
theorem visible_chunks {chunks : List Bytes}
    (hbytes : ∀ b ∈ chunks.flatten, ¬b < 0x20)
    (hground : s.parser.state = .ground) :
    visible <$> chunks.foldlM (fun s chunk => s.feed chunk) s =
      s.visible.putAll (s.parser.texts chunks.flatten) := by
  induction chunks generalizing s with
  | nil => rfl
  | cons chunk chunks ih =>
      rw [List.flatten_cons] at hbytes ⊢
      have hchunk : ∀ b ∈ chunk, ¬b < 0x20 :=
        fun b hb => hbytes b (List.mem_append_left _ hb)
      obtain ⟨hone, hparser⟩ := visible_bytes hchunk hground
      have htouch : visible <$> s.feed chunk =
          s.visible.putAll (s.parser.texts chunk) := by
        rw [← hone, feed]
        cases chunk.foldlM feedByte s with
        | error e => rfl
        | ok t =>
            show Except.ok t.touch.visible = Except.ok t.visible
            simp [touch, visible, emit]
      have hall : s.visible.putAll (s.parser.texts (chunk ++ chunks.flatten)) =
          s.visible.putAll (s.parser.texts chunk) >>= fun v =>
            v.putAll ((s.parser.parsed chunk).texts chunks.flatten) := by
        rw [Vt100Parser.texts_append, putAll, List.foldlM_append]
        rfl
      rw [List.foldlM_cons, hall, ← htouch]
      refine map_bind_ok fun t ht => ?_
      obtain ⟨u, hu, hlast⟩ := bind_ok ht
      cases hlast
      have hstate : u.touch.parser = s.parser.parsed chunk := hparser u hu
      rw [← hstate]
      refine ih (fun b hb => hbytes b (List.mem_append_right _ hb)) ?_
      rw [hstate, parsed_state, hground]

/-! ## One cell -/

theorem putCellAtCursor_grows (h : v.InGrid) {text : List UInt16}
    (hne : text ≠ []) :
    ∃ w, v.putCellAtCursor text = .ok w ∧ w.InGrid ∧
      w.out.length = v.out.length + 1 := by
  obtain ⟨w, hw, hgrid⟩ := putCellAtCursor_safe h text
  refine ⟨w, hw, hgrid, ?_⟩
  rw [putCellAtCursor_out hne hw, List.length_append]
  rfl

/-- Texts that are nothing are not written. -/
theorem putAll_filter (texts : List (List UInt16)) (v : TerminalScreen) :
    v.putAll texts = v.putAll (texts.filter (· ≠ [])) := by
  induction texts generalizing v with
  | nil => rfl
  | cons text texts ih =>
      cases text with
      | nil => exact ih v
      | cons first rest =>
          show (v.putCellAtCursor (first :: rest) >>= fun v => v.putAll texts) =
            v.putCellAtCursor (first :: rest) >>= fun v =>
              v.putAll (texts.filter (· ≠ []))
          exact congrArg _ (funext ih)

theorem putAll_grows (h : v.InGrid) {texts : List (List UInt16)}
    (hne : ∀ text ∈ texts, text ≠ []) :
    ∃ w, v.putAll texts = .ok w ∧ w.out.length = v.out.length + texts.length := by
  induction texts generalizing v with
  | nil => exact ⟨v, rfl, rfl⟩
  | cons text texts ih =>
      rw [List.forall_mem_cons] at hne
      obtain ⟨w, hw, hgrid, hout⟩ := putCellAtCursor_grows h hne.1
      obtain ⟨u, hu, hrest⟩ := ih hgrid hne.2
      refine ⟨u, ?_, by rw [List.length_cons]; omega⟩
      show v.putCellAtCursor text >>= (fun v => v.putAll texts) = _
      rw [hw, ok_bind, hu]

theorem writeAt_entry {α : Type} {xs ys : Array α} {i : Int} {x : α}
    (h : writeAt xs i x = .ok ys) : ys[i.toNat]? = some x := by
  unfold writeAt at h
  split at h
  · next hin =>
      cases h
      exact Array.getElem?_setIfInBounds_self_of_lt hin.2
  · cases h

theorem cellsWith_inj {g g' : UInt16 × UInt16} {cells : Array Cell}
    (h : v.cellsWith g = .ok cells) (h' : v.cellsWith g' = .ok cells) :
    g = g' := by
  obtain ⟨i, hi, hcells⟩ := bind_ok h
  obtain ⟨i', hi', hcells'⟩ := bind_ok h'
  obtain rfl : i = i' := Except.ok.inj (hi.symm.trans hi')
  have hcell := (writeAt_entry hcells).symm.trans (writeAt_entry hcells')
  rw [Option.some.injEq, Cell.mk.injEq] at hcell
  exact Prod.ext hcell.1 hcell.2.1

/-- Two texts have the same effect just if they have the same glyph. -/
theorem putCellAtCursor_inj (h : v.InGrid) {text text' : List UInt16}
    (hne : text ≠ []) (hne' : text' ≠ []) :
    v.putCellAtCursor text = v.putCellAtCursor text' ↔
      glyph text = glyph text' := by
  constructor
  · intro hsame
    obtain ⟨w, hw, -, -⟩ := putCellAtCursor_grows h hne
    have hw' := hsame.symm.trans hw
    cases text with
    | nil => exact absurd rfl hne
    | cons first rest =>
    cases text' with
    | nil => exact absurd rfl hne'
    | cons first' rest' =>
    rw [putCellAtCursor_glyph] at hw hw'
    obtain ⟨cells, hcells, hdone⟩ := bind_ok hw
    obtain ⟨cells', hcells', hdone'⟩ := bind_ok hw'
    have hsame : (v.written cells').cells = (v.written cells).cells := by
      rw [Except.ok.inj hdone, Except.ok.inj hdone']
    obtain rfl : cells' = cells := hsame
    exact congrArg some (cellsWith_inj hcells hcells')
  · intro hglyph
    rw [putCellAtCursor_glyph, putCellAtCursor_glyph, hglyph]

/-- What is written is one cell just if it is one text, with the same glyph. -/
theorem putAll_one (h : v.InGrid) {texts : List (List UInt16)}
    {text : List UInt16} (hne : text ≠ []) :
    v.putAll texts = v.putCellAtCursor text ↔
      ∃ text', texts.filter (· ≠ []) = [text'] ∧ glyph text' = glyph text := by
  rw [putAll_filter]
  have hall : ∀ text' ∈ texts.filter (· ≠ []), text' ≠ [] := by
    intro text' htext'
    simpa using (List.mem_filter.mp htext').2
  generalize texts.filter (· ≠ []) = shown at hall
  obtain ⟨w, hw, hout⟩ := putAll_grows h hall
  obtain ⟨u, hu, -, hone⟩ := putCellAtCursor_grows h hne
  have hput (text' : List UInt16) :
      v.putAll [text'] = v.putCellAtCursor text' := by
    show v.putCellAtCursor text' >>= pure = _
    exact bind_pure _
  constructor
  · intro hsame
    rw [hw, hu] at hsame
    cases hsame
    obtain ⟨text', rfl⟩ := List.length_eq_one_iff.mp
      (show shown.length = 1 by omega)
    refine ⟨text', rfl, (putCellAtCursor_inj h (hall text' (by simp)) hne).mp ?_⟩
    rw [← hput, hw, hu]
  · rintro ⟨text', rfl, hglyph⟩
    rw [hput]
    exact (putCellAtCursor_inj h (hall text' (by simp)) hne).mpr hglyph

/-! ## What is awaited -/

/-- The bytes that are held are those of one lead byte, as far as they came. -/
def Buffered (p : Vt100Parser) : Prop :=
  p.utf8Remaining ≠ 0 →
    ∃ lead tail, p.utf8 = lead :: tail ∧
      announced lead = tail.length + p.utf8Remaining

theorem consumeUtf8_buffered {p : Vt100Parser} (h : Buffered p) (b : UInt8) :
    Buffered (p.consumeUtf8 b).2 := by
  cases hr : p.utf8Remaining with
  | zero =>
      rw [Vt100Parser.consumeUtf8_free hr]
      split
      · exact h
      · exact fun _ => ⟨b, [], rfl, (Nat.zero_add _).symm⟩
  | succ r =>
      rw [Vt100Parser.consumeUtf8_awaited hr]
      split
      · exact fun hne => absurd rfl hne
      · intro _
        obtain ⟨lead, tail, hutf8, hlead⟩ := h (by omega)
        refine ⟨lead, tail ++ [b], ?_, ?_⟩
        · show p.utf8 ++ [b] = _
          rw [hutf8]
          rfl
        · rw [hlead, hr, List.length_append]
          show _ = tail.length + 1 + r
          omega

theorem moveCursor_parses (rowDelta columnDelta : Int) (s : TerminalScreen) :
    KeepsParser s (s.moveCursor rowDelta columnDelta) :=
  .bind fun _ => .bind fun _ => .ok rfl

theorem clearRows_parses (lo hi : Int) (s : TerminalScreen) :
    KeepsParser s (s.clearRows lo hi) :=
  .forInt (fun _ t => clearCells_parses _ _ _ t) _ _ s

theorem eraseInLine_parses (mode : Int) (s : TerminalScreen) :
    KeepsParser s (s.eraseInLine mode) := by
  unfold eraseInLine
  split
  · exact clearCells_parses _ _ _ s
  split
  · exact clearCells_parses _ _ _ s
  split
  · exact clearCells_parses _ _ _ s
  · exact .ok rfl

theorem eraseInDisplay_parses (mode : Int) (s : TerminalScreen) :
    KeepsParser s (s.eraseInDisplay mode) := by
  unfold eraseInDisplay
  split
  · exact (clearCells_parses _ _ _ s).trans fun t =>
      .bind fun _ => clearRows_parses _ _ t
  split
  · exact (clearRows_parses _ _ s).trans fun t => clearCells_parses _ _ _ t
  · exact clearRows_parses _ _ s

theorem handleSgrCode_parses (code : Int) (s : TerminalScreen) :
    (s.handleSgrCode code).parser = s.parser := by
  have hite {q : Prop} [Decidable q] {t u : TerminalScreen}
      (ht : t.parser = s.parser) (hu : u.parser = s.parser) :
      (if q then t else u).parser = s.parser := by
    by_cases hq : q
    · rwa [if_pos hq]
    · rwa [if_neg hq]
  unfold handleSgrCode
  repeat' first
    | rfl
    | apply hite

theorem handleSgrLoop_parses (fuel : Nat) (params : List Int)
    (s : TerminalScreen) : KeepsParser s (handleSgrLoop fuel params s) := by
  induction fuel generalizing params s with
  | zero => exact .ok rfl
  | succ fuel ih =>
      cases params with
      | nil => exact .ok rfl
      | cons code params =>
          rw [handleSgrLoop]
          split
          · refine .bind fun color => ?_
            intro t ht
            rw [ih _ _ t ht]
            cases color.1 <;> rfl
          split
          · refine .bind fun color => ?_
            intro t ht
            rw [ih _ _ t ht]
            cases color.1 <;> rfl
          · intro t ht
            rw [ih _ _ t ht]
            exact handleSgrCode_parses code s

theorem handleWindowOps_parses (params : List Int) (s : TerminalScreen) :
    KeepsParser s (s.handleWindowOps params) := by
  have hresponse (bytes : Bytes) : (s.emitResponse bytes).parser = s.parser := by
    unfold emitResponse
    split <;> rfl
  unfold handleWindowOps
  simp only []
  split
  · exact .bind fun _ => .bind fun _ => .ok (hresponse _)
  split
  · exact .ok (hresponse _)
  split
  · exact .ok (hresponse _)
  · exact .ok rfl

theorem handleFinal_parses (final : UInt8) (params : List Int)
    (s : TerminalScreen) : KeepsParser s (s.handleFinal final params) := by
  unfold handleFinal
  simp only []
  split
  case _ | _ | _ | _ => exact moveCursor_parses _ _ s
  case _ | _ | _ => exact .bind fun _ => .ok rfl
  case _ | _ => exact .bind fun _ => .bind fun _ => .ok rfl
  · exact eraseInDisplay_parses _ s
  · exact eraseInLine_parses _ s
  · unfold handleSgr
    split
    · exact .ok rfl
    · exact handleSgrLoop_parses _ _ s
  · exact .ok rfl
  · exact handleWindowOps_parses _ s
  · exact .ok rfl
  · exact .ok rfl

theorem handleCsi_parses (s : TerminalScreen) : KeepsParser s s.handleCsi := by
  unfold handleCsi
  split
  · exact .ok rfl
  · refine .bind fun params => ?_
    split
    · exact .ok rfl
    · exact handleFinal_parses _ _ s

theorem feedByte_buffered (h : Buffered s.parser) {b : UInt8}
    (ht : s.feedByte b = .ok t) : Buffered t.parser := by
  unfold feedByte at ht
  cases hstate : s.parser.state with
  | ground =>
      simp only [hstate] at ht
      split at ht
      · cases ht
        exact h
      split at ht
      · rw [handleC0_parses b s t ht]
        exact h
      split at ht
      · rw [putCellAtCursor_parses _ s t ht]
        exact h
      · rw [putCellAtCursor_parses _ _ t ht]
        exact consumeUtf8_buffered h b
  | escape =>
      simp only [hstate] at ht
      repeat' split at ht
      all_goals
        cases ht
        exact h
  | csi =>
      simp only [hstate] at ht
      split at ht
      · cases ht
        exact h
      split at ht
      · cases ht
        exact h
      split at ht
      · obtain ⟨u, hu, hlast⟩ := bind_ok ht
        cases hlast
        have hparser := handleCsi_parses _ u hu
        show Buffered { u.parser with
          seq := [], csiPrivate := false, state := .ground }
        rw [hparser]
        exact h
      · cases ht
        exact h
  | osc =>
      simp only [hstate] at ht
      repeat' split at ht
      all_goals
        cases ht
        exact h

theorem resize_inGrid (h : s.InGrid) {newRows newColumns : Int}
    (ht : s.resize newRows newColumns = .ok t) : t.InGrid := by
  by_cases hfits : Fits (.resize newRows newColumns)
  · exact (resize_safe h hfits).of_eq ht
  · simp only [Fits, not_forall] at hfits
    obtain ⟨hrows, hcolumns, hover⟩ := hfits
    unfold resize at ht
    rw [if_neg (by omega)] at ht
    split at ht
    · cases ht
      exact h
    · obtain ⟨size, hsize, -⟩ := bind_ok ht
      rw [int32_overflow (by omega)] at hsize
      cases hsize

theorem bytes_sound (bytes : Bytes) (hgrid : s.InGrid)
    (hbuffered : Buffered s.parser) (ht : bytes.foldlM feedByte s = .ok t) :
    t.InGrid ∧ Buffered t.parser := by
  induction bytes generalizing s with
  | nil =>
      cases ht
      exact ⟨hgrid, hbuffered⟩
  | cons b bytes ih =>
      obtain ⟨u, hu, htail⟩ := bind_ok ht
      exact ih ((feedByte_safe_iff hgrid b).of_eq hu).2
        (feedByte_buffered hbuffered hu) htail

/-- What holds of every screen that calls lead to. -/
theorem call_sound (hgrid : s.InGrid) (hbuffered : Buffered s.parser)
    {call : Call} (ht : s.call call = .ok t) :
    t.InGrid ∧ Buffered t.parser := by
  cases call with
  | feed bytes =>
      obtain ⟨u, hu, htouch⟩ := bind_ok ht
      cases htouch
      obtain ⟨hu₁, hu₂⟩ := bytes_sound bytes hgrid hbuffered hu
      exact ⟨hu₁.emit _, hu₂⟩
  | resize newRows newColumns =>
      refine ⟨resize_inGrid hgrid ht, ?_⟩
      rw [resize_parses newRows newColumns s t ht]
      exact hbuffered
  | clear =>
      cases ht
      exact ⟨clear_inGrid hgrid, hbuffered⟩

theorem calls_sound (calls : List Call) (hgrid : s.InGrid)
    (hbuffered : Buffered s.parser) (ht : calls.foldlM call s = .ok t) :
    t.InGrid ∧ Buffered t.parser := by
  induction calls generalizing s with
  | nil =>
      cases ht
      exact ⟨hgrid, hbuffered⟩
  | cons c calls ih =>
      obtain ⟨u, hu, htail⟩ := bind_ok ht
      obtain ⟨hu₁, hu₂⟩ := call_sound hgrid hbuffered hu
      exact ih hu₁ hu₂ htail

/-! ## A character -/

theorem filter_replicate_nil (n : Nat) :
    (List.replicate n ([] : List UInt16)).filter (· ≠ []) = [] := by
  simp

theorem filter_shown (n : Nat) (utf8 : Bytes) :
    (List.replicate n [] ++ [shownText utf8]).filter (· ≠ []) =
      [shownText utf8] := by
  rw [List.filter_append, filter_replicate_nil, List.nil_append]
  simp [shownText_ne]

/-- Where nothing is awaited the sequence is read as it is; -/
theorem texts_free {p : Vt100Parser} (hfree : p.utf8Remaining = 0)
    {lead : UInt8} {tail : Bytes} (hlead : announced lead = tail.length)
    (htail : tail ≠ []) (hhigh : ∀ b ∈ lead :: tail, ¬b < 0x80) :
    (p.texts (lead :: tail)).filter (· ≠ []) = [shownText (lead :: tail)] := by
  rw [List.forall_mem_cons] at hhigh
  have hpos := List.length_pos_iff.mpr htail
  have hone := Vt100Parser.consumeUtf8_free hfree lead
  rw [if_neg (by omega), ← Vt100Parser.textOf_high hhigh.1] at hone
  obtain ⟨htexts, -⟩ := Vt100Parser.texts_awaited hhigh.2 htail
    (p := { p with utf8 := [lead], utf8Remaining := announced lead }) hlead.symm
  rw [Vt100Parser.texts, hone, htexts]
  exact filter_shown _ _

/-- where more is awaited than it has, nothing is written; -/
theorem texts_swallowed {p : Vt100Parser} {seq : Bytes}
    (hhigh : ∀ b ∈ seq, ¬b < 0x80) (hfew : seq.length < p.utf8Remaining) :
    (p.texts seq).filter (· ≠ []) = [] := by
  rw [(Vt100Parser.texts_few hhigh hfew).1]
  exact filter_replicate_nil _

/-- and where less is, there are two texts at least. -/
theorem texts_split {p : Vt100Parser} (hpending : p.utf8Remaining ≠ 0)
    {lead : UInt8} {tail : Bytes} (hhigh : ∀ b ∈ lead :: tail, ¬b < 0x80)
    (hstray : ∀ b ∈ tail, announced b = 0)
    (hmany : p.utf8Remaining < (lead :: tail).length) :
    2 ≤ ((p.texts (lead :: tail)).filter (· ≠ [])).length := by
  obtain ⟨r, hr⟩ := Nat.exists_eq_succ_of_ne_zero hpending
  rw [hr, List.length_cons] at hmany
  have hsplit : lead :: tail = (lead :: tail.take r) ++ tail.drop r := by
    rw [List.cons_append, List.take_append_drop]
  have hfirst : (lead :: tail.take r).length = p.utf8Remaining := by
    rw [List.length_cons, List.length_take, hr]
    omega
  rw [hsplit] at hhigh ⊢
  obtain ⟨htexts, hdone⟩ := Vt100Parser.texts_awaited
    (fun b hb => hhigh b (List.mem_append_left _ hb)) (List.cons_ne_nil _ _)
    hfirst
  have hrest := Vt100Parser.texts_stray
    (fun b hb => hhigh b (List.mem_append_right _ hb))
    (fun b hb => hstray b (List.mem_of_mem_drop hb)) hdone
  have hdrop : 0 < (tail.drop r).length := by
    rw [List.length_drop]
    omega
  rw [Vt100Parser.texts_append, htexts, hrest, List.filter_append, filter_shown,
    List.length_append, List.filter_eq_self.mpr]
  · rw [List.length_replicate, List.length_singleton]
    omega
  · intro text htext
    rw [List.eq_of_mem_replicate htext]
    rfl

/-- The texts of a sequence, as far as they are written, and as cells. -/
theorem sequence_shown {p : Vt100Parser} (hbuffered : Buffered p) {seq : Bytes}
    (hseq : sequenceLength seq = some seq.length) (hmark : seq ≠ byteOrderMark) :
    (∃ text, (p.texts seq).filter (· ≠ []) = [text] ∧
        glyph text = glyph (utf16 seq)) ↔
      p.utf8Remaining = 0 ∨ seq.length = 1 ∨
        p.utf8Remaining = 3 ∧ seq = replacementUtf8 := by
  by_cases hlong : seq.length = 1
  · refine iff_of_true ?_ (.inr (.inl hlong))
    obtain ⟨b, rfl⟩ := List.length_eq_one_iff.mp hlong
    have hb := sequenceLength_single hseq
    refine ⟨[b.toUInt16], ?_, ?_⟩
    · rw [Vt100Parser.texts, Vt100Parser.textOf, if_pos hb]
      rfl
    · have hvalue : sequenceValue [b] = b.toNat := rfl
      have hunit : b.toUInt16 = UInt16.ofNat b.toNat := by simp
      rw [utf16_sequence hseq, hvalue, utf16Units,
        if_pos (Nat.lt_trans b.toNat_lt (by decide)), hunit]
  obtain ⟨lead, tail, rfl, hlow, hlead, hne, hcont⟩ := sequence_lead hseq hlong
  have hhigh : ∀ b ∈ lead :: tail, ¬b < 0x80 := by
    rw [List.forall_mem_cons]
    refine ⟨?_, fun b hb => (continuation_facts (hcont b hb)).1⟩
    rw [UInt8.lt_iff_toNat_lt] at hlow ⊢
    simp only [UInt8.reduceToNat] at hlow ⊢
    omega
  by_cases hfree : p.utf8Remaining = 0
  · refine iff_of_true ⟨_, texts_free hfree hlead hne hhigh, ?_⟩ (.inl hfree)
    rw [shownText_sequence hseq hmark]
  rw [or_iff_right hfree, or_iff_right hlong]
  have hthree : replacementUtf8.length = 3 := rfl
  rcases Nat.lt_trichotomy (lead :: tail).length p.utf8Remaining with
    hfew | hall | hmany
  · refine iff_of_false ?_ ?_
    · rintro ⟨text, htext, -⟩
      rw [texts_swallowed hhigh hfew] at htext
      cases htext
    · rintro ⟨hr, hrep⟩
      rw [hrep] at hfew
      omega
  · obtain ⟨lead', tail', hutf8, hlead'⟩ := hbuffered hfree
    have hle := announced_le lead'
    rw [← hall, List.length_cons] at hlead'
    obtain ⟨more, hmore⟩ := fromUtf8_broken hlead' hne hlow
    obtain ⟨htexts, -⟩ :=
      Vt100Parser.texts_awaited hhigh (List.cons_ne_nil _ _) hall
    rw [htexts, filter_shown, hutf8]
    have hshort : (lead :: tail).length ≤ 3 := by
      rw [List.length_cons]
      omega
    rw [← glyph_sequence hseq hlong hshort]
    constructor
    · rintro ⟨text, htext, hglyph⟩
      cases htext
      rw [glyph_replacement hmore] at hglyph
      refine ⟨?_, hglyph.symm⟩
      rw [← hall, (glyph_sequence hseq hlong hshort).mp hglyph.symm]
      rfl
    · rintro ⟨-, hglyph⟩
      exact ⟨_, rfl, by rw [glyph_replacement hmore, hglyph]⟩
  · refine iff_of_false ?_ ?_
    · rintro ⟨text, htext, -⟩
      have htwo := texts_split hfree hhigh
        (fun b hb => (continuation_facts (hcont b hb)).2.1) hmany
      rw [htext, List.length_singleton] at htwo
      omega
    · rintro ⟨hr, hrep⟩
      rw [hrep] at hmany
      omega

theorem shows_iff (hgrid : s.InGrid) (hbuffered : Buffered s.parser)
    (hground : s.parser.state = .ground) {chunks : List Bytes}
    (hseq : sequenceLength chunks.flatten = some chunks.flatten.length)
    (hprintable : ∀ b ∈ chunks.flatten, ¬b < 0x20)
    (hmark : chunks.flatten ≠ byteOrderMark) :
    s.Shows chunks ↔
      s.parser.utf8Remaining = 0 ∨ chunks.flatten.length = 1 ∨
        s.parser.utf8Remaining = 3 ∧ chunks.flatten = replacementUtf8 := by
  have hvisible : s.visible.InGrid := hgrid.of_eq rfl rfl rfl rfl rfl
  have htext : utf16 chunks.flatten ≠ [] := by
    rw [utf16_sequence hseq, utf16Units]
    split <;> exact List.cons_ne_nil _ _
  rw [Shows, visible_chunks hprintable hground, visible_putCell,
    putAll_one hvisible htext]
  exact sequence_shown hbuffered hseq hmark

/-- A character that comes in on the ground, in one call or more and behind
whatever was fed before, is written as one cell just if nothing is awaited, or
it is an ASCII character, or the replacement character where three bytes are. -/
theorem character_shown_iff {calls : List Call} {begun : Bytes}
    (hcalls : calls.foldlM call {} = .ok t)
    (hbegun : begun.foldlM feedByte t = .ok s)
    (hground : s.parser.state = .ground) {chunks : List Bytes}
    (hseq : sequenceLength chunks.flatten = some chunks.flatten.length)
    (hprintable : ∀ b ∈ chunks.flatten, ¬b < 0x20)
    (hmark : chunks.flatten ≠ byteOrderMark) :
    s.Shows chunks ↔
      s.parser.utf8Remaining = 0 ∨ chunks.flatten.length = 1 ∨
        s.parser.utf8Remaining = 3 ∧ chunks.flatten = replacementUtf8 := by
  obtain ⟨hgrid, hbuffered⟩ := calls_sound calls inGrid_fresh
    (fun hne => absurd rfl hne) hcalls
  obtain ⟨hgrid, hbuffered⟩ := bytes_sound begun hgrid hbuffered hbegun
  exact shows_iff hgrid hbuffered hground hseq hprintable hmark

set_option maxRecDepth 10000 in
/-- In two calls, on a new screen. -/
theorem character_shown_split :
    ({} : TerminalScreen).Shows [[0xC3], [0xA9]] := by
  have hcalls : ([] : List Call).foldlM call {} = .ok ({} : TerminalScreen) := rfl
  have hbegun : ([] : Bytes).foldlM feedByte {} = .ok ({} : TerminalScreen) := rfl
  exact (character_shown_iff hcalls hbegun rfl (by decide)
    (by decide) (by decide)).mpr (.inl rfl)

set_option maxRecDepth 10000 in
/-- Behind a lead byte that nothing came of: the two lead bytes are taken for
one character, and the byte behind them for none. -/
theorem character_lost :
    ∃ s, ({} : TerminalScreen).call (.feed [0xC3]) = .ok s ∧
      s.parser.state = .ground ∧ ¬s.Shows [[0xC3, 0xA9]] := by
  refine ⟨(({} : TerminalScreen).withParser
    { utf8 := [0xC3], utf8Remaining := 1 }).touch, rfl, rfl, fun hshows => ?_⟩
  have hgrid := (inGrid_fresh.withParser
    { utf8 := [0xC3], utf8Remaining := 1 }).emit .screenUpdated
  rcases (shows_iff hgrid (fun _ => ⟨0xC3, [], rfl, rfl⟩) rfl
    (by decide) (by decide) (by decide)).mp hshows with
    h | h | ⟨h, -⟩
  · exact absurd h Nat.one_ne_zero
  · exact absurd h (by decide)
  · exact absurd (show 1 = 3 from h) (by decide)

end TerminalScreen

end QuMesh.Terminal
