import Mathlib.Data.List.Nodup
import QuMesh.Proofs.HttpText

/-!
# What a digest challenge reads back as

A server writes a challenge as directives, each a token and a quoted string,
with a comma and perhaps spaces between them. `parseDigestChallenge` ends a
quoted string at the first quote and keeps a backslash as it stands, where
`quotedStringEscape` puts one in front of both. So a value with neither comes
back as it was, and a challenge of such values does.

That no other challenge does takes an argument, because what follows a quote
that was escaped is read as directives of its own, and one of those may put a
right value under a name after all. It counts the equals signs. Every directive
that is read spends one and has those of its value, and the text has one for
every directive that was written and those of the values. So if all that was
written is read, nothing else is, and the first value that was read wrong is
something else.
-/

namespace QuMesh.Wsman

open QuMesh.Lib

/-! ## Challenges -/

/-- A letter, a digit, or one of the marks of a token. -/
def tchar (c : UInt8) : Bool :=
  (0x30 ≤ c && c ≤ 0x39) || (0x41 ≤ c && c ≤ 0x5A) || (0x61 ≤ c && c ≤ 0x7A) ||
    (ascii "!#$%&'*+-.^_`|~").contains c

def IsToken (name : Bytes) : Prop := name ≠ [] ∧ ∀ c ∈ name, tchar c = true

instance (name : Bytes) : Decidable (IsToken name) :=
  inferInstanceAs (Decidable (_ ∧ _))

structure Directive where
  name : Bytes
  value : Bytes
  token : IsToken name := by decide +kernel

namespace Directive

def text (d : Directive) : Bytes :=
  d.name ++ 0x3D :: 0x22 :: (quotedStringEscape d.value ++ [0x22])

/-- What is to come back of it; names do not depend on case. -/
def entry (d : Directive) : Bytes × Bytes := (toLower d.name, d.value)

/-- No quote in its value and no backslash. -/
def Plain (d : Directive) : Prop := ∀ c ∈ d.value, c ≠ 0x22 ∧ c ≠ 0x5C

instance (d : Directive) : Decidable d.Plain :=
  inferInstanceAs (Decidable (∀ c ∈ d.value, _))

end Directive

/-- A comma, with this many spaces on its sides. -/
structure Gap where
  before : Nat := 0
  after : Nat := 1

def spaces (n : Nat) : Bytes := List.replicate n 0x20

def Gap.bytes (g : Gap) : Bytes := spaces g.before ++ 0x2C :: spaces g.after

/-- Directives, each behind what separates it from the one before. -/
def listed (ds : List (Bytes × Directive)) : Bytes :=
  ds.flatMap fun p => p.1 ++ p.2.text

/-- In front of the first one there are spaces alone. -/
def separated : List (Gap × Directive) → List (Bytes × Directive)
  | [] => []
  | (g, d) :: ds => (spaces g.after, d) :: ds.map fun p => (p.1.bytes, p.2)

def challengeText (ds : List (Gap × Directive)) : Bytes :=
  ascii "Digest " ++ listed (separated ds)

/-- What a hash table holds after these insertions. -/
def Headers.entries : Headers → Headers
  | [] => []
  | p :: rest =>
      if p.1 ∈ rest.map Prod.fst then entries rest else p :: entries rest

theorem Headers.entries_sublist (h : Headers) : h.entries.Sublist h := by
  induction h with
  | nil => exact .slnil
  | cons p rest ih =>
      rw [entries]
      split
      · exact ih.cons p
      · exact ih.cons_cons p

theorem Headers.entries_nodup (h : Headers) :
    (h.entries.map Prod.fst).Nodup := by
  induction h with
  | nil => exact .nil
  | cons p rest ih =>
      rw [entries]
      split
      · exact ih
      · next hnew =>
          refine List.nodup_cons.mpr ⟨fun hp => hnew ?_, ih⟩
          exact ((entries_sublist rest).map Prod.fst).subset hp

theorem Headers.entries_of_nodup {h : Headers}
    (hnodup : (h.map Prod.fst).Nodup) : h.entries = h := by
  induction h with
  | nil => rfl
  | cons p rest ih =>
      obtain ⟨hnew, hrest⟩ := List.nodup_cons.mp hnodup
      rw [entries, if_neg hnew, ih hrest]

/-! ## A round of the scanner -/

/-- What may stand in front of a directive. -/
def isGap (c : UInt8) : Bool := c == 0x20 || c == 0x2C

/-- The value behind an equals sign. -/
def valueRead : Bytes → Bytes
  | 0x22 :: s => s.takeWhile (· != 0x22)
  | s => trimmed (s.takeWhile (· != 0x2C))

/-- What is left behind the value. -/
def valueLeft : Bytes → Bytes
  | 0x22 :: s => (s.dropWhile (· != 0x22)).drop 1
  | s => s.dropWhile (· != 0x2C)

/-- The directive that a round came upon. -/
def entryRead (key s : Bytes) : Headers :=
  let key := toLower (trimmed key)
  if key = [] then [] else [(key, valueRead s)]

theorem all_until {sep : UInt8} {l : Bytes} (h : sep ∉ l) :
    ∀ c ∈ l, (c != sep) = true := by
  intro c hc
  rw [bne_iff_ne]
  rintro rfl
  exact h hc

theorem takeWhile_until {sep : UInt8} {l : Bytes} (h : sep ∉ l) (t : Bytes) :
    (l ++ sep :: t).takeWhile (· != sep) = l := by
  rw [List.takeWhile_append_of_pos (all_until h)]
  simp

theorem dropWhile_until {sep : UInt8} {l : Bytes} (h : sep ∉ l) (t : Bytes) :
    (l ++ sep :: t).dropWhile (· != sep) = sep :: t := by
  rw [List.dropWhile_append_of_pos (all_until h)]
  simp

theorem parseDirectives_round {s key rest : Bytes}
    (hs : s.dropWhile isGap = key ++ 0x3D :: rest) (hkey : 0x3D ∉ key)
    (fuel : Nat) :
    parseDirectives (fuel + 1) s =
      entryRead key rest ++ parseDirectives fuel (valueLeft rest) := by
  have hgap : (fun c : UInt8 => c == 0x20 || c == 0x2C) = isGap := rfl
  rw [parseDirectives, hgap, hs]
  simp only [takeWhile_until hkey, List.drop_left]
  rfl

theorem parseDirectives_end {s : Bytes} (hs : 0x3D ∉ s.dropWhile isGap)
    (fuel : Nat) : parseDirectives fuel s = [] := by
  cases fuel with
  | zero => rfl
  | succ fuel =>
      have hgap : (fun c : UInt8 => c == 0x20 || c == 0x2C) = isGap := rfl
      have hall : (s.dropWhile isGap ++ []).takeWhile (· != 0x3D) =
          s.dropWhile isGap ++ [] := List.takeWhile_append_of_pos (all_until hs)
      rw [List.append_nil] at hall
      rw [parseDirectives, hgap]
      simp only [hall, List.drop_length]

/-! ## Tokens -/

set_option maxRecDepth 10000 in
theorem tchar_plain {c : UInt8} (h : tchar c = true) :
    isSpace c = false ∧ isGap c = false ∧ c ≠ 0x3D := by
  have hall : ∀ n < 256, tchar (UInt8.ofNat n) = true →
      isSpace (UInt8.ofNat n) = false ∧ isGap (UInt8.ofNat n) = false ∧
        UInt8.ofNat n ≠ 0x3D := by
    decide
  have hc := hall c.toNat c.toNat_lt
  rw [UInt8.ofNat_toNat] at hc
  exact hc h

namespace IsToken

variable {name : Bytes} (h : IsToken name)
include h

theorem trimmed : Wsman.trimmed name = name :=
  trimmed_of_noSpace fun c hc => (tchar_plain (h.2 c hc)).1

theorem noEquals : 0x3D ∉ name := fun hc => (tchar_plain (h.2 _ hc)).2.2 rfl

theorem lower_ne : toLower name ≠ [] := by
  rw [toLower]
  exact fun hnil => h.1 (List.map_eq_nil_iff.mp hnil)

/-- A token is where the gap in front of it ends. -/
theorem after_gap {gap : Bytes} (hgap : ∀ c ∈ gap, isGap c = true) (t : Bytes) :
    (gap ++ (name ++ t)).dropWhile isGap = name ++ t := by
  rw [List.dropWhile_append_of_pos hgap]
  obtain ⟨hne, hchars⟩ := h
  cases name with
  | nil => exact absurd rfl hne
  | cons c name =>
      have hc := (tchar_plain (hchars c List.mem_cons_self)).2.1
      rw [List.cons_append, List.dropWhile_cons, hc]
      rfl

end IsToken

/-! ## Escapes -/

theorem quotedStringEscape_plain {v : Bytes}
    (h : ∀ c ∈ v, c ≠ 0x22 ∧ c ≠ 0x5C) : quotedStringEscape v = v := by
  induction v with
  | nil => rfl
  | cons c v ih =>
      obtain ⟨hquote, hslash⟩ := h c List.mem_cons_self
      have hrest := ih fun x hx => h x (List.mem_cons_of_mem c hx)
      rw [quotedStringEscape] at hrest ⊢
      rw [List.flatMap_cons, if_neg (by simp [hquote, hslash]), hrest]
      rfl

theorem le_escape (v : Bytes) : v.length ≤ (quotedStringEscape v).length := by
  induction v with
  | nil => exact Nat.le_refl 0
  | cons c v ih =>
      rw [quotedStringEscape] at ih ⊢
      rw [List.flatMap_cons, List.length_append, List.length_cons]
      split
      · rw [List.length_cons, List.length_singleton]
        omega
      · rw [List.length_singleton]
        omega

/-- An escape makes a value longer. -/
theorem plain_of_escape {v : Bytes} (h : quotedStringEscape v = v) :
    ∀ c ∈ v, c ≠ 0x22 ∧ c ≠ 0x5C := by
  induction v with
  | nil => exact List.forall_mem_nil _
  | cons c v ih =>
      have hlong := le_escape v
      rw [quotedStringEscape] at h ih hlong
      rw [List.flatMap_cons] at h
      split at h
      · have hlen := congrArg List.length h
        simp only [List.length_append, List.length_cons,
          List.length_nil] at hlen
        omega
      · next hplain =>
          rw [not_or] at hplain
          exact List.forall_mem_cons.mpr ⟨hplain.symm, ih (List.cons.inj h).2⟩

theorem mem_escape {c : UInt8} {v : Bytes} (h : c ∈ quotedStringEscape v) :
    c ∈ v ∨ c = 0x5C := by
  rw [quotedStringEscape, List.mem_flatMap] at h
  obtain ⟨x, hx, hc⟩ := h
  split at hc
  · rcases List.mem_cons.mp hc with rfl | hc
    · exact .inr rfl
    · exact .inl (List.mem_singleton.mp hc ▸ hx)
  · exact .inl (List.mem_singleton.mp hc ▸ hx)

theorem escape_count (v : Bytes) :
    (quotedStringEscape v).count 0x3D = v.count 0x3D := by
  induction v with
  | nil => rfl
  | cons c v ih =>
      rw [quotedStringEscape] at ih ⊢
      rw [List.flatMap_cons, List.count_append, ih, List.count_cons]
      split
      · next hescaped => rcases hescaped with rfl | rfl <;> simp
      · simp [List.count_cons, Nat.add_comm]

/-- Up to the first quote, an escaped value is itself only where nothing in it
was escaped. -/
theorem plain_of_read {v t : Bytes}
    (h : (quotedStringEscape v ++ 0x22 :: t).takeWhile (· != 0x22) = v) :
    ∀ c ∈ v, c ≠ 0x22 ∧ c ≠ 0x5C := by
  have hquote : (0x22 : UInt8) ∉ v := by
    intro hmem
    rw [← h] at hmem
    have hall := List.all_takeWhile (p := (· != (0x22 : UInt8)))
      (l := quotedStringEscape v ++ 0x22 :: t)
    have hne := List.all_eq_true.mp hall _ hmem
    simp at hne
  have hescape : (0x22 : UInt8) ∉ quotedStringEscape v := fun hmem =>
    (mem_escape hmem).elim hquote (by decide)
  rw [takeWhile_until hescape] at h
  exact plain_of_escape h

/-! ## Directives that are read -/

/-- A round over a directive: its name, and its value up to a quote. -/
theorem parseDirectives_text (d : Directive) {gap : Bytes}
    (hgap : ∀ c ∈ gap, isGap c = true) (t : Bytes) (fuel : Nat) :
    parseDirectives (fuel + 1) (gap ++ (d.text ++ t)) =
      (toLower d.name,
        (quotedStringEscape d.value ++ 0x22 :: t).takeWhile (· != 0x22)) ::
        parseDirectives fuel
          (((quotedStringEscape d.value ++ 0x22 :: t).dropWhile
            (· != 0x22)).drop 1) := by
  have htext : d.text ++ t =
      d.name ++ 0x3D :: 0x22 :: (quotedStringEscape d.value ++ 0x22 :: t) := by
    simp [Directive.text]
  rw [htext, parseDirectives_round (d.token.after_gap hgap _) d.token.noEquals]
  simp only [entryRead, d.token.trimmed, if_neg d.token.lower_ne]
  rfl

theorem parseDirectives_plain {d : Directive} (h : d.Plain) {gap : Bytes}
    (hgap : ∀ c ∈ gap, isGap c = true) (t : Bytes) (fuel : Nat) :
    parseDirectives (fuel + 1) (gap ++ (d.text ++ t)) =
      d.entry :: parseDirectives fuel t := by
  have hquote : (0x22 : UInt8) ∉ d.value := fun hmem => (h _ hmem).1 rfl
  rw [parseDirectives_text d hgap, quotedStringEscape_plain h,
    takeWhile_until hquote, dropWhile_until hquote]
  rfl

/-- Directives as they are listed, with gaps in front of them. -/
def Gapped (ds : List (Bytes × Directive)) : Prop :=
  ∀ p ∈ ds, ∀ c ∈ p.1, isGap c = true

theorem listed_cons (p : Bytes × Directive) (ds : List (Bytes × Directive)) :
    listed (p :: ds) = p.1 ++ (p.2.text ++ listed ds) := by
  rw [listed, List.flatMap_cons, List.append_assoc]
  rfl

theorem parseDirectives_listed {ds : List (Bytes × Directive)}
    (hgaps : Gapped ds) (h : ∀ p ∈ ds, p.2.Plain) {fuel : Nat}
    (hfuel : ds.length ≤ fuel) :
    parseDirectives fuel (listed ds) = ds.map fun p => p.2.entry := by
  induction ds generalizing fuel with
  | nil => exact parseDirectives_end (by simp [listed]) fuel
  | cons p ds ih =>
      obtain ⟨hp, hds⟩ := List.forall_mem_cons.mp h
      obtain ⟨hgap, hrest⟩ := List.forall_mem_cons.mp hgaps
      obtain ⟨fuel, rfl⟩ := Nat.exists_eq_add_one_of_ne_zero
        (Nat.ne_of_gt (Nat.lt_of_lt_of_le (Nat.succ_pos _) hfuel))
      rw [listed_cons, parseDirectives_plain hp hgap,
        ih hrest hds (Nat.le_of_succ_le_succ hfuel), List.map_cons]

/-- The first value that is not plain comes back as another one. -/
theorem misread {ds : List (Bytes × Directive)} (hgaps : Gapped ds)
    (h : ¬∀ p ∈ ds, p.2.Plain) {fuel : Nat} (hfuel : ds.length ≤ fuel) :
    ∃ p ∈ ds, ∃ value, value ≠ p.2.value ∧
      (toLower p.2.name, value) ∈ parseDirectives fuel (listed ds) := by
  induction ds generalizing fuel with
  | nil => exact absurd (List.forall_mem_nil _) h
  | cons p ds ih =>
      obtain ⟨hgap, hrest⟩ := List.forall_mem_cons.mp hgaps
      obtain ⟨fuel, rfl⟩ := Nat.exists_eq_add_one_of_ne_zero
        (Nat.ne_of_gt (Nat.lt_of_lt_of_le (Nat.succ_pos _) hfuel))
      rw [listed_cons]
      by_cases hp : p.2.Plain
      · have hds : ¬∀ q ∈ ds, q.2.Plain :=
          fun hall => h (List.forall_mem_cons.mpr ⟨hp, hall⟩)
        obtain ⟨q, hq, value, hvalue, hmem⟩ :=
          ih hrest hds (Nat.le_of_succ_le_succ hfuel)
        rw [parseDirectives_plain hp hgap]
        exact ⟨q, List.mem_cons_of_mem p hq, value, hvalue,
          List.mem_cons_of_mem _ hmem⟩
      · rw [parseDirectives_text p.2 hgap]
        exact ⟨p, List.mem_cons_self, _, fun heq => hp (plain_of_read heq),
          List.mem_cons_self⟩

/-! ## Equals signs -/

/-- What the directives of a table take of them. -/
def written (h : Headers) : Bytes := h.flatMap fun p => 0x3D :: p.2

theorem trimmed_sublist (b : Bytes) : (trimmed b).Sublist b := by
  have hfront := List.dropWhile_sublist (l := b) isSpace
  have hback := List.dropWhile_sublist (l := (b.dropWhile isSpace).reverse)
    isSpace
  have hturned := hback.reverse
  rw [List.reverse_reverse] at hturned
  exact hturned.trans hfront

theorem valueRead_count (s : Bytes) :
    (valueRead s).count 0x3D + (valueLeft s).count 0x3D ≤ s.count 0x3D := by
  have hcut (p : UInt8 → Bool) (l : Bytes) :
      (l.takeWhile p).count 0x3D + (l.dropWhile p).count 0x3D =
        l.count 0x3D := by
    rw [← List.count_append, List.takeWhile_append_dropWhile]
  unfold valueRead valueLeft
  split
  · next l =>
      have hdrop :=
        (List.drop_sublist 1 (l.dropWhile (· != 0x22))).count_le 0x3D
      have hl := hcut (· != 0x22) l
      rw [List.count_cons]
      omega
  · next l hquote =>
      have htrim := (trimmed_sublist (s.takeWhile (· != 0x2C))).count_le 0x3D
      have hl := hcut (· != 0x2C) s
      omega

/-- No directive is read that has not taken an equals sign. -/
theorem written_parse (fuel : Nat) (s : Bytes) :
    (written (parseDirectives fuel s)).count 0x3D ≤ s.count 0x3D := by
  induction fuel generalizing s with
  | zero => exact Nat.zero_le _
  | succ fuel ih =>
      by_cases hs : 0x3D ∈ s.dropWhile isGap
      · obtain ⟨key, rest, hsplit, hkey⟩ := List.eq_append_cons_of_mem hs
        have hround := parseDirectives_round hsplit hkey fuel
        have hentry : (written (entryRead key rest)).count 0x3D ≤
            1 + (valueRead rest).count 0x3D := by
          unfold entryRead
          simp only []
          split
          · exact Nat.zero_le _
          · simp [written, Nat.add_comm]
        have hs' := (List.dropWhile_sublist (l := s) isGap).count_le 0x3D
        have hleft := ih (valueLeft rest)
        have hvalue := valueRead_count rest
        rw [hsplit, List.count_append, List.count_cons] at hs'
        rw [hround, written, List.flatMap_append, List.count_append]
        simp only [written] at hentry hleft
        simp at hs'
        omega
      · rw [parseDirectives_end hs]
        exact Nat.zero_le _

theorem listed_count (ds : List (Bytes × Directive)) (hgaps : Gapped ds) :
    (listed ds).count 0x3D =
      (written (ds.map fun p => p.2.entry)).count 0x3D := by
  induction ds with
  | nil => rfl
  | cons p ds ih =>
      obtain ⟨hgap, hrest⟩ := List.forall_mem_cons.mp hgaps
      have hnone : p.1.count 0x3D = 0 := by
        refine List.count_eq_zero.mpr fun hmem => ?_
        have := hgap _ hmem
        revert this
        decide
      have hname := List.count_eq_zero.mpr p.2.token.noEquals
      rw [listed_cons, List.count_append, List.count_append, ih hrest, hnone,
        Directive.text, List.count_append, hname, List.map_cons, written,
        written, List.flatMap_cons, List.count_append]
      simp [escape_count, Directive.entry]

/-- Where the entries of a table take as many equals signs as all of its
insertions, there is nothing that they replaced. -/
theorem entries_whole {h : Headers}
    (hcount : (written h).count 0x3D ≤ (written h.entries).count 0x3D) :
    h.entries = h := by
  obtain ⟨rest, hrest⟩ := h.entries_sublist.exists_perm_append
  have hperm : (written h).Perm (written (h.entries ++ rest)) :=
    hrest.flatMap_right _
  have hnone : rest = [] := by
    rw [hperm.count_eq, written, List.flatMap_append, List.count_append]
      at hcount
    cases rest with
    | nil => rfl
    | cons p rest =>
        simp only [written, List.flatMap_cons, List.cons_append,
          List.count_cons_self] at hcount
        omega
  rw [hnone, List.append_nil] at hrest
  exact h.entries_sublist.eq_of_length hrest.length_eq.symm

/-! ## Reading a challenge -/

theorem parseDigestChallenge_text (s : Bytes) :
    parseDigestChallenge (ascii "Digest " ++ s) =
      parseDirectives (7 + s.length) s := by
  have hscheme : ascii "Digest " =
      [0x44, 0x69, 0x67, 0x65, 0x73, 0x74, 0x20] := by decide
  have hlower : toLower [0x44, 0x69, 0x67, 0x65, 0x73, 0x74] =
      ascii "digest" := by
    decide
  have hlen : ([0x44, 0x69, 0x67, 0x65, 0x73, 0x74, 0x20] ++ s : Bytes).length =
      7 + s.length := List.length_append
  have hlong : ¬7 + s.length ≤ 6 := by omega
  rw [parseDigestChallenge, hscheme, hlen]
  simp [hlong, hlower]

theorem separated_gapped (ds : List (Gap × Directive)) :
    Gapped (separated ds) := by
  have hspaces (n : Nat) : ∀ c ∈ spaces n, isGap c = true := by
    intro c hc
    rw [List.eq_of_mem_replicate hc]
    rfl
  rcases ds with - | ⟨⟨g, d⟩, ds⟩
  · exact List.forall_mem_nil _
  · refine List.forall_mem_cons.mpr ⟨hspaces g.after, fun p hp => ?_⟩
    obtain ⟨q, -, rfl⟩ := List.mem_map.mp hp
    intro c hc
    rcases List.mem_append.mp hc with hc | hc
    · exact hspaces _ c hc
    · rcases List.mem_cons.mp hc with rfl | hc
      · rfl
      · exact hspaces _ c hc

theorem separated_directives (ds : List (Gap × Directive)) :
    (separated ds).map Prod.snd = ds.map Prod.snd := by
  rcases ds with - | ⟨⟨g, d⟩, ds⟩
  · rfl
  · simp [separated]

theorem length_le_listed (ds : List (Bytes × Directive)) :
    ds.length ≤ (listed ds).length := by
  induction ds with
  | nil => exact Nat.zero_le _
  | cons p ds ih =>
      rw [listed_cons, Directive.text]
      simp only [List.length_append, List.length_cons]
      omega

/-- The challenge reads back as its directives: every name in lower case, with
its value, and nothing else. -/
def ReadsBack (ds : List (Gap × Directive)) : Prop :=
  (parseDigestChallenge (challengeText ds)).entries.Perm
    (ds.map fun p => p.2.entry)

/-- For all directives, and all spaces between them, that is so exactly where
no value has a quote or a backslash, and no two names are the same but for
their case. -/
theorem challenge_readsBack_iff (ds : List (Gap × Directive)) :
    ReadsBack ds ↔
      (∀ p ∈ ds, p.2.Plain) ∧ (ds.map fun p => toLower p.2.name).Nodup := by
  let items := separated ds
  have hgaps : Gapped items := separated_gapped ds
  have hfuel : items.length ≤ 7 + (listed items).length :=
    Nat.le_trans (length_le_listed items) (Nat.le_add_left _ 7)
  have hdirectives : items.map (fun p => p.2.entry) =
      ds.map fun p => p.2.entry := by
    have := congrArg (List.map Directive.entry) (separated_directives ds)
    rwa [List.map_map, List.map_map] at this
  have hplain : (∀ p ∈ items, p.2.Plain) ↔ ∀ p ∈ ds, p.2.Plain := by
    rw [← List.forall_mem_map (f := Prod.snd),
      ← List.forall_mem_map (f := Prod.snd) (l := ds), separated_directives]
  rw [ReadsBack, challengeText, parseDigestChallenge_text]
  constructor
  · intro h
    have hnames : (ds.map fun p => toLower p.2.name).Nodup := by
      have hkeys := (h.map Prod.fst).nodup_iff.mp (Headers.entries_nodup _)
      rwa [List.map_map] at hkeys
    refine ⟨?_, hnames⟩
    rw [← hplain]
    by_contra hnot
    obtain ⟨p, hp, value, hvalue, hread⟩ := misread hgaps hnot hfuel
    have hcount : (written (parseDirectives (7 + (listed items).length)
        (listed items))).count 0x3D ≤ (written (parseDirectives
          (7 + (listed items).length) (listed items)).entries).count 0x3D := by
      refine Nat.le_trans (written_parse _ _) (Nat.le_of_eq ?_)
      rw [listed_count items hgaps, hdirectives]
      exact ((h.flatMap_right _).count_eq 0x3D).symm
    rw [← entries_whole hcount] at hread
    -- the name has the value that was read, and one that was written
    obtain ⟨q, hq, hentry⟩ := List.mem_map.mp (h.mem_iff.mp hread)
    have hwritten : p.2 ∈ ds.map Prod.snd := by
      rw [← separated_directives]
      exact List.mem_map_of_mem hp
    obtain ⟨q', hq', hdirective⟩ := List.mem_map.mp hwritten
    have hsame : q = q' := by
      refine List.inj_on_of_nodup_map hnames hq hq' ?_
      rw [hdirective]
      exact congrArg Prod.fst hentry
    have hgot := congrArg Prod.snd hentry
    rw [hsame] at hgot
    exact hvalue (hgot.symm.trans (congrArg Directive.value hdirective))
  · rintro ⟨hvalues, hnames⟩
    have hread := parseDirectives_listed hgaps (hplain.mpr hvalues) hfuel
    have hkeys : ((ds.map fun p => p.2.entry).map Prod.fst).Nodup := by
      rwa [List.map_map]
    rw [hread, hdirectives, Headers.entries_of_nodup hkeys]

/-- A realm with a quote in it: the name of a device in quotes. -/
def quotedRealm : List (Gap × Directive) := [
  ({}, { name := ascii "realm", value := ascii "AMT \"lab\"" }),
  ({}, { name := ascii "nonce", value := ascii "1f" })]

set_option maxRecDepth 10000 in
theorem challenge_readsBack_not :
    ¬∀ ds : List (Gap × Directive),
      (ds.map fun p => toLower p.2.name).Nodup → ReadsBack ds := by
  intro h
  have hread := h quotedRealm (by decide)
  have hnot : ¬ReadsBack quotedRealm := by
    unfold ReadsBack
    decide
  exact hnot hread

end QuMesh.Wsman
