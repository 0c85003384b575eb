import QuMesh.Wsman.Client

/-!
# The text of a response

What the client's text functions make of a text that was put together from
its parts: lines come apart at their ends, a field at its colon, a status line
at its spaces, and a numeral is its value as long as that fits in 64 bits. An
index that was found stays where it is, whatever comes behind.
-/

namespace QuMesh.Wsman

open QuMesh.Lib

/-! ## Finding -/

theorem indexOf_le {needle b : Bytes} {i : Nat}
    (h : indexOf needle b = some i) : i + needle.length ≤ b.length := by
  induction b generalizing i with
  | nil =>
      rw [indexOf] at h
      split at h
      · next hnil =>
          cases h
          rw [hnil]
          exact Nat.le_refl 0
      · cases h
  | cons c b ih =>
      rw [indexOf] at h
      split at h
      · next hprefix =>
          cases h
          have := (List.isPrefixOf_iff_prefix.mp hprefix).length_le
          omega
      · obtain ⟨j, hj, rfl⟩ := Option.map_eq_some_iff.mp h
        have := ih hj
        rw [List.length_cons]
        omega

/-- What was found stays where it is. -/
theorem indexOf_append {needle b : Bytes} {i : Nat}
    (h : indexOf needle b = some i) (t : Bytes) :
    indexOf needle (b ++ t) = some i := by
  induction b generalizing i with
  | nil =>
      rw [indexOf] at h
      split at h
      · next hnil =>
          cases h
          rw [hnil]
          cases t with
          | nil => rfl
          | cons c t => rfl
      · cases h
  | cons c b ih =>
      rw [indexOf] at h
      rw [List.cons_append, indexOf]
      split at h
      · next hprefix =>
          have hlong : needle <+: c :: (b ++ t) :=
            (List.isPrefixOf_iff_prefix.mp hprefix).trans
              (List.prefix_append (c :: b) t)
          rw [if_pos (List.isPrefixOf_iff_prefix.mpr hlong)]
          exact h
      · next hprefix =>
          obtain ⟨j, hj, rfl⟩ := Option.map_eq_some_iff.mp h
          -- the needle is in the rest, so the string is long enough for it
          have hle := indexOf_le hj
          have hnot : ¬needle.isPrefixOf (c :: (b ++ t)) = true := by
            intro hlong
            refine hprefix (List.isPrefixOf_iff_prefix.mpr ?_)
            refine List.prefix_of_prefix_length_le
              (List.isPrefixOf_iff_prefix.mp hlong)
              (List.prefix_append (c :: b) t) ?_
            rw [List.length_cons]
            omega
          rw [if_neg hnot, ih hj]
          rfl

/-- What is found later is not there yet. -/
theorem indexOf_none_of_short {needle p q : Bytes} {i : Nat}
    (h : indexOf needle (p ++ q) = some i)
    (hshort : p.length < i + needle.length) : indexOf needle p = none := by
  cases hp : indexOf needle p with
  | none => rfl
  | some j =>
      have hle := indexOf_le hp
      rw [indexOf_append hp q] at h
      cases h
      omega

theorem indexOf_skip {c : UInt8} {l : Bytes} (h : c ∉ l) (needle t : Bytes) :
    indexOf (c :: needle) (l ++ t) =
      (indexOf (c :: needle) t).map (· + l.length) := by
  induction l with
  | nil => simp
  | cons d l ih =>
      have hne : c ≠ d := fun hcd => h (hcd ▸ List.mem_cons_self)
      have hnot : ¬(c :: needle).isPrefixOf (d :: (l ++ t)) = true := by
        rw [List.isPrefixOf_iff_prefix, List.cons_prefix_cons]
        exact fun hd => hne hd.1
      rw [List.cons_append, indexOf, if_neg hnot,
        ih fun hl => h (List.mem_cons_of_mem d hl), Option.map_map]
      rfl

theorem indexOf_here (needle t : Bytes) :
    indexOf needle (needle ++ t) = some 0 := by
  cases needle with
  | nil =>
      cases t with
      | nil => rfl
      | cons c t => rfl
  | cons c needle =>
      have hprefix : (c :: needle).isPrefixOf (c :: (needle ++ t)) = true :=
        List.isPrefixOf_iff_prefix.mpr (List.prefix_append (c :: needle) t)
      rw [List.cons_append, indexOf, if_pos hprefix]

theorem indexOfInt_le {needle b : Bytes} {i : Nat}
    (h : indexOfInt needle b = some i) : i + needle.length ≤ b.length := by
  obtain ⟨j, hj, hi⟩ := Option.bind_eq_some_iff.mp h
  have hle := indexOf_le hj
  split at hi
  · cases hi
    have := Nat.mod_le j (2 ^ 32)
    omega
  · cases hi

theorem indexOfInt_append {needle b : Bytes} {i : Nat}
    (h : indexOfInt needle b = some i) (t : Bytes) :
    indexOfInt needle (b ++ t) = some i := by
  obtain ⟨j, hj, hi⟩ := Option.bind_eq_some_iff.mp h
  rw [indexOfInt, indexOf_append hj t]
  exact hi

theorem indexOfInt_some {needle b : Bytes} {i : Nat}
    (h : indexOf needle b = some i) (hi : i < 2 ^ 31) :
    indexOfInt needle b = some i := by
  rw [indexOfInt, h, Option.bind_some, Nat.mod_eq_of_lt (by omega), if_pos hi]

theorem indexOfInt_none {needle b : Bytes} (h : indexOf needle b = none) :
    indexOfInt needle b = none := by
  rw [indexOfInt, h, Option.bind_none]

/-! ## Lines -/

def crlf : Bytes := [0x0D, 0x0A]

/-- No line end, nor half of one. -/
def OneLine (line : Bytes) : Prop := 0x0D ∉ line ∧ 0x0A ∉ line

theorem OneLine.append {a b : Bytes} (ha : OneLine a) (hb : OneLine b) :
    OneLine (a ++ b) :=
  ⟨fun h => (List.mem_append.mp h).elim ha.1 hb.1,
    fun h => (List.mem_append.mp h).elim ha.2 hb.2⟩

theorem indexOf_crlf {line : Bytes} (h : OneLine line) (t : Bytes) :
    indexOf crlf (line ++ (crlf ++ t)) = some line.length := by
  rw [crlf, indexOf_skip h.1, ← crlf, indexOf_here]
  simp

theorem splitOn_last {sep : UInt8} {l : Bytes} (h : sep ∉ l) :
    splitOn sep l = [l] := by
  induction l with
  | nil => rfl
  | cons c l ih =>
      have hne : c ≠ sep := fun hc => h (hc ▸ List.mem_cons_self)
      rw [splitOn, if_neg hne, ih fun hl => h (List.mem_cons_of_mem c hl)]

theorem splitOn_append {sep : UInt8} {l : Bytes} (h : sep ∉ l) (t : Bytes) :
    splitOn sep (l ++ sep :: t) = l :: splitOn sep t := by
  induction l with
  | nil => rw [List.nil_append, splitOn, if_pos rfl]
  | cons c l ih =>
      have hne : c ≠ sep := fun hc => h (hc ▸ List.mem_cons_self)
      rw [List.cons_append, splitOn, if_neg hne,
        ih fun hl => h (List.mem_cons_of_mem c hl)]

theorem chopCr_append (line : Bytes) : chopCr (line ++ [0x0D]) = line := by
  rw [chopCr, List.getLast?_concat, if_pos rfl, List.dropLast_concat]

theorem chopCr_of_oneLine {line : Bytes} (h : OneLine line) :
    chopCr line = line := by
  refine if_neg fun hlast => ?_
  exact h.1 (List.mem_of_getLast? hlast)

/-- Lines, with a line end between any two. -/
def joined (line : Bytes) (lines : List Bytes) : Bytes :=
  line ++ lines.flatMap (crlf ++ ·)

theorem splitOn_joined {line : Bytes} {lines : List Bytes} (h : OneLine line)
    (hs : ∀ l ∈ lines, OneLine l) :
    (splitOn 0x0A (joined line lines)).map chopCr = line :: lines := by
  induction lines generalizing line with
  | nil =>
      rw [joined, List.flatMap_nil, List.append_nil, splitOn_last h.2,
        List.map_singleton, chopCr_of_oneLine h]
  | cons l lines ih =>
      have hl := hs l List.mem_cons_self
      have hcut : joined line (l :: lines) =
          (line ++ [0x0D]) ++ 0x0A :: joined l lines := by
        simp only [joined, List.flatMap_cons, crlf, List.append_assoc,
          List.cons_append, List.nil_append]
      have hnot : (0x0A : UInt8) ∉ line ++ [0x0D] := by
        rw [List.mem_append, List.mem_singleton]
        exact fun hor => hor.elim h.2 (by decide)
      rw [hcut, splitOn_append hnot, List.map_cons, chopCr_append,
        ih hl fun m hm => hs m (List.mem_cons_of_mem l hm)]

/-- The first empty line is the one behind them all. -/
theorem indexOf_joined {line : Bytes} {lines : List Bytes} (h : OneLine line)
    (hs : ∀ l ∈ lines, OneLine l ∧ l ≠ []) (t : Bytes) :
    indexOf (crlf ++ crlf) (joined line lines ++ (crlf ++ crlf ++ t)) =
      some (joined line lines).length := by
  have hblank : crlf ++ crlf = 0x0D :: [0x0A, 0x0D, 0x0A] := rfl
  induction lines generalizing line with
  | nil =>
      rw [joined, List.flatMap_nil, List.append_nil, hblank, indexOf_skip h.1,
        indexOf_here]
      simp
  | cons l lines ih =>
      obtain ⟨hl, hne⟩ := hs l List.mem_cons_self
      have hrest := ih hl fun m hm => hs m (List.mem_cons_of_mem l hm)
      obtain ⟨c, l, rfl⟩ := List.exists_cons_of_ne_nil hne
      have hc : ¬(crlf ++ crlf).isPrefixOf
          (0x0D :: 0x0A :: (joined (c :: l) lines ++ (crlf ++ crlf ++ t))) =
          true := by
        intro hprefix
        have hsame : (0x0D : UInt8) = c :=
          (by simpa [hblank, joined] using hprefix : _ ∧ _).1
        exact hl.1 (hsame ▸ List.mem_cons_self)
      have hcut : joined line ((c :: l) :: lines) ++ (crlf ++ crlf ++ t) =
          line ++ (0x0D :: 0x0A ::
            (joined (c :: l) lines ++ (crlf ++ crlf ++ t))) := by
        simp only [joined, List.flatMap_cons, crlf, List.append_assoc,
          List.cons_append, List.nil_append]
      have hfeed : indexOf (crlf ++ crlf) ([0x0A] ++
          (joined (c :: l) lines ++ (crlf ++ crlf ++ t))) =
          some ((joined (c :: l) lines).length + 1) := by
        rw [hblank, indexOf_skip (by decide), ← hblank, hrest]
        rfl
      have hlen : (joined line ((c :: l) :: lines)).length =
          (joined (c :: l) lines).length + 1 + 1 + line.length := by
        simp only [joined, List.flatMap_cons, crlf, List.length_append,
          List.length_cons, List.length_nil]
        omega
      rw [hcut, hblank, indexOf_skip h.1, ← hblank, indexOf, if_neg hc,
        ← List.singleton_append, hfeed, hlen]
      rfl

/-! ## Numerals -/

/-- Digits and nothing else, and what they say. -/
def Numeral (base : Nat) (text : Bytes) (n : Nat) : Prop :=
  text ≠ [] ∧ digits base 0 text = some n

instance (base : Nat) (text : Bytes) (n : Nat) :
    Decidable (Numeral base text n) :=
  inferInstanceAs (Decidable (_ ∧ _))

/-- A hexadecimal digit. -/
def IsDigit (c : UInt8) : Prop :=
  (0x30 ≤ c.toNat ∧ c.toNat ≤ 0x39) ∨ (0x41 ≤ c.toNat ∧ c.toNat ≤ 0x46) ∨
    (0x61 ≤ c.toNat ∧ c.toNat ≤ 0x66)

instance (c : UInt8) : Decidable (IsDigit c) :=
  inferInstanceAs (Decidable (_ ∨ _ ∨ _))

theorem IsDigit.ne {c d : UInt8} (h : IsDigit c) (hd : ¬IsDigit d) : c ≠ d :=
  fun hcd => hd (hcd ▸ h)

theorem isDigit_of_digit {base : Nat} (hbase : base ≤ 16) {c : UInt8} {d : Nat}
    (h : digit base c = some d) : IsDigit c := by
  rw [digit] at h
  rw [IsDigit]
  by_cases hdec : 0x30 ≤ c.toNat ∧ c.toNat ≤ 0x39
  · exact .inl hdec
  · rw [if_neg hdec] at h
    by_cases hlow : 0x61 ≤ c.toNat ∧ c.toNat ≤ 0x7A
    · rw [if_pos hlow] at h
      split at h
      · omega
      · cases h
    · rw [if_neg hlow] at h
      by_cases hup : 0x41 ≤ c.toNat ∧ c.toNat ≤ 0x5A
      · rw [if_pos hup] at h
        split at h
        · omega
        · cases h
      · rw [if_neg hup, if_neg (Nat.lt_irrefl base)] at h
        cases h

theorem IsDigit.not_space {c : UInt8} (h : IsDigit c) : isSpace c = false := by
  have hblank := h.ne (d := 0x20) (by decide)
  rw [IsDigit] at h
  rw [isSpace, beq_false_of_ne hblank, Bool.false_or, Bool.and_eq_false_iff]
  right
  rw [decide_eq_false_iff_not, UInt8.le_iff_toNat_le]
  show ¬c.toNat ≤ 0x0D
  omega

theorem isDigit_of_digits {base : Nat} (hbase : base ≤ 16) {acc n : Nat}
    {text : Bytes} (h : digits base acc text = some n) :
    ∀ c ∈ text, IsDigit c := by
  induction text generalizing acc with
  | nil => simp
  | cons c text ih =>
      rw [digits] at h
      split at h
      · cases h
      · next d hd =>
          intro e he
          rcases List.mem_cons.mp he with rfl | he
          · exact isDigit_of_digit hbase hd
          · exact ih h e he

/-- A numeral is its value, where that fits. -/
theorem toLongLong_numeral {base : Nat} (hbase : base ≤ 16) {text : Bytes}
    {n : Nat} (h : Numeral base text n) :
    toLongLong base text = if n < 2 ^ 63 then some (n : Int) else none := by
  obtain ⟨hne, hvalue⟩ := h
  have hall := isDigit_of_digits hbase hvalue
  obtain ⟨c, rest, rfl⟩ := List.exists_cons_of_ne_nil hne
  have hc := hall c List.mem_cons_self
  have hspace : (c :: rest).dropWhile isSpace = c :: rest := by
    rw [List.dropWhile_cons, hc.not_space]
    rfl
  have hminus : ¬(c :: rest).head? = some 0x2D := by
    rw [List.head?_cons, Option.some_inj]
    exact hc.ne (by decide)
  have hplus : ¬(c :: rest).head? = some 0x2B := by
    rw [List.head?_cons, Option.some_inj]
    exact hc.ne (by decide)
  -- the second character is a digit, and no `x`
  have hprefix : ¬(base = 16 ∧ toLower ((c :: rest).take 2) = ascii "0x") := by
    rintro ⟨-, hx⟩
    rcases rest with - | ⟨d, rest⟩
    · exact absurd (congrArg List.length hx) (by simp [toLower, ascii])
    · have hd := hall d (List.mem_cons_of_mem c List.mem_cons_self)
      have hlower : (if 0x41 ≤ d ∧ d ≤ 0x5A then d + 0x20 else d) = 0x78 :=
        (List.cons.inj (List.cons.inj hx).2).1
      split at hlower
      · next hup =>
          have : d = 0x58 := by
            have := congrArg (· - 0x20) hlower
            simpa using this
          exact hd.ne (by decide) this
      · exact hd.ne (by decide) hlower
  rw [toLongLong]
  simp only [hspace, hminus, hplus, decide_false, Bool.false_eq_true, or_self,
    if_false, hprefix, hvalue, reduceCtorEq]
  by_cases hfits : n < 2 ^ 63
  · rw [if_pos hfits, if_pos (by omega)]
  · rw [if_neg hfits, if_neg (by omega)]

theorem toInt_numeral {text : Bytes} {n : Nat} (h : Numeral 10 text n)
    (hn : n < 2 ^ 31) : toInt text = n := by
  rw [toInt, toLongLong_numeral (by omega) h, if_pos (by omega)]
  exact if_pos (by omega)

theorem Numeral.oneLine {base : Nat} (hbase : base ≤ 16) {text : Bytes}
    {n : Nat} (h : Numeral base text n) : OneLine text :=
  ⟨fun hc => (isDigit_of_digits hbase h.2 _ hc).ne (by decide) rfl,
    fun hc => (isDigit_of_digits hbase h.2 _ hc).ne (by decide) rfl⟩

/-! ## Fields -/

/-- A name: no colon in it and no white space. -/
def FieldToken (name : Bytes) : Prop := ∀ c ∈ name, c ≠ 0x3A ∧ isSpace c = false

instance (name : Bytes) : Decidable (FieldToken name) :=
  inferInstanceAs (Decidable (∀ c ∈ name, _))

instance (line : Bytes) : Decidable (OneLine line) :=
  inferInstanceAs (Decidable (_ ∧ _))

theorem trimmed_of_noSpace {name : Bytes} (h : ∀ c ∈ name, isSpace c = false) :
    trimmed name = name := by
  have hkeep {l : Bytes} (hl : ∀ c ∈ l, isSpace c = false) :
      l.dropWhile isSpace = l := by
    cases l with
    | nil => rfl
    | cons c l =>
        rw [List.dropWhile_cons, hl c List.mem_cons_self]
        rfl
  rw [trimmed, hkeep h, hkeep fun c hc => h c (List.mem_reverse.mp hc),
    List.reverse_reverse]

theorem trimmed_token {name : Bytes} (h : FieldToken name) : trimmed name = name :=
  trimmed_of_noSpace fun c hc => (h c hc).2

/-- A header line, once its end is off. -/
def headerOf (line : Bytes) : Option (Bytes × Bytes) :=
  (indexOf [0x3A] line).map fun colon =>
    (toLower (trimmed (line.take colon)), trimmed (line.drop (colon + 1)))

theorem headerOf_field {name : Bytes} (h : FieldToken name) (value : Bytes) :
    headerOf (name ++ 0x3A :: value) = some (toLower name, trimmed value) := by
  have hcolon : (0x3A : UInt8) ∉ name := fun hc => (h _ hc).1 rfl
  have hfind : indexOf [0x3A] (name ++ 0x3A :: value) = some name.length := by
    have hhere : indexOf [0x3A] (0x3A :: value) = some 0 :=
      indexOf_here [0x3A] value
    rw [indexOf_skip hcolon, hhere, Option.map_some, Nat.zero_add]
  have hdrop : (name ++ 0x3A :: value).drop (name.length + 1) = value := by
    rw [List.drop_length_add_append]
    rfl
  rw [headerOf, hfind, Option.map_some, List.take_left, hdrop, trimmed_token h]

theorem headerOf_fields {fields : List (Bytes × Bytes)}
    (h : ∀ f ∈ fields, FieldToken f.1) :
    (fields.map fun f => f.1 ++ 0x3A :: f.2).filterMap headerOf =
      fields.map fun f => (toLower f.1, trimmed f.2) := by
  induction fields with
  | nil => rfl
  | cons f fields ih =>
      rw [List.map_cons, List.map_cons,
        List.filterMap_cons_some (headerOf_field (h f List.mem_cons_self) f.2),
        ih fun g hg => h g (List.mem_cons_of_mem f hg)]

theorem parseHead_eq {rawHeaders status : Bytes} {lines : List Bytes}
    (h : (splitOn 0x0A rawHeaders).map chopCr = status :: lines) :
    parseHead rawHeaders =
      (splitOn 0x20 status, lines.filterMap headerOf) := by
  obtain ⟨first, rest, hsplit, hfirst, hrest⟩ := List.map_eq_cons_iff.mp h
  rw [parseHead, hsplit, List.headD_cons, hfirst, List.drop_succ_cons,
    List.drop_zero, ← hrest, List.filterMap_map]
  rfl

/-- What the head of a response parses to. -/
theorem parseHead_joined {status : Bytes} (hstatus : OneLine status)
    {fields : List (Bytes × Bytes)}
    (h : ∀ f ∈ fields, FieldToken f.1 ∧ OneLine (f.1 ++ 0x3A :: f.2)) :
    parseHead (joined status (fields.map fun f => f.1 ++ 0x3A :: f.2)) =
      (splitOn 0x20 status,
        fields.map fun f => (toLower f.1, trimmed f.2)) := by
  have hlines : ∀ l ∈ fields.map fun f => f.1 ++ 0x3A :: f.2, OneLine l := by
    intro l hl
    obtain ⟨f, hf, rfl⟩ := List.mem_map.mp hl
    exact (h f hf).2
  rw [parseHead_eq (splitOn_joined hstatus hlines),
    headerOf_fields fun f hf => (h f hf).1]

theorem FieldToken.oneLine {name : Bytes} (h : FieldToken name) : OneLine name :=
  ⟨fun hc => absurd (h _ hc).2 (by decide),
    fun hc => absurd (h _ hc).2 (by decide)⟩

theorem value_none {key : Bytes} {headers : Headers}
    (h : ∀ p ∈ headers, p.1 ≠ key) : headers.value key = [] := by
  have hfind : headers.reverse.find? (fun p => p.1 == key) = none := by
    rw [List.find?_eq_none]
    intro p hp
    rw [beq_iff_eq]
    exact h p (List.mem_reverse.mp hp)
  rw [Headers.value, hfind]
  rfl

/-- The last one under a key is its value. -/
theorem value_last {key : Bytes} {p : Bytes × Bytes} (hp : p.1 = key)
    {after : Headers} (h : ∀ q ∈ after, q.1 ≠ key) (before : Headers) :
    Headers.value key (before ++ p :: after) = p.2 := by
  have hnone : after.reverse.find? (fun p => p.1 == key) = none := by
    rw [List.find?_eq_none]
    intro q hq
    rw [beq_iff_eq]
    exact h q (List.mem_reverse.mp hq)
  have hhit : (p.1 == key) = true := beq_iff_eq.mpr hp
  rw [Headers.value, List.reverse_append, List.reverse_cons, List.append_assoc,
    List.find?_append, hnone, Option.none_or, List.singleton_append,
    List.find?_cons, hhit]
  rfl

/-- The value of a key that is there is one of those it was given. -/
theorem value_mem {key : Bytes} {headers : Headers}
    (h : ∃ p ∈ headers, p.1 = key) :
    ∃ p ∈ headers, p.1 = key ∧ headers.value key = p.2 := by
  cases hfind : headers.reverse.find? (fun p => p.1 == key) with
  | none =>
      obtain ⟨p, hp, hkey⟩ := h
      rw [List.find?_eq_none] at hfind
      exact absurd (beq_iff_eq.mpr hkey) (hfind p (List.mem_reverse.mpr hp))
  | some p =>
      refine ⟨p, List.mem_reverse.mp (List.mem_of_find?_eq_some hfind), ?_, ?_⟩
      · exact beq_iff_eq.mp (List.find?_some (p := fun q : Bytes × Bytes => q.1 == key)
          hfind)
      · rw [Headers.value, hfind]
        rfl

theorem indexOf_of_suffix {needle b : Bytes} (h : needle <:+ b) :
    (indexOf needle b).isSome = true := by
  obtain ⟨before, rfl⟩ := h
  induction before with
  | nil =>
      have := indexOf_here needle []
      rw [List.append_nil] at this
      rw [List.nil_append, this]
      rfl
  | cons c before ih =>
      rw [List.cons_append, indexOf]
      split
      · rfl
      · rw [Option.isSome_map]
        exact ih

end QuMesh.Wsman
