import QuMesh.Lib.Json
import QuMesh.Lib.Hex

/-!
# JSON text

The printer lays values out in the two ways Qt has: compact, and indented by
four blanks a level with every item on a line of its own. The parser reads what
the printer writes, and blanks wherever they may stand; of the escapes in a
string it knows those the printer uses.

That printed text parses to the value it was printed from is an induction over
the value, one statement for each of the three mutually recursive printers,
with an arbitrary rest behind the text. All the rest must not do is go on with
a digit, where the text ends in a number.
-/

namespace QuMesh.Lib

namespace Json

/-! ## Printing -/

/-- A byte inside quotes. -/
def escape (x : UInt8) : Bytes :=
  if x = 0x22 then [0x5C, 0x22]
  else if x = 0x5C then [0x5C, 0x5C]
  else if x = 0x08 then [0x5C, 0x62]
  else if x = 0x0C then [0x5C, 0x66]
  else if x = 0x0A then [0x5C, 0x6E]
  else if x = 0x0D then [0x5C, 0x72]
  else if x = 0x09 then [0x5C, 0x74]
  else if x < 0x20 then [0x5C, 0x75, 0x30, 0x30] ++ hexLower 2 x.toNat
  else [x]

def quote (b : Bytes) : Bytes := 0x22 :: b.flatMap escape ++ [0x22]

/-- Decimal digits, without leading zeros; a number has no more digits than
the number itself. -/
def decimalLoop : Nat → Nat → Bytes
  | 0, _ => []
  | fuel + 1, n =>
      (if n < 10 then [] else decimalLoop fuel (n / 10)) ++
        [UInt8.ofNat (0x30 + n % 10)]

def decimal (n : Nat) : Bytes := decimalLoop (n + 1) n

def printInt : Int → Bytes
  | .ofNat n => decimal n
  | .negSucc n => 0x2D :: decimal (n + 1)

/-- The blanks in front of an item. -/
def margin (compact : Bool) (level : Nat) : Bytes :=
  if compact then [] else List.replicate (4 * level) 0x20

def newline (compact : Bool) : Bytes := if compact then [] else [0x0A]

/-- Between a key and its value. -/
def colon (compact : Bool) : Bytes := if compact then [0x3A] else [0x3A, 0x20]

/-- After an item: a comma where another follows. -/
def separator (compact last : Bool) : Bytes :=
  (if last then [] else [0x2C]) ++ newline compact

def keyBytes (k : String) : Bytes := k.toByteArray.data.toList

mutual

def printAt (compact : Bool) (level : Nat) : Json → Bytes
  | .null => [0x6E, 0x75, 0x6C, 0x6C]
  | .bool true => [0x74, 0x72, 0x75, 0x65]
  | .bool false => [0x66, 0x61, 0x6C, 0x73, 0x65]
  | .int n => printInt n
  | .fraction => [0x30, 0x2E, 0x35]
  | .str t => quote t.utf8
  | .arr items =>
      0x5B :: newline compact ++ printItems compact (level + 1) items ++
        margin compact level ++ [0x5D]
  | .obj fields =>
      0x7B :: newline compact ++ printFields compact (level + 1) fields ++
        margin compact level ++ [0x7D]

def printItems (compact : Bool) (level : Nat) : List Json → Bytes
  | [] => []
  | v :: rest =>
      margin compact level ++ printAt compact level v ++
        separator compact rest.isEmpty ++ printItems compact level rest

def printFields (compact : Bool) (level : Nat) : List (String × Json) → Bytes
  | [] => []
  | (k, v) :: rest =>
      margin compact level ++ quote (keyBytes k) ++ colon compact ++
        printAt compact level v ++ separator compact rest.isEmpty ++
        printFields compact level rest

end

/-- A document. -/
def print (compact : Bool) (j : Json) : Bytes :=
  printAt compact 0 j ++ newline compact

/-! ## Parsing -/

def isBlank (x : UInt8) : Bool := x = 0x20 || x = 0x0A || x = 0x0D || x = 0x09

def skip (b : Bytes) : Bytes := b.dropWhile isBlank

def isDigit (x : UInt8) : Bool := 0x30 ≤ x && x ≤ 0x39

/-- The escapes that are one character long. -/
def shortEscape (x : UInt8) : Option UInt8 :=
  if x = 0x22 then some 0x22
  else if x = 0x5C then some 0x5C
  else if x = 0x62 then some 0x08
  else if x = 0x66 then some 0x0C
  else if x = 0x6E then some 0x0A
  else if x = 0x72 then some 0x0D
  else if x = 0x74 then some 0x09
  else none

/-- What is inside quotes, and what follows the closing one. -/
def scanQuoted : Bytes → Option (Bytes × Bytes)
  | [] => none
  | 0x22 :: rest => some ([], rest)
  | 0x5C :: 0x75 :: 0x30 :: 0x30 :: hi :: lo :: rest =>
      match fromHex [hi, lo] with
      | [x] => (scanQuoted rest).map fun r => (x :: r.1, r.2)
      | _ => none
  | 0x5C :: x :: rest =>
      match shortEscape x with
      | some y => (scanQuoted rest).map fun r => (y :: r.1, r.2)
      | none => none
  | x :: rest => (scanQuoted rest).map fun r => (x :: r.1, r.2)

def parseText (b : Bytes) : Option (Text × Bytes) :=
  match scanQuoted b with
  | some (utf8, rest) =>
      if h : WellFormed utf8 then some (⟨utf8, h⟩, rest) else none
  | none => none

def parseKey (b : Bytes) : Option (String × Bytes) :=
  match scanQuoted b with
  | some (utf8, rest) =>
      if h : ByteArray.IsValidUTF8 ⟨utf8.toArray⟩ then
        some (String.ofByteArray ⟨utf8.toArray⟩ h, rest)
      else none
  | none => none

def digitsValue (b : Bytes) : Nat :=
  b.foldl (fun acc x => acc * 10 + (x.toNat - 0x30)) 0

/-- A number with a fraction or an exponent is none of the integers. -/
def isNumeric (x : UInt8) : Bool :=
  isDigit x || x = 0x2E || x = 0x2D || x = 0x2B || x = 0x65 || x = 0x45

def parseNumber (b : Bytes) : Option (Json × Bytes) :=
  let run := b.takeWhile isNumeric
  let rest := b.dropWhile isNumeric
  match run with
  | [] => none
  | 0x2D :: tail =>
      if tail.isEmpty then none
      else if tail.all isDigit then some (.int (-digitsValue tail), rest)
      else some (.fraction, rest)
  | run =>
      if run.all isDigit then some (.int (digitsValue run), rest)
      else some (.fraction, rest)

mutual

def parseValue : Nat → Bytes → Option (Json × Bytes)
  | 0, _ => none
  | fuel + 1, b =>
      match skip b with
      | 0x22 :: rest => (parseText rest).map fun r => (.str r.1, r.2)
      | 0x5B :: rest =>
          match skip rest with
          | 0x5D :: rest => some (.arr [], rest)
          | _ => (parseItems fuel rest).map fun r => (.arr r.1, r.2)
      | 0x7B :: rest =>
          match skip rest with
          | 0x7D :: rest => some (.obj [], rest)
          | _ => (parseFields fuel rest).map fun r => (.obj r.1, r.2)
      | 0x6E :: 0x75 :: 0x6C :: 0x6C :: rest => some (.null, rest)
      | 0x74 :: 0x72 :: 0x75 :: 0x65 :: rest => some (.bool true, rest)
      | 0x66 :: 0x61 :: 0x6C :: 0x73 :: 0x65 :: rest =>
          some (.bool false, rest)
      | b => parseNumber b

/-- One value at least, up to the closing bracket. -/
def parseItems : Nat → Bytes → Option (List Json × Bytes)
  | 0, _ => none
  | fuel + 1, b =>
      match parseValue fuel b with
      | none => none
      | some (v, rest) =>
          match skip rest with
          | 0x2C :: rest =>
              (parseItems fuel rest).map fun r => (v :: r.1, r.2)
          | 0x5D :: rest => some ([v], rest)
          | _ => none

def parseFields : Nat → Bytes → Option (List (String × Json) × Bytes)
  | 0, _ => none
  | fuel + 1, b =>
      match skip b with
      | 0x22 :: rest =>
          match parseKey rest with
          | none => none
          | some (k, rest) =>
              match skip rest with
              | 0x3A :: rest =>
                  match parseValue fuel rest with
                  | none => none
                  | some (v, rest) =>
                      match skip rest with
                      | 0x2C :: rest =>
                          (parseFields fuel rest).map fun r =>
                            ((k, v) :: r.1, r.2)
                      | 0x7D :: rest => some ([(k, v)], rest)
                      | _ => none
              | _ => none
      | _ => none

end

def parse (b : Bytes) : Except String Json :=
  match parseValue (b.length + 1) b with
  | some (v, rest) =>
      if (skip rest).isEmpty then .ok v
      else .error "garbage at the end of the document"
  | none => .error "illegal value"

/-! ## What is in quotes -/

/-- The two digits of a control character in a string. -/
theorem scanQuoted_control (x : UInt8) (t : Bytes) :
    scanQuoted ([0x5C, 0x75, 0x30, 0x30] ++ hexLower 2 x.toNat ++ t) =
      (scanQuoted t).map fun r => (x :: r.1, r.2) := by
  obtain ⟨hi, lo, hpair⟩ : ∃ hi lo, hexLower 2 x.toNat = [hi, lo] :=
    ⟨_, _, rfl⟩
  have hread := fromHex_toHex [x]
  rw [toHex_cons, hpair] at hread
  rw [hpair]
  change scanQuoted (0x5C :: 0x75 :: 0x30 :: 0x30 :: hi :: lo :: t) = _
  rw [scanQuoted]
  change fromHex [hi, lo] = [x] at hread
  rw [hread]

theorem scanQuoted_escape (x : UInt8) (t : Bytes) :
    scanQuoted (escape x ++ t) =
      (scanQuoted t).map fun r => (x :: r.1, r.2) := by
  unfold escape
  split
  · next h => subst h; rfl
  · next hquote =>
    split
    · next h => subst h; rfl
    · next hslash =>
      split
      · next h => subst h; rfl
      split
      · next h => subst h; rfl
      split
      · next h => subst h; rfl
      split
      · next h => subst h; rfl
      split
      · next h => subst h; rfl
      split
      · exact scanQuoted_control x t
      · change scanQuoted (x :: t) = _
        rw [scanQuoted]
        · exact hquote
        · exact fun _ _ _ hx _ => hslash hx
        · exact fun _ _ hx _ => hslash hx

theorem scanQuoted_quoted (b rest : Bytes) :
    scanQuoted (b.flatMap escape ++ 0x22 :: rest) = some (b, rest) := by
  induction b with
  | nil => rfl
  | cons x b ih =>
      rw [List.flatMap_cons, List.append_assoc, scanQuoted_escape, ih]
      rfl

theorem parseText_quoted (t : Text) (rest : Bytes) :
    parseText (t.utf8.flatMap escape ++ 0x22 :: rest) = some (t, rest) := by
  rw [parseText, scanQuoted_quoted]
  exact dif_pos t.valid

theorem parseKey_quoted (k : String) (rest : Bytes) :
    parseKey ((keyBytes k).flatMap escape ++ 0x22 :: rest) =
      some (k, rest) := by
  rw [parseKey, scanQuoted_quoted]
  exact dif_pos k.isValidUTF8
  
/-! ## Blanks -/

theorem skip_blanks {b : Bytes} (h : ∀ x ∈ b, isBlank x = true) (t : Bytes) :
    skip (b ++ t) = skip t := List.dropWhile_append_of_pos h

theorem skip_cons {x : UInt8} (h : isBlank x = false) (t : Bytes) :
    skip (x :: t) = x :: t := by
  rw [skip, List.dropWhile_cons_of_neg (by simp [h])]

theorem blank_margin (compact : Bool) (level : Nat) :
    ∀ x ∈ margin compact level, isBlank x = true := by
  intro x hx
  unfold margin at hx
  split at hx
  · cases hx
  · rw [List.eq_of_mem_replicate hx]
    rfl

theorem blank_newline (compact : Bool) :
    ∀ x ∈ newline compact, isBlank x = true := by
  cases compact <;> simp [newline, isBlank]

/-! ## Numbers -/

theorem isDigit_digit (n : Nat) :
    isDigit (UInt8.ofNat (0x30 + n % 10)) = true := by
  have hall : ∀ d < 10, isDigit (UInt8.ofNat (0x30 + d)) = true := by decide
  exact hall _ (Nat.mod_lt _ (by omega))

theorem isDigit_decimalLoop (fuel n : Nat) :
    ∀ x ∈ decimalLoop fuel n, isDigit x = true := by
  induction fuel generalizing n with
  | zero => simp [decimalLoop]
  | succ fuel ih =>
      intro x hx
      rw [decimalLoop, List.mem_append] at hx
      rcases hx with hx | hx
      · split at hx
        · cases hx
        · exact ih _ x hx
      · rw [List.mem_singleton.mp hx]
        exact isDigit_digit n

theorem digitsValue_snoc (b : Bytes) (n : Nat) :
    digitsValue (b ++ [UInt8.ofNat (0x30 + n % 10)]) =
      digitsValue b * 10 + n % 10 := by
  have hall : ∀ d < 10, (UInt8.ofNat (0x30 + d)).toNat - 0x30 = d := by decide
  rw [digitsValue, List.foldl_append, List.foldl_cons, List.foldl_nil,
    hall _ (Nat.mod_lt _ (by omega)), digitsValue]

theorem digitsValue_decimalLoop {fuel n : Nat} (h : n < fuel) :
    digitsValue (decimalLoop fuel n) = n := by
  induction fuel generalizing n with
  | zero => omega
  | succ fuel ih =>
      rw [decimalLoop, digitsValue_snoc]
      split
      · simp only [digitsValue, List.foldl_nil]
        omega
      · rw [ih (by omega)]
        omega

theorem decimal_ne_nil (n : Nat) : decimal n ≠ [] := by
  simp [decimal, decimalLoop]

/-- The rest does not go on with a number. -/
def Ends (rest : Bytes) : Prop := ∀ x ∈ rest.head?, isNumeric x = false

theorem Ends.cons {x : UInt8} (h : isNumeric x = false) (t : Bytes) :
    Ends (x :: t) := by
  rintro y ⟨⟩
  exact h

theorem numeric_run {b rest : Bytes} (hb : ∀ x ∈ b, isNumeric x = true)
    (h : Ends rest) :
    (b ++ rest).takeWhile isNumeric = b ∧
      (b ++ rest).dropWhile isNumeric = rest := by
  rw [List.takeWhile_append_of_pos hb, List.dropWhile_append_of_pos hb]
  cases rest with
  | nil => simp
  | cons x rest =>
      have hx := h x rfl
      rw [List.takeWhile_cons_of_neg (by simp [hx]),
        List.dropWhile_cons_of_neg (by simp [hx]), List.append_nil]
      exact ⟨rfl, rfl⟩

theorem isNumeric_of_isDigit {x : UInt8} (h : isDigit x = true) :
    isNumeric x = true := by
  simp [isNumeric, h]

theorem isDigit_decimal (n : Nat) : ∀ x ∈ decimal n, isDigit x = true :=
  isDigit_decimalLoop _ _

theorem digitsValue_decimal (n : Nat) : digitsValue (decimal n) = n :=
  digitsValue_decimalLoop (Nat.lt_succ_self n)

theorem parseNumber_printInt (n : Int) {rest : Bytes} (h : Ends rest) :
    parseNumber (printInt n ++ rest) = some (.int n, rest) := by
  have hnumeric : ∀ k, ∀ x ∈ decimal k, isNumeric x = true :=
    fun k x hx => isNumeric_of_isDigit (isDigit_decimal k x hx)
  have hdigits : ∀ k, (decimal k).all isDigit = true :=
    fun k => List.all_eq_true.mpr (isDigit_decimal k)
  unfold parseNumber
  cases n with
  | ofNat k =>
      obtain ⟨htake, hdrop⟩ := numeric_run (hnumeric k) h
      simp only [printInt, htake, hdrop]
      split
      · next hnil => exact absurd hnil (decimal_ne_nil k)
      · next tail hcons =>
        have hminus := isDigit_decimal k 0x2D (by rw [hcons]; simp)
        cases hminus
      · rw [if_pos (hdigits k), digitsValue_decimal]
        rfl
  | negSucc k =>
      have hrun : ∀ x ∈ (0x2D :: decimal (k + 1) : Bytes),
          isNumeric x = true := by
        intro x hx
        rcases List.mem_cons.mp hx with rfl | hx
        · rfl
        · exact hnumeric _ x hx
      obtain ⟨htake, hdrop⟩ := numeric_run hrun h
      simp only [printInt, htake, hdrop]
      rw [if_neg (by simp [decimal_ne_nil]), if_pos (hdigits _),
        digitsValue_decimal]
      rfl

theorem printInt_head (n : Int) :
    ∃ x t, printInt n = x :: t ∧ isNumeric x = true := by
  cases n with
  | negSucc k => exact ⟨_, _, rfl, rfl⟩
  | ofNat k =>
      cases hk : decimal k with
      | nil => exact absurd hk (decimal_ne_nil k)
      | cons x t =>
          have hx := isDigit_decimal k x (by rw [hk]; exact List.mem_cons_self)
          exact ⟨x, t, hk, isNumeric_of_isDigit hx⟩

set_option maxRecDepth 10000 in
theorem isNumeric_not {x : UInt8} (h : isNumeric x = true) :
    isBlank x = false ∧ x ≠ 0x22 ∧ x ≠ 0x5B ∧ x ≠ 0x5D ∧ x ≠ 0x7B ∧ x ≠ 0x7D ∧
      x ≠ 0x6E ∧ x ≠ 0x74 ∧ x ≠ 0x66 := by
  have hall : ∀ n < 256, isNumeric (UInt8.ofNat n) = true →
      isBlank (UInt8.ofNat n) = false ∧ UInt8.ofNat n ≠ 0x22 ∧
      UInt8.ofNat n ≠ 0x5B ∧ UInt8.ofNat n ≠ 0x5D ∧ UInt8.ofNat n ≠ 0x7B ∧
      UInt8.ofNat n ≠ 0x7D ∧ UInt8.ofNat n ≠ 0x6E ∧ UInt8.ofNat n ≠ 0x74 ∧
      UInt8.ofNat n ≠ 0x66 := by decide
  have hone := hall x.toNat x.toNat_lt
  rw [UInt8.ofNat_toNat] at hone
  exact hone h

theorem parseValue_blanks {b : Bytes} (h : ∀ x ∈ b, isBlank x = true)
    (fuel : Nat) (t : Bytes) :
    parseValue fuel (b ++ t) = parseValue fuel t := by
  cases fuel with
  | zero => rfl
  | succ fuel => rw [parseValue, skip_blanks h, parseValue]

theorem parseFields_blanks {b : Bytes} (h : ∀ x ∈ b, isBlank x = true)
    (fuel : Nat) (t : Bytes) :
    parseFields fuel (b ++ t) = parseFields fuel t := by
  cases fuel with
  | zero => rfl
  | succ fuel => rw [parseFields, skip_blanks h, parseFields]

theorem parseValue_number {x : UInt8} (h : isNumeric x = true) (fuel : Nat)
    (t : Bytes) : parseValue (fuel + 1) (x :: t) = parseNumber (x :: t) := by
  obtain ⟨hblank, h22, h5B, _, h7B, _, h6E, h74, h66⟩ := isNumeric_not h
  rw [parseValue, skip_cons hblank]
  split
  · next heq => cases heq; exact absurd rfl h22
  · next heq => cases heq; exact absurd rfl h5B
  · next heq => cases heq; exact absurd rfl h7B
  · next heq => cases heq; exact absurd rfl h6E
  · next heq => cases heq; exact absurd rfl h74
  · next heq => cases heq; exact absurd rfl h66
  · rfl

/-! ## Values -/

mutual

/-- How deep the parser has to go. -/
def weight : Json → Nat
  | .arr items => 1 + weights items
  | .obj fields => 1 + fieldWeights fields
  | _ => 1

def weights : List Json → Nat
  | [] => 0
  | v :: rest => 1 + weight v + weights rest

def fieldWeights : List (String × Json) → Nat
  | [] => 0
  | (_, v) :: rest => 1 + weight v + fieldWeights rest

end

/-- A printed value begins with what is neither a blank nor a bracket that
closes. -/
theorem printAt_head (compact : Bool) (level : Nat) (j : Json) :
    ∃ x t, printAt compact level j = x :: t ∧ isBlank x = false ∧ x ≠ 0x5D := by
  match j with
  | .null | .bool true | .bool false | .fraction | .str _ | .arr _ | .obj _ =>
      exact ⟨_, _, rfl, rfl, by decide⟩
  | .int n =>
      obtain ⟨x, t, ht, hx⟩ := printInt_head n
      have hnot := isNumeric_not hx
      exact ⟨x, t, ht, hnot.1, hnot.2.2.2.1⟩

theorem ends_blanks {b rest : Bytes} (hb : ∀ x ∈ b, isBlank x = true)
    (h : Ends rest) : Ends (b ++ rest) := by
  cases b with
  | nil => exact h
  | cons x b =>
      refine .cons ?_ _
      by_contra hx
      have hblank := hb x List.mem_cons_self
      rw [(isNumeric_not (by simpa using hx)).1] at hblank
      cases hblank

theorem parseItems_blanks {b : Bytes} (h : ∀ x ∈ b, isBlank x = true)
    (fuel : Nat) (t : Bytes) :
    parseItems fuel (b ++ t) = parseItems fuel t := by
  cases fuel with
  | zero => rfl
  | succ fuel => rw [parseItems, parseValue_blanks h, parseItems]

/-- Behind the last item stand blanks only. -/
theorem separator_last (compact : Bool) :
    separator compact true = newline compact := rfl

theorem separator_more (compact : Bool) :
    separator compact false = 0x2C :: newline compact := rfl

mutual

theorem parseValue_printAt (compact : Bool) (level : Nat) (j : Json)
    (fuel : Nat) (hfuel : weight j ≤ fuel) (rest : Bytes) (h : Ends rest) :
    parseValue fuel (printAt compact level j ++ rest) = some (j, rest) := by
  match fuel, j with
  | 0, .null | 0, .bool _ | 0, .int _ | 0, .fraction | 0, .str _ =>
      simp [weight] at hfuel
  | 0, .arr _ | 0, .obj _ => simp [weight] at hfuel
  | fuel + 1, .null | fuel + 1, .bool true | fuel + 1, .bool false => rfl
  | fuel + 1, .int n =>
      obtain ⟨x, t, ht, hx⟩ := printInt_head n
      have hread := parseNumber_printInt n h
      rw [ht] at hread
      rw [printAt, ht]
      exact (parseValue_number hx fuel _).trans hread
  | fuel + 1, .fraction =>
      have hrun : ∀ x ∈ ([0x30, 0x2E, 0x35] : Bytes), isNumeric x = true := by
        simp [isNumeric, isDigit]
      obtain ⟨htake, hdrop⟩ := numeric_run hrun h
      have hread : parseNumber ([0x30, 0x2E, 0x35] ++ rest) =
          some (.fraction, rest) := by
        unfold parseNumber
        simp only [htake, hdrop]
        rfl
      exact (parseValue_number rfl fuel _).trans hread
  | fuel + 1, .str t =>
      have hread := parseText_quoted t rest
      rw [printAt, quote, parseValue, List.append_assoc, List.cons_append,
        skip_cons rfl]
      simp only [List.singleton_append, hread, Option.map_some]
  | fuel + 1, .arr [] =>
      have hskip : skip (newline compact ++ (margin compact level ++
          0x5D :: rest)) = 0x5D :: rest := by
        rw [skip_blanks (blank_newline compact),
          skip_blanks (blank_margin compact level), skip_cons rfl]
      simp only [printAt, printItems, List.append_assoc, List.cons_append,
        List.nil_append]
      rw [parseValue, skip_cons rfl]
      simp only [hskip]
  | fuel + 1, .arr (v :: items) =>
      have hskip : ∀ t, ∃ x t', x ≠ 0x5D ∧ skip (newline compact ++
          (printItems compact (level + 1) (v :: items) ++ t)) = x :: t' := by
        intro t
        obtain ⟨x, t', hhead, hblank, hx⟩ := printAt_head compact (level + 1) v
        simp only [printItems, List.append_assoc]
        rw [skip_blanks (blank_newline compact),
          skip_blanks (blank_margin compact (level + 1)), hhead,
          List.cons_append, skip_cons hblank]
        exact ⟨x, _, hx, rfl⟩
      have hitems := parseItems_printItems compact (level + 1) v items
        fuel (by simp only [weight] at hfuel; omega)
        (blank_margin compact level) rest
      simp only [printAt, List.append_assoc, List.cons_append,
        List.nil_append]
      rw [parseValue, skip_cons rfl]
      obtain ⟨x, t', hx, hhead⟩ := hskip (margin compact level ++ 0x5D :: rest)
      simp only [hhead]
      split
      · next heq => cases heq; exact absurd rfl hx
      · rw [parseItems_blanks (blank_newline compact), hitems, Option.map_some]
  | fuel + 1, .obj [] =>
      have hskip : skip (newline compact ++ (margin compact level ++
          0x7D :: rest)) = 0x7D :: rest := by
        rw [skip_blanks (blank_newline compact),
          skip_blanks (blank_margin compact level), skip_cons rfl]
      simp only [printAt, printFields, List.append_assoc, List.cons_append,
        List.nil_append]
      rw [parseValue, skip_cons rfl]
      simp only [hskip]
  | fuel + 1, .obj ((k, v) :: fields) =>
      have hskip : ∀ t, ∃ t', skip (newline compact ++
          (printFields compact (level + 1) ((k, v) :: fields) ++ t)) =
            0x22 :: t' := by
        intro t
        simp only [printFields, quote, List.append_assoc, List.cons_append]
        rw [skip_blanks (blank_newline compact),
          skip_blanks (blank_margin compact (level + 1)), skip_cons rfl]
        exact ⟨_, rfl⟩
      have hfields := parseFields_printFields compact (level + 1) k v fields
        fuel (by simp only [weight] at hfuel; omega)
        (blank_margin compact level) rest
      simp only [printAt, List.append_assoc, List.cons_append,
        List.nil_append]
      rw [parseValue, skip_cons rfl]
      obtain ⟨t', hhead⟩ := hskip (margin compact level ++ 0x7D :: rest)
      simp only [hhead]
      rw [parseFields_blanks (blank_newline compact), hfields]
      rfl

theorem parseItems_printItems (compact : Bool) (level : Nat) (v : Json)
    (items : List Json) (fuel : Nat) (hfuel : weights (v :: items) ≤ fuel)
    {blanks : Bytes} (hblanks : ∀ x ∈ blanks, isBlank x = true) (rest : Bytes) :
    parseItems fuel (printItems compact level (v :: items) ++
      (blanks ++ 0x5D :: rest)) = some (v :: items, rest) := by
  match fuel with
  | 0 => simp [weights] at hfuel
  | fuel + 1 =>
      rw [weights] at hfuel
      rw [printItems]
      simp only [List.append_assoc]
      match items with
      | [] =>
          have hread := parseValue_printAt compact level v fuel
            (by omega) (newline compact ++ (blanks ++ 0x5D :: rest))
            (ends_blanks (blank_newline compact)
              (ends_blanks hblanks (.cons rfl rest)))
          simp only [List.isEmpty_nil, separator_last, printItems,
            List.nil_append]
          rw [parseItems, parseValue_blanks (blank_margin compact level), hread]
          simp only [skip_blanks (blank_newline compact),
            skip_blanks hblanks, skip_cons (show isBlank 0x5D = false from rfl)]
      | w :: items =>
          have hread := parseValue_printAt compact level v fuel
            (by omega) (0x2C :: (newline compact ++
              (printItems compact level (w :: items) ++
                (blanks ++ 0x5D :: rest)))) (.cons rfl _)
          have hmore := parseItems_printItems compact level w items
            fuel (by omega) hblanks rest
          simp only [List.isEmpty_cons, separator_more, List.cons_append]
          rw [parseItems, parseValue_blanks (blank_margin compact level), hread]
          simp only [skip_cons (show isBlank 0x2C = false from rfl)]
          rw [parseItems_blanks (blank_newline compact), hmore, Option.map_some]

theorem parseFields_printFields (compact : Bool) (level : Nat) (k : String)
    (v : Json) (fields : List (String × Json)) (fuel : Nat)
    (hfuel : fieldWeights ((k, v) :: fields) ≤ fuel) {blanks : Bytes}
    (hblanks : ∀ x ∈ blanks, isBlank x = true) (rest : Bytes) :
    parseFields fuel (printFields compact level ((k, v) :: fields) ++
      (blanks ++ 0x7D :: rest)) = some ((k, v) :: fields, rest) := by
  match fuel with
  | 0 => simp [fieldWeights] at hfuel
  | fuel + 1 =>
      have hcolon : ∀ t, ∃ b, (∀ x ∈ b, isBlank x = true) ∧
          colon compact ++ t = 0x3A :: (b ++ t) := by
        intro t
        cases compact
        · exact ⟨[0x20], by simp [isBlank], rfl⟩
        · exact ⟨[], by simp, rfl⟩
      rw [fieldWeights] at hfuel
      rw [printFields, quote]
      simp only [List.append_assoc, List.cons_append, List.nil_append]
      rw [parseFields, skip_blanks (blank_margin compact level), skip_cons rfl]
      simp only [parseKey_quoted]
      match fields with
      | [] =>
          have hread := parseValue_printAt compact level v fuel
            (by omega) (newline compact ++ (blanks ++ 0x7D :: rest))
            (ends_blanks (blank_newline compact)
              (ends_blanks hblanks (.cons rfl rest)))
          simp only [List.isEmpty_nil, separator_last, printFields,
            List.nil_append]
          obtain ⟨b, hb, heq⟩ := hcolon (printAt compact level v ++
            (newline compact ++ (blanks ++ 0x7D :: rest)))
          rw [heq, skip_cons rfl]
          simp only [parseValue_blanks hb, hread,
            skip_blanks (blank_newline compact),
            skip_blanks hblanks, skip_cons (show isBlank 0x7D = false from rfl)]
      | (k', w) :: fields =>
          have hread := parseValue_printAt compact level v fuel
            (by omega) (0x2C :: (newline compact ++
              (printFields compact level ((k', w) :: fields) ++
                (blanks ++ 0x7D :: rest)))) (.cons rfl _)
          have hmore := parseFields_printFields compact level k' w fields
            fuel (by omega) hblanks rest
          simp only [List.isEmpty_cons, separator_more, List.cons_append]
          obtain ⟨b, hb, heq⟩ := hcolon (printAt compact level v ++
            0x2C :: (newline compact ++
              (printFields compact level ((k', w) :: fields) ++
                (blanks ++ 0x7D :: rest))))
          rw [heq, skip_cons rfl]
          simp only [parseValue_blanks hb, hread,
            skip_cons (show isBlank 0x2C = false from rfl)]
          rw [parseFields_blanks (blank_newline compact), hmore,
            Option.map_some]

end

mutual

theorem weight_le (compact : Bool) (level : Nat) (j : Json) :
    weight j ≤ (printAt compact level j).length := by
  match j with
  | .null | .bool true | .bool false | .fraction | .str _ =>
      simp [weight, printAt, quote]
  | .int n =>
      obtain ⟨x, t, ht, _⟩ := printInt_head n
      simp [weight, printAt, ht]
  | .arr items =>
      have hitems := weights_le compact (level + 1) items
      simp only [weight, printAt, List.length_append, List.length_cons,
        List.length_nil]
      omega
  | .obj fields =>
      have hfields := fieldWeights_le compact (level + 1) fields
      simp only [weight, printAt, List.length_append, List.length_cons,
        List.length_nil]
      omega

/-- Each item has a comma or, for the last one, a bracket of its own. -/
theorem weights_le (compact : Bool) (level : Nat) (items : List Json) :
    weights items ≤ (printItems compact level items).length + 1 := by
  match items with
  | [] => simp [weights]
  | v :: items =>
      have hv := weight_le compact level v
      have hrest := weights_le compact level items
      simp only [weights, printItems, List.length_append]
      cases items with
      | nil => simp only [weights] at hrest ⊢; omega
      | cons w items =>
          simp only [List.isEmpty_cons, separator_more, List.length_cons]
          omega

theorem fieldWeights_le (compact : Bool) (level : Nat)
    (fields : List (String × Json)) :
    fieldWeights fields ≤ (printFields compact level fields).length := by
  match fields with
  | [] => simp [fieldWeights]
  | (k, v) :: fields =>
      have hv := weight_le compact level v
      have hrest := fieldWeights_le compact level fields
      simp only [fieldWeights, printFields, quote, List.length_append,
        List.length_cons, List.length_nil]
      omega

end

/-- Printed text parses to the value it was printed from. -/
theorem parse_print (compact : Bool) (j : Json) :
    parse (print compact j) = .ok j := by
  have hfuel := weight_le compact 0 j
  have hread := parseValue_printAt compact 0 j ((print compact j).length + 1)
    (by rw [print, List.length_append]; omega) (newline compact ++ [])
    (ends_blanks (blank_newline compact) (fun x hx => by cases hx))
  rw [List.append_nil] at hread
  rw [parse, print] at *
  rw [hread]
  have hskip := skip_blanks (blank_newline compact) []
  rw [List.append_nil] at hskip
  simp only [hskip]
  rfl

/-! ## Lengths -/

mutual

/-- The strings of a value, its keys apart. -/
def texts : Json → List Text
  | .str t => [t]
  | .arr items => itemTexts items
  | .obj fields => fieldTexts fields
  | _ => []

def itemTexts : List Json → List Text
  | [] => []
  | v :: rest => texts v ++ itemTexts rest

def fieldTexts : List (String × Json) → List Text
  | [] => []
  | (_, v) :: rest => texts v ++ fieldTexts rest

end

mutual

/-- The length of the compact layout, but for what is in its strings. -/
def frame : Json → Nat
  | .arr items => 2 + itemFrames items
  | .obj fields => 2 + fieldFrames fields
  | .str _ => 2
  | .int n => (printInt n).length
  | _ => 5

def itemFrames : List Json → Nat
  | [] => 0
  | v :: rest => frame v + 1 + itemFrames rest

def fieldFrames : List (String × Json) → Nat
  | [] => 0
  | (k, v) :: rest =>
      (quote (keyBytes k)).length + frame v + 2 + fieldFrames rest

end

set_option maxRecDepth 10000 in
theorem length_escape (x : UInt8) :
    0 < (escape x).length ∧ (escape x).length ≤ 6 := by
  have hall : ∀ n < 256, 0 < (escape (UInt8.ofNat n)).length ∧
      (escape (UInt8.ofNat n)).length ≤ 6 := by decide
  have hx := hall x.toNat x.toNat_lt
  rwa [UInt8.ofNat_toNat] at hx

theorem length_quote (b : Bytes) :
    b.length + 2 ≤ (quote b).length ∧ (quote b).length ≤ 6 * b.length + 2 := by
  have hinner : b.length ≤ (b.flatMap escape).length ∧
      (b.flatMap escape).length ≤ 6 * b.length := by
    induction b with
    | nil => simp
    | cons x b ih =>
        have hx := length_escape x
        rw [List.flatMap_cons, List.length_append, List.length_cons]
        omega
  rw [quote, List.length_append, List.length_cons, List.length_singleton]
  omega

mutual

/-- A string is shorter than what it is printed in, with its quotes. -/
theorem le_length_printAt (compact : Bool) (level : Nat) (j : Json) {t : Text}
    (h : t ∈ texts j) :
    t.utf8.length + 2 ≤ (printAt compact level j).length := by
  match j with
  | .null | .bool _ | .int _ | .fraction => cases h
  | .str s =>
      rw [texts, List.mem_singleton] at h
      rw [h]
      exact (length_quote s.utf8).1
  | .arr items =>
      have hitems := le_length_printItems compact (level + 1) items h
      simp only [printAt, List.length_append, List.length_cons]
      omega
  | .obj fields =>
      have hfields := le_length_printFields compact (level + 1) fields h
      simp only [printAt, List.length_append, List.length_cons]
      omega

theorem le_length_printItems (compact : Bool) (level : Nat)
    (items : List Json) {t : Text} (h : t ∈ itemTexts items) :
    t.utf8.length + 2 ≤ (printItems compact level items).length := by
  match items with
  | [] => cases h
  | v :: items =>
      simp only [printItems, List.length_append]
      rcases List.mem_append.mp h with h | h
      · have hv := le_length_printAt compact level v h
        omega
      · have hrest := le_length_printItems compact level items h
        omega

theorem le_length_printFields (compact : Bool) (level : Nat)
    (fields : List (String × Json)) {t : Text} (h : t ∈ fieldTexts fields) :
    t.utf8.length + 2 ≤ (printFields compact level fields).length := by
  match fields with
  | [] => cases h
  | (k, v) :: fields =>
      simp only [printFields, List.length_append]
      rcases List.mem_append.mp h with h | h
      · have hv := le_length_printAt compact level v h
        omega
      · have hrest := le_length_printFields compact level fields h
        omega

end

/-- The bytes of some strings. -/
def textBytes : List Text → Nat
  | [] => 0
  | t :: ts => t.utf8.length + textBytes ts

theorem textBytes_nil : textBytes [] = 0 := by rw [textBytes]

theorem textBytes_cons (t : Text) (ts : List Text) :
    textBytes (t :: ts) = t.utf8.length + textBytes ts := by
  rw [textBytes]

theorem textBytes_append (ts us : List Text) :
    textBytes (ts ++ us) = textBytes ts + textBytes us := by
  induction ts with
  | nil => simp [textBytes_nil]
  | cons t ts ih => simp [textBytes_cons, ih, Nat.add_assoc]

mutual

/-- No byte of a string is printed as more than six. -/
theorem length_printAt_le (level : Nat) (j : Json) :
    (printAt true level j).length ≤ frame j + 6 * textBytes (texts j) := by
  match j with
  | .int _ => simp [printAt, frame]
  | .null | .bool true | .bool false | .fraction =>
      simp only [printAt, frame, List.length_cons, List.length_nil]
      omega
  | .str t =>
      have hquote := (length_quote t.utf8).2
      simp only [printAt, frame, texts, textBytes_cons, textBytes_nil]
      omega
  | .arr items =>
      have hitems := length_printItems_le (level + 1) items
      simp only [printAt, frame, texts, newline, margin, if_true,
        List.length_append, List.length_cons, List.length_nil]
      omega
  | .obj fields =>
      have hfields := length_printFields_le (level + 1) fields
      simp only [printAt, frame, texts, newline, margin, if_true,
        List.length_append, List.length_cons, List.length_nil]
      omega

theorem length_printItems_le (level : Nat) (items : List Json) :
    (printItems true level items).length ≤
      itemFrames items + 6 * textBytes (itemTexts items) := by
  match items with
  | [] => simp [printItems]
  | v :: items =>
      have hv := length_printAt_le level v
      have hrest := length_printItems_le level items
      have hcomma : (separator true items.isEmpty).length ≤ 1 := by
        cases items <;> simp [separator, newline]
      simp only [printItems, itemFrames, itemTexts, textBytes_append, margin,
        if_true, List.length_append, List.length_nil]
      omega

theorem length_printFields_le (level : Nat) (fields : List (String × Json)) :
    (printFields true level fields).length ≤
      fieldFrames fields + 6 * textBytes (fieldTexts fields) := by
  match fields with
  | [] => simp [printFields]
  | (k, v) :: fields =>
      have hv := length_printAt_le level v
      have hrest := length_printFields_le level fields
      have hcomma : (separator true fields.isEmpty).length ≤ 1 := by
        cases fields <;> simp [separator, newline]
      simp only [printFields, fieldFrames, fieldTexts, textBytes_append,
        margin, colon, if_true, List.length_append, List.length_cons,
        List.length_nil]
      omega

end

end Json

theorem Json.print_ne_nil (compact : Bool) (j : Json) :
    print compact j ≠ [] := by
  obtain ⟨x, t, hhead, _⟩ := printAt_head compact 0 j
  rw [print, hhead]
  exact List.cons_ne_nil _ _

/-- The printer and the parser of this module. -/
def qtJson : JsonText where
  print := Json.print
  parse := Json.parse
  print_ne_nil := Json.print_ne_nil
  parse_arr compact items := Json.parse_print compact (.arr items)
  parse_obj compact fields := Json.parse_print compact (.obj fields)

/-- What follows a document is not read: where one begins another, both are
read off the same bytes. -/
theorem qtJson_prefixFree : qtJson.PrefixFree := by
  rintro a b - - ⟨t, ht⟩
  have hread (j : Json) (t : Bytes) (fuel : Nat) (hfuel : j.weight ≤ fuel) :
      Json.parseValue fuel (Json.print false j ++ t) =
        some (j, Json.newline false ++ t) := by
    rw [Json.print, List.append_assoc]
    exact Json.parseValue_printAt false 0 j fuel hfuel _ fun x hx => by
      cases hx
      rfl
  have ha := hread a t (a.weight + b.weight) (by omega)
  have hb := hread b [] (a.weight + b.weight) (by omega)
  have ht : Json.print false a ++ t = Json.print false b := ht
  rw [List.append_nil, ← ht, ha] at hb
  exact (Prod.mk.inj (Option.some.inj hb)).1

end QuMesh.Lib
