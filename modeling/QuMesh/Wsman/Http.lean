import QuMesh.Lib.Bytes

/-!
# The text of a WSMAN exchange

What `wsman_client.cpp` asks of `QByteArray` and `QHash`, and its own parser of
a `WWW-Authenticate: Digest` value. A hash table is the list of its insertions:
the last one under a key is its value, and a missing key reads as empty.
-/

namespace QuMesh.Wsman

open QuMesh.Lib

/-- A literal of the source, all of it ASCII. -/
def ascii (s : String) : Bytes := s.toList.map fun c => UInt8.ofNat c.toNat

def isSpace (b : UInt8) : Bool := b == 0x20 || (0x09 ≤ b && b ≤ 0x0D)

def trimmed (b : Bytes) : Bytes :=
  ((b.dropWhile isSpace).reverse.dropWhile isSpace).reverse

def toLower (b : Bytes) : Bytes :=
  b.map fun c => if 0x41 ≤ c ∧ c ≤ 0x5A then c + 0x20 else c

def indexOf (needle : Bytes) : Bytes → Option Nat
  | [] => if needle = [] then some 0 else none
  | c :: rest =>
      if needle.isPrefixOf (c :: rest) then some 0
      else (indexOf needle rest).map (· + 1)

/-- `const int i = b.indexOf(needle)`, and nothing where that is negative: an
`int` keeps 32 bits of the index. -/
def indexOfInt (needle b : Bytes) : Option Nat :=
  (indexOf needle b).bind fun i =>
    if i % 2 ^ 32 < 2 ^ 31 then some (i % 2 ^ 32) else none

/-- `split`: one part more than there are separators. -/
def splitOn (sep : UInt8) : Bytes → List Bytes
  | [] => [[]]
  | c :: rest =>
      if c = sep then [] :: splitOn sep rest
      else
        match splitOn sep rest with
        | [] => [[c]]
        | part :: parts => (c :: part) :: parts

/-- A line without the `\r` of its end. -/
def chopCr (line : Bytes) : Bytes :=
  if line.getLast? = some 0x0D then line.dropLast else line

def digit (base : Nat) (c : UInt8) : Option Nat :=
  let n := c.toNat
  let d :=
    if 0x30 ≤ n ∧ n ≤ 0x39 then n - 0x30
    else if 0x61 ≤ n ∧ n ≤ 0x7A then n - 0x61 + 10
    else if 0x41 ≤ n ∧ n ≤ 0x5A then n - 0x41 + 10
    else base
  if d < base then some d else none

/-- Digits up to the end, after those read so far. -/
def digits (base : Nat) : Nat → Bytes → Option Nat
  | acc, [] => some acc
  | acc, c :: rest =>
      match digit base c with
      | none => none
      | some d => digits base (acc * base + d) rest

/-- `toLongLong`, with nothing for what it reports as not ok. -/
def toLongLong (base : Nat) (b : Bytes) : Option Int :=
  let b := b.dropWhile isSpace
  let negative : Bool := b.head? = some 0x2D
  let b := if negative ∨ b.head? = some 0x2B then b.drop 1 else b
  let b := if base = 16 ∧ toLower (b.take 2) = ascii "0x" then b.drop 2 else b
  if b = [] then none
  else
    match digits base 0 b with
    | none => none
    | some n =>
        let v : Int := if negative then -(n : Int) else n
        if -(2 : Int) ^ 63 ≤ v ∧ v < (2 : Int) ^ 63 then some v else none

/-- `toInt`: zero where it is not ok. -/
def toInt (b : Bytes) : Int :=
  match toLongLong 10 b with
  | none => 0
  | some v => if -(2 : Int) ^ 31 ≤ v ∧ v < (2 : Int) ^ 31 then v else 0

/-- `QByteArray::number`. -/
def number (n : Nat) : Bytes := ascii (String.ofList (Nat.toDigits 10 n))

def numberHex (n : Nat) : Bytes := ascii (String.ofList (Nat.toDigits 16 n))

/-- `rightJustified` with zeros. -/
def rightJustified (width : Nat) (b : Bytes) : Bytes :=
  List.replicate (width - b.length) 0x30 ++ b

abbrev Headers := List (Bytes × Bytes)

def Headers.value (key : Bytes) (h : Headers) : Bytes :=
  ((h.reverse.find? fun p => p.1 == key).map Prod.snd).getD []

/-- The loop of `parseDigestChallenge`; every round takes an `=` at least. -/
def parseDirectives : Nat → Bytes → Headers
  | 0, _ => []
  | fuel + 1, s =>
      let s := s.dropWhile fun c => c == 0x20 || c == 0x2C
      let key := s.takeWhile (· != 0x3D)
      match s.drop key.length with
      | [] => []
      | _ :: s =>
          let value := match s with
            | 0x22 :: s => s.takeWhile (· != 0x22)
            | s => trimmed (s.takeWhile (· != 0x2C))
          let rest := match s with
            | 0x22 :: s => (s.dropWhile (· != 0x22)).drop 1
            | s => s.dropWhile (· != 0x2C)
          let key := toLower (trimmed key)
          (if key = [] then [] else [(key, value)]) ++ parseDirectives fuel rest

def parseDigestChallenge (headerValue : Bytes) : Headers :=
  if headerValue.length ≤ 6 ∨ toLower (headerValue.take 6) ≠ ascii "digest" then []
  else
    let sep := headerValue.getD 6 0
    if sep ≠ 0x20 ∧ sep ≠ 0x09 then []
    else parseDirectives headerValue.length (headerValue.drop 7)

/-- The quality of protection to answer with, out of those offered. -/
def chooseQop (rawQop : Bytes) : Bytes :=
  if rawQop = [] then ascii "auth"
  else if (splitOn 0x2C rawQop).any fun p => trimmed p == ascii "auth" then
    ascii "auth"
  else trimmed ((splitOn 0x2C rawQop).headD [])

/-- The status line's parts and the header lines of a response's head. -/
def parseHead (rawHeaders : Bytes) : List Bytes × Headers :=
  let lines := splitOn 0x0A rawHeaders
  let statusParts := splitOn 0x20 (chopCr (lines.headD []))
  let headers := (lines.drop 1).filterMap fun line =>
    let line := chopCr line
    (indexOf [0x3A] line).map fun colon =>
      (toLower (trimmed (line.take colon)), trimmed (line.drop (colon + 1)))
  (statusParts, headers)

def quotedStringEscape (v : Bytes) : Bytes :=
  v.flatMap fun ch => if ch = 0x5C ∨ ch = 0x22 then [0x5C, ch] else [ch]

def computeDigestResponse (md5Hex : Bytes → Bytes)
    (user realm pass nonce cnonce nc qop method uri : Bytes) : Bytes :=
  let colon := ascii ":"
  let ha1 := md5Hex (user ++ colon ++ realm ++ colon ++ pass)
  let ha2 := md5Hex (method ++ colon ++ uri)
  md5Hex (ha1 ++ colon ++ nonce ++ colon ++ nc ++ colon ++ cnonce ++ colon ++
    qop ++ colon ++ ha2)

end QuMesh.Wsman
