import QuMesh.Lib.Bytes

/-!
# Lossy UTF-8

Text is kept as its UTF-8 bytes. Reading bytes as text never fails: a leading
byte order mark is skipped, a well-formed sequence is copied, and a byte that
begins none becomes U+FFFD on its own, after which reading resumes at the very
next byte.
-/

namespace QuMesh.Lib

/-- The UTF-8 of U+FFFD. -/
def replacementUtf8 : Bytes := [0xEF, 0xBF, 0xBD]

def isContinuation (b : UInt8) : Bool := 0x80 ≤ b && b ≤ 0xBF

/-- How long the well-formed sequence at the front is, if there is one. The
bounds on the second byte rule out overlong forms, surrogates and everything
past U+10FFFF. -/
def sequenceLength : Bytes → Option Nat
  | [] => none
  | b :: rest =>
      if b < 0x80 then some 1
      else if b < 0xC2 then none
      else if b < 0xE0 then
        match rest with
        | c :: _ => if isContinuation c then some 2 else none
        | _ => none
      else if b < 0xF0 then
        match rest with
        | c :: d :: _ =>
            let lo : UInt8 := if b = 0xE0 then 0xA0 else 0x80
            let hi : UInt8 := if b = 0xED then 0x9F else 0xBF
            if lo ≤ c && c ≤ hi && isContinuation d then some 3 else none
        | _ => none
      else if b < 0xF5 then
        match rest with
        | c :: d :: e :: _ =>
            let lo : UInt8 := if b = 0xF0 then 0x90 else 0x80
            let hi : UInt8 := if b = 0xF4 then 0x8F else 0xBF
            if lo ≤ c && c ≤ hi && isContinuation d && isContinuation e then
              some 4
            else none
        | _ => none
      else none

/-- The reading loop. Every round drops a byte at least, so the length of
the input is fuel enough. -/
def fromUtf8Loop : Nat → Bytes → Bytes
  | 0, _ => []
  | fuel + 1, b =>
      if b.isEmpty then []
      else
        match sequenceLength b with
        | some n => b.take n ++ fromUtf8Loop fuel (b.drop n)
        | none => replacementUtf8 ++ fromUtf8Loop fuel (b.drop 1)

def fromUtf8 (b : Bytes) : Bytes :=
  match b with
  | 0xEF :: 0xBB :: 0xBF :: rest => fromUtf8Loop rest.length rest
  | _ => fromUtf8Loop b.length b

/-- The code point a well-formed sequence encodes. -/
def sequenceValue (b : Bytes) : Nat :=
  let tail := (b.drop 1).foldl (fun v c => v * 64 + c.toNat % 64) 0
  match b.length with
  | 1 => byteAt b 0
  | 2 => byteAt b 0 % 32 * 64 + tail
  | 3 => byteAt b 0 % 16 * 4096 + tail
  | _ => byteAt b 0 % 8 * 262144 + tail

/-- A code point in UTF-16, as one unit or a pair of surrogates. -/
def utf16Units (v : Nat) : List UInt16 :=
  if v < 0x10000 then [UInt16.ofNat v]
  else
    [UInt16.ofNat (0xD800 + (v - 0x10000) / 1024),
      UInt16.ofNat (0xDC00 + (v - 0x10000) % 1024)]

def utf16Loop : Nat → Bytes → List UInt16
  | 0, _ => []
  | fuel + 1, b =>
      match sequenceLength b with
      | some n => utf16Units (sequenceValue (b.take n)) ++
          utf16Loop fuel (b.drop n)
      | none => []

/-- Text in UTF-16. -/
def utf16 (text : Bytes) : List UInt16 := utf16Loop text.length text

/-- Lower-case hex digits, a fixed number of them, most significant first. -/
def hexLower (digits v : Nat) : Bytes :=
  (List.range digits).reverse.map fun i =>
    let d := v / 16 ^ i % 16
    UInt8.ofNat (if d < 10 then 0x30 + d else 0x57 + d)

example : fromUtf8 [0xEF, 0xBB, 0xBF] = [] := by decide
example : fromUtf8 [0x41, 0xC3, 0x28, 0xC3, 0xA9] =
    [0x41, 0xEF, 0xBF, 0xBD, 0x28, 0xC3, 0xA9] := by decide

example : utf16 [0x41, 0xE2, 0x82, 0xAC, 0xF0, 0x9F, 0x98, 0x80] =
    [0x41, 0x20AC, 0xD83D, 0xDE00] := by decide

end QuMesh.Lib
