import QuMesh.Lib.Base64
import QuMesh.Lib.Hex

/-!
# Watchdog ids

A watchdog goes by sixteen bytes: in base64 on the wire, and as a GUID before
the operator. Strings are lists of UTF-16 units here, and what the tables of
Unicode say of a unit is a parameter.
-/

namespace QuMesh.Wsman

open QuMesh.Lib

abbrev Units := List UInt16

/-- `QString::toLatin1` -/
def unitsToLatin1 (s : Units) : Bytes :=
  s.map fun u => if u < 0x100 then u.toUInt8 else 0x3F

/-- `QString::fromLatin1` -/
def unitsOfLatin1 (b : Bytes) : Units := b.map UInt8.toUInt16

/-- The value of a unit that is a hex digit. -/
def hexUnit (u : UInt16) : Option Nat :=
  if u < 0x100 then hexValue u.toUInt8 else none

def asciiLower (u : UInt16) : UInt16 :=
  if 0x41 ≤ u ∧ u ≤ 0x5A then u + 0x20 else u

/-- `QChar::isLetterOrNumber` and `QChar::toLower`. They are known for ASCII,
and no other unit has a hex digit as its lower case. -/
structure CharTables where
  isLetterOrNumber : UInt16 → Bool
  toLower : UInt16 → UInt16
  isLetterOrNumber_ascii : ∀ u < 0x80, isLetterOrNumber u =
    ((0x30 ≤ u && u ≤ 0x39) || (0x41 ≤ u && u ≤ 0x5A) ||
      (0x61 ≤ u && u ≤ 0x7A))
  toLower_ascii : ∀ u < 0x80, toLower u = asciiLower u
  toLower_other : ∀ u, 0x80 ≤ u → hexUnit (toLower u) = none

def decodeWatchdogDeviceId (b64 : Units) : Units :=
  if b64 = [] then []
  else
    let raw := (fromBase64 false (unitsToLatin1 b64)).getD []
    if raw.length ≠ 16 then []
    else
      let hex := toHex raw
      let part (start n : Nat) : Units :=
        unitsOfLatin1 ((hex.drop start).take n)
      part 0 8 ++ [0x2D] ++ part 8 4 ++ [0x2D] ++ part 12 4 ++ [0x2D] ++
        part 16 4 ++ [0x2D] ++ part 20 12

/-- The loop over the characters: the digits, or nothing where it returns. -/
def guidDigits (tables : CharTables) : Units → Option Units
  | [] => some []
  | c :: guid =>
      if c = 0x2D ∨ c = 0x7B ∨ c = 0x7D then guidDigits tables guid
      else if !tables.isLetterOrNumber c then none
      else (guidDigits tables guid).map (tables.toLower c :: ·)

def encodeWatchdogDeviceId (tables : CharTables) (guid : Units) : Units :=
  match guidDigits tables guid with
  | none => []
  | some hex =>
      if hex.length ≠ 32 then []
      else
        let raw := fromHex (unitsToLatin1 hex)
        if raw.length ≠ 16 then [] else unitsOfLatin1 (toBase64 raw)

end QuMesh.Wsman
