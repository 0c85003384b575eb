import QuMesh.Lib.Hex
import QuMesh.Lib.Strings
import QuMesh.Wsman.Operations

/-!
# Filters on the IP header

`addIpHeadersFilter`: what is checked of a filter, and the body of the request
that creates it, as the names and texts of its elements. An address is typed as
text and goes out in hex. What the tables of Unicode say of a character is a
parameter; a character outside the basic plane is two surrogates to the source,
and these are no letters.
-/

namespace QuMesh.Wsman

open QuMesh.Lib

/-- `QChar::isLetterOrNumber` and `QChar::toUpper`, as they are known for
ASCII. -/
structure LetterTables where
  isLetterOrNumber : Char → Bool
  toUpper : Char → Char
  isLetterOrNumber_ascii : ∀ c : Char, c.toNat < 0x80 →
    isLetterOrNumber c = c.isAlphanum
  toUpper_ascii : ∀ c : Char, c.toNat < 0x80 → toUpper c = c.toUpper

/-- The part of a create that the operator gives. -/
structure IpHeadersFilter where
  name : String
  filterDirection : Int := -1
  srcAddress : String := ""
  dstAddress : String := ""
  protocol : Int := -1
  srcPort : Int := -1
  dstPort : Int := -1
  ipVersion : Int := -1
  filterProfile : Int := -1
  filterProfileData : Int := 0
  actionEventOnMatch : Bool := false
  srcPortEnd : Int := -1
  dstPortEnd : Int := -1

/-- `toHex().toUpper()` -/
def toHexUpper (b : Bytes) : Bytes :=
  (toHex b).map fun x => if 0x61 ≤ x && x ≤ 0x7A then x - 0x20 else x

/-- One part of a dotted quad. -/
def readOctet (part : List Char) : Option UInt8 :=
  match Strings.toInt (String.ofList part) with
  | none => none
  | some v => if v < 0 ∨ v > 255 then none else some (UInt8.ofNat v.toNat)

/-- The loop over the parts: the bytes, or nothing where it returns. -/
def readOctets : List (List Char) → Option Bytes
  | [] => some []
  | part :: parts =>
      match readOctet part with
      | none => none
      | some x => (readOctets parts).map (x :: ·)

def encodeIPv4ForFilter (dottedQuad : String) : String :=
  let parts := dottedQuad.toList.splitOn '.'
  if parts.length ≠ 4 then ""
  else
    match readOctets parts with
    | none => ""
    | some raw => Strings.fromLatin1 (toHexUpper raw)

/-- The loop over the characters: the digits, or nothing where it returns. -/
def addressDigits (tables : LetterTables) : List Char → Option (List Char)
  | [] => some []
  | c :: cs =>
      if c = ':' then addressDigits tables cs
      else if 0x10000 ≤ c.toNat || !tables.isLetterOrNumber c then none
      else (addressDigits tables cs).map (tables.toUpper c :: ·)

def encodeFilterAddress (tables : LetterTables) (input : String)
    (ipVersion : Int) : String :=
  let trimmed := Strings.trimmed input
  if trimmed.isEmpty then ""
  else if ipVersion = 4 then encodeIPv4ForFilter trimmed
  else if ipVersion = 6 then
    match addressDigits tables trimmed.toList with
    | none => ""
    | some hex => if hex.length = 32 then String.ofList hex else ""
  else ""

/-- An element that is left out where its text is empty. -/
def optionalText (name text : String) : List (String × String) :=
  if !text.isEmpty then [(name, text)] else []

/-- A range of ports, if one is set: a single port is its own end. -/
def portRange (name : String) (start finish : Int) : List (String × String) :=
  if start ≥ 0 then
    [(name ++ "Start", number32 start),
      (name ++ "End", number32 (if finish ≥ 0 then finish else start))]
  else []

/-- The elements of `AMT_IPHeadersFilter`. -/
def buildAddIpHeadersFilterEnvelope (tables : LetterTables)
    (f : IpHeadersFilter) : List (String × String) :=
  [("InstanceID", "0"), ("Name", f.name), ("CreationClassName", "0"),
    ("SystemName", "0"), ("SystemCreationClassName", "0"),
    ("HdrIPVersion", number32 f.ipVersion),
    ("FilterProfile", number32 f.filterProfile),
    ("FilterDirection", number32 f.filterDirection),
    ("ActionEventOnMatch", if f.actionEventOnMatch then "true" else "false")] ++
  (if f.filterProfile = 2 then
    [("FilterProfileData", number32 f.filterProfileData)] else []) ++
  (if f.protocol ≥ 0 then
    [("HdrProtocolID8", number32 f.protocol)] else []) ++
  optionalText "HdrSrcAddress"
    (encodeFilterAddress tables f.srcAddress f.ipVersion) ++
  optionalText "HdrDestAddress"
    (encodeFilterAddress tables f.dstAddress f.ipVersion) ++
  portRange "HdrSrcPort" f.srcPort f.srcPortEnd ++
  portRange "HdrDestPort" f.dstPort f.dstPortEnd

/-- An address that was given and is not encoded. -/
def malformed (tables : LetterTables) (address : String) (ipVersion : Int) :
    Bool :=
  !(Strings.trimmed address).isEmpty &&
    (encodeFilterAddress tables address ipVersion).isEmpty

/-- The request that goes out, or the error that is called back at once. -/
def addIpHeadersFilter (tables : LetterTables) (f : IpHeadersFilter) :
    Except String (List (String × String)) :=
  if f.name.isEmpty then .error "AddIpHeadersFilter: name is required"
  else if f.ipVersion ≠ 4 ∧ f.ipVersion ≠ 6 then
    .error "AddIpHeadersFilter: IP version must be 4 or 6"
  else if f.filterProfile < 0 ∨ f.filterProfile > 4 then
    .error "AddIpHeadersFilter: filter profile out of range"
  else if f.filterDirection ≠ 0 ∧ f.filterDirection ≠ 1 then
    .error "AddIpHeadersFilter: direction must be 0 (Tx) or 1 (Rx)"
  else if malformed tables f.srcAddress f.ipVersion then
    .error "AddIpHeadersFilter: source address malformed"
  else if malformed tables f.dstAddress f.ipVersion then
    .error "AddIpHeadersFilter: destination address malformed"
  else .ok (buildAddIpHeadersFilterEnvelope tables f)

end QuMesh.Wsman
