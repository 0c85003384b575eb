import QuMesh.Lib.Strings
import QuMesh.Rmcp.Scanner

/-!
# What a target specification stands for

`parseTargets` turns what the user typed into the addresses to scan. An error
stands for the empty list and the text in `errorOut`. How Qt reads an address
is a parameter: `setAddress` takes more forms than the dotted one, and
`toIPv4Address` more addresses than those of IPv4.

The loops count in 64 bits, which hold one more than the last 32-bit address;
their counters are natural numbers.
-/

namespace QuMesh.Rmcp

open QuMesh.Lib

/-- `QHostAddress`, as far as a text is read into it. -/
structure AddressReader where
  Address : Type
  setAddress : String → Option Address
  toIPv4Address : Address → Option HostAddress

def parseIPv4 (q : AddressReader) (s : String) : Option HostAddress :=
  (q.setAddress (Strings.trimmed s)).bind q.toIPv4Address

/-- `s.split(sep)` -/
def split (sep : Char) (s : String) : List String :=
  (s.toList.splitOn sep).map String.ofList

/-- `for (quint64 i = 0; i < count; ++i)`, from a later `i`. -/
def networkLoop (network : HostAddress) (count i : Nat) : List HostAddress :=
  if i < count then
    UInt32.ofNat (network.toNat + i) :: networkLoop network count (i + 1)
  else []
termination_by count - i

/-- `for (quint64 v = lo; v <= hi; ++v)`, from a later `v`. -/
def rangeLoop (hi v : Nat) : List HostAddress :=
  if v ≤ hi then UInt32.ofNat v :: rangeLoop hi (v + 1) else []
termination_by hi + 1 - v

/-- What follows the split at the slash. -/
def parseNetwork (q : AddressReader) : List String →
    Except String (List HostAddress)
  | [address, prefixLength] =>
      match parseIPv4 q address with
      | none => .error "CIDR base address is not a valid IPv4."
      | some base =>
          match Strings.toInt prefixLength with
          | none => .error "CIDR mask must be 0–32."
          | some mask =>
              if mask < 0 ∨ mask > 32 then .error "CIDR mask must be 0–32."
              else if mask < 16 then
                .error s!"CIDR mask /{mask} is too broad — use /16 or narrower."
              else
                let hostBits := 32 - mask.toNat
                let netmask : UInt32 :=
                  if mask = 0 then 0 else ~~~0 <<< UInt32.ofNat hostBits
                let network := base &&& netmask
                let count := 1 <<< hostBits
                .ok (networkLoop network count 0)
  | _ => .error "CIDR must be address/mask."

/-- What follows the split at the dash. -/
def parseRange (q : AddressReader) : List String →
    Except String (List HostAddress)
  | [first, last] =>
      match parseIPv4 q first, parseIPv4 q last with
      | some lo, some hi =>
          if hi < lo then .error "Range end is before start."
          else
            let count := hi.toNat - lo.toNat + 1
            if count > 65536 then
              .error s!"Range spans {count} addresses — limit is 65536."
            else .ok (rangeLoop hi.toNat lo.toNat)
      | _, _ => .error "Range endpoints must be IPv4."
  | _ => .error "Range must be start-end."

def parseTargets (q : AddressReader) (spec : String) :
    Except String (List HostAddress) :=
  let s := Strings.trimmed spec
  if s = "" then .error "Target is empty."
  else if '/' ∈ s.toList then parseNetwork q (split '/' s)
  else if '-' ∈ s.toList then parseRange q (split '-' s)
  else
    match parseIPv4 q s with
    | none => .error "Not a valid IPv4 address, range, or CIDR."
    | some only => .ok [only]

end QuMesh.Rmcp
