import QuMesh.Lib.Base64
import QuMesh.Lib.Hex
import QuMesh.Lib.Strings
import QuMesh.Wsman.Operations
import QuMesh.Wsman.Reads

/-!
# The audit log

`enumerateAuditLog` and the decoder of a record. The log is read page by page,
from a StartIndex on, and the device chooses how many records it returns. The
StartIndex of the next page is not kept: it is one more than the number of
entries decoded so far.
-/

namespace QuMesh.Wsman

open QuMesh.Lib QuMesh.Lib.Xml

structure AuditLogEntry where
  auditAppId : Nat := 0
  eventId : Nat := 0
  auditAppLabel : String := ""
  eventLabel : String := ""
  initiatorType : Int := -1
  initiator : Text := Text.empty
  unixSeconds : Nat := 0
  mcLocationType : Nat := 0
  netAddress : Text := Text.empty
  ex : Bytes := []
  deriving DecidableEq

structure AuditLogResult where
  ok : Bool := false
  error : String := ""
  entries : List AuditLogEntry := []
  deriving DecidableEq

/-! ## Records -/

/-- The audit applications, and the events as a hundred times the application
and the event. -/
def auditStrings : List (Nat × String) :=
  [(16, "Security Admin"),
    (17, "RCO"),
    (18, "Redirection Manager"),
    (19, "Firmware Update Manager"),
    (20, "Security Audit Log"),
    (21, "Network Time"),
    (22, "Network Administration"),
    (23, "Storage Administration"),
    (24, "Event Manager"),
    (25, "Circuit Breaker Manager"),
    (26, "Agent Presence Manager"),
    (27, "Wireless Configuration"),
    (28, "EAC"),
    (29, "KVM"),
    (30, "User Opt-In Events"),
    (32, "Screen Blanking"),
    (33, "Watchdog Events"),
    (1600, "Provisioning Started"),
    (1601, "Provisioning Completed"),
    (1602, "ACL Entry Added"),
    (1603, "ACL Entry Modified"),
    (1604, "ACL Entry Removed"),
    (1605, "ACL Access with Invalid Credentials"),
    (1606, "ACL Entry State"),
    (1607, "TLS State Changed"),
    (1608, "TLS Server Certificate Set"),
    (1609, "TLS Server Certificate Removed"),
    (1610, "TLS Trusted Root Certificate Added"),
    (1611, "TLS Trusted Root Certificate Removed"),
    (1612, "TLS Preshared Key Set"),
    (1613, "Kerberos Settings Modified"),
    (1614, "Kerberos Main Key Modified"),
    (1615, "Flash Wear-out Counters Reset"),
    (1616, "Power Package Modified"),
    (1617, "Set Realm Authentication Mode"),
    (1618, "Upgrade Client to Admin Control Mode"),
    (1619, "Unprovisioning Started"),
    (1700, "Performed Power Up"),
    (1701, "Performed Power Down"),
    (1702, "Performed Power Cycle"),
    (1703, "Performed Reset"),
    (1704, "Set Boot Options"),
    (1705, "Remote graceful power down initiated"),
    (1706, "Remote graceful reset initiated"),
    (1707, "Remote Standby initiated"),
    (1708, "Remote Hibernate initiated"),
    (1709, "Remote NMI initiated"),
    (1800, "IDER Session Opened"),
    (1801, "IDER Session Closed"),
    (1802, "IDER Enabled"),
    (1803, "IDER Disabled"),
    (1804, "SoL Session Opened"),
    (1805, "SoL Session Closed"),
    (1806, "SoL Enabled"),
    (1807, "SoL Disabled"),
    (1808, "KVM Session Started"),
    (1809, "KVM Session Ended"),
    (1810, "KVM Enabled"),
    (1811, "KVM Disabled"),
    (1812, "VNC Password Failed 3 Times"),
    (1900, "Firmware Updated"),
    (1901, "Firmware Update Failed"),
    (2000, "Security Audit Log Cleared"),
    (2001, "Security Audit Policy Modified"),
    (2002, "Security Audit Log Disabled"),
    (2003, "Security Audit Log Enabled"),
    (2004, "Security Audit Log Exported"),
    (2005, "Security Audit Log Recovered"),
    (2100, "Intel® ME Time Set"),
    (2200, "TCPIP Parameters Set"),
    (2201, "Host Name Set"),
    (2202, "Domain Name Set"),
    (2203, "VLAN Parameters Set"),
    (2204, "Link Policy Set"),
    (2205, "IPv6 Parameters Set"),
    (2300, "Global Storage Attributes Set"),
    (2301, "Storage EACL Modified"),
    (2302, "Storage FPACL Modified"),
    (2303, "Storage Write Operation"),
    (2400, "Alert Subscribed"),
    (2401, "Alert Unsubscribed"),
    (2402, "Event Log Cleared"),
    (2403, "Event Log Frozen"),
    (2500, "CB Filter Added"),
    (2501, "CB Filter Removed"),
    (2502, "CB Policy Added"),
    (2503, "CB Policy Removed"),
    (2504, "CB Default Policy Set"),
    (2505, "CB Heuristics Option Set"),
    (2506, "CB Heuristics State Cleared"),
    (2600, "Agent Watchdog Added"),
    (2601, "Agent Watchdog Removed"),
    (2602, "Agent Watchdog Action Set"),
    (2700, "Wireless Profile Added"),
    (2701, "Wireless Profile Removed"),
    (2702, "Wireless Profile Updated"),
    (2800, "EAC Posture Signer Set"),
    (2801, "EAC Enabled"),
    (2802, "EAC Disabled"),
    (2803, "EAC Posture State"),
    (2804, "EAC Set Options"),
    (2900, "KVM Opt-in Enabled"),
    (2901, "KVM Opt-in Disabled"),
    (2902, "KVM Password Changed"),
    (2903, "KVM Consent Succeeded"),
    (2904, "KVM Consent Failed"),
    (3000, "Opt-In Policy Change"),
    (3001, "Send Consent Code Event"),
    (3002, "Start Opt-In Blocked Event"),
    (3301, "User has modified the Watchdog Action settings")]

def auditLookup (key : Nat) : String := (auditStrings.lookup key).getD ""

def readBeU16 (b : Bytes) (off : Nat) : Nat :=
  if off + 1 ≥ b.length then 0 else read16Be b off

def readBeU32 (b : Bytes) (off : Nat) : Nat :=
  if off + 3 ≥ b.length then 0 else read32Be b off

/-- The initiator, and where it ends. -/
def parseInitiator (raw : Bytes) (initiatorType : Nat) : Option (Text × Nat) :=
  match initiatorType with
  | 0 =>
      if 5 ≥ raw.length then none
      else
        let userlen := byteAt raw 5
        if 6 + userlen > raw.length then none
        else some (Text.ofUtf8 ((raw.drop 6).take userlen), 6 + userlen)
  | 1 =>
      if 5 + 5 > raw.length then none
      else
        let userlen := byteAt raw 9
        if 10 + userlen > raw.length then none
        else
          some
            (Text.ofLatin1 (toHex ((raw.drop 10).take userlen)), 10 + userlen)
  | 2 => some (Text.lit "Local", 5)
  | 3 => some (Text.lit "KVM Default Port", 5)
  | n => some (Text.lit s!"Unknown initiator {n}", 5)

/-- What stands behind the initiator, as far as it goes. -/
def parseAuditTail (raw : Bytes) (ptr : Nat) (out : AuditLogEntry) :
    AuditLogEntry :=
  if ptr + 4 > raw.length then out
  else
    let out := { out with unixSeconds := readBeU32 raw ptr }
    if ptr + 4 ≥ raw.length then out
    else
      let out := { out with mcLocationType := byteAt raw (ptr + 4) }
      if ptr + 5 ≥ raw.length then out
      else
        let netlen := byteAt raw (ptr + 5)
        let ptr := ptr + 6
        if ptr + netlen > raw.length then out
        else
          let out :=
            { out with netAddress := Text.ofUtf8 ((raw.drop ptr).take netlen) }
          let ptr := ptr + netlen
          if ptr ≥ raw.length then out
          else
            let exlen := byteAt raw ptr
            if ptr + 1 + exlen > raw.length then out
            else { out with ex := (raw.drop (ptr + 1)).take exlen }

def parseAuditRecord (raw : Bytes) : Option AuditLogEntry :=
  if raw.length < 5 then none
  else
    let auditAppId := readBeU16 raw 0
    let eventId := readBeU16 raw 2
    let initiatorType := byteAt raw 4
    let eventLabel := auditLookup (auditAppId * 100 + eventId)
    match parseInitiator raw initiatorType with
    | none => none
    | some (initiator, ptr) =>
        some (parseAuditTail raw ptr
          { auditAppId
            eventId
            initiatorType
            auditAppLabel := auditLookup auditAppId
            eventLabel := if eventLabel = "" then s!"#{eventId}" else eventLabel
            initiator })

/-- The bytes of a record, out of its text. -/
def recordBytes (text : String) : Bytes :=
  let b64 := (Strings.toLatin1 text).filter fun x =>
    x ≠ 0x0A && x ≠ 0x0D && x ≠ 0x20
  (fromBase64 false b64).getD []

/-- The entry for a record, if it has one. -/
def decodeRecord (text : String) : Option AuditLogEntry :=
  let raw := recordBytes text
  if raw = [] then none else parseAuditRecord raw

/-! ## Pages -/

/-- The loop over the records of a page. -/
structure RecordLoop where
  r : List Token
  entries : List AuditLogEntry

namespace RecordLoop

def round (s : RecordLoop) : RecordLoop :=
  match s.r with
  | [] => s
  | .startElement _ name _ :: r =>
      if name = "EventRecords" then
        let (text, r) := readElementText r
        { r, entries := s.entries ++ (decodeRecord text).toList }
      else { s with r }
  | .characters _ :: r | .endElement :: r => { s with r }

/-- The loop, until the reader is at its end. -/
def loop (s : RecordLoop) : RecordLoop := readToEnd RecordLoop.r round s

end RecordLoop

/-- `enumerateAuditLog`: the StartIndex of the request that is out, what was
read so far, and the calls of the callback. -/
structure AuditRead where
  waiting : Option Nat := some 1
  entries : List AuditLogEntry := []
  totalReported : Int := -1
  fired : Bool := false
  calls : List AuditLogResult := []
  deriving DecidableEq

namespace AuditRead

def finish (error : String) (s : AuditRead) : AuditRead :=
  let s := { s with waiting := none }
  if s.fired then s
  else
    { s with
      fired := true
      entries := []
      calls := s.calls ++
        [{ ok := error = "", error, entries := s.entries }] }

/-- Without a client nothing is sent. -/
def withoutClient : AuditRead :=
  { waiting := none, calls := [{ error := "client is null" }] }

/-- The entries and the total of a page. -/
def takePage (bodyXml : List Token) (s : AuditRead) : AuditRead :=
  { s with
    totalReported :=
      (Strings.toInt (findScalar bodyXml "TotalRecordCount")).getD
        s.totalReported
    entries := (RecordLoop.loop ⟨readBack 0 bodyXml, s.entries⟩).entries }

/-- On to the next page, or the end. -/
def proceed (startIndex : Nat) (s : AuditRead) : AuditRead :=
  let next := s.entries.length + 1
  if s.totalReported ≥ (next : Int) - 1 ∧ s.totalReported > 0 ∧
      (s.entries.length : Int) < s.totalReported ∧ next > startIndex then
    { s with waiting := some next }
  else s.finish ""

def reply (s : AuditRead) (r : Outcome) : AuditRead :=
  match s.waiting with
  | none => s
  | some startIndex =>
      match r.response with
      | .error error => s.finish error
      | .ok soap => (s.takePage soap.bodyXml).proceed startIndex

end AuditRead

end QuMesh.Wsman
