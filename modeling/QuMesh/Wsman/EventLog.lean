import QuMesh.Wsman.AuditLog
import QuMesh.Wsman.ParallelReads

/-!
# The event log

`enumerateEventLog` and the decoder of a record. The device positions an
iteration to the first record and is then asked for batches, until it says that
there are no more records or gives no iteration to go on with, or until there
are as many entries as the reader takes.
-/

namespace QuMesh.Wsman

open QuMesh.Lib QuMesh.Lib.Xml

/-- Lacks `recordId` until the record is put into a list. -/
structure EventLogEntry where
  recordId : String := ""
  timestamp : String := ""
  severity : String := ""
  message : String := ""
  entityLabel : String := ""
  deriving DecidableEq, Repr

structure EventLogResult where
  ok : Bool := false
  error : String := ""
  entries : List EventLogEntry := []
  deriving DecidableEq, Repr

/-! ## Labels -/

def kSystemEntityTypes : List String :=
  ["Unspecified", "Other", "Unknown", "Processor", "Disk", "Peripheral",
    "System management module", "System board", "Memory module",
    "Processor module", "Power supply", "Add in card", "Front panel board",
    "Back panel board", "Power system board", "Drive backplane",
    "System internal expansion board", "Other system board", "Processor board",
    "Power unit", "Power module", "Power management board",
    "Chassis back panel board", "System chassis", "Sub chassis",
    "Other chassis board", "Disk drive bay", "Peripheral bay", "Device bay",
    "Fan cooling", "Cooling unit", "Cable interconnect", "Memory device",
    "System management software", "BIOS", "Intel(r) ME", "System bus", "Group",
    "Intel(r) ME", "External environment", "Battery", "Processing blade",
    "Connectivity switch", "Processor/memory module", "I/O module",
    "Processor I/O module", "Management controller firmware", "IPMI channel",
    "PCI bus", "PCI express bus", "SCSI bus", "SATA/SAS bus",
    "Processor front side bus"]

def kSystemFirmwareError : List String :=
  ["Unspecified.", "No system memory is physically installed in the system.",
    "No usable system memory, all installed memory has experienced an " ++
      "unrecoverable failure.",
    "Unrecoverable hard-disk/ATAPI/IDE device failure.",
    "Unrecoverable system-board failure.",
    "Unrecoverable diskette subsystem failure.",
    "Unrecoverable hard-disk controller failure.",
    "Unrecoverable PS/2 or USB keyboard failure.",
    "Removable boot media not found.",
    "Unrecoverable video controller failure.", "No video device detected.",
    "Firmware (BIOS) ROM corruption detected.",
    "CPU voltage mismatch (processors that share same supply have " ++
      "mismatched voltage requirements)",
    "CPU speed matching failure"]

def kSystemFirmwareProgress : List String :=
  ["Unspecified.", "Memory initialization.",
    "Starting hard-disk initialization and test",
    "Secondary processor(s) initialization", "User authentication",
    "Entering BIOS setup", "USB resource configuration",
    "PCI resource configuration", "Option ROM initialization",
    "Video initialization", "Cache initialization", "SM Bus initialization",
    "Keyboard controller initialization",
    "Embedded controller/management controller initialization",
    "Docking station attachment", "Enabling docking station",
    "Docking station ejection", "Disabling docking station",
    "Calling operating system wake-up vector",
    "Starting operating system boot process",
    "Baseboard or motherboard initialization", "reserved",
    "Floppy initialization", "Keyboard test", "Pointing device test",
    "Primary processor initialization"]

def kOcrProgressEvents : List String :=
  ["Boot parameters received from CSME",
    "CSME Boot Option % added successfully", "HTTPS URI name resolved",
    "HTTPS connected successfully", "HTTPSBoot download is completed",
    "Attempt to boot", "Exit boot services"]

def kOcrErrorEvents : List String :=
  ["", "No network connection available", "Name resolution of URI failed",
    "Connect to URI failed", "OEM app not found at local URI",
    "HTTPS TLS Auth failed", "HTTPS Digest Auth failed",
    "Verified boot failed (bad image)", "HTTPS Boot File not found"]


def eventWatchdogStateName (code : Nat) : String :=
  match code with
  | 1 => "Not Started"
  | 2 => "Stopped"
  | 4 => "Running"
  | 8 => "Expired"
  | 16 => "Suspended"
  | code => toString code

def ocrSourceName (code : Nat) : String :=
  match code with
  | 2 => "HTTPS"
  | 4 => "Local PBA"
  | 8 => "WinRE"
  | code => toString code

def formatHex2 (v : Nat) : String :=
  String.ofList [Nat.digitChar (v % 256 / 16), Nat.digitChar (v % 16)]

/-- Sensor type 15. -/
def firmwareMessage (offset : Nat) (d : Nat → Nat) : String :=
  let idx := d 1
  if d 0 = 235 then "Invalid Data"
  else if offset = 0 then
    kSystemFirmwareError[idx]?.getD s!"Unknown firmware error {idx}"
  else if offset = 3 then
    let other := "OEM Specific Firmware Error event"
    if d 0 = 170 ∧ d 1 = 48 then
      match kOcrErrorEvents[d 2]? with
      | some event => s!"AMT One Click Recovery: {event}"
      | none => other
    else if d 0 = 170 ∧ d 1 = 64 then
      match d 2 with
      | 1 => "Got an error erasing Device SSD"
      | 2 => "Erasing Device TPM is not supported"
      | 3 => "Reached Max Counter"
      | _ => other
    else other
  else if offset = 5 then
    let other := "OEM Specific Firmware Progress event"
    if d 0 = 170 ∧ d 1 = 48 then
      let event := d 2
      if event = 1 then
        let code := d 3
        let source := ocrSourceName code
        s!"AMT One Click Recovery: CSME Boot Option {code}:{source} " ++
          "added successfully"
      else if event < 7 then
        "AMT One Click Recovery: " ++ kOcrProgressEvents.getD event ""
      else s!"AMT One Click Recovery: Unknown progress event {event}"
    else if d 0 = 170 ∧ d 1 = 64 then
      match d 2, d 3 with
      | 1, 2 => "Started erasing Device SSD"
      | 1, 3 => "Started erasing Device TPM"
      | 1, 5 => "Started erasing Device BIOS Reload of Golden Config"
      | 2, 2 => "Erasing Device SSD ended successfully"
      | 2, 3 => "Erasing Device TPM ended successfully"
      | 2, 5 =>
          "Erasing Device BIOS Reload of Golden Config ended successfully"
      | 3, _ => "Beginning Platform Erase"
      | 4, _ => "Clear Reserved Parameters"
      | 5, _ => "All setting decremented"
      | _, _ => other
    else other
  else
    kSystemFirmwareProgress[idx]?.getD s!"Unknown firmware progress {idx}"

/-- Sensor type 36. -/
def filterMessage (d : Nat → Nat) : String :=
  let handle := d 1 * 2 ^ 24 + d 2 * 2 ^ 16 + d 3 * 2 ^ 8 + d 4
  let number := d 0
  let nic := if number = 0xAA then "wired" else s!"#{number}"
  if handle = 0xFFFFFFFD then
    s!"All received packet filter was matched on {nic} interface."
  else if handle = 0xFFFFFFFC then
    s!"All outbound packet filter was matched on {nic} interface."
  else if handle = 0xFFFFFFFA then
    s!"Spoofed packet filter was matched on {nic} interface."
  else s!"Filter {handle} was matched on {nic} interface."

def formatEventMessage (sensorType offset : Nat) (d : Nat → Nat) : String :=
  let session := d 2
  let posture := d 0 = 0xAA ∧ d 1 = 0x20
  if sensorType = 15 then firmwareMessage offset d
  else if sensorType = 18 ∧ d 0 = 170 then
    let hex (i : Nat) : String := formatHex2 (d i)
    "Agent watchdog " ++ hex 4 ++ hex 3 ++ hex 2 ++ hex 1 ++ "-" ++ hex 6 ++
      hex 5 ++ "-... changed to " ++ eventWatchdogStateName (d 7)
  else if sensorType = 5 ∧ offset = 0 then "Case intrusion"
  else if sensorType = 192 ∧ offset = 0 ∧ d 0 = 170 ∧ d 1 = 48 ∧
      session < 4 then
    match session with
    | 0 => "A remote Serial Over LAN session was established."
    | 1 =>
        "Remote Serial Over LAN session finished. User control was restored."
    | 2 => "A remote IDE-Redirection session was established."
    | _ =>
        "Remote IDE-Redirection session finished. User control was restored."
  else if sensorType = 36 then filterMessage d
  else if sensorType = 192 then
    match session with
    | 0 =>
        "Security policy invoked. Some or all network traffic (TX) " ++
          "was stopped."
    | 2 =>
        "Security policy invoked. Some or all network traffic (RX) " ++
          "was stopped."
    | _ => "Security policy invoked."
  else if sensorType = 193 ∧ d 0 = 0xAA ∧ d 1 = 0x30 ∧ d 2 = 0x00 ∧
      d 3 = 0x00 then
    "User request for remote connection."
  else if sensorType = 193 ∧ posture ∧ d 2 = 0x03 ∧ d 3 = 0x01 then
    "EAC error: attempt to get posture while NAC in Intel AMT is disabled."
  else if sensorType = 193 ∧ posture ∧ d 2 = 0x04 ∧ d 3 = 0x00 then
    "HWA Error: general error"
  else if sensorType = 6 then
    let times := d 1 + d 2 * 256
    s!"Authentication failed {times} times. The system may be under attack."
  else if sensorType = 30 then "No bootable media"
  else if sensorType = 32 then "Operating system lockup or power interrupt"
  else if sensorType = 35 then
    if d 0 = 64 then "BIOS POST (Power On Self-Test) Watchdog Timeout."
    else "System boot failure"
  else if sensorType = 37 then
    "System firmware started (at least one CPU is properly executing)."
  else s!"Unknown Sensor Type #{sensorType}"

def entityLabel (entity : Nat) : String := kSystemEntityTypes.getD entity ""

/-! ## Records -/

/-- The day in the calendar, from the days since 1970. -/
def civil (days : Nat) : Nat × Nat × Nat :=
  -- years begin in March, so that the leap day is the last of its year
  let z := days + 719468
  let doe := z % 146097
  let yoe := (doe - doe / 1460 + doe / 36524 - doe / 146096) / 365
  let doy := doe - (365 * yoe + yoe / 4 - yoe / 100)
  let mp := (5 * doy + 2) / 153
  let month := if mp < 10 then mp + 3 else mp - 9
  let year := yoe + z / 146097 * 400 + if month ≤ 2 then 1 else 0
  (year, month, doy - (153 * mp + 2) / 5 + 1)

/-- A number in so many digits. -/
def padded (width n : Nat) : List Char :=
  let digits := Nat.toDigits 10 n
  List.replicate (width - digits.length) '0' ++ digits

/-- `yyyy-MM-dd hh:mm:ss`, in UTC. -/
def formatTimestamp (ts : Nat) : String :=
  let (year, month, day) := civil (ts / 86400)
  let s := ts % 86400
  String.ofList (padded 4 year ++ '-' :: padded 2 month ++ '-' ::
    padded 2 day ++ ' ' :: padded 2 (s / 3600) ++ ':' ::
    padded 2 (s / 60 % 60) ++ ':' :: padded 2 (s % 60))

def kEventRecordSize : Nat := 21

def decodeEventRecord (raw : Bytes) : EventLogEntry :=
  if raw.length < kEventRecordSize then {}
  else
    let b := byteAt raw
    let ts := b 0 + b 1 * 2 ^ 8 + b 2 * 2 ^ 16 + b 3 * 2 ^ 24
    if ts = 0 ∨ ts = 0xFFFFFFFF then {}
    else
      { timestamp := formatTimestamp ts
        severity := toString (b 9)
        message := formatEventMessage (b 5) (b 7) fun i => b (13 + i)
        entityLabel := entityLabel (b 11) }

def collectRecordArray (bodyXml : List Token) : List String :=
  elementTexts bodyXml "RecordArray"

/-! ## Batches -/

def kMaxRecords : Nat := 8000

/-- Which request is out. -/
inductive EventLogStep where
  | positioning
  | getting
  deriving DecidableEq, Repr

/-- `enumerateEventLog`: the requests, the entries so far, and the calls of the
callback. -/
structure EventLogRead where
  waiting : Option EventLogStep := some .positioning
  sent : List Invoke := [.positionToFirstRecord]
  items : List EventLogEntry := []
  calls : List EventLogResult := []

namespace EventLogRead

def done (error : String) (s : EventLogRead) : EventLogRead :=
  { s with
    waiting := none
    items := []
    calls := s.calls ++ [{ ok := error = "", error, entries := s.items }] }

/-- Without a client nothing is sent. -/
def withoutClient : EventLogRead :=
  ({ sent := [] } : EventLogRead).done "client is null"

def getRecordsStep (iterId : String) (s : EventLogRead) : EventLogRead :=
  { s with waiting := some .getting, sent := s.sent ++ [.getRecords iterId] }

/-- The loop over the records of a batch; nothing where it ends the reading. -/
def takeRecords : List String → EventLogRead → EventLogRead × Bool
  | [], s => (s, true)
  | b64 :: records, s =>
      let raw := (fromBase64 false (Strings.toLatin1 b64)).getD []
      let e := decodeEventRecord raw
      if e.timestamp = "" then takeRecords records s
      else
        let recordId := toString (s.items.length + 1)
        let s := { s with items := s.items ++ [{ e with recordId }] }
        if s.items.length ≥ kMaxRecords then (s.done "", false)
        else takeRecords records s

/-- The reply to PositionToFirstRecord. -/
def positioned (soap : SoapResponse) (s : EventLogRead) : EventLogRead :=
  let rv := findScalar soap.bodyXml "ReturnValue"
  let iterId := findScalar soap.bodyXml "IterationIdentifier"
  if rv ≠ "0" then s.done s!"PositionToFirstRecord returned {rv}"
  else if iterId = "" then
    s.done "PositionToFirstRecord had no IterationIdentifier"
  else s.getRecordsStep iterId

/-- The reply to GetRecords. -/
def received (soap : SoapResponse) (s : EventLogRead) : EventLogRead :=
  let rv := findScalar soap.bodyXml "ReturnValue"
  if rv ≠ "0" then s.done s!"GetRecords returned {rv}"
  else
    match takeRecords (collectRecordArray soap.bodyXml) s with
    | (s, false) => s
    | (s, true) =>
        let noMore := findScalar soap.bodyXml "NoMoreRecords"
        let nextId := findScalar soap.bodyXml "IterationIdentifier"
        if noMore.toLower = "true" then s.done ""
        else if nextId = "" then s.done ""
        else s.getRecordsStep nextId

/-- The reply to the request that is out. -/
def reply (s : EventLogRead) (r : Outcome) : EventLogRead :=
  match s.waiting, r.response with
  | none, _ => s
  | some _, .error error => s.done error
  | some .positioning, .ok soap => s.positioned soap
  | some .getting, .ok soap => s.received soap

end EventLogRead

end QuMesh.Wsman
