import QuMesh.Lib.Bytes
import QuMesh.Lib.Run

/-!
# The network scan

`Scanner` sends presence pings in bursts, waits for a quiet window behind the
last one, and looks up the name of every sender whose pong carries the tag of
the scan. The look-ups are not tied to the scan: their callbacks run whenever
the answer comes. `ScannerController` makes a row of each.

The number of a scan, its targets and the sender behind a row are not in the
code: they say what a row came from. A new scan begins where the controller
gets past its targets, whether the socket is bound or not.
-/

namespace QuMesh.Rmcp

open QuMesh.Lib

/-- `quint32`, as `QHostAddress` has an IPv4 address. -/
abbrev HostAddress := UInt32

def HostAddress.toText (a : HostAddress) : String :=
  let part (shift : Nat) : String := toString (a.toNat / shift % 256)
  part 16777216 ++ "." ++ part 65536 ++ "." ++ part 256 ++ "." ++ part 1

/-! ## Pings and pongs -/

inductive ProvisioningState
  | preProvisioning
  | inProcess
  | postProvisioning
  deriving DecidableEq, Repr

def ProvisioningState.toNat : ProvisioningState → Nat
  | .preProvisioning => 0
  | .inProcess => 1
  | .postProvisioning => 2

structure PongMessage where
  tag : Nat
  versionMajor : Nat
  versionMinor : Nat
  provisioning : ProvisioningState
  dualPorts : Bool
  openPort : Nat
  deriving DecidableEq, Repr

def kRmcpVersion : UInt8 := 0x06
def kRmcpMsgClassAsf : UInt8 := 0x06
def kAsfMsgTypePing : UInt8 := 0x80
def kAsfMsgTypePong : UInt8 := 0x40
def kIntelEnt : Bytes := [0x00, 0x00, 0x11, 0xBE]

def buildPing (tag : UInt8) : Bytes :=
  [kRmcpVersion, 0x00, 0x00, kRmcpMsgClassAsf] ++ kIntelEnt ++
    [kAsfMsgTypePing, tag, 0x00, 0x00]

/-- The low two bits of byte 19; 3 is reserved. -/
def provisioningOf : Nat → Option ProvisioningState
  | 0 => some .preProvisioning
  | 1 => some .inProcess
  | 2 => some .postProvisioning
  | _ => none

def parsePong (b : Bytes) : Option PongMessage :=
  if b.length < 22 then none
  else if byteAt b 3 ≠ kRmcpMsgClassAsf.toNat then none
  else if (b.drop 4).take 4 ≠ kIntelEnt then none
  else if byteAt b 8 ≠ kAsfMsgTypePong.toNat then none
  else
    match provisioningOf (byteAt b 19 % 4) with
    | none => none
    | some provisioning =>
        some {
          tag := byteAt b 9
          openPort := byteAt b 16 * 256 + byteAt b 17
          versionMajor := byteAt b 18 / 16
          versionMinor := byteAt b 18 % 16
          provisioning
          dualPorts := byteAt b 19 / 4 % 2 = 1 }

/-! ## The state -/

/-- What `parseTargets` makes of an address, a range or a network. -/
structure Targets where
  addresses : List HostAddress
  distinct : addresses.Nodup

/-- A name is being looked up. -/
structure Lookup where
  id : Nat
  pong : PongMessage
  source : HostAddress
  scan : Nat

structure HostInfo where
  failed : Bool
  hostName : String

structure ScanResult where
  ip : String
  reverseDns : String
  versionMajor : Nat
  versionMinor : Nat
  provisioning : Nat
  dualPorts : Bool
  selected : Bool
  deriving DecidableEq, Repr

/-- A row, and the reply it came from. -/
structure Row extends ScanResult where
  source : HostAddress
  scan : Nat

inductive Effect
  | started (scan : Nat)
  | pinged (scan : Nat) (target : HostAddress) (datagram : Bytes)
  | finished (scan : Nat)
  deriving DecidableEq, Repr

structure Scan where
  -- the scanner
  socket : Bool := false
  sendTimer : Bool := false
  waitTimer : Bool := false
  pending : List HostAddress := []
  nextIndex : Nat := 0
  tag : UInt8 := 0
  lastError : String := ""
  -- the controller
  results : List Row := []
  scanning : Bool := false
  status : String := ""
  -- what is outstanding
  lookups : List Lookup := []
  nextLookup : Nat := 0
  scan : Nat := 0
  targets : List HostAddress := []
  out : List Effect := []

def kBurstSize : Nat := 32

namespace Scan

def emit (e : Effect) (s : Scan) : Scan := { s with out := s.out ++ [e] }

/-! ## `ScannerController`, as the scanner calls it -/

/-- The slot on `finished`. -/
def onFinished (s : Scan) : Scan :=
  { s with
    scanning := false
    status :=
      if s.results.isEmpty then "Scan finished — no AMT devices responded."
      else s!"Scan finished — {s.results.length} device(s)." }

/-- The slot on `pongReceived`. -/
def onPongReceived (l : Lookup) (reverseDns : String) (s : Scan) : Scan :=
  let r : Row := {
    ip := l.source.toText
    reverseDns
    versionMajor := l.pong.versionMajor
    versionMinor := l.pong.versionMinor
    provisioning := l.pong.provisioning.toNat
    dualPorts := l.pong.dualPorts
    selected := true
    source := l.source
    scan := l.scan }
  let results := s.results ++ [r]
  { s with results, status := s!"Found {results.length} device(s)…" }

/-! ## `Scanner` -/

def finished (s : Scan) : Scan := (s.emit (.finished s.scan)).onFinished

def teardownTimers (s : Scan) : Scan :=
  { s with sendTimer := false, waitTimer := false }

def stopScanner (s : Scan) : Scan :=
  let s := { s.teardownTimers with socket := false }
  if s.pending.isEmpty then s
  else ({ s with pending := [], nextIndex := 0 }).finished

def onSendBurst (s : Scan) : Scan :=
  if !s.socket then s
  else
    let ping := buildPing s.tag
    let stop := min (s.nextIndex + kBurstSize) s.pending.length
    let burst := (s.pending.drop s.nextIndex).take (stop - s.nextIndex)
    let s : Scan := { s with
      out := s.out ++ burst.map fun a => .pinged s.scan a ping
      nextIndex := stop }
    if s.nextIndex ≥ s.pending.length then
      { s with sendTimer := false, waitTimer := true }
    else s

/-- Whether the scanner started, and the scanner. -/
def startScanner (targets : List HostAddress) (bindError : Option String)
    (tag : UInt8) (s : Scan) : Bool × Scan :=
  let s := s.stopScanner
  let s := { s with scan := s.scan + 1, targets }
  if targets.isEmpty then
    (false, { s with lastError := "No targets to scan." })
  else
    match bindError with
    | some error => (false, { s with lastError := error })
    | none =>
        let s := ({ s with
          socket := true
          pending := targets
          nextIndex := 0
          tag
          lastError := "" }).emit (.started s.scan)
        let s := s.onSendBurst
        (true, if s.nextIndex < s.pending.length then
          { s with sendTimer := true } else s)

/-- The scan whose ping a datagram answers, as far as the scanner looks. -/
def pongOf (bytes : Bytes) (s : Scan) : Option PongMessage :=
  if !s.socket then none
  else
    match parsePong bytes with
    | none => none
    | some pong => if pong.tag ≠ s.tag.toNat then none else some pong

def onReadyRead (source : HostAddress) (bytes : Bytes) (s : Scan) : Scan :=
  match s.pongOf bytes with
  | none => s
  | some pong =>
      { s with
        lookups := s.lookups ++
          [{ id := s.nextLookup, pong, source, scan := s.scan }]
        nextLookup := s.nextLookup + 1 }

/-- The name of a sender, where it is more than its address. -/
def nameOf (source : HostAddress) (info : HostInfo) : String :=
  if !info.failed && !info.hostName.isEmpty &&
      info.hostName ≠ source.toText then info.hostName
  else ""

def onLookup (id : Nat) (info : HostInfo) (s : Scan) : Scan :=
  match s.lookups.find? fun l => l.id = id with
  | none => s
  | some l =>
      ({ s with
        lookups := s.lookups.filter fun l => l.id ≠ id }).onPongReceived l
          (nameOf l.source info)

def onWaitElapsed (s : Scan) : Scan :=
  ({ s with
    waitTimer := false
    socket := false
    pending := []
    nextIndex := 0 }).finished

/-! ## `ScannerController` -/

def start (parsed : Except String Targets) (bindError : Option String)
    (tag : UInt8) (s : Scan) : Scan :=
  if s.scanning then s
  else
    match parsed with
    | .error error =>
        { s with status := if error.isEmpty then "Invalid target." else error }
    | .ok targets =>
        if targets.addresses.isEmpty then { s with status := "Invalid target." }
        else
          let s := { s with results := [] }
          match s.startScanner targets.addresses bindError tag with
          | (false, s) =>
              { s with status := s!"Failed to start scan: {s.lastError}" }
          | (true, s) =>
              { s with
                scanning := true
                status := s!"Scanning {targets.addresses.length} address(es)…" }

def stop (s : Scan) : Scan :=
  if !s.scanning then s
  else { s.stopScanner with status := "Scan cancelled." }

def setSelected (row : Nat) (selected : Bool) (s : Scan) : Scan :=
  { s with results := s.results.modify row fun r => { r with selected } }

end Scan

/-! ## The event loop -/

inductive Event
  | start (parsed : Except String Targets) (bindError : Option String)
      (tag : UInt8)
  | stop
  | sendTimeout
  | waitTimeout
  | datagram (source : HostAddress) (bytes : Bytes)
  | lookedUp (id : Nat) (info : HostInfo)
  | setSelected (row : Nat) (selected : Bool)

namespace Scan

def step (s : Scan) : Event → Scan
  | .start parsed bindError tag => s.start parsed bindError tag
  | .stop => s.stop
  | .sendTimeout => if s.sendTimer then s.onSendBurst else s
  | .waitTimeout => if s.waitTimer then s.onWaitElapsed else s
  | .datagram source bytes => s.onReadyRead source bytes
  | .lookedUp id info => s.onLookup id info
  | .setSelected row selected => s.setSelected row selected

end Scan

end QuMesh.Rmcp
