import QuMesh.Ider.Codec
import QuMesh.Lib.Run

/-!
# `IderSession`

A CD-ROM drive that is an ISO file and a redirection client: frames come in
through `onRawBytes`, a `CommandWritten` is answered by the SCSI handler of
its opcode, and a read is answered chunk by chunk from a zero timer that
re-arms itself. A member function is a function on the session's state under
its own name, and signals and writes are entries of `out`.

What is outside is in `Env`: what a write through the client returns and what
is in a file. The events are the slots the event loop may call next, in any
order. A read of the file is a read of the contents it had when it was opened,
and a seek inside it succeeds.
-/

namespace QuMesh.Ider

open QuMesh.Lib

inductive Frame
  | openSession (sequence rxTimeoutMs txTimeoutMs hbTimeoutMs version : Nat)
  | keepAlivePong (sequence : Nat)
  | resetResponse (sequence : Nat)
  | enableFeatures (sequence : Nat) (type : UInt8) (data : Bytes)
  | commandEndResponse (sequence : Nat) (error : Bool)
      (sense device asc asq : UInt8)
  | sendDataToHost (sequence : Nat) (device : UInt8) (completed : Bool)
      (data : Bytes) (dma : Bool)
  deriving DecidableEq, Repr

def Frame.bytes : Frame → Bytes
  | .openSession sequence rx tx hb version =>
      buildOpenSession sequence rx tx hb version
  | .keepAlivePong sequence => buildKeepAlivePong sequence
  | .resetResponse sequence => buildResetResponse sequence
  | .enableFeatures sequence type data => buildEnableFeatures sequence type data
  | .commandEndResponse sequence error sense device asc asq =>
      buildCommandEndResponse sequence error sense device asc asq
  | .sendDataToHost sequence device completed data dma =>
      buildSendDataToHost sequence device completed data dma

/-- The frames `drainInbox` takes off the inbox. -/
inductive Inbound
  | openSessionReply (info : SessionInfo)
  | close
  | keepAlivePing
  | keepAlivePong
  | resetOccurred
  | statusData (data : StatusData)
  | errorOccurred
  | heartbeat
  | commandWritten (cmd : ScsiCommand)
  | unknown (tag : UInt8)
  deriving DecidableEq, Repr

inductive Effect
  | wrote (frame : Frame) (result : Int)
  | sessionOpened (info : SessionInfo)
  | enabledChanged (enabled : Bool)
  | statsChanged (toAmt fromAmt : Nat)
  | closed (reason : String)
  /-- Not signals: the history of what was parsed and of calls of `start`. -/
  | received (frame : Inbound)
  | started
  deriving DecidableEq, Repr

structure Env where
  /-- What the n-th `writeRaw` returns. -/
  writeRaw : Nat → Bytes → Int
  /-- The client's `lastError` after it. -/
  lastError : Nat → String
  /-- What a file holds, if it can be opened. -/
  file : String → Option Bytes
  fileError : String → String

/-- An open `QFile`. -/
structure IsoFile where
  contents : Bytes
  pos : Nat := 0
  deriving DecidableEq, Repr

structure Session where
  isoPath : String := ""
  isoFile : Option IsoFile := none
  isoSize : Nat := 0
  startOption : StartOption := .graceful
  info : SessionInfo := {}
  inbox : Bytes := []
  outSequence : Nat := 0
  bytesSentToAmt : Nat := 0
  bytesReceivedFromAmt : Nat := 0
  opened : Bool := false
  enabled : Bool := false
  cdReady : Bool := false
  remainingReadBytes : Nat := 0
  chunkDev : UInt8 := 0
  chunkFeature : UInt8 := 0
  chunkSize : Nat := 0
  scsiReadInFlight : Bool := false
  lastError : String := ""
  /-- Single shots of `sendNextScsiChunk` in the event queue. -/
  chunkTimers : Nat := 0
  /-- How many writes there have been. -/
  writes : Nat := 0
  out : List Effect := []
  deriving DecidableEq, Repr

def kRxTimeoutMs : Nat := 30000
def kTxTimeoutMs : Nat := 0
def kHeartbeatMs : Nat := 20000
def kProtocolVersion : Nat := 1
def kMaxReadCap : Nat := 8192

namespace Session

def emit (e : Effect) (s : Session) : Session := { s with out := s.out ++ [e] }

def fail (reason : String) (s : Session) : Session :=
  let s := { s with lastError := reason, isoFile := none }
  let s :=
    if s.opened || s.enabled then
      ({ s with opened := false, enabled := false }).emit (.enabledChanged false)
    else s
  s.emit (.closed reason)

/-! ## The senders -/

def writeFrame (env : Env) (frame : Frame) (s : Session) : Session :=
  let result := env.writeRaw s.writes frame.bytes
  let s := ({ s with writes := s.writes + 1 }).emit (.wrote frame result)
  if result ≤ 0 then s.fail s!"write failed: {env.lastError s.writes}"
  else
    let s := { s with bytesSentToAmt := s.bytesSentToAmt + frame.bytes.length }
    s.emit (.statsChanged s.bytesSentToAmt s.bytesReceivedFromAmt)

/-- Write a frame under the next sequence number. -/
def writeNumbered (env : Env) (frame : Nat → Frame) (s : Session) : Session :=
  ({ s with outSequence := (s.outSequence + 1) % 2 ^ 32 }).writeFrame env
    (frame s.outSequence)

def sendData (env : Env) (dev : UInt8) (completed : Bool) (data : Bytes)
    (dma : Bool) (s : Session) : Session :=
  s.writeNumbered env fun n => .sendDataToHost n dev completed data dma

def sendOk (env : Env) (dev : UInt8) (s : Session) : Session :=
  s.writeNumbered env fun n =>
    .commandEndResponse n false kSenseNoSense dev 0x00 0x00

def sendError (env : Env) (dev sense asc asq : UInt8) (s : Session) : Session :=
  s.writeNumbered env fun n => .commandEndResponse n false sense dev asc asq

/-! ## Opening -/

def start (env : Env) (authenticated : Bool) (s : Session) : Session :=
  let s := s.emit .started
  if !authenticated then s.fail "client not authenticated"
  else
    let opening (s : Session) : Session :=
      s.writeNumbered env fun n =>
        .openSession n kRxTimeoutMs kTxTimeoutMs kHeartbeatMs kProtocolVersion
    if s.isoPath.isEmpty then opening s
    else
      -- a file that is still open is closed by `setFileName`
      match env.file s.isoPath with
      | none =>
          s.fail s!"cannot open ISO {s.isoPath}: {env.fileError s.isoPath}"
      | some contents =>
          opening { s with
            isoFile := some { contents }
            isoSize := contents.length }

/-- Arm the device, or arm it again, with the configured trigger. -/
def enableFeatures (env : Env) (s : Session) : Session :=
  s.writeNumbered env fun n =>
    .enableFeatures n kStatusRegsToggle (pack32Le (0x01 ||| s.startOption.code))

def onOpenSessionReply (env : Env) (info : SessionInfo) (s : Session) :
    Session :=
  if info.proto ≠ 0 then s.fail s!"unsupported IDE-R proto {info.proto.toNat}"
  else if info.readBuffer > kMaxReadCap ∨ info.writeBuffer > kMaxReadCap then
    s.fail (s!"illegal IDE-R buffer sizes (read={info.readBuffer} " ++
      s!"write={info.writeBuffer})")
  else
    (({ s with info, opened := true }).emit (.sessionOpened info)).enableFeatures
      env

def onStatusData (env : Env) (data : StatusData) (s : Session) : Session :=
  if data.type = kStatusRegsAvail then
    if data.value % 2 = 1 then s.enableFeatures env else s
  else if data.type = kStatusRegsStatus then
    let en := data.value / 2 % 2 == 1
    if en ≠ s.enabled then
      ({ s with enabled := en }).emit (.enabledChanged en)
    else s
  else s

/-! ## The SCSI handlers -/

def feature (fr : UInt8) : Bool := fr &&& 0x01 ≠ 0

def scsiTestUnitReady (env : Env) (dev : UInt8) (s : Session) : Session :=
  if dev ≠ kDeviceCdRom ∨ s.isoFile.isNone then
    s.sendError env dev kSenseNotReady 0x3A 0x00
  else if !s.cdReady then
    -- "media changed"
    ({ s with cdReady := true }).sendError env dev kSenseUnitAttention 0x28 0x00
  else s.sendOk env dev

def scsiModeSense6 (env : Env) (cdb : Bytes) (dev fr : UInt8) (s : Session) :
    Session :=
  if cdb.length < 4 then s.sendError env dev kSenseIllegalRequest 0x20 0x00
  else if cdb.getD 2 0 = 0x3F ∧ cdb.getD 3 0 = 0x00 then
    if dev = kDeviceCdRom then
      if s.isoFile.isNone then s.sendError env dev kSenseNotReady 0x3A 0x00
      else s.sendData env dev true [0x00, 0x05, 0x80, 0x00] (feature fr)
    else s.sendError env dev kSenseNotReady 0x3A 0x00
  else s.sendError env dev kSenseIllegalRequest 0x24 0x00

/-- The mode page of a CD-ROM, empty for one it does not have. -/
def modeSensePage (dev pageCode : UInt8) : Bytes :=
  if dev ≠ kDeviceCdRom then []
  else if pageCode = 0x01 then modeSenseCdErrorRecovery
  else if pageCode = 0x1A then modeSenseCd1A
  else if pageCode = 0x1D then modeSenseCd1D
  else if pageCode = 0x2A then modeSenseCd2A
  else if pageCode = 0x3F then modeSenseCd3F
  else []

def scsiModeSense10 (env : Env) (cdb : Bytes) (dev fr : UInt8) (s : Session) :
    Session :=
  if cdb.length < 8 then s.sendError env dev kSenseIllegalRequest 0x20 0x00
  else
    let buflen := read16Be cdb 7
    if buflen = 0 then
      s.sendData env dev true (pack32Be 0x003C0000 ++ pack32Be 0x00000008)
        (feature fr)
    else
      let r := modeSensePage dev (cdb.getD 2 0 &&& 0x3F)
      if r.isEmpty then s.sendError env dev kSenseIllegalRequest 0x20 0x00
      else s.sendData env dev true (r.take buflen) (feature fr)

def scsiAllowMediumRemoval (env : Env) (dev : UInt8) (s : Session) : Session :=
  if dev = kDeviceCdRom ∧ s.isoFile.isNone then
    s.sendError env dev kSenseNotReady 0x3A 0x00
  else s.sendOk env dev

def scsiStartStop (env : Env) (dev : UInt8) (s : Session) : Session :=
  s.sendOk env dev

def scsiReadCapacity (env : Env) (dev fr : UInt8) (s : Session) : Session :=
  if dev ≠ kDeviceCdRom ∨ s.isoFile.isNone ∨ s.isoSize < 2048 then
    s.sendError env dev kSenseNotReady 0x3A 0x00
  else
    let lastLba := (s.isoSize / 2 ^ 11 - 1) % 2 ^ 32
    s.sendData env dev true (pack32Be lastLba ++ [0x00, 0x00, 0x08, 0x00])
      (feature fr)

/-- The LBA and the length, in blocks, of a READ. A short CDB has none. -/
def readExtent (cdb : Bytes) (isRead10 : Bool) : Option (Nat × Nat) :=
  if isRead10 then
    if cdb.length < 9 then none
    else some (read32Be cdb 2, read16Be cdb 7)
  else
    if cdb.length < 5 then none
    else
      let lba := byteAt cdb 1 % 2 ^ 5 * 2 ^ 16 + byteAt cdb 2 * 2 ^ 8 +
        byteAt cdb 3
      let len := byteAt cdb 4
      some (lba, if len = 0 then 256 else len)

def scsiRead (env : Env) (cdb : Bytes) (dev fr : UInt8) (isRead10 : Bool)
    (s : Session) : Session :=
  match s.isoFile with
  | none => s.sendError env dev kSenseNotReady 0x3A 0x00
  | some iso =>
      if dev ≠ kDeviceCdRom then s.sendError env dev kSenseNotReady 0x3A 0x00
      else
        match readExtent cdb isRead10 with
        | none => s.sendError env dev kSenseIllegalRequest 0x20 0x00
        | some (lba, len) =>
            let totalBlocks := s.isoSize / 2 ^ 11
            if lba + len > totalBlocks then
              s.sendError env dev kSenseIllegalRequest 0x21 0x00
            else if len = 0 then s.sendOk env dev
            else if s.scsiReadInFlight then
              s.fail ("AMT issued a second SCSI Read before the previous " ++
                "one completed — interleaved reads not supported")
            else
              { s with
                isoFile := some { iso with pos := lba * 2 ^ 11 }
                remainingReadBytes := len * 2 ^ 11
                chunkDev := dev
                chunkFeature := fr
                chunkSize :=
                  if s.info.readBuffer > 0 then s.info.readBuffer
                  else kMaxReadCap
                scsiReadInFlight := true
                chunkTimers := s.chunkTimers + 1 }

def sendNextScsiChunk (env : Env) (s : Session) : Session :=
  match s.isoFile with
  | none => { s with scsiReadInFlight := false }
  | some iso =>
      if s.remainingReadBytes = 0 then { s with scsiReadInFlight := false }
      else
        let want := min s.remainingReadBytes s.chunkSize
        let data := (iso.contents.drop iso.pos).take want
        let s := { s with
          isoFile := some { iso with pos := iso.pos + data.length } }
        if data.length ≠ want then
          { s.sendError env s.chunkDev kSenseIllegalRequest 0x21 0x00 with
            remainingReadBytes := 0
            scsiReadInFlight := false }
        else
          let remaining := s.remainingReadBytes - want
          let completed := remaining == 0
          let s := ({ s with remainingReadBytes := remaining }).sendData env
            s.chunkDev completed data (feature s.chunkFeature)
          if s.remainingReadBytes > 0 then
            { s with chunkTimers := s.chunkTimers + 1 }
          else { s with scsiReadInFlight := false }

def tocSingleTrack : Bytes :=
  [0x00, 0x0A, 0x01, 0x01, 0x00, 0x14, 0x01, 0x00, 0x00, 0x00, 0x00, 0x00]

def tocMsf : Bytes :=
  [0x00, 0x12, 0x01, 0x01, 0x00, 0x14, 0x01, 0x00,
    0x00, 0x00, 0x02, 0x00, 0x00, 0x14, 0xAA, 0x00,
    0x00, 0x00, 0x34, 0x13]

def tocLba : Bytes :=
  [0x00, 0x12, 0x01, 0x01, 0x00, 0x14, 0x01, 0x00,
    0x00, 0x00, 0x00, 0x00, 0x00, 0x14, 0xAA, 0x00,
    0x00, 0x00, 0x00, 0x00]

def scsiReadToc (env : Env) (cdb : Bytes) (dev fr : UInt8) (s : Session) :
    Session :=
  if dev ≠ kDeviceCdRom then s.sendError env dev kSenseIllegalRequest 0x20 0x00
  else
    let msf := cdb.getD 1 0 &&& 0x02 ≠ 0
    let format := cdb.getD 2 0 &&& 0x07
    let format :=
      if format = 0 ∧ cdb.length > 9 then cdb.getD 9 0 >>> 6 else format
    if format = 1 then s.sendData env dev true tocSingleTrack (feature fr)
    else if format = 0 then
      s.sendData env dev true (if msf then tocMsf else tocLba) (feature fr)
    else s.sendError env dev kSenseIllegalRequest 0x20 0x00

/-- One feature block, if the request covers its code. -/
def featureBlock (sendAll : Bool) (firstCode code : Nat) (block : Bytes) :
    Bytes :=
  if firstCode = code ∨ (sendAll ∧ firstCode < code) then block else []

def scsiGetConfiguration (env : Env) (cdb : Bytes) (dev fr : UInt8)
    (s : Session) : Session :=
  if cdb.length < 9 then s.sendError env dev kSenseIllegalRequest 0x20 0x00
  else
    let sendAll := cdb.getD 1 0 != 2
    let firstCode := read16Be cdb 2
    let buflen := read16Be cdb 7
    if buflen = 0 then
      s.sendData env dev true (pack32Be 0x003C0000 ++ pack32Be 0x00000008)
        (feature fr)
    else
      let body := pack32Be 0x00000008 ++
        (if firstCode = 0 then configProfileList else []) ++
        featureBlock sendAll firstCode 0x1 configCore ++
        featureBlock sendAll firstCode 0x2 configMorphing ++
        featureBlock sendAll firstCode 0x3 configRemovable ++
        featureBlock sendAll firstCode 0x10 configRandom ++
        featureBlock sendAll firstCode 0x1E configRead ++
        featureBlock sendAll firstCode 0x100 configPowerManagement ++
        featureBlock sendAll firstCode 0x105 configTimeout
      let r := pack32Be body.length ++ body
      s.sendData env dev true (r.take buflen) (feature fr)

def scsiGetEventStatus (env : Env) (cdb : Bytes) (dev fr : UInt8)
    (s : Session) : Session :=
  if cdb.length < 10 ∨ (cdb.getD 1 0 ≠ 0x01 ∧ cdb.getD 4 0 ≠ 0x10) then
    s.sendError env dev kSenseIllegalRequest 0x26 0x01
  else
    let present : UInt8 :=
      if dev = kDeviceCdRom ∧ s.isoFile.isSome then 0x02 else 0x00
    s.sendData env dev true [0x00, present, 0x80, 0x00] (feature fr)

def scsiReadFormatCapacities (env : Env) (dev fr : UInt8) (s : Session) :
    Session :=
  if dev ≠ kDeviceCdRom ∨ s.isoFile.isNone ∨ s.isoSize = 0 then
    s.sendError env dev kSenseIllegalRequest 0x24 0x00
  else
    s.sendData env dev true
      [0x00, 0x00, 0x00, 0x08, 0x00, 0x00, 0x0B, 0x40, 0x02, 0x00, 0x02, 0x00]
      (feature fr)

def device (cmd : ScsiCommand) : UInt8 :=
  if cmd.deviceFlags &&& 0x10 ≠ 0 then kDeviceCdRom else kDeviceFloppy

def handleScsi (env : Env) (cmd : ScsiCommand) (s : Session) : Session :=
  let cdb := cmd.cdb
  let dev := device cmd
  let fr := cmd.featureRegister
  match cdb with
  | [] => s
  | opcode :: _ =>
      if opcode = kTestUnitReady then s.scsiTestUnitReady env dev
      else if opcode = kModeSense6 then s.scsiModeSense6 env cdb dev fr
      else if opcode = kModeSense10 then s.scsiModeSense10 env cdb dev fr
      else if opcode = kAllowMediumRemoval then s.scsiAllowMediumRemoval env dev
      else if opcode = kStartStop then s.scsiStartStop env dev
      else if opcode = kReadCapacity then s.scsiReadCapacity env dev fr
      else if opcode = kRead6 then s.scsiRead env cdb dev fr false
      else if opcode = kRead10 then s.scsiRead env cdb dev fr true
      else if opcode = kReadToc then s.scsiReadToc env cdb dev fr
      else if opcode = kGetConfiguration then
        s.scsiGetConfiguration env cdb dev fr
      else if opcode = kGetEventStatus then s.scsiGetEventStatus env cdb dev fr
      else if opcode = kReadFormatCapacities then
        s.scsiReadFormatCapacities env dev fr
      else if opcode = kWrite6 ∨ opcode = kWrite10 ∨ opcode = kWriteAndVerify then
        -- read-only: there is no medium
        s.sendError env dev kSenseNotReady 0x3A 0x00
      else if opcode = kReadDiscInfo then
        s.sendError env dev kSenseIllegalRequest 0x20 0x00
      else if opcode = kModeSelect10 then
        s.sendError env dev kSenseIllegalRequest 0x20 0x00
      else s.sendError env dev kSenseIllegalRequest 0x20 0x00

/-! ## The inbox -/

/-- The frame at the front of the inbox and its length, once it is whole. A
tag there is no case for is left where it is. -/
def nextFrame (inbox : Bytes) : Option (Inbound × Nat) :=
  let tag := peekTag inbox
  if tag = CmdOpenSessionReply then
    (tryParseOpenSessionReply inbox).map fun (info, n) =>
      (.openSessionReply info, n)
  else if tag = CmdClose then
    (tryParseFixed inbox CmdClose 8).map (.close, ·)
  else if tag = CmdKeepAlivePing then
    (tryParseFixed inbox CmdKeepAlivePing 8).map (.keepAlivePing, ·)
  else if tag = CmdKeepAlivePong then
    (tryParseFixed inbox CmdKeepAlivePong 8).map (.keepAlivePong, ·)
  else if tag = CmdResetOccurred then
    (tryParseFixed inbox CmdResetOccurred 9).map (.resetOccurred, ·)
  else if tag = CmdStatusData then
    (tryParseStatusData inbox).map fun (data, n) => (.statusData data, n)
  else if tag = CmdErrorOccurred then
    (tryParseFixed inbox CmdErrorOccurred 11).map (.errorOccurred, ·)
  else if tag = CmdHeartbeat then
    (tryParseFixed inbox CmdHeartbeat 8).map (.heartbeat, ·)
  else if tag = CmdCommandWritten then
    (tryParseCommandWritten inbox).map fun (cmd, n) => (.commandWritten cmd, n)
  else some (.unknown tag, 0)

/-- The case of `drainInbox` for a frame that was taken; the flag says whether
the loop goes on. -/
def handleFrame (env : Env) (frame : Inbound) (s : Session) : Session × Bool :=
  let s := s.emit (.received frame)
  match frame with
  | .openSessionReply info => (s.onOpenSessionReply env info, true)
  | .close => (s.fail "AMT closed the IDE-R session", false)
  | .keepAlivePing => (s.writeNumbered env .keepAlivePong, true)
  | .keepAlivePong => (s, true)
  | .resetOccurred => (s.writeNumbered env .resetResponse, true)
  | .statusData data => (s.onStatusData env data, true)
  | .errorOccurred => (s, true)
  | .heartbeat => (s, true)
  | .commandWritten cmd => (s.handleScsi env cmd, true)
  | .unknown tag =>
      let digits := (Nat.toDigits 16 tag.toNat).leftpad 2 '0'
      (s.fail s!"unknown IDE-R command 0x{String.ofList digits}", false)

def drainStep (env : Env) (s : Session) : Session × Bool :=
  match nextFrame s.inbox with
  | none => (s, false)
  | some (frame, n) =>
      ({ s with inbox := s.inbox.drop n }).handleFrame env frame

/-- The loop. A round that goes on has taken a frame, so the length of the
inbox is fuel enough. -/
def drainLoop (env : Env) : Nat → Session → Session
  | 0, s => s
  | fuel + 1, s =>
      if s.inbox.isEmpty then s
      else
        match s.drainStep env with
        | (s, true) => drainLoop env fuel s
        | (s, false) => s

def drainInbox (env : Env) (s : Session) : Session :=
  s.drainLoop env s.inbox.length

def onRawBytes (env : Env) (chunk : Bytes) (s : Session) : Session :=
  let s := ({ s with
    bytesReceivedFromAmt := s.bytesReceivedFromAmt + chunk.length
    inbox := s.inbox ++ chunk }).drainInbox env
  s.emit (.statsChanged s.bytesSentToAmt s.bytesReceivedFromAmt)

end Session

/-! ## The event loop -/

inductive Event
  | setIsoPath (path : String)
  | setStartOption (option : StartOption)
  | start (authenticated : Bool)
  | rawBytes (chunk : Bytes)
  | clientFailed (reason : String)
  /-- A single shot of `sendNextScsiChunk` fires. -/
  | chunkTimer
  deriving DecidableEq, Repr

namespace Session

/-- A pending single shot, if there is one, runs. -/
def tick (env : Env) (s : Session) : Session :=
  if s.chunkTimers = 0 then s
  else ({ s with chunkTimers := s.chunkTimers - 1 }).sendNextScsiChunk env

def handle (env : Env) (s : Session) : Event → Session
  | .setIsoPath path => { s with isoPath := path }
  | .setStartOption option => { s with startOption := option }
  | .start authenticated => s.start env authenticated
  | .rawBytes chunk => s.onRawBytes env chunk
  | .clientFailed reason => s.fail reason
  | .chunkTimer => s.tick env

end Session

end QuMesh.Ider
