import QuMesh.Lib.Bytes

/-!
# IDE-R frames and what a CD-ROM answers

`ider_codec.cpp`: the frames of an IDE-R session, both ways, and the parsers
of those that come in. A parser that returns `false` leaves `consumed` at
zero, so it is an option here. `scsi.cpp`: the opcodes, the sense keys and the
mode pages and feature blocks a drive without a drive behind it reports.
-/

namespace QuMesh.Ider

open QuMesh.Lib

/-! ## The command byte -/

def CmdOpenSession : UInt8 := 0x40
def CmdOpenSessionReply : UInt8 := 0x41
def CmdClose : UInt8 := 0x43
def CmdKeepAlivePing : UInt8 := 0x44
def CmdKeepAlivePong : UInt8 := 0x45
def CmdResetOccurred : UInt8 := 0x46
def CmdResetResponse : UInt8 := 0x47
def CmdEnableFeatures : UInt8 := 0x48
def CmdStatusData : UInt8 := 0x49
def CmdErrorOccurred : UInt8 := 0x4A
def CmdHeartbeat : UInt8 := 0x4B
def CmdCommandWritten : UInt8 := 0x50
def CmdCommandEndResponse : UInt8 := 0x51
def CmdSendDataToHost : UInt8 := 0x54

def kDeviceFloppy : UInt8 := 0xA0
def kDeviceCdRom : UInt8 := 0xB0

def kStatusRegsAvail : UInt8 := 1
def kStatusRegsStatus : UInt8 := 2
def kStatusRegsToggle : UInt8 := 3

inductive StartOption
  | onReboot
  | graceful
  | immediate
  deriving DecidableEq, Repr

def StartOption.code : StartOption → Nat
  | .onReboot => 0x08
  | .graceful => 0x10
  | .immediate => 0x18

structure SessionInfo where
  major : UInt8 := 0
  minor : UInt8 := 0
  fwMajor : UInt8 := 0
  fwMinor : UInt8 := 0
  readBuffer : Nat := 0
  writeBuffer : Nat := 0
  proto : UInt8 := 0
  iana : Nat := 0
  oemData : Bytes := []
  deriving DecidableEq, Repr

structure ScsiCommand where
  deviceFlags : UInt8 := 0
  featureRegister : UInt8 := 0
  cdb : Bytes
  deriving DecidableEq, Repr

structure StatusData where
  type : UInt8 := 0
  value : Nat := 0
  deriving DecidableEq, Repr

/-! ## What goes out -/

def packHeader (id : UInt8) (sequence : Nat) (attrs : UInt8) : Bytes :=
  [id, 0, 0, attrs] ++ pack32Le sequence

def buildOpenSession (sequence rxTimeoutMs txTimeoutMs hbTimeoutMs
    version : Nat) : Bytes :=
  packHeader CmdOpenSession sequence 0 ++ pack16Le rxTimeoutMs ++
    pack16Le txTimeoutMs ++ pack16Le hbTimeoutMs ++ pack32Le version

def buildKeepAlivePong (sequence : Nat) : Bytes :=
  packHeader CmdKeepAlivePong sequence 0

def buildResetResponse (sequence : Nat) : Bytes :=
  packHeader CmdResetResponse sequence 0

def buildEnableFeatures (sequence : Nat) (type : UInt8) (data : Bytes) :
    Bytes :=
  packHeader CmdEnableFeatures sequence 0 ++ [type] ++ data

/-- `error = true` has no caller: every error goes out as sense data of a
command that ended. -/
def buildCommandEndResponse (sequence : Nat) (error : Bool)
    (sense device asc asq : UInt8) : Bytes :=
  let status : Bytes :=
    if error then [0xC5, 0, 0x03, 0, 0, 0, device, 0x50, 0, 0, 0]
    else [0x87, sense <<< 4, 0x03, 0, 0, 0, device, 0x51, sense, asc, asq]
  packHeader CmdCommandEndResponse sequence 0x02 ++ List.replicate 12 0 ++
    status

def buildSendDataToHost (sequence : Nat) (device : UInt8) (completed : Bool)
    (data : Bytes) (dma : Bool) : Bytes :=
  let attrs : UInt8 :=
    (if completed then 0x02 else 0x00) ||| (if dma then 0x01 else 0x00)
  let n := data.length
  let dmalen := if dma then 0 else n
  packHeader CmdSendDataToHost sequence attrs ++
    [0] ++ pack16Le n ++ [0, if dma then 0xB4 else 0xB5, 0, 0x02, 0] ++
    pack16Le dmalen ++ [device, 0x58] ++
    (if completed then
      [0x85, 0, 0x03, 0, 0, 0, device, 0x50, 0, 0, 0, 0, 0, 0]
    else List.replicate 14 0) ++
    data

/-! ## What comes in -/

def peekTag (buffer : Bytes) : UInt8 := buffer.headD 0

def tryParseOpenSessionReply (buffer : Bytes) : Option (SessionInfo × Nat) :=
  if buffer.length < 30 then none
  else if peekTag buffer ≠ CmdOpenSessionReply then none
  else
    let oemLen := byteAt buffer 29
    if buffer.length < 30 + oemLen then none
    else
      some (
        { major := buffer.getD 8 0
          minor := buffer.getD 9 0
          fwMajor := buffer.getD 10 0
          fwMinor := buffer.getD 11 0
          readBuffer := read16Le buffer 16
          writeBuffer := read16Le buffer 18
          proto := buffer.getD 21 0
          iana := read32Le buffer 25
          oemData := (buffer.drop 30).take oemLen },
        30 + oemLen)

def tryParseCommandWritten (buffer : Bytes) : Option (ScsiCommand × Nat) :=
  if buffer.length < 28 then none
  else if peekTag buffer ≠ CmdCommandWritten then none
  else
    some (
      { featureRegister := buffer.getD 9 0
        deviceFlags := buffer.getD 14 0
        cdb := (buffer.drop 16).take 12 },
      28)

def tryParseFixed (buffer : Bytes) (expectedTag : UInt8) (totalSize : Nat) :
    Option Nat :=
  if buffer.length < totalSize then none
  else if peekTag buffer ≠ expectedTag then none
  else some totalSize

def tryParseStatusData (buffer : Bytes) : Option (StatusData × Nat) :=
  if buffer.length < 13 then none
  else if peekTag buffer ≠ CmdStatusData then none
  else some (⟨buffer.getD 8 0, read32Le buffer 9⟩, 13)

/-! ## SCSI -/

def kTestUnitReady : UInt8 := 0x00
def kRead6 : UInt8 := 0x08
def kWrite6 : UInt8 := 0x0A
def kModeSense6 : UInt8 := 0x1A
def kStartStop : UInt8 := 0x1B
def kAllowMediumRemoval : UInt8 := 0x1E
def kReadFormatCapacities : UInt8 := 0x23
def kReadCapacity : UInt8 := 0x25
def kRead10 : UInt8 := 0x28
def kWrite10 : UInt8 := 0x2A
def kWriteAndVerify : UInt8 := 0x2E
def kReadToc : UInt8 := 0x43
def kGetConfiguration : UInt8 := 0x46
def kGetEventStatus : UInt8 := 0x4A
def kReadDiscInfo : UInt8 := 0x51
def kModeSelect10 : UInt8 := 0x55
def kModeSense10 : UInt8 := 0x5A

def kSenseNoSense : UInt8 := 0x00
def kSenseNotReady : UInt8 := 0x02
def kSenseIllegalRequest : UInt8 := 0x05
def kSenseUnitAttention : UInt8 := 0x06

def modeSenseCd1A : Bytes :=
  [0x00, 0x12, 0x01, 0x80, 0x00, 0x00, 0x00, 0x00, 0x1A, 0x0A, 0x00, 0x00,
    0x00, 0x00, 0x00, 0x00, 0x00, 0x00, 0x00, 0x00]

def modeSenseCd1D : Bytes :=
  [0x00, 0x12, 0x01, 0x80, 0x00, 0x00, 0x00, 0x00, 0x1D, 0x0A, 0x00, 0x00,
    0x00, 0x00, 0x00, 0x00, 0x00, 0x00, 0x00, 0x00]

def modeSenseCd2A : Bytes :=
  [0x00, 0x20, 0x01, 0x80, 0x00, 0x00, 0x00, 0x00, 0x2A, 0x18, 0x00, 0x00,
    0x00, 0x00, 0x20, 0x00, 0x00, 0x00, 0x00, 0x00, 0x00, 0x80, 0x00, 0x00,
    0x00, 0x00, 0x00, 0x00, 0x00, 0x00, 0x00, 0x00, 0x00, 0x00]

def modeSenseCd3F : Bytes :=
  [0x00, 0x28, 0x01, 0x80, 0x00, 0x00, 0x00, 0x00, 0x01, 0x06, 0x00, 0xFF,
    0x00, 0x00, 0x00, 0x00, 0x2A, 0x18, 0x00, 0x00, 0x00, 0x00, 0x02, 0x00,
    0x00, 0x00, 0x00, 0x00, 0x00, 0x80, 0x00, 0x00, 0x00, 0x00, 0x00, 0x00,
    0x00, 0x00, 0x00, 0x00, 0x00, 0x00]

def modeSenseCdErrorRecovery : Bytes :=
  [0x00, 0x0E, 0x01, 0x80, 0x00, 0x00, 0x00, 0x00, 0x01, 0x06, 0x00, 0xFF,
    0x00, 0x00, 0x00, 0x00]

def configProfileList : Bytes :=
  [0x00, 0x00, 0x03, 0x04, 0x00, 0x08, 0x01, 0x00]

def configCore : Bytes := [0x00, 0x01, 0x03, 0x04, 0x00, 0x00, 0x00, 0x02]

def configMorphing : Bytes := [0x00, 0x02, 0x03, 0x04, 0x00, 0x00, 0x00, 0x00]

def configRemovable : Bytes := [0x00, 0x03, 0x03, 0x04, 0x29, 0x00, 0x00, 0x02]

def configRandom : Bytes :=
  [0x00, 0x10, 0x01, 0x08, 0x00, 0x00, 0x08, 0x00, 0x00, 0x01, 0x00, 0x00]

def configRead : Bytes := [0x00, 0x1E, 0x03, 0x00]

def configPowerManagement : Bytes := [0x01, 0x00, 0x03, 0x00]

def configTimeout : Bytes := [0x01, 0x05, 0x03, 0x00]

/-! ## Laying out a data frame -/

/-- Where the SCSI byte count, the second length and the data of a
`SendDataToHost` stand. -/
theorem buildSendDataToHost_layout (sequence : Nat) (device : UInt8)
    (completed : Bool) (data : Bytes) (dma : Bool)
    (h : data.length < 2 ^ 16) :
    read16Le (buildSendDataToHost sequence device completed data dma) 9 =
        data.length ∧
      read16Le (buildSendDataToHost sequence device completed data dma) 16 =
        (if dma then 0 else data.length) ∧
      (buildSendDataToHost sequence device completed data dma).drop 34 =
        data := by
  have hlow : (UInt8.ofNat data.length).toNat +
      2 ^ 8 * (UInt8.ofNat (data.length / 2 ^ 8)).toNat = data.length := by
    simp only [UInt8.toNat_ofNat']
    omega
  refine ⟨?_, ?_, ?_⟩
  · cases completed <;> cases dma <;>
      simpa [buildSendDataToHost, packHeader, pack32Le, pack16Le, read16Le,
        byteAt] using hlow
  · cases completed <;> cases dma <;>
      simp [buildSendDataToHost, packHeader, pack32Le, pack16Le, read16Le,
        byteAt] <;> simpa using hlow
  · cases completed <;> cases dma <;>
      simp [buildSendDataToHost, packHeader, pack32Le, pack16Le]

end QuMesh.Ider
