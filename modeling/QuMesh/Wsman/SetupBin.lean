import QuMesh.Lib.Bytes

/-!
# `setup.bin`

`setupbin.cpp`: the file a BIOS reads off a USB stick. A header of 512 bytes,
then records of 512 bytes, each a header of 24 and a body of tagged values,
padded with zeros and perhaps scrambled. `decodeSetupBin` is an option, since
it answers with a file or says that it is none; a byte string so long that
`int ptr` leaves its range, for which the language defines nothing, is none.

The order `std::sort` gives to equal keys is its own affair. A `StdSort` is
any function that may stand for it, and carries what the standard says.
-/

namespace QuMesh.Wsman

open QuMesh.Lib

def kHeaderSize : Nat := 512
def kRecordSize : Nat := 512
def kRecordHeaderSize : Nat := 24
def kRecordBodySize : Nat := kRecordSize - kRecordHeaderSize

def kRecordFlagScrambled : UInt32 := 0x2

def kFileTypeGuids : List Bytes := [
  [0xb5, 0x16, 0xfb, 0x71, 0x87, 0xcb, 0xf9, 0x4a,
    0xb4, 0x41, 0xca, 0x7b, 0x38, 0x35, 0x78, 0xf9],
  [0x96, 0xb2, 0x81, 0x58, 0xcf, 0x6b, 0x72, 0x4c,
    0x8b, 0x91, 0xa1, 0x5e, 0x51, 0x2e, 0x99, 0xc4],
  [0xa7, 0xf7, 0xf6, 0xc6, 0x89, 0xc4, 0xf6, 0x47,
    0x93, 0xed, 0xe2, 0xe5, 0x02, 0x0d, 0xa5, 0x1d],
  [0xaa, 0xa9, 0x34, 0x52, 0xe1, 0x29, 0xa9, 0x44,
    0x8d, 0x4d, 0x08, 0x1c, 0x07, 0xb9, 0x63, 0x53]]

inductive SetupBinVarType
  | binary
  | u8
  | u16
  | u32
  | guid
  deriving DecidableEq, Repr

structure SetupBinVarSpec where
  moduleId : Int
  varId : Int
  type : SetupBinVarType
  name : String
  deriving DecidableEq, Repr

def kVarSpecs : List SetupBinVarSpec := [
  -- MEBx
  ⟨1, 1, .binary, "Current MEBx Password"⟩,
  ⟨1, 2, .binary, "New MEBx Password"⟩,
  ⟨1, 3, .u8, "Manageability Feature Selection"⟩,
  ⟨1, 4, .u8, "Firmware Local Update"⟩,
  ⟨1, 5, .u8, "Firmware Update Qualifier"⟩,
  ⟨1, 6, .guid, "Power Package"⟩,
  -- provisioning
  ⟨2, 1, .binary, "Provisioning Preshared Key ID (PID)"⟩,
  ⟨2, 2, .binary, "Provisioning Preshared Key (PPS)"⟩,
  ⟨2, 3, .binary, "PKI DNS Suffix"⟩,
  ⟨2, 4, .binary, "Configuration Server FQDN"⟩,
  ⟨2, 5, .u8, "Remote Configuration Enabled (RCFG)"⟩,
  ⟨2, 6, .u8, "Pre-Installed Certificates Enabled"⟩,
  ⟨2, 7, .u8, "User Defined Certificate Configuration"⟩,
  ⟨2, 8, .binary, "User Defined Certificate Addition"⟩,
  ⟨2, 10, .u8, "SOL/IDER Redirection Configuration"⟩,
  ⟨2, 11, .binary, "Hostname"⟩,
  ⟨2, 12, .binary, "Domain Name"⟩,
  ⟨2, 13, .u8, "DHCP"⟩,
  ⟨2, 14, .u8, "Secure Firmware Update (SFWU)"⟩,
  ⟨2, 15, .binary, "ITO"⟩,
  ⟨2, 16, .u8, "Provisioning Mode (PM)"⟩,
  ⟨2, 17, .binary, "Provisioning Server Address"⟩,
  ⟨2, 18, .u16, "Provision Server Port Number (PSPO)"⟩,
  ⟨2, 19, .binary, "Static IPv4 Parameters"⟩,
  ⟨2, 20, .binary, "VLAN"⟩,
  ⟨2, 21, .binary, "PASS Policy Flag"⟩,
  ⟨2, 22, .binary, "IPv6"⟩,
  ⟨2, 23, .u8, "Shared/Dedicated FQDN"⟩,
  ⟨2, 24, .u8, "Dynamic DNS Update"⟩,
  ⟨2, 25, .u8, "Remote Desktop (KVM) State"⟩,
  ⟨2, 26, .u8, "Opt-in User Consent Option"⟩,
  ⟨2, 27, .u8, "Opt-in Remote IT Consent Policy"⟩,
  ⟨2, 28, .u8, "ME Provision Halt/Active"⟩,
  ⟨2, 29, .u8, "Manual Setup and Configuration"⟩,
  ⟨2, 30, .u32, "Support Channel Identifier"⟩,
  ⟨2, 31, .binary, "Support Channel Description"⟩,
  ⟨2, 32, .binary, "Service Account Number"⟩,
  ⟨2, 33, .binary, "Enrollment Passcode"⟩,
  ⟨2, 34, .u32, "Service Type"⟩,
  ⟨2, 35, .guid, "Service Provider Identifier"⟩]

structure SetupBinVariable where
  moduleId : Int := 0
  varId : Int := 0
  value : Bytes := []
  deriving DecidableEq, Repr

structure SetupBinRecord where
  flags : UInt32 := 1
  /-- `variables`, a keyword here. -/
  vars : List SetupBinVariable := []
  deriving DecidableEq, Repr

structure SetupBinFile where
  version : Int := 2
  flags : UInt16 := 0
  dataRecordsConsumed : UInt32 := 0
  records : List SetupBinRecord := []
  deriving DecidableEq, Repr

def findSetupBinVarSpec (moduleId varId : Int) : Option SetupBinVarSpec :=
  kVarSpecs.find? fun spec => spec.moduleId = moduleId ∧ spec.varId = varId

def scrambleSetupBinBody (body : Bytes) : Bytes := body.map (· + 0x11)

def descrambleSetupBinBody (body : Bytes) : Bytes := body.map (· + 0xEF)

/-! ## Decoding -/

/-- One to four, and zero for what is no file. -/
def fileVersionForUuid (bytes : Bytes) : Nat :=
  if bytes.length < kHeaderSize then 0
  else
    match kFileTypeGuids.findIdx? (· == bytes.take 16) with
    | some i => i + 1
    | none => 0

/-- The entries of a body, those behind `pos` at a time. An entry has eight
bytes in front of its value, and the next one starts on a multiple of four. -/
def readVariables : Nat → Bytes → List SetupBinVariable
  | 0, _ => []
  | fuel + 1, rest =>
      if rest.length < 8 then []
      else
        let moduleId := read16Le rest 0
        let varId := read16Le rest 2
        if moduleId = 0 ∨ varId = 0 then []
        else
          let length := read16Le rest 4
          if length > rest.length - 8 then []
          else
            let behind := readVariables fuel
              (rest.drop (8 + (length + 3) / 4 * 4))
            if (findSetupBinVarSpec moduleId varId).isSome then
              ⟨moduleId, varId, (rest.drop 8).take length⟩ :: behind
            else behind

def isScrambled (flags : UInt32) : Bool := flags &&& kRecordFlagScrambled ≠ 0

def readRecord (record : Bytes) : SetupBinRecord :=
  let flags := UInt32.ofNat (read32Le record 4)
  let body := (record.drop kRecordHeaderSize).take kRecordBodySize
  let body := if isScrambled flags then descrambleSetupBinBody body else body
  { flags, vars := readVariables body.length body }

/-- The whole records behind `ptr`. -/
def readRecords : Nat → Bytes → List SetupBinRecord
  | 0, _ => []
  | fuel + 1, rest =>
      if rest.length < kRecordSize then []
      else readRecord (rest.take kRecordSize) ::
        readRecords fuel (rest.drop kRecordSize)

def decodeSetupBin (bytes : Bytes) : Option SetupBinFile :=
  let version := fileVersionForUuid bytes
  if version = 0 then none
  -- the last test of the loop computes `ptr + kRecordSize`
  else if (bytes.length / kRecordSize + 1) * kRecordSize ≥ 2 ^ 31 then none
  else
    let declaredRecordCount := read32Le bytes 28
    let records := readRecords bytes.length (bytes.drop kHeaderSize)
    if signed32 declaredRecordCount ≠ records.length then none
    else
      some {
        version
        flags := UInt16.ofNat (read16Le bytes 26)
        dataRecordsConsumed := UInt32.ofNat (read32Le bytes 32)
        records }

/-! ## Encoding -/

/-- The comparison the variables are sorted by. -/
def SetupBinVariable.before (a b : SetupBinVariable) : Bool :=
  if a.moduleId ≠ b.moduleId then a.moduleId < b.moduleId
  else a.varId < b.varId

/-- What `std::sort` may be. -/
structure StdSort where
  sort : List SetupBinVariable → List SetupBinVariable
  perm : ∀ vars, (sort vars).Perm vars
  sorted : ∀ vars, (sort vars).Pairwise fun a b => b.before a = false

/-- The cast to `uint16_t`. -/
def toU16 (n : Int) : Nat := (n % 2 ^ 16).toNat

def padTo (size : Nat) (bytes : Bytes) : Bytes :=
  bytes ++ List.replicate (size - bytes.length) 0

/-- The modules that appear, each once, as they first do. -/
def modulesInUse (file : SetupBinFile) : List Nat :=
  (file.records.flatMap (·.vars)).foldl
    (fun modules var =>
      let mid := toU16 var.moduleId
      if modules.contains mid then modules else modules ++ [mid]) []

def encodeHeader (file : SetupBinFile) : Bytes :=
  let modules := modulesInUse file
  padTo kHeaderSize <|
    kFileTypeGuids.getD (file.version - 1).toNat [] ++
    pack16Le 0 ++
    pack16Le (42 + modules.length * 2) ++
    pack32Le 0 ++
    [UInt8.ofInt file.version, 0] ++
    pack16Le file.flags.toNat ++
    pack32Le file.records.length ++
    pack32Le file.dataRecordsConsumed.toNat ++
    pack16Le 1 ++
    pack16Le 0 ++
    modules.flatMap pack16Le

def encodeEntry (var : SetupBinVariable) : Bytes :=
  let entry := pack16Le (toU16 var.moduleId) ++ pack16Le (toU16 var.varId) ++
    pack16Le var.value.length ++ pack16Le 0 ++ var.value
  padTo ((entry.length + 3) / 4 * 4) entry

def encodeBody (std : StdSort) (vars : List SetupBinVariable) : Bytes :=
  (padTo kRecordBodySize ((std.sort vars).flatMap encodeEntry)).take
    kRecordBodySize

def encodeRecord (std : StdSort) (recordNumber : Nat) (rec : SetupBinRecord) :
    Bytes :=
  let body := encodeBody std rec.vars
  pack32Le 1 ++ pack32Le rec.flags.toNat ++ pack32Le 0 ++ pack32Le 0 ++
    pack16Le 1 ++ pack16Le kRecordHeaderSize ++ pack32Le recordNumber ++
    if isScrambled rec.flags then scrambleSetupBinBody body else body

/-- The records, from number `recordNumber` on. -/
def encodeRecords (std : StdSort) : Nat → List SetupBinRecord → Bytes
  | _, [] => []
  | recordNumber, rec :: recs =>
      encodeRecord std recordNumber rec ++
        encodeRecords std (recordNumber + 1) recs

def encodeSetupBin (std : StdSort) (file : SetupBinFile) : Bytes :=
  if file.version < 1 ∨ file.version > kFileTypeGuids.length then []
  else encodeHeader file ++ encodeRecords std 1 file.records

/-! ## Validation -/

/-- How long a value of a type is, if the type says, and how the message does. -/
def SetupBinVarType.width : SetupBinVarType → Option (Nat × String)
  | .binary => none
  | .u8 => some (1, "1 byte")
  | .u16 => some (2, "2 bytes")
  | .u32 => some (4, "4 bytes")
  | .guid => some (16, "16 bytes (GUID)")

/-- The longest value of a variable of raw bytes, where there is a limit. -/
def lengthCap (moduleId varId : Int) : Option Nat :=
  if moduleId = 2 ∧ varId = 11 then some 63
  else if moduleId = 2 ∧ (varId = 3 ∨ varId = 4 ∨ varId = 12) then some 255
  else if moduleId = 2 ∧ varId = 31 then some 60
  else if moduleId = 2 ∧ (varId = 32 ∨ varId = 33) then some 32
  else none

def checkValue (spec : SetupBinVarSpec) (var : SetupBinVariable) :
    Except String Unit :=
  match spec.type.width with
  | some (size, text) =>
      if var.value.length ≠ size then
        .error s!"Variable \"{spec.name}\" must be exactly {text}."
      else .ok ()
  | none =>
      -- `const int len`
      let len := signed32 (var.value.length % 2 ^ 32)
      match lengthCap var.moduleId var.varId with
      | some max =>
          if len > max then
            .error (s!"Variable \"{spec.name}\" exceeds {max}-byte limit " ++
              s!"(got {len}).")
          else .ok ()
      | none => .ok ()

/-- What is known of "User Defined Certificate Configuration", over all the
records so far. -/
structure CertConfig where
  saw : Bool := false
  value : Int := -1
  deriving DecidableEq, Repr

/-- What is known of a record. -/
structure RecordScan where
  seen : List Nat := []
  currentMebxPassword : Option SetupBinVariable := none
  newMebxPassword : Option SetupBinVariable := none
  userDefinedCertAdd : Option SetupBinVariable := none
  cert : CertConfig
  deriving DecidableEq, Repr

/-- Both ids in 32 bits. -/
def SetupBinVariable.key (var : SetupBinVariable) : Nat :=
  (var.moduleId * 2 ^ 16 % 2 ^ 32).toNat + toU16 var.varId

def scanVariable (recIdx : Nat) (scan : RecordScan) (var : SetupBinVariable) :
    Except String RecordScan :=
  if scan.seen.contains var.key then
    .error (s!"Record {recIdx + 1} has duplicate variable " ++
      s!"{var.moduleId}/{var.varId}.")
  else
    match findSetupBinVarSpec var.moduleId var.varId with
    | none =>
        .error (s!"Record {recIdx + 1} contains unknown variable " ++
          s!"{var.moduleId}/{var.varId}.")
    | some spec => do
        checkValue spec var
        let is (moduleId varId : Int) : Bool :=
          var.moduleId = moduleId ∧ var.varId = varId
        return {
          seen := var.key :: scan.seen
          currentMebxPassword :=
            if is 1 1 then some var else scan.currentMebxPassword
          newMebxPassword := if is 1 2 then some var else scan.newMebxPassword
          userDefinedCertAdd :=
            if is 2 8 then some var else scan.userDefinedCertAdd
          cert :=
            if is 2 7 then
              { saw := true
                value :=
                  if var.value.length = 1 then (byteAt var.value 0 : Int)
                  else scan.cert.value }
            else scan.cert }

/-- The rules between the variables of a record. -/
def checkRecord (version : Int) (scan : RecordScan) : Except String Unit :=
  -- "admin"
  if version = 2 ∧
      (scan.currentMebxPassword.map (·.value)) =
        some [0x61, 0x64, 0x6D, 0x69, 0x6E] ∧
      scan.newMebxPassword = none then
    .error ("v2 setup.bin: \"Current MEBx Password\" = \"admin\" " ++
      "requires \"New MEBx Password\" in the same record.")
  else if scan.userDefinedCertAdd ≠ none ∧ !scan.cert.saw then
    .error ("\"User Defined Certificate Addition\" (2/8) requires " ++
      "\"User Defined Certificate Configuration\" (2/7) to be set first.")
  else if scan.userDefinedCertAdd ≠ none ∧ scan.cert.value = 2 then
    .error ("\"User Defined Certificate Addition\" (2/8) is incompatible " ++
      "with \"User Defined Certificate Configuration\" = Delete.")
  else .ok ()

/-- The records from number `recIdx` on. -/
def checkRecords (version : Int) :
    Nat → CertConfig → List SetupBinRecord → Except String Unit
  | _, _, [] => .ok ()
  | recIdx, cert, rec :: recs => do
      let scan ← rec.vars.foldlM (scanVariable recIdx) { cert }
      checkRecord version scan
      checkRecords version (recIdx + 1) scan.cert recs

def validateSetupBin (file : SetupBinFile) : String :=
  if file.version < 1 ∨ file.version > kFileTypeGuids.length then
    s!"File version must be 1..4 (got {file.version})."
  else
    match checkRecords file.version 0 {} file.records with
    | .error message => message
    | .ok () => ""

end QuMesh.Wsman
