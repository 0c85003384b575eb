import QuMesh.Lib.Strings
import QuMesh.Lib.Uuid
import QuMesh.Wsman.Http
import QuMesh.Wsman.SetupBin

/-!
# The editor of `setup.bin`

`SetupBinController` holds a file, shows each variable as a text and takes a
new value as a `QVariant`. The text editors of the window pass text back, a
spin box and a combo box a number, and the import of a file raw bytes. What is
announced by signals is left out; the file, the dirty mark and the last error
are the state.
-/

namespace QuMesh.SetupBin

open QuMesh.Lib QuMesh.Wsman

/-! ## The labels of the catalog -/

structure SetupBinEnumLabel where
  value : Int
  label : String
  deriving DecidableEq, Repr

def kManageabilityFeatureValues : List SetupBinEnumLabel :=
  [⟨0, "None"⟩, ⟨1, "Intel AMT"⟩]

def kFirmwareLocalUpdateValues : List SetupBinEnumLabel :=
  [⟨0, "Disabled"⟩, ⟨1, "Enabled"⟩, ⟨2, "Password Protected"⟩]

def kFirmwareUpdateQualifierValues : List SetupBinEnumLabel :=
  [⟨0, "Always"⟩, ⟨1, "Never"⟩, ⟨2, "Restricted"⟩]

def kOnOffValues : List SetupBinEnumLabel := [⟨0, "Off"⟩, ⟨1, "On"⟩]

def kUserCertConfigValues : List SetupBinEnumLabel :=
  [⟨0, "Disabled"⟩, ⟨1, "Enabled"⟩, ⟨2, "Delete"⟩]

def kSolIderMaskValues : List SetupBinEnumLabel :=
  [⟨0, "None"⟩, ⟨1, "SOL only - User/Pass Disabled"⟩,
    ⟨2, "IDER only - User/Pass Disabled"⟩,
    ⟨3, "SOL+IDER - User/Pass Disabled"⟩, ⟨4, "None - User/Pass Enabled"⟩,
    ⟨5, "SOL only - User/Pass Enabled"⟩, ⟨6, "IDER only - User/Pass Enabled"⟩,
    ⟨7, "SOL+IDER - User/Pass Enabled"⟩]

def kDhcpValues : List SetupBinEnumLabel := [⟨1, "Disabled"⟩, ⟨2, "Enabled"⟩]

def kEnabledDisabledValues : List SetupBinEnumLabel :=
  [⟨0, "Disabled"⟩, ⟨1, "Enabled"⟩]

def kProvisioningModeValues : List SetupBinEnumLabel :=
  [⟨0, "Enterprise"⟩, ⟨1, "Small Business"⟩]

def kSharedDedicatedValues : List SetupBinEnumLabel :=
  [⟨0, "Dedicated"⟩, ⟨1, "Shared"⟩]

def kOptInConsentValues : List SetupBinEnumLabel :=
  [⟨0, "Disabled"⟩, ⟨1, "KVM"⟩, ⟨255, "All"⟩]

def kMeHaltActiveValues : List SetupBinEnumLabel := [⟨0, "Stop"⟩, ⟨1, "Start"⟩]

def kManualSetupValues : List SetupBinEnumLabel :=
  [⟨0, "Automated"⟩, ⟨1, "Manual"⟩]

/-- The last column of the catalog, for the variables that have one. -/
def kEnumColumn : List ((Int × Int) × List SetupBinEnumLabel) :=
  [((1, 3), kManageabilityFeatureValues), ((1, 4), kFirmwareLocalUpdateValues),
    ((1, 5), kFirmwareUpdateQualifierValues), ((2, 5), kOnOffValues),
    ((2, 6), kOnOffValues), ((2, 7), kUserCertConfigValues),
    ((2, 10), kSolIderMaskValues), ((2, 13), kDhcpValues),
    ((2, 14), kEnabledDisabledValues), ((2, 16), kProvisioningModeValues),
    ((2, 23), kSharedDedicatedValues), ((2, 24), kEnabledDisabledValues),
    ((2, 25), kEnabledDisabledValues), ((2, 26), kOptInConsentValues),
    ((2, 27), kEnabledDisabledValues), ((2, 28), kMeHaltActiveValues),
    ((2, 29), kManualSetupValues)]

/-- `spec->enumValues`, with no labels for a null pointer. -/
def enumValues (spec : SetupBinVarSpec) : List SetupBinEnumLabel :=
  (kEnumColumn.lookup (spec.moduleId, spec.varId)).getD []

/-! ## Texts -/

/-- Where every byte is printable ASCII, the text they are; else their hex. -/
def displayBinary (value : Bytes) : Text :=
  if value.any fun b => b < 0x20 || b ≥ 0x7F then
    Text.lit "0x" ++ Text.ofLatin1 (toHex value)
  else Text.ofUtf8 value

def decodeForDisplay (var : SetupBinVariable) : Text :=
  match findSetupBinVarSpec var.moduleId var.varId with
  | none => Text.ofLatin1 (toHex var.value)
  | some spec =>
      match spec.type with
      | .binary => displayBinary var.value
      | .u8 =>
          if var.value.length ≠ 1 then Text.lit "(bad length)"
          else
            let n := byteAt var.value 0
            match (enumValues spec).find? fun e => e.value = (n : Int) with
            | some e => Text.lit e.label
            | none => Text.lit (toString n)
      | .u16 =>
          if var.value.length ≠ 2 then Text.lit "(bad length)"
          else Text.lit (toString (read16Le var.value 0))
      | .u32 =>
          if var.value.length ≠ 4 then Text.lit "(bad length)"
          else Text.lit (toString (read32Le var.value 0))
      | .guid =>
          if var.value.length ≠ 16 then Text.lit "(bad length)"
          else Text.ofLatin1 (Uuid.toText var.value)

/-- What the window passes. -/
inductive Value
  | bytes (b : Bytes)
  | text (t : Text)
  | number (n : Int)

namespace Value

/-- `QVariant::toString` -/
def toText : Value → Text
  | .bytes b => Text.ofUtf8 b
  | .text t => t
  | .number n => Text.lit (toString n)

/-- `QVariant::toUInt`, with nothing for what it reports as not ok. A byte
array is read as a string of its own, a negative `int` as the unsigned number
of its bits. -/
def toUInt : Value → Option Nat
  | .bytes b =>
      (Strings.unsigned ((trimmed b).map fun x => Char.ofNat x.toNat)).filter
        (· < 2 ^ 32)
  | .text t => Strings.toUInt t.str
  | .number n => some (n % 2 ^ 32).toNat

/-- `QVariant::toULongLong` -/
def toULongLong : Value → Option Nat
  | .bytes b =>
      (Strings.unsigned ((trimmed b).map fun x => Char.ofNat x.toNat)).filter
        (· < 2 ^ 64)
  | .text t => Strings.toULongLong t.str
  | .number n => some (n % 2 ^ 64).toNat

end Value

/-- The `switch` of `setVariableValue`: the new bytes, or the error. -/
def newValue (type : SetupBinVarType) (value : Value) : Except String Bytes :=
  match type with
  | .binary =>
      match value with
      | .bytes b => .ok b
      | value => .ok value.toText.utf8
  | .u8 =>
      match value.toUInt with
      | some n =>
          if n > 0xFF then .error "Value must be 0..255."
          else .ok [UInt8.ofNat n]
      | none => .error "Value must be 0..255."
  | .u16 =>
      match value.toUInt with
      | some n =>
          if n > 0xFFFF then .error "Value must be 0..65535."
          else .ok (pack16Le n)
      | none => .error "Value must be 0..65535."
  | .u32 =>
      match value.toULongLong with
      | some n =>
          if n > 0xFFFFFFFF then .error "Value must be 0..4294967295."
          else .ok (pack32Le n)
      | none => .error "Value must be 0..4294967295."
  | .guid =>
      match value with
      | .bytes b =>
          if b.length ≠ 16 then .error "GUID must be exactly 16 bytes."
          else .ok b
      | value =>
          match Uuid.ofText (Text.toLatin1 value.toText.utf8) with
          | none =>
              .error "GUID must be a valid UUID string or 16 raw bytes."
          | some b => .ok b

/-! ## The controller -/

structure SetupBinController where
  file : SetupBinFile := {}
  dirty : Bool := false
  lastError : String := ""

/-- `indexInRange`, and what is there. -/
def entryAt {α : Type} (l : List α) (i : Int) : Option α :=
  if 0 ≤ i then l[i.toNat]? else none

/-- The variable of a record. -/
def variableAt (file : SetupBinFile) (recordIndex varIndex : Int) :
    Option SetupBinVariable :=
  (entryAt file.records recordIndex).bind fun rec => entryAt rec.vars varIndex

/-- The file with new bytes in one variable. -/
def setBytes (file : SetupBinFile) (recordIndex varIndex : Int)
    (value : Bytes) : SetupBinFile :=
  { file with
    records := file.records.modify recordIndex.toNat fun rec =>
      { rec with
        vars := rec.vars.modify varIndex.toNat fun var => { var with value } } }

namespace SetupBinController

/-- What the call returns stands beside the state it leaves. -/
def setVariableValue (recordIndex varIndex : Int) (value : Value)
    (c : SetupBinController) : SetupBinController × Bool :=
  match variableAt c.file recordIndex varIndex with
  | none => (c, false)
  | some var =>
      match findSetupBinVarSpec var.moduleId var.varId with
      | none =>
          ({ c with lastError :=
              s!"Variable {var.moduleId}/{var.varId} isn't in the catalog." },
            false)
      | some spec =>
          match newValue spec.type value with
          | .error message => ({ c with lastError := message }, false)
          | .ok bytes =>
              ({ file := setBytes c.file recordIndex varIndex bytes
                 dirty := true
                 lastError := "" }, true)

end SetupBinController

end QuMesh.SetupBin
