import Mathlib.Logic.Function.Basic
import QuMesh.Lib.Strings
import QuMesh.Wsman.Reads

/-!
# Reads that run side by side

`getHardwareInventory` and `getEthernetSettings` start several enumerations at
once. Each enumeration has its own callback; what the callbacks share is a
record that says which of them have run, and the last one merges what they left
there and calls back. The tables of `QChar` that the merging asks, for lower case
and for digits, are parameters.
-/

namespace QuMesh.Wsman

open QuMesh.Lib QuMesh.Lib.Xml

/-- Enumerations side by side, how many replies each has had, and what their
callbacks share. -/
structure Parallel (κ δ : Type) where
  running : κ → Enumeration := fun _ => {}
  replies : κ → Nat := fun _ => 0
  shared : δ

namespace Parallel

variable {κ δ : Type}

/-- The enumeration has a request out. -/
def ready (s : Parallel κ δ) (k : κ) : Prop := (s.running k).waiting ≠ none

/-- The next reply to an enumeration; where that ends it, its callback is
run. -/
def step [DecidableEq κ]
    (onDone : κ → List (List Token) → String → δ → δ)
    (answer : κ → Nat → Outcome) (s : Parallel κ δ) (k : κ) : Parallel κ δ :=
  let before := s.running k
  let after := before.reply (answer k (s.replies k))
  { running := Function.update s.running k after
    replies := Function.update s.replies k (s.replies k + 1)
    shared := (after.calls.drop before.calls.length).foldl
      (fun d call => onDone k call.1 call.2 d) s.shared }

end Parallel

/-! ## Readers -/

/-- A loop that reads the text of every element of a name. -/
structure TextLoop where
  r : List Token
  texts : List String := []

def TextLoop.round (localName : String) (s : TextLoop) : TextLoop :=
  match s.r with
  | [] => s
  | .startElement _ name _ :: r =>
      if name = localName then
        let (text, r) := readElementText r
        { r, texts := s.texts ++ [text] }
      else { s with r }
  | .characters _ :: r | .endElement :: r => { s with r }

def elementTexts (xml : List Token) (localName : String) : List String :=
  (readToEnd TextLoop.r (TextLoop.round localName)
    { r := readBack 0 xml }).texts

/-! ## Hardware -/

def dmtfCpuStatusLabel (code : Int) : String :=
  match code with
  | 0 => "Unknown"
  | 1 => "Enabled"
  | 2 => "Disabled by User"
  | 3 => "Disabled by BIOS (POST error)"
  | 4 => "Idle"
  | 5 => "Other"
  | code => s!"CPU status {code}"

def dmtfCpuFamilyLabel (code : Int) : String :=
  match code with
  | 191 => "Intel® Core™ 2 Duo Processor"
  | 192 => "Intel® Core™ 2 Solo Processor"
  | 193 => "Intel® Core™ 2 Extreme Processor"
  | 194 => "Intel® Core™ 2 Quad Processor"
  | 195 => "Intel® Core™ 2 Extreme Mobile Processor"
  | 196 => "Intel® Core™ 2 Duo Mobile Processor"
  | 197 => "Intel® Core™ 2 Solo Mobile Processor"
  | 198 => "Intel® Core™ i7 Processor"
  | 199 => "Dual-Core Intel® Celeron® Processor"
  | code => s!"Family 0x{Strings.hexUpper code}"

/-- A label out of a table, for the codes that are places in it. -/
def tableLabel (kTable : List String) (code : Int) (other : String) : String :=
  if 0 ≤ code then (kTable[code.toNat]?).getD other else other

def dmtfMemFormFactorLabel (code : Int) : String :=
  tableLabel
    ["", "Other", "Unknown", "SIMM", "SIP", "Chip", "DIP", "ZIP",
      "Proprietary Card", "DIMM", "TSOP", "Row of chips", "RIMM",
      "SODIMM", "SRIMM", "FB-DIMM"]
    code s!"Form 0x{Strings.hexUpper code}"

def dmtfMemTypeLabel (code : Int) : String :=
  tableLabel
    ["Unknown", "Other", "DRAM", "Synchronous DRAM", "Cache DRAM",
      "EDO", "EDRAM", "VRAM", "SRAM", "RAM", "ROM", "Flash", "EEPROM",
      "FEPROM", "EPROM", "CDRAM", "3DRAM", "SDRAM", "SGRAM", "RDRAM",
      "DDR", "DDR-2", "BRAM", "FB-DIMM", "DDR3", "FBD2", "DDR4",
      "LPDDR", "LPDDR2", "LPDDR3", "LPDDR4"]
    code s!"Type 0x{Strings.hexUpper code}"

def dmtfBatteryChemistryLabel (code : Int) : String :=
  tableLabel
    ["Other", "Unknown", "Lead Acid", "Nickel Cadmium",
      "Nickel Metal Hydride", "Lithium-ion", "Zinc air",
      "Lithium Polymer"]
    code s!"Chemistry {code}"

/-- The first three parts of a GUID have their bytes the other way round. -/
def platformGuidToString (toLower : String → String) (raw : String) : String :=
  if raw.length < 32 then raw
  else
    let g := (toLower raw).toList
    let mid (i n : Nat) : List Char := (g.drop i).take n
    String.ofList
      (mid 6 2 ++ mid 4 2 ++ mid 2 2 ++ mid 0 2 ++ ['-'] ++
        mid 10 2 ++ mid 8 2 ++ ['-'] ++
        mid 14 2 ++ mid 12 2 ++ ['-'] ++
        mid 16 4 ++ ['-'] ++ g.drop 20)

structure HardwareCpu where
  manufacturer : String := ""
  version : String := ""
  family : Int := -1
  familyLabel : String := ""
  maxClockSpeedMhz : Int := 0
  cpuStatus : Int := -1
  cpuStatusLabel : String := ""

structure HardwareDimm where
  bankLabel : String := ""
  manufacturer : String := ""
  serialNumber : String := ""
  capacityBytes : Int := 0
  formFactor : Int := -1
  formFactorLabel : String := ""
  memoryType : Int := -1
  memoryTypeLabel : String := ""
  assetTag : String := ""
  partNumber : String := ""

structure HardwareStorage where
  model : String := ""
  serialNumber : String := ""
  maxMediaSizeKb : Int := 0

structure HardwareBattery where
  present : Bool := false
  deviceId : String := ""
  manufacturer : String := ""
  manufactureDate : String := ""
  serialNumber : String := ""
  chemistry : Int := -1
  chemistryLabel : String := ""
  designCapacityMwh : Int := 0
  designVoltageMv : Int := 0
  otherIdentifyingInfo : String := ""

structure HardwareInventoryResult where
  ok : Bool := false
  error : String := ""
  platformModel : String := ""
  platformManufacturer : String := ""
  platformVersion : String := ""
  platformSerialNumber : String := ""
  platformSystemId : String := ""
  baseboardManufacturer : String := ""
  baseboardModel : String := ""
  baseboardVersion : String := ""
  baseboardSerialNumber : String := ""
  baseboardAssetTag : String := ""
  baseboardReplaceable : Bool := false
  baseboardCanBeFRUedKnown : Bool := false
  biosVendor : String := ""
  biosVersion : String := ""
  biosReleaseDate : String := ""
  processors : List HardwareCpu := []
  memoryModules : List HardwareDimm := []
  storageDevices : List HardwareStorage := []
  battery : HardwareBattery := {}

inductive HardwareKind
  | chassis | card | bios | sysPkg | processor | chip
  | physMem | media | physPkg | battery
  deriving DecidableEq

def hardwareKinds : List HardwareKind :=
  [.chassis, .card, .bios, .sysPkg, .processor, .chip, .physMem, .media,
    .physPkg, .battery]

/-- What the ten callbacks share, and the calls of the callback. -/
structure HardwareState where
  done : HardwareKind → Bool := fun _ => false
  ok : HardwareKind → Bool := fun _ => false
  items : HardwareKind → List (List Token) := fun _ => []
  errors : HardwareKind → String := fun _ => ""
  fired : Bool := false
  calls : List HardwareInventoryResult := []

/-- A processor, with the chip in the same place. -/
def hardwareCpu (p : List Token) (chip : Option (List Token)) : HardwareCpu :=
  let cpu : HardwareCpu := {}
  let cpu :=
    match Strings.toInt (findScalar p "Family") with
    | some fam =>
        { cpu with family := fam, familyLabel := dmtfCpuFamilyLabel fam }
    | none => cpu
  let cpu :=
    { cpu with
      maxClockSpeedMhz :=
        (Strings.toInt (findScalar p "MaxClockSpeed")).getD 0 }
  let cpu :=
    match Strings.toInt (findScalar p "CPUStatus") with
    | some status =>
        { cpu with
          cpuStatus := status, cpuStatusLabel := dmtfCpuStatusLabel status }
    | none => cpu
  match chip with
  | some q =>
      { cpu with
        manufacturer := findScalar q "Manufacturer"
        version := findScalar q "Version" }
  | none => cpu

def hardwareDimm (m : List Token) : HardwareDimm :=
  let d : HardwareDimm :=
    { bankLabel := findScalar m "BankLabel"
      manufacturer := findScalar m "Manufacturer"
      serialNumber := findScalar m "SerialNumber"
      capacityBytes := (Strings.toLongLong (findScalar m "Capacity")).getD 0 }
  let d :=
    match Strings.toInt (findScalar m "FormFactor") with
    | some ff =>
        { d with formFactor := ff, formFactorLabel := dmtfMemFormFactorLabel ff }
    | none => d
  let d :=
    match Strings.toInt (findScalar m "MemoryType") with
    | some mt =>
        { d with memoryType := mt, memoryTypeLabel := dmtfMemTypeLabel mt }
    | none => d
  { d with
    assetTag := findScalar m "Tag"
    partNumber := findScalar m "PartNumber" }

/-- A storage device, with the package one place further on. -/
def hardwareStorage (m : List Token) (package : Option (List Token)) :
    HardwareStorage :=
  let s : HardwareStorage :=
    { maxMediaSizeKb :=
        (Strings.toLongLong (findScalar m "MaxMediaSize")).getD 0 }
  match package with
  | some n =>
      { s with
        model := findScalar n "Model"
        serialNumber := findScalar n "SerialNumber" }
  | none => s

/-- The battery, with the first package of its type. -/
def hardwareBattery (b : List Token) (pkgs : List (List Token)) :
    HardwareBattery :=
  let bb : HardwareBattery :=
    { present := true
      deviceId := findScalar b "DeviceID" }
  let bb :=
    match Strings.toInt (findScalar b "Chemistry") with
    | some chem =>
        { bb with
          chemistry := chem, chemistryLabel := dmtfBatteryChemistryLabel chem }
    | none => bb
  let bb :=
    { bb with
      designCapacityMwh :=
        (Strings.toLongLong (findScalar b "DesignCapacity")).getD 0
      designVoltageMv :=
        (Strings.toLongLong (findScalar b "DesignVoltage")).getD 0 }
  match pkgs.find? fun pkg => findScalar pkg "PackageType" = "11" with
  | some pkg =>
      { bb with
        manufacturer := findScalar pkg "Manufacturer"
        serialNumber := findScalar pkg "SerialNumber"
        manufactureDate := findScalar pkg "Datetime"
        otherIdentifyingInfo := findScalar pkg "OtherIdentifyingInfo" }
  | none => bb

namespace HardwareState

variable (toLower : String → String)

/-- The platform and the baseboard. -/
def platform (st : HardwareState) (r : HardwareInventoryResult) :
    HardwareInventoryResult :=
  let r :=
    match st.items .chassis with
    | c :: _ =>
        { r with
          platformModel := findScalar c "Model"
          platformManufacturer := findScalar c "Manufacturer"
          platformVersion := findScalar c "Version"
          platformSerialNumber := findScalar c "SerialNumber" }
    | [] => r
  let r :=
    match st.items .sysPkg with
    | p :: _ =>
        { r with
          platformSystemId :=
            platformGuidToString toLower (findScalar p "PlatformGUID") }
    | [] => r
  match st.items .card with
  | c :: _ =>
      { r with
        baseboardManufacturer := findScalar c "Manufacturer"
        baseboardModel := findScalar c "Model"
        baseboardVersion := findScalar c "Version"
        baseboardSerialNumber := findScalar c "SerialNumber"
        baseboardAssetTag := findScalar c "Tag"
        baseboardCanBeFRUedKnown := findScalar c "CanBeFRUed" ≠ ""
        baseboardReplaceable := findScalar c "CanBeFRUed" = "true" }
  | [] => r

/-- The result, of the ten lists of items. -/
def result (st : HardwareState) : HardwareInventoryResult :=
  let anyOk := hardwareKinds.any st.ok
  let r : HardwareInventoryResult :=
    { ok := anyOk
      error :=
        if anyOk then ""
        else ((hardwareKinds.map st.errors).find? (· ≠ "")).getD "" }
  let r := st.platform toLower r
  let r :=
    match st.items .bios with
    | b :: _ =>
        { r with
          biosVendor := findScalar b "Manufacturer"
          biosVersion := findScalar b "SoftwareElementID"
          biosReleaseDate :=
            if findScalar b "Datetime" = "" then findScalar b "ReleaseDate"
            else findScalar b "Datetime" }
    | [] => r
  let r :=
    { r with
      processors := (st.items .processor).zipIdx.map fun (p, i) =>
        hardwareCpu p (st.items .chip)[i]?
      memoryModules := (st.items .physMem).map hardwareDimm
      storageDevices := (st.items .media).zipIdx.map fun (m, i) =>
        hardwareStorage m (st.items .physPkg)[i + 1]? }
  match st.items .battery with
  | b :: _ => { r with battery := hardwareBattery b (st.items .physPkg) }
  | [] => r

def maybeFire (st : HardwareState) : HardwareState :=
  if st.fired then st
  else if hardwareKinds.all st.done then
    { st with fired := true, calls := st.calls ++ [st.result toLower] }
  else st

/-- The callback of an enumeration: its places in the arrays. -/
def store (k : HardwareKind) (items : List (List Token)) (error : String)
    (st : HardwareState) : HardwareState :=
  { st with
    done := Function.update st.done k true
    items := Function.update st.items k items
    errors := Function.update st.errors k error
    ok := Function.update st.ok k (error = "") }

def onDone (k : HardwareKind) (items : List (List Token)) (error : String)
    (st : HardwareState) : HardwareState :=
  (st.store k items error).maybeFire toLower

end HardwareState

/-! ## Ethernet -/

structure IPv6PortSettings where
  present : Bool := false
  instanceId : String := ""
  addresses : List String := []
  defaultRouter : String := ""
  primaryDns : String := ""
  secondaryDns : String := ""

structure EthernetInterface where
  instanceId : String := ""
  macAddress : String := ""
  dhcpEnabled : Bool := false
  ipSyncEnabled : Bool := false
  ipAddress : String := ""
  subnetMask : String := ""
  defaultGateway : String := ""
  primaryDns : String := ""
  secondaryDns : String := ""
  linkPolicy : List Int := []
  ipv6 : IPv6PortSettings := {}

structure EthernetSettingsResult where
  ok : Bool := false
  error : String := ""
  interfaces : List EthernetInterface := []
  macAddress : String := ""
  dhcpEnabled : Bool := false
  ipv4Enabled : Bool := false
  ipAddress : String := ""
  subnetMask : String := ""
  defaultGateway : String := ""
  primaryDns : String := ""
  secondaryDns : String := ""

def parseEthernetItem (item : List Token) : EthernetInterface :=
  { instanceId := findScalar item "InstanceID"
    macAddress := findScalar item "MACAddress"
    dhcpEnabled := findScalar item "DHCPEnabled" = "true"
    ipSyncEnabled := findScalar item "IpSyncEnabled" = "true"
    ipAddress := findScalar item "IPAddress"
    subnetMask := findScalar item "SubnetMask"
    defaultGateway := findScalar item "DefaultGateway"
    primaryDns := findScalar item "PrimaryDNS"
    secondaryDns := findScalar item "SecondaryDNS"
    linkPolicy := (elementTexts item "LinkPolicy").filterMap Strings.toInt }

def parseIpv6Item (item : List Token) : IPv6PortSettings :=
  { present := true
    instanceId := findScalar item "InstanceID"
    defaultRouter := findScalar item "CurrentDefaultRouter"
    primaryDns := findScalar item "CurrentPrimaryDNS"
    secondaryDns := findScalar item "CurrentSecondaryDNS"
    addresses :=
      ((elementTexts item "CurrentAddressInfo").filter (· ≠ "")).map fun tok =>
        String.ofList (tok.toList.takeWhile (· ≠ ',')) }

/-- The number at the end of an InstanceID, or −1. -/
def instanceIdOrdinal (isDigit : Char → Bool) (id : String) : Int :=
  let tail := (id.toList.reverse.takeWhile isDigit).reverse
  if tail = [] then -1
  else (Strings.toInt (String.ofList tail)).getD (-1)

def populateBackwardCompatFields (r : EthernetSettingsResult) :
    EthernetSettingsResult :=
  match r.interfaces with
  | [] => r
  | i0 :: _ =>
      { r with
        macAddress := i0.macAddress
        dhcpEnabled := i0.dhcpEnabled
        ipv4Enabled := i0.ipSyncEnabled || i0.ipAddress ≠ ""
        ipAddress := i0.ipAddress
        subnetMask := i0.subnetMask
        defaultGateway := i0.defaultGateway
        primaryDns := i0.primaryDns
        secondaryDns := i0.secondaryDns }

inductive EthernetKind
  | eth | ipv6
  deriving DecidableEq

structure EthernetAcc where
  ethItems : List (List Token) := []
  ipv6Items : List (List Token) := []
  ethDone : Bool := false
  ipv6Done : Bool := false
  error : String := ""
  fired : Bool := false
  calls : List EthernetSettingsResult := []

namespace EthernetAcc

variable (isDigit : Char → Bool)

/-- The IPv6 settings of an ordinal: of the last item that has it. -/
def ipv6ByOrdinal (acc : EthernetAcc) (n : Int) : Option IPv6PortSettings :=
  ((acc.ipv6Items.map parseIpv6Item).filter fun s =>
    let m := instanceIdOrdinal isDigit s.instanceId
    0 ≤ m ∧ m = n).getLast?

def result (acc : EthernetAcc) : EthernetSettingsResult :=
  let interfaces := (acc.ethItems.map parseEthernetItem).map fun iface =>
    match acc.ipv6ByOrdinal isDigit
        (instanceIdOrdinal isDigit iface.instanceId) with
    | some ipv6 => { iface with ipv6 }
    | none => iface
  let r := populateBackwardCompatFields { interfaces }
  let ok :=
    match r.interfaces with
    | [] => false
    | i0 :: _ => i0.macAddress ≠ ""
  { r with
    ok
    error :=
      bif ok then ""
      else if acc.error = "" then
        "AMT_EthernetPortSettings returned no interfaces"
      else acc.error }

def maybeFire (acc : EthernetAcc) : EthernetAcc :=
  if acc.fired then acc
  else if !acc.ethDone || !acc.ipv6Done then acc
  else { acc with fired := true, calls := acc.calls ++ [acc.result isDigit] }

/-- A failure of the IPv6 settings is no error. -/
def store (k : EthernetKind) (items : List (List Token)) (error : String)
    (acc : EthernetAcc) : EthernetAcc :=
  match k with
  | .eth =>
      { acc with
        ethItems := items
        error := if error ≠ "" ∧ acc.error = "" then error else acc.error
        ethDone := true }
  | .ipv6 => { acc with ipv6Items := items, ipv6Done := true }

def onDone (k : EthernetKind) (items : List (List Token)) (error : String)
    (acc : EthernetAcc) : EthernetAcc :=
  (acc.store k items error).maybeFire isDigit

end EthernetAcc

end QuMesh.Wsman
