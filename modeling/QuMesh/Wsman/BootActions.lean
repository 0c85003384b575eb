import QuMesh.Wsman.BootTlv
import QuMesh.Wsman.Invocations
import QuMesh.Wsman.Operations

/-!
# Boot actions

`performBootAction`: five requests, each behind the reply to the one before it.
The continuations of the source are the functions that send one. What was sent
is kept, and the calls of the callback are.
-/

namespace QuMesh.Wsman

open QuMesh.Lib QuMesh.Lib.Xml

structure BootActionParams where
  targetPowerState : Int := 2
  amtBootSource : String := ""
  biosSetup : Bool := false
  biosPause : Bool := false
  useIder : Bool := false
  iderBootDevice : Int := 0
  useSol : Bool := false
  secureErase : Bool := false
  rsePassword : String := ""
  platformErase : Bool := false
  platformEraseTlvBase64 : String := ""
  platformEraseTlvCount : Int := 0
  httpsBootUrl : Bool := false
  httpsBootUrlStr : Text := .empty
  oneClickRecovery : Bool := false
  ocrTlvBase64 : String := ""
  ocrTlvCount : Int := 0

def boolStr (v : Bool) : String := if v then "true" else "false"

namespace BootActionParams

/-- The properties that every action puts. -/
def commonProps (p : BootActionParams) : TextTable :=
  [("BIOSPause", boolStr p.biosPause), ("BIOSSetup", boolStr p.biosSetup),
    ("BootMediaIndex", "0"), ("ConfigurationDataReset", boolStr false),
    ("EnforceSecureBoot", boolStr false), ("FirmwareVerbosity", "0"),
    ("ForcedProgressEvents", boolStr false),
    ("IDERBootDevice", number32 p.iderBootDevice),
    ("LockKeyboard", boolStr false), ("LockPowerButton", boolStr false),
    ("LockResetButton", boolStr false), ("LockSleepButton", boolStr false),
    ("ReflashBIOS", boolStr false), ("UseIDER", boolStr p.useIder),
    ("UseSOL", boolStr p.useSol), ("UseSafeMode", boolStr false),
    ("UserPasswordBypass", boolStr false)].foldl
      (fun props e => props.insert e.1 e.2) .empty

def insertTlv (base64 : String) (count : Int) (props : TextTable) : TextTable :=
  (props.insert "UefiBootParametersArray" base64).insert
    "UefiBootNumberOfParams" (number32 count)

/-- What is put for the boot settings. -/
def bootSettingData (p : BootActionParams) : TextTable :=
  let props := p.commonProps
  let props :=
    if p.secureErase then
      let props := props.insert "SecureErase" "true"
      if p.rsePassword ≠ "" then props.insert "RSEPassword" p.rsePassword
      else props
    else props.insert "SecureErase" "false"
  let props :=
    if p.platformErase then
      let props := props.insert "PlatformErase" "true"
      if p.platformEraseTlvBase64 ≠ "" then
        insertTlv p.platformEraseTlvBase64 p.platformEraseTlvCount props
      else props
    else props.insert "PlatformErase" "false"
  let props :=
    if p.httpsBootUrl && !p.httpsBootUrlStr.isEmpty then
      let httpsTlv := buildHttpsBootUrlTlv p.httpsBootUrlStr
      (insertTlv (Strings.fromLatin1 (toBase64 httpsTlv.blob)) httpsTlv.count
        props).insert "BootMediaIndex" "0"
    else props
  if p.oneClickRecovery && p.ocrTlvBase64 ≠ "" then
    (insertTlv p.ocrTlvBase64 p.ocrTlvCount props).insert "BootMediaIndex" "0"
  else props

end BootActionParams

inductive BootStep
  | clearBootOrder
  | putBootSettingData
  | setRole
  | setSpecificBootSource
  | powerChange
  deriving DecidableEq, Repr

/-- What is sent. -/
inductive BootRequest
  | changeBootOrder (amtBootSource : String)
  | putBootSettingData (props : TextTable)
  | setBootConfigRole (role : Nat)
  | requestPowerStateChange (invoke : Invoke)

def BootStep.request (p : BootActionParams) : BootStep → BootRequest
  | clearBootOrder => .changeBootOrder ""
  | putBootSettingData => .putBootSettingData p.bootSettingData
  | setRole => .setBootConfigRole 1
  | setSpecificBootSource => .changeBootOrder p.amtBootSource
  | powerChange => .requestPowerStateChange
      (.requestPowerStateChange p.targetPowerState)

/-- What is made of the reply to a step. -/
def BootStep.result (p : BootActionParams) : BootStep → Option Outcome →
    InvokeResult
  | clearBootOrder => runChainStep "ChangeBootOrder(clear)" readReturnValueOk
  | putBootSettingData =>
      runChainStep "Put AMT_BootSettingData" deletedExtractor
  | setRole => runChainStep "SetBootConfigRole" readReturnValueOk
  | setSpecificBootSource =>
      runChainStep ("ChangeBootOrder(" ++ p.amtBootSource ++ ")")
        readReturnValueOk
  | powerChange => requestPowerStateChange

structure BootChain where
  p : BootActionParams
  waiting : Option BootStep := none
  sent : List BootStep := []
  calls : List InvokeResult := []

namespace BootChain

def send (step : BootStep) (c : BootChain) : BootChain :=
  { c with waiting := some step, sent := c.sent ++ [step] }

def callback (r : InvokeResult) (c : BootChain) : BootChain :=
  { c with waiting := none, calls := c.calls ++ [r] }

def doPowerChange (c : BootChain) : BootChain := c.send .powerChange

def doSetSpecificBootSource (c : BootChain) : BootChain :=
  if c.p.amtBootSource = "" then c.doPowerChange
  else c.send .setSpecificBootSource

def doSetRole (c : BootChain) : BootChain := c.send .setRole

def doPutBootSettingData (c : BootChain) : BootChain :=
  c.send .putBootSettingData

/-- What comes behind a step that was ok: the last one reports it. -/
def next (r : InvokeResult) (c : BootChain) : BootStep → BootChain
  | .clearBootOrder => c.doPutBootSettingData
  | .putBootSettingData => c.doSetRole
  | .setRole => c.doSetSpecificBootSource
  | .setSpecificBootSource => c.doPowerChange
  | .powerChange => c.callback r

def reply (c : BootChain) (r : Outcome) : BootChain :=
  match c.waiting with
  | none => c
  | some step =>
      let result := step.result c.p (some r)
      if result.ok then c.next result step else c.callback result

end BootChain

/-- Without a client the first step fails. -/
def performBootAction (client : Bool) (p : BootActionParams) : BootChain :=
  let c : BootChain := { p }
  if client then c.send .clearBootOrder
  else c.callback (BootStep.clearBootOrder.result p none)

end QuMesh.Wsman
