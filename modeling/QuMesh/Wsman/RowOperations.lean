import QuMesh.Wsman.Invocations

/-!
# Watchdogs and wake alarms

The operations that add a watchdog or a wake alarm to the device, and those that
delete one. An operation that refuses its arguments sends no request and calls
back at once. Whether the bytes of a body contain a text is a parameter: a body
is its tokens here.
-/

namespace QuMesh.Wsman

open QuMesh.Lib QuMesh.Lib.Xml

structure AgentPresenceWatchdog where
  deviceIdGuid : Units
  description : Units := []
  monitoredEntityCode : Int := -1
  startupIntervalSec : Int := 0
  timeoutIntervalSec : Int := 0

structure WakeAlarm where
  elementName : String
  startTimeIso : String
  intervalIso : String := ""
  deleteOnCompletion : Bool := false

/-- An answer that is fine without a `ReturnValue` if it mentions what was to be
made. -/
def madeExtractor (mentions : List Token → String → Bool)
    (what ref output : String) : Extractor := fun body r =>
  let rv := findScalar body "ReturnValue"
  if rv = "" then
    if mentions body ref || mentions body output then
      { r with ok := true, returnValue := 0 }
    else { r with error := what ++ " response had no ReturnValue" }
  else
    let conv := Strings.toInt rv
    let r := { r with
      returnValue := conv.getD 0
      ok := decide (conv = some 0) }
    if !r.ok && r.error = "" then
      { r with error := what ++ " returned " ++ rv }
    else r

/-! ## Watchdogs -/

/-- The elements of the template that `RegisterAgent` is given. -/
structure RegisterAgentInput where
  deviceId : Units
  monitoredEntityDescription : Option Units
  monitoredEntity : Option Int
  startupInterval : Int
  timeoutInterval : Int
  deriving DecidableEq

def registerAgentRefusal (tables : CharTables)
    (watchdog : AgentPresenceWatchdog) : Option String :=
  if encodeWatchdogDeviceId tables watchdog.deviceIdGuid = [] then
    some "RegisterAgent: DeviceID must be a 16-byte GUID"
  else if watchdog.timeoutIntervalSec ≤ 0 then
    some "RegisterAgent: TimeoutInterval must be > 0"
  else none

/-- What `registerWatchdogAgent` sends, if it does. -/
def registerAgentRequest (tables : CharTables)
    (watchdog : AgentPresenceWatchdog) : Option RegisterAgentInput :=
  match registerAgentRefusal tables watchdog with
  | some _ => none
  | none =>
      some
        { deviceId := encodeWatchdogDeviceId tables watchdog.deviceIdGuid
          monitoredEntityDescription :=
            if watchdog.description = [] then none
            else some watchdog.description
          monitoredEntity :=
            if watchdog.monitoredEntityCode ≥ 0 then
              some watchdog.monitoredEntityCode
            else none
          startupInterval := watchdog.startupIntervalSec
          timeoutInterval := watchdog.timeoutIntervalSec }

def registerWatchdogAgent (tables : CharTables)
    (mentions : List Token → String → Bool) (watchdog : AgentPresenceWatchdog)
    (reply : Option Outcome) : InvokeResult :=
  match registerAgentRefusal tables watchdog with
  | some error => { error }
  | none =>
      runRequest (madeExtractor mentions "RegisterAgent" "AgentRef"
        "RegisterAgent_OUTPUT") reply

/-- The selector of the watchdog that `deleteAgentPresenceWatchdog` sends. -/
def deleteWatchdogRequest (tables : CharTables) (deviceIdGuid : Units) :
    Option Units :=
  let encoded := encodeWatchdogDeviceId tables deviceIdGuid
  if encoded = [] then none else some encoded

/-! ## Wake alarms -/

/-- The elements of the template that `AddAlarm` is given. -/
structure AddAlarmInput where
  elementName : String
  instanceId : String
  startTime : String
  interval : Option String
  deleteOnCompletion : Bool
  deriving DecidableEq

def addAlarmRequest (alarm : WakeAlarm) : Option AddAlarmInput :=
  if alarm.elementName = "" ∨ alarm.startTimeIso = "" then none
  else
    some
      { elementName := alarm.elementName
        instanceId := alarm.elementName
        startTime := alarm.startTimeIso
        interval :=
          if alarm.intervalIso = "" then none else some alarm.intervalIso
        deleteOnCompletion := alarm.deleteOnCompletion }

def addWakeAlarm (mentions : List Token → String → Bool) (alarm : WakeAlarm)
    (reply : Option Outcome) : InvokeResult :=
  if alarm.elementName = "" ∨ alarm.startTimeIso = "" then
    { error := "AddAlarm: ElementName and StartTime are required" }
  else
    runRequest (madeExtractor mentions "AddAlarm" "AlarmRef" "AddAlarm_OUTPUT")
      reply

def deleteAlarmRequest (instanceId : String) : Option String :=
  if instanceId = "" then none else some instanceId

def deleteWakeAlarm (instanceId : String) (reply : Option Outcome) :
    InvokeResult :=
  if instanceId = "" then
    { error := "DeleteAlarm: InstanceID is required" }
  else runRequest deletedExtractor reply

end QuMesh.Wsman
