import QuMesh.Lib.Strings
import QuMesh.Wsman.Reads
import QuMesh.Wsman.WatchdogIds

/-!
# Invocations and their results

The operations that ask the device for one thing and report what came of it.
What they make of a reply is in the extractors, and these are of three kinds: a
strict one wants a `ReturnValue` that is the number 0, a lax one takes what is no
number for a 0, and the Delete and Put operations look at nothing. Without a
client there is no reply, and the callback runs at once.
-/

namespace QuMesh.Wsman

open QuMesh.Lib QuMesh.Lib.Xml

structure InvokeResult where
  ok : Bool := false
  error : String := ""
  returnValue : Int := -1
  deriving DecidableEq, Repr

abbrev Extractor := List Token → InvokeResult → InvokeResult

/-- What `runRequest` hands to the callback. -/
def runRequest (extract : Extractor) : Option Outcome → InvokeResult
  | none => { error := "client is null" }
  | some reply =>
      match reply.response with
      | .error error => { error }
      | .ok soap => extract soap.bodyXml {}

/-! ## Extractors -/

/-- The three operations of the opt-in service. -/
def optInExtractor (what : String) : Extractor := fun body r =>
  let rv := findScalar body "ReturnValue"
  let r := { r with returnValue := (Strings.toInt rv).getD 0 }
  let r := { r with ok := decide (r.returnValue = 0) }
  if r.ok then r else { r with error := what ++ " returned " ++ rv }

def aclReturnValueExtractor (what : String) : Extractor := fun body r =>
  let rv := findScalar body "ReturnValue"
  let r := { r with returnValue := (Strings.toInt rv).getD 0 }
  let r := { r with ok := decide (r.returnValue = 0) }
  if r.ok then r
  else
    { r with
      error := what ++ " returned " ++
        if rv = "" then "(no ReturnValue)" else rv }

/-- The reading of a `ReturnValue` that has to be there. -/
def readReturnValueOk : Extractor := fun body r =>
  let rv := findScalar body "ReturnValue"
  if rv = "" then { r with error := "response had no ReturnValue" }
  else
    let conv := Strings.toInt rv
    { r with
      returnValue := conv.getD 0
      ok := decide (conv = some 0) }

/-- The same, with a text where there is another number. -/
def returnValueExtractor (what : String) : Extractor := fun body r =>
  let r := readReturnValueOk body r
  if !r.ok && r.error = "" then
    { r with error := what ++ " returned " ++ findScalar body "ReturnValue" }
  else r

def deletedExtractor : Extractor := fun _ r =>
  { r with returnValue := 0, ok := true }

/-! ## Operations -/

def startOptIn : Option Outcome → InvokeResult :=
  runRequest (optInExtractor "StartOptIn")

def sendOptInCode : Option Outcome → InvokeResult :=
  runRequest (optInExtractor "SendOptInCode")

def cancelOptIn : Option Outcome → InvokeResult :=
  runRequest (optInExtractor "CancelOptIn")

def addUserAclEntryEx : Option Outcome → InvokeResult :=
  runRequest (aclReturnValueExtractor "AddUserAclEntryEx")

def updateUserAclEntryEx : Option Outcome → InvokeResult :=
  runRequest (aclReturnValueExtractor "UpdateUserAclEntryEx")

def removeUserAclEntry : Option Outcome → InvokeResult :=
  runRequest (aclReturnValueExtractor "RemoveUserAclEntry")

def setAclEnabledState : Option Outcome → InvokeResult :=
  runRequest (aclReturnValueExtractor "SetAclEnabledState")

def setAdminAclEntryEx : Option Outcome → InvokeResult :=
  runRequest (aclReturnValueExtractor "SetAdminAclEntryEx")

def requestPowerStateChange : Option Outcome → InvokeResult :=
  runRequest (returnValueExtractor "RequestPowerStateChange")

/-- An id that is no GUID is not asked for. -/
def deleteAgentPresenceWatchdog (tables : CharTables) (deviceIdGuid : Units)
    (reply : Option Outcome) : InvokeResult :=
  if encodeWatchdogDeviceId tables deviceIdGuid = [] then
    { error := "DeleteWatchdog: DeviceID must be a 16-byte GUID" }
  else runRequest deletedExtractor reply

def deleteAgentPresenceWatchdogAction (tables : CharTables)
    (watchdogDeviceIdGuid : Units) (oldState newState : Int)
    (reply : Option Outcome) : InvokeResult :=
  if encodeWatchdogDeviceId tables watchdogDeviceIdGuid = [] then
    { error :=
        "DeleteWatchdogAction: Watchdog DeviceID must be a 16-byte GUID" }
  else if oldState < 0 ∨ newState < 0 then
    { error :=
        "DeleteWatchdogAction: OldState and NewState are required" }
  else runRequest deletedExtractor reply

/-! ## Steps of a chain -/

/-- What a step of a chain comes to: `next` is called where it is ok, and else
`onError` with it. -/
def runChainStep (name : String) (extract : Extractor) :
    Option Outcome → InvokeResult
  | none => { error := "client is null" }
  | some reply =>
      match reply.response with
      | .error error => { error := name ++ ": " ++ error }
      | .ok soap =>
          let r := extract soap.bodyXml {}
          if r.ok then r
          else
            { error := name ++ ": " ++
                if r.error = "" then "ReturnValue " ++ toString r.returnValue
                else r.error
              returnValue := r.returnValue }

end QuMesh.Wsman
