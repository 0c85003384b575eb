import QuMesh.App.DetailsCommands
import QuMesh.Lib.JsObject
import QuMesh.Wsman.RemoteAccess

/-!
# Editing a policy of remote access

`CiraPolicyDialog` takes a policy apart into its drafts and puts them together
again, and `addCiraPolicyRule` checks what it gets and has the rule added. The
servers that are chosen are the keys of two objects. Numbers are integers here,
so that what `||` replaces is 0.
-/

namespace QuMesh.Details

open QuMesh.Lib QuMesh.Wsman

/-- `v || d` of numbers. -/
def jsOr (v d : Int) : Int := if v = 0 then d else v

/-- The map that the dialog passes; what is not in it is `none`. -/
structure CiraFields where
  trigger : Int
  tunnelLifeTime : Int
  ciraMpsNames : List String
  cilaMpsNames : List String
  periodicMode : Option String := none
  periodicSeconds : Option Int := none
  periodicHour : Option Int := none
  periodicMinute : Option Int := none

structure CiraPolicyDialog where
  isEdit : Bool := false
  draftTrigger : Int := 0
  draftTunnelLifeTime : Int := 60
  draftPeriodicMode : String := "interval"
  draftPeriodicSeconds : Int := 300
  draftPeriodicHour : Int := 12
  draftPeriodicMinute : Int := 0
  ciraSelected : JsObject := .empty
  cilaSelected : JsObject := .empty

/-- The type of the first server of a name. -/
def mpsTypeOf (servers : List MpsServer) (name : String) : Int :=
  match servers.find? fun s => s.name == name with
  | some s => jsOr s.mpsType 0
  | none => 0

namespace CiraPolicyDialog

/-- The loop over the servers that a policy is bound to. -/
def selectBound (servers : List MpsServer) :
    List String → JsObject × JsObject → JsObject × JsObject
  | [], selected => selected
  | n :: boundNames, (cira, cila) =>
      if mpsTypeOf servers n = 1 then
        selectBound servers boundNames (cira, cila.put n)
      else selectBound servers boundNames (cira.put n, cila)

def openForEdit (remoteAccess : RemoteAccessResult) (policy : RemoteAccessPolicy)
    (d : CiraPolicyDialog) : CiraPolicyDialog :=
  let d :=
    { d with
      isEdit := true
      draftTrigger := jsOr policy.trigger 0
      draftTunnelLifeTime := jsOr policy.tunnelLifeTime 0 }
  let d :=
    if policy.periodicInterval then
      { d with
        draftPeriodicMode := "interval"
        draftPeriodicSeconds := jsOr policy.periodicSeconds 300 }
    else if policy.periodicTimeOfDay then
      { d with
        draftPeriodicMode := "timeOfDay"
        draftPeriodicHour := jsOr policy.periodicHour 0
        draftPeriodicMinute := jsOr policy.periodicMinute 0 }
    else
      { d with
        draftPeriodicMode := "interval"
        draftPeriodicSeconds := 300 }
  let selected :=
    selectBound remoteAccess.servers policy.mpsNames (.empty, .empty)
  { d with
    ciraSelected := selected.1
    cilaSelected := selected.2 }

def submitReady (d : CiraPolicyDialog) : Bool :=
  if d.ciraSelected.keys.isEmpty && d.cilaSelected.keys.isEmpty then false
  else if d.draftTrigger ≠ 2 then true
  else if d.draftPeriodicMode = "interval" then d.draftPeriodicSeconds > 0
  else if d.draftPeriodicMode = "timeOfDay" then
    d.draftPeriodicHour ≥ 0 && d.draftPeriodicHour ≤ 23 &&
      d.draftPeriodicMinute ≥ 0 && d.draftPeriodicMinute ≤ 59
  else false

/-- What the controller is called with, if it is. -/
def submitIfReady (d : CiraPolicyDialog) : Option CiraFields :=
  if !d.submitReady then none
  else
    let fields : CiraFields :=
      { trigger := d.draftTrigger
        tunnelLifeTime := d.draftTunnelLifeTime
        ciraMpsNames := d.ciraSelected.keys
        cilaMpsNames := d.cilaSelected.keys }
    if d.draftTrigger = 2 then
      if d.draftPeriodicMode = "interval" then
        some { fields with
          periodicMode := some d.draftPeriodicMode
          periodicSeconds := some d.draftPeriodicSeconds }
      else
        some { fields with
          periodicMode := some d.draftPeriodicMode
          periodicHour := some d.draftPeriodicHour
          periodicMinute := some d.draftPeriodicMinute }
    else some fields

end CiraPolicyDialog

namespace Panel

def refreshRemoteAccess (p : Panel) : Panel :=
  { p with machine := p.machine.refreshRemoteAccess }

/-- The schedule of a periodic rule, or the error. -/
def ciraSchedule (fields : CiraFields) (policy : CiraPolicyInput) :
    Except String CiraPolicyInput :=
  let mode := fields.periodicMode.getD ""
  if mode = "interval" then
    let seconds := fields.periodicSeconds.getD 0
    if seconds ≤ 0 then .error "CIRA policy: periodic interval must be > 0."
    else
      .ok { policy with
        periodicInterval := true
        periodicSeconds := seconds }
  else if mode = "timeOfDay" then
    let hour := fields.periodicHour.getD 0
    let minute := fields.periodicMinute.getD 0
    if hour < 0 ∨ hour > 23 ∨ minute < 0 ∨ minute > 59 then
      .error "CIRA policy: hour 0–23, minute 0–59."
    else
      .ok { policy with
        periodicTimeOfDay := true
        periodicHour := hour
        periodicMinute := minute }
  else
    .error "CIRA policy: periodic mode must be 'interval' or 'timeOfDay'."

/-- What is made of the fields, or the error. -/
def ciraPolicyInput (fields : CiraFields) : Except String CiraPolicyInput :=
  let policy : CiraPolicyInput :=
    { trigger := fields.trigger
      tunnelLifeTime := fields.tunnelLifeTime }
  if policy.trigger < 0 ∨ policy.trigger > 2 then
    .error ("CIRA policy: trigger " ++ toString policy.trigger ++
      " out of range (0..2).")
  else if policy.tunnelLifeTime < 0 then
    .error "CIRA policy: tunnel lifetime must be >= 0."
  else
    match if policy.trigger = 2 then ciraSchedule fields policy
      else .ok policy with
    | .error error => .error error
    | .ok policy =>
        if fields.ciraMpsNames.isEmpty && fields.cilaMpsNames.isEmpty then
          .error "CIRA policy: at least one MPS server must be bound."
        else
          .ok { policy with
            ciraMpsNames := fields.ciraMpsNames
            cilaMpsNames := fields.cilaMpsNames }

/-- The request that goes out, if one does. -/
def addCiraPolicyRule (fields : CiraFields) (p : Panel) :
    Panel × Option PolicyRuleRequest :=
  let p := p.setLastError ""
  if p.host.isEmpty then
    (p.setLastError "CIRA policy: host is empty.", none)
  else
    match ciraPolicyInput fields with
    | .error error => (p.setLastError error, none)
    | .ok policy => (p.incInflight, some (addRemoteAccessPolicyRule policy))

def addCiraPolicyRuleDone (r : InvokeResult) (p : Panel) : Panel :=
  let p := p.decInflight
  if !r.ok then
    p.setLastError
      (if r.error = "" then "CIRA policy: AddRemoteAccessPolicyRule failed."
      else "CIRA policy: " ++ r.error)
  else p.refreshRemoteAccess

end Panel

end QuMesh.Details
