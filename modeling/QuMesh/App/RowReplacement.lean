import QuMesh.App.DetailsCommands
import QuMesh.Wsman.RowOperations

/-!
# Replacing a row

A watchdog or a wake alarm is changed by deleting the old row and adding the new
one when the delete has been answered. The two are the same but for their
checks, their operations and their texts, which `RowKind` holds; without an old
row there is only the adding. An operation that refuses its arguments calls back
at once.
-/

namespace QuMesh.Details

open QuMesh.Lib QuMesh.Lib.Xml QuMesh.Wsman

inductive RowRequest (δ α : Type)
  | delete (selector : δ)
  | add (row : α)
  deriving DecidableEq

/-- What is waited for: a plain add has texts of its own. -/
inductive RowStage (ι ω : Type)
  | deleting (old : ι) (row : ω)
  | adding (row : ω) (plain : Bool)

/-- The panel, with the requests that a call has sent. -/
structure RowEditor (ι ω δ α : Type) where
  panel : Panel := {}
  sent : List (RowRequest δ α) := []
  waiting : Option (RowStage ι ω) := none

structure RowKind (ι ω δ α : Type) where
  noun : String
  addName : String
  isEmpty : ι → Bool
  savable : ω → Bool
  saveError : String
  deleteRequest : ι → Option δ
  delete : ι → Option Outcome → InvokeResult
  addRequest : ω → Option α
  add : ω → Option Outcome → InvokeResult
  refresh : Panel → Panel
  /-- A refused delete is no success. -/
  delete_refused : ∀ old reply, deleteRequest old = none →
    (delete old reply).ok = false

namespace RowEditor

variable {ι ω δ α : Type}

def host (e : RowEditor ι ω δ α) : String := e.panel.host

def setLastError (error : String) (e : RowEditor ι ω δ α) :
    RowEditor ι ω δ α :=
  { e with panel := e.panel.setLastError error }

def incInflight (e : RowEditor ι ω δ α) : RowEditor ι ω δ α :=
  { e with panel := e.panel.incInflight }

def decInflight (e : RowEditor ι ω δ α) : RowEditor ι ω δ α :=
  { e with panel := e.panel.decInflight }

end RowEditor

namespace RowKind

variable {ι ω δ α : Type} (k : RowKind ι ω δ α)

def refreshRows (e : RowEditor ι ω δ α) : RowEditor ι ω δ α :=
  { e with panel := k.refresh e.panel }

/-- The text for a plain add that failed, or for one behind a delete. -/
def addFailed (plain : Bool) (r : InvokeResult) : String :=
  if plain then
    if r.error = "" then "Add " ++ k.noun ++ ": failed."
    else "Add " ++ k.noun ++ ": " ++ r.error
  else if r.error = "" then
    "Save " ++ k.noun ++
      ": previous row was removed but the new one could not be added."
  else
    "Save " ++ k.noun ++ ": previous row removed; " ++ k.addName ++ ": " ++
      r.error

def deleteFailed (r : InvokeResult) : String :=
  if r.error = "" then
    "Save " ++ k.noun ++ ": failed to delete previous row."
  else "Save " ++ k.noun ++ ": " ++ r.error

def onAdded (plain : Bool) (r : InvokeResult) (e : RowEditor ι ω δ α) :
    RowEditor ι ω δ α :=
  let e := e.decInflight
  if r.ok then k.refreshRows e
  else if plain then e.setLastError (k.addFailed plain r)
  else k.refreshRows (e.setLastError (k.addFailed plain r))

def issueAdd (row : ω) (plain : Bool) (e : RowEditor ι ω δ α) :
    RowEditor ι ω δ α :=
  match k.addRequest row with
  | none => k.onAdded plain (k.add row none) e
  | some request =>
      { e with
        sent := e.sent ++ [.add request]
        waiting := some (.adding row plain) }

def onDeleted (row : ω) (r : InvokeResult) (e : RowEditor ι ω δ α) :
    RowEditor ι ω δ α :=
  if r.ok then k.issueAdd row false e
  else e.decInflight.setLastError (k.deleteFailed r)

def issueDelete (old : ι) (row : ω) (e : RowEditor ι ω δ α) :
    RowEditor ι ω δ α :=
  match k.deleteRequest old with
  | none => k.onDeleted row (k.delete old none) e
  | some selector =>
      { e with
        sent := e.sent ++ [.delete selector]
        waiting := some (.deleting old row) }

/-- A plain add, with the error of its checks if there is one. -/
def addPlain (row : ω) (error : Option String) (e : RowEditor ι ω δ α) :
    RowEditor ι ω δ α :=
  let e := e.setLastError ""
  match error with
  | some error => e.setLastError error
  | none =>
      if e.host.isEmpty then
        e.setLastError ("Add " ++ k.noun ++ ": host is empty.")
      else k.issueAdd row true e.incInflight

def replace (old : ι) (row : ω) (addError : Option String)
    (e : RowEditor ι ω δ α) : RowEditor ι ω δ α :=
  let e := e.setLastError ""
  if k.isEmpty old then k.addPlain row addError e
  else if !k.savable row then e.setLastError k.saveError
  else if e.host.isEmpty then
    e.setLastError ("Save " ++ k.noun ++ ": host is empty.")
  else k.issueDelete old row e.incInflight

/-- The answer to the request that is waited for. -/
def reply (e : RowEditor ι ω δ α) (r : Outcome) : RowEditor ι ω δ α :=
  match e.waiting with
  | none => e
  | some (.deleting old row) =>
      k.onDeleted row (k.delete old (some r)) { e with waiting := none }
  | some (.adding row plain) =>
      k.onAdded plain (k.add row (some r)) { e with waiting := none }

end RowKind

/-! ## Watchdogs -/

/-- `QString::trimmed` on the units; every space is one of them. -/
def trimmedUnits (s : Units) : Units :=
  let isSpace (u : UInt16) := Strings.isSpace (Char.ofNat u.toNat)
  ((s.dropWhile isSpace).reverse.dropWhile isSpace).reverse

/-- The fields of the dialog, as the conversions give them. -/
structure WatchdogFields where
  deviceIdGuid : Units := []
  description : Units := []
  monitoredEntityCode : Option Int := none
  startupIntervalSec : Int := 0
  timeoutIntervalSec : Int := 0

def watchdogFromFields (f : WatchdogFields) : AgentPresenceWatchdog where
  deviceIdGuid := trimmedUnits f.deviceIdGuid
  description := trimmedUnits f.description
  monitoredEntityCode := f.monitoredEntityCode.getD (-1)
  startupIntervalSec := f.startupIntervalSec
  timeoutIntervalSec := f.timeoutIntervalSec

/-- What the last refresh said of the watchdogs: the ceiling, and how many there
are. -/
structure AgentPresence where
  maxTotalAgents : Int := 0
  watchdogs : Nat := 0

def addWatchdogError (ap : AgentPresence) (w : AgentPresenceWatchdog) :
    Option String :=
  if w.deviceIdGuid = [] then some "Add watchdog: DeviceID is required."
  else if w.timeoutIntervalSec ≤ 0 then
    some "Add watchdog: timeout must be > 0 seconds."
  else if ap.maxTotalAgents > 0 ∧ (ap.watchdogs : Int) ≥ ap.maxTotalAgents then
    some ("Add watchdog: at the firmware ceiling (" ++
      toString ap.maxTotalAgents ++ ").")
  else none

section

variable (tables : CharTables) (mentions : List Token → String → Bool)

def watchdogRows :
    RowKind Units AgentPresenceWatchdog Units RegisterAgentInput where
  noun := "watchdog"
  addName := "RegisterAgent"
  isEmpty := List.isEmpty
  savable w := w.deviceIdGuid ≠ [] && w.timeoutIntervalSec > 0
  saveError := "Save watchdog: DeviceID and timeout (> 0) are required."
  deleteRequest := deleteWatchdogRequest tables
  delete := deleteAgentPresenceWatchdog tables
  addRequest := registerAgentRequest tables
  add := registerWatchdogAgent tables mentions
  refresh p := { p with machine := p.machine.refreshAgentPresence }
  delete_refused old reply h := by
    unfold deleteWatchdogRequest at h
    unfold deleteAgentPresenceWatchdog
    split
    · rfl
    · next hgiven =>
      dsimp only at h
      rw [if_neg hgiven] at h
      cases h

abbrev WatchdogEditor : Type :=
  RowEditor Units AgentPresenceWatchdog Units RegisterAgentInput

def addAgentPresenceWatchdog (ap : AgentPresence) (fields : WatchdogFields) :
    WatchdogEditor → WatchdogEditor :=
  let w := watchdogFromFields fields
  (watchdogRows tables mentions).addPlain w (addWatchdogError ap w)

def replaceAgentPresenceWatchdog (ap : AgentPresence)
    (oldDeviceIdGuid : Units) (fields : WatchdogFields) :
    WatchdogEditor → WatchdogEditor :=
  let w := watchdogFromFields fields
  (watchdogRows tables mentions).replace oldDeviceIdGuid w
    (addWatchdogError ap w)

end

/-! ## Wake alarms -/

structure WakeAlarmFields where
  elementName : String := ""
  startTimeIso : String := ""
  intervalIso : String := ""
  deleteOnCompletion : Bool := false

def alarmFromFields (f : WakeAlarmFields) : WakeAlarm where
  elementName := Strings.trimmed f.elementName
  startTimeIso := Strings.trimmed f.startTimeIso
  intervalIso := Strings.trimmed f.intervalIso
  deleteOnCompletion := f.deleteOnCompletion

def addAlarmError (a : WakeAlarm) : Option String :=
  if a.elementName = "" then some "Add alarm: name is required."
  else if a.startTimeIso = "" then some "Add alarm: start time is required."
  else none

section

variable (mentions : List Token → String → Bool)

def alarmRows : RowKind String WakeAlarm String AddAlarmInput where
  noun := "alarm"
  addName := "AddAlarm"
  isEmpty := String.isEmpty
  savable a := a.elementName ≠ "" && a.startTimeIso ≠ ""
  saveError := "Save alarm: name and start time are required."
  deleteRequest := deleteAlarmRequest
  delete := deleteWakeAlarm
  addRequest := addAlarmRequest
  add := addWakeAlarm mentions
  refresh p := { p with machine := p.machine.refreshWakeAlarms }
  delete_refused old reply h := by
    unfold deleteAlarmRequest at h
    unfold deleteWakeAlarm
    split
    · rfl
    · next hgiven =>
      rw [if_neg hgiven] at h
      cases h

abbrev AlarmEditor : Type := RowEditor String WakeAlarm String AddAlarmInput

def addWakeAlarm (fields : WakeAlarmFields) : AlarmEditor → AlarmEditor :=
  let a := alarmFromFields fields
  (alarmRows mentions).addPlain a (addAlarmError a)

def replaceWakeAlarm (oldInstanceId : String) (fields : WakeAlarmFields) :
    AlarmEditor → AlarmEditor :=
  let a := alarmFromFields fields
  (alarmRows mentions).replace oldInstanceId a (addAlarmError a)

end

end QuMesh.Details
