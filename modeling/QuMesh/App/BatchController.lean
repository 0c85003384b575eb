import QuMesh.App.BatchRunner
import QuMesh.App.ComputerModel

/-!
# `BatchController`

The batch runner with the dispatcher of the application: the job's row is
looked up in the list of computers when the job is dispatched, and the action
goes to the computer that stands there then, unless it is refused on the spot.
The list may be edited between any two steps of the runner.
-/

namespace QuMesh.App

open QuMesh.Lib

/-- `endpointForRow` -/
structure Endpoint where
  tls : Bool
  host : Text
  port : Nat
  deriving DecidableEq

def endpointForRow (c : Computer) : Endpoint :=
  { tls := c.tls, host := c.host, port := if c.tls then 16993 else 16992 }

def powerStateCodeFor (action : Int) : Nat :=
  if action = 1 then 2
  else if action = 2 then 8
  else if action = 3 then 12
  else if action = 4 then 10
  else if action = 5 then 5
  else 0

/-- The WSMAN operations a job starts. -/
inductive Operation where
  | requestPowerStateChange (code : Nat)
  | getTimeSettings
  | clearAuditLog
  | clearEventLog
  deriving DecidableEq

/-- The `switch` over the action; an action that is none starts nothing. -/
def operationFor (action : Int) : Option Operation :=
  if powerStateCodeFor action ≠ 0 then
    some (.requestPowerStateChange (powerStateCodeFor action))
  else if action = 6 then some .getTimeSettings
  else if action = 7 then some .clearAuditLog
  else if action = 8 then some .clearEventLog
  else none

/-- What the dispatcher makes of a job. -/
inductive Dispatch where
  | refused (reply : BatchRunner.Reply)
  | client (c : Computer)

def dispatch (model : Option ComputerModel) (row : Int) : Dispatch :=
  match model with
  | none => .refused { status := .doneFailed, detail := "computer model is gone" }
  | some m =>
      if row < 0 ∨ m.computers.length ≤ row then
        .refused { status := .doneFailed, detail := s!"row {row} out of range" }
      else
        let host := m.computerAt row
        if host.tls ∧ host.trustedFingerprints.isEmpty then
          .refused { status := .skipped
                     detail := "no pinned certificate — open this host once first" }
        else if host.sshTunnelEnabled then
          .refused { status := .skipped
                     detail := "SSH-tunneled hosts are not supported in batch yet" }
        else .client host

/-- What was sent: the job's row, the computer and its endpoint, and the
operation. `selected` is the id that stood in the row at the start. -/
structure Sent where
  row : Int
  target : Text
  endpoint : Endpoint
  operation : Option Operation
  selected : Option Text
  deriving DecidableEq

/-- `atStart` are the ids in the list when the batch was started, `removed` the
rows that were removed from it since, and `sent` is all that was sent; no
function reads them. -/
structure BatchController where
  runner : BatchRunner Unit := {}
  model : Option ComputerModel := none
  atStart : List Text := []
  removed : List Nat := []
  sent : List Sent := []

namespace BatchController

def idsOf (model : Option ComputerModel) : List Text :=
  (model.map (·.computers.map (·.id))).getD []

def start (rows : List Int) (action : Int) (s : BatchController) :
    BatchController :=
  if s.model.isNone then s
  else
    let runner := { s.runner with dispatcher := true }.start rows action ()
    if runner.begun = s.runner.begun then { s with runner }
    else
      { s with runner, atStart := idsOf s.model, removed := [] }

/-- The id that stood in a row when the batch was started. -/
def selected (s : BatchController) (row : Int) : Option Text :=
  if row < 0 then none else s.atStart[row.toNat]?

/-- The dispatcher, called by the runner for a row. -/
def call (row : Int) (s : BatchController) : BatchController :=
  match dispatch s.model row with
  | .refused r =>
      -- answered inside the call: the reply that was promised last
      { s with runner := s.runner.reply (s.runner.outstanding.length - 1) r }
  | .client c =>
      { s with sent := s.sent ++ [{
          row
          target := c.id
          endpoint := endpointForRow c
          operation := operationFor s.runner.currentAction
          selected := s.selected row }] }

/-- The row the runner is about to call the dispatcher for. -/
def nextRow (r : BatchRunner Unit) : Option Int :=
  match r.stack with
  | .taken i :: _ => (r.jobs[i]?).map (·.row)
  | _ => none

def resume (s : BatchController) : BatchController :=
  let next := nextRow s.runner
  let s := { s with runner := s.runner.resume }
  match next with
  | some row => s.call row
  | none => s

variable (json : JsonText) (aes : AesCtr)

/-- The row that a call removes from the list. -/
def removal (m : ComputerModel) : ComputerModel.Call → Option Nat
  | .removeAt row => ComputerModel.rowOf m.computers row
  | _ => none

def edit (c : ComputerModel.Call) (a : Platform) (s : BatchController) :
    BatchController :=
  match s.model with
  | none => s
  | some m =>
      let r := m.call json aes c a
      { s with
        model := some r.2
        removed := if r.1 then (removal m c).toList ++ s.removed
          else s.removed }

inductive Event where
  | start (rows : List Int) (action : Int)
  | retryFailed
  | reply (n : Nat) (r : BatchRunner.Reply)
  | resume
  | edit (c : ComputerModel.Call) (a : Platform)

def step (s : BatchController) : Event → BatchController
  | .start rows action => s.start rows action
  | .retryFailed => { s with runner := s.runner.retryFailed }
  | .reply n r => { s with runner := s.runner.reply n r }
  | .resume => s.resume
  | .edit c a => s.edit json aes c a

end BatchController

end QuMesh.App
