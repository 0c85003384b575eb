import QuMesh.Lib.Run

/-!
# `BatchRunner`

One action for many rows, a bounded number of them at a time. The runner emits
signals and calls the dispatcher in the middle of its own functions, and what
is called back may call the runner again. So its control is part of the state:
a stack of the places where a function of the runner has handed control out and
is to go on when it gets it back. Two signals in a row are one such place. The
environment calls what it likes at each of them, in whatever order, and returns.
-/

namespace QuMesh.App

open QuMesh.Lib

inductive BatchStatus where
  | pending
  | running
  | doneOk
  | doneFailed
  | skipped
  deriving DecidableEq

/-- `rounds` and `dispatches` are for the statements only: how often the job
was queued, by a start or a retry, and how often the dispatcher was called. -/
structure Job where
  row : Int
  status : BatchStatus := .pending
  detail : String := ""
  rounds : Nat := 1
  dispatches : Nat := 0
  deriving DecidableEq

namespace BatchRunner

structure Reply where
  status : BatchStatus := .doneFailed
  detail : String := ""

/-- Where control was handed out: in the signals of a start or a retry, of a
job that was taken and not dispatched yet, in the dispatcher, in the signals of
a completed job, and in `runningChanged` and `batchFinished` of a batch. -/
inductive Frame where
  | starting
  | taken (i : Nat)
  | dispatching (i : Nat)
  | completing
  | finishing (batch : Nat)
  | finished
  deriving DecidableEq

end BatchRunner

/-- `outstanding` are the rows of the replies that are still to come. Batches
are numbered by `begun`, `ended` are those whose end was signalled, and `cap`
is the limit in force when the last job was taken; no function reads these. -/
structure BatchRunner (P : Type) where
  dispatcher : Bool := false
  maxConcurrency : Nat := 8
  jobs : List Job := []
  currentAction : Int := 1
  currentParams : Option P := none
  inflight : Int := 0
  running : Bool := false
  stack : List BatchRunner.Frame := []
  outstanding : List Int := []
  begun : Nat := 0
  ended : List Nat := []
  cap : Nat := 0

namespace BatchRunner

variable {P : Type}

def setMaxConcurrency (n : Int) (m : BatchRunner P) : BatchRunner P :=
  { m with maxConcurrency := (max 1 (min n 64)).toNat }

/-- Where the queue's loop stops next. -/
def nextPending (jobs : List Job) (i : Nat) : Option Nat :=
  (List.range' i (jobs.length - i)).find? fun k =>
    (jobs[k]?).any (·.status = .pending)

def isActive (j : Job) : Bool := j.status = .pending ∨ j.status = .running

def setStatus (k : Nat) (status : BatchStatus) (m : BatchRunner P) :
    BatchRunner P :=
  { m with jobs := m.jobs.modify k fun j => { j with status } }

/-- The part of the loop up to the signals. -/
def take (k : Nat) (m : BatchRunner P) : BatchRunner P :=
  { m.setStatus k .running with
    inflight := m.inflight + 1
    stack := .taken k :: m.stack
    cap := m.maxConcurrency }

/-- The check behind the loop, up to the first signal. -/
def settle (m : BatchRunner P) : BatchRunner P :=
  if m.jobs.any isActive = false ∧ m.running = true then
    { m with running := false, stack := .finishing m.begun :: m.stack }
  else m

/-- The loop of `pumpQueue` from an index on. -/
def pumpFrom (i : Nat) (m : BatchRunner P) : BatchRunner P :=
  match (if m.inflight < m.maxConcurrency then nextPending m.jobs i
    else none) with
  | some k => m.take k
  | none => m.settle

def pumpQueue (m : BatchRunner P) : BatchRunner P := m.pumpFrom 0

def start (rows : List Int) (action : Int) (params : P) (m : BatchRunner P) :
    BatchRunner P :=
  if m.running ∨ !m.dispatcher ∨ rows.isEmpty then m
  else
    { m with
      jobs := rows.map fun row => { row }
      currentAction := action
      currentParams := some params
      inflight := 0
      running := true
      stack := .starting :: m.stack
      begun := m.begun + 1 }

def retried (j : Job) : Job :=
  if j.status = .doneFailed then
    { j with status := .pending, detail := "", rounds := j.rounds + 1 }
  else j

def retryFailed (m : BatchRunner P) : BatchRunner P :=
  if m.running ∨ !m.dispatcher ∨
      m.jobs.any (·.status = .doneFailed) = false then m
  else
    { m with
      jobs := m.jobs.map retried
      inflight := 0
      running := true
      stack := .starting :: m.stack
      begun := m.begun + 1 }

/-- A reply that is none is a failure. -/
def normalized (r : Reply) : Reply :=
  if r.status = .pending ∨ r.status = .running then
    { status := .doneFailed
      detail := if r.detail.isEmpty then
        "dispatcher returned non-terminal status" else r.detail }
  else r

def completeOne (k : Nat) (r : Reply) (m : BatchRunner P) : BatchRunner P :=
  let r := normalized r
  { m with
    jobs := m.jobs.modify k fun j =>
      { j with status := r.status, detail := r.detail }
    inflight := m.inflight - 1
    stack := .completing :: m.stack }

/-- The first running job of a row. -/
def findRunning (jobs : List Job) (row : Int) : Option Nat :=
  jobs.findIdx? fun j => j.row = row ∧ j.status = .running

/-- The callback that the dispatcher was given for a row. -/
def onReply (row : Int) (r : Reply) (m : BatchRunner P) : BatchRunner P :=
  match findRunning m.jobs row with
  | some k => m.completeOne k r
  | none => m

/-- A reply that is still to come is one of `outstanding`. -/
def reply (n : Nat) (r : Reply) (m : BatchRunner P) : BatchRunner P :=
  match m.outstanding[n]? with
  | none => m
  | some row =>
      onReply row r { m with outstanding := m.outstanding.eraseIdx n }

/-- Control comes back to the function that handed it out last. -/
def resume (m : BatchRunner P) : BatchRunner P :=
  match m.stack with
  | [] => m
  | .starting :: stack => pumpQueue { m with stack }
  | .taken i :: stack =>
      match m.jobs[i]? with
      | none => { m with stack }
      | some j =>
          { m with
            jobs := m.jobs.set i { j with dispatches := j.dispatches + 1 }
            outstanding := m.outstanding ++ [j.row]
            stack := .dispatching i :: stack }
  | .dispatching i :: stack => pumpFrom (i + 1) { m with stack }
  | .completing :: stack =>
      if m.running then pumpQueue { m with stack } else { m with stack }
  | .finishing batch :: stack =>
      { m with ended := m.ended ++ [batch], stack := .finished :: stack }
  | .finished :: stack => { m with stack }

inductive Event (P : Type) where
  | start (rows : List Int) (action : Int) (params : P)
  | retryFailed
  | setMaxConcurrency (n : Int)
  | reply (n : Nat) (r : Reply)
  | resume

def step (m : BatchRunner P) : Event P → BatchRunner P
  | .start rows action params => m.start rows action params
  | .retryFailed => m.retryFailed
  | .setMaxConcurrency n => m.setMaxConcurrency n
  | .reply n r => m.reply n r
  | .resume => m.resume

end BatchRunner

end QuMesh.App
