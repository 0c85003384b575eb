import QuMesh.Lib.Run

/-!
# `SshTunnel`

One `open` of a tunnel, from the task it posts to the worker to the end of the
pump. The state is what the tunnel keeps, the flag it shares with the task,
and what is in flight between the threads: the task on the worker, the arrival
that is posted back, the clean-ups that are posted to the worker, and the
queued `finished` of the pump's thread. What is posted to a tunnel is dropped
when the tunnel is destroyed, and what is posted to a worker when that ends.

With it stands whether the worker obtained a channel and how often it was
freed. The session frees the channels it still has when it is freed itself.
-/

namespace QuMesh.Ssh

inductive TunnelSignal where
  | opened
  | failed (error : String)
  | closed
  deriving DecidableEq, Repr

/-- The task that `open` posts: it gets the channel or none, looks whether it
was abandoned, and posts the arrival. -/
inductive Task where
  | none
  | queued
  | got (channel : Bool)
  | checked (channel : Bool)
  | done
  deriving DecidableEq, Repr

/-- `d->pump`, and whether its thread has left `run`. -/
inductive PumpThread where
  | none
  | running
  | exited
  deriving DecidableEq, Repr

/-- The session: while it is being destroyed the thread that destroys it waits
for the worker's. -/
inductive SessionLife where
  | alive
  | ending
  | gone
  deriving DecidableEq, Repr

structure SshTunnel where
  remoteHost : String := ""
  remotePort : UInt16 := 0
  alive : Bool := true
  opened : Bool := false
  lastError : String := ""
  /-- `d->openState` is there. -/
  openState : Bool := false
  destroyConnected : Bool := false
  pump : PumpThread := .none
  out : List TunnelSignal := []
  abandoned : Bool := false
  task : Task := .none
  arrival : Option Bool := none
  cleanups : Nat := 0
  finished : Bool := false
  session : SessionLife := .alive
  channel : Bool := false
  frees : Nat := 0
  deriving DecidableEq, Repr

namespace SshTunnel

/-- The constructor. -/
def make (remoteHost : String) (remotePort : UInt16) : SshTunnel :=
  { remoteHost, remotePort }

def emit (e : TunnelSignal) (t : SshTunnel) : SshTunnel :=
  { t with out := t.out ++ [e] }

def fail (error : String) (t : SshTunnel) : SshTunnel :=
  { t with lastError := error }.emit (.failed error)

def «open» (connected worker : Bool) (t : SshTunnel) : SshTunnel :=
  if connected = false then t.fail "SSH session not connected"
  else if worker = false then t.fail "SSH session worker not available"
  else
    { t with destroyConnected := true, openState := true, abandoned := false,
             task := .queued }

/-- The channel is closed and freed. -/
def freeChannel (t : SshTunnel) : SshTunnel := { t with frees := t.frees + 1 }

/-- The same, posted to the worker, if there is one. -/
def postCleanup (t : SshTunnel) : SshTunnel :=
  if t.session = .gone then t else { t with cleanups := t.cleanups + 1 }

def onChannelOpened (channel socketPair : Bool) (t : SshTunnel) : SshTunnel :=
  if channel = false then
    { t with openState := false }.fail
      s!"Failed to open SSH channel to {t.remoteHost}:{t.remotePort}"
  else if socketPair = false then
    let t := if t.openState then t.postCleanup else t
    { t with openState := false }.fail "socketpair() failed"
  else
    { t with pump := .running, opened := true, openState := false }.emit .opened

/-- The end of `SshTunnelPump::run`. -/
def pumpExit (t : SshTunnel) : SshTunnel :=
  if t.pump = .running then
    { t with pump := .exited, finished := true }.freeChannel
  else t

def closeInternal (emitSignals : Bool) (t : SshTunnel) : SshTunnel :=
  let wasOpenPending := t.openState && !t.opened
  let t :=
    if t.openState then { t with abandoned := true, openState := false } else t
  -- `stop`, `wait` and `reset`
  let t := { t.pumpExit with pump := .none }
  if t.opened then
    let t := { t with opened := false }
    if emitSignals then t.emit .closed else t
  else if wasOpenPending && emitSignals then
    t.fail (if t.lastError = "" then "SSH tunnel closed before channel opened"
      else t.lastError)
  else t

def close (t : SshTunnel) : SshTunnel := t.closeInternal true

/-- `~SshTunnel`. What is posted to the tunnel goes with it. -/
def destroy (t : SshTunnel) : SshTunnel :=
  let t := if t.openState then { t with abandoned := true } else t
  { t.closeInternal false with alive := false, arrival := none, finished := false }

/-! ## The worker's thread -/

/-- `openForwardChannel` returns. -/
def channelResult (channel : Bool) (t : SshTunnel) : SshTunnel :=
  if t.task = .queued then { t with task := .got channel, channel } else t

/-- The task looks at the flag, and frees the channel itself if it is set. -/
def checkAbandoned (t : SshTunnel) : SshTunnel :=
  match t.task with
  | .got channel =>
      if t.abandoned then
        let t := { t with task := .done }
        if channel then t.freeChannel else t
      else { t with task := .checked channel }
  | _ => t

def postArrival (t : SshTunnel) : SshTunnel :=
  match t.task with
  | .checked channel =>
      let t := { t with task := .done }
      if t.alive then { t with arrival := some channel } else t
  | _ => t

def runCleanup (t : SshTunnel) : SshTunnel :=
  if 0 < t.cleanups then { t with cleanups := t.cleanups - 1 }.freeChannel else t

/-- The worker's thread ends, between two of its tasks, and the session is
freed with the channels it has. -/
def workerEnd (t : SshTunnel) : SshTunnel :=
  match t.session, t.task with
  | .ending, .got _ | .ending, .checked _ => t
  | .ending, _ =>
      let t := { t with session := .gone, task := .done, cleanups := 0 }
      if t.channel ∧ t.frees = 0 then t.freeChannel else t
  | _, _ => t

/-! ## The thread of the tunnel -/

/-- The arrival is processed. -/
def arrive (socketPair : Bool) (t : SshTunnel) : SshTunnel :=
  match t.arrival with
  | none => t
  | some channel =>
      let t := { t with arrival := none }
      if t.abandoned then if channel then t.postCleanup else t
      else t.onChannelOpened channel socketPair

def pumpFinished (t : SshTunnel) : SshTunnel :=
  if t.finished then { t with finished := false }.close else t

/-- `~SshSession`: the tunnel is closed before the worker is stopped. -/
def destroySession (t : SshTunnel) : SshTunnel :=
  if t.session = .alive then
    let t := if t.alive ∧ t.destroyConnected then t.close else t
    { t with session := .ending }
  else t

inductive Event where
  | channelResult (channel : Bool)
  | checkAbandoned
  | postArrival
  | runCleanup
  | workerEnd
  | pumpExit
  | arrive (socketPair : Bool)
  | close
  | pumpFinished
  | destroySession
  | destroy
  deriving DecidableEq, Repr

def step (t : SshTunnel) : Event → SshTunnel
  | .channelResult channel => if t.session = .gone then t else t.channelResult channel
  | .checkAbandoned => t.checkAbandoned
  | .postArrival => t.postArrival
  | .runCleanup => t.runCleanup
  | .workerEnd => t.workerEnd
  | .pumpExit => t.pumpExit
  | .arrive socketPair => if t.session = .ending then t else t.arrive socketPair
  | .close => if t.session = .ending ∨ t.alive = false then t else t.close
  | .pumpFinished => if t.session = .ending then t else t.pumpFinished
  | .destroySession => t.destroySession
  | .destroy => if t.session = .ending ∨ t.alive = false then t else t.destroy

end SshTunnel

end QuMesh.Ssh
