import QuMesh.Lib.Run

/-!
# User consent

The part of `MachineDetailsController` that starts, polls and ends a consent
round, and the part of `SessionWindow` that drives it: the connect a panel is
waiting for, and the prompt for the code. The firmware is there too, with its
`OptInState`; it serves a request at some time after it was sent, and what it
answered, or an error of the transport, reaches the callback at some time after
that, in any order.

A slot of the window runs where the controller emits, so a status reply drives
the consent between storing the state and looking at the poll. The window
destroys its controller when it is closed. `granted` and `afterGrant` are not
in the code: the firmware has accepted a code, and it served a status read
after that.
-/

namespace QuMesh.Consent

/-- `MachineDetailsController::Protocol`, which numbers the tabs as well. -/
inductive Protocol
  | sol
  | kvm
  | ider
  deriving DecidableEq, Repr

/-- `IPS_KVMRedirectionSettingData`, as far as it is read. -/
structure KvmSettings where
  optInPolicy : Bool := false
  optInPolicyTimeoutSec : Int := 0
  is5900PortEnabled : Bool := false
  sessionTimeoutMinutes : Int := 0
  greyscaleRequested : Bool := false
  deriving DecidableEq, Repr

structure OptInServiceResult where
  optInRequired : Bool
  optInRequiredRaw : Nat
  optInState : Int
  canModifyOptInPolicy : Bool
  settings : KvmSettings := {}
  deriving DecidableEq, Repr

/-- A request. The second read of a status carries what the first one gave. -/
inductive Call
  | getOptInService
  | getKvmSettings (soFar : OptInServiceResult)
  | startOptIn
  | sendOptInCode (code : Int)
  | cancelOptIn
  deriving DecidableEq, Repr

inductive Answer
  | service (r : OptInServiceResult)
  | settings (s : KvmSettings)
  | returned (value : Nat)
  deriving DecidableEq, Repr

structure Request where
  id : Nat
  call : Call
  answer : Option Answer := none
  afterGrant : Bool := false
  deriving DecidableEq, Repr

structure Firmware where
  optInRequired : Nat := 0
  optInState : Int := 0
  canModifyOptInPolicy : Bool := false
  settings : KvmSettings := {}
  deriving DecidableEq, Repr

def Firmware.optInService (fw : Firmware) : OptInServiceResult :=
  { optInRequired := fw.optInRequired ≠ 0
    optInRequiredRaw := fw.optInRequired
    optInState := fw.optInState
    canModifyOptInPolicy := fw.canModifyOptInPolicy }

inductive Effect
  | sent (id : Nat) (call : Call)
  | optInStarted (ok : Bool) (error : String)
  | optInGaveUp (error : String)
  | optInCodeResult (ok : Bool) (error : String)
  | optInGranted
  | optInExpiredOrDenied
  | optInStatusUnavailable (error : String)
  /-- Not a signal: `resetOptInAttempts` ran. -/
  | attemptsReset
  /-- Not a signal: `start` of a panel was called. -/
  | panelStarted (p : Protocol)
  deriving DecidableEq, Repr

/-- The controller, its window and its device. -/
structure Session where
  -- the controller
  hasHost : Bool := true
  sshConnecting : Bool := false
  pendingOverview : Bool := false
  optInStatusInFlight : Bool := false
  optInStatusKnown : Bool := false
  optInRequired : Bool := false
  optInRequiredRaw : Nat := 0
  optInState : Int := 0
  canModifyOptInPolicy : Bool := false
  settings : KvmSettings := {}
  optInPolling : Bool := false
  optInRoundActive : Bool := false
  optInFailures : Nat := 0
  -- the window
  pendingConnectTab : Option Protocol := none
  promptOpened : Bool := false
  closed : Bool := false
  -- the device, and what is on its way
  firmware : Firmware := {}
  flight : List Request := []
  nextRequest : Nat := 0
  out : List Effect := []
  granted : Bool := false

def kMaxOptInFailures : Nat := 3

namespace Session

def emit (e : Effect) (s : Session) : Session := { s with out := s.out ++ [e] }

/-- `afterGrant` is handed on from the first read of a status to the second. -/
def send (call : Call) (afterGrant : Bool) (s : Session) : Session :=
  ({ s with
      flight := s.flight ++
        [({ id := s.nextRequest, call, afterGrant } : Request)]
      nextRequest := s.nextRequest + 1 }).emit (.sent s.nextRequest call)

/-! ## The controller -/

def stopOptInPolling (s : Session) : Session := { s with optInPolling := false }

def startOptInPolling (s : Session) : Session := { s with optInPolling := true }

def setOptInRoundActive (v : Bool) (s : Session) : Session :=
  { s with optInRoundActive := v }

def startOptIn (s : Session) : Session :=
  if s.optInRoundActive then s
  else if s.optInFailures ≥ kMaxOptInFailures then s
  else (s.setOptInRoundActive true).send .startOptIn false

def sendOptInCode (code : Int) (s : Session) : Session :=
  s.send (.sendOptInCode code) false

def cancelOptIn (s : Session) : Session :=
  (s.stopOptInPolling.setOptInRoundActive false).send .cancelOptIn false

def resetOptInAttempts (s : Session) : Session :=
  ({ s with optInFailures := 0 }).emit .attemptsReset

def refreshOptInStatus (s : Session) : Session :=
  if s.sshConnecting then { s with pendingOverview := true }
  else if !s.hasHost then s
  else if s.optInStatusInFlight then s
  else ({ s with optInStatusInFlight := true }).send .getOptInService false

def consentRequiredFor (p : Protocol) (s : Session) : Bool :=
  match s.optInRequiredRaw with
  | 0 => false
  | 1 => p = .kvm
  | _ => true

def consentSatisfiedFor (p : Protocol) (s : Session) : Bool :=
  !s.consentRequiredFor p || s.optInState = 3 || s.optInState = 4

/-! ## The window -/

def consentResolved (s : Session) : Session :=
  match s.pendingConnectTab with
  | none => s
  | some p => ({ s with pendingConnectTab := none }).emit (.panelStarted p)

/-- The slot on `optInStatusChanged`. -/
def driveConsent (s : Session) : Session :=
  match s.pendingConnectTab with
  | none => s
  | some p =>
      if !s.optInStatusKnown then s
      else if s.consentSatisfiedFor p then s.consentResolved
      else if s.promptOpened || s.optInRoundActive then s
      else (if s.optInState = 2 then s.cancelOptIn else s).startOptIn

def requestConnect (p : Protocol) (s : Session) : Session :=
  let s := ({ s with pendingConnectTab := some p }).resetOptInAttempts
  if !s.optInStatusKnown then s.refreshOptInStatus else s.driveConsent

def openPrompt (s : Session) : Session := { s with promptOpened := true }

def closePrompt (s : Session) : Session := { s with promptOpened := false }

/-- `cancelled` of the prompt, and the `reject` behind it. -/
def promptCancelled (s : Session) : Session :=
  ({ s with pendingConnectTab := none }).cancelOptIn.closePrompt

/-- `onClosing` -/
def close (s : Session) : Session :=
  let s := ({ s with pendingConnectTab := none }).stopOptInPolling
  let s := if s.optInRoundActive then s.cancelOptIn else s
  { s with closed := true }

/-! ## The callbacks -/

/-- What the poll makes of a state that was read. -/
def pollState (prevState : Int) (s : Session) : Session :=
  if s.optInPolling then
    if s.optInState = 3 ∨ s.optInState = 4 then
      let s := (s.stopOptInPolling.setOptInRoundActive false).emit .optInGranted
      s.closePrompt.consentResolved
    else if prevState ≥ 2 ∧ s.optInState ≤ 1 then
      ((s.stopOptInPolling.setOptInRoundActive false).emit
        .optInExpiredOrDenied).closePrompt
    else s
  else s

def statusRead (r : OptInServiceResult) (s : Session) : Session :=
  let prevState := s.optInState
  let s := { s with
    optInStatusInFlight := false
    optInStatusKnown := true
    optInRequired := r.optInRequired
    optInRequiredRaw := r.optInRequiredRaw
    optInState := r.optInState
    canModifyOptInPolicy := r.canModifyOptInPolicy
    settings := r.settings }
  s.driveConsent.pollState prevState

/-- A failure of the first read counts as no consent required; a later one
leaves alone what was read before. -/
def statusFailed (error : String) (s : Session) : Session :=
  let s := { s with optInStatusInFlight := false }
  if !s.optInStatusKnown then
    ({ s with
        optInStatusKnown := true
        optInRequired := false }).driveConsent.emit
      (.optInStatusUnavailable error)
  else s

def optInAccepted (s : Session) : Session :=
  (({ s with optInFailures := 0 }).emit
    (.optInStarted true "")).openPrompt.startOptInPolling

def optInFailed (error : String) (s : Session) : Session :=
  let s := s.setOptInRoundActive false
  let s := ({ s with optInFailures := s.optInFailures + 1 }).emit
    (.optInStarted false error)
  if s.optInFailures ≥ kMaxOptInFailures then
    (s.emit (.optInGaveUp (if error = "" then
      "Intel AMT refused to start user consent." else error))).closePrompt
  else s

/-- `optInCodeRejected` opens the prompt again where it was closed. -/
def codeRejected (error : String) (s : Session) : Session :=
  (s.emit (.optInCodeResult false error)).openPrompt

def codeAccepted (s : Session) : Session :=
  let s := s.stopOptInPolling
  let s := ({ s with optInFailures := 0 }).setOptInRoundActive false
  let s := ({ s with optInState := 3 }).driveConsent
  (s.emit (.optInCodeResult true "")).closePrompt.consentResolved

def optInCancelled (s : Session) : Session :=
  ({ s with optInState := 0 }).driveConsent

/-- The callback of a request, with what it is given. -/
def callback (q : Request) (reply : Except String Answer) (s : Session) :
    Session :=
  match q.call, reply with
  | .getOptInService, .ok (.service r) => s.send (.getKvmSettings r) q.afterGrant
  | .getOptInService, .ok _ => s
  | .getOptInService, .error error => s.statusFailed error
  | .getKvmSettings r, .ok (.settings k) => s.statusRead { r with settings := k }
  -- the second read failed, and the first one still counts
  | .getKvmSettings r, _ => s.statusRead r
  | .startOptIn, .ok (.returned 0) => s.optInAccepted
  | .startOptIn, .ok (.returned v) => s.optInFailed s!"StartOptIn returned {v}"
  | .startOptIn, .ok _ => s
  | .startOptIn, .error error => s.optInFailed error
  | .sendOptInCode _, .ok (.returned 0) => s.codeAccepted
  | .sendOptInCode _, .ok (.returned v) =>
      s.codeRejected s!"SendOptInCode returned {v}"
  | .sendOptInCode _, .ok _ => s
  | .sendOptInCode _, .error error => s.codeRejected error
  | .cancelOptIn, _ => s.optInCancelled

/-! ## The firmware -/

def request (id : Nat) (s : Session) : Option Request :=
  s.flight.find? fun q => q.id = id

/-- What the firmware makes of a request, with the value it would return. -/
def answerTo (call : Call) (returnValue : Nat) (fw : Firmware) :
    Answer × Firmware :=
  match call with
  | .getOptInService => (.service fw.optInService, fw)
  | .getKvmSettings _ => (.settings fw.settings, fw)
  | .startOptIn =>
      (.returned returnValue,
        if returnValue = 0 then { fw with optInState := 2 } else fw)
  | .sendOptInCode _ =>
      (.returned returnValue,
        if returnValue = 0 then { fw with optInState := 3 } else fw)
  | .cancelOptIn => (.returned returnValue, { fw with optInState := 0 })

/-- The firmware accepts a code with this. -/
def accepts (q : Request) (returnValue : Nat) : Bool :=
  match q.call with
  | .sendOptInCode _ => returnValue = 0
  | _ => false

def serve (id returnValue : Nat) (s : Session) : Session :=
  match s.request id with
  | none => s
  | some q =>
      if q.answer.isSome then s
      else
        let (answer, firmware) := answerTo q.call returnValue s.firmware
        let s := { s with firmware, flight := s.flight.map fun p =>
          if p.id = id then
            { p with
              answer := some answer
              afterGrant :=
                if q.call = .getOptInService then s.granted else p.afterGrant }
          else p }
        if accepts q returnValue then
          { s with flight := s.flight.map fun p => { p with afterGrant := false } }
        else s

/-- A reply reaches its callback: what the firmware answered, or an error. -/
def deliver (id : Nat) (lost : Option String) (s : Session) : Session :=
  match s.request id with
  | none => s
  | some q =>
      let done := { s with flight := s.flight.filter fun p => p.id ≠ id }
      match lost, q.answer with
      | some error, _ => done.callback q (.error error)
      | none, some answer => done.callback q (.ok answer)
      | none, none => s

end Session

/-! ## The event loop -/

/-- A call of the controller that is not made by the window. -/
inductive Direct
  | startOptIn
  | sendOptInCode (code : Int)
  | cancelOptIn
  | resetOptInAttempts
  deriving DecidableEq, Repr

inductive Event
  | requestConnect (p : Protocol)
  | submitted (code : Int)
  /-- The button of the prompt. -/
  | cancelled
  /-- The countdown of the prompt ran out. -/
  | countdownElapsed
  /-- The prompt was closed by the escape key. -/
  | dismissed
  | close
  /-- A poll tick, or a refresh that something else asked for. -/
  | refreshOptInStatus
  | pollTick
  | sshConnecting
  | sshConnected
  | sshDown
  | setHost (present : Bool)
  | direct (call : Direct)
  | serve (id returnValue : Nat)
  | deliver (id : Nat) (lost : Option String)
  /-- The firmware moves on its own: at the target, by time, by a session. -/
  | firmware (fw : Firmware)
  deriving DecidableEq, Repr

def Event.fromWindow : Event → Bool
  | .direct _ => false
  | _ => true

namespace Session

def handle (s : Session) : Event → Session
  | .requestConnect p => s.requestConnect p
  | .submitted code => if s.promptOpened then s.sendOptInCode code else s
  | .cancelled | .countdownElapsed =>
      if s.promptOpened then s.promptCancelled else s
  | .dismissed => s.closePrompt
  | .close => s.close
  | .refreshOptInStatus => s.refreshOptInStatus
  | .pollTick => if s.optInPolling then s.refreshOptInStatus else s
  | .sshConnecting => { s with sshConnecting := true }
  | .sshConnected =>
      let pending := s.pendingOverview
      let s := { s with sshConnecting := false, pendingOverview := false }
      if pending then s.refreshOptInStatus else s
  | .sshDown => { s with sshConnecting := false, pendingOverview := false }
  | .setHost present => { s with hasHost := present }
  | .direct .startOptIn => s.startOptIn
  | .direct (.sendOptInCode code) => s.sendOptInCode code
  | .direct .cancelOptIn => s.cancelOptIn
  | .direct .resetOptInAttempts => s.resetOptInAttempts
  | .serve id returnValue => s.serve id returnValue
  | .deliver id lost => s.deliver id lost
  | .firmware fw => { s with firmware := fw }

/-- What ends a grant: the user takes it back, or a state reaches the
controller that the firmware was in after it, and that is neither 3 nor 4. -/
def endsGrant (s : Session) : Event → Bool
  | .cancelled => s.promptOpened
  | .close => true
  | .direct .cancelOptIn => true
  | .deliver id lost =>
      match s.request id with
      | some { call := .getKvmSettings r, answer, afterGrant := true, .. } =>
          (lost.isSome || answer.isSome) &&
            !(r.optInState = 3 || r.optInState = 4)
      | _ => false
  | _ => false

/-- The firmware accepts the code. -/
def grants (s : Session) : Event → Bool
  | .serve id returnValue =>
      match s.request id with
      | some q => q.answer.isNone && accepts q returnValue
      | none => false
  | _ => false

/-- A window that was closed is gone, with its controller. -/
def step (s : Session) (e : Event) : Session :=
  if s.closed then s
  else
    { s.handle e with
      granted := !s.endsGrant e && (s.granted || s.grants e) }

end Session

end QuMesh.Consent
