import QuMesh.Lib.Run
import QuMesh.Ssh.Session

/-!
# `SshTunnelHost`

The helper that runs the SSH session of a machine and holds the host-key
prompt for the user. A session lives on both sides of two queues: the slots
that wait for its worker, and the signals that wait for the thread of the user
interface. A session that was given up stays until its deferred deletion, and
until then its signals still reach the host.
-/

namespace QuMesh.App

open QuMesh.Lib QuMesh.Ssh

/-- A per-machine SSH config. -/
structure Config where
  enabled : Bool := false
  host : String := ""
  port : Int := 22
  user : String := ""
  authMode : Int := 0
  password : String := ""
  keyPath : String := ""
  keyPassphrase : String := ""
  compression : Bool := false
  trustedHostKeyFingerprints : List String := []
  deriving DecidableEq, Repr

def Config.params (cfg : Config) : Params where
  host := cfg.host
  port := UInt16.ofInt cfg.port
  user := cfg.user
  authMode := if cfg.authMode = 1 then .key else .password
  password := cfg.password
  privateKeyPath := cfg.keyPath
  privateKeyPassphrase := cfg.keyPassphrase
  compression := cfg.compression
  trustedHostKeyFingerprints := cfg.trustedHostKeyFingerprints

inductive HostSignal where
  | statusChanged
  | connectedChanged
  | awaitingHostKeyTrustChanged
  | pendingHostKeyChanged
  | hostKeyPromptRequired (fingerprint keyType : String)
  | trustedHostKeyAdded (fingerprint : String)
  deriving DecidableEq, Repr

/-- `m_session` is the place of the session among those that were made. -/
structure SshTunnelHost where
  session : Option Nat := none
  enabled : Bool := false
  status : String := ""
  jumpHost : String := ""
  awaitingHostKeyTrust : Bool := false
  pendingHostKeyFingerprint : String := ""
  pendingHostKeyType : String := ""
  out : List HostSignal := []
  deriving DecidableEq, Repr

namespace SshTunnelHost

def emit (e : HostSignal) (h : SshTunnelHost) : SshTunnelHost :=
  { h with out := h.out ++ [e] }

/-- The fingerprint and its type are taken back, and the prompt with them. -/
def clearPrompt (h : SshTunnelHost) : SshTunnelHost :=
  { h with pendingHostKeyFingerprint := "", pendingHostKeyType := "",
           awaitingHostKeyTrust := false }

/-- What disabling does beside giving up the session. -/
def disable (h : SshTunnelHost) : SshTunnelHost :=
  let h := { h with enabled := false, session := none }
  let h :=
    if h.awaitingHostKeyTrust then
      (h.clearPrompt.emit .awaitingHostKeyTrustChanged).emit .pendingHostKeyChanged
    else h
  let h :=
    if h.status ≠ "" then { h with status := "" }.emit .statusChanged else h
  h.emit .connectedChanged

/-- The handler of `SshSession::stateChanged`. -/
def onStateChanged (s : State) (lastError : String) (h : SshTunnelHost) :
    SshTunnelHost :=
  let name := if h.jumpHost = "" then "SSH" else h.jumpHost
  let status :=
    match s with
    | .connecting => s!"Connecting to {name}…"
    | .authenticating => s!"Authenticating to {name}…"
    | .needsHostKeyTrust => "Awaiting host-key trust"
    | .connected => s!"via {name}"
    | .failed => s!"SSH ({name}) failed: {lastError}"
    | .disconnected => ""
  ({ h with status }.emit .statusChanged).emit .connectedChanged

/-- The handler of `SshSession::hostKeyPromptRequired`. -/
def onHostKeyPromptRequired (fp keyType : String) (h : SshTunnelHost) :
    SshTunnelHost :=
  let h :=
    { h with pendingHostKeyFingerprint := fp, pendingHostKeyType := keyType,
             awaitingHostKeyTrust := true }
  ((h.emit .pendingHostKeyChanged).emit .awaitingHostKeyTrustChanged).emit
    (.hostKeyPromptRequired fp keyType)

end SshTunnelHost

/-! ## The host and its sessions -/

/-- A signal on its way to the thread of the user interface, with the session
it comes from and how many opens that had run. -/
structure Posted where
  session : Nat
  nth : Nat
  signal : WorkerSignal
  deriving DecidableEq, Repr

structure World where
  host : SshTunnelHost := {}
  sessions : List SshSession := []
  posted : List Posted := []
  /-- The session and the open that raised the prompt the host holds. -/
  raised : Nat × Nat := (0, 0)
  crashed : Bool := false
  deriving DecidableEq, Repr

namespace World

def isConnected (w : World) : Bool :=
  match w.host.session with
  | none => false
  | some i => (w.sessions[i]?).any fun s => s.state = .connected

def post (i : Nat) (slot : Slot) (w : World) : World :=
  { w with sessions := w.sessions.modify i (·.post slot) }

def setConfig (cfg : Config) (w : World) : World :=
  if cfg.enabled = false then
    let w :=
      match w.host.session with
      | none => w
      | some i =>
          let w := w.post i .close
          { w with sessions := w.sessions.modify i ({ · with abandoned := true }) }
    { w with host := w.host.disable }
  else
    let w := { w with host := { w.host with enabled := true, jumpHost := cfg.host } }
    match w.host.session with
    | some i => w.post i (.open cfg.params)
    | none =>
        let i := w.sessions.length
        { w with host := { w.host with session := some i },
                 sessions := w.sessions ++ [({} : SshSession)] }.post i (.open cfg.params)

def trustPendingHostKey (persist : Bool) (w : World) : World :=
  match w.host.awaitingHostKeyTrust, w.host.session with
  | true, some i =>
      let fp := w.host.pendingHostKeyFingerprint
      let host := (w.host.clearPrompt.emit .pendingHostKeyChanged).emit
        .awaitingHostKeyTrustChanged
      let w := { w with host }.post i
        (.resumeAfterHostKeyTrust ⟨w.raised.1, w.raised.2, fp⟩)
      if persist then { w with host := w.host.emit (.trustedHostKeyAdded fp) } else w
  | _, _ => w

/-- The worker of a session runs the next of its slots. -/
def workerTurn (i : Nat) (a : Answers) (w : World) : World :=
  match w.sessions[i]? with
  | none => w
  | some s =>
      match s.destroyed, s.queue with
      | false, slot :: queue =>
          let worker := SshSession.runSlot a s.worker slot
          let s := { s with worker := { worker with out := [] }, queue }
          { w with sessions := w.sessions.set i s,
                   posted := w.posted ++ worker.out.map (⟨i, worker.opens, ·⟩) }
      | _, _ => w

/-- `m_session->lastError()` -/
def lastError (w : World) : Option String :=
  w.host.session.bind fun i => (w.sessions[i]?).map (·.lastError)

/-- The session's handlers of its worker's signals, and the host's of the
session's. -/
def handle (p : Posted) (w : World) : World :=
  match p.signal with
  | .stateChanged s =>
      let sessions := w.sessions.modify p.session ({ · with state := s })
      let w := { w with sessions }
      match s, w.lastError with
      -- a session that was given up fails, and `m_session` is null
      | .failed, none => { w with crashed := true }
      | _, e => { w with host := w.host.onStateChanged s (e.getD "") }
  | .errorOccurred e =>
      { w with
        sessions := w.sessions.modify p.session ({ · with lastError := e }) }
  | .hostKeyPromptRequired fp keyType =>
      { w with host := w.host.onHostKeyPromptRequired fp keyType,
               raised := (p.session, p.nth) }
  | .hostKeyVerifiedByPin _ => w
  | .hostKeyTrusted _ => w

/-- The user interface takes the next signal; those of a session that is gone
are gone with it. -/
def deliver (w : World) : World :=
  match w.posted with
  | [] => w
  | p :: posted =>
      let w := { w with posted }
      if (w.sessions[p.session]?).any (! ·.destroyed) then w.handle p else w

/-- The deferred deletion of a session. -/
def destroySession (i : Nat) (w : World) : World :=
  { w with sessions := w.sessions.modify i fun s =>
      if s.abandoned then { s with destroyed := true } else s }

inductive Event where
  | setConfig (cfg : Config)
  | trustPendingHostKey (persist : Bool)
  | workerTurn (i : Nat) (a : Answers)
  | deliver
  | destroySession (i : Nat)
  deriving DecidableEq, Repr

def step (w : World) (e : Event) : World :=
  if w.crashed then w
  else
    match e with
    | .setConfig cfg => w.setConfig cfg
    | .trustPendingHostKey persist => w.trustPendingHostKey persist
    | .workerTurn i a => w.workerTurn i a
    | .deliver => w.deliver
    | .destroySession i => w.destroySession i

end World

end QuMesh.App
