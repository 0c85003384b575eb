import QuMesh.App.SshTunnelHost
import QuMesh.Redir.Client

/-!
# `KvmController`, `SolController`, `IderController`

Three classes with one body: each owns a `RedirectionClient` and the session
on it, drops both before it makes the next, and waits with an open for the SSH
tunnel where one is configured. What they do differently is a `Make`; the
three makes carry the classes' names.

A client that was given up stays until its deferred deletion, and until then
it hears its socket and its tunnel. So the clients are a list that grows, and
`m_client` is a place in it. The session on a client is heard through its
signals, in any order once `start` was called: before that nothing reaches it
but the failure of the client. Signals are heard after the call that made
them. What shows a picture or a terminal, and the recording, is left out.
-/

namespace QuMesh.App

open QuMesh.Lib
open QuMesh.Redir (Client Effect Env PeerCertSummary Protocol)

/-- After `Authenticated`, a KVM session is `Negotiating` and the others are
`Opening`; what is open is `Connected`, or `Running` for IDE-R. -/
inductive Controller.State where
  | disconnected
  | connecting
  | authenticating
  | awaitingTrust
  | negotiating
  | opening
  | connected
  | running
  | failed
  deriving DecidableEq, Repr

/-- The states that say there is no session, and none coming. -/
def Controller.State.over : Controller.State → Bool
  | .disconnected | .failed => true
  | _ => false

/-- Where the three controllers differ. -/
structure Make where
  protocol : Protocol
  authenticated : Controller.State
  established : Controller.State
  going : authenticated.over = false ∧ established.over = false := by decide
  /-- `open` refuses without an ISO path. -/
  needsIso : Bool
  /-- `teardown` and the handler of `closed` call `disconnectFromHost`. -/
  hangsUp : Bool
  /-- `remoteClosed` has a handler. -/
  hearsRemoteClosed : Bool
  deriving DecidableEq, Repr

def KvmController : Make where
  protocol := .kvm
  authenticated := .negotiating
  established := .connected
  needsIso := false
  hangsUp := true
  hearsRemoteClosed := true

def SolController : Make where
  protocol := .sol
  authenticated := .opening
  established := .connected
  needsIso := false
  hangsUp := false
  hearsRemoteClosed := false

def IderController : Make where
  protocol := .ider
  authenticated := .opening
  established := .running
  needsIso := true
  hangsUp := false
  hearsRemoteClosed := false

/-- A client and the session on it. -/
structure Peer where
  client : Client
  /-- Their signals still reach the controller. -/
  wired : Bool := true
  /-- The session's `start` was called. -/
  started : Bool := false
  /-- The socket that was told to close, or that the peer closed: the rest of
  the closing is Qt's. -/
  shut : Option Nat := none
  destroyed : Bool := false

namespace Peer

/-- The client is there, and its socket is neither aborted nor closing. -/
def hasOpenSocket (p : Peer) : Bool :=
  match p.client.socket with
  | none => false
  | some k => !p.destroyed && k.isOpen && p.shut ≠ some k.id

/-- `m_client->disconnectFromHost()`, without its signal. -/
def disconnectFromHost (p : Peer) : Peer :=
  { p with client := { p.client with out := [] }.disconnectFromHost,
           shut := p.client.socketId }

end Peer

structure Controller where
  host : String := ""
  user : Bytes := []
  password : Bytes := []
  tls : Bool := false
  trustedFingerprints : List Bytes := []
  isoPath : String := ""
  portOverride : Nat := 0
  state : Controller.State := .disconnected
  lastError : String := ""
  pendingCert : PeerCertSummary := {}
  client : Option Nat := none
  openDeferred : Bool := false
  sshHost : Option World := none
  sshSession : Option Nat := none
  awaitingSshHostKeyTrust : Bool := false
  pendingSshHostKey : String := ""
  pendingSshHostKeyType : String := ""
  peers : List Peer := []
  /-- What `trustedFingerprintAdded` and `trustedSshHostKeyAdded` said. -/
  fingerprintsAdded : List Bytes := []
  sshHostKeysAdded : List String := []

namespace Controller

def setState (s : State) (c : Controller) : Controller := { c with state := s }

def setLastError (e : String) (c : Controller) : Controller :=
  { c with lastError := e }

def putPeer (i : Nat) (p : Peer) (c : Controller) : Controller :=
  { c with peers := c.peers.set i p }

/-! ## What the client and the session say -/

/-- The handler of `RedirectionClient::stateChanged`. -/
def onStateChanged (make : Make) (s : Redir.State) (c : Controller) :
    Controller :=
  match s with
  | .disconnected => c.setState .disconnected
  | .connecting => c.setState .connecting
  | .selectorSent | .sessionOpened | .authQuerying | .authChallenging
  | .authResponding => c.setState .authenticating
  | .authenticated => c.setState make.authenticated
  | .failed => c.setState .failed
  -- the switch has no case for it
  | .kvmStarting => c

/-- `disconnectFromHost` on the `i`-th client, and its signal. -/
def disconnectFromHost (make : Make) (i : Nat) (c : Controller) : Controller :=
  match c.peers[i]? with
  | none => c
  | some p =>
      let c := c.putPeer i p.disconnectFromHost
      if p.wired && p.client.state ≠ .disconnected then
        c.onStateChanged make .disconnected
      else c

/-- The handler of the session's `closed`. -/
def onClosed (make : Make) (reason : String) (c : Controller) : Controller :=
  let c := (c.setLastError reason).setState .failed
  match make.hangsUp, c.client with
  | true, some i => c.disconnectFromHost make i
  | _, _ => c

/-- The handlers of what the `i`-th client signals. -/
def onSignal (make : Make) (i : Nat) (c : Controller) (e : Effect) :
    Controller :=
  match c.peers[i]? with
  | none => c
  | some p =>
      match e with
      | .stateChanged s => if p.wired then c.onStateChanged make s else c
      | .authenticated => c.putPeer i { p with started := true }
      | .failed reason =>
          if p.wired then
            -- the session was connected first, and it closes
            let c := c.onClosed make reason
            (c.setLastError reason).setState .failed
          else c
      | .remoteClosed =>
          let c := c.putPeer i { p with shut := p.client.socketId }
          if p.wired && make.hearsRemoteClosed && c.lastError = "" then
            c.setState .disconnected
          else c
      | .trustPromptRequired summary =>
          if p.wired then { c with pendingCert := summary }.setState .awaitingTrust
          else c
      | _ => c

/-- A member function or a slot of the `i`-th client runs, and what it signals
is heard. -/
def call (make : Make) (i : Nat) (f : Client → Client) (c : Controller) :
    Controller :=
  match c.peers[i]? with
  | none => c
  | some p =>
      if p.destroyed then c
      else
        let client := f { p.client with out := [] }
        client.out.foldl (onSignal make i) (c.putPeer i { p with client })

/-! ## Opening and closing -/

def teardown (make : Make) (c : Controller) : Controller :=
  match c.client with
  | none => { c with pendingCert := {} }
  | some i =>
      let c := { c with peers := c.peers.modify i ({ · with wired := false }) }
      let c := if make.hangsUp then c.disconnectFromHost make i else c
      { c with client := none, pendingCert := {} }

/-- `m_sshHost->isConnected()` -/
def sshConnected (c : Controller) : Bool := c.sshHost.any World.isConnected

/-- The tunnel is configured, and not there yet. -/
def sshPending (c : Controller) : Bool :=
  c.sshHost.any (·.host.enabled) && !c.sshConnected

/-- The client `open` makes. -/
def newClient (make : Make) (c : Controller) : Client where
  protocol := make.protocol
  user := c.user
  pass := c.password
  tls := c.tls
  trustedFingerprints := c.trustedFingerprints
  tunnelOpener := c.sshSession.isSome

def port (c : Controller) : Nat :=
  if c.portOverride ≠ 0 then c.portOverride
  else if c.tls then 16995 else 16994

/-- `open`, once nothing defers it. -/
def openNow (make : Make) (c : Controller) : Controller :=
  let c := { c with openDeferred := false }.teardown make
  if c.host = "" then (c.setLastError "host is empty").setState .failed
  else if make.needsIso ∧ c.isoPath = "" then
    (c.setLastError "ISO path is required").setState .failed
  else
    let i := c.peers.length
    let peer : Peer := { client := c.newClient make }
    let c := { c with peers := c.peers ++ [peer], client := some i }
    let c := (c.setLastError "").setState .connecting
    c.call make i (·.connectTo c.host c.port)

def «open» (make : Make) (c : Controller) : Controller :=
  if c.sshPending then
    ({ c with openDeferred := true }.setLastError "").setState .connecting
  else c.openNow make

def close (make : Make) (c : Controller) : Controller :=
  (c.teardown make).setState .disconnected

def trustPendingCert (make : Make) (env : Env) (persist : Bool)
    (c : Controller) : Controller :=
  match c.client with
  | none => c
  | some i =>
      if c.state ≠ .awaitingTrust then c
      else
        let fp := c.pendingCert.fingerprintSha256
        let c := c.call make i (·.trustPendingPeerCert env)
        let c :=
          if c.trustedFingerprints.contains fp then c
          else { c with trustedFingerprints := c.trustedFingerprints ++ [fp] }
        let c := c.setState .authenticating
        if persist && fp ≠ [] then
          { c with fingerprintsAdded := c.fingerprintsAdded ++ [fp] }
        else c

/-! ## The tunnel -/

/-- The handlers of what the tunnel's host signals. -/
def onHostSignal (make : Make) (c : Controller) : HostSignal → Controller
  | .connectedChanged =>
      if c.openDeferred && c.sshConnected then
        { c with openDeferred := false }.open make
      else c
  | .hostKeyPromptRequired fp keyType =>
      { c with pendingSshHostKey := fp, pendingSshHostKeyType := keyType,
               awaitingSshHostKeyTrust := true }
  | .trustedHostKeyAdded fp =>
      { c with sshHostKeysAdded := c.sshHostKeysAdded ++ [fp] }
  | _ => c

/-- The host and its sessions after an event, with what the host signalled. -/
def hostAfter (e : World.Event) (t : World) : World :=
  { t with host := { t.host with out := [] } }.step e

def ssh (make : Make) (e : World.Event) (c : Controller) : Controller :=
  match c.sshHost with
  | none => c
  | some t =>
      let t := hostAfter e t
      t.host.out.foldl (onHostSignal make) { c with sshHost := some t }

/-- The mirrored prompt is taken back. -/
def clearSshPrompt (c : Controller) : Controller :=
  { c with pendingSshHostKey := "", pendingSshHostKeyType := "",
           awaitingSshHostKeyTrust := false }

def setSshConfig (make : Make) (cfg : Config) (c : Controller) : Controller :=
  let c := { c with sshHost := some (c.sshHost.getD {}) }
  let c :=
    if c.awaitingSshHostKeyTrust && !cfg.enabled then c.clearSshPrompt
    else c
  let c := c.ssh make (.setConfig cfg)
  { c with sshSession := c.sshHost.bind (·.host.session) }

def trustPendingSshHostKey (make : Make) (persist : Bool) (c : Controller) :
    Controller :=
  if !c.awaitingSshHostKeyTrust || c.sshHost.isNone then c
  else c.clearSshPrompt.ssh make (.trustPendingHostKey persist)

/-! ## The event loop -/

inductive Event where
  | setHost (v : String)
  | setUser (v : Bytes)
  | setPassword (v : Bytes)
  | setTls (v : Bool)
  | setTrustedFingerprints (v : List Bytes)
  | setIsoPath (v : String)
  | setPortForTest (v : Nat)
  | setSshConfig (cfg : Config)
  | trustPendingSshHostKey (persist : Bool)
  | «open»
  | close
  | trustPendingCert (persist : Bool)
  /-- The worker of an SSH session, its signals, its deletion. -/
  | ssh (e : World.Event)
  /-- A slot of the `i`-th client, or a write of its session. -/
  | client (i : Nat) (e : Redir.Event)
  /-- The session on the `i`-th client is open, by its own account. -/
  | established (i : Nat)
  | sessionClosed (i : Nat) (reason : String)
  /-- The deferred deletion of the `i`-th client and its session. -/
  | destroy (i : Nat)
  deriving DecidableEq, Repr

/-- What reaches a host without the controller. -/
def hostTurn : World.Event → Bool
  | .workerTurn .. | .deliver | .destroySession _ => true
  | _ => false

/-- What reaches a client without the controller. -/
def clientTurn : Redir.Event → Bool
  | .tunnelDone .. | .postedHandleConnected | .connected | .encrypted _
  | .readyRead _ | .errorOccurred .. | .writeRaw _ => true
  | _ => false

/-- The session on the `i`-th client can signal, and is heard. -/
def sessionHeard (i : Nat) (c : Controller) : Bool :=
  (c.peers[i]?).any fun p => p.wired && p.started && !p.destroyed

def crashed (c : Controller) : Bool := c.sshHost.any World.crashed

def handle (make : Make) (env : Env) (c : Controller) : Event → Controller
  | .setHost v => { c with host := v }
  | .setUser v => { c with user := v }
  | .setPassword v => { c with password := v }
  | .setTls v => { c with tls := v }
  | .setTrustedFingerprints v => { c with trustedFingerprints := v }
  | .setIsoPath v => { c with isoPath := v }
  | .setPortForTest v => { c with portOverride := v }
  | .setSshConfig cfg => c.setSshConfig make cfg
  | .trustPendingSshHostKey persist => c.trustPendingSshHostKey make persist
  | .open => c.open make
  | .close => c.close make
  | .trustPendingCert persist => c.trustPendingCert make env persist
  | .ssh e => if hostTurn e then c.ssh make e else c
  | .client i e => if clientTurn e then c.call make i (·.handle env e) else c
  | .established i =>
      if c.sessionHeard i then c.setState make.established else c
  | .sessionClosed i reason =>
      if c.sessionHeard i then c.onClosed make reason else c
  | .destroy i =>
      { c with peers := c.peers.modify i fun p =>
          if p.wired then p else { p with destroyed := true } }

def step (make : Make) (env : Env) (c : Controller) (e : Event) : Controller :=
  if c.crashed then c else c.handle make env e

end Controller

end QuMesh.App
