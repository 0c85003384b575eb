import QuMesh.Redir.Codec
import QuMesh.Lib.Run

/-!
# `RedirectionClient`

The transport every redirection session sits on: it connects, holds the
protocol selector back until a TLS peer is trusted, walks the digest
handshake, and from then on hands bytes through. A member function is a
function on the client's state under its own name; a signal and a call of
the socket's `write` are entries of `out`, in the order they happen.

What Qt does is in `Env` and in the events. `Env` answers the calls: how many
bytes a write took, what a hash is, what the random nonce was. The events are
the slots the event loop may call next, in any order the sender's contract
allows: `connected` and `encrypted` come at most once from one socket, a
socket that was aborted sends nothing more, and the signals of a socket that
was replaced are disconnected. A call that a handler makes from inside a
signal is an event of its own, after the slot that emitted it.
-/

namespace QuMesh.Redir

open QuMesh.Lib

inductive State
  | disconnected
  | connecting
  | selectorSent
  | sessionOpened
  | authQuerying
  | authChallenging
  | authResponding
  | kvmStarting
  | authenticated
  | failed
  deriving DecidableEq, Repr

/-- The enumerator's value, as the failure texts print it. -/
def State.code : State → Nat
  | .disconnected => 0
  | .connecting => 1
  | .selectorSent => 2
  | .sessionOpened => 3
  | .authQuerying => 4
  | .authChallenging => 5
  | .authResponding => 6
  | .kvmStarting => 7
  | .authenticated => 8
  | .failed => 9

def describe : StartSessionStatus → String
  | .success => "Success"
  | .busy => "device is busy with another session"
  | .unsupported => "device does not support this redirection protocol"
  | .unknownError => "device reported an unknown error"
  | .other b => s!"unknown status {b.toNat}"

/-- A certificate, as far as `summarize` reads one. -/
structure Certificate where
  commonNames : List Bytes
  issuerNames : List Bytes
  effectiveDate : Bytes
  expiryDate : Bytes
  der : Bytes
  deriving DecidableEq, Repr

structure PeerCertSummary where
  subject : Bytes := []
  issuer : Bytes := []
  fingerprintSha256 : Bytes := []
  notBefore : Bytes := []
  notAfter : Bytes := []
  der : Bytes := []
  deriving DecidableEq, Repr

/-- The frames the client itself writes, and what an application driver
writes through `writeRaw`. -/
inductive Frame
  | selector (p : Protocol)
  | authQuery
  | digestQuery (user authUri : Bytes)
  | digestResponse (user realm nonce authUri cnonce nc response qop : Bytes)
  | kvmStart
  | raw (bytes : Bytes)
  deriving DecidableEq, Repr

def Frame.bytes : Frame → Bytes
  | .selector p => buildSelector p
  | .authQuery => buildAuthQuery
  | .digestQuery user authUri => buildDigestQuery user authUri
  | .digestResponse user realm nonce authUri cnonce nc response qop =>
      buildDigestResponse user realm nonce authUri cnonce nc response qop
  | .kvmStart => [0x40, 0x00, 0x00, 0x00, 0x00, 0x00, 0x00, 0x00]
  | .raw bytes => bytes

/-- The frames `drainInbox` takes off the inbox. -/
inductive Received
  | startSession (reply : StartSessionReply)
  | auth (reply : AuthReply)
  | kvmStarted (body : Bytes)
  deriving DecidableEq, Repr

inductive Effect
  | wrote (socket : Nat) (frame : Frame) (result : Int)
  /-- Not a signal: the history of what was parsed, and in which state. -/
  | consumed (socket : Option Nat) (state : State) (frame : Received)
  | stateChanged (state : State)
  | sessionOpened
  | authenticated
  | failed (error : String)
  | remoteClosed
  | rawBytes (chunk : Bytes)
  | trustPromptRequired (summary : PeerCertSummary)
  | peerCertVerifiedByPin (fingerprint : Bytes)
  deriving DecidableEq, Repr

structure Socket where
  id : Nat
  /-- `m_sslSocket` is this socket. -/
  ssl : Bool
  /-- It was handed over as a descriptor, already connected. -/
  adopted : Bool
  /-- False once it was aborted. -/
  isOpen : Bool := true
  /-- Its `connected` or `encrypted` has been delivered. -/
  announced : Bool := false
  deriving DecidableEq, Repr

structure Env where
  /-- What the n-th write on an open socket returns. -/
  write : Nat → Bytes → Int
  errorString : Nat → String
  md5Hex : Bytes → Bytes
  sha256 : Bytes → Bytes
  makeClientNonce : Nat → Bytes

structure Client where
  protocol : Protocol := .sol
  tls : Bool := false
  tunnelOpener : Bool := false
  user : Bytes := []
  pass : Bytes := []
  -- "/RedirectionService"
  authUri : Bytes := [0x2F, 0x52, 0x65, 0x64, 0x69, 0x72, 0x65, 0x63, 0x74,
    0x69, 0x6F, 0x6E, 0x53, 0x65, 0x72, 0x76, 0x69, 0x63, 0x65]
  socket : Option Socket := none
  inbox : Bytes := []
  state : State := .disconnected
  lastError : String := ""
  startStatus : StartSessionStatus := .unknownError
  oemData : Bytes := []
  trustedFingerprints : List Bytes := []
  pendingPeerCert : PeerCertSummary := {}
  awaitingTrust : Bool := false
  /-- How many sockets and how many writes there have been. -/
  sockets : Nat := 0
  writes : Nat := 0
  /-- Tunnel opens whose callback has not come, by host and port. -/
  openingTunnels : List (String × Nat) := []
  /-- Calls of `handleConnected` waiting in the event queue, by the socket
  each was posted for. The source does not keep that. -/
  posted : List Nat := []
  out : List Effect := []

namespace Client

def emit (e : Effect) (c : Client) : Client := { c with out := c.out ++ [e] }

def socketId (c : Client) : Option Nat := c.socket.map Socket.id

def setState (s : State) (c : Client) : Client :=
  if c.state = s then c else ({ c with state := s }).emit (.stateChanged s)

/-- The transport is aborted before the failure is announced. -/
def fail (error : String) (c : Client) : Client :=
  let socket := c.socket.map fun k => { k with isOpen := false }
  (({ c with lastError := error, socket }).setState .failed).emit
    (.failed error)

/-- `m_socket->write(…)`. -/
def socketWrite (env : Env) (frame : Frame) (c : Client) : Client × Int :=
  match c.socket with
  | none => (c, -1)
  | some k =>
      let result := if k.isOpen then env.write c.writes frame.bytes else -1
      (({ c with writes := c.writes + 1 }).emit (.wrote k.id frame result),
        result)

def handleConnected (env : Env) (c : Client) : Client :=
  let selector := Frame.selector c.protocol
  match c.socketWrite env selector with
  | (c, written) =>
      if written ≠ selector.bytes.length then
        c.fail s!"could not write protocol selector: {env.errorString c.writes}"
      else c.setState .selectorSent

/-- A write of the handshake, and the state it leads to. -/
def writeThen (env : Env) (frame : Frame) (next : State) (c : Client) :
    Client × Bool :=
  match c.socketWrite env frame with
  | (c, written) =>
      if written < 0 then (c.fail (env.errorString c.writes), false)
      else (c.setState next, true)

/-- Take a parsed frame off the inbox. -/
def consume (n : Nat) (frame : Received) (c : Client) : Client :=
  ({ c with inbox := c.inbox.drop n }).emit
    (.consumed c.socketId c.state frame)

/-- Bytes left over after the handshake belong to the application. -/
def handOver (leftover : Bytes) (c : Client) : Client :=
  let c := (c.setState .authenticated).emit .authenticated
  if leftover.isEmpty then c else c.emit (.rawBytes leftover)

/-- `drainInbox`, the `0x11` branch, once the frame is parsed. -/
def onStartSession (env : Env) (reply : StartSessionReply) (c : Client) :
    Client × Bool :=
  let c := { c with startStatus := reply.status, oemData := reply.oemData }
  if reply.status ≠ .success then (c.fail (describe reply.status), false)
  else
    let c := (c.emit .sessionOpened).setState .sessionOpened
    if c.user.isEmpty then (c, true)
    else c.writeThen env .authQuery .authQuerying

/-- `drainInbox`, the `0x14` branch, once the frame is parsed: `st` is the
state it is met in. -/
def onAuthReply (env : Env) (reply : AuthReply) (c : Client) : Client × Bool :=
  match c.state with
  | .authQuerying =>
      if !reply.caps.hasDigestWithQop then
        (c.fail "device does not offer DigestWithQop auth", false)
      else c.writeThen env (.digestQuery c.user c.authUri) .authChallenging
  | .authChallenging =>
      if reply.status ≠ 1 ∨ reply.realm.isEmpty ∨ reply.nonce.isEmpty then
        (c.fail "authentication rejected by device", false)
      else
        -- "auth" and "00000001"
        let qop :=
          if reply.qop.isEmpty then [0x61, 0x75, 0x74, 0x68] else reply.qop
        let nc : Bytes := [0x30, 0x30, 0x30, 0x30, 0x30, 0x30, 0x30, 0x31]
        let cnonce := env.makeClientNonce c.writes
        let response := computeDigest env.md5Hex c.user reply.realm c.pass
          reply.nonce nc cnonce qop c.authUri
        c.writeThen env (.digestResponse c.user reply.realm reply.nonce
          c.authUri cnonce nc response qop) .authResponding
  | .authResponding =>
      if reply.status ≠ 0 then
        (c.fail s!"authentication failed (status {reply.status.toNat})", false)
      else if c.protocol = .kvm then c.writeThen env .kvmStart .kvmStarting
      else (({ c with inbox := [] }).handOver c.inbox, false)
  | st => (c.fail s!"unexpected 0x14 in state {st.code}", false)

/-- One round of the loop in `drainInbox`, on an inbox that is not empty; the
flag says whether the loop goes on. -/
def drainStep (env : Env) (c : Client) : Client × Bool :=
  let tag := byteAt c.inbox 0
  if c.state = .kvmStarting ∧ tag = 0x41 then
    if c.inbox.length < 8 then (c, false)
    else
      let leftover := c.inbox.drop 8
      let c := c.consume c.inbox.length (.kvmStarted (c.inbox.take 8))
      (c.handOver leftover, false)
  else if tag = 0x11 then
    match tryParseStartSessionReply c.inbox with
    | none => (c, false)
    | some (reply, n) =>
        (c.consume n (.startSession reply)).onStartSession env reply
  else if tag = 0x14 then
    match tryParseAuthReply c.inbox with
    | none => (c, false)
    | some (reply, n) => (c.consume n (.auth reply)).onAuthReply env reply
  else
    let digits := (Nat.toDigits 16 tag).leftpad 2 '0'
    (c.fail s!"unexpected frame 0x{String.ofList digits} in state {c.state.code}",
      false)

/-- The loop. A round that goes on has taken a frame, so the length of the
inbox is fuel enough. -/
def drainLoop (env : Env) : Nat → Client → Client
  | 0, c => c
  | fuel + 1, c =>
      if c.inbox.isEmpty then c
      else
        match c.drainStep env with
        | (c, true) => drainLoop env fuel c
        | (c, false) => c

def drainInbox (env : Env) (c : Client) : Client :=
  c.drainLoop env c.inbox.length

def handleReadyRead (env : Env) (chunk : Bytes) (c : Client) : Client :=
  if c.state = .authenticated then c.emit (.rawBytes chunk)
  else ({ c with inbox := c.inbox ++ chunk }).drainInbox env

/-! ## Connecting -/

/-- The part `connectTo` and `connectViaSocketDescriptor` share: reset what
the last session left behind, drop its socket and wire up a fresh one. -/
def freshSocket (adopted isOpen : Bool) (c : Client) : Client :=
  { c with
    inbox := []
    lastError := ""
    startStatus := .unknownError
    oemData := []
    pendingPeerCert := {}
    awaitingTrust := false
    socket := some { id := c.sockets, ssl := c.tls, adopted, isOpen }
    sockets := c.sockets + 1 }

def connectViaSocketDescriptor (env : Env) (accepted : Bool) (c : Client) :
    Client :=
  let c := c.freshSocket true accepted
  if !accepted then
    c.fail s!"setSocketDescriptor failed: {env.errorString c.writes}"
  else
    let c := c.setState .connecting
    if c.tls then c
    else { c with posted := c.posted ++ c.socketId.toList }

def connectTo (host : String) (port : Nat) (c : Client) : Client :=
  if c.tunnelOpener then
    let c := c.setState .connecting
    { c with openingTunnels := c.openingTunnels ++ [(host, port)] }
  else (c.freshSocket false true).setState .connecting

/-- The callback `connectTo` gave the tunnel opener, for the `i`-th of the
opens still out. A descriptor of `none` is a negative one. -/
def tunnelDone (env : Env) (i : Nat) (fd : Option Bool) (error : String)
    (c : Client) : Client :=
  match c.openingTunnels[i]? with
  | none => c
  | some (host, port) =>
      let c := { c with openingTunnels := c.openingTunnels.eraseIdx i }
      match fd with
      | none =>
          c.fail (if error.isEmpty then
            s!"SSH tunnel could not be opened to {host}:{port}" else error)
      | some accepted => c.connectViaSocketDescriptor env accepted

def disconnectFromHost (c : Client) : Client := c.setState .disconnected

/-! ## Trust -/

/-- Upper-case hex pairs with colons between them. -/
def fingerprintText (hash : Bytes) : Bytes :=
  let digit (d : UInt8) : UInt8 := if d < 10 then 0x30 + d else 0x37 + d
  [0x3A].intercalate (hash.map fun b => [digit (b / 16), digit (b % 16)])

def summarize (env : Env) (cert : Certificate) : PeerCertSummary :=
  { subject := cert.commonNames.headD []
    issuer := cert.issuerNames.headD []
    fingerprintSha256 := fingerprintText (env.sha256 cert.der)
    notBefore := cert.effectiveDate
    notAfter := cert.expiryDate
    der := cert.der }

def handleEncrypted (env : Env) (cert : Option Certificate) (c : Client) :
    Client :=
  match cert with
  | none => c.fail "TLS peer presented no certificate"
  | some cert =>
      let summary := summarize env cert
      if c.trustedFingerprints.contains summary.fingerprintSha256 then
        (c.emit (.peerCertVerifiedByPin summary.fingerprintSha256)).handleConnected
          env
      else
        ({ c with pendingPeerCert := summary, awaitingTrust := true }).emit
          (.trustPromptRequired summary)

def hasSslSocket (c : Client) : Bool := (c.socket.map Socket.ssl).getD false

def trustPendingPeerCert (env : Env) (c : Client) : Client :=
  if !c.hasSslSocket || !c.awaitingTrust then c
  else
    let fp := c.pendingPeerCert.fingerprintSha256
    let trusted :=
      if !fp.isEmpty && !c.trustedFingerprints.contains fp then
        c.trustedFingerprints ++ [fp]
      else c.trustedFingerprints
    ({ c with trustedFingerprints := trusted, awaitingTrust := false }).handleConnected
      env

/-! ## Errors and raw writes -/

def describeSocketFailure (remoteHostClosed : Bool) (fallback : String)
    (st : State) : String :=
  if !remoteHostClosed then fallback
  else
    match st with
    | .connecting | .selectorSent =>
        "Intel AMT closed the connection during redirection setup. " ++
        "The redirection service may be disabled on the target."
    | .sessionOpened | .authQuerying | .authChallenging | .authResponding =>
        "Intel AMT closed the connection during authentication. " ++
        "Check the AMT username and password."
    | .kvmStarting =>
        "Intel AMT closed the connection when starting the KVM " ++
        "stream. This usually means user consent has not been " ++
        "granted, or KVM redirection is disabled on the target."
    | _ => fallback

def handleSocketError (remoteHostClosed : Bool) (errorString : String)
    (c : Client) : Client :=
  if remoteHostClosed ∧ c.state = .authenticated then
    (c.setState .disconnected).emit .remoteClosed
  else c.fail (describeSocketFailure remoteHostClosed errorString c.state)

def writeRaw (env : Env) (bytes : Bytes) (c : Client) : Client × Int :=
  c.socketWrite env (.raw bytes)

end Client

/-! ## The event loop -/

inductive Event
  | setProtocol (p : Protocol)
  | setCredentials (user pass : Bytes)
  | setAuthUri (uri : Bytes)
  | setTls (enabled : Bool)
  | setTrustedFingerprints (fps : List Bytes)
  | setTunnelOpener (present : Bool)
  | connectTo (host : String) (port : Nat)
  | connectViaSocketDescriptor (accepted : Bool)
  | disconnectFromHost
  | trustPendingPeerCert
  | writeRaw (bytes : Bytes)
  | tunnelDone (i : Nat) (fd : Option Bool) (error : String)
  /-- The oldest posted call of `handleConnected` runs. -/
  | postedHandleConnected
  | connected
  | encrypted (cert : Option Certificate)
  | readyRead (chunk : Bytes)
  | errorOccurred (remoteHostClosed : Bool) (errorString : String)
  deriving DecidableEq, Repr

namespace Client

/-- The current socket can still send signals. -/
def listening (c : Client) : Bool := (c.socket.map Socket.isOpen).getD false

/-- A socket that announces the connection by this signal and has not yet. -/
def announces (ssl : Bool) (c : Client) : Bool :=
  match c.socket with
  | none => false
  | some k =>
      k.isOpen && !k.announced && (k.ssl == ssl) && (ssl || !k.adopted)

def announce (c : Client) : Client :=
  { c with socket := c.socket.map fun k => { k with announced := true } }

def handle (env : Env) (c : Client) : Event → Client
  | .setProtocol p => { c with protocol := p }
  | .setCredentials user pass => { c with user, pass }
  | .setAuthUri uri => { c with authUri := uri }
  | .setTls enabled => { c with tls := enabled }
  | .setTrustedFingerprints fps => { c with trustedFingerprints := fps }
  | .setTunnelOpener present => { c with tunnelOpener := present }
  | .connectTo host port => c.connectTo host port
  | .connectViaSocketDescriptor accepted =>
      c.connectViaSocketDescriptor env accepted
  | .disconnectFromHost => c.disconnectFromHost
  | .trustPendingPeerCert => c.trustPendingPeerCert env
  | .writeRaw bytes => (c.writeRaw env bytes).1
  | .tunnelDone i fd error => c.tunnelDone env i fd error
  | .postedHandleConnected =>
      match c.posted with
      | [] => c
      | _ :: rest => ({ c with posted := rest }).handleConnected env
  | .connected =>
      if c.announces false then c.announce.handleConnected env else c
  | .encrypted cert =>
      if c.announces true then c.announce.handleEncrypted env cert else c
  | .readyRead chunk => if c.listening then c.handleReadyRead env chunk else c
  | .errorOccurred remoteHostClosed errorString =>
      if c.listening then c.handleSocketError remoteHostClosed errorString
      else c

end Client

end QuMesh.Redir
