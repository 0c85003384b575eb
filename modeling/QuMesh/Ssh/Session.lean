import QuMesh.Lib.Bytes

/-!
# `SshSession`

The worker that owns a connection to a jump host, and the slots it runs one
after the other on its own thread: `open`, `resumeAfterHostKeyTrust` and
`close`. What libssh, the resolver and the file system answer within a slot is
an argument of the slot. The signals a slot emits are kept in `out`.

With the worker stands what the code does not keep: how many `open`s it has
run, and what `proceedWithAuth` was run on.
-/

namespace QuMesh.Ssh

open QuMesh.Lib

/-- `SshSession::AuthMode` -/
inductive AuthMode where
  | password
  | key
  deriving DecidableEq, Repr

/-- `SshSession::State` -/
inductive State where
  | disconnected
  | connecting
  | needsHostKeyTrust
  | authenticating
  | connected
  | failed
  deriving DecidableEq, Repr

/-- `SshSession::Params` -/
structure Params where
  host : String := ""
  port : UInt16 := 22
  user : String := ""
  authMode : AuthMode := .password
  password : String := ""
  privateKeyPath : String := ""
  privateKeyPassphrase : String := ""
  trustedHostKeyFingerprints : List String := []
  connectTimeoutMs : Int := 15000
  compression : Bool := false
  deriving DecidableEq, Repr

/-! ## Keys -/

/-- `ssh_keytypes_e` -/
inductive KeyType where
  | rsa
  | ecdsaP256
  | ecdsaP384
  | ecdsaP521
  | ed25519
  | dss
  | other
  deriving DecidableEq, Repr

def keyTypeName : KeyType → String
  | .rsa => "RSA"
  | .ecdsaP256 => "ECDSA P-256"
  | .ecdsaP384 => "ECDSA P-384"
  | .ecdsaP521 => "ECDSA P-521"
  | .ed25519 => "Ed25519"
  | .dss => "DSA"
  | .other => "(unknown)"

def upperHexDigit (n : UInt8) : Char :=
  Char.ofNat (if n < 10 then 0x30 + n.toNat else 0x37 + n.toNat)

/-- `asprintf("%02X")` for each byte, with colons between. -/
def hexFingerprint (hash : Bytes) : String :=
  ":".intercalate
    (hash.map fun b => String.ofList [upperHexDigit (b / 16), upperHexDigit (b % 16)])

/-! ## What the libraries answer -/

/-- What `resolveHostCancellable` comes back with. -/
inductive Lookup where
  | found
  | notFound
  | aborted
  deriving DecidableEq, Repr

/-- What `waitForLibssh` comes back with. -/
inductive Rc where
  | ok
  | aborted
  | denied
  | error
  deriving DecidableEq, Repr

/-- The answers a slot may get. -/
structure Answers where
  sshNew : Bool := true
  lookup : Lookup := .found
  options : Bool := true
  compression : Bool := true
  connect : Rc := .ok
  /-- The SHA-256 hash of the key of the host that was connected to. -/
  hostKey : Bytes := []
  keyType : KeyType := .ed25519
  readHostKey : Bool := true
  hashHostKey : Bool := true
  privateKeyExists : Bool := true
  importPrivateKey : Bool := true
  auth : Rc := .ok
  /-- `ssh_get_error` -/
  error : String := ""
  deriving DecidableEq, Repr

/-! ## The worker -/

/-- `m_session`. One that is connected knows the fingerprint of its host. -/
inductive RawSession where
  | null
  | unconnected
  | connected (fingerprint : String)
  deriving DecidableEq, Repr

inductive WorkerSignal where
  | stateChanged (s : State)
  | errorOccurred (error : String)
  | hostKeyPromptRequired (fingerprint keyType : String)
  | hostKeyVerifiedByPin (fingerprint : String)
  | hostKeyTrusted (fingerprint : String)
  deriving DecidableEq, Repr

/-- A run of `proceedWithAuth`: what it was run on, the fingerprints that its
`open` trusts, and the one that was accepted for it. -/
structure Auth where
  session : RawSession
  trusted : List String
  accepted : Option String
  deriving DecidableEq, Repr

structure SshSessionWorker where
  session : RawSession := .null
  params : Params := {}
  awaitingHostKeyTrust : Bool := false
  pendingHostKeyFingerprint : String := ""
  pendingHostKeyType : String := ""
  out : List WorkerSignal := []
  opens : Nat := 0
  auths : List Auth := []
  deriving DecidableEq, Repr

def sshErrorString (session : RawSession) (raw fallback : String) : String :=
  if session = .null then fallback else if raw = "" then fallback else raw

namespace SshSessionWorker

def emit (e : WorkerSignal) (w : SshSessionWorker) : SshSessionWorker :=
  { w with out := w.out ++ [e] }

/-- `ssh_disconnect` and `ssh_free`, where there is a session. -/
def dropSession (w : SshSessionWorker) : SshSessionWorker :=
  { w with session := .null }

def fail (msg : String) (w : SshSessionWorker) : SshSessionWorker :=
  (w.dropSession.emit (.errorOccurred msg)).emit (.stateChanged .failed)

/-- `fail` with what libssh says, or else the fallback. -/
def failWith (a : Answers) (fallback : String) (w : SshSessionWorker) :
    SshSessionWorker :=
  w.fail (sshErrorString w.session a.error fallback)

/-- The worker, and whether it may go on to authenticate. -/
def verifyHostKey (a : Answers) (w : SshSessionWorker) :
    SshSessionWorker × Bool :=
  if a.readHostKey = false then
    (w.fail "Failed to read remote host key", false)
  else if a.hashHostKey = false then
    (w.fail "Failed to compute host key fingerprint", false)
  else
    let fp := hexFingerprint a.hostKey
    if fp ∈ w.params.trustedHostKeyFingerprints then
      (w.emit (.hostKeyVerifiedByPin fp), true)
    else
      let keyType := keyTypeName a.keyType
      let w :=
        { w with pendingHostKeyFingerprint := fp, pendingHostKeyType := keyType,
                 awaitingHostKeyTrust := true }
      ((w.emit (.stateChanged .needsHostKeyTrust)).emit
        (.hostKeyPromptRequired fp keyType), false)

/-- What follows the answer of `ssh_userauth_password` or
`ssh_userauth_publickey`. -/
def authAnswered (a : Answers) (w : SshSessionWorker) : SshSessionWorker :=
  match a.auth with
  | .aborted => w
  | .ok => w.emit (.stateChanged .connected)
  | .denied => w.fail "SSH authentication denied"
  | .error => w.failWith a "SSH authentication failed"

def proceedWithAuth (a : Answers) (accepted : Option String)
    (w : SshSessionWorker) : SshSessionWorker :=
  let entry : Auth := ⟨w.session, w.params.trustedHostKeyFingerprints, accepted⟩
  let w := { w with auths := w.auths ++ [entry] }
  let w := w.emit (.stateChanged .authenticating)
  match w.params.authMode with
  | .password => w.authAnswered a
  | .key =>
      let path := w.params.privateKeyPath
      if path = "" then w.fail "Private key path is empty"
      else if a.privateKeyExists = false then
        w.fail s!"Private key file does not exist: {path}"
      else if a.importPrivateKey = false then
        w.fail "Failed to read private key (wrong passphrase?)"
      else w.authAnswered a

/-- The end of `open`. -/
def verifyThenAuth (a : Answers) (w : SshSessionWorker) : SshSessionWorker :=
  let (w, verified) := w.verifyHostKey a
  if verified then w.proceedWithAuth a none else w

def «open» (a : Answers) (params : Params) (w : SshSessionWorker) :
    SshSessionWorker :=
  let w := { w with params, opens := w.opens + 1 }
  let w := (w.emit (.stateChanged .connecting)).dropSession
  if a.sshNew = false then w.fail "ssh_new() failed"
  else
    let w := { w with session := .unconnected }
    match a.lookup with
    | .aborted => w
    | .notFound => w.fail s!"Could not resolve host: {params.host}"
    | .found =>
        if a.options = false then w.failWith a "ssh_options_set failed"
        else if params.compression ∧ a.compression = false then
          w.failWith a "ssh_options_set(COMPRESSION) failed"
        else
          match a.connect with
          | .ok =>
              { w with session := .connected (hexFingerprint a.hostKey) }.verifyThenAuth a
          | .aborted => w
          | _ => w.failWith a "ssh_connect failed"

/-- The message carries no fingerprint; `accepted` is the one the user saw. -/
def resumeAfterHostKeyTrust (a : Answers) (accepted : String)
    (w : SshSessionWorker) : SshSessionWorker :=
  if w.awaitingHostKeyTrust = false then w
  else
    let fp := w.pendingHostKeyFingerprint
    let w :=
      { w with pendingHostKeyFingerprint := "", pendingHostKeyType := "",
               awaitingHostKeyTrust := false }
    (w.emit (.hostKeyTrusted fp)).proceedWithAuth a (some accepted)

def close (w : SshSessionWorker) : SshSessionWorker :=
  { w.dropSession with
    awaitingHostKeyTrust := false, pendingHostKeyFingerprint := "",
    pendingHostKeyType := "" }.emit (.stateChanged .disconnected)

end SshSessionWorker

/-! ## The session -/

/-- A prompt: the `open` that raised it, counted over the opens that the
worker of the session has run, and the fingerprint. -/
structure Prompt where
  session : Nat
  nth : Nat
  fingerprint : String
  deriving DecidableEq, Repr

/-- A slot that was queued for the worker. An acceptance is of a prompt, which
the message does not say. -/
inductive Slot where
  | open (params : Params)
  | resumeAfterHostKeyTrust (accepted : Prompt)
  | close
  deriving DecidableEq, Repr

structure SshSession where
  worker : SshSessionWorker := {}
  queue : List Slot := []
  state : State := .disconnected
  lastError : String := ""
  /-- `deleteLater` was called, and has run. -/
  abandoned : Bool := false
  destroyed : Bool := false
  deriving DecidableEq, Repr

namespace SshSession

def post (slot : Slot) (s : SshSession) : SshSession :=
  { s with queue := s.queue ++ [slot] }

def runSlot (a : Answers) (w : SshSessionWorker) : Slot → SshSessionWorker
  | .open params => w.open a params
  | .resumeAfterHostKeyTrust accepted =>
      w.resumeAfterHostKeyTrust a accepted.fingerprint
  | .close => w.close

end SshSession

end QuMesh.Ssh
