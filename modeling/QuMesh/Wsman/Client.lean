import QuMesh.Wsman.Http
import QuMesh.Redir.Client
import Mathlib.Logic.Function.Basic

/-!
# `WsmanClient`

The HTTP client every WSMAN operation goes through. A reply is numbered in the
order `sendEnvelope` made it; an attempt is one transport of a reply, numbered
in the order it was opened, and holds what `startTransport` or
`retryWithDigest` captured for it as well as the socket it led to. `rd.socket`
is the number of an attempt. Where the source captures a reply it does so by a
`QPointer`, so a reply that was destroyed keeps its number and is not `alive`.

What Qt does is in `Env` and in the events, as for `RedirectionClient`: a
socket announces its connection and its encryption once, the callback of the
socket factory comes once, and a call that a handler makes from inside a
signal is an event of its own. The one slot that is not an event is the
drainer, which `sendEnvelope` connects to `finished` before anyone else can.
-/

namespace QuMesh.Wsman

open QuMesh.Lib
open QuMesh.Redir (Certificate PeerCertSummary)

/-- `kWsmanMaxBodyBytes` -/
def maxBodyBytes : Nat := 32 * 1024 * 1024

structure Env where
  md5Hex : Bytes → Bytes
  sha256 : Bytes → Bytes
  /-- `randomCnonce`, by the attempt it is drawn for. -/
  randomCnonce : Nat → Bytes

def fingerprintFor (env : Env) (cert : Certificate) : Bytes :=
  Redir.Client.fingerprintText (env.sha256 cert.der)

/-- What the client reads of its endpoint's URL. -/
structure Endpoint where
  https : Bool := false
  host : Bytes := []
  port : Option Nat := none
  path : Bytes := []
  deriving DecidableEq, Repr

def Endpoint.portOr (e : Endpoint) : Nat :=
  e.port.getD (if e.https then 16993 else 16992)

/-- The value of an `Authorization` header. -/
structure DigestHeader where
  username : Bytes
  realm : Bytes
  nonce : Bytes
  uri : Bytes
  response : Bytes
  algorithm : Bytes
  qop : Bytes
  nc : UInt64
  cnonce : Bytes
  digestOpaque : Bytes
  deriving DecidableEq, Repr

def ncBytes (nc : UInt64) : Bytes := rightJustified 8 (numberHex nc.toNat)

def DigestHeader.bytes (h : DigestHeader) : Bytes :=
  ascii "Digest " ++
  ascii "username=\"" ++ quotedStringEscape h.username ++ ascii "\", " ++
  ascii "realm=\"" ++ quotedStringEscape h.realm ++ ascii "\", " ++
  ascii "nonce=\"" ++ quotedStringEscape h.nonce ++ ascii "\", " ++
  ascii "uri=\"" ++ quotedStringEscape h.uri ++ ascii "\", " ++
  ascii "response=\"" ++ h.response ++ ascii "\", " ++
  ascii "algorithm=" ++ h.algorithm ++ ascii ", " ++
  ascii "qop=" ++ h.qop ++ ascii ", " ++
  ascii "nc=" ++ ncBytes h.nc ++ ascii ", " ++
  ascii "cnonce=\"" ++ h.cnonce ++ ascii "\"" ++
  (if h.digestOpaque = [] then []
    else ascii ", opaque=\"" ++ quotedStringEscape h.digestOpaque ++ ascii "\"")

inductive ReplyState
  | idle
  | connecting
  | tlsHandshaking
  | writingRequest
  | readingHeaders
  | readingBodyContentLength
  | readingBodyChunked
  | done
  | failed
  deriving DecidableEq, Repr

/-- The single-shot timer of a reply; `spent` once it fired or was stopped. -/
inductive Timer
  | unarmed
  | running
  | spent
  deriving DecidableEq, Repr

structure Reply where
  alive : Bool := false
  /-- The drainer is connected to its `finished`. -/
  drains : Bool := false
  socket : Option Nat := none
  timer : Timer := .unarmed
  errorString : String := ""
  httpStatus : Int := 0
  body : Bytes := []
  method : Bytes := ascii "POST"
  requestPath : Bytes := []
  hostHeader : Bytes := []
  envelope : Bytes := []
  soapAction : Bytes := []
  responseBuffer : Bytes := []
  responseHeaders : Headers := []
  digestRetries : Nat := 0
  state : ReplyState := .idle
  expectedBody : Int := -1
  finished : Bool := false
  currentChunkRemaining : Int := 0
  readingChunkSize : Bool := true
  deriving DecidableEq, Repr

/-! ## Reading a response

One pass of `readMore` over what the socket had, up to what reaches beyond the
reply itself. -/

inductive Verdict
  | needMore
  /-- `finishReply`, with an empty text where nothing went wrong. -/
  | finish (err : String)
  /-- A 401 with its `WWW-Authenticate`. -/
  | unauthorized (wwwAuth : Bytes)
  deriving DecidableEq, Repr

namespace Reply

/-- A reply that can still be answered. -/
def live (rd : Reply) : Bool := rd.alive && !rd.finished

/-- Decide the body-read mode; a text where that fails. -/
def bodyMode (rd : Reply) : Reply × Option String :=
  let te := rd.responseHeaders.value (ascii "transfer-encoding")
  let cl := rd.responseHeaders.value (ascii "content-length")
  if (indexOf (ascii "chunked") (toLower te)).isSome then
    ({ rd with
        state := .readingBodyChunked
        readingChunkSize := true
        currentChunkRemaining := 0 }, none)
  else if cl ≠ [] then
    let rd := { rd with
      state := .readingBodyContentLength
      expectedBody := (toLongLong 10 cl).getD 0 }
    if rd.expectedBody < 0 then (rd, some "Bad Content-Length")
    else if rd.expectedBody > maxBodyBytes then
      (rd, some
        s!"Content-Length {rd.expectedBody} exceeds {maxBodyBytes}-byte cap")
    else (rd, none)
  else
    -- no length and no chunks: read until the peer closes
    ({ rd with state := .readingBodyContentLength, expectedBody := -2 }, none)

def bodyTooLong : String := s!"Reply body exceeds {maxBodyBytes}-byte cap"

def readContentLength (connected : Bool) (rd : Reply) : Reply × Verdict :=
  if rd.expectedBody = -2 then
    if rd.body.length + rd.responseBuffer.length > maxBodyBytes then
      (rd, .finish bodyTooLong)
    else
      ({ rd with body := rd.body ++ rd.responseBuffer, responseBuffer := [] },
        if connected then .needMore else .finish "")
  else
    let need := rd.expectedBody - rd.body.length
    if need ≤ 0 then (rd, .finish "")
    else
      let take := min need.toNat rd.responseBuffer.length
      let rd := { rd with
        body := rd.body ++ rd.responseBuffer.take take
        responseBuffer := rd.responseBuffer.drop take }
      (rd, if rd.body.length ≥ rd.expectedBody then .finish "" else .needMore)

/-- The part of a round behind the size line. Nothing is returned where the
loop goes on. -/
def chunkData (rd : Reply) : Reply × Option Verdict :=
  if rd.responseBuffer = [] then (rd, some .needMore)
  else
    let take := min rd.currentChunkRemaining.toNat rd.responseBuffer.length
    if rd.body.length + take > maxBodyBytes then
      (rd, some (.finish bodyTooLong))
    else
      let rd := { rd with
        body := rd.body ++ rd.responseBuffer.take take
        responseBuffer := rd.responseBuffer.drop take
        currentChunkRemaining := rd.currentChunkRemaining - take }
      if rd.currentChunkRemaining = 0 then
        if rd.responseBuffer.length < 2 then (rd, some .needMore)
        else
          ({ rd with
              responseBuffer := rd.responseBuffer.drop 2
              readingChunkSize := true }, none)
      else (rd, some .needMore)

/-- One round of the loop over the chunks. -/
def chunkStep (rd : Reply) : Reply × Option Verdict :=
  if rd.readingChunkSize then
    match indexOfInt (ascii "\r\n") rd.responseBuffer with
    | none => (rd, some .needMore)
    | some eol =>
        let sizeLine := (rd.responseBuffer.take eol).takeWhile (· != 0x3B)
        let size := toLongLong 16 sizeLine
        let rd := { rd with
          responseBuffer := rd.responseBuffer.drop (eol + 2)
          currentChunkRemaining := size.getD 0 }
        if size = none ∨ rd.currentChunkRemaining < 0 then
          (rd, some (.finish "Bad chunk size"))
        else if rd.currentChunkRemaining = 0 then (rd, some (.finish ""))
        else ({ rd with readingChunkSize := false }).chunkData
  else rd.chunkData

/-- The loop. A round that goes on took a line end, so the length of the
buffer is fuel enough. -/
def chunkLoop : Nat → Reply → Reply × Verdict
  | 0, rd => (rd, .needMore)
  | fuel + 1, rd =>
      match rd.chunkStep with
      | (rd, some verdict) => (rd, verdict)
      | (rd, none) => chunkLoop fuel rd

def readBody (connected : Bool) (rd : Reply) : Reply × Verdict :=
  match rd.state with
  | .readingBodyContentLength => rd.readContentLength connected
  | .readingBodyChunked => chunkLoop rd.responseBuffer.length rd
  | _ => (rd, .needMore)

def readHeaders (connected : Bool) (rawHeaders : Bytes) (rd : Reply) :
    Reply × Verdict :=
  match parseHead rawHeaders with
  | (_ :: code :: _, responseHeaders) =>
      let rd := { rd with httpStatus := toInt code, responseHeaders }
      if rd.httpStatus = 401 then
        let wwwAuth := rd.responseHeaders.value (ascii "www-authenticate")
        (rd, if wwwAuth = [] then .finish "401 without WWW-Authenticate"
          else .unauthorized wwwAuth)
      else
        match rd.bodyMode with
        | (rd, some err) => (rd, .finish err)
        | (rd, none) => rd.readBody connected
  | _ => (rd, .finish "Malformed status line")

def readPass (connected : Bool) (chunk : Bytes) (rd : Reply) :
    Reply × Verdict :=
  if chunk = [] ∧ !connected ∧ rd.state = .readingHeaders then
    (rd, .finish "Connection closed before headers")
  else
    let rd := { rd with responseBuffer := rd.responseBuffer ++ chunk }
    if rd.state = .readingHeaders then
      match indexOfInt (ascii "\r\n\r\n") rd.responseBuffer with
      | none => (rd, .needMore)
      | some headerEnd =>
          ({ rd with responseBuffer := rd.responseBuffer.drop (headerEnd + 4)
            }).readHeaders connected (rd.responseBuffer.take headerEnd)
    else rd.readBody connected

end Reply

/-! ## The client -/

/-- How far an attempt has come. -/
inductive Stage
  /-- The socket factory was called and has not called back. -/
  | opening
  | connecting
  | handshaking
  /-- The write that `encrypted` queued has not run. -/
  | posted
  /-- The request was written, or never will be. -/
  | settled
  deriving DecidableEq, Repr

structure Attempt where
  reply : Nat := 0
  /-- What `retryWithDigest` built; `startTransport` sends none. -/
  auth : Option DigestHeader := none
  tls : Bool := false
  /-- Where `connectToHost` goes; nowhere for a socket from the factory. -/
  peer : Option (Bytes × Nat) := none
  stage : Stage := .settled
  /-- `wireSocketHandlers` has run on its socket. -/
  wired : Bool := false
  /-- And connected `sslErrors` there. -/
  checksPeer : Bool := false
  peerVerifyName : Bytes := []
  /-- Certificate errors came up and were not ignored. -/
  refused : Bool := false
  /-- The socket's `state()` is `ConnectedState`. -/
  connected : Bool := false
  /-- What `readAll` on the socket would return. -/
  unread : Bytes := []
  deriving DecidableEq, Repr

inductive Effect
  | wrote (socket attempt : Nat) (auth : Option DigestHeader) (bytes : Bytes)
  | finished (reply : Nat)
  /-- Not a signal: the history of `startNow` and of the drainer. -/
  | started (reply : Nat)
  | trustPromptRequired (summary : PeerCertSummary)
  | peerCertVerifiedByPin (fingerprint : Bytes)
  deriving DecidableEq, Repr

structure Client where
  endpoint : Endpoint := {}
  user : Bytes := []
  pass : Bytes := []
  trustedFingerprints : List Bytes := []
  pendingPeerCert : PeerCertSummary := {}
  awaitingTrust : Bool := false
  timeoutMs : Int := 30000
  socketFactory : Bool := false
  haveDigestChallenge : Bool := false
  digestRealm : Bytes := []
  digestNonce : Bytes := []
  digestQop : Bytes := []
  digestAlgorithm : Bytes := []
  digestOpaque : Bytes := []
  nc : UInt64 := 0
  serializeRequests : Bool := false
  currentRequest : Option Nat := none
  pendingQueue : List Nat := []
  replies : Nat → Reply := fun _ => {}
  nextReply : Nat := 0
  attempts : Nat → Attempt := fun _ => {}
  nextAttempt : Nat := 0
  out : List Effect := []

def requestBytes (method path hostHeader soapAction body authHeader : Bytes) :
    Bytes :=
  method ++ ascii " " ++ path ++ ascii " HTTP/1.1\r\n" ++
  ascii "Host: " ++ hostHeader ++ ascii "\r\n" ++
  ascii "Content-Type: application/soap+xml;charset=UTF-8\r\n" ++
  (if soapAction = [] then []
    else ascii "SOAPAction: \"" ++ soapAction ++ ascii "\"\r\n") ++
  ascii "User-Agent: QuMesh/0.1\r\n" ++
  ascii "Accept: */*\r\n" ++
  ascii "Connection: close\r\n" ++
  (if authHeader = [] then []
    else ascii "Authorization: " ++ authHeader ++ ascii "\r\n") ++
  ascii "Content-Length: " ++ number body.length ++ ascii "\r\n\r\n" ++
  body

namespace Client

def emit (e : Effect) (c : Client) : Client := { c with out := c.out ++ [e] }

def withReply (r : Nat) (f : Reply → Reply) (c : Client) : Client :=
  { c with replies := Function.update c.replies r (f (c.replies r)) }

def withAttempt (a : Nat) (f : Attempt → Attempt) (c : Client) : Client :=
  { c with attempts := Function.update c.attempts a (f (c.attempts a)) }

def newAttempt (t : Attempt) (c : Client) : Client :=
  { c with
    attempts := Function.update c.attempts c.nextAttempt t
    nextAttempt := c.nextAttempt + 1 }

/-- `currentRequest`, which is null once its reply was destroyed. -/
def current (c : Client) : Option Nat :=
  c.currentRequest.filter fun r => (c.replies r).alive

/-! ## Starting a transport -/

def armTimeout (r : Nat) (c : Client) : Client :=
  if (c.replies r).timer ≠ .unarmed ∨ c.timeoutMs ≤ 0 then c
  else c.withReply r fun rd => { rd with timer := .running }

def wireSocketHandlers (r a : Nat) (c : Client) : Client :=
  (c.withReply r fun rd => { rd with socket := some a }).withAttempt a fun t =>
    { t with wired := true, checksPeer := c.endpoint.https }

/-- Open or adopt the socket: what `startTransport` and `retryWithDigest`
have in common. -/
def openSocket (r : Nat) (auth : Option DigestHeader) (c : Client) : Client :=
  let t : Attempt := { reply := r, auth, tls := c.endpoint.https }
  let c :=
    if c.socketFactory then c.newAttempt { t with stage := .opening }
    else
      let peer := some (c.endpoint.host, c.endpoint.portOr)
      (c.newAttempt { t with stage := .connecting, peer }).wireSocketHandlers r
        c.nextAttempt
  c.withReply r fun rd => { rd with state := .connecting }

def startTransport (r : Nat) (c : Client) : Client :=
  (c.armTimeout r).openSocket r none

def buildDigestHeader (env : Env) (c : Client) (method uri user pass : Bytes)
    (nc : UInt64) : DigestHeader :=
  let cnonce := env.randomCnonce c.nextAttempt
  let qop := if c.digestQop = [] then ascii "auth" else c.digestQop
  { username := user
    realm := c.digestRealm
    nonce := c.digestNonce
    uri
    response := computeDigestResponse env.md5Hex user c.digestRealm pass
      c.digestNonce cnonce (ncBytes nc) qop method uri
    algorithm :=
      if c.digestAlgorithm = [] then ascii "MD5" else c.digestAlgorithm
    qop
    nc
    cnonce
    digestOpaque := c.digestOpaque }

/-- The socket of the last attempt goes, and what was read from it. -/
def discardResponse (r : Nat) (c : Client) : Client :=
  let c :=
    match (c.replies r).socket with
    | none => c
    | some a => c.withAttempt a fun t => { t with connected := false }
  c.withReply r fun rd =>
    { rd with
      socket := none
      responseBuffer := []
      responseHeaders := []
      body := []
      httpStatus := 0
      expectedBody := -1
      currentChunkRemaining := 0
      readingChunkSize := true }

def retryWithDigest (env : Env) (r : Nat) (c : Client) : Client :=
  let c := (c.armTimeout r).discardResponse r
  let rd := c.replies r
  let nc := c.nc + 1
  let auth := buildDigestHeader env c rd.method rd.requestPath c.user c.pass nc
  ({ c with nc }).openSocket r (some auth)

/-- `startNow`, and the same lines of the drainer. -/
def startNow (env : Env) (r : Nat) (c : Client) : Client :=
  let c := c.emit (.started r)
  if c.haveDigestChallenge ∧ c.user ≠ [] then c.retryWithDigest env r
  else c.startTransport r

/-! ## Finishing, and the single-flight queue -/

/-- The drainer's loop over the queue: replies that were destroyed in it are
passed over. -/
def drainQueue (env : Env) : List Nat → Client → Client
  | [], c => { c with pendingQueue := [] }
  | next :: rest, c =>
      if (c.replies next).alive then
        ({ c with currentRequest := some next, pendingQueue := rest }).startNow
          env next
      else drainQueue env rest c

/-- The slot `sendEnvelope` connects to `finished`. -/
def drain (env : Env) (c : Client) : Client :=
  ({ c with currentRequest := none }).drainQueue env c.pendingQueue

/-- `emit reply->finished()`, once the reply says how it ended. -/
def emitFinished (env : Env) (r : Nat) (state : ReplyState)
    (errorString : String) (c : Client) : Client :=
  let c := c.withReply r fun rd =>
    { rd with state, errorString, finished := true }
  let c := c.emit (.finished r)
  if (c.replies r).drains then c.drain env else c

def stopTimer (r : Nat) (c : Client) : Client :=
  if (c.replies r).timer = .running then
    c.withReply r fun rd => { rd with timer := .spent }
  else c

def finishReply (env : Env) (r : Nat) (err : String) (c : Client) : Client :=
  if (c.replies r).finished then c
  else if err ≠ "" then (c.stopTimer r).emitFinished env r .failed err
  else
    (c.stopTimer r).emitFinished env r .done (c.replies r).errorString

/-- `rd.socket->abort()`, where there is a socket. -/
def abortSocket (r : Nat) (c : Client) : Client :=
  match (c.replies r).socket with
  | none => c
  | some a => c.withAttempt a fun t => { t with connected := false }

def abort (env : Env) (r : Nat) (c : Client) : Client :=
  if (c.replies r).finished then c
  else (c.abortSocket r).emitFinished env r .failed "Aborted"

/-- `~WsmanReply` -/
def destroy (r : Nat) (c : Client) : Client :=
  (c.abortSocket r).withReply r fun rd => { rd with alive := false }

def timeout (env : Env) (r : Nat) (c : Client) : Client :=
  let c := c.stopTimer r
  if (c.replies r).finished then c
  else (c.abortSocket r).emitFinished env r .failed "Request timed out"

/-! ## Writing the request -/

/-- `writeRequestBytes`, and the state behind it. -/
def writeRequestBytes (socket a : Nat) (c : Client) : Client :=
  let t := c.attempts a
  let rd := c.replies t.reply
  let authHeader := (t.auth.map DigestHeader.bytes).getD []
  let bytes := requestBytes rd.method rd.requestPath rd.hostHeader
    rd.soapAction rd.envelope authHeader
  ((c.emit (.wrote socket a t.auth bytes)).withAttempt a fun t =>
    { t with stage := .settled }).withReply t.reply fun rd =>
      { rd with state := .readingHeaders }

/-- A write to `rd.socket`, which is the socket of the reply's last attempt. -/
def doWrite (a : Nat) (c : Client) : Client :=
  match (c.replies (c.attempts a).reply).socket with
  -- the source would follow a null pointer here
  | none => c.withAttempt a fun t => { t with stage := .settled }
  | some socket => c.writeRequestBytes socket a

/-- The socket of an attempt has come up: encrypt it, or write. -/
def socketReady (a : Nat) (tls : Bool) (c : Client) : Client :=
  let t := c.attempts a
  if tls then
    (c.withAttempt a fun t =>
      { t with
        stage := .handshaking
        peerVerifyName := c.endpoint.host }).withReply t.reply fun rd =>
          { rd with state := .tlsHandshaking }
  else if t.auth.isSome then c.doWrite a
  else c.writeRequestBytes a a

/-- `connected` of a socket the client opened itself. -/
def connected (a : Nat) (c : Client) : Client :=
  let t := c.attempts a
  let c := c.withAttempt a fun t => { t with connected := true }
  if (c.replies t.reply).finished then c else c.socketReady a t.tls

/-- `encrypted`. The first attempt on a socket from the factory queues its
write, so that a pending `sslErrors` runs first. -/
def encrypted (a : Nat) (c : Client) : Client :=
  let t := c.attempts a
  if t.auth = none ∧ t.peer = none then
    c.withAttempt a fun t => { t with stage := .posted }
  else if (c.replies t.reply).finished then c
  else c.doWrite a

/-- The queued write runs. -/
def postedWrite (a : Nat) (c : Client) : Client :=
  if (c.replies (c.attempts a).reply).finished then c else c.doWrite a

end Client

/-- What a socket factory calls back with. -/
inductive Descriptor
  /-- A negative one, and the factory's own text. -/
  | none (error : String)
  /-- One that `setSocketDescriptor` turns down, with the socket's text. -/
  | unusable (error : String)
  | usable
  deriving DecidableEq, Repr

namespace Client

/-- The callback of the socket factory. For a reply that is gone or finished
it closes the descriptor. -/
def factoryDone (env : Env) (a : Nat) (fd : Descriptor) (c : Client) :
    Client :=
  let t := c.attempts a
  if !(c.replies t.reply).live then c
  else
    match fd with
    | .none error =>
        c.finishReply env t.reply
          (if error = "" then "SSH tunnel socket could not be opened" else error)
    | .unusable error =>
        c.finishReply env t.reply
          (if t.auth.isSome then "setSocketDescriptor failed"
            else s!"setSocketDescriptor failed: {error}")
    | .usable =>
        let c := c.wireSocketHandlers t.reply a
        let c := c.withAttempt a fun t => { t with connected := true }
        -- only the retry captured whether it is to encrypt
        c.socketReady a (if t.auth.isSome then t.tls else c.endpoint.https)

/-! ## Reading the response -/

/-- Take over the challenge of a 401. The counter is rewound where the nonce
is another one than before. -/
def cacheChallenge (params : Headers) (c : Client) : Client :=
  let digestRealm := params.value (ascii "realm")
  let digestNonce := params.value (ascii "nonce")
  { c with
    digestRealm
    digestNonce
    digestQop := chooseQop (params.value (ascii "qop"))
    digestAlgorithm := params.value (ascii "algorithm")
    digestOpaque := params.value (ascii "opaque")
    haveDigestChallenge := digestRealm ≠ [] ∧ digestNonce ≠ []
    nc := if digestNonce ≠ c.digestNonce then 0 else c.nc }

/-- `readMore`, the branch of a 401 that names a challenge. -/
def unauthorized (env : Env) (r : Nat) (wwwAuth : Bytes) (c : Client) :
    Client :=
  let params := parseDigestChallenge wwwAuth
  let c := c.cacheChallenge params
  if !c.haveDigestChallenge then
    c.finishReply env r "Unsupported auth challenge"
  else
    let stale := toLower (params.value (ascii "stale")) = ascii "true"
    let allowed := if stale then 2 else 1
    if (c.replies r).digestRetries ≥ allowed then
      c.finishReply env r
        "Authentication failed — Intel AMT rejected the credentials"
    else
      (c.withReply r fun rd =>
        { rd with digestRetries := rd.digestRetries + 1 }).retryWithDigest env r

def readMore (env : Env) (r : Nat) (c : Client) : Client :=
  let rd := c.replies r
  match rd.socket with
  | none => c
  | some a =>
      if rd.finished then c
      else
        let t := c.attempts a
        let c := c.withAttempt a fun t => { t with unread := [] }
        match rd.readPass t.connected t.unread with
        | (rd, verdict) =>
            let c := c.withReply r fun _ => rd
            match verdict with
            | .needMore => c
            | .finish err => c.finishReply env r err
            | .unauthorized wwwAuth => c.unauthorized env r wwwAuth

/-- `errorOccurred` of any socket of the reply; the text is the one of
`rd.socket`. -/
def errorOccurred (env : Env) (r : Nat) (errorString : String) (c : Client) :
    Client :=
  if (c.replies r).finished then c
  else
    match (c.replies r).socket with
    -- the source would follow a null pointer here
    | none => c
    | some _ => c.emitFinished env r .failed errorString

/-- `sslErrors` with the chain the peer presented. A handshake whose errors
are not ignored fails. -/
def sslErrors (env : Env) (a : Nat) (chain : List Certificate) (c : Client) :
    Client :=
  let t := c.attempts a
  let failing := c.withAttempt a fun t => { t with refused := true }
  match chain, t.checksPeer with
  | leaf :: _, true =>
      let fp := fingerprintFor env leaf
      if c.trustedFingerprints.contains fp then
        c.emit (.peerCertVerifiedByPin fp)
      else if t.auth.isSome then failing
      else
        let summary : PeerCertSummary :=
          { subject := leaf.commonNames.headD []
            issuer := leaf.issuerNames.headD []
            fingerprintSha256 := fp
            notBefore := leaf.effectiveDate
            notAfter := leaf.expiryDate
            der := leaf.der }
        ({ failing with
            pendingPeerCert := summary
            awaitingTrust := true }).emit (.trustPromptRequired summary)
  | _, _ => failing

/-! ## What the application calls -/

def setCredentials (user pass : Bytes) (c : Client) : Client :=
  { c with user, pass, haveDigestChallenge := false }

def trustPendingPeerCert (c : Client) : Client :=
  let fp := c.pendingPeerCert.fingerprintSha256
  if !c.awaitingTrust ∨ fp = [] then c
  else
    { c with
      trustedFingerprints :=
        if c.trustedFingerprints.contains fp then c.trustedFingerprints
        else c.trustedFingerprints ++ [fp]
      pendingPeerCert := {}
      awaitingTrust := false }

/-- `new WsmanReply`, filled in. -/
def newReply (envelope : Bytes) (soapAction : Option Bytes) (c : Client) :
    Client :=
  let e := c.endpoint
  let rd : Reply :=
    { alive := true
      drains := c.serializeRequests
      envelope
      soapAction := soapAction.getD []
      requestPath := if e.path = [] then ascii "/" else e.path
      hostHeader := e.host ++ ascii ":" ++ number e.portOr }
  { c with
    replies := Function.update c.replies c.nextReply rd
    nextReply := c.nextReply + 1 }

/-- The new reply goes into the queue. With no request in flight the head of
the queue comes out, and the new reply is started. -/
def sendEnvelope (env : Env) (envelope : Bytes) (soapAction : Option Bytes)
    (c : Client) : Client :=
  let r := c.nextReply
  let c := c.newReply envelope soapAction
  if !c.serializeRequests then c.startNow env r
  else
    let queue := c.pendingQueue ++ [r]
    match c.current with
    | some _ => { c with pendingQueue := queue }
    | none =>
        ({ c with
            currentRequest := queue.head?
            pendingQueue := queue.tail }).startNow env r

end Client

/-! ## The event loop -/

inductive Event
  | setEndpoint (endpoint : Endpoint)
  | setCredentials (user pass : Bytes)
  | setTrustedFingerprints (fingerprints : List Bytes)
  | setTransferTimeoutMs (ms : Int)
  | setSocketFactory (present : Bool)
  | setSerializeRequests (serialize : Bool)
  | trustPendingPeerCert
  | sendEnvelope (envelope : Bytes) (soapAction : Option Bytes)
  | abort (reply : Nat)
  | destroy (reply : Nat)
  | timeout (reply : Nat)
  | factoryDone (attempt : Nat) (fd : Descriptor)
  | connected (attempt : Nat)
  | encrypted (attempt : Nat)
  | postedWrite (attempt : Nat)
  | sslErrors (attempt : Nat) (chain : List Certificate)
  | readyRead (attempt : Nat) (chunk : Bytes)
  | errorOccurred (attempt : Nat) (errorString : String)
  | disconnected (attempt : Nat)
  deriving DecidableEq, Repr

namespace Client

/-- An attempt is at a stage, for a reply that still exists: its connections
went with the reply. -/
def reached (a : Nat) (stage : Stage) (c : Client) : Bool :=
  (c.attempts a).stage == stage && (c.replies (c.attempts a).reply).alive

/-- The socket of an attempt is there, and so is its reply. -/
def wired (a : Nat) (c : Client) : Bool :=
  (c.attempts a).wired && (c.replies (c.attempts a).reply).alive

def handle (env : Env) (c : Client) : Event → Client
  | .setEndpoint endpoint => { c with endpoint }
  | .setCredentials user pass => c.setCredentials user pass
  | .setTrustedFingerprints fps => { c with trustedFingerprints := fps }
  | .setTransferTimeoutMs ms => { c with timeoutMs := ms }
  | .setSocketFactory present => { c with socketFactory := present }
  | .setSerializeRequests serialize => { c with serializeRequests := serialize }
  | .trustPendingPeerCert => c.trustPendingPeerCert
  | .sendEnvelope envelope soapAction => c.sendEnvelope env envelope soapAction
  | .abort r => if (c.replies r).alive then c.abort env r else c
  | .destroy r => if (c.replies r).alive then c.destroy r else c
  | .timeout r =>
      if (c.replies r).alive ∧ (c.replies r).timer = .running then
        c.timeout env r
      else c
  | .factoryDone a fd =>
      if (c.attempts a).stage = .opening then c.factoryDone env a fd else c
  | .connected a => if c.reached a .connecting then c.connected a else c
  | .encrypted a =>
      if c.reached a .handshaking ∧ !(c.attempts a).refused then c.encrypted a
      else c
  | .postedWrite a => if c.reached a .posted then c.postedWrite a else c
  | .sslErrors a chain =>
      if c.reached a .handshaking then c.sslErrors env a chain else c
  | .readyRead a chunk =>
      if c.wired a then
        (c.withAttempt a fun t =>
          { t with unread := t.unread ++ chunk }).readMore env
            (c.attempts a).reply
      else c
  | .errorOccurred a errorString =>
      if c.wired a then
        c.errorOccurred env (c.attempts a).reply errorString
      else c
  | .disconnected a =>
      if c.wired a then
        c.withAttempt a fun t => { t with connected := false }
      else c

end Client

end QuMesh.Wsman
