import QuMesh.Lib.Bytes
import QuMesh.Lib.Pieces
import QuMesh.Lib.Rounds
import QuMesh.Lib.Run

/-!
# `SolSession`

A serial console over the redirection client: the session opens, is told its
settings, and from then on display data come in and typed bytes go out, with a
keepalive every two seconds. A member function is a function on the session's
state under its own name; signals, writes and the start of the keepalive timer
are entries of `out`.

`sendInput` counts in an `int`. An input for which the count leaves its range
is one whose behaviour the language does not define, and that is an entry of
its own: what the model does after it says nothing.
-/

namespace QuMesh.Redir.Sol

open QuMesh.Lib

/-! ## The frames -/

def buildSolOpen (sequence : Nat) : Bytes :=
  [0x20, 0x00, 0x00, 0x00] ++ pack32Le sequence ++
    -- `SolOpenParams` as they stand
    pack16Le 10000 ++ pack16Le 100 ++ pack16Le 0 ++ pack16Le 10000 ++
    pack16Le 100 ++ pack16Le 0 ++ pack32Le 0

def buildSolSettings (sequence : Nat) : Bytes :=
  [0x27, 0x00, 0x00, 0x00] ++ pack32Le sequence ++
    [0x00, 0x00, 0x1B, 0x00, 0x00, 0x00]

def buildSolDataToHost (data : Bytes) : Bytes :=
  0x28 :: List.replicate 7 0 ++ pack16Le data.length ++ data

def buildSolKeepalive : Bytes := 0x2B :: List.replicate 7 0

inductive Frame
  | solOpen (sequence : Nat)
  | settings (sequence : Nat)
  | dataToHost (data : Bytes)
  | keepalive
  deriving DecidableEq, Repr

def Frame.bytes : Frame → Bytes
  | .solOpen sequence => buildSolOpen sequence
  | .settings sequence => buildSolSettings sequence
  | .dataToHost data => buildSolDataToHost data
  | .keepalive => buildSolKeepalive

/-- The status of a `0x21`. -/
def tryParseSolOpenReply (buffer : Bytes) : Option (UInt8 × Nat) :=
  if buffer.length < 1 then none
  else if buffer.headD 0 ≠ 0x21 then none
  else if buffer.length < 23 then none
  else some (buffer.getD 9 0, 23)

/-- The payload of a `0x2A`. -/
def tryParseSolDisplayData (buffer : Bytes) : Option (Bytes × Nat) :=
  if buffer.length < 1 then none
  else if buffer.headD 0 ≠ 0x2A then none
  else if buffer.length < 10 then none
  else
    let n := read16Le buffer 8
    if buffer.length < 10 + n then none
    else some ((buffer.drop 10).take n, 10 + n)

/-! ## The session -/

/-- What `drainInbox` finds at the front of the inbox. -/
inductive Inbound
  | openReply (status : UInt8)
  | displayData (payload : Bytes)
  | keepalive
  | settingsEcho
  | unexpected (tag : UInt8)
  deriving DecidableEq, Repr

inductive Effect
  | wrote (frame : Frame) (result : Int)
  | sessionOpened
  | data (bytes : Bytes)
  | closed (reason : String)
  /-- Not a signal: `m_keepalive` is started. -/
  | keepaliveStarted
  /-- A signed count left its range. -/
  | overflow
  deriving DecidableEq, Repr

structure Env where
  /-- What the n-th `writeRaw` returns. -/
  writeRaw : Nat → Bytes → Int
  /-- The client's `lastError` after it. -/
  lastError : Nat → String

structure Session where
  inbox : Bytes := []
  sequence : Nat := 1
  /-- `m_open`. -/
  isOpen : Bool := false
  settingsSent : Bool := false
  /-- `m_keepalive` is running. -/
  keepalive : Bool := false
  lastError : String := ""
  /-- How many writes there have been. -/
  writes : Nat := 0
  out : List Effect := []
  deriving DecidableEq, Repr

namespace Session

def emit (e : Effect) (s : Session) : Session := { s with out := s.out ++ [e] }

def fail (reason : String) (s : Session) : Session :=
  ({ s with
    lastError := reason
    isOpen := false
    keepalive := false }).emit (.closed reason)

def write (env : Env) (frame : Frame) (s : Session) : Session :=
  ({ s with writes := s.writes + 1 }).emit
    (.wrote frame (env.writeRaw s.writes frame.bytes))

/-- Write a frame under the next sequence number. -/
def writeNumbered (env : Env) (frame : Nat → Frame) (s : Session) : Session :=
  ({ s with sequence := (s.sequence + 1) % 2 ^ 32 }).write env
    (frame s.sequence)

def start (env : Env) (authenticated : Bool) (s : Session) : Session :=
  if !authenticated then s.fail "client is not authenticated"
  else
    let solOpen := buildSolOpen s.sequence
    let written := env.writeRaw s.writes solOpen
    let s := s.writeNumbered env .solOpen
    if written ≠ solOpen.length then
      s.fail s!"could not write SOL Open: {env.lastError s.writes}"
    else s

def kChunk : Nat := 0xFFFF

/-- How often `off` can be raised by `kChunk` before it is past the largest
`int`. -/
def kRaises : Nat := (2 ^ 31 - 1) / kChunk

def sendInput (env : Env) (input : Bytes) (s : Session) : Session :=
  if !s.isOpen then s
  else
    let chunks := pieces kChunk input
    let send (s : Session) (data : Bytes) := s.write env (.dataToHost data)
    if chunks.length ≤ kRaises then chunks.foldl send s
    else ((chunks.take (kRaises + 1)).foldl send s).emit .overflow

/-- The frame at the front of an inbox that is not empty, and its length. A
tag there is no case for is left where it is. -/
def nextFrame (inbox : Bytes) : Option (Inbound × Nat) :=
  let tag := inbox.headD 0
  if tag = 0x21 then
    (tryParseSolOpenReply inbox).map fun (status, n) => (.openReply status, n)
  else if tag = 0x2A then
    (tryParseSolDisplayData inbox).map fun (payload, n) =>
      (.displayData payload, n)
  else if tag = 0x2B then
    if inbox.length < 8 then none else some (.keepalive, 8)
  else if tag = 0x29 then
    if inbox.length < 10 then none else some (.settingsEcho, 10)
  else some (.unexpected tag, 0)

/-- The case of `drainInbox` for a frame that was taken; the flag says whether
the loop goes on. -/
def handleFrame (env : Env) (frame : Inbound) (s : Session) : Session × Bool :=
  match frame with
  | .openReply status =>
      if status ≠ 0 then
        (s.fail s!"SOL OpenReply status {status.toNat}", false)
      else if !s.settingsSent then
        let s := s.writeNumbered env .settings
        let s := { s with settingsSent := true, isOpen := true, keepalive := true }
        ((s.emit .keepaliveStarted).emit .sessionOpened, true)
      else (s, true)
  | .displayData payload =>
      (if payload.isEmpty then s else s.emit (.data payload), true)
  | .keepalive => (s, true)
  | .settingsEcho => (s, true)
  | .unexpected tag =>
      let digits := (Nat.toDigits 16 tag.toNat).leftpad 2 '0'
      (s.fail s!"unexpected SOL frame 0x{String.ofList digits}", false)

def drainStep (env : Env) (s : Session) : Session × Bool :=
  match nextFrame s.inbox with
  | none => (s, false)
  | some (frame, n) =>
      ({ s with inbox := s.inbox.drop n }).handleFrame env frame

def drained (s : Session) : Bool := s.inbox.isEmpty

/-- The loop. A round that goes on has taken a frame, so the length of the
inbox is fuel enough. -/
def drainInbox (env : Env) (s : Session) : Session :=
  rounds drained (drainStep env) s.inbox.length s

def onRawBytes (env : Env) (chunk : Bytes) (s : Session) : Session :=
  ({ s with inbox := s.inbox ++ chunk }).drainInbox env

end Session

/-! ## The event loop -/

inductive Event
  | start (authenticated : Bool)
  | sendInput (input : Bytes)
  | rawBytes (chunk : Bytes)
  | clientFailed (reason : String)
  /-- `m_keepalive` fires, if it is running. -/
  | keepaliveTimer
  deriving DecidableEq, Repr

namespace Session

def handle (env : Env) (s : Session) : Event → Session
  | .start authenticated => s.start env authenticated
  | .sendInput input => s.sendInput env input
  | .rawBytes chunk => s.onRawBytes env chunk
  | .clientFailed reason => s.fail reason
  | .keepaliveTimer => if s.keepalive then s.write env .keepalive else s

end Session

end QuMesh.Redir.Sol
