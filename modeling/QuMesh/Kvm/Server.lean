import QuMesh.Kvm.Session

/-!
# A session and an RFB server

The server a session talks to, as far as the pixel format needs it. Two queues
lie between the two: the frames the session wrote and the server has not
received, and the bytes the server sent and the socket has not delivered. The
server applies a `SetPixelFormat` when it receives it, and it encodes a
rectangle in the format that is in force when it sends it.

An honest message is one that a reader which has read everything before it
can read to its last byte. That reader is a part of the server: it holds what
the server knows to come next, and the state its compressor shares with the
other side's inflate stream. Only the server's own format goes into it, never
the session's.
-/

namespace QuMesh.Kvm

open QuMesh.Lib

variable {z : Zlib}

/-- A message of the server, as the bytes it puts on the wire. -/
inductive Message
  | version (bytes : Bytes)
  | securityTypes (bytes : Bytes)
  | securityResult (bytes : Bytes)
  | serverInit (bytes : Bytes)
  | frameUpdate (bytes : Bytes)
  | rect (bytes : Bytes)
  | bell
  | cutText (bytes : Bytes)
  deriving DecidableEq, Repr

def Message.bytes : Message → Bytes
  | .version bytes | .securityTypes bytes | .securityResult bytes
  | .serverInit bytes | .frameUpdate bytes | .rect bytes | .cutText bytes =>
      bytes
  | .bell => [2]

/-- How far the stream is: the message that comes next, the rectangles left of
the update and the inflate stream. -/
structure Reader (z : Zlib) where
  state : State := .version
  pendingRects : Nat := 0
  inflate : InflateStream z := {}

namespace Reader

/-- A rectangle and its payload in a format, with nothing missing and nothing
left over. -/
def takeRect (format : PixelFormat) (bytes : Bytes) (r : Reader z) :
    Option (Reader z × Option RectHeader) :=
  match tryParseRectHeader bytes with
  | none => none
  | some (rect, rectConsumed) =>
      let d := tryDecodeRect (bytes.drop rectConsumed) rect (some r.inflate)
        format
      if d.status = .ok ∧ rectConsumed + d.consumed = bytes.length then
        some ({ r with
            pendingRects := r.pendingRects - 1
            inflate := d.inflate.getD r.inflate },
          if d.rect.isDesktopSize then none else d.rect.image.map fun _ => rect)
      else none

/-- A message that comes at its time and is whole, and the rectangle whose
pixels it brings. -/
def take (format : PixelFormat) (m : Message) (r : Reader z) :
    Option (Reader z × Option RectHeader) :=
  match r.state, m with
  | .version, .version bytes =>
      if bytes.length = 12 then some ({ r with state := .security }, none)
      else none
  | .security, .securityTypes bytes =>
      if bytes ≠ [] ∧ tryParseSecurityTypes bytes = bytes.length then
        some ({ r with state := .authResult }, none)
      else none
  | .authResult, .securityResult bytes =>
      if bytes ≠ [] ∧ tryParseSecurityResult bytes = (true, bytes.length) then
        some ({ r with state := .serverInit }, none)
      else none
  | .serverInit, .serverInit bytes =>
      if (tryParseServerInit bytes).map Prod.snd = some bytes.length then
        some ({ r with state := .frameLoop }, none)
      else none
  | .frameLoop, m =>
      if r.pendingRects > 0 then
        match m with
        | .rect bytes => r.takeRect format bytes
        | _ => none
      else
        match m with
        | .frameUpdate bytes =>
            match tryParseFrameUpdate bytes with
            | none => none
            | some (numRects, consumed) =>
                if consumed = bytes.length then
                  some ({ r with pendingRects := numRects }, none)
                else none
        | .bell => some (r, none)
        | .cutText bytes =>
            if 8 ≤ bytes.length ∧ byteAt bytes 0 = 3 ∧
                read32Be bytes 4 ≤ Session.kServerCutTextMax ∧
                bytes.length = 8 + read32Be bytes 4 then
              some (r, none)
            else none
        | _ => none
  | _, _ => none

/-- A reader that has not started, or has failed, takes nothing. -/
theorem take_stopped {r : Reader z} (h : r.state = .idle ∨ r.state = .failed)
    (format : PixelFormat) (m : Message) : r.take format m = none := by
  rcases h with h | h <;> simp only [take, h]

end Reader

structure Server (z : Zlib) where
  /-- A reader that is through with everything sent. -/
  reader : Reader z := {}
  /-- The format in force. Before a first `SetPixelFormat` it is the server's
  own choice. -/
  format : PixelFormat
  told : Bool := false
  /-- Every rectangle of pixels sent, with the format it was encoded in. -/
  sent : List (RectHeader × PixelFormat) := []

namespace Server

def receive (frame : Frame) (s : Server z) : Server z :=
  match frame with
  | .setPixelFormat format => { s with format, told := true }
  | _ => s

def send (m : Message) (s : Server z) : Option (Server z) :=
  (s.reader.take s.format m).map fun r =>
    { s with
      reader := r.1
      sent := s.sent ++ r.2.toList.map fun rect => (rect, s.format) }

end Server

/-- The frame, if the effect is one. -/
def Effect.frame : Effect → Option Frame
  | .wrote frame => some frame
  | _ => none

/-- Every frame the session wrote. -/
def Session.frames (s : Session z) : List Frame := s.out.filterMap Effect.frame

/-- A session that was started once, its server, and what is between them. -/
structure World (z : Zlib) where
  client : Loop z
  server : Server z
  /-- How many of the client's frames the server has received. -/
  received : Nat := 0
  /-- What the server sent and the client was not handed yet. -/
  down : Bytes := []

inductive Move
  /-- So many of the bytes on the way arrive in one chunk. -/
  | deliver (n : Nat)
  /-- The server receives the next frame. -/
  | receive
  | send (m : Message)
  /-- Whatever else the client's event loop runs. -/
  | call (e : Event)
  deriving DecidableEq, Repr

namespace World

/-- The frames on the way. -/
def up (w : World z) : List Frame := w.client.session.frames.drop w.received

/-- Bytes come from the server alone, and nothing starts the session again. -/
def call (e : Event) (w : World z) : World z :=
  match e with
  | .rawBytes _ | .start .. => w
  | e => { w with client := w.client.handle .open e }

def step (w : World z) : Move → World z
  | .deliver n =>
      { w with
        client := w.client.handle .open (.rawBytes (w.down.take n))
        down := w.down.drop n }
  | .receive =>
      match w.up with
      | [] => w
      | frame :: _ =>
          { w with
            server := w.server.receive frame
            received := w.received + 1 }
  | .send m =>
      match w.server.send m with
      | none => w
      | some server => { w with server, down := w.down ++ m.bytes }
  | .call e => w.call e

/-- A session just started, towards a server with its own idea of a format. -/
def begin (preferred : Option PixelFormat) (compression : Bool)
    (own : PixelFormat) : World z :=
  let session := ({ preferredFormat := preferred } : Session z).start true
    compression
  { client := { session }
    server := { format := own, reader := { inflate := session.inflate } } }

end World

end QuMesh.Kvm
