import QuMesh.Wsman.BootActions
import QuMesh.Wsman.Client

/-!
# Operations as they run

An operation sends an envelope, connects a slot to `finished` of the reply it
was given, and runs the caller's callback from there, or sends the next
envelope. `Chain` is what such an operation is made of, and `Calls` is a client
with the slots that are connected to its replies.

The slot is connected when `sendEnvelope` has returned. What a socket or the
socket factory tells before that is in `Surroundings.early`, and a `finished`
that comes of it has no slot to run. What comes later are events. The callback
of a factory that runs inside the drainer is the event behind the one that
drained: its own slot was connected long before.

A reply is destroyed by the `deleteLater` of its slot, or with the client, and
`WsmanReply::abort` is called by nobody.
-/

namespace QuMesh.Wsman

open QuMesh.Lib QuMesh.Lib.Xml

/-- An envelope, and what is sent behind the reply to it; nothing where the
caller's callback runs. -/
inductive Chain
  | send (envelope : Bytes) (onward : Outcome → Option Chain)

namespace Chain

/-- A fault and an error run the callback as a response does. -/
def runRequest (envelope : Bytes) : Chain := .send envelope fun _ => none

/-- `next` is nothing where it runs the callback itself. -/
def runChainStep (envelope : Bytes) (name : String) (extract : Extractor)
    (next : Option Chain) : Chain :=
  .send envelope fun reply =>
    if (Wsman.runChainStep name extract (some reply)).ok then next else none

/-- The service first, and the settings of the KVM behind it. -/
def getOptInStatus (svcEnv kvmEnv : Bytes) : Chain :=
  .send svcEnv fun reply =>
    match reply.response with
    | .error _ => none
    | .ok _ => some (runRequest kvmEnv)

end Chain

/-- What may be told of an attempt before `sendEnvelope` has returned. -/
inductive Early
  | factoryDone (fd : Descriptor)
  | connected
  | errorOccurred (errorString : String)
  deriving DecidableEq, Repr

def Early.event (attempt : Nat) : Early → Event
  | .factoryDone fd => .factoryDone attempt fd
  | .connected => .connected attempt
  | .errorOccurred errorString => .errorOccurred attempt errorString

structure Surroundings where
  env : Env
  /-- What the stream reader delivers of a body. -/
  readXml : Bytes → List Token
  /-- By the number of the reply that is being sent. -/
  early : Nat → List Early

def Surroundings.outcome (w : Surroundings) (rd : Reply) : Outcome where
  errorString := rd.errorString
  httpStatus := rd.httpStatus
  xml := w.readXml rd.body

/-- A slot that an operation connected to `finished` of a reply. -/
structure Slot where
  operation : Nat
  reply : Nat
  onward : Outcome → Option Chain

/-- The reply whose `finished` an effect is. -/
def Effect.signal : Effect → Option Nat
  | .finished r => some r
  | _ => none

def Client.signals (c : Client) : List Nat := c.out.filterMap Effect.signal

structure Calls where
  client : Client := {}
  slots : List Slot := []
  /-- How many operations were called. -/
  operations : Nat := 0
  /-- The operations whose callbacks ran, in order. -/
  calledBack : List Nat := []

namespace Calls

def send (w : Surroundings) (operation : Nat) : Chain → Calls → Calls
  | .send envelope onward, s =>
      let reply := s.client.nextReply
      let attempt := s.client.nextAttempt
      let sent := s.client.sendEnvelope w.env envelope none
      let client := (w.early reply).foldl
        (fun c e => c.handle w.env (e.event attempt)) sent
      { s with client, slots := s.slots ++ [⟨operation, reply, onward⟩] }

def runSlot (w : Surroundings) (s : Calls) (slot : Slot) : Calls :=
  match slot.onward (w.outcome (s.client.replies slot.reply)) with
  | some chain => s.send w slot.operation chain
  | none => { s with calledBack := s.calledBack ++ [slot.operation] }

/-- The slots that are connected to `finished` of a reply. -/
def finished (w : Surroundings) (s : Calls) (reply : Nat) : Calls :=
  (s.slots.filter fun slot => slot.reply = reply).foldl (runSlot w) s

/-- The client answers an event, and the slots what it emits. -/
def deliver (w : Surroundings) (e : Event) (s : Calls) : Calls :=
  let client := s.client.handle w.env e
  (client.signals.drop s.client.signals.length).foldl (finished w)
    { s with client }

end Calls

inductive CallsEvent
  | call (operation : Chain)
  | client (e : Event)

def Calls.step (w : Surroundings) (s : Calls) : CallsEvent → Calls
  | .call operation =>
      ({ s with operations := s.operations + 1 }).send w s.operations operation
  | .client (.abort _) => s
  | .client (.destroy r) =>
      if (s.client.replies r).finished then s.deliver w (.destroy r) else s
  | .client e => s.deliver w e

end QuMesh.Wsman
