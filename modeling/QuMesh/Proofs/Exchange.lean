import QuMesh.Redir.Client

/-!
# The exchange on one socket

What went over a socket during the handshake, in both directions and in
order, read off the client's history: the frames the client wrote of its own
accord, and the frames it took off the inbox with the state it took them in.
What an application driver writes after the handshake is not part of it.

`Advance` is the class's state diagram, each edge with the entries it adds,
and `Reaches` is a walk along it from the selector on. A walk fixes the kinds
of the frames the client has sent: it is at a known place in the script.
-/

namespace QuMesh.Redir

open QuMesh.Lib

inductive Entry
  | sent (frame : Frame)
  | got (state : State) (frame : Received)
  deriving DecidableEq, Repr

/-- The entry a piece of history is in the exchange on socket `k`. -/
def Effect.entry? (k : Nat) : Effect → Option Entry
  | .wrote _ (.raw _) _ => none
  | .wrote k' frame _ => if k' = k then some (.sent frame) else none
  | .consumed k' st frame => if k' = some k then some (.got st frame) else none
  | _ => none

def Client.exchange (c : Client) (k : Nat) : List Entry :=
  c.out.filterMap (Effect.entry? k)

inductive FrameKind
  | selector (p : Protocol)
  | authQuery
  | digestQuery
  | digestResponse
  | kvmStart
  | raw
  deriving DecidableEq, Repr

def Frame.kind : Frame → FrameKind
  | .selector p => .selector p
  | .authQuery => .authQuery
  | .digestQuery .. => .digestQuery
  | .digestResponse .. => .digestResponse
  | .kvmStart => .kvmStart
  | .raw _ => .raw

/-- The kinds of the frames the client sent, in order. -/
def sentKinds (log : List Entry) : List FrameKind :=
  log.filterMap fun
    | .sent frame => some frame.kind
    | .got .. => none

/-- Everything a handshake may send. -/
def script (p : Protocol) : List FrameKind :=
  [.selector p, .authQuery, .digestQuery, .digestResponse] ++
    if p = .kvm then [.kvmStart] else []

/-- How much of the script each state stands for. -/
def State.progress : State → Nat
  | .selectorSent => 1
  | .authQuerying => 2
  | .authChallenging => 3
  | .authResponding => 4
  | .kvmStarting | .authenticated => 5
  | _ => 0

/-- The edges of the state diagram, with a user to authenticate. -/
inductive Advance (p : Protocol) : State → State → List Entry → Prop
  | started {r : StartSessionReply} (h : r.status = .success) :
      Advance p .selectorSent .authQuerying
        [.got .selectorSent (.startSession r), .sent .authQuery]
  | offered {a : AuthReply} {user authUri : Bytes}
      (h : a.caps.hasDigestWithQop = true) :
      Advance p .authQuerying .authChallenging
        [.got .authQuerying (.auth a), .sent (.digestQuery user authUri)]
  | challenged {a : AuthReply}
      {user realm nonce authUri cnonce nc response qop : Bytes}
      (hs : a.status = 1) (hr : a.realm ≠ []) (hn : a.nonce ≠ []) :
      Advance p .authChallenging .authResponding
        [.got .authChallenging (.auth a),
          .sent (.digestResponse user realm nonce authUri cnonce nc response qop)]
  | accepted {a : AuthReply} (hs : a.status = 0) (hp : p ≠ .kvm) :
      Advance p .authResponding .authenticated
        [.got .authResponding (.auth a)]
  | kvmAccepted {a : AuthReply} (hs : a.status = 0) (hp : p = .kvm) :
      Advance p .authResponding .kvmStarting
        [.got .authResponding (.auth a), .sent .kvmStart]
  | kvmStarted {body : Bytes} :
      Advance p .kvmStarting .authenticated
        [.got .kvmStarting (.kvmStarted body)]

/-- A handshake that started with the selector and followed the diagram. -/
inductive Reaches (p : Protocol) : State → List Entry → Prop
  | selector : Reaches p .selectorSent [.sent (.selector p)]
  | advance {s t : State} {log new : List Entry} (h : Reaches p s log)
      (ha : Advance p s t new) : Reaches p t (log ++ new)

/-- The states a handshake passes through before it ends. -/
def State.underway : State → Bool
  | .selectorSent | .authQuerying | .authChallenging | .authResponding
  | .kvmStarting => true
  | _ => false

theorem sentKinds_append (log new : List Entry) :
    sentKinds (log ++ new) = sentKinds log ++ sentKinds new :=
  List.filterMap_append

theorem Advance.underway {p : Protocol} {s t : State} {new : List Entry}
    (h : Advance p s t new) : s.underway = true := by
  cases h <;> rfl

/-- Only a KVM handshake waits for a `0x41`. -/
theorem Reaches.kvm {p : Protocol} {s : State} {log : List Entry}
    (h : Reaches p s log) (hs : s = .kvmStarting) : p = .kvm := by
  cases h with
  | selector => cases hs
  | advance _ ha =>
      subst hs
      cases ha with
      | kvmAccepted _ hp => exact hp

/-- A walk along the diagram has sent exactly its state's share of the
script. -/
theorem Reaches.sentKinds {p : Protocol} {s : State} {log : List Entry}
    (h : Reaches p s log) :
    sentKinds log = (script p).take s.progress := by
  induction h with
  | selector => rfl
  | @advance s t log new hr ha ih =>
      rw [sentKinds_append, ih]
      cases ha with
      | accepted _ hp => simp [script, State.progress, hp, QuMesh.Redir.sentKinds]
      | kvmAccepted _ hp =>
          simp [script, State.progress, hp, QuMesh.Redir.sentKinds, Frame.kind]
      | kvmStarted =>
          simp [script, State.progress, hr.kvm rfl, QuMesh.Redir.sentKinds]
      | _ => simp [script, State.progress, QuMesh.Redir.sentKinds, Frame.kind]

theorem Reaches.sent_scripted {p : Protocol} {s : State} {log : List Entry}
    (h : Reaches p s log) : QuMesh.Redir.sentKinds log <+: script p := by
  rw [h.sentKinds]
  exact List.take_prefix _ _

/-! ## The exchange under the calls -/

namespace Client

@[simp] theorem state_emit (c : Client) (e : Effect) :
    (c.emit e).state = c.state := rfl

@[simp] theorem state_setState (c : Client) (s : State) :
    (c.setState s).state = s := by
  rw [setState]
  split
  · assumption
  · rfl

@[simp] theorem socket_setState (c : Client) (s : State) :
    (c.setState s).socket = c.socket := by
  rw [setState]
  split <;> rfl

@[simp] theorem state_fail (c : Client) (error : String) :
    (c.fail error).state = .failed :=
  state_setState _ _

theorem exchange_emit (c : Client) (e : Effect) (k : Nat) :
    (c.emit e).exchange k = c.exchange k ++ (e.entry? k).toList := by
  simp only [exchange, emit, List.filterMap_append]
  cases h : e.entry? k <;> simp [h]

theorem exchange_signal (c : Client) {e : Effect} {k : Nat}
    (he : e.entry? k = none) : (c.emit e).exchange k = c.exchange k := by
  rw [exchange_emit, he]
  simp

@[simp] theorem exchange_setState (c : Client) (s : State) (k : Nat) :
    (c.setState s).exchange k = c.exchange k := by
  rw [setState]
  split
  · rfl
  · exact exchange_signal _ rfl

@[simp] theorem exchange_fail (c : Client) (error : String) (k : Nat) :
    (c.fail error).exchange k = c.exchange k := by
  rw [fail, exchange_signal _ rfl, exchange_setState]
  rfl

theorem exchange_socketWrite (env : Env) {frame : Frame} {c : Client}
    {s : Socket} (hs : c.socket = some s) (hraw : ∀ b, frame ≠ .raw b)
    (k : Nat) :
    (c.socketWrite env frame).1.exchange k =
      c.exchange k ++ if s.id = k then [.sent frame] else [] := by
  simp only [socketWrite, hs, exchange_emit]
  have hentry (n : Int) : Effect.entry? k (.wrote s.id frame n) =
      if s.id = k then some (.sent frame) else none := by
    cases frame with
    | raw b => exact absurd rfl (hraw b)
    | _ => rfl
  rw [hentry]
  congr 1
  split <;> rfl

theorem exchange_writeRaw (env : Env) (bytes : Bytes) (c : Client) (k : Nat) :
    (c.writeRaw env bytes).1.exchange k = c.exchange k := by
  simp only [writeRaw, socketWrite]
  split
  · rfl
  · exact exchange_signal _ rfl

theorem exchange_consume {c : Client} {s : Socket} (hs : c.socket = some s)
    (n : Nat) (frame : Received) (k : Nat) :
    (c.consume n frame).exchange k =
      c.exchange k ++ if s.id = k then [.got c.state frame] else [] := by
  rw [consume, exchange_emit]
  simp only [Effect.entry?, socketId, hs, Option.map_some, Option.some.injEq]
  congr 1
  split <;> rfl

theorem exchange_handOver (leftover : Bytes) (c : Client) (k : Nat) :
    (c.handOver leftover).exchange k = c.exchange k := by
  rw [handOver]
  split
  · rw [exchange_signal _ rfl, exchange_setState]
  · rw [exchange_signal _ rfl, exchange_signal _ rfl, exchange_setState]

@[simp] theorem state_handOver (leftover : Bytes) (c : Client) :
    (c.handOver leftover).state = .authenticated := by
  rw [handOver]
  split <;> simp

end Client

end QuMesh.Redir
