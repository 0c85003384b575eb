import QuMesh.Proofs.Exchange

/-!
# The trust gate of a TLS redirection session

Until the peer's certificate is pinned or the user has trusted it, a TLS
client is meant to say nothing. `handleEncrypted` keeps that by holding the
selector back, but the bytes that drive the handshake come in through
`drainInbox`, which looks at neither `m_awaitingTrust` nor the state before it
answers a successful `0x11`. `trust_gate_leaks` walks an untrusted peer
through that branch up to the digest response, the material of an offline
attack on the password.

`trust_gate` says the branch is the only way round the gate: in a run in which
no `0x11` Success is at the front of the inbox while the gate of the current
socket is shut, nothing is ever written to a socket whose gate was not opened
and the state stays at or before `Connecting`. Whether a gate was opened is
read off the trail, not off the state, so the statement does not depend on
what the client remembers of it.
-/

namespace QuMesh.Redir

open QuMesh.Lib

/-- The handshake has not left the ground: the states at or before
`Connecting`, and the two in which there is no session. -/
def State.grounded : State → Bool
  | .disconnected | .connecting | .failed => true
  | _ => false

/-- The inbox begins with a complete `0x11` that reports success. -/
def startsSession (inbox : Bytes) : Bool :=
  match tryParseStartSessionReply inbox with
  | some (reply, _) => reply.status == .success
  | none => false

/-- What was written to sockets, in order. -/
def Effect.write? : Effect → Option (Nat × Frame)
  | .wrote socket frame _ => some (socket, frame)
  | _ => none

def Client.written (c : Client) : List (Nat × Frame) :=
  c.out.filterMap Effect.write?

/-- The two events that open the gate of the socket they meet: its TLS
handshake ends on a pinned certificate, or the user trusts the pending one. -/
def opensGate (env : Env) (c : Client) : Event → Bool
  | .encrypted (some cert) =>
      c.announces true &&
        c.trustedFingerprints.contains (Client.summarize env cert).fingerprintSha256
  | .trustPendingPeerCert => c.hasSslSocket && c.awaitingTrust
  | _ => false

/-- Somewhere on the trail the gate of socket `k` was opened. -/
def Opened (env : Env) (k : Nat) (past : List (Client × Event)) : Prop :=
  ∃ p ∈ past, p.1.socketId = some k ∧ opensGate env p.1 p.2 = true

/-- The gate keeps: whatever was written went to a socket whose gate had been
opened, and a client whose current socket has its gate shut is grounded. -/
def GateHolds (env : Env) (past : List (Client × Event)) (c : Client) : Prop :=
  (∀ p ∈ c.written, Opened env p.1 past) ∧
    ∀ k, c.socketId = some k → ¬ Opened env k past →
      c.state.grounded = true

/-- What a run has to avoid: a successful `0x11` at the front of the inbox
while the gate of the socket it came from is shut. Application drivers write
only after `Authenticated`, as `writeRaw` asks of them, and TLS stays on. -/
def NoEarlySession (env : Env) (past : List (Client × Event)) (c : Client) :
    Event → Prop
  | .readyRead chunk =>
      c.listening = true → startsSession (c.inbox ++ chunk) = true →
        ∃ k, c.socketId = some k ∧ Opened env k past
  | .writeRaw _ => c.state = .authenticated
  | .setTls enabled => enabled = true
  | _ => True

/-! ## What a slot may write to

Every member function writes to the socket the client has when it is called,
if it writes at all, and leaves that socket in place. -/

theorem Client.written_emit (c : Client) (e : Effect) :
    (c.emit e).written = c.written ++ (Effect.write? e).toList := by
  simp only [Client.written, Client.emit, List.filterMap_append]
  cases h : Effect.write? e <;> simp [h]

/-- What of a socket never changes: which one it is, and whether it is TLS. -/
def Client.socketKind (c : Client) : Option (Nat × Bool) :=
  c.socket.map fun k => (k.id, k.ssl)

theorem Client.socketId_eq (c : Client) :
    c.socketId = c.socketKind.map Prod.fst := by
  simp only [Client.socketId, Client.socketKind, Option.map_map]
  rfl

/-- From `c` to `d` the socket stayed, nothing was posted, and what was
written went to that socket. -/
structure Local (c d : Client) : Prop where
  written : ∃ new, d.written = c.written ++ new ∧
    ∀ p ∈ new, c.socketId = some p.1
  socket : d.socketKind = c.socketKind
  tls : d.tls = c.tls
  posted : d.posted = c.posted

namespace Local

theorem socketId {c d : Client} (h : Local c d) : d.socketId = c.socketId := by
  rw [Client.socketId_eq, Client.socketId_eq, h.socket]

theorem refl (c : Client) : Local c c :=
  ⟨⟨[], by simp, by simp⟩, rfl, rfl, rfl⟩

theorem trans {a b c : Client} (h : Local a b) (g : Local b c) :
    Local a c := by
  obtain ⟨new, hnew, hin⟩ := h.written
  obtain ⟨new', hnew', hin'⟩ := g.written
  refine ⟨⟨new ++ new', by rw [hnew', hnew, List.append_assoc], ?_⟩,
    by rw [g.socket, h.socket], by rw [g.tls, h.tls],
    by rw [g.posted, h.posted]⟩
  intro p hp
  rcases List.mem_append.mp hp with hp | hp
  · exact hin p hp
  · rw [← h.socketId]; exact hin' p hp

/-- A step that writes nothing. -/
theorem silent {c d : Client} (hout : d.written = c.written)
    (hs : d.socketKind = c.socketKind) (ht : d.tls = c.tls)
    (hp : d.posted = c.posted) : Local c d :=
  ⟨⟨[], by simpa using hout, by simp⟩, hs, ht, hp⟩

/-- A step that adds one entry to the history, and not a write. -/
theorem signal {c d : Client} {e : Effect} (hout : d.out = c.out ++ [e])
    (he : Effect.write? e = none) (hs : d.socketKind = c.socketKind)
    (ht : d.tls = c.tls) (hp : d.posted = c.posted) : Local c d :=
  silent (by simp [Client.written, hout, he]) hs ht hp

theorem emit (c : Client) {e : Effect} (he : Effect.write? e = none) :
    Local c (c.emit e) :=
  signal rfl he rfl rfl rfl

theorem setState (c : Client) (s : State) : Local c (c.setState s) := by
  rw [Client.setState]
  split
  · exact refl c
  · exact signal rfl rfl rfl rfl rfl

theorem fail (c : Client) (error : String) : Local c (c.fail error) := by
  rw [Client.fail]
  refine trans (trans (b := { c with
    lastError := error
    socket := c.socket.map fun k => { k with isOpen := false } })
    ?_ (setState _ .failed)) (emit _ rfl)
  exact silent rfl
    (by simp only [Client.socketKind, Option.map_map]; rfl) rfl rfl

theorem socketWrite (env : Env) (frame : Frame) (c : Client) :
    Local c (c.socketWrite env frame).1 := by
  rw [Client.socketWrite]
  split
  · exact refl c
  · next k hk =>
      refine ⟨⟨[(k.id, frame)], ?_, ?_⟩, rfl, rfl, rfl⟩
      · rw [Client.written_emit]; rfl
      · simp [Client.socketId, hk]

theorem handleConnected (env : Env) (c : Client) :
    Local c (c.handleConnected env) := by
  rw [Client.handleConnected]
  have hw := socketWrite env (.selector c.protocol) c
  dsimp only
  split
  · exact hw.trans (fail _ _)
  · exact hw.trans (setState _ _)

theorem writeThen (env : Env) (frame : Frame) (next : State) (c : Client) :
    Local c (c.writeThen env frame next).1 := by
  rw [Client.writeThen]
  have hw := socketWrite env frame c
  dsimp only
  split
  · exact hw.trans (fail _ _)
  · exact hw.trans (setState _ _)

theorem consume (n : Nat) (frame : Received) (c : Client) :
    Local c (c.consume n frame) :=
  signal rfl rfl rfl rfl rfl

theorem handOver (leftover : Bytes) (c : Client) :
    Local c (c.handOver leftover) := by
  have h := (setState c .authenticated).trans
    (emit (c.setState .authenticated) (e := .authenticated) rfl)
  rw [Client.handOver]
  split
  · exact h
  · exact h.trans (emit _ rfl)

theorem onStartSession (env : Env) (reply : StartSessionReply) (c : Client) :
    Local c (c.onStartSession env reply).1 := by
  have h : Local c
      { c with startStatus := reply.status, oemData := reply.oemData } :=
    silent rfl rfl rfl rfl
  rw [Client.onStartSession]
  dsimp only
  split
  · exact h.trans (fail _ _)
  · have hs := (h.trans (emit _ (e := .sessionOpened) rfl)).trans
      (setState _ .sessionOpened)
    split
    · exact hs
    · exact hs.trans (writeThen ..)

theorem onAuthReply (env : Env) (reply : AuthReply) (c : Client) :
    Local c (c.onAuthReply env reply).1 := by
  rw [Client.onAuthReply]
  split
  · split
    · exact fail _ _
    · exact writeThen ..
  · split
    · exact fail _ _
    · exact writeThen ..
  · split
    · exact fail _ _
    · split
      · exact writeThen ..
      · have h : Local c { c with inbox := [] } := silent rfl rfl rfl rfl
        exact h.trans (handOver ..)
  · exact fail _ _

theorem drainStep (env : Env) (c : Client) :
    Local c (c.drainStep env).1 := by
  rw [Client.drainStep]
  dsimp only
  split
  · split
    · exact refl c
    · exact (consume ..).trans (handOver ..)
  · split
    · split
      · exact refl c
      · exact (consume ..).trans (onStartSession ..)
    · split
      · split
        · exact refl c
        · exact (consume ..).trans (onAuthReply ..)
      · exact fail _ _

theorem drainLoop (env : Env) (fuel : Nat) (c : Client) :
    Local c (c.drainLoop env fuel) := by
  induction fuel generalizing c with
  | zero => exact refl c
  | succ fuel ih =>
      rw [Client.drainLoop]
      have h := drainStep env c
      split
      · exact refl c
      · split
        · next d hd => rw [hd] at h; exact h.trans (ih d)
        · next d hd => rw [hd] at h; exact h

theorem handleReadyRead (env : Env) (chunk : Bytes) (c : Client) :
    Local c (c.handleReadyRead env chunk) := by
  rw [Client.handleReadyRead]
  split
  · exact emit c rfl
  · have h : Local c { c with inbox := c.inbox ++ chunk } :=
      silent rfl rfl rfl rfl
    exact h.trans (drainLoop ..)

theorem handleEncrypted (env : Env) (cert : Option Certificate) (c : Client) :
    Local c (c.handleEncrypted env cert) := by
  cases cert with
  | none => exact fail _ _
  | some cert =>
      simp only [Client.handleEncrypted]
      split
      · exact (emit c rfl).trans (handleConnected ..)
      · have h : Local c { c with
            pendingPeerCert := Client.summarize env cert, awaitingTrust := true } :=
          silent rfl rfl rfl rfl
        exact h.trans (emit _ rfl)

theorem trustPendingPeerCert (env : Env) (c : Client) :
    Local c (c.trustPendingPeerCert env) := by
  rw [Client.trustPendingPeerCert]
  split
  · exact refl c
  · refine trans (silent ?_ ?_ ?_ ?_) (handleConnected ..) <;> rfl

theorem handleSocketError (remoteHostClosed : Bool) (errorString : String)
    (c : Client) :
    Local c (c.handleSocketError remoteHostClosed errorString) := by
  rw [Client.handleSocketError]
  split
  · exact (setState _ _).trans (emit _ rfl)
  · exact fail _ _

end Local

/-! ## A grounded client with nothing to answer -/

@[simp] theorem Client.written_setState (c : Client) (s : State) :
    (c.setState s).written = c.written := by
  rw [Client.setState]
  split
  · rfl
  · simp [Client.written_emit, Effect.write?]; rfl

@[simp] theorem Client.written_fail (c : Client) (error : String) :
    (c.fail error).written = c.written := by
  simp only [Client.fail, Client.written_emit, Client.written_setState]
  simp [Effect.write?]; rfl

theorem Client.written_consume (n : Nat) (frame : Received) (c : Client) :
    (c.consume n frame).written = c.written := by
  simp [Client.consume, Client.written_emit, Effect.write?]; rfl

/-- A grounded client that is not told the session started answers nothing
and ends the round: it waits, or it fails. -/
theorem Client.drainStep_grounded (env : Env) {c : Client}
    (hg : c.state.grounded = true) (hs : startsSession c.inbox = false) :
    (c.drainStep env).2 = false ∧
      (c.drainStep env).1.written = c.written ∧
      (c.drainStep env).1.state.grounded = true := by
  rw [Client.drainStep]
  dsimp only
  split
  · next h => rw [h.1] at hg; cases hg
  · split
    · split
      · exact ⟨rfl, rfl, hg⟩
      · next reply n hp =>
          rw [startsSession, hp] at hs
          have hne : reply.status ≠ .success := by simpa using hs
          simp only [Client.onStartSession, if_pos hne]
          refine ⟨trivial, ?_, by simp [State.grounded]⟩
          rw [Client.written_fail]
          exact Client.written_consume n _ c
    · split
      · split
        · exact ⟨rfl, rfl, hg⟩
        · next reply n hp =>
            have hst : (c.consume n (.auth reply)).state = c.state := rfl
            simp only [Client.onAuthReply]
            split
            case h_4 =>
              refine ⟨rfl, ?_, by simp [State.grounded]⟩
              rw [Client.written_fail]
              exact Client.written_consume n _ c
            all_goals
              next h => rw [hst] at h; rw [h] at hg; cases hg
      · exact ⟨rfl, by simp, by simp [State.grounded]⟩

theorem Client.drainInbox_grounded (env : Env) {c : Client}
    (hg : c.state.grounded = true) (hs : startsSession c.inbox = false) :
    (c.drainInbox env).written = c.written ∧
      (c.drainInbox env).state.grounded = true := by
  have hround := Client.drainStep_grounded env hg hs
  rw [Client.drainInbox]
  cases hlen : c.inbox.length with
  | zero => exact ⟨rfl, hg⟩
  | succ fuel =>
      rw [Client.drainLoop]
      split
      · exact ⟨rfl, hg⟩
      · split
        · next hd => rw [hd] at hround; cases hround.1
        · next hd => rw [hd] at hround; exact hround.2

/-! ## The gate, event by event -/

theorem Opened.mono {env : Env} {k : Nat} {past : List (Client × Event)}
    (h : Opened env k past) (p : Client × Event) :
    Opened env k (past ++ [p]) := by
  obtain ⟨q, hq, hk⟩ := h
  exact ⟨q, List.mem_append_left _ hq, hk⟩

theorem Opened.now {env : Env} {k : Nat} {past : List (Client × Event)}
    {c : Client} {e : Event} (hk : c.socketId = some k)
    (he : opensGate env c e = true) : Opened env k (past ++ [(c, e)]) :=
  ⟨(c, e), by simp, hk, he⟩

/-- A slot that writes nothing and leaves the client grounded keeps the gate,
whatever it does to the socket. -/
theorem GateHolds.grounded {env : Env} {past : List (Client × Event)}
    {c d : Client} (h : GateHolds env past c) (p : Client × Event)
    (hw : d.written = c.written) (hg : d.state.grounded = true) :
    GateHolds env (past ++ [p]) d := by
  refine ⟨?_, fun _ _ _ => hg⟩
  intro q hq
  rw [hw] at hq
  exact (h.1 q hq).mono p

/-- A slot that works on the current socket keeps the gate if that socket's
gate is open, or if it writes nothing and stays grounded. -/
theorem GateHolds.local {env : Env} {past : List (Client × Event)}
    {c d : Client} (h : GateHolds env past c) (p : Client × Event)
    (hl : Local c d)
    (hshut : ∀ k, c.socketId = some k → ¬ Opened env k (past ++ [p]) →
      d.written = c.written ∧ d.state.grounded = true) :
    GateHolds env (past ++ [p]) d := by
  obtain ⟨new, hnew, hin⟩ := hl.written
  refine ⟨?_, ?_⟩
  · intro q hq
    by_cases ho : Opened env q.1 (past ++ [p])
    · exact ho
    · rw [hnew] at hq
      rcases List.mem_append.mp hq with hq | hq
      · exact (h.1 q hq).mono p
      · -- A new write went to the current socket, and this one is shut.
        obtain ⟨hw, -⟩ := hshut q.1 (hin q hq) ho
        rw [hnew] at hw
        have : new = [] := by simpa using hw
        rw [this] at hq
        cases hq
  · intro k hk ho
    rw [hl.socketId] at hk
    exact (hshut k hk ho).2

/-- What stays true besides the gate while TLS is on: every socket is a TLS
socket, and no `handleConnected` is waiting in the event queue. -/
structure TlsOnly (c : Client) : Prop where
  tls : c.tls = true
  posted : c.posted = []
  ssl : ∀ p, c.socketKind = some p → p.2 = true

theorem TlsOnly.local {c d : Client} (h : TlsOnly c) (hl : Local c d) :
    TlsOnly d := by
  refine ⟨by rw [hl.tls, h.tls], by rw [hl.posted, h.posted], ?_⟩
  intro p hp
  rw [hl.socket] at hp
  exact h.ssl p hp

theorem TlsOnly.announces {c : Client} (h : TlsOnly c) :
    c.announces false = false := by
  rw [Client.announces]
  split
  · rfl
  · next k hk =>
      have := h.ssl (k.id, k.ssl) (by simp [Client.socketKind, hk])
      simp only at this
      simp [this]

theorem TlsOnly.freshSocket {c : Client} (h : TlsOnly c)
    (adopted isOpen : Bool) : TlsOnly (c.freshSocket adopted isOpen) := by
  refine ⟨h.tls, h.posted, ?_⟩
  intro p hp
  simp only [Client.socketKind, Client.freshSocket, Option.map_some,
    Option.some.injEq] at hp
  rw [← hp]
  exact h.tls

/-- A descriptor or a host: either way the client ends up on a fresh TLS
socket, or in `Failed`, and has written nothing. -/
theorem Client.connectViaSocketDescriptor_tls (env : Env) (accepted : Bool)
    {c : Client} (h : TlsOnly c) :
    (c.connectViaSocketDescriptor env accepted).written = c.written ∧
      (c.connectViaSocketDescriptor env accepted).state.grounded = true ∧
      TlsOnly (c.connectViaSocketDescriptor env accepted) := by
  have hfresh := h.freshSocket true accepted
  simp only [Client.connectViaSocketDescriptor]
  split
  · refine ⟨by simp; rfl, by simp [State.grounded],
      hfresh.local (Local.fail _ _)⟩
  · have hl := Local.setState (c.freshSocket true accepted) .connecting
    have ht := hfresh.local hl
    rw [if_pos ht.tls]
    exact ⟨by simp; rfl, by simp [State.grounded], ht⟩

theorem Client.connectTo_tls (host : String) (port : Nat) {c : Client}
    (h : TlsOnly c) :
    (c.connectTo host port).written = c.written ∧
      (c.connectTo host port).state.grounded = true ∧
      TlsOnly (c.connectTo host port) := by
  rw [Client.connectTo]
  split
  · have ht := h.local (Local.setState c .connecting)
    refine ⟨c.written_setState _, ?_, ht.tls, ht.posted, ht.ssl⟩
    show (c.setState .connecting).state.grounded = true
    rw [Client.state_setState]
    rfl
  · have hfresh := h.freshSocket false true
    exact ⟨by simp; rfl, by simp [State.grounded],
      hfresh.local (Local.setState _ _)⟩

theorem Client.tunnelDone_tls (env : Env) (i : Nat) (fd : Option Bool)
    (error : String) {c : Client} (h : TlsOnly c) :
    ((c.tunnelDone env i fd error).written = c.written ∧
        (c.tunnelDone env i fd error).state.grounded = true ∨
      c.tunnelDone env i fd error = c) ∧
      TlsOnly (c.tunnelDone env i fd error) := by
  rw [Client.tunnelDone]
  split
  · exact ⟨Or.inr rfl, h⟩
  · next host port _ =>
      have hpop : TlsOnly
          { c with openingTunnels := c.openingTunnels.eraseIdx i } :=
        ⟨h.tls, h.posted, h.ssl⟩
      cases fd with
      | none =>
          refine ⟨Or.inl ⟨by simp; rfl, by simp [State.grounded]⟩,
            hpop.local (Local.fail _ _)⟩
      | some accepted =>
          obtain ⟨hw, hg, ht⟩ :=
            Client.connectViaSocketDescriptor_tls env accepted hpop
          exact ⟨Or.inl ⟨hw, hg⟩, ht⟩

theorem GateHolds.shut {env : Env} {past : List (Client × Event)} {c : Client}
    (h : GateHolds env past c) {p : Client × Event} {k : Nat}
    (hk : c.socketId = some k) (ho : ¬ Opened env k (past ++ [p])) :
    c.state.grounded = true :=
  h.2 k hk fun ho' => ho (ho'.mono p)

/-- A slot that changes neither the history nor the state keeps the gate. -/
theorem GateHolds.unmoved {env : Env} {past : List (Client × Event)}
    {c d : Client} (h : GateHolds env past c) (p : Client × Event)
    (hl : Local c d) (hw : d.written = c.written) (hs : d.state = c.state) :
    GateHolds env (past ++ [p]) d := by
  refine h.local p hl ?_
  intro k hk ho
  exact ⟨hw, by rw [hs]; exact h.shut hk ho⟩

/-- Bytes that arrive behind a shut gate, and do not start a session, are
answered with nothing. -/
theorem Client.handleReadyRead_grounded (env : Env) {chunk : Bytes}
    {c : Client} (hg : c.state.grounded = true)
    (hs : startsSession (c.inbox ++ chunk) = false) :
    (c.handleReadyRead env chunk).written = c.written ∧
      (c.handleReadyRead env chunk).state.grounded = true := by
  have hna : c.state ≠ .authenticated := by
    intro h
    rw [h] at hg
    cases hg
  rw [Client.handleReadyRead, if_neg hna]
  exact Client.drainInbox_grounded env hg hs

/-- What `handleEncrypted` does on a certificate that is not pinned. -/
theorem Client.handleEncrypted_grounded (env : Env)
    {cert : Option Certificate} {c : Client} (hg : c.state.grounded = true)
    (hpin : ∀ x, cert = some x → c.trustedFingerprints.contains
      (Client.summarize env x).fingerprintSha256 = false) :
    (c.handleEncrypted env cert).written = c.written ∧
      (c.handleEncrypted env cert).state.grounded = true := by
  cases cert with
  | none => exact ⟨c.written_fail _, by simp [Client.handleEncrypted, State.grounded]⟩
  | some cert =>
      simp only [Client.handleEncrypted, hpin cert rfl]
      refine ⟨?_, hg⟩
      simp [Client.written_emit, Effect.write?]
      rfl

theorem GateHolds.handle {env : Env} {past : List (Client × Event)}
    {c : Client} (h : GateHolds env past c) (ht : TlsOnly c) {e : Event}
    (hok : NoEarlySession env past c e) :
    GateHolds env (past ++ [(c, e)]) (c.handle env e) ∧
      TlsOnly (c.handle env e) := by
  have same : ∀ {d}, Local c d → d.written = c.written → d.state = c.state →
      GateHolds env (past ++ [(c, e)]) d ∧ TlsOnly d :=
    fun hl hw hs => ⟨h.unmoved _ hl hw hs, ht.local hl⟩
  cases e with
  | setProtocol p => exact same (Local.silent rfl rfl rfl rfl) rfl rfl
  | setCredentials user pass =>
      exact same (Local.silent rfl rfl rfl rfl) rfl rfl
  | setAuthUri uri => exact same (Local.silent rfl rfl rfl rfl) rfl rfl
  | setTls enabled =>
      have henabled : enabled = c.tls := by rw [ht.tls]; exact hok
      exact same (Local.silent rfl rfl henabled rfl) rfl rfl
  | setTrustedFingerprints fps =>
      exact same (Local.silent rfl rfl rfl rfl) rfl rfl
  | setTunnelOpener present =>
      exact same (Local.silent rfl rfl rfl rfl) rfl rfl
  | connectTo host port =>
      obtain ⟨hw, hg, ht'⟩ := Client.connectTo_tls host port ht
      exact ⟨h.grounded _ hw hg, ht'⟩
  | connectViaSocketDescriptor accepted =>
      obtain ⟨hw, hg, ht'⟩ :=
        Client.connectViaSocketDescriptor_tls env accepted ht
      exact ⟨h.grounded _ hw hg, ht'⟩
  | disconnectFromHost =>
      have hl := Local.setState c .disconnected
      exact ⟨h.grounded _ (c.written_setState _) (by
        simp [Client.handle, Client.disconnectFromHost, State.grounded]),
        ht.local hl⟩
  | trustPendingPeerCert =>
      have hl := Local.trustPendingPeerCert env c
      refine ⟨h.local _ hl ?_, ht.local hl⟩
      intro k hk ho
      cases hopen : c.hasSslSocket && c.awaitingTrust with
      | true =>
          have hgate : opensGate env c .trustPendingPeerCert = true := hopen
          exact absurd (Opened.now hk hgate) ho
      | false =>
          have hcalm : c.trustPendingPeerCert env = c := by
            rw [Client.trustPendingPeerCert, if_pos]
            cases hss : c.hasSslSocket <;> simp_all
          rw [Client.handle, hcalm]
          exact ⟨rfl, h.shut hk ho⟩
  | writeRaw bytes =>
      have hl := Local.socketWrite env (.raw bytes) c
      refine ⟨h.local _ hl ?_, ht.local hl⟩
      intro k hk ho
      have hg := h.shut hk ho
      rw [show c.state = .authenticated from hok] at hg
      cases hg
  | tunnelDone i fd error =>
      obtain ⟨⟨hw, hg⟩ | hsame, ht'⟩ := Client.tunnelDone_tls env i fd error ht
      · exact ⟨h.grounded _ hw hg, ht'⟩
      · rw [Client.handle, hsame]
        exact same (Local.refl c) rfl rfl
  | postedHandleConnected =>
      simp only [Client.handle, ht.posted]
      exact same (Local.refl c) rfl rfl
  | connected =>
      simp only [Client.handle, ht.announces, Bool.false_eq_true, if_false]
      exact same (Local.refl c) rfl rfl
  | encrypted cert =>
      simp only [Client.handle]
      split
      · next ha =>
          have hann : Local c c.announce := Local.silent rfl
            (by simp only [Client.announce, Client.socketKind, Option.map_map]
                rfl) rfl rfl
          have hl := hann.trans (Local.handleEncrypted env cert _)
          refine ⟨h.local _ hl ?_, ht.local hl⟩
          intro k hk ho
          refine Client.handleEncrypted_grounded env (c := c.announce)
            (h.shut hk ho) ?_
          intro x hx
          subst hx
          cases hpin : c.trustedFingerprints.contains
              (Client.summarize env x).fingerprintSha256 with
          | false => exact hpin
          | true =>
              have hgate : opensGate env c (.encrypted (some x)) = true := by
                rw [opensGate, ha, hpin]
                rfl
              exact absurd (Opened.now hk hgate) ho
      · exact same (Local.refl c) rfl rfl
  | readyRead chunk =>
      simp only [Client.handle]
      split
      · next hlisten =>
          have hl := Local.handleReadyRead env chunk c
          refine ⟨h.local _ hl ?_, ht.local hl⟩
          intro k hk ho
          refine Client.handleReadyRead_grounded env (h.shut hk ho) ?_
          cases hs : startsSession (c.inbox ++ chunk) with
          | false => rfl
          | true =>
              obtain ⟨k', hk', ho'⟩ := hok hlisten hs
              rw [hk] at hk'
              cases hk'
              exact absurd (ho'.mono _) ho
      · exact same (Local.refl c) rfl rfl
  | errorOccurred remoteHostClosed errorString =>
      simp only [Client.handle]
      split
      · have hl := Local.handleSocketError remoteHostClosed errorString c
        refine ⟨h.local _ hl ?_, ht.local hl⟩
        intro k hk ho
        rw [Client.handleSocketError]
        split
        · exact ⟨by simp [Client.written_emit, Effect.write?],
            by simp [Client.emit, State.grounded]⟩
        · exact ⟨c.written_fail _, by simp [State.grounded]⟩
      · exact same (Local.refl c) rfl rfl

/-- In a run that never meets a successful `0x11` behind a shut gate, a TLS
client writes to no socket before its gate is opened, and stays at or before
`Connecting` until then. -/
theorem trust_gate (env : Env) (es : List Event)
    (hg : Guarded (Client.handle env) (NoEarlySession env) { tls := true } es) :
    GateHolds env (trail (Client.handle env) { tls := true } es)
      (run (Client.handle env) { tls := true } es) := by
  refine (hg.history (fun past c => GateHolds env past c ∧ TlsOnly c)
    ?_ ⟨⟨by simp [Client.written], ?_⟩, ⟨rfl, rfl, ?_⟩⟩).1
  · intro past c e h hok
    exact h.1.handle h.2 hok
  · intro k hk
    simp [Client.socketId] at hk
  · intro p hp
    simp [Client.socketKind] at hp

/-! ## The way round

A peer nobody trusts says the session started, offers digest authentication
and asks its challenge, all while the user is still looking at the prompt. -/

/-- A socket that takes every write, in a world with simple hashes. -/
def Env.plain : Env where
  write := fun _ bytes => bytes.length
  errorString := fun _ => ""
  md5Hex := fun bytes => List.replicate 32 (bytes.headD 0x30)
  sha256 := fun der => der
  makeClientNonce := fun _ => [0x61, 0x62]

/-- What an untrusted peer sends. -/
def sessionStarted : Bytes := [0x11, 0, 0, 0, 0, 0, 0, 0, 0, 0, 0, 0, 0]

def digestOffered : Bytes := [0x14, 0, 0, 0, 0, 1, 0, 0, 0, 4]

def digestChallenge : Bytes :=
  [0x14, 1, 0, 0, 4, 4, 0, 0, 0, 1, 0x72, 1, 0x6E]

def promptedRun : List Event :=
  [.setCredentials [0x61] [0x70], .connectTo "amt" 16995,
    .encrypted (some ⟨[], [], [], [], [0x01]⟩)]

def leakingRun : List Event :=
  promptedRun ++ [.readyRead sessionStarted, .readyRead digestOffered,
    .readyRead digestChallenge]

theorem trust_gate_leaks :
    (run (Client.handle .plain) { tls := true } leakingRun).state =
        .authResponding ∧
      ¬ GateHolds .plain (trail (Client.handle .plain) { tls := true } leakingRun)
        (run (Client.handle .plain) { tls := true } leakingRun) := by
  refine ⟨by decide, fun h => ?_⟩
  have hnow := h.2 0 (by decide)
  have hshut : ¬ Opened .plain 0
      (trail (Client.handle .plain) { tls := true } leakingRun) := by
    simp only [Opened]
    decide
  exact absurd (hnow hshut) (by decide)

/-- The honest order of the same events: the user trusts the peer first. -/
theorem trust_gate_honest :
    GateHolds .plain
      (trail (Client.handle .plain) { tls := true }
        (promptedRun ++ [.trustPendingPeerCert, .readyRead sessionStarted]))
      (run (Client.handle .plain) { tls := true }
        (promptedRun ++ [.trustPendingPeerCert, .readyRead sessionStarted])) := by
  refine trust_gate .plain _ ⟨trivial, trivial, trivial, trivial, ?_, trivial⟩
  intro _ _
  refine ⟨0, by decide, ?_⟩
  simp only [Opened]
  decide

end QuMesh.Redir
