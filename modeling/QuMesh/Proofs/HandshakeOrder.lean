import QuMesh.Proofs.TrustGate

/-!
# The handshake goes by the diagram

`drainInbox` looks at the tag of a frame before it looks at the state, and the
`0x11` branch does not look at the state at all: a device that repeats its
`0x11` Success is answered with another `AuthQuery`, in whatever state, and
the handshake starts over in the middle. There is one more way to say
something twice. `connectViaSocketDescriptor` posts `handleConnected` without
saying for which socket, so a call that outlives its socket writes the
selector to the next one. `handshake_out_of_order` runs into the first.

Runs that avoid both follow the diagram, `handshake_order`: on every socket
the frames the client sent are a prefix of the script, and a client that is
`Authenticated` got there by walking the whole of it on its current socket.
-/

namespace QuMesh.Redir

open QuMesh.Lib

/-! ## The condition -/

/-- The clients `drainLoop` finds at the head of its rounds. -/
def drainHeads (env : Env) : Nat → Client → List Client
  | 0, _ => []
  | fuel + 1, c =>
      if c.inbox.isEmpty then []
      else
        c :: match c.drainStep env with
          | (d, true) => drainHeads env fuel d
          | (_, false) => []

/-- The `0x11` branch, when a round enters it with a success, finds the state
the diagram gives that frame. -/
def SessionInTurn (c : Client) : Prop :=
  startsSession c.inbox = true → c.state = .selectorSent

/-- The rounds `readyRead` will run are in turn, a posted `handleConnected`
runs for the socket it was posted for, and the configuration is not changed
under the handshake: there stays a user, and the protocol. -/
def InTurn (env : Env) (_past : List (Client × Event)) (c : Client) :
    Event → Prop
  | .setProtocol p => p = c.protocol ∨ c.state.underway = false
  | .setCredentials user _ => user ≠ []
  | .postedHandleConnected =>
      ∀ k, c.posted.head? = some k → c.socketId = some k
  | .readyRead chunk =>
      c.listening = true → c.state ≠ .authenticated →
        ∀ d ∈ drainHeads env (c.inbox ++ chunk).length
          { c with inbox := c.inbox ++ chunk }, SessionInTurn d
  | _ => True

/-! ## What a call leaves alone -/

def Socket.shut (k : Socket) : Socket := { k with isOpen := false }

/-- From `c` to `d` only the session moved on: the socket is the same one,
unless it was shut, and whatever will call `handleConnected` still will. -/
structure Moves (c d : Client) : Prop where
  protocol : d.protocol = c.protocol
  user : d.user = c.user
  awaitingTrust : d.awaitingTrust = c.awaitingTrust
  sockets : d.sockets = c.sockets
  posted : d.posted = c.posted
  socket : d.socket = c.socket ∨ d.socket = c.socket.map Socket.shut

namespace Moves

theorem refl (c : Client) : Moves c c :=
  ⟨rfl, rfl, rfl, rfl, rfl, Or.inl rfl⟩

theorem trans {a b c : Client} (h : Moves a b) (g : Moves b c) : Moves a c := by
  refine ⟨g.protocol.trans h.protocol, g.user.trans h.user,
    g.awaitingTrust.trans h.awaitingTrust, g.sockets.trans h.sockets,
    g.posted.trans h.posted, ?_⟩
  rcases g.socket with hg | hg <;> rcases h.socket with hh | hh <;>
    rw [hg, hh]
  · exact Or.inl rfl
  · exact Or.inr rfl
  · exact Or.inr rfl
  · rw [Option.map_map]
    exact Or.inr rfl

theorem emit (c : Client) (e : Effect) : Moves c (c.emit e) :=
  ⟨rfl, rfl, rfl, rfl, rfl, Or.inl rfl⟩

theorem setState (c : Client) (s : State) : Moves c (c.setState s) := by
  rw [Client.setState]
  split
  · exact refl c
  · exact ⟨rfl, rfl, rfl, rfl, rfl, Or.inl rfl⟩

theorem fail (c : Client) (error : String) : Moves c (c.fail error) := by
  rw [Client.fail]
  have hshut : Moves c { c with
      lastError := error
      socket := c.socket.map fun k => { k with isOpen := false } } :=
    ⟨rfl, rfl, rfl, rfl, rfl, Or.inr rfl⟩
  exact (hshut.trans (setState _ _)).trans (emit _ _)

theorem socketWrite (env : Env) (frame : Frame) (c : Client) :
    Moves c (c.socketWrite env frame).1 := by
  rw [Client.socketWrite]
  split
  · exact refl c
  · exact ⟨rfl, rfl, rfl, rfl, rfl, Or.inl rfl⟩

theorem writeThen (env : Env) (frame : Frame) (next : State) (c : Client) :
    Moves c (c.writeThen env frame next).1 := by
  have hw := socketWrite env frame c
  rw [Client.writeThen]
  dsimp only
  split
  · exact hw.trans (fail _ _)
  · exact hw.trans (setState _ _)

theorem handleConnected (env : Env) (c : Client) :
    Moves c (c.handleConnected env) := by
  have hw := socketWrite env (.selector c.protocol) c
  rw [Client.handleConnected]
  dsimp only
  split
  · exact hw.trans (fail _ _)
  · exact hw.trans (setState _ _)

theorem consume (n : Nat) (frame : Received) (c : Client) :
    Moves c (c.consume n frame) :=
  ⟨rfl, rfl, rfl, rfl, rfl, Or.inl rfl⟩

theorem handOver (leftover : Bytes) (c : Client) :
    Moves c (c.handOver leftover) := by
  have h := (setState c .authenticated).trans
    (emit (c.setState .authenticated) .authenticated)
  rw [Client.handOver]
  split
  · exact h
  · exact h.trans (emit _ _)

theorem socket_some {c d : Client} (h : Moves c d) {t : Socket}
    (ht : d.socket = some t) :
    ∃ s, c.socket = some s ∧ s.id = t.id ∧ s.ssl = t.ssl ∧
      s.adopted = t.adopted ∧ s.announced = t.announced ∧
      (t.isOpen = true → s.isOpen = true) := by
  rcases h.socket with hd | hd
  · rw [hd] at ht
    exact ⟨t, ht, rfl, rfl, rfl, rfl, id⟩
  · rw [hd] at ht
    cases hc : c.socket with
    | none => rw [hc] at ht; cases ht
    | some s =>
        rw [hc] at ht
        cases ht
        exact ⟨s, rfl, rfl, rfl, rfl, rfl, fun h => by cases h⟩

end Moves

/-! ## One round of the drain -/

/-- From `c` to `d` the exchange on socket `id` grew by `new`, and no other
exchange did. -/
def Says (id : Nat) (new : List Entry) (c d : Client) : Prop :=
  ∀ k, d.exchange k = c.exchange k ++ if id = k then new else []

namespace Says

theorem silent {id : Nat} {c d : Client}
    (h : ∀ k, d.exchange k = c.exchange k) : Says id [] c d := by
  intro k
  rw [h k]
  split <;> simp

theorem trans {id : Nat} {new new' : List Entry} {a b c : Client}
    (h : Says id new a b) (g : Says id new' b c) :
    Says id (new ++ new') a c := by
  intro k
  rw [g k, h k]
  split <;> simp

theorem here {id : Nat} {new : List Entry} {c d : Client}
    (h : Says id new c d) : d.exchange id = c.exchange id ++ new := by
  rw [h id, if_pos rfl]

theorem consume {c : Client} {s : Socket} (hs : c.socket = some s) (n : Nat)
    (frame : Received) :
    Says s.id [.got c.state frame] c (c.consume n frame) :=
  Client.exchange_consume hs n frame

end Says

/-- The current socket was aborted. -/
def Client.aborted (c : Client) : Prop :=
  ∀ s, c.socket = some s → s.isOpen = false

theorem Client.aborted_fail (c : Client) (error : String) :
    (c.fail error).aborted := by
  intro s hs
  have hshut : (c.fail error).socket = c.socket.map Socket.shut := by
    simp only [Client.fail, Client.emit, Client.setState]
    split <;> rfl
  rw [hshut] at hs
  cases hc : c.socket with
  | none => rw [hc] at hs; cases hs
  | some t => rw [hc] at hs; cases hs; rfl

/-- What a round comes to: it waits, it goes along an edge of the diagram, or
it fails with nothing said, or with the write of an edge refused. -/
def Round (id : Nat) (c d : Client) : Prop :=
  ∃ new, Says id new c d ∧
    (d.state = c.state ∧ new = [] ∨
      Advance c.protocol c.state d.state new ∨
      d.state = .failed ∧ d.aborted ∧
        (sentKinds new = [] ∨ ∃ t, Advance c.protocol c.state t new))

theorem Round.waits (id : Nat) (c : Client) : Round id c c :=
  ⟨[], Says.silent fun _ => rfl, Or.inl ⟨rfl, rfl⟩⟩

/-- A round that fails on what it has taken off the inbox. -/
theorem Round.fails {id : Nat} {c d : Client} (new : List Entry)
    (h : Says id new c d) (hnew : sentKinds new = []) (error : String) :
    Round id c (d.fail error) := by
  refine ⟨new, ?_, Or.inr (Or.inr ⟨by simp, Client.aborted_fail _ _,
    Or.inl hnew⟩)⟩
  intro k
  rw [Client.exchange_fail, h k]

/-- A round that answers what it has taken off the inbox: if the write is
refused it fails, otherwise it is at the other end of the edge. -/
theorem Round.writes (env : Env) {s : Socket} {c d : Client} {frame : Frame}
    {next : State} (new : List Entry) (h : Says s.id new c d)
    (hs : d.socket = some s) (hraw : ∀ b, frame ≠ .raw b)
    (ha : Advance c.protocol c.state next (new ++ [.sent frame])) :
    Round s.id c (d.writeThen env frame next).1 := by
  have hw : Says s.id [.sent frame] d (d.socketWrite env frame).1 :=
    Client.exchange_socketWrite env hs hraw
  have hsaid := h.trans hw
  rw [Client.writeThen]
  dsimp only
  split
  · refine ⟨new ++ [.sent frame], ?_, Or.inr (Or.inr ⟨by simp,
      Client.aborted_fail _ _, Or.inr ⟨next, ha⟩⟩)⟩
    intro k
    rw [Client.exchange_fail, hsaid k]
  · refine ⟨new ++ [.sent frame], ?_, Or.inr (Or.inl ?_)⟩
    · intro k
      rw [Client.exchange_setState, hsaid k]
    · rw [Client.state_setState]
      exact ha

/-- A round that hands the stream over to the application. -/
theorem Round.handsOver {id : Nat} {c d : Client} (new : List Entry)
    (h : Says id new c d)
    (ha : Advance c.protocol c.state .authenticated new) (leftover : Bytes) :
    Round id c (d.handOver leftover) := by
  refine ⟨new, ?_, Or.inr (Or.inl ?_)⟩
  · intro k
    rw [Client.exchange_handOver, h k]
  · rw [Client.state_handOver]
    exact ha

theorem Client.onStartSession_round (env : Env) {c : Client} {s : Socket}
    {reply : StartSessionReply} {n : Nat} (hs : c.socket = some s)
    (hu : c.user ≠ [])
    (hst : reply.status = .success → c.state = .selectorSent) :
    Round s.id c
      ((c.consume n (.startSession reply)).onStartSession env reply).1 := by
  have hgot := Says.consume hs n (.startSession reply)
  rw [Client.onStartSession]
  dsimp only
  split
  · refine Round.fails [.got c.state (.startSession reply)]
      (fun k => ?_) rfl _
    exact hgot k
  · next hok =>
      have hok : reply.status = .success := by simpa using hok
      split
      · next hempty =>
          rw [(Moves.setState _ _).user] at hempty
          exact absurd (List.isEmpty_iff.mp hempty) hu
      · refine Round.writes env [.got c.state (.startSession reply)]
          (fun k => ?_) ?_ (by simp) ?_
        · rw [Client.exchange_setState, Client.exchange_signal _ rfl]
          exact hgot k
        · rw [Client.socket_setState]
          exact hs
        · rw [hst hok]
          exact Advance.started hok

theorem Client.onAuthReply_round (env : Env) {c : Client} {s : Socket}
    {reply : AuthReply} {n : Nat} (hs : c.socket = some s) :
    Round s.id c ((c.consume n (.auth reply)).onAuthReply env reply).1 := by
  have hgot := Says.consume hs n (.auth reply)
  have hstate : (c.consume n (.auth reply)).state = c.state := rfl
  rw [Client.onAuthReply]
  split
  · next hst =>
      rw [hstate] at hst
      split
      · exact Round.fails _ hgot rfl _
      · next hcaps =>
          refine Round.writes env _ hgot hs (by simp) ?_
          rw [hst]
          exact Advance.offered (by simpa using hcaps)
  · next hst =>
      rw [hstate] at hst
      split
      · exact Round.fails _ hgot rfl _
      · next hchallenge =>
          simp only [not_or, ne_eq, not_not, List.isEmpty_iff] at hchallenge
          obtain ⟨h1, hr, hn⟩ := hchallenge
          refine Round.writes env _ hgot hs (by simp) ?_
          rw [hst]
          exact Advance.challenged h1 hr hn
  · next hst =>
      rw [hstate] at hst
      split
      · exact Round.fails _ hgot rfl _
      · next hzero =>
          have hzero : reply.status = 0 := by simpa using hzero
          split
          · next hkvm =>
              refine Round.writes env _ hgot hs (by simp) ?_
              rw [hst]
              exact Advance.kvmAccepted hzero hkvm
          · next hkvm =>
              have hadv : Advance c.protocol c.state .authenticated
                  [.got c.state (.auth reply)] := by
                rw [hst]
                exact Advance.accepted hzero hkvm
              refine Round.handsOver _ (fun k => ?_) hadv _
              exact hgot k
  · exact Round.fails _ hgot rfl _

theorem Client.drainStep_round (env : Env) {c : Client} {s : Socket}
    (hs : c.socket = some s) (hu : c.user ≠ []) (hturn : SessionInTurn c) :
    Round s.id c (c.drainStep env).1 := by
  rw [Client.drainStep]
  dsimp only
  split
  · next hk =>
      split
      · exact Round.waits _ c
      · refine Round.handsOver _ (Says.consume hs _ _) ?_ _
        rw [hk.1]
        exact Advance.kvmStarted
  · split
    · split
      · exact Round.waits _ c
      · next reply n hp =>
          refine Client.onStartSession_round env hs hu fun hok => hturn ?_
          rw [startsSession, hp]
          simp [hok]
    · split
      · split
        · exact Round.waits _ c
        · exact Client.onAuthReply_round env hs
      · exact Round.fails [] (Says.silent fun _ => rfl) rfl _

theorem Moves.onStartSession (env : Env) (reply : StartSessionReply)
    (c : Client) : Moves c (c.onStartSession env reply).1 := by
  have hset : Moves c
      { c with startStatus := reply.status, oemData := reply.oemData } :=
    ⟨rfl, rfl, rfl, rfl, rfl, Or.inl rfl⟩
  rw [Client.onStartSession]
  dsimp only
  split
  · exact hset.trans (fail _ _)
  · have hopen := hset.trans ((emit _ .sessionOpened).trans
      (setState _ .sessionOpened))
    split
    · exact hopen
    · exact hopen.trans (writeThen ..)

theorem Moves.onAuthReply (env : Env) (reply : AuthReply) (c : Client) :
    Moves c (c.onAuthReply env reply).1 := by
  rw [Client.onAuthReply]
  split
  · split
    · exact fail _ _
    · exact writeThen ..
  · split
    · exact fail _ _
    · exact writeThen ..
  · split
    · exact fail _ _
    · split
      · exact writeThen ..
      · have hclear : Moves c { c with inbox := [] } :=
          ⟨rfl, rfl, rfl, rfl, rfl, Or.inl rfl⟩
        exact hclear.trans (handOver ..)
  · exact fail _ _

theorem Moves.drainStep (env : Env) (c : Client) :
    Moves c (c.drainStep env).1 := by
  rw [Client.drainStep]
  dsimp only
  split
  · split
    · exact refl c
    · exact (consume ..).trans (handOver ..)
  · split
    · split
      · exact refl c
      · exact (consume ..).trans (onStartSession ..)
    · split
      · split
        · exact refl c
        · exact (consume ..).trans (onAuthReply ..)
      · exact fail _ _

/-! ## Who still has to send the selector -/

/-- `handleConnected` has yet to run for this socket: its signal has not come,
its certificate is waiting for the user, or the call is in the event queue. -/
def Client.owes (c : Client) (s : Socket) : Prop :=
  s.announced = false ∧ (s.ssl = true ∨ s.adopted = false) ∨
    c.awaitingTrust = true ∨ s.id ∈ c.posted

/-- The three never hold together, and no socket is confused with another. -/
structure Wired (c : Client) : Prop where
  ids : ∀ s, c.socket = some s → s.id < c.sockets
  postedIds : ∀ k ∈ c.posted, k < c.sockets
  postedOnce : c.posted.Nodup
  direct : ∀ s, c.socket = some s → s.id ∈ c.posted →
    s.adopted = true ∧ s.ssl = false
  trust : c.awaitingTrust = true → ∀ s, c.socket = some s →
    s.ssl = true ∧ s.announced = true

theorem Wired.moves {c d : Client} (h : Wired c) (hm : Moves c d) :
    Wired d where
  ids := by
    intro t ht
    obtain ⟨s, hs, hid, -⟩ := hm.socket_some ht
    rw [← hid, hm.sockets]
    exact h.ids s hs
  postedIds := by
    rw [hm.posted, hm.sockets]
    exact h.postedIds
  postedOnce := by
    rw [hm.posted]
    exact h.postedOnce
  direct := by
    intro t ht hp
    obtain ⟨s, hs, hid, hssl, had, -⟩ := hm.socket_some ht
    rw [hm.posted, ← hid] at hp
    rw [← hssl, ← had]
    exact h.direct s hs hp
  trust := by
    intro ha t ht
    obtain ⟨s, hs, -, hssl, -, hann, -⟩ := hm.socket_some ht
    rw [hm.awaitingTrust] at ha
    rw [← hssl, ← hann]
    exact h.trust ha s hs

/-- Where the client is, the exchanges say it has been. -/
structure Spoken (c : Client) : Prop where
  user : c.user ≠ []
  fresh : ∀ k, c.sockets ≤ k → c.exchange k = []
  owing : ∀ s, c.socket = some s → c.owes s →
    sentKinds (c.exchange s.id) = [] ∧
      (s.isOpen = true → c.exchange s.id = [])
  scripted : ∀ k, ∃ p, sentKinds (c.exchange k) <+: script p
  underway : c.state.underway = true → ∃ s, c.socket = some s ∧
    Reaches c.protocol c.state (c.exchange s.id)
  done : c.state = .authenticated → ∃ s p, c.socket = some s ∧
    Reaches p .authenticated (c.exchange s.id)

/-- A walk along the diagram has sent something. -/
theorem Reaches.spoke {p : Protocol} {s : State} {log : List Entry}
    (h : Reaches p s log) : QuMesh.Redir.sentKinds log ≠ [] := by
  rw [h.sentKinds]
  cases h with
  | selector => cases p <;> simp [script, State.progress]
  | advance _ ha => cases ha <;> simp [script, State.progress]

theorem Moves.socketId {c d : Client} (hm : Moves c d) :
    d.socketId = c.socketId := by
  simp only [Client.socketId]
  rcases hm.socket with h | h <;> rw [h]
  rw [Option.map_map]
  rfl

/-- The socket a move leaves in place. -/
theorem Moves.socket_kept {c d : Client} (hm : Moves c d) {s : Socket}
    (hs : c.socket = some s) : ∃ t, d.socket = some t ∧ t.id = s.id := by
  rcases hm.socket with h | h
  · exact ⟨s, h.trans hs, rfl⟩
  · exact ⟨s.shut, by rw [h, hs]; rfl, rfl⟩

theorem Moves.owes {c d : Client} (hm : Moves c d) {s t : Socket}
    (hid : s.id = t.id) (hssl : s.ssl = t.ssl) (had : s.adopted = t.adopted)
    (hann : s.announced = t.announced) (h : d.owes t) : c.owes s := by
  rw [Client.owes] at h ⊢
  rw [hid, hssl, had, hann, ← hm.awaitingTrust, ← hm.posted]
  exact h

/-- A move that says nothing and ends outside the handshake, or where it
began. -/
theorem Spoken.calm {c d : Client} (h : Spoken c) (hm : Moves c d)
    (hx : ∀ k, d.exchange k = c.exchange k)
    (hst : d.state = c.state ∨
      d.state.underway = false ∧ d.state ≠ .authenticated) : Spoken d where
  user := by rw [hm.user]; exact h.user
  fresh := by
    intro k hk
    rw [hm.sockets] at hk
    rw [hx k]
    exact h.fresh k hk
  owing := by
    intro t ht ho
    obtain ⟨s, hs, hid, hssl, had, hann, hopen⟩ := hm.socket_some ht
    rw [hx, ← hid]
    obtain ⟨hk, hq⟩ := h.owing s hs (hm.owes hid hssl had hann ho)
    exact ⟨hk, fun hto => hq (hopen hto)⟩
  scripted := by
    intro k
    rw [hx k]
    exact h.scripted k
  underway := by
    intro hu
    rcases hst with hst | ⟨hst, -⟩
    · rw [hst] at hu
      obtain ⟨s, hs, hr⟩ := h.underway hu
      obtain ⟨t, ht, hid⟩ := hm.socket_kept hs
      refine ⟨t, ht, ?_⟩
      rw [hm.protocol, hst, hx, hid]
      exact hr
    · rw [hst] at hu
      cases hu
  done := by
    intro hd
    rcases hst with hst | ⟨-, hst⟩
    · rw [hst] at hd
      obtain ⟨s, p, hs, hr⟩ := h.done hd
      obtain ⟨t, ht, hid⟩ := hm.socket_kept hs
      refine ⟨t, p, ht, ?_⟩
      rw [hx, hid]
      exact hr
    · exact absurd hd hst

/-- A round keeps the account: it goes along the edge of the state it is in,
or it is over. -/
theorem Spoken.round {c d : Client} {s : Socket} (h : Spoken c) (hw : Wired c)
    (hm : Moves c d) (hs : c.socket = some s) (hr : Round s.id c d) :
    Spoken d := by
  obtain ⟨new, hsaid, hout⟩ := hr
  have hother : ∀ k, s.id ≠ k → d.exchange k = c.exchange k := by
    intro k hk
    rw [hsaid k, if_neg hk, List.append_nil]
  -- An edge can only be gone along, or tried, from a walk that reached it.
  have hwalk : ∀ t, Advance c.protocol c.state t new →
      Reaches c.protocol t (d.exchange s.id) ∧ ¬ c.owes s := by
    intro t ha
    obtain ⟨s', hs', hreach⟩ := h.underway ha.underway
    rw [hs] at hs'
    cases hs'
    refine ⟨?_, fun ho => hreach.spoke (h.owing s hs ho).1⟩
    rw [hsaid.here]
    exact hreach.advance ha
  rcases hout with ⟨hst, hnew⟩ | ha | ⟨hst, habort, hnew⟩
  · refine h.calm hm (fun k => ?_) (Or.inl hst)
    rw [hsaid k, hnew]
    split <;> simp
  · obtain ⟨hreach, hnot⟩ := hwalk _ ha
    obtain ⟨t, ht, hid⟩ := hm.socket_kept hs
    refine ⟨by rw [hm.user]; exact h.user, ?_, ?_, ?_, ?_, ?_⟩
    · intro k hk
      rw [hm.sockets] at hk
      have hlt := hw.ids s hs
      rw [hother k (by omega)]
      exact h.fresh k hk
    · intro t' ht' ho
      obtain ⟨s', hs', hid', hssl, had, hann, -⟩ := hm.socket_some ht'
      rw [hs] at hs'
      cases hs'
      exact absurd (hm.owes hid' hssl had hann ho) hnot
    · intro k
      by_cases hk : s.id = k
      · rw [← hk]
        exact ⟨_, hreach.sent_scripted⟩
      · rw [hother k hk]
        exact h.scripted k
    · intro _
      refine ⟨t, ht, ?_⟩
      rw [hm.protocol, hid]
      exact hreach
    · intro hdone
      refine ⟨t, c.protocol, ht, ?_⟩
      rw [hid, ← hdone]
      exact hreach
  · refine ⟨by rw [hm.user]; exact h.user, ?_, ?_, ?_, ?_, ?_⟩
    · intro k hk
      rw [hm.sockets] at hk
      have hlt := hw.ids s hs
      rw [hother k (by omega)]
      exact h.fresh k hk
    · intro t ht ho
      obtain ⟨s', hs', hid, hssl, had, hann, -⟩ := hm.socket_some ht
      rw [hs] at hs'
      cases hs'
      have ho' := hm.owes hid hssl had hann ho
      refine ⟨?_, fun hopen => ?_⟩
      · rw [← hid, hsaid.here, sentKinds_append, (h.owing s hs ho').1]
        rcases hnew with hnew | ⟨t', ha⟩
        · exact hnew
        · exact absurd ho' (hwalk t' ha).2
      · rw [habort t ht] at hopen
        cases hopen
    · intro k
      by_cases hk : s.id = k
      · rw [← hk]
        rcases hnew with hnew | ⟨t', ha⟩
        · rw [hsaid.here, sentKinds_append, hnew, List.append_nil]
          exact h.scripted _
        · exact ⟨_, (hwalk t' ha).1.sent_scripted⟩
      · rw [hother k hk]
        exact h.scripted k
    · intro hu
      rw [hst] at hu
      cases hu
    · intro hd
      rw [hst] at hd
      cases hd

/-- `handleConnected` on a socket that has not said anything. Whoever calls it
has first settled that it will not be called again. -/
theorem Spoken.handleConnected (env : Env) {c : Client} {s : Socket}
    (h : Spoken c) (hw : Wired c) (hs : c.socket = some s)
    (hnot : ¬ c.owes s) (hq : sentKinds (c.exchange s.id) = [])
    (hopen : s.isOpen = true → c.exchange s.id = []) :
    Spoken (c.handleConnected env) := by
  have hm := Moves.handleConnected env c
  have hsent : Says s.id [.sent (.selector c.protocol)] c
      (c.socketWrite env (.selector c.protocol)).1 :=
    Client.exchange_socketWrite env hs (by simp)
  have hsaid : Says s.id [.sent (.selector c.protocol)] c
      (c.handleConnected env) := by
    intro k
    rw [Client.handleConnected]
    dsimp only
    split
    · rw [Client.exchange_fail, hsent k]
    · rw [Client.exchange_setState, hsent k]
  have hout : (c.handleConnected env).state = .failed ∨
      (c.handleConnected env).state = .selectorSent ∧ s.isOpen = true := by
    rw [Client.handleConnected]
    dsimp only
    split
    · exact Or.inl (by simp)
    · next hok =>
        refine Or.inr ⟨by simp, ?_⟩
        cases hso : s.isOpen with
        | true => rfl
        | false =>
            -- A socket that is not open takes nothing.
            simp [Client.socketWrite, hs, hso] at hok
  obtain ⟨t, ht, hid⟩ := hm.socket_kept hs
  refine ⟨by rw [hm.user]; exact h.user, ?_, ?_, ?_, ?_, ?_⟩
  · intro k hk
    rw [hm.sockets] at hk
    have hlt := hw.ids s hs
    rw [hsaid k, if_neg (by omega), List.append_nil]
    exact h.fresh k hk
  · intro t' ht' ho
    obtain ⟨s', hs', hid', hssl, had, hann, -⟩ := hm.socket_some ht'
    rw [hs] at hs'
    cases hs'
    exact absurd (hm.owes hid' hssl had hann ho) hnot
  · intro k
    by_cases hk : s.id = k
    · refine ⟨c.protocol, ?_⟩
      rw [← hk, hsaid.here, sentKinds_append, hq]
      exact (Reaches.selector (p := c.protocol)).sent_scripted
    · rw [hsaid k, if_neg hk, List.append_nil]
      exact h.scripted k
  · intro hu
    refine ⟨t, ht, ?_⟩
    rcases hout with hst | ⟨hst, hso⟩
    · rw [hst] at hu
      cases hu
    · rw [hid, hm.protocol, hst, hsaid.here, hopen hso]
      exact Reaches.selector
  · intro hd
    rcases hout with hst | ⟨hst, -⟩ <;> rw [hst] at hd <;> cases hd

/-! ## The slots -/

/-- What every event keeps. -/
structure Ordered (c : Client) : Prop where
  wired : Wired c
  spoken : Spoken c

theorem Ordered.calm {c d : Client} (h : Ordered c) (hm : Moves c d)
    (hx : ∀ k, d.exchange k = c.exchange k)
    (hst : d.state = c.state ∨
      d.state.underway = false ∧ d.state ≠ .authenticated) : Ordered d :=
  ⟨h.wired.moves hm, h.spoken.calm hm hx hst⟩

theorem Ordered.fail {c : Client} (h : Ordered c) (error : String) :
    Ordered (c.fail error) :=
  h.calm (Moves.fail _ _) (fun k => Client.exchange_fail _ _ k)
    (Or.inr ⟨by simp [State.underway], by simp⟩)

theorem Ordered.setState {c : Client} (h : Ordered c) {s : State}
    (hu : s.underway = false) (hd : s ≠ .authenticated) :
    Ordered (c.setState s) :=
  h.calm (Moves.setState _ _) (fun k => Client.exchange_setState _ _ k)
    (Or.inr ⟨by simpa using hu, by simpa using hd⟩)

theorem Ordered.handleConnected (env : Env) {c : Client} {s : Socket}
    (h : Ordered c) (hs : c.socket = some s) (hnot : ¬ c.owes s)
    (hq : sentKinds (c.exchange s.id) = [])
    (hopen : s.isOpen = true → c.exchange s.id = []) :
    Ordered (c.handleConnected env) :=
  ⟨h.wired.moves (Moves.handleConnected env c),
    h.spoken.handleConnected env h.wired hs hnot hq hopen⟩

/-- A client on a socket nobody has used yet, outside the handshake. -/
theorem Spoken.unused {c d : Client} {t : Socket} (h : Spoken c)
    (hu : d.user = c.user) (hn : d.sockets = c.sockets + 1)
    (hx : ∀ k, d.exchange k = c.exchange k) (ht : d.socket = some t)
    (hid : t.id = c.sockets) (hst : d.state.underway = false)
    (hd : d.state ≠ .authenticated) : Spoken d where
  user := by rw [hu]; exact h.user
  fresh := by
    intro k hk
    rw [hx k]
    exact h.fresh k (by omega)
  owing := by
    intro t' ht' _
    rw [ht] at ht'
    cases ht'
    have hnone : d.exchange t.id = [] := by
      rw [hx]
      exact h.fresh _ (by omega)
    exact ⟨by rw [hnone]; rfl, fun _ => hnone⟩
  scripted := by
    intro k
    rw [hx k]
    exact h.scripted k
  underway := by
    intro hu'
    rw [hst] at hu'
    cases hu'
  done := fun hd' => absurd hd' hd

theorem Wired.freshSocket {c : Client} (h : Wired c)
    (adopted isOpen : Bool) : Wired (c.freshSocket adopted isOpen) where
  ids := by
    intro s hs
    cases hs
    exact Nat.lt_succ_self _
  postedIds := fun k hk => Nat.lt_succ_of_lt (h.postedIds k hk)
  postedOnce := h.postedOnce
  direct := by
    intro s hs hp
    cases hs
    exact absurd (h.postedIds _ hp) (Nat.lt_irrefl _)
  trust := fun ha => by cases ha

theorem Ordered.freshSocket {c d : Client} (h : Ordered c)
    {adopted isOpen : Bool} (hm : Moves (c.freshSocket adopted isOpen) d)
    (hx : ∀ k, d.exchange k = (c.freshSocket adopted isOpen).exchange k)
    (hst : d.state.underway = false) (hd : d.state ≠ .authenticated) :
    Ordered d := by
  obtain ⟨t, ht, hid⟩ := hm.socket_kept rfl
  exact ⟨(h.wired.freshSocket adopted isOpen).moves hm,
    h.spoken.unused hm.user hm.sockets hx ht hid hst hd⟩

/-- `handleConnected` is posted for a socket that has said nothing and was
never posted for before. -/
theorem Ordered.post {c : Client} (h : Ordered c) {s : Socket}
    (hs : c.socket = some s) (had : s.adopted = true) (hssl : s.ssl = false)
    (hnew : s.id ∉ c.posted) (hx : c.exchange s.id = []) :
    Ordered { c with posted := c.posted ++ c.socketId.toList } := by
  have hid : c.socketId.toList = [s.id] := by
    rw [Client.socketId, hs]
    rfl
  rw [hid]
  refine ⟨⟨h.wired.ids, ?_, ?_, ?_, h.wired.trust⟩,
    ⟨h.spoken.user, h.spoken.fresh, ?_, h.spoken.scripted, h.spoken.underway,
      h.spoken.done⟩⟩
  · intro k hk
    rcases List.mem_append.mp hk with hk | hk
    · exact h.wired.postedIds k hk
    · rw [List.mem_singleton.mp hk]
      exact h.wired.ids s hs
  · refine List.nodup_append.mpr ⟨h.wired.postedOnce, by simp, ?_⟩
    intro k hk k' hk' heq
    rw [heq, List.mem_singleton.mp hk'] at hk
    exact hnew hk
  · intro t ht _
    rw [show c.socket = some t from ht] at hs
    cases hs
    exact ⟨had, hssl⟩
  · intro t ht _
    rw [show c.socket = some t from ht] at hs
    cases hs
    have hnone : sentKinds (c.exchange s.id) = [] := by
      rw [hx]
      rfl
    exact ⟨hnone, fun _ => hx⟩

theorem Ordered.connectViaSocketDescriptor (env : Env) (accepted : Bool)
    {c : Client} (h : Ordered c) :
    Ordered (c.connectViaSocketDescriptor env accepted) := by
  rw [Client.connectViaSocketDescriptor]
  dsimp only
  split
  · exact h.freshSocket (Moves.fail _ _)
      (fun k => Client.exchange_fail _ _ k)
      (by simp [State.underway]) (by simp)
  · have hm := Moves.setState (c.freshSocket true accepted) .connecting
    have hc := h.freshSocket hm (fun k => Client.exchange_setState _ _ k)
      (by simp [State.underway]) (by simp)
    split
    · exact hc
    · next htls =>
        have htls : c.tls = false := by
          have hkeep : ((c.freshSocket true accepted).setState .connecting).tls =
              c.tls := by
            rw [Client.setState]
            split <;> rfl
          rw [hkeep] at htls
          simpa using htls
        refine hc.post (Client.socket_setState _ _) rfl htls ?_ ?_
        · rw [hm.posted]
          exact fun hp => Nat.lt_irrefl _ (h.wired.postedIds _ hp)
        · rw [Client.exchange_setState]
          exact h.spoken.fresh _ (Nat.le_refl _)

theorem Ordered.connectTo (host : String) (port : Nat) {c : Client}
    (h : Ordered c) : Ordered (c.connectTo host port) := by
  rw [Client.connectTo]
  split
  · have hc := h.setState (s := .connecting) rfl (by simp)
    exact hc.calm ⟨rfl, rfl, rfl, rfl, rfl, Or.inl rfl⟩ (fun _ => rfl)
      (Or.inl rfl)
  · exact h.freshSocket (Moves.setState _ _)
      (fun k => Client.exchange_setState _ _ k)
      (by simp [State.underway]) (by simp)

theorem Ordered.tunnelDone (env : Env) (i : Nat) (fd : Option Bool)
    (error : String) {c : Client} (h : Ordered c) :
    Ordered (c.tunnelDone env i fd error) := by
  rw [Client.tunnelDone]
  split
  · exact h
  · have hpop : Ordered
        { c with openingTunnels := c.openingTunnels.eraseIdx i } :=
      h.calm ⟨rfl, rfl, rfl, rfl, rfl, Or.inl rfl⟩ (fun _ => rfl) (Or.inl rfl)
    cases fd with
    | none => exact hpop.fail _
    | some accepted => exact hpop.connectViaSocketDescriptor env accepted

theorem Ordered.drainStep (env : Env) {c : Client} {s : Socket}
    (h : Ordered c) (hs : c.socket = some s) (hturn : SessionInTurn c) :
    Ordered (c.drainStep env).1 := by
  have hm := Moves.drainStep env c
  exact ⟨h.wired.moves hm, h.spoken.round h.wired hm hs
    (Client.drainStep_round env hs h.spoken.user hturn)⟩

theorem Ordered.drainLoop (env : Env) {fuel : Nat} {c : Client} {s : Socket}
    (h : Ordered c) (hs : c.socket = some s)
    (hturn : ∀ d ∈ drainHeads env fuel c, SessionInTurn d) :
    Ordered (c.drainLoop env fuel) := by
  induction fuel generalizing c s with
  | zero => exact h
  | succ fuel ih =>
      rw [drainHeads] at hturn
      rw [Client.drainLoop]
      split
      · exact h
      · next hne =>
          rw [if_neg hne] at hturn
          have hd := h.drainStep env hs (hturn c (by simp))
          obtain ⟨t, ht, -⟩ := (Moves.drainStep env c).socket_kept hs
          split
          · next d hstep =>
              rw [hstep] at hd hturn ht
              exact ih hd ht fun x hx => hturn x (List.mem_cons_of_mem _ hx)
          · next d hstep =>
              rw [hstep] at hd
              exact hd

theorem Ordered.handleReadyRead (env : Env) {chunk : Bytes} {c : Client}
    (h : Ordered c) (hl : c.listening = true)
    (hturn : c.state ≠ .authenticated →
      ∀ d ∈ drainHeads env (c.inbox ++ chunk).length
        { c with inbox := c.inbox ++ chunk }, SessionInTurn d) :
    Ordered (c.handleReadyRead env chunk) := by
  rw [Client.handleReadyRead]
  split
  · exact h.calm (Moves.emit _ _) (fun k => Client.exchange_signal _ rfl)
      (Or.inl rfl)
  · next hst =>
      have happend : Ordered { c with inbox := c.inbox ++ chunk } :=
        h.calm ⟨rfl, rfl, rfl, rfl, rfl, Or.inl rfl⟩ (fun _ => rfl)
          (Or.inl rfl)
      obtain ⟨s, hs⟩ : ∃ s, c.socket = some s := by
        rw [Client.listening] at hl
        cases hs : c.socket with
        | none => rw [hs] at hl; cases hl
        | some s => exact ⟨s, rfl⟩
      exact happend.drainLoop env hs (hturn hst)

theorem Ordered.handleSocketError (remoteHostClosed : Bool)
    (errorString : String) {c : Client} (h : Ordered c) :
    Ordered (c.handleSocketError remoteHostClosed errorString) := by
  rw [Client.handleSocketError]
  split
  · exact (h.setState (s := .disconnected) rfl (by simp)).calm
      (Moves.emit _ _) (fun k => Client.exchange_signal _ rfl) (Or.inl rfl)
  · exact h.fail _

/-- The signal that the connection stands has come from this socket. -/
theorem Ordered.announce {c : Client} {s : Socket} (h : Ordered c)
    (hs : c.socket = some s) (hann : s.announced = false)
    (hdirect : s.adopted = false ∨ s.ssl = true) :
    Ordered c.announce ∧
      ¬ c.announce.owes { s with announced := true } := by
  have hsock : c.announce.socket = some { s with announced := true } := by
    rw [Client.announce, hs]
    rfl
  have htrust : c.awaitingTrust = false := by
    cases ht : c.awaitingTrust with
    | false => rfl
    | true =>
        have := (h.wired.trust ht s hs).2
        rw [hann] at this
        cases this
  have hposted : s.id ∉ c.posted := by
    intro hp
    obtain ⟨had, hssl⟩ := h.wired.direct s hs hp
    rcases hdirect with hd | hd
    · rw [had] at hd; cases hd
    · rw [hssl] at hd; cases hd
  have hnot : ¬ c.announce.owes { s with announced := true } := by
    rintro (⟨ha, -⟩ | ht | hp)
    · cases ha
    · rw [show c.announce.awaitingTrust = c.awaitingTrust from rfl, htrust] at ht
      cases ht
    · exact hposted hp
  refine ⟨⟨⟨?_, h.wired.postedIds, h.wired.postedOnce, ?_, ?_⟩,
    ⟨h.spoken.user, h.spoken.fresh, ?_, h.spoken.scripted, ?_, ?_⟩⟩, hnot⟩
  · intro t ht
    rw [hsock] at ht
    cases ht
    exact h.wired.ids s hs
  · intro t ht hp
    rw [hsock] at ht
    cases ht
    exact absurd hp hposted
  · intro ht
    rw [show c.announce.awaitingTrust = c.awaitingTrust from rfl, htrust] at ht
    cases ht
  · intro t ht ho
    rw [hsock] at ht
    cases ht
    exact absurd ho hnot
  · intro hu
    obtain ⟨s', hs', hr⟩ := h.spoken.underway hu
    rw [hs] at hs'
    cases hs'
    exact ⟨_, hsock, hr⟩
  · intro hd
    obtain ⟨s', p, hs', hr⟩ := h.spoken.done hd
    rw [hs] at hs'
    cases hs'
    exact ⟨_, p, hsock, hr⟩

/-- The user is asked about the certificate of a socket that has said
nothing. -/
theorem Ordered.prompt {c : Client} {s : Socket} (h : Ordered c)
    (hs : c.socket = some s) (hssl : s.ssl = true)
    (hann : s.announced = true) (hq : sentKinds (c.exchange s.id) = [])
    (hopen : s.isOpen = true → c.exchange s.id = [])
    (summary : PeerCertSummary) :
    Ordered { c with pendingPeerCert := summary, awaitingTrust := true } := by
  refine ⟨⟨h.wired.ids, h.wired.postedIds, h.wired.postedOnce, h.wired.direct,
    fun _ t ht => ?_⟩, ⟨h.spoken.user, h.spoken.fresh, fun t ht _ => ?_,
    h.spoken.scripted, h.spoken.underway, h.spoken.done⟩⟩
  · rw [show c.socket = some t from ht] at hs
    cases hs
    exact ⟨hssl, hann⟩
  · rw [show c.socket = some t from ht] at hs
    cases hs
    exact ⟨hq, hopen⟩

theorem Ordered.handleEncrypted (env : Env) (cert : Option Certificate)
    {c : Client} {s : Socket} (h : Ordered c) (hs : c.socket = some s)
    (hnot : ¬ c.owes s) (hssl : s.ssl = true) (hann : s.announced = true)
    (hq : sentKinds (c.exchange s.id) = [])
    (hopen : s.isOpen = true → c.exchange s.id = []) :
    Ordered (c.handleEncrypted env cert) := by
  cases cert with
  | none => exact h.fail _
  | some cert =>
      simp only [Client.handleEncrypted]
      split
      · have hsame (k : Nat) : (c.emit (.peerCertVerifiedByPin
            (Client.summarize env cert).fingerprintSha256)).exchange k =
            c.exchange k := Client.exchange_signal _ rfl
        have hsig := h.calm (Moves.emit c (.peerCertVerifiedByPin
          (Client.summarize env cert).fingerprintSha256)) hsame (Or.inl rfl)
        exact hsig.handleConnected env hs hnot (by rw [hsame]; exact hq)
          fun ho => by rw [hsame]; exact hopen ho
      · exact (h.prompt hs hssl hann hq hopen _).calm (Moves.emit _ _)
          (fun k => Client.exchange_signal _ rfl) (Or.inl rfl)

theorem Ordered.trustPendingPeerCert (env : Env) {c : Client}
    (h : Ordered c) : Ordered (c.trustPendingPeerCert env) := by
  rw [Client.trustPendingPeerCert]
  split
  · exact h
  · next hask =>
      simp only [Bool.or_eq_true, Bool.not_eq_true', not_or,
        Bool.not_eq_false] at hask
      obtain ⟨hssl, hawait⟩ := hask
      obtain ⟨s, hs⟩ : ∃ s, c.socket = some s := by
        rw [Client.hasSslSocket] at hssl
        cases hs : c.socket with
        | none => rw [hs] at hssl; cases hssl
        | some s => exact ⟨s, rfl⟩
      obtain ⟨hssl, hann⟩ := h.wired.trust hawait s hs
      obtain ⟨hq, hopen⟩ := h.spoken.owing s hs (Or.inr (Or.inl hawait))
      refine Ordered.handleConnected env (s := s) ⟨⟨h.wired.ids,
        h.wired.postedIds, h.wired.postedOnce, h.wired.direct, ?_⟩,
        ⟨h.spoken.user, h.spoken.fresh, ?_, h.spoken.scripted,
        h.spoken.underway, h.spoken.done⟩⟩ hs ?_ hq hopen
      · intro ha
        cases ha
      · intro t ht _
        exact h.spoken.owing t ht (Or.inr (Or.inl hawait))
      · rintro (⟨ha, -⟩ | ha | hp)
        · rw [hann] at ha; cases ha
        · cases ha
        · have := (h.wired.direct s hs hp).2
          rw [hssl] at this
          cases this

theorem Ordered.postedHandleConnected (env : Env) {c : Client} {k : Nat}
    {rest : List Nat} (h : Ordered c) (hp : c.posted = k :: rest)
    (hk : c.socketId = some k) :
    Ordered (({ c with posted := rest } : Client).handleConnected env) := by
  obtain ⟨s, hs, hid⟩ : ∃ s, c.socket = some s ∧ s.id = k := by
    simpa [Client.socketId] using hk
  have hmem : s.id ∈ c.posted := by
    rw [hp, hid]
    exact List.mem_cons_self
  have honce := h.wired.postedOnce
  rw [hp] at honce
  obtain ⟨had, hssl⟩ := h.wired.direct s hs hmem
  obtain ⟨hq, hopen⟩ := h.spoken.owing s hs (Or.inr (Or.inr hmem))
  have hsub : ∀ {i}, i ∈ rest → i ∈ c.posted := by
    intro i hi
    rw [hp]
    exact List.mem_cons_of_mem _ hi
  refine Ordered.handleConnected env (s := s) ⟨⟨h.wired.ids,
    fun i hi => h.wired.postedIds i (hsub hi), (List.nodup_cons.mp honce).2,
    fun t ht hi => h.wired.direct t ht (hsub hi), h.wired.trust⟩,
    ⟨h.spoken.user, h.spoken.fresh, ?_, h.spoken.scripted, h.spoken.underway,
      h.spoken.done⟩⟩ hs ?_ hq hopen
  · intro t ht ho
    refine h.spoken.owing t ht ?_
    rcases ho with ho | ho | ho
    · exact Or.inl ho
    · exact Or.inr (Or.inl ho)
    · exact Or.inr (Or.inr (hsub ho))
  · rintro (⟨-, ha⟩ | ha | hi)
    · rcases ha with ha | ha
      · rw [hssl] at ha; cases ha
      · rw [had] at ha; cases ha
    · have := (h.wired.trust ha s hs).1
      rw [hssl] at this
      cases this
    · rw [hid] at hi
      exact (List.nodup_cons.mp honce).1 hi

/-- The socket behind a `connected` or `encrypted` that counts. -/
theorem Client.announces_socket {c : Client} {ssl : Bool}
    (h : c.announces ssl = true) : ∃ s, c.socket = some s ∧
      s.announced = false ∧ s.ssl = ssl ∧ (ssl = true ∨ s.adopted = false) := by
  rw [Client.announces] at h
  split at h
  · cases h
  · next s hs =>
      simp only [Bool.and_eq_true, Bool.not_eq_true', beq_iff_eq,
        Bool.or_eq_true] at h
      exact ⟨s, hs, h.1.1.2, h.1.2, h.2⟩

theorem Ordered.handle {env : Env} {past : List (Client × Event)}
    {c : Client} (h : Ordered c) {e : Event} (hok : InTurn env past c e) :
    Ordered (c.handle env e) := by
  cases e with
  | setProtocol p =>
      rcases hok with hp | hu
      · rw [hp]
        exact h
      · have hnot : ¬ c.state.underway = true := by simp [hu]
        exact ⟨⟨h.wired.ids, h.wired.postedIds, h.wired.postedOnce,
          h.wired.direct, h.wired.trust⟩, ⟨h.spoken.user, h.spoken.fresh,
          h.spoken.owing, h.spoken.scripted, fun hu' => absurd hu' hnot,
          h.spoken.done⟩⟩
  | setCredentials user pass =>
      exact ⟨⟨h.wired.ids, h.wired.postedIds, h.wired.postedOnce,
        h.wired.direct, h.wired.trust⟩, ⟨hok, h.spoken.fresh, h.spoken.owing,
        h.spoken.scripted, h.spoken.underway, h.spoken.done⟩⟩
  | setAuthUri uri | setTls enabled | setTrustedFingerprints fps
  | setTunnelOpener present =>
      exact h.calm ⟨rfl, rfl, rfl, rfl, rfl, Or.inl rfl⟩ (fun _ => rfl)
        (Or.inl rfl)
  | connectTo host port => exact h.connectTo host port
  | connectViaSocketDescriptor accepted =>
      exact h.connectViaSocketDescriptor env accepted
  | disconnectFromHost => exact h.setState rfl (by simp)
  | trustPendingPeerCert => exact h.trustPendingPeerCert env
  | writeRaw bytes =>
      refine h.calm (Moves.socketWrite env _ c)
        (fun k => Client.exchange_writeRaw env bytes c k) (Or.inl ?_)
      simp only [Client.handle, Client.writeRaw, Client.socketWrite]
      split <;> rfl
  | tunnelDone i fd error => exact h.tunnelDone env i fd error
  | postedHandleConnected =>
      simp only [Client.handle]
      split
      · exact h
      · next k rest hp =>
          exact h.postedHandleConnected env hp (hok k (by rw [hp]; rfl))
  | connected =>
      simp only [Client.handle]
      split
      · next ha =>
          obtain ⟨s, hs, hann, hssl, had⟩ := Client.announces_socket ha
          have had : s.adopted = false := by simpa using had
          obtain ⟨hc, hnot⟩ := h.announce hs hann (Or.inl had)
          obtain ⟨hq, hopen⟩ :=
            h.spoken.owing s hs (Or.inl ⟨hann, Or.inr had⟩)
          refine hc.handleConnected env ?_ hnot hq hopen
          rw [Client.announce, hs]
          rfl
      · exact h
  | encrypted cert =>
      simp only [Client.handle]
      split
      · next ha =>
          obtain ⟨s, hs, hann, hssl, -⟩ := Client.announces_socket ha
          obtain ⟨hc, hnot⟩ := h.announce hs hann (Or.inr hssl)
          obtain ⟨hq, hopen⟩ :=
            h.spoken.owing s hs (Or.inl ⟨hann, Or.inl hssl⟩)
          refine hc.handleEncrypted env cert ?_ hnot hssl rfl hq hopen
          rw [Client.announce, hs]
          rfl
      · exact h
  | readyRead chunk =>
      simp only [Client.handle]
      split
      · next hl => exact h.handleReadyRead env hl (hok hl)
      · exact h
  | errorOccurred remoteHostClosed errorString =>
      simp only [Client.handle]
      split
      · exact h.handleSocketError _ _
      · exact h

/-- On every socket the handshake frames are a prefix of the script, and an
authenticated client has walked the whole diagram on the socket it has. -/
def HandshakeInOrder (c : Client) : Prop :=
  (∀ k, ∃ p, sentKinds (c.exchange k) <+: script p) ∧
    (c.state = .authenticated → ∃ s p, c.socket = some s ∧
      Reaches p .authenticated (c.exchange s.id))

/-- A fresh client with a user to authenticate, in a run whose frames come in
turn. -/
theorem handshake_order (env : Env) (user : Bytes) (es : List Event)
    (hu : user ≠ [])
    (hg : Guarded (Client.handle env) (InTurn env) { user := user } es) :
    HandshakeInOrder (run (Client.handle env) { user := user } es) := by
  have hinit : Ordered { user := user } := by
    refine ⟨⟨?_, by simp, by simp, ?_, ?_⟩,
      ⟨hu, fun _ _ => rfl, ?_, fun _ => ⟨.sol, List.nil_prefix⟩, ?_, ?_⟩⟩
    · intro s hs; cases hs
    · intro s hs; cases hs
    · intro _ s hs; cases hs
    · intro s hs; cases hs
    · intro h; cases h
    · intro h; cases h
  have hend := hg.invariant Ordered (fun _ _ _ h hok => h.handle hok) hinit
  exact ⟨hend.spoken.scripted, hend.spoken.done⟩

/-! ## A device that says it twice -/

def handshakeAccepted : Bytes := [0x14, 0, 0, 0, 4, 0, 0, 0, 0]

def kvmStartedReply : Bytes := [0x41, 0, 0, 0, 0, 0, 0, 0]

def kvmConnected : List Event :=
  [.setProtocol .kvm, .connectTo "amt" 16994, .connected]

/-- The repeated `0x11` is answered: the query goes out a second time. -/
theorem handshake_out_of_order :
    ¬ HandshakeInOrder (run (Client.handle .plain) { user := [0x61] }
      (kvmConnected ++ [.readyRead (sessionStarted ++ sessionStarted)])) := by
  rintro ⟨h, -⟩
  obtain ⟨p, hp⟩ := h 0
  revert hp
  cases p <;> decide

/-- A KVM handshake, in two chunks that cut across its frames. -/
theorem handshake_in_order :
    (run (Client.handle .plain) { user := [0x61] } (kvmConnected ++
        [.readyRead (sessionStarted ++ digestOffered.take 4),
          .readyRead (digestOffered.drop 4 ++ digestChallenge),
          .readyRead (handshakeAccepted ++ kvmStartedReply)])).state =
      .authenticated ∧
    HandshakeInOrder (run (Client.handle .plain) { user := [0x61] }
      (kvmConnected ++
        [.readyRead (sessionStarted ++ digestOffered.take 4),
          .readyRead (digestOffered.drop 4 ++ digestChallenge),
          .readyRead (handshakeAccepted ++ kvmStartedReply)])) := by
  refine ⟨by decide, handshake_order .plain _ _ (by decide)
    ⟨Or.inr rfl, trivial, trivial, ?_, ?_, ?_, trivial⟩⟩ <;>
  · intro _ _
    simp only [SessionInTurn]
    decide

end QuMesh.Redir
