import QuMesh.Proofs.HandshakeOrder
import Mathlib.Logic.Relation

/-!
# What a slot of the client is made of

Every slot of `RedirectionClient` is a chain of a few moves: it goes a state
further, writes to its socket, emits, takes from its inbox, notes something,
or fails. `Turns` is such a chain, and it is proved of the slots once; what
holds of every slot is then a fact about one move.

The moves leave the socket's identity alone. The calls that change it are not
turns: `connectTo`, an accepted tunnel, and the close of the peer, which is
the one way to be `Disconnected` from inside a slot.
-/

namespace QuMesh.Redir

open QuMesh.Lib Relation

/-- The session goes on. -/
def State.onward : State → Bool
  | .disconnected | .failed => false
  | _ => true

/-- It tells of nothing that ends the session. -/
def Effect.onward : Effect → Bool
  | .stateChanged s => s.onward
  | .failed _ | .remoteClosed => false
  | _ => true

inductive Turn (env : Env) : Client → Client → Prop
  | setState (s : State) (c : Client) (h : s.onward = true) :
      Turn env c (c.setState s)
  | fail (error : String) (c : Client) : Turn env c (c.fail error)
  | write (frame : Frame) (c : Client) : Turn env c (c.socketWrite env frame).1
  | emit (e : Effect) (c : Client) (h : e.onward = true) : Turn env c (c.emit e)
  | consume (n : Nat) (frame : Received) (c : Client) :
      Turn env c (c.consume n frame)
  | inbox (bytes : Bytes) (c : Client) : Turn env c { c with inbox := bytes }
  | started (reply : StartSessionReply) (c : Client) :
      Turn env c { c with startStatus := reply.status, oemData := reply.oemData }
  | prompt (summary : PeerCertSummary) (c : Client) :
      Turn env c { c with pendingPeerCert := summary, awaitingTrust := true }
  | trust (fps : List Bytes) (c : Client) :
      Turn env c { c with trustedFingerprints := fps, awaitingTrust := false }
  | announce (c : Client) : Turn env c c.announce
  | unpost (rest : List Nat) (c : Client) : Turn env c { c with posted := rest }

abbrev Turns (env : Env) : Client → Client → Prop := ReflTransGen (Turn env)

namespace Turns

variable {env : Env}

theorem handleConnected (c : Client) : Turns env c (c.handleConnected env) := by
  have hwrite : Turns env c (c.socketWrite env (.selector c.protocol)).1 :=
    .single (.write _ c)
  rw [Client.handleConnected]
  dsimp only
  split
  · exact hwrite.tail (.fail _ _)
  · exact hwrite.tail (.setState _ _ rfl)

theorem writeThen (frame : Frame) {next : State} (h : next.onward = true)
    (c : Client) : Turns env c (c.writeThen env frame next).1 := by
  have hwrite : Turns env c (c.socketWrite env frame).1 := .single (.write _ c)
  rw [Client.writeThen]
  dsimp only
  split
  · exact hwrite.tail (.fail _ _)
  · exact hwrite.tail (.setState _ _ h)

theorem handOver (leftover : Bytes) (c : Client) :
    Turns env c (c.handOver leftover) := by
  have hset : Turns env c (c.setState .authenticated) :=
    .single (.setState _ c rfl)
  have htold := hset.tail (.emit .authenticated _ rfl)
  rw [Client.handOver]
  split
  · exact htold
  · exact htold.tail (.emit _ _ rfl)

theorem onStartSession (reply : StartSessionReply) (c : Client) :
    Turns env c (c.onStartSession env reply).1 := by
  have hnoted : Turns env c _ := .single (.started reply c)
  rw [Client.onStartSession]
  dsimp only
  split
  · exact hnoted.tail (.fail _ _)
  · have hopened := (hnoted.tail (.emit .sessionOpened _ rfl)).tail
      (.setState .sessionOpened _ rfl)
    split
    · exact hopened
    · exact hopened.trans (writeThen _ rfl _)

theorem onAuthReply (reply : AuthReply) (c : Client) :
    Turns env c (c.onAuthReply env reply).1 := by
  rw [Client.onAuthReply]
  split
  · split
    · exact .single (.fail _ c)
    · exact writeThen _ rfl c
  · split
    · exact .single (.fail _ c)
    · exact writeThen _ rfl c
  · split
    · exact .single (.fail _ c)
    · split
      · exact writeThen _ rfl c
      · have htaken : Turns env c _ := .single (.inbox [] c)
        exact htaken.trans (handOver _ _)
  · exact .single (.fail _ c)

theorem drainStep (c : Client) : Turns env c (c.drainStep env).1 := by
  rw [Client.drainStep]
  dsimp only
  split
  · split
    · exact .refl
    · have htaken : Turns env c _ := .single (.consume c.inbox.length
        (.kvmStarted (c.inbox.take 8)) c)
      exact htaken.trans (handOver _ _)
  · split
    · split
      · exact .refl
      · next reply n _ =>
        have htaken : Turns env c _ := .single (.consume n
          (.startSession reply) c)
        exact htaken.trans (onStartSession _ _)
    · split
      · split
        · exact .refl
        · next reply n _ =>
          have htaken : Turns env c _ := .single (.consume n (.auth reply) c)
          exact htaken.trans (onAuthReply _ _)
      · exact .single (.fail _ c)

theorem drainLoop (fuel : Nat) (c : Client) :
    Turns env c (c.drainLoop env fuel) := by
  induction fuel generalizing c with
  | zero => exact .refl
  | succ fuel ih =>
      have hround : Turns env c (c.drainStep env).1 := drainStep c
      rw [Client.drainLoop]
      split
      · exact .refl
      · split
        · next d heq =>
          rw [heq] at hround
          exact hround.trans (ih d)
        · next d heq =>
          rw [heq] at hround
          exact hround

theorem handleReadyRead (chunk : Bytes) (c : Client) :
    Turns env c (c.handleReadyRead env chunk) := by
  rw [Client.handleReadyRead]
  split
  · exact .single (.emit _ c rfl)
  · have hread : Turns env c _ := .single (.inbox (c.inbox ++ chunk) c)
    exact hread.trans (drainLoop _ _)

theorem handleEncrypted (cert : Option Certificate) (c : Client) :
    Turns env c (c.handleEncrypted env cert) := by
  unfold Client.handleEncrypted
  split
  · exact .single (.fail _ c)
  · dsimp only
    split
    · exact (ReflTransGen.single (.emit (.peerCertVerifiedByPin _) c rfl)).trans
        (handleConnected _)
    · exact (ReflTransGen.single (.prompt _ c)).tail
        (.emit (.trustPromptRequired _) _ rfl)

theorem trustPendingPeerCert (c : Client) :
    Turns env c (c.trustPendingPeerCert env) := by
  rw [Client.trustPendingPeerCert]
  split
  · exact .refl
  · exact (ReflTransGen.single (.trust _ c)).trans (handleConnected _)

/-- The peer closes a session that was `Authenticated`, or the client fails. -/
theorem handleSocketError (remoteHostClosed : Bool) (error : String)
    (c : Client) :
    c.handleSocketError remoteHostClosed error =
        (c.setState .disconnected).emit .remoteClosed ∨
      Turns env c (c.handleSocketError remoteHostClosed error) := by
  rw [Client.handleSocketError]
  split
  · exact .inl rfl
  · exact .inr (.single (.fail _ c))

end Turns

/-! ## The slots -/

/-- The slots that are called from the event loop, the answer of a tunnel
apart, and the write that a session makes. -/
def Event.slot : Event → Bool
  | .postedHandleConnected | .connected | .encrypted _ | .readyRead _
  | .errorOccurred .. | .writeRaw _ => true
  | _ => false

theorem Turns.slot {env : Env} {e : Event} (he : e.slot = true) (c : Client) :
    c.handle env e = (c.setState .disconnected).emit .remoteClosed ∨
      Turns env c (c.handle env e) := by
  cases e with
  | postedHandleConnected =>
      right
      rw [Client.handle]
      split
      · exact .refl
      · exact (ReflTransGen.single (.unpost _ c)).trans (handleConnected _)
  | connected =>
      right
      rw [Client.handle]
      split
      · exact (ReflTransGen.single (.announce c)).trans (handleConnected _)
      · exact .refl
  | encrypted cert =>
      right
      rw [Client.handle]
      split
      · exact (ReflTransGen.single (.announce c)).trans (handleEncrypted _ _)
      · exact .refl
  | readyRead chunk =>
      right
      rw [Client.handle]
      split
      · exact handleReadyRead chunk c
      · exact .refl
  | errorOccurred remoteHostClosed error =>
      rw [Client.handle]
      split
      · exact handleSocketError remoteHostClosed error c
      · exact .inr .refl
  | writeRaw bytes => exact .inr (.single (.write _ c))
  | _ => cases he

/-- A client that has no socket, and no call posted, has nothing to do. -/
theorem Client.handle_idle {env : Env} {e : Event} (he : e.slot = true)
    {c : Client} (hsocket : c.socket = none) (hposted : c.posted = []) :
    c.handle env e = c := by
  cases e with
  | postedHandleConnected => rw [Client.handle, hposted]
  | connected => simp [Client.handle, announces, hsocket]
  | encrypted cert => simp [Client.handle, announces, hsocket]
  | readyRead chunk => simp [Client.handle, listening, hsocket]
  | errorOccurred => simp [Client.handle, listening, hsocket]
  | writeRaw bytes => simp [Client.handle, writeRaw, socketWrite, hsocket]
  | _ => cases he

/-! ## What is heard of a chain of moves -/

/-- From `c` to `d`: the socket is the same one, no tunnel was opened or
answered, and as long as the socket is not aborted everything that was told is
onward. -/
structure Speaks (c d : Client) : Prop where
  tunnels : d.openingTunnels = c.openingTunnels
  socket : ∀ k, d.socket = some k →
    ∃ l, c.socket = some l ∧ l.id = k.id ∧ (k.isOpen = true → l.isOpen = true)
  told : ∃ new, d.out = c.out ++ new ∧
    ((∀ e ∈ new, e.onward = true) ∨ d.aborted)

namespace Speaks

variable {env : Env} {a b c d : Client}

theorem refl (c : Client) : Speaks c c where
  tunnels := rfl
  socket k hk := ⟨k, hk, rfl, id⟩
  told := ⟨[], (List.append_nil _).symm, .inl (List.forall_mem_nil _)⟩

theorem aborted (h : Speaks c d) (hc : c.aborted) : d.aborted := by
  intro k hk
  obtain ⟨l, hl, -, hopen⟩ := h.socket k hk
  by_contra hne
  have hk : k.isOpen = true := by simpa using hne
  rw [hc l hl] at hopen
  cases hopen hk

theorem trans (h : Speaks a b) (g : Speaks b c) : Speaks a c where
  tunnels := g.tunnels.trans h.tunnels
  socket k hk := by
    obtain ⟨l, hl, hlid, hlopen⟩ := g.socket k hk
    obtain ⟨m, hm, hmid, hmopen⟩ := h.socket l hl
    exact ⟨m, hm, hmid.trans hlid, fun hk => hmopen (hlopen hk)⟩
  told := by
    obtain ⟨new, hnew, honward⟩ := h.told
    obtain ⟨new', hnew', honward'⟩ := g.told
    refine ⟨new ++ new', by rw [hnew', hnew, List.append_assoc], ?_⟩
    rcases honward with honward | haborted
    · rcases honward' with honward' | haborted
      · left
        intro e he
        rcases List.mem_append.mp he with he | he
        · exact honward e he
        · exact honward' e he
      · exact .inr haborted
    · exact .inr (g.aborted haborted)

/-- A move that leaves the socket, and what it tells. -/
theorem say (new : List Effect) (htunnels : d.openingTunnels = c.openingTunnels)
    (hsocket : d.socket = c.socket) (hout : d.out = c.out ++ new)
    (honward : ∀ e ∈ new, e.onward = true) : Speaks c d where
  tunnels := htunnels
  socket k hk := ⟨k, by rw [← hsocket, hk], rfl, id⟩
  told := ⟨new, hout, .inl honward⟩

theorem setState (s : State) (c : Client) (h : s.onward = true) :
    Speaks c (c.setState s) := by
  rw [Client.setState]
  split
  · exact refl c
  · refine say [.stateChanged s] rfl rfl rfl ?_
    intro e he
    rw [List.mem_singleton.mp he]
    exact h

theorem fail (error : String) (c : Client) : Speaks c (c.fail error) := by
  have hsocket : (c.fail error).socket =
      c.socket.map fun k => { k with isOpen := false } := by
    simp only [Client.fail, Client.emit, Client.setState]
    split <;> rfl
  refine ⟨?_, ?_, ?_⟩
  · simp only [Client.fail, Client.emit, Client.setState]
    split <;> rfl
  · intro k hk
    rw [hsocket] at hk
    obtain ⟨l, hl, rfl⟩ := Option.map_eq_some_iff.mp hk
    exact ⟨l, hl, rfl, fun h => by cases h⟩
  · have haborted := Client.aborted_fail c error
    simp only [Client.fail, Client.emit, Client.setState] at haborted ⊢
    split at haborted
    · next hstate =>
      rw [if_pos hstate]
      exact ⟨_, rfl, .inr haborted⟩
    · next hstate =>
      rw [if_neg hstate]
      exact ⟨_, List.append_assoc _ _ _, .inr haborted⟩

theorem socketWrite (frame : Frame) (c : Client) :
    Speaks c (c.socketWrite env frame).1 := by
  rw [Client.socketWrite]
  split
  · exact refl c
  · next k hk =>
    refine say [.wrote k.id frame _] rfl rfl rfl ?_
    intro e he
    rw [List.mem_singleton.mp he]
    rfl

theorem announce (c : Client) : Speaks c c.announce where
  tunnels := rfl
  socket k hk := by
    obtain ⟨l, hl, rfl⟩ := Option.map_eq_some_iff.mp hk
    exact ⟨l, hl, rfl, id⟩
  told := ⟨[], (List.append_nil _).symm, .inl (List.forall_mem_nil _)⟩

theorem of_turn (h : Turn env c d) : Speaks c d := by
  have hsay : ∀ e : Effect, e.onward = true → Speaks c (c.emit e) := by
    intro e he
    refine say [e] rfl rfl rfl fun x hx => ?_
    rw [List.mem_singleton.mp hx]
    exact he
  have hnote : ∀ d : Client, d.openingTunnels = c.openingTunnels →
      d.socket = c.socket → d.out = c.out → Speaks c d := by
    intro d htunnels hsocket hout
    refine say [] htunnels hsocket ?_ (List.forall_mem_nil _)
    rw [hout, List.append_nil]
  cases h with
  | setState s _ h => exact setState s c h
  | fail error => exact fail error c
  | write frame => exact socketWrite frame c
  | emit e _ h => exact hsay e h
  | consume n frame =>
      exact say [.consumed c.socketId c.state frame] rfl rfl rfl
        (by simp [Effect.onward])
  | inbox => exact hnote _ rfl rfl rfl
  | started => exact hnote _ rfl rfl rfl
  | prompt => exact hnote _ rfl rfl rfl
  | trust => exact hnote _ rfl rfl rfl
  | announce => exact announce c
  | unpost => exact hnote _ rfl rfl rfl

theorem of_turns (h : Turns env c d) : Speaks c d := by
  induction h with
  | refl => exact refl c
  | tail _ hturn ih => exact ih.trans (of_turn hturn)

end Speaks

end QuMesh.Redir
