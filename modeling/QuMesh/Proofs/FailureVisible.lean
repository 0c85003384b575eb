import QuMesh.Proofs.TransportRelease

/-!
# A failure stays visible

When the transport fails or the KVM session closes, the controller is to be
`Failed`, with the reason, until it is opened or closed again. Two calls take it
out of that state on the spot. The handler of `closed` hangs up behind setting
`Failed`, and the client, which then is `Disconnected`, tells the controller so;
only where the client was `Disconnected` already it has nothing to tell, and
where its own `failed` made the session close the controller's handler of that
comes last. And `trustPendingCert` sets `Authenticating` behind a call of the
client that may have failed.

What keeps a failure visible later is that nothing is left to speak: a client
that was told to hang up has no tunnel on the way, and its socket is closing. The
posted `handleConnected` still runs, and fails once more. The session is not to
go on, though, after it closed; where a write fails in the last round of its
handshake it does, and the controller is `Connected`.

`failure_visible` is about the runs without the three.
-/

namespace QuMesh.Redir

open QuMesh.Lib

theorem append_ne_empty {a b : String} (h : a ≠ "") : a ++ b ≠ "" :=
  fun hab => h (String.append_eq_empty_iff.mp hab).1

namespace Client

/-! ## A failure is the last word of a slot -/

/-- Nothing was said of a failure. -/
def Unfailed (c : Client) : Prop := ∀ reason, Effect.failed reason ∉ c.out

/-- What was said last is a failure, with a reason. -/
def FailsLast (c : Client) : Prop :=
  ∃ b reason, c = fail reason b ∧ reason ≠ ""

/-- A failure comes last, if there is one. -/
def Candid (c : Client) : Prop := c.Unfailed ∨ c.FailsLast

variable {env : Env} {c d : Client}

theorem Unfailed.congr (h : c.Unfailed) (hout : d.out = c.out) : d.Unfailed := by
  intro reason
  rw [hout]
  exact h reason

theorem Unfailed.emit (h : c.Unfailed) {e : Effect}
    (he : ∀ reason, e ≠ .failed reason) : (c.emit e).Unfailed := by
  intro reason hmem
  rcases List.mem_append.mp hmem with hmem | hmem
  · exact h reason hmem
  · exact he reason (List.mem_singleton.mp hmem).symm

theorem Unfailed.setState (h : c.Unfailed) (s : State) :
    (c.setState s).Unfailed := by
  rw [Client.setState]
  split
  · exact h
  · exact Unfailed.emit (h.congr rfl) fun _ => by simp

theorem Unfailed.socketWrite (h : c.Unfailed) (frame : Frame) :
    (c.socketWrite env frame).1.Unfailed := by
  rw [Client.socketWrite]
  split
  · exact h
  · exact Unfailed.emit (h.congr rfl) fun _ => by simp

theorem failsLast (c : Client) {reason : String} (h : reason ≠ "") :
    (c.fail reason).FailsLast :=
  ⟨c, reason, rfl, h⟩

theorem Unfailed.handleConnected (h : c.Unfailed) :
    (c.handleConnected env).Candid := by
  rw [Client.handleConnected]
  dsimp only
  split
  · refine .inr (failsLast _ ?_)
    exact append_ne_empty (by decide)
  · exact .inl ((h.socketWrite _).setState _)

/-- The selector is written as a whole. -/
theorem Unfailed.handleConnected_written (h : c.Unfailed)
    (hwritten : (c.socketWrite env (.selector c.protocol)).2 =
      (Frame.selector c.protocol).bytes.length) :
    (c.handleConnected env).Unfailed := by
  rw [Client.handleConnected]
  dsimp only
  rw [if_neg (not_not.mpr hwritten)]
  exact (h.socketWrite _).setState _

theorem Unfailed.handOver (h : c.Unfailed) (leftover : Bytes) :
    (c.handOver leftover).Unfailed := by
  have hdone := (h.setState .authenticated).emit 
    (e := .authenticated) fun _ => by simp
  rw [Client.handOver]
  split
  · exact hdone
  · exact hdone.emit fun _ => by simp

theorem Unfailed.tunnelDone (h : c.Unfailed) (i : Nat) (fd : Option Bool)
    (error : String) : (c.tunnelDone env i fd error).Candid := by
  rw [Client.tunnelDone]
  split
  · exact .inl h
  · dsimp only
    split
    · refine .inr (failsLast _ ?_)
      split
      · exact append_ne_empty (append_ne_empty (append_ne_empty (by decide)))
      · next hne => simpa using hne
    · next accepted =>
      rw [Client.connectViaSocketDescriptor]
      dsimp only
      split
      · exact .inr (failsLast _ (append_ne_empty (by decide)))
      · have hfresh : Unfailed (Client.freshSocket true accepted
            { c with openingTunnels := c.openingTunnels.eraseIdx i }) := h
        have hset := hfresh.setState .connecting
        split
        · exact .inl hset
        · exact .inl (hset.congr rfl)

/-! The texts. -/

theorem describe_ne_empty (st : StartSessionStatus) : describe st ≠ "" := by
  cases st with
  | other b => exact append_ne_empty (by decide)
  | _ => decide

theorem describeSocketFailure_ne_empty (closed : Bool) {text : String}
    (h : text ≠ "") (st : State) : describeSocketFailure closed text st ≠ "" := by
  unfold describeSocketFailure
  split
  · exact h
  · cases st with
    | connecting | selectorSent | sessionOpened | authQuerying
    | authChallenging | authResponding | kvmStarting =>
        exact append_ne_empty (by decide)
    | _ => exact h

variable (henv : ∀ n, env.errorString n ≠ "")

include henv

theorem Unfailed.writeThen (h : c.Unfailed) (frame : Frame) (next : State) :
    (c.writeThen env frame next).1.Candid ∧
      ((c.writeThen env frame next).2 = true →
        (c.writeThen env frame next).1.Unfailed) := by
  rw [Client.writeThen]
  dsimp only
  split
  · exact ⟨.inr (failsLast _ (henv _)), fun hgo => by cases hgo⟩
  · have hwritten : (c.socketWrite env frame).1.Unfailed := h.socketWrite frame
    have hnext := hwritten.setState next
    exact ⟨.inl hnext, fun _ => hnext⟩

theorem Unfailed.onStartSession (h : c.Unfailed) (reply : StartSessionReply) :
    (c.onStartSession env reply).1.Candid ∧
      ((c.onStartSession env reply).2 = true →
        (c.onStartSession env reply).1.Unfailed) := by
  rw [Client.onStartSession]
  dsimp only
  split
  · exact ⟨.inr (failsLast _ (describe_ne_empty reply.status)), fun hgo => by cases hgo⟩
  have hnoted : Unfailed { c with
      startStatus := reply.status, oemData := reply.oemData } := h.congr rfl
  have hopened := (hnoted.emit (e := .sessionOpened) fun _ => by simp).setState
    .sessionOpened
  split
  · exact ⟨.inl hopened, fun _ => hopened⟩
  · exact hopened.writeThen henv _ _

theorem Unfailed.onAuthReply (h : c.Unfailed) (reply : AuthReply) :
    (c.onAuthReply env reply).1.Candid ∧
      ((c.onAuthReply env reply).2 = true →
        (c.onAuthReply env reply).1.Unfailed) := by
  have hfail : ∀ reason : String, reason ≠ "" →
      (c.fail reason, false).1.Candid ∧
        ((c.fail reason, false).2 = true → (c.fail reason, false).1.Unfailed) :=
    fun reason hne => ⟨.inr (failsLast _ hne), fun hgo => by cases hgo⟩
  rw [Client.onAuthReply]
  split
  · split
    · exact hfail _ (by decide)
    · exact h.writeThen henv _ _
  · split
    · exact hfail _ (by decide)
    · exact h.writeThen henv _ _
  · split
    · exact hfail _ (append_ne_empty (append_ne_empty (by decide)))
    · split
      · exact h.writeThen henv _ _
      · have hdone := Unfailed.handOver (c := { c with inbox := [] })
          (h.congr rfl) c.inbox
        exact ⟨.inl hdone, fun hgo => by cases hgo⟩
  · exact hfail _ (append_ne_empty (by decide))

theorem Unfailed.drainStep (h : c.Unfailed) :
    (c.drainStep env).1.Candid ∧
      ((c.drainStep env).2 = true → (c.drainStep env).1.Unfailed) := by
  have hconsume : ∀ n frame, (c.consume n frame).Unfailed := fun n frame =>
    Unfailed.emit (h.congr rfl) fun _ => by simp
  rw [Client.drainStep]
  dsimp only
  split
  · split
    · exact ⟨.inl h, fun hgo => by cases hgo⟩
    · have hdone := (hconsume c.inbox.length
        (.kvmStarted (c.inbox.take 8))).handOver (c.inbox.drop 8)
      exact ⟨.inl hdone, fun hgo => by cases hgo⟩
  split
  · split
    · exact ⟨.inl h, fun hgo => by cases hgo⟩
    · exact (hconsume _ _).onStartSession henv _
  split
  · split
    · exact ⟨.inl h, fun hgo => by cases hgo⟩
    · exact (hconsume _ _).onAuthReply henv _
  · refine ⟨.inr (failsLast _ ?_), fun hgo => by cases hgo⟩
    exact append_ne_empty (append_ne_empty (append_ne_empty (by decide)))

theorem Unfailed.drainLoop (h : c.Unfailed) (fuel : Nat) :
    (c.drainLoop env fuel).Candid := by
  induction fuel generalizing c with
  | zero => exact .inl h
  | succ fuel ih =>
      obtain ⟨hcandid, hgo⟩ := h.drainStep henv
      rw [Client.drainLoop]
      split
      · exact .inl h
      · split
        · next d hd =>
          rw [hd] at hgo
          exact ih (hgo rfl)
        · next d hd =>
          rw [hd] at hcandid
          exact hcandid

/-- A slot, and the call that trusts a certificate. An error of the socket has a
text. -/
theorem Unfailed.handle (h : c.Unfailed) {e : Event} (he : e.slot = true)
    (htext : ∀ closed text, e = .errorOccurred closed text → text ≠ "") :
    (c.handle env e).Candid := by
  cases e with
  | postedHandleConnected =>
      rw [Client.handle]
      split
      · exact .inl h
      · exact Unfailed.handleConnected (h.congr rfl)
  | connected =>
      rw [Client.handle]
      split
      · exact Unfailed.handleConnected (h.congr rfl)
      · exact .inl h
  | encrypted cert =>
      rw [Client.handle]
      split
      · unfold Client.handleEncrypted
        split
        · exact .inr (failsLast _ (by decide))
        · dsimp only
          split
          · refine Unfailed.handleConnected (Unfailed.emit ?_ fun _ => by simp)
            exact h.congr rfl
          · exact .inl (Unfailed.emit (h.congr rfl) fun _ => by simp)
      · exact .inl h
  | readyRead chunk =>
      rw [Client.handle]
      split
      · rw [Client.handleReadyRead]
        split
        · exact .inl (h.emit fun _ => by simp)
        · exact Unfailed.drainLoop (c := { c with inbox := c.inbox ++ chunk })
            henv (h.congr rfl) _
      · exact .inl h
  | errorOccurred closed text =>
      have hne := htext closed text rfl
      rw [Client.handle]
      split
      · rw [Client.handleSocketError]
        split
        · exact .inl ((h.setState _).emit fun _ => by simp)
        · have hreason := describeSocketFailure_ne_empty closed hne c.state
          exact .inr (failsLast _ hreason)
      · exact .inl h
  | writeRaw bytes => exact .inl (h.socketWrite _)
  | _ => cases he

omit henv in
theorem Unfailed.trustPendingPeerCert (h : c.Unfailed) :
    (c.trustPendingPeerCert env).Candid := by
  rw [Client.trustPendingPeerCert]
  split
  · exact .inl h
  · exact Unfailed.handleConnected (h.congr rfl)

/-! ## A client that hung up -/

omit henv

/-- Nothing comes in that takes the client out of `Disconnected`. -/
def Closing (c : Client) : Event → Prop
  | .postedHandleConnected | .connected | .encrypted _ => c.listening = false
  | .readyRead chunk =>
      c.listening = false ∨ byteAt (c.inbox ++ chunk) 0 ≠ 0x11
  | _ => True

/-- A client that says nothing of a failure says nothing else that is heard. -/
def Silent (c d : Client) : Prop :=
  d.Unfailed → d.socketId = c.socketId ∧ d.state = c.state ∧
    ∀ e ∈ d.out, ∃ s frame result, e = Effect.wrote s frame result

theorem Silent.fail (b : Client) (reason : String) : Silent c (b.fail reason) :=
  fun h => absurd (List.mem_append_right _ (List.mem_singleton_self _)) (h reason)

theorem Silent.same (hout : d.out = []) (hsocket : d.socketId = c.socketId)
    (hstate : d.state = c.state) : Silent c d := by
  intro _
  refine ⟨hsocket, hstate, fun e he => ?_⟩
  rw [hout] at he
  cases he

theorem announces_listening {ssl : Bool} (h : c.listening = false) :
    c.announces ssl = false := by
  rw [announces]
  split
  · rfl
  · next k hk =>
    have hopen : k.isOpen = false := by
      rw [listening, hk] at h
      exact h
    rw [hopen]
    rfl

theorem socketWrite_closed (h : c.listening = false) (frame : Frame) :
    (c.socketWrite env frame).2 = -1 := by
  rw [socketWrite]
  split
  · rfl
  · next k hk =>
    have hopen : k.isOpen = false := by
      rw [listening, hk] at h
      exact h
    simp [hopen]

theorem Silent.handleConnected (h : d.listening = false) :
    Silent c (d.handleConnected env) := by
  have hwritten : (d.socketWrite env (.selector d.protocol)).2 = -1 :=
    socketWrite_closed h _
  rw [Client.handleConnected]
  dsimp only
  rw [if_pos (by rw [hwritten]; omega)]
  exact .fail _ _

theorem drainStep_over (hstate : c.state = .disconnected)
    (htag : byteAt c.inbox 0 ≠ 0x11) : c.drainStep env = (c, false) ∨
      ∃ (b : Client) (reason : String), c.drainStep env = (b.fail reason, false) := by
  rw [drainStep]
  dsimp only
  rw [if_neg (by simp [hstate]), if_neg htag]
  split
  · split
    · exact .inl rfl
    · next reply n _ =>
      have hover : (c.consume n (.auth reply)).state = .disconnected := hstate
      rw [onAuthReply]
      simp only [hover]
      exact .inr ⟨_, _, rfl⟩
  · exact .inr ⟨c, _, rfl⟩

theorem Silent.handleReadyRead (hout : c.out = [])
    (hstate : c.state = .disconnected) {chunk : Bytes}
    (htag : byteAt (c.inbox ++ chunk) 0 ≠ 0x11) :
    Silent c (c.handleReadyRead env chunk) := by
  have hwaits : Silent c { c with inbox := c.inbox ++ chunk } :=
    .same hout rfl rfl
  rw [Client.handleReadyRead, if_neg (by simp [hstate]), drainInbox]
  cases (Client.inbox { c with inbox := c.inbox ++ chunk }).length with
  | zero => exact hwaits
  | succ fuel =>
      rw [drainLoop]
      split
      · exact hwaits
      · rcases @drainStep_over env { c with inbox := c.inbox ++ chunk } hstate htag with
          hstay | ⟨b, reason, hfail⟩
        · rw [hstay]
          exact hwaits
        · rw [hfail]
          exact .fail b reason

theorem Silent.handle (hout : c.out = []) (hstate : c.state = .disconnected)
    {e : Event} (he : e.slot = true) (hclosing : c.Closing e) :
    Silent c (c.handle env e) := by
  have hsame : Silent c c := .same hout rfl rfl
  cases e with
  | postedHandleConnected =>
      rw [Client.handle]
      split
      · exact hsame
      · next rest _ =>
        have hlisten : Client.listening { c with posted := rest } = false :=
          hclosing
        exact .handleConnected hlisten
  | connected =>
      rw [Client.handle, announces_listening hclosing]
      exact hsame
  | encrypted cert =>
      rw [Client.handle, announces_listening hclosing]
      exact hsame
  | readyRead chunk =>
      rw [Client.handle]
      split
      · next hlisten =>
        refine .handleReadyRead hout hstate (hclosing.resolve_left ?_)
        rw [hlisten]
        decide
      · exact hsame
  | errorOccurred closed text =>
      rw [Client.handle]
      split
      · rw [handleSocketError, if_neg (by simp [hstate])]
        exact .fail _ _
      · exact hsame
  | writeRaw bytes =>
      intro _
      rw [Client.handle, Client.writeRaw, Client.socketWrite]
      split
      · exact ⟨rfl, rfl, by simp [hout]⟩
      · refine ⟨rfl, rfl, fun e he => ?_⟩
        rcases List.mem_append.mp he with he | he
        · change e ∈ c.out at he
          rw [hout] at he
          cases he
        · exact ⟨_, _, _, List.mem_singleton.mp he⟩
  | _ => cases he

end Client

end QuMesh.Redir

namespace QuMesh.App

open QuMesh.Lib
open QuMesh.Redir (Client Effect Env Frame Speaks Turns)

namespace Peer

/-- The protocol selector is written as a whole. -/
def TakesSelector (env : Env) (p : Peer) : Prop :=
  (p.client.socketWrite env (.selector p.client.protocol)).2 =
    (Frame.selector p.client.protocol).bytes.length

/-- Behind a failure the client was told to hang up, and has no tunnel on the
way. -/
structure Spent (p : Peer) : Prop where
  shut : p.shut = p.client.socketId
  state : p.client.state = .disconnected
  tunnels : p.client.openingTunnels = []

theorem Spent.disconnectFromHost {p : Peer} (h : p.client.openingTunnels = []) :
    Spent p.disconnectFromHost := by
  have hset : ∀ c : Client, (c.setState .disconnected).state = .disconnected ∧
      (c.setState .disconnected).socketId = c.socketId := by
    intro c
    rw [Client.setState]
    split
    · next hstate => exact ⟨hstate, rfl⟩
    · exact ⟨rfl, rfl⟩
  obtain ⟨hstate, hsocket⟩ := hset { p.client with out := [] }
  exact ⟨hsocket.symm, hstate, p.disconnectFromHost_tunnels.trans h⟩

end Peer

namespace Controller

variable {make : Make} {env : Env} {c d : Controller} {i : Nat} {p q : Peer}

/-! ## What is promised -/

def isFailed : Effect → Bool
  | .failed _ => true
  | _ => false

/-- The call of the `i`-th client makes it emit `failed`, and the controller
hears it. -/
def tells (i : Nat) (f : Client → Client) (c : Controller) : Bool :=
  (c.peers[i]?).any fun p =>
    p.wired && !p.destroyed && (f { p.client with out := [] }).out.any isFailed

/-- The session emits `closed` or the client `failed`. -/
def fails (env : Env) (c : Controller) : Event → Bool
  | .sessionClosed i _ => c.sessionHeard i
  | .client i e => clientTurn e && c.tells i (·.handle env e)
  | .trustPendingCert _ => decide (c.state = .awaitingTrust) &&
      c.client.any fun i => c.tells i (·.trustPendingPeerCert env)
  | _ => false

/-- `open` or `close` is called, by the user or for the tunnel. -/
def restarts (c : Controller) : Event → Bool
  | .open | .close => true
  | .ssh e => hostTurn e && c.reopens e
  | _ => false

/-- A failure was told of, and the controller was not opened or closed since. -/
def watch (env : Env) (s : Controller × Bool) (e : Event) : Controller × Bool :=
  (s.1.step KvmController env e,
    if s.1.crashed then s.2
    else if s.1.restarts e then false
    else s.2 || s.1.fails env e)

/-- The failure can be seen. -/
def Visible (c : Controller) : Prop := c.state = .failed ∧ c.lastError ≠ ""

instance (c : Controller) : Decidable (Visible c) :=
  inferInstanceAs (Decidable (_ ∧ _))

/-! ## The condition -/

/-- A session closes where its client is `Disconnected` already, and does not go
on behind a failure; the selector that waits for the trust is written. A socket
that was told to close does not announce itself, nor a session start on it. -/
def Spared (env : Env) (c : Controller) : Event → Prop
  | .sessionClosed i reason => c.sessionHeard i = true →
      reason ≠ "" ∧ ∀ p, c.peers[i]? = some p → p.client.state = .disconnected
  | .established i => c.sessionHeard i = true → c.state ≠ .failed
  | .trustPendingCert _ => c.state = .awaitingTrust →
      ∀ i p, c.client = some i → c.peers[i]? = some p → p.TakesSelector env
  | .client i e => ∀ p, c.peers[i]? = some p → p.wired = true →
      (p.shut = p.client.socketId → p.client.Closing e) ∧
        ∀ closed text, e = .errorOccurred closed text → text ≠ ""
  | _ => True

/-! ## What a signal changes -/

/-- The failure comes last, and the client is told to hang up. -/
theorem onSignal_failed (hp : c.peers[i]? = some p) (hi : c.client = some i)
    (hwired : p.wired = true) (reason : String) :
    let d := onSignal KvmController i c (.failed reason)
    d.state = .failed ∧ d.lastError = reason ∧
      d.peers[i]? = some p.disconnectFromHost := by
  have hlen := (List.getElem?_eq_some_iff.mp hp).1
  have hhang : ∀ e, (onClosed KvmController e c).peers[i]? =
      some p.disconnectFromHost := by
    intro e
    simp only [onClosed, KvmController, setState, setLastError, hi]
    rw [disconnectFromHost]
    dsimp only
    rw [hp]
    dsimp only
    split
    · exact List.getElem?_set_self hlen
    · exact List.getElem?_set_self hlen
  intro d
  have hd : d = ((onClosed KvmController reason c).setLastError reason).setState
      .failed := by
    show onSignal KvmController i c (.failed reason) = _
    rw [onSignal, hp]
    exact if_pos hwired
  rw [hd]
  exact ⟨rfl, rfl, hhang reason⟩

/-- What the session writes changes nothing. -/
theorem onSignals_wrote {es : List Effect}
    (hes : ∀ e ∈ es, ∃ s frame result, e = .wrote s frame result)
    (c : Controller) : es.foldl (onSignal KvmController i) c = c := by
  induction es with
  | nil => rfl
  | cons e es ih =>
      rw [List.forall_mem_cons] at hes
      obtain ⟨⟨s, frame, result, rfl⟩, hes⟩ := hes
      have hsame : onSignal KvmController i c (.wrote s frame result) = c := by
        rw [onSignal]
        split <;> rfl
      rw [List.foldl_cons, hsame]
      exact ih hes

theorem not_any_failed {d : Client} (h : d.Unfailed) :
    d.out.any isFailed = false := by
  rw [List.any_eq_false]
  intro e he
  cases e with
  | failed reason => exact absurd he (h reason)
  | _ => exact Bool.false_ne_true

theorem putPeer_get {j : Nat} {r : Peer} (hp : c.peers[i]? = some p)
    (h : (c.putPeer i q).peers[j]? = some r) :
    c.peers[j]? = some r ∨ (i = j ∧ r = q) := by
  have hlen := (List.getElem?_eq_some_iff.mp hp).1
  by_cases hij : i = j
  · subst hij
    rw [putPeer, List.getElem?_set_self hlen] at h
    exact .inr ⟨rfl, (Option.some.inj h).symm⟩
  · rw [putPeer, List.getElem?_set_ne hij] at h
    exact .inl h

/-- Signals of which a failure is the last. -/
theorem onSignals_failed (hp : c.peers[i]? = some p) (hi : c.client = some i)
    (hwired : p.wired = true) (es : List Effect) (reason : String) :
    ∃ q, let d := (es ++ [Effect.failed reason]).foldl (onSignal KvmController i) c
      d.state = .failed ∧ d.lastError = reason ∧
        d.peers[i]? = some (Peer.disconnectFromHost q) := by
  have hstays : Stays c (es.foldl (onSignal KvmController i) c) := .onSignals es c
  rw [List.foldl_append]
  generalize es.foldl (onSignal KvmController i) c = b at hstays ⊢
  have hlen : i < b.peers.length := by
    rw [hstays.length]
    exact (List.getElem?_eq_some_iff.mp hp).1
  have hq : b.peers[i]? = some b.peers[i] := List.getElem?_eq_getElem hlen
  have hget := congrArg (·[i]?) hstays.wired
  simp only [List.getElem?_map, hq, hp, Option.map_some] at hget
  have hqwired : b.peers[i].wired = true := (Option.some.inj hget).trans hwired
  exact ⟨_, onSignal_failed hq (hstays.client.trans hi) hqwired reason⟩

/-- A client that was given up is not heard. -/
theorem onSignal_unheard (hmute : Mute i c) (e : Effect) :
    (onSignal make i c e).state = c.state ∧
      (onSignal make i c e).lastError = c.lastError := by
  rw [onSignal]
  split
  · exact ⟨rfl, rfl⟩
  · next p hp =>
    have hwired := hmute p hp
    split <;> simp [hwired, putPeer]

theorem call_unheard (hmute : Mute i c) (f : Client → Client) :
    (c.call make i f).state = c.state ∧
      (c.call make i f).lastError = c.lastError := by
  have hfold : ∀ (es : List Effect) (c : Controller), Mute i c →
      (es.foldl (onSignal make i) c).state = c.state ∧
        (es.foldl (onSignal make i) c).lastError = c.lastError := by
    intro es
    induction es with
    | nil => exact fun _ _ => ⟨rfl, rfl⟩
    | cons e es ih =>
        intro c hmute
        obtain ⟨hstate, herror⟩ := @onSignal_unheard make c i hmute e
        obtain ⟨hstate', herror'⟩ := ih _ ((Stays.onSignal e c).mute hmute)
        exact ⟨hstate'.trans hstate, herror'.trans herror⟩
  rw [call]
  split
  · exact ⟨rfl, rfl⟩
  · next p hp =>
    split
    · exact ⟨rfl, rfl⟩
    · exact hfold _ _ (Stays.mute (Stays.putPeer hp rfl) hmute)

/-- A call reaches only the client it is made of. -/
theorem call_others (hc : c.Owned) (f : Client → Client) {j : Nat} (hij : j ≠ i) :
    (c.call make i f).peers[j]? = c.peers[j]? := by
  rw [call]
  split
  · rfl
  · next p hp =>
    split
    · rfl
    · have howned : Owned (c.putPeer i
          { p with client := f { p.client with out := [] } }) :=
        hc.stays (.putPeer hp rfl)
      have hput : (c.putPeer i { p with
          client := f { p.client with out := [] } }).peers[j]? = c.peers[j]? := by
        rw [putPeer, List.getElem?_set_ne (Ne.symm hij)]
      exact ((Calms.onSignals howned _).others j hij).trans hput

/-! ## The invariant -/

structure Watched (c : Controller) (failing : Bool) : Prop where
  owned : c.Owned
  tunnels : ∀ (i : Nat) p, c.peers[i]? = some p → p.wired = true →
    p.client.openingTunnels ≠ [] → Dialling p
  visible : failing = true → Visible c
  spent : failing = true → ∀ (i : Nat) p, c.peers[i]? = some p →
    p.wired = true → p.Spent

namespace Watched

variable {failing : Bool}

/-- A client that is wired has no tunnel on the way, or waits for it. -/
theorem dialling (h : Watched c failing) (hp : c.peers[i]? = some p)
    (hwired : p.wired = true) :
    p.client.openingTunnels = [] ∨ Dialling p := by
  by_cases hne : p.client.openingTunnels = []
  · exact .inl hne
  · exact .inr (h.tunnels i p hp hwired hne)

/-- What changes nothing of the state, the error and the clients. -/
theorem same (h : Watched c failing) (hstate : d.state = c.state)
    (herror : d.lastError = c.lastError) (hclient : d.client = c.client)
    (hpeers : d.peers = c.peers) : Watched d failing where
  owned := by
    rw [Owned, hclient, hpeers]
    exact h.owned
  tunnels := by
    rw [hpeers]
    exact h.tunnels
  visible hf := by
    rw [Visible, hstate, herror]
    exact h.visible hf
  spent := by
    rw [hpeers]
    exact h.spent

/-- A client that is asked for nothing. -/
theorem quiet (h : Watched c failing) (hp : c.peers[i]? = some p) :
    Watched (c.putPeer i { p with client := { p.client with out := [] } })
      failing := by
  refine ⟨h.owned.stays (.putPeer hp rfl), fun j q hq hwired hne => ?_,
    h.visible, fun hf j q hq hwired => ?_⟩
  · rcases putPeer_get hp hq with hq | ⟨rfl, rfl⟩
    · exact h.tunnels j q hq hwired hne
    · obtain ⟨hsocket, hposted, hlength, hstate, hstarted⟩ :=
        h.tunnels i p hp hwired hne
      exact ⟨hsocket, hposted, hlength, hstate, hstarted⟩
  · rcases putPeer_get hp hq with hq | ⟨rfl, rfl⟩
    · exact h.spent hf j q hq hwired
    · obtain ⟨hshut, hstate, htunnels⟩ := h.spent hf i p hp hwired
      exact ⟨hshut, hstate, htunnels⟩

/-- A call behind which no tunnel is on the way. A failure comes last, and behind
a failure nothing else is said that is heard. -/
structure Answers (failing : Bool) (p : Peer) (d : Client) : Prop where
  tunnels : d.openingTunnels = []
  candid : d.Candid
  silent : failing = true → Client.Silent p.client d

theorem call_wired (h : Watched c failing) {f : Client → Client}
    (hp : c.peers[i]? = some p) (hwired : p.wired = true)
    (hlive : p.destroyed = false)
    (hf : Answers failing p (f { p.client with out := [] })) :
    Watched (c.call KvmController i f)
      (failing || (f { p.client with out := [] }).out.any isFailed) := by
  have hi := h.owned i p hp hwired
  have hstays : Stays c (c.call KvmController i f) := .call f c
  have hcall : c.call KvmController i f =
      (f { p.client with out := [] }).out.foldl (onSignal KvmController i)
        (c.putPeer i { p with client := f { p.client with out := [] } }) := by
    rw [call, hp]
    exact if_neg (by rw [hlive]; decide)
  rw [hcall] at hstays ⊢
  generalize f { p.client with out := [] } = d at hf hstays ⊢
  obtain ⟨htunnels, hcandid, hsilent⟩ := hf
  have hget : (c.putPeer i { p with client := d }).peers[i]? =
      some { p with client := d } :=
    List.getElem?_set_self (List.getElem?_eq_some_iff.mp hp).1
  have howned : Owned (c.putPeer i { p with client := d }) :=
    h.owned.stays (.putPeer hp rfl)
  -- no tunnel is on the way behind the call
  have hnone : ∀ q, (d.out.foldl (onSignal KvmController i)
      (c.putPeer i { p with client := d })).peers[i]? = some q →
      q.client.openingTunnels = [] := by
    intro q hq
    obtain ⟨r, hr, -, hkept⟩ := (Calms.onSignals howned d.out).sockets q hq
    rw [hget] at hr
    cases hr
    exact hkept.trans htunnels
  have hsame : ∀ (j : Nat) q, (d.out.foldl (onSignal KvmController i)
      (c.putPeer i { p with client := d })).peers[j]? = some q →
      q.wired = true → j = i := by
    intro j q hq hqwired
    have hj := (h.owned.stays hstays) j q hq hqwired
    rw [hstays.client, hi] at hj
    exact (Option.some.inj hj).symm
  have hdialling : ∀ (j : Nat) q, (d.out.foldl (onSignal KvmController i)
      (c.putPeer i { p with client := d })).peers[j]? = some q →
      q.wired = true → q.client.openingTunnels ≠ [] → Dialling q := by
    intro j q hq hqwired hne
    obtain rfl := hsame j q hq hqwired
    exact absurd (hnone q hq) hne
  rcases hcandid with hunfailed | ⟨b, reason, rfl, hreason⟩
  · rw [not_any_failed hunfailed, Bool.or_false]
    refine ⟨h.owned.stays hstays, hdialling, fun hfailing => ?_,
      fun hfailing j q hq hqwired => ?_⟩
    · rw [onSignals_wrote (hsilent hfailing hunfailed).2.2]
      exact h.visible hfailing
    · obtain ⟨hsocket, hstate, hwrote⟩ := hsilent hfailing hunfailed
      obtain rfl := hsame j q hq hqwired
      have htunnelsq := hnone q hq
      rw [onSignals_wrote hwrote, hget] at hq
      cases hq
      obtain ⟨hshut, hover, -⟩ := h.spent hfailing j p hp hwired
      exact ⟨hshut.trans hsocket.symm, hstate.trans hover, htunnelsq⟩
  · obtain ⟨q, hstate, herror, hq⟩ :=
      onSignals_failed hget hi hwired (b.fail reason).out.dropLast reason
    have hlast : (b.fail reason).out.dropLast ++ [.failed reason] =
        (b.fail reason).out := by
      rw [Client.fail, Client.emit, List.dropLast_concat]
    rw [hlast] at hstate herror hq
    refine ⟨h.owned.stays hstays, hdialling, fun _ => ⟨hstate, ?_⟩,
      fun _ j r hr hrwired => ?_⟩
    · rw [herror]
      exact hreason
    · obtain rfl := hsame j r hr hrwired
      have hclosing := hnone r hr
      rw [hq] at hr
      cases hr
      exact .disconnectFromHost (q.disconnectFromHost_tunnels.symm.trans hclosing)

/-- A call of a client that was given up is not heard. -/
theorem call_unwired (h : Watched c failing) (f : Client → Client)
    (hmute : Mute i c) : Watched (c.call KvmController i f) failing := by
  have hstays : Stays c (c.call KvmController i f) := .call f c
  have hheard := @call_unheard KvmController c i hmute f
  have hother : ∀ (j : Nat) q, (c.call KvmController i f).peers[j]? = some q →
      q.wired = true → c.peers[j]? = some q := by
    intro j q hq hwired
    have hij : j ≠ i := by
      rintro rfl
      rw [(hstays.mute hmute) q hq] at hwired
      cases hwired
    rw [← call_others h.owned f hij]
    exact hq
  refine ⟨h.owned.stays hstays, fun j q hq hwired => ?_, fun hf => ?_,
    fun hf j q hq hwired => ?_⟩
  · exact h.tunnels j q (hother j q hq hwired) hwired
  · rw [Visible, hheard.1, hheard.2]
    exact h.visible hf
  · exact h.spent hf j q (hother j q hq hwired) hwired

/-- A call of a client, whether it is heard or not. -/
theorem call_answered (h : Watched c failing) {f : Client → Client}
    (hf : ∀ p, c.peers[i]? = some p → p.wired = true →
      f { p.client with out := [] } = { p.client with out := [] } ∨
        Answers failing p (f { p.client with out := [] })) :
    Watched (c.call KvmController i f) (failing || c.tells i f) := by
  cases hp : c.peers[i]? with
  | none =>
      rw [call, tells, hp, Option.any_none, Bool.or_false]
      exact h
  | some p =>
      cases hlive : p.destroyed with
      | true =>
          rw [call, tells, hp, Option.any_some, hlive, Bool.not_true,
            Bool.and_false, Bool.false_and, Bool.or_false]
          dsimp only
          rw [hlive]
          exact h
      | false =>
          cases hwired : p.wired with
          | false =>
              have hmute : Mute i c := by
                intro q hq
                cases hp.symm.trans hq
                exact hwired
              rw [tells, hp, Option.any_some, hwired, Bool.false_and,
                Bool.false_and, Bool.or_false]
              exact h.call_unwired f hmute
          | true =>
              have htells : c.tells i f =
                  (f { p.client with out := [] }).out.any isFailed := by
                rw [tells, hp, Option.any_some, hwired, hlive]
                rfl
              rw [htells]
              rcases hf p hp hwired with hidle | hanswers
              · have hcall : c.call KvmController i f =
                    c.putPeer i { p with client := { p.client with out := [] } } := by
                  rw [call, hp]
                  dsimp only
                  rw [hlive, if_neg Bool.false_ne_true, hidle]
                  rfl
                rw [hcall, hidle, List.any_nil, Bool.or_false]
                exact h.quiet hp
              · exact h.call_wired hp hwired hlive hanswers

/-- Where no failure was told of, it is the clients that matter. -/
theorem unfailing (howned : d.Owned)
    (htunnels : ∀ (i : Nat) p, d.peers[i]? = some p → p.wired = true →
      p.client.openingTunnels ≠ [] → Dialling p) : Watched d false where
  owned := howned
  tunnels := htunnels
  visible hf := by cases hf
  spent hf := by cases hf

theorem calm (h : Watched c failing) (hclient : d.client = c.client)
    (hpeers : d.peers = c.peers) : Watched d false := by
  refine .unfailing ?_ ?_
  · rw [Owned, hclient, hpeers]
    exact h.owned
  · rw [hpeers]
    exact h.tunnels

/-- Nor is anything to be said where no client is wired. -/
theorem of_none (howned : d.Owned) (hnone : d.client = none) :
    Watched d false := by
  refine .unfailing howned fun i p hp hwired => ?_
  rw [howned.mute hnone i p hp] at hwired
  cases hwired

/-- A failure was not told of yet. -/
theorem not_failing (h : Watched c failing) (hstate : c.state ≠ .failed) :
    failing = false := by
  cases failing with
  | false => rfl
  | true => exact absurd (h.visible rfl).1 hstate

/-! ## The events -/

theorem client_answers (henv : ∀ n, env.errorString n ≠ "")
    (h : Watched c failing) {e : Redir.Event} (he : clientTurn e = true)
    (hok : c.Spared env (.client i e)) (hp : c.peers[i]? = some p)
    (hwired : p.wired = true) :
    Client.handle env { p.client with out := [] } e = { p.client with out := [] } ∨
      Answers failing p (Client.handle env { p.client with out := [] } e) := by
  have hunfailed : Client.Unfailed { p.client with out := [] } :=
    fun reason hmem => by cases hmem
  cases hslot : e.slot with
  | true =>
      obtain ⟨hclosing, htext⟩ := hok p hp hwired
      rcases h.dialling hp hwired with htunnels | hdialling
      · refine .inr ⟨?_, hunfailed.handle henv hslot htext, fun hfailing => ?_⟩
        · rcases (Turns.slot hslot _ :
            Client.handle env { p.client with out := [] } e = _ ∨ _) with
            heq | hturns
          · rw [heq, Client.setState]
            split
            · exact htunnels
            · exact htunnels
          · exact (Speaks.of_turns hturns).tunnels.trans htunnels
        · obtain ⟨hshut, hstate, -⟩ := h.spent hfailing i p hp hwired
          have hquiet : Client.Closing { p.client with out := [] } e := by
            cases e with
            | _ => exact hclosing hshut
          exact Client.Silent.handle (c := { p.client with out := [] }) rfl
            hstate hslot hquiet
      · exact .inl (Client.handle_idle hslot hdialling.socket hdialling.posted)
  | false =>
      cases e with
      | tunnelDone k fd error =>
          rw [Client.handle]
          cases hk : p.client.openingTunnels[k]? with
          | none =>
              left
              rw [Client.tunnelDone, hk]
          | some address =>
              right
              have hne : p.client.openingTunnels ≠ [] := by
                intro hnil
                rw [hnil] at hk
                cases hk
              obtain ⟨hsocket, -, hlength, hstate, -⟩ := h.tunnels i p hp hwired hne
              refine ⟨?_, hunfailed.tunnelDone k fd error, fun hfailing => ?_⟩
              · have hlast : p.client.openingTunnels.eraseIdx k = [] := by
                  have hbound := (List.getElem?_eq_some_iff.mp hk).1
                  rw [← List.length_eq_zero_iff, List.length_eraseIdx]
                  split <;> omega
                rw [Client.tunnelDone, hk]
                obtain ⟨host, port⟩ := address
                cases fd with
                | none => exact (Speaks.fail _ _).tunnels.trans hlast
                | some accepted =>
                    cases accepted with
                    | false => exact (Speaks.fail _ _).tunnels.trans hlast
                    | true =>
                        have hadopted := adopt_quiet env (c := { p.client with
                          out := []
                          openingTunnels := p.client.openingTunnels.eraseIdx k })
                          hstate
                        exact hadopted.2.trans hlast
              · exact absurd (h.spent hfailing i p hp hwired).tunnels hne
      | postedHandleConnected | connected | encrypted | readyRead | errorOccurred
      | writeRaw => cases hslot
      | _ => cases he

/-- The selector of a client whose certificate is trusted is written. -/
theorem trust_unfailed (hok : p.TakesSelector env) :
    (Client.trustPendingPeerCert env { p.client with out := [] }).Unfailed := by
  rw [Client.trustPendingPeerCert]
  split
  · exact fun reason hmem => by cases hmem
  · refine Client.Unfailed.handleConnected_written
      (fun reason hmem => by cases hmem) ?_
    rw [Peer.TakesSelector, Client.socketWrite] at hok
    rw [Client.socketWrite]
    cases hsocket : p.client.socket with
    | none =>
        rw [hsocket] at hok
        exact hok
    | some k =>
        rw [hsocket] at hok
        exact hok

theorem trustPendingCert (h : Watched c failing) (persist : Bool)
    (hok : c.Spared env (.trustPendingCert persist)) :
    Watched (c.trustPendingCert KvmController env persist)
      (failing || c.fails env (.trustPendingCert persist)) := by
  have hidle : (c.client = none ∨ c.state ≠ .awaitingTrust) →
      Watched (c.trustPendingCert KvmController env persist)
        (failing || c.fails env (.trustPendingCert persist)) := by
    intro hno
    have hsame : c.trustPendingCert KvmController env persist = c := by
      rw [Controller.trustPendingCert]
      split
      · rfl
      · next i hi =>
        rw [hi] at hno
        exact if_pos (hno.resolve_left (by simp))
    have hnone : c.fails env (.trustPendingCert persist) = false := by
      rw [fails]
      rcases hno with hno | hno
      · rw [hno, Option.any_none, Bool.and_false]
      · rw [decide_eq_false hno, Bool.false_and]
    rw [hsame, hnone, Bool.or_false]
    exact h
  cases hi : c.client with
  | none => exact hidle (.inl hi)
  | some i =>
      by_cases hstate : c.state = .awaitingTrust
      · have hfailing : failing = false := h.not_failing (by simp [hstate])
        subst hfailing
        have hcall : Watched (c.call KvmController i (·.trustPendingPeerCert env))
            (false || c.tells i (·.trustPendingPeerCert env)) := by
          refine h.call_answered fun p hp hwired => ?_
          have hunfailed : Client.Unfailed { p.client with out := [] } :=
            fun reason hmem => by cases hmem
          rcases h.dialling hp hwired with htunnels | hdialling
          · refine .inr ⟨?_, hunfailed.trustPendingPeerCert, fun hf => by cases hf⟩
            exact (Speaks.of_turns (.trustPendingPeerCert _)).tunnels.trans htunnels
          · left
            rw [Client.trustPendingPeerCert, Client.hasSslSocket]
            simp [hdialling.socket]
        have hnone : c.fails env (.trustPendingCert persist) = false := by
          rw [fails, hi, Option.any_some, tells]
          cases hp : c.peers[i]? with
          | none => simp
          | some p =>
              have hunfailed := trust_unfailed (hok hstate i p hi hp)
              rw [Option.any_some, not_any_failed hunfailed, Bool.and_false,
                Bool.and_false]
        rcases (trustPendingCert_cases persist c :
            c.trustPendingCert KvmController env persist = c ∨ _) with
          hsame | ⟨j, hj, -, -, hpeers, hstays⟩
        · rw [hsame, hnone]
          exact h
        · rw [hnone]
          cases hi.symm.trans hj
          refine hcall.calm ?_ hpeers
          exact hstays.client.trans (Stays.call _ c).client.symm
      · exact hidle (.inr hstate)

/-- The session closes, and its client has nothing to tell of the hanging up. -/
theorem sessionClosed (h : Watched c failing) {reason : String}
    (hheard : c.sessionHeard i = true)
    (hok : c.Spared env (.sessionClosed i reason)) :
    Watched (c.onClosed KvmController reason) true := by
  obtain ⟨hreason, hover⟩ := hok hheard
  obtain ⟨p, hp, hspec⟩ := (Option.any_eq_true _ _).mp hheard
  simp only [Bool.and_eq_true] at hspec
  obtain ⟨⟨hwired, hstarted⟩, -⟩ := hspec
  have hi := h.owned i p hp hwired
  have hlen := (List.getElem?_eq_some_iff.mp hp).1
  have htunnels : p.client.openingTunnels = [] := by
    by_contra hne
    have hnot := (h.tunnels i p hp hwired hne).started
    rw [hstarted] at hnot
    cases hnot
  have hclosed : c.onClosed KvmController reason =
      ((c.setLastError reason).setState .failed).putPeer i p.disconnectFromHost := by
    simp only [onClosed, KvmController, setState, setLastError, hi]
    rw [disconnectFromHost]
    dsimp only
    rw [hp]
    dsimp only
    rw [hover p hp, hwired]
    rfl
  have hget : ∀ (j : Nat) q,
      (c.onClosed KvmController reason).peers[j]? = some q → q.wired = true →
        q = p.disconnectFromHost := by
    intro j q hq hqwired
    have hj := (h.owned.stays (.onClosed reason c)) j q hq hqwired
    rw [(Stays.onClosed reason c).client, hi] at hj
    cases hj
    rw [hclosed] at hq
    have hput : (putPeer i p.disconnectFromHost
        ((c.setLastError reason).setState .failed)).peers[i]? =
        some p.disconnectFromHost := List.getElem?_set_self hlen
    exact Option.some.inj (hq.symm.trans hput)
  have hspent := Peer.Spent.disconnectFromHost htunnels
  refine ⟨h.owned.stays (.onClosed reason c), fun j q hq hqwired hne => ?_,
    fun _ => ?_, fun _ j q hq hqwired => ?_⟩
  · rw [hget j q hq hqwired] at hne
    exact absurd hspent.tunnels hne
  · rw [hclosed]
    exact ⟨rfl, hreason⟩
  · rw [hget j q hq hqwired]
    exact hspent

/-- A client is made, and connects or asks for its tunnel. -/
theorem connectTo (howned : c.Owned) (hnone : c.client = none) (host : String)
    (port : Nat) :
    Watched (Controller.call KvmController c.peers.length (·.connectTo host port)
      { c with peers := c.peers ++ [{ client := c.newClient KvmController }],
               client := some c.peers.length, lastError := "",
               state := .connecting }) false := by
  have hget : (c.peers ++ [{ client := c.newClient KvmController }])[
      c.peers.length]? = some ({ client := c.newClient KvmController } : Peer) := by
    rw [List.getElem?_append_right (Nat.le_refl _), Nat.sub_self]
    rfl
  have hmade : Watched { c with
      peers := c.peers ++ [{ client := c.newClient KvmController }],
      client := some c.peers.length, lastError := "", state := .connecting }
      false := by
    have howned' : Owned { c with
        peers := c.peers ++ [{ client := c.newClient KvmController }],
        client := some c.peers.length, lastError := "", state := .connecting } := by
      have hnone' := howned
      rw [Owned, hnone] at hnone'
      exact hnone'.append _
    refine .unfailing howned' fun i p hp hwired hne => ?_
    have hi := howned' i p hp hwired
    cases hi
    cases hget.symm.trans hp
    exact absurd rfl hne
  cases htunnel : c.sshSession.isSome with
  | false =>
      have hconnect : Client.connectTo host port
          { c.newClient KvmController with out := [] } =
          (Client.freshSocket false true
            { c.newClient KvmController with out := [] }).setState .connecting := by
        rw [Client.connectTo, newClient, htunnel]
        rfl
      refine (hmade.call_answered fun p hp _ => .inr ?_).calm rfl rfl
      cases hget.symm.trans hp
      rw [hconnect]
      refine ⟨rfl, .inl (Client.Unfailed.setState ?_ _), fun hf => by cases hf⟩
      exact fun reason hmem => by cases hmem
  | true =>
      have hconnect : Client.connectTo host port
          { c.newClient KvmController with out := [] } =
          { c.newClient KvmController with
            state := .connecting
            openingTunnels := [(host, port)]
            out := [.stateChanged .connecting] } := by
        rw [Client.connectTo, newClient, htunnel]
        rfl
      have hstays : Stays { c with
          peers := c.peers ++ [{ client := c.newClient KvmController }],
          client := some c.peers.length, lastError := "", state := .connecting }
          (Controller.call KvmController c.peers.length (·.connectTo host port)
            { c with
              peers := c.peers ++ [{ client := c.newClient KvmController }],
              client := some c.peers.length, lastError := "",
              state := .connecting }) := .call _ _
      have howned' := hmade.owned.stays hstays
      refine .unfailing howned' fun i q hq hwired _ => ?_
      have hi := howned' i q hq hwired
      rw [hstays.client] at hi
      cases hi
      rw [call] at hq
      dsimp only at hq
      rw [hget] at hq
      dsimp only at hq
      rw [if_neg Bool.false_ne_true, hconnect] at hq
      have hself : (putPeer c.peers.length
          ({ client := { c.newClient KvmController with
              state := .connecting
              openingTunnels := [(host, port)]
              out := [.stateChanged .connecting] } } : Peer)
          { c with
            peers := c.peers ++ [{ client := c.newClient KvmController }],
            client := some c.peers.length, lastError := "",
            state := .connecting }).peers[c.peers.length]? =
          some ({ client := { c.newClient KvmController with
              state := .connecting
              openingTunnels := [(host, port)]
              out := [.stateChanged .connecting] } } : Peer) :=
        List.getElem?_set_self (by simp)
      rw [List.foldl_cons, List.foldl_nil, onSignal, hself] at hq
      dsimp only at hq
      rw [if_pos rfl] at hq
      cases hself.symm.trans hq
      exact ⟨rfl, rfl, rfl, rfl, rfl⟩

theorem teardown (h : c.Owned) (s : State) :
    Watched ((c.teardown KvmController).setState s) false := by
  obtain ⟨howned, hnone, -⟩ := teardown_spec KvmController h
  exact .of_none howned hnone

theorem openNow (h : c.Owned) : Watched (c.openNow KvmController) false := by
  obtain ⟨howned, hnone, -⟩ := teardown_spec KvmController
    (c := { c with openDeferred := false }) h
  rw [Controller.openNow]
  dsimp only
  split
  · exact .of_none howned hnone
  · split
    · exact .of_none howned hnone
    · exact connectTo howned hnone _ _

theorem «open» (h : Watched c failing) : Watched (c.open KvmController) false := by
  rw [Controller.open]
  split
  · exact h.calm rfl rfl
  · exact openNow h.owned

theorem onHostSignal (h : Watched c false) (s : HostSignal) :
    Watched (onHostSignal KvmController c s) false := by
  cases s with
  | connectedChanged =>
      rw [Controller.onHostSignal]
      split
      · have hdown : Watched { c with openDeferred := false } false :=
          h.calm rfl rfl
        exact hdown.open
      · exact h
  | _ => exact h.calm rfl rfl

/-- A turn of the host, which may open. -/
theorem ssh (h : Watched c failing) (e : World.Event) :
    Watched (c.ssh KvmController e) false := by
  rw [Controller.ssh]
  split
  · exact h.calm rfl rfl
  · next t _ =>
    have hput : Watched { c with sshHost := some (hostAfter e t) } false :=
      h.calm rfl rfl
    dsimp only
    generalize (hostAfter e t).host.out = out
    generalize { c with sshHost := some (hostAfter e t) } = b at hput ⊢
    induction out generalizing b with
    | nil => exact hput
    | cons s out ih => exact ih _ (hput.onHostSignal s)

/-- A turn of the host that does not open. -/
theorem ssh_idle (h : Watched c failing) {e : World.Event}
    (hidle : c.reopens e = false) : Watched (c.ssh KvmController e) failing := by
  rw [Controller.ssh]
  split
  · exact h
  · next t ht =>
    rw [reopens, ht, Option.any_some] at hidle
    have hput : Watched { c with sshHost := some (hostAfter e t) } failing :=
      h.same rfl rfl rfl rfl
    have hflag : { c with sshHost := some (hostAfter e t) }.openDeferred =
      c.openDeferred := rfl
    have hconnected : sshConnected { c with sshHost := some (hostAfter e t) } =
      (hostAfter e t).isConnected := rfl
    dsimp only
    generalize (hostAfter e t).host.out = out at hidle ⊢
    generalize { c with sshHost := some (hostAfter e t) } = b at hput hflag hconnected ⊢
    induction out generalizing b with
    | nil => exact hput
    | cons s out ih =>
        have hrest : (c.openDeferred && ((hostAfter e t).isConnected &&
            out.contains HostSignal.connectedChanged)) = false := by
          cases hc : out.contains HostSignal.connectedChanged with
          | false => rw [Bool.and_false, Bool.and_false]
          | true =>
              rw [List.contains_cons, hc, Bool.or_true] at hidle
              exact hidle
        have hsame : ∀ d : Controller, d = Controller.onHostSignal KvmController b s →
            d.state = b.state ∧ d.lastError = b.lastError ∧ d.client = b.client ∧
              d.peers = b.peers ∧ d.openDeferred = b.openDeferred ∧
                d.sshConnected = b.sshConnected := by
          rintro d rfl
          cases s with
          | connectedChanged =>
              have hno : (b.openDeferred && b.sshConnected) = false := by
                rw [hflag, hconnected]
                rw [List.contains_cons, beq_self_eq_true, Bool.true_or,
                  Bool.and_true] at hidle
                exact hidle
              rw [Controller.onHostSignal, hno]
              exact ⟨rfl, rfl, rfl, rfl, rfl, rfl⟩
          | _ => exact ⟨rfl, rfl, rfl, rfl, rfl, rfl⟩
        obtain ⟨hstate, herror, hclient, hpeers, hdeferred, hup⟩ := hsame _ rfl
        exact ih hrest _ (hput.same hstate herror hclient hpeers)
          (hdeferred.trans hflag) (hup.trans hconnected)

theorem setSshConfig (h : Watched c failing) (cfg : Config) :
    Watched (c.setSshConfig KvmController cfg) failing := by
  rw [Controller.setSshConfig]
  dsimp only
  split
  · have hcleared : Watched (clearSshPrompt
        { c with sshHost := some (c.sshHost.getD {}) }) failing :=
      h.same rfl rfl rfl rfl
    exact (hcleared.ssh_idle (reopens_setConfig cfg _)).same rfl rfl rfl rfl
  · have hmade : Watched { c with sshHost := some (c.sshHost.getD {}) } failing :=
      h.same rfl rfl rfl rfl
    exact (hmade.ssh_idle (reopens_setConfig cfg _)).same rfl rfl rfl rfl

theorem trustPendingSshHostKey (h : Watched c failing) (persist : Bool) :
    Watched (c.trustPendingSshHostKey KvmController persist) failing := by
  rw [Controller.trustPendingSshHostKey]
  split
  · exact h
  · have hcleared : Watched c.clearSshPrompt failing := h.same rfl rfl rfl rfl
    exact hcleared.ssh_idle (reopens_trustPendingHostKey persist _)

/-- What is wired is not destroyed. -/
theorem destroy (h : Watched c failing) (i : Nat) :
    Watched (c.handle KvmController env (.destroy i)) failing := by
  have hwas : ∀ (j : Nat) q,
      (c.handle KvmController env (.destroy i)).peers[j]? = some q →
        q.wired = true → c.peers[j]? = some q := by
    intro j q hq hwired
    rw [handle, List.getElem?_modify] at hq
    obtain ⟨p, hp, rfl⟩ := Option.map_eq_some_iff.mp hq
    rw [hp]
    split at hwired
    · next hij =>
      rw [if_pos hij]
      split at hwired
      · next hpwired => rw [if_pos hpwired]
      · next hpwired => exact absurd hwired hpwired
    · next hij => rw [if_neg hij]
  refine ⟨h.owned.stays (destroy_stays i c), fun j q hq hwired => ?_, h.visible,
    fun hf j q hq hwired => ?_⟩
  · exact h.tunnels j q (hwas j q hq hwired) hwired
  · exact h.spent hf j q (hwas j q hq hwired) hwired

/-- One event. -/
theorem watch (henv : ∀ n, env.errorString n ≠ "") (h : Watched c failing)
    {e : Event} (hok : c.Spared env e) :
    Watched (Controller.watch env (c, failing) e).1
      (Controller.watch env (c, failing) e).2 := by
  rw [Controller.watch]
  dsimp only
  rw [step]
  split
  · exact h
  · cases e with
    | «open» => exact h.open
    | close => exact .teardown h.owned _
    | ssh e =>
        rw [handle, restarts]
        cases hturn : hostTurn e with
        | false => exact (Bool.or_false failing).symm ▸ h
        | true =>
            cases hreopens : c.reopens e with
            | true => exact h.ssh e
            | false => exact (Bool.or_false failing).symm ▸ h.ssh_idle hreopens
    | setSshConfig cfg =>
        exact (Bool.or_false failing).symm ▸ h.setSshConfig cfg
    | trustPendingSshHostKey persist =>
        exact (Bool.or_false failing).symm ▸ h.trustPendingSshHostKey persist
    | trustPendingCert persist => exact h.trustPendingCert persist hok
    | client i e =>
        rw [handle, fails]
        cases hturn : clientTurn e with
        | false => exact (Bool.or_false failing).symm ▸ h
        | true =>
            have hcall : Watched (c.call KvmController i (·.handle env e))
                (failing || c.tells i (·.handle env e)) := by
              refine h.call_answered fun p hp hwired => ?_
              exact h.client_answers henv hturn hok hp hwired
            exact hcall
    | established i =>
        rw [handle]
        split
        · next hheard =>
          obtain rfl := h.not_failing (hok hheard)
          exact h.calm rfl rfl
        · exact (Bool.or_false failing).symm ▸ h
    | sessionClosed i reason =>
        rw [handle, fails]
        cases hheard : c.sessionHeard i with
        | false => exact (Bool.or_false failing).symm ▸ h
        | true => exact (Bool.or_true failing).symm ▸ h.sessionClosed hheard hok
    | destroy i => exact (Bool.or_false failing).symm ▸ h.destroy i
    | _ => exact (Bool.or_false failing).symm ▸ h.same rfl rfl rfl rfl

end Watched

/-! ## Runs -/

/-- In a run in which a session closes only where its client is `Disconnected`
already, and the rest of the condition holds, a failure stays visible until the
controller is opened or closed again. -/
theorem failure_visible (env : Env) (henv : ∀ n, env.errorString n ≠ "")
    (es : List Event)
    (h : ∀ x ∈ trail (step KvmController env) {} es, x.1.Spared env x.2) :
    ∀ early, early <+: es → (run (watch env) ({}, false) early).2 = true →
      Visible (run (step KvmController env) {} early) := by
  have hsteps : ∀ (early : List Event) (s : Controller × Bool),
      (run (watch env) s early).1 = run (step KvmController env) s.1 early := by
    intro early
    induction early with
    | nil => exact fun _ => rfl
    | cons e early ih => exact fun s => ih _
  have htrail : ∀ (es : List Event) (s : Controller × Bool),
      (∀ x ∈ trail (step KvmController env) s.1 es, x.1.Spared env x.2) →
        ∀ x ∈ trail (watch env) s es, x.1.1.Spared env x.2 := by
    intro es
    induction es with
    | nil => exact fun _ _ => List.forall_mem_nil _
    | cons e es ih =>
        intro s hs
        rw [trail_cons, List.forall_mem_cons] at hs ⊢
        exact ⟨hs.1, ih _ hs.2⟩
  have hfresh : Watched {} false := .of_none .nil rfl
  intro early hearly hf
  have hkept : Watched (run (watch env) ({}, false) early).1
      (run (watch env) ({}, false) early).2 := by
    refine @invariant_of_trail _ _ (watch env) (fun s => Watched s.1 s.2)
      (fun s e => s.1.Spared env e) (fun s e hs hok => ?_) _ es hfresh
      (htrail es _ h) early hearly
    exact hs.watch henv hok
  have hrun : Visible (run (watch env) ({}, false) early).1 := hkept.visible hf
  rw [hsteps early ({}, false)] at hrun
  exact hrun

/-- An AMT that takes what is written, up to the `n`-th time. -/
private def takes (n : Nat) : Env where
  write k bytes := if k < n then bytes.length else -1
  errorString _ := "Unknown error"
  md5Hex := id
  sha256 := id
  makeClientNonce _ := []

private theorem takes_text (n k : Nat) : (takes n).errorString k ≠ "" := by
  show "Unknown error" ≠ ""
  decide

/-- The user opens, and the connection is refused. -/
private def refused : List Event :=
  [.setHost "amt", .open, .client 0 (.errorOccurred false "Connection refused"),
    .setHost "amt2"]

theorem failure_visible_refused :
    (run (watch (takes 9)) ({}, false) refused).2 = true ∧
      ∀ early, early <+: refused →
        (run (watch (takes 9)) ({}, false) early).2 = true →
          Visible (run (step KvmController (takes 9)) {} early) := by
  refine ⟨by decide, failure_visible (takes 9) (takes_text 9) refused ?_⟩
  simp only [refused, trail_cons, trail_nil, List.forall_mem_cons]
  refine ⟨trivial, trivial, fun p _ _ => ⟨fun _ => trivial, ?_⟩, trivial, ?_⟩
  · intro closed text he
    cases he
    decide
  · exact List.forall_mem_nil _

/-- The device takes the user's name and password, and starts the stream. -/
private def streaming : List Event :=
  [.setHost "amt", .setUser [0x61], .open, .client 0 .connected,
    .client 0 (.readyRead ([0x11] ++ List.replicate 12 0)),
    .client 0 (.readyRead [0x14, 0, 0, 0, 0, 1, 0, 0, 0, 4]),
    .client 0 (.readyRead [0x14, 1, 0, 0, 4, 4, 0, 0, 0, 1, 0x72, 1, 0x6E]),
    .client 0 (.readyRead [0x14, 0, 0, 0, 4, 0, 0, 0, 0]),
    .client 0 (.readyRead ([0x41] ++ List.replicate 7 0))]

/-- A certificate waits for the user. -/
private def prompted : List Event :=
  [.setHost "amt", .setTls true, .open,
    .client 0 (.encrypted (some
      { commonNames := [], issuerNames := [], effectiveDate := [],
        expiryDate := [], der := [0x30] }))]

/-- The session refuses behind `Authenticated`, and the controller is
`Disconnected`; the selector cannot be written when the certificate is trusted,
and it is `Authenticating`; the last write of the session's handshake fails, and
it is `Connected`. -/
theorem failure_hidden :
    let refusing := streaming ++ [.sessionClosed 0 "KVM auth result failed"]
    let trusting := prompted ++ [.trustPendingCert false]
    let writing := streaming ++
      [.sessionClosed 0 "KVM write failed: ", .established 0]
    ((run (watch (takes 9)) ({}, false) refusing).2 = true ∧
      ¬ Visible (run (step KvmController (takes 9)) {} refusing)) ∧
    ((run (watch (takes 0)) ({}, false) trusting).2 = true ∧
      ¬ Visible (run (step KvmController (takes 0)) {} trusting)) ∧
    ((run (watch (takes 9)) ({}, false) writing).2 = true ∧
      ¬ Visible (run (step KvmController (takes 9)) {} writing)) :=
  ⟨⟨by decide, by decide⟩, ⟨by decide, by decide⟩,
    by decide, by decide⟩

end Controller

end QuMesh.App
