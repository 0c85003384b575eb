import QuMesh.Proofs.ReplyOutcome

/-!
# The pin in front of a WSMAN request

`WsmanClient` compares the certificate a connection presents with its pins in
one place, the slot behind `sslErrors`. A chain that verifies raises no
errors, so a certificate that a system root vouches for is never compared, and
the request goes out on a connection nobody pinned. `request_unpinned` sends
one.

`request_on_pinned` says what is left. A handshake whose errors came up ends
in a write only if the slot ignored them, and it does so for a pinned leaf
alone. What carries this from the handshake to the write is that an attempt
that can still write is the only one of its reply, and its socket is the one
`rd.socket` points to. A run can spoil it in three more ways: a pin is taken
back between the two, the endpoint leaves https while a socket is on its way,
and a reply is destroyed ahead of a queue, which starts another one twice.
-/

namespace QuMesh.Wsman

open QuMesh.Lib
open QuMesh.Redir (Certificate)

/-- Who is behind each connection: the leaf certificate it presents, and
whether its chain and its host name verify without errors. -/
structure Peers where
  leaf : Nat → Certificate
  verifies : Nat → Bool

/-- Where a request was written to: the socket and the attempt. -/
def Effect.write? : Effect → Option (Nat × Nat)
  | .wrote socket a _ _ => some (socket, a)
  | _ => none

namespace Client

def written (c : Client) : List (Nat × Nat) := c.out.filterMap Effect.write?

/-- The pins hold the leaf that connection `a` presents. -/
def Pinned (env : Env) (peers : Peers) (c : Client) (a : Nat) : Prop :=
  fingerprintFor env (peers.leaf a) ∈ c.trustedFingerprints

/-- The errors of connection `a` came up on the trail. -/
def CheckedOn (past : List (Client × Event)) (a : Nat) : Prop :=
  ∃ p ∈ past, p.1.reached a .handshaking = true ∧
    ∃ chain, p.2 = .sslErrors a chain

/-- The slot asked the user about connection `a`. -/
def PromptedOn (env : Env) (peers : Peers) (past : List (Client × Event))
    (a : Nat) : Prop :=
  ∃ p ∈ past, ∃ chain, p.2 = .sslErrors a chain ∧ ∃ s : Redir.PeerCertSummary,
    s.fingerprintSha256 = fingerprintFor env (peers.leaf a) ∧
      (p.1.handle env p.2).out = p.1.out ++ [.trustPromptRequired s]

/-- What `QSslSocket` does: `sslErrors` comes up where verification found
errors, with the chain the connection presented, and `encrypted` where it
found none or they were ignored. -/
def Obeys (peers : Peers) (past : List (Client × Event)) (c : Client) :
    Event → Prop
  | .sslErrors a chain =>
      c.reached a .handshaking = true →
        peers.verifies a = false ∧ ∀ leaf ∈ chain.head?, leaf = peers.leaf a
  | .encrypted a =>
      c.reached a .handshaking = true →
        peers.verifies a = true ∨ CheckedOn past a
  | _ => True

/-- A handshake that comes to its end: its errors came up, or it got by for a
request that is still waiting. -/
def Concluded (c : Client) (a : Nat) : Event → Prop
  | .sslErrors b chain =>
      b = a ∧ c.reached a .handshaking = true ∧ chain ≠ []
  | .encrypted b =>
      b = a ∧ c.reached a .handshaking = true ∧
        (c.attempts a).refused = false ∧
          (c.replies (c.attempts a).reply).finished = false
  | _ => False

/-- What the pins promise of an event: a request for an https endpoint goes to
a connection whose leaf is pinned, and a first attempt that meets another one
asks. -/
structure Gated (env : Env) (peers : Peers) (past : List (Client × Event))
    (c : Client) (e : Event) : Prop where
  writes : ∃ new, (c.handle env e).written = c.written ++ new ∧
    ∀ p ∈ new, (c.attempts p.2).tls = true → c.Pinned env peers p.1
  prompts : ∀ a, c.Concluded a e → (c.attempts a).tls = true →
    (c.attempts a).auth = none → ¬ c.Pinned env peers a →
      PromptedOn env peers (past ++ [(c, e)]) a

/-- The condition: a connection that verifies is one that is pinned, a pin
stays while its handshake has not led to the write, the endpoint stays https
while a socket for it is on its way, and a reply in flight is destroyed only
while the queue is empty. -/
def PinsFirst (env : Env) (peers : Peers) (c : Client) : Event → Prop
  | .encrypted a =>
      c.reached a .handshaking = true → (c.attempts a).tls = true →
        peers.verifies a = true → c.Pinned env peers a
  | .setTrustedFingerprints fps =>
      ∀ a, (c.attempts a).stage = .handshaking ∨ (c.attempts a).stage = .posted →
        c.Pinned env peers a → fingerprintFor env (peers.leaf a) ∈ fps
  | .setEndpoint endpoint =>
      ∀ a, (c.attempts a).stage = .opening → (c.attempts a).tls = true →
        endpoint.https = true
  | e => c.SparesQueue e

/-! ## Attempts that can still write -/

/-- An attempt whose request is still to be written. -/
def CanWrite (c : Client) (a : Nat) : Prop :=
  (c.attempts a).stage ≠ .settled ∧
    (c.replies (c.attempts a).reply).live = true

/-- What the gate goes by of an attempt and of its reply. -/
structure Passage where
  tls : Bool
  stage : Stage
  refused : Bool
  socket : Option Nat
  state : ReplyState

def passageOf (t : Attempt) (rd : Reply) : Passage :=
  { tls := t.tls
    stage := t.stage
    refused := t.refused
    socket := rd.socket
    state := rd.state }

def passage (c : Client) (a : Nat) : Passage :=
  passageOf (c.attempts a) (c.replies (c.attempts a).reply)

/-- The states in which a reply waits for its socket. -/
def awaitsSocket : ReplyState → Bool
  | .connecting | .tlsHandshaking => true
  | _ => false

/-- What holds of attempt `a` as long as it can write. -/
structure Passage.Sound (env : Env) (peers : Peers) (past : List (Client × Event))
    (c : Client) (a : Nat) (v : Passage) : Prop where
  waits : awaitsSocket v.state = true
  socket : v.stage ≠ .opening → v.socket = some a
  scheme : v.stage = .opening → v.tls = true → c.endpoint.https = true
  unchecked : v.stage = .opening ∨ v.stage = .connecting → ¬ CheckedOn past a
  checked : v.stage = .handshaking → CheckedOn past a →
    v.refused = true ∨ c.Pinned env peers a
  posted : v.stage = .posted → v.tls = true → c.Pinned env peers a

/-- The socket of a first attempt on TLS has the slot on its `sslErrors`. -/
def ChecksPeer (c : Client) (a : Nat) : Prop :=
  (c.attempts a).stage ≠ .opening → (c.attempts a).stage ≠ .settled →
    (c.attempts a).tls = true → (c.attempts a).auth = none →
      (c.attempts a).checksPeer = true

structure Gate (env : Env) (peers : Peers) (past : List (Client × Event))
    (c : Client) : Prop where
  sound : ∀ a, c.CanWrite a → (c.passage a).Sound env peers past c a
  alone : ∀ a b, c.CanWrite a → c.CanWrite b →
    (c.attempts a).reply = (c.attempts b).reply → a = b
  opened : ∀ a, (c.attempts a).stage ≠ .settled → a < c.nextAttempt
  begun : ∀ a < c.nextAttempt, (c.attempts a).reply ∈ c.started
  checks : ∀ a, c.ChecksPeer a
  past : ∀ a, CheckedOn past a → a < c.nextAttempt

variable {c c' c'' : Client}

/-! ## Operations the gate does not notice -/

/-- Nothing is written, and of an attempt that can still write nothing
changes. -/
structure Unnoticed (c c' : Client) : Prop where
  written : c'.written = c.written
  trusted : c'.trustedFingerprints = c.trustedFingerprints
  endpoint : c'.endpoint = c.endpoint
  started : c'.started = c.started
  queue : c'.pendingQueue = c.pendingQueue
  issued : c'.nextAttempt = c.nextAttempt
  owner : ∀ a, (c'.attempts a).reply = (c.attempts a).reply
  stage : ∀ a, (c'.attempts a).stage ≠ .settled → (c.attempts a).stage ≠ .settled
  checks : ∀ a, c.ChecksPeer a → c'.ChecksPeer a
  passage : ∀ a, c'.CanWrite a → c.CanWrite a ∧ c'.passage a = c.passage a

namespace Unnoticed

theorem refl (c : Client) : Unnoticed c c :=
  ⟨rfl, rfl, rfl, rfl, rfl, rfl, fun _ => rfl, fun _ => id, fun _ => id,
    fun _ h => ⟨h, rfl⟩⟩

theorem trans (h : Unnoticed c c') (h' : Unnoticed c' c'') :
    Unnoticed c c'' where
  written := h'.written.trans h.written
  trusted := h'.trusted.trans h.trusted
  endpoint := h'.endpoint.trans h.endpoint
  started := h'.started.trans h.started
  queue := h'.queue.trans h.queue
  issued := h'.issued.trans h.issued
  owner a := (h'.owner a).trans (h.owner a)
  stage a ha := h.stage a (h'.stage a ha)
  checks a ha := h'.checks a (h.checks a ha)
  passage a ha := by
    obtain ⟨hb, heq⟩ := h'.passage a ha
    exact ⟨(h.passage a hb).1, heq.trans (h.passage a hb).2⟩

/-- The fields the gate is read off are the ones they were. -/
theorem of_eq (hreplies : c'.replies = c.replies)
    (hattempts : c'.attempts = c.attempts)
    (hissued : c'.nextAttempt = c.nextAttempt)
    (hqueue : c'.pendingQueue = c.pendingQueue)
    (hendpoint : c'.endpoint = c.endpoint)
    (htrusted : c'.trustedFingerprints = c.trustedFingerprints)
    (hstarted : c'.started = c.started) (hwritten : c'.written = c.written) :
    Unnoticed c c' := by
  refine ⟨hwritten, htrusted, hendpoint, hstarted, hqueue, hissued,
    fun a => by rw [hattempts], fun a => by rw [hattempts]; exact id,
    fun a => by rw [ChecksPeer, ChecksPeer, hattempts]; exact id,
    fun a ha => ?_⟩
  simp only [CanWrite, Client.passage, hreplies, hattempts] at ha ⊢
  exact ⟨ha, trivial⟩

/-- What the gate holds, it still holds behind such an operation. -/
theorem gate {env : Env} {peers : Peers} {past : List (Client × Event)}
    (h : Unnoticed c c') (hg : c.Gate env peers past) :
    c'.Gate env peers past := by
  have hpinned a : c'.Pinned env peers a ↔ c.Pinned env peers a := by
    rw [Pinned, Pinned, h.trusted]
  refine ⟨fun a ha => ?_, fun a b ha hb hab => ?_, fun a ha => ?_,
    fun a ha => ?_, fun a => h.checks a (hg.checks a), fun a ha => ?_⟩
  · obtain ⟨hb, heq⟩ := h.passage a ha
    obtain ⟨h₁, h₂, h₃, h₄, h₅, h₆⟩ := hg.sound a hb
    rw [heq]
    refine ⟨h₁, h₂, ?_, h₄, ?_, ?_⟩
    · rw [h.endpoint]
      exact h₃
    · rw [hpinned]
      exact h₅
    · rw [hpinned]
      exact h₆
  · rw [h.owner, h.owner] at hab
    exact hg.alone a b (h.passage a ha).1 (h.passage b hb).1 hab
  · rw [h.issued]
    exact hg.opened a (h.stage a ha)
  · rw [h.issued] at ha
    rw [h.owner, h.started]
    exact hg.begun a ha
  · rw [h.issued]
    exact hg.past a ha

end Unnoticed

/-- No attempt of reply `r` can still write. -/
def Spent (c : Client) (r : Nat) : Prop :=
  ∀ a, c.CanWrite a → (c.attempts a).reply ≠ r

theorem Unnoticed.spent (h : Unnoticed c c') {r : Nat} (hr : c.Spent r) :
    c'.Spent r := by
  intro a ha
  rw [h.owner]
  exact hr a (h.passage a ha).1

theorem emit_unnoticed {e : Effect} (hw : e.write? = none)
    (hs : e.start = none) : Unnoticed c (c.emit e) := by
  refine .of_eq rfl rfl rfl rfl rfl rfl ?_ ?_
  · simp [started, emit, hs]
  · simp [written, emit, hw]

/-- The gate does not look at a reply that cannot write, and of another one it
looks at the socket and the state. -/
theorem withReply_unnoticed (r : Nat) (f : Reply → Reply)
    (hlive : (f (c.replies r)).live = true → (c.replies r).live = true)
    (hsame : (f (c.replies r)).live = true → c.Spent r ∨
      (f (c.replies r)).socket = (c.replies r).socket ∧
        (f (c.replies r)).state = (c.replies r).state) :
    Unnoticed c (c.withReply r f) := by
  refine ⟨rfl, rfl, rfl, rfl, rfl, rfl, fun _ => rfl, fun _ => id,
    fun _ => id, fun a ha => ?_⟩
  obtain ⟨hstage, hl⟩ := ha
  have hcan : c.CanWrite a :=
    ⟨hstage, withReply_imp (p := fun rd => rd.live = true) hlive _ hl⟩
  refine ⟨hcan, ?_⟩
  show passageOf (c.attempts a)
    ((c.withReply r f).replies (c.attempts a).reply) = _
  change ((c.withReply r f).replies (c.attempts a).reply).live = true at hl
  rw [withReply_replies] at hl ⊢
  split at hl
  · next heq =>
      rw [if_pos heq]
      rcases hsame hl with hspent | ⟨hsocket, hstate⟩
      · exact absurd heq (hspent a hcan)
      · simp only [Client.passage, passageOf, heq, hsocket, hstate]
  · next hne => rw [if_neg hne, Client.passage]

theorem withAttempt_unnoticed (a : Nat) (f : Attempt → Attempt)
    (hreply : (f (c.attempts a)).reply = (c.attempts a).reply)
    (hstage : (f (c.attempts a)).stage ≠ .settled →
      (c.attempts a).stage ≠ .settled)
    (hopening : (c.attempts a).stage = .opening →
      (f (c.attempts a)).stage = .opening)
    (hchecks : (f (c.attempts a)).tls = (c.attempts a).tls ∧
      (f (c.attempts a)).auth = (c.attempts a).auth ∧
        (f (c.attempts a)).checksPeer = (c.attempts a).checksPeer)
    (hsame : (f (c.attempts a)).stage ≠ .settled →
      (c.replies (c.attempts a).reply).live = true → ∀ rd,
        passageOf (f (c.attempts a)) rd = passageOf (c.attempts a) rd) :
    Unnoticed c (c.withAttempt a f) := by
  have howner b := withAttempt_field Attempt.reply a b f hreply
  have hstages b := withAttempt_imp (p := fun t => t.stage ≠ .settled) hstage b
  refine ⟨rfl, rfl, rfl, rfl, rfl, rfl, howner, hstages, fun b hb => ?_,
    fun b hb => ?_⟩
  · rw [ChecksPeer, withAttempt_attempts]
    split
    · next heq =>
        subst heq
        rw [hchecks.1, hchecks.2.1, hchecks.2.2]
        exact fun hne hs => hb (fun h => hne (hopening h)) (hstage hs)
    · exact hb
  obtain ⟨hs, hl⟩ := hb
  rw [howner] at hl
  refine ⟨⟨hstages b hs, hl⟩, ?_⟩
  show passageOf ((c.withAttempt a f).attempts b)
    (c.replies ((c.withAttempt a f).attempts b).reply) = _
  rw [howner, Client.passage]
  rw [withAttempt_attempts] at hs ⊢
  split at hs
  · next heq =>
      subst heq
      rw [if_pos rfl]
      exact hsame hs hl _
  · next hne => rw [if_neg hne]

theorem armTimeout_unnoticed (r : Nat) : Unnoticed c (c.armTimeout r) := by
  unfold armTimeout
  split
  · exact .refl c
  · exact withReply_unnoticed r _ id fun _ => .inr ⟨rfl, rfl⟩

theorem stopTimer_unnoticed (r : Nat) : Unnoticed c (c.stopTimer r) := by
  unfold stopTimer
  split
  · exact withReply_unnoticed r _ id fun _ => .inr ⟨rfl, rfl⟩
  · exact .refl c

theorem abortSocket_unnoticed (r : Nat) : Unnoticed c (c.abortSocket r) := by
  unfold abortSocket
  split
  · exact .refl c
  · exact withAttempt_unnoticed _ _ rfl id id ⟨rfl, rfl, rfl⟩ fun _ _ _ => rfl

theorem discardResponse_unnoticed {r : Nat} (hr : c.Spent r) :
    Unnoticed c (c.discardResponse r) := by
  have hclose := abortSocket_unnoticed (c := c) r
  unfold discardResponse
  unfold abortSocket at hclose
  exact hclose.trans
    (withReply_unnoticed r _ id fun _ => .inl (hclose.spent hr))

theorem destroy_unnoticed (r : Nat) : Unnoticed c (c.destroy r) := by
  have hdead (rd : Reply) : ({ rd with alive := false } : Reply).live ≠ true :=
    by simp [Reply.live]
  exact (abortSocket_unnoticed r).trans (withReply_unnoticed r _
    (fun h => absurd h (hdead _)) fun h => absurd h (hdead _))

theorem cacheChallenge_unnoticed (params : Headers) :
    Unnoticed c (c.cacheChallenge params) :=
  .of_eq rfl rfl rfl rfl rfl rfl rfl rfl

/-- The reply that is made has no attempts yet. -/
theorem newReply_unnoticed {env : Env} {peers : Peers}
    {past : List (Client × Event)} (hg : c.Gate env peers past)
    (hmade : ∀ r ∈ c.started, r < c.nextReply) (envelope : Bytes)
    (soapAction : Option Bytes) :
    Unnoticed c (c.newReply envelope soapAction) := by
  refine ⟨rfl, rfl, rfl, rfl, rfl, rfl, fun _ => rfl, fun _ => id,
    fun _ => id, fun a ha => ?_⟩
  by_cases heq : (c.attempts a).reply = c.nextReply
  · have hstarted := hg.begun a (hg.opened a ha.1)
    rw [heq] at hstarted
    exact absurd (hmade _ hstarted) (Nat.lt_irrefl _)
  · have hsame : (c.newReply envelope soapAction).replies
        (c.attempts a).reply = c.replies (c.attempts a).reply :=
      newReply_ne envelope soapAction heq
    refine ⟨⟨ha.1, ?_⟩, ?_⟩
    · exact hsame ▸ ha.2
    · exact congrArg (passageOf (c.attempts a)) hsame

/-! ## Opening a transport -/

/-- From `c` to `c'` the gate still holds, and nothing was written. -/
def Keeps (env : Env) (peers : Peers) (past : List (Client × Event))
    (c c' : Client) : Prop :=
  c.Gate env peers past → c'.Gate env peers past ∧ c'.written = c.written

section

variable {env : Env} {peers : Peers} {past : List (Client × Event)}

theorem Unnoticed.keeps (h : Unnoticed c c') : Keeps env peers past c c' :=
  fun hg => ⟨h.gate hg, h.written⟩

theorem Keeps.trans (h : Keeps env peers past c c')
    (h' : Keeps env peers past c' c'') : Keeps env peers past c c'' := by
  intro hg
  obtain ⟨hg', hw⟩ := h hg
  obtain ⟨hg'', hw'⟩ := h' hg'
  exact ⟨hg'', hw'.trans hw⟩

/-- A reply that was not started has no attempts. -/
theorem Gate.spent (hg : c.Gate env peers past) {r : Nat}
    (hr : r ∉ c.started) : c.Spent r := by
  intro a ha heq
  exact hr (heq ▸ hg.begun a (hg.opened a ha.1))

/-- A reply that no longer waits for its socket has none either. -/
theorem Gate.spent_of_state (hg : c.Gate env peers past) {r : Nat}
    (hr : awaitsSocket (c.replies r).state = false) : c.Spent r := by
  intro a ha heq
  have hwaits : awaitsSocket (c.replies (c.attempts a).reply).state = true :=
    (hg.sound a ha).waits
  rw [heq, hr] at hwaits
  cases hwaits

/-- A new attempt of a reply that has no other. -/
theorem newAttempt_gate (hg : c.Gate env peers past) {t : Attempt}
    (hspent : c.Spent t.reply) (hstarted : t.reply ∈ c.started)
    (hchecks : t.stage ≠ .opening → t.tls = true → t.auth = none →
      t.checksPeer = true)
    (hsound : (passageOf t (c.replies t.reply)).Sound env peers past c
      c.nextAttempt) :
    (c.newAttempt t).Gate env peers past := by
  have hnew : (c.newAttempt t).attempts c.nextAttempt = t := by
    rw [newAttempt_attempts, if_pos rfl]
  have hold {a : Nat} (ha : a ≠ c.nextAttempt) :
      (c.newAttempt t).attempts a = c.attempts a := by
    rw [newAttempt_attempts, if_neg ha]
  have hcan {a : Nat} (ha : a ≠ c.nextAttempt)
      (h : (c.newAttempt t).CanWrite a) : c.CanWrite a := by
    rw [CanWrite, hold ha] at h
    exact h
  refine ⟨fun a ha => ?_, fun a b ha hb hab => ?_, fun a ha => ?_,
    fun a ha => ?_, fun a => ?_, fun a ha => Nat.lt_succ_of_lt (hg.past a ha)⟩
  · by_cases heq : a = c.nextAttempt
    · subst heq
      rw [passage, hnew]
      obtain ⟨h₁, h₂, h₃, h₄, h₅, h₆⟩ := hsound
      exact ⟨h₁, h₂, h₃, h₄, h₅, h₆⟩
    · rw [passage, hold heq]
      obtain ⟨h₁, h₂, h₃, h₄, h₅, h₆⟩ := hg.sound a (hcan heq ha)
      exact ⟨h₁, h₂, h₃, h₄, h₅, h₆⟩
  · by_cases hae : a = c.nextAttempt <;> by_cases hbe : b = c.nextAttempt
    · rw [hae, hbe]
    · rw [hae, hnew, hold hbe] at hab
      exact absurd hab.symm (hspent b (hcan hbe hb))
    · rw [hbe, hnew, hold hae] at hab
      exact absurd hab (hspent a (hcan hae ha))
    · rw [hold hae, hold hbe] at hab
      exact hg.alone a b (hcan hae ha) (hcan hbe hb) hab
  · show a < c.nextAttempt + 1
    by_cases heq : a = c.nextAttempt
    · omega
    · rw [hold heq] at ha
      have := hg.opened a ha
      omega
  · show _ ∈ c.started
    by_cases heq : a = c.nextAttempt
    · rw [heq, hnew]
      exact hstarted
    · have hlt : a < c.nextAttempt + 1 := ha
      rw [hold heq]
      exact hg.begun a (by omega)
  · rw [ChecksPeer]
    by_cases heq : a = c.nextAttempt
    · rw [heq, hnew]
      exact fun hne _ => hchecks hne
    · rw [hold heq]
      exact hg.checks a

/-- What `openSocket` comes to: the reply is connecting, on the socket of a
new attempt or on none yet. -/
theorem openSocket_eq (r : Nat) (auth : Option DigestHeader) (c : Client) :
    ∃ (f : Reply → Reply) (t : Attempt),
      c.openSocket r auth = (c.withReply r f).newAttempt t ∧
      (∀ rd, (f rd).live = rd.live ∧ (f rd).state = .connecting) ∧
      t.reply = r ∧ t.auth = auth ∧ t.tls = c.endpoint.https ∧
      (t.stage = .opening ∨ t.stage = .connecting ∧
        t.checksPeer = c.endpoint.https ∧
        ∀ rd, (f rd).socket = some c.nextAttempt) := by
  by_cases hf : c.socketFactory = true
  · let t : Attempt :=
      { reply := r, auth, tls := c.endpoint.https, stage := .opening }
    refine ⟨fun rd => { rd with state := .connecting }, t, ?_,
      fun _ => ⟨rfl, rfl⟩, rfl, rfl, rfl, .inl rfl⟩
    simp only [openSocket, hf, if_true]
    rfl
  · let t : Attempt :=
      { reply := r, auth, tls := c.endpoint.https, stage := .connecting
        peer := some (c.endpoint.host, c.endpoint.portOr), wired := true
        checksPeer := c.endpoint.https }
    refine ⟨fun rd => { rd with
        socket := some c.nextAttempt, state := .connecting }, t, ?_,
      fun _ => ⟨rfl, rfl⟩, rfl, rfl, rfl, .inr ⟨rfl, rfl, fun _ => rfl⟩⟩
    simp only [openSocket, hf, Bool.false_eq_true, if_false,
      wireSocketHandlers, withReply, withAttempt, newAttempt,
      Function.update_self, Function.update_idem]
    rfl

/-- A socket is opened for a started reply whose attempts are all over. -/
theorem openSocket_keeps {r : Nat} (auth : Option DigestHeader)
    (hspent : c.Spent r) (hstarted : r ∈ c.started) :
    Keeps env peers past c (c.openSocket r auth) := by
  intro hg
  obtain ⟨f, t, heq, hf, hreply, hauth, htls, hstage⟩ := openSocket_eq r auth c
  have hquiet : Unnoticed c (c.withReply r f) :=
    withReply_unnoticed r f (by rw [(hf _).1]; exact id)
      fun _ => .inl hspent
  have hstate : ((c.withReply r f).replies t.reply).state = .connecting := by
    rw [withReply_replies, if_pos hreply]
    exact (hf _).2
  rw [heq]
  refine ⟨newAttempt_gate (hquiet.gate hg) ?_ ?_ (fun hne h _ => ?_) ?_,
    rfl⟩
  · rw [hreply]
    exact hquiet.spent hspent
  · rw [hreply]
    exact hstarted
  · rcases hstage with hs | ⟨-, hchecks, -⟩
    · exact absurd hs hne
    · exact hchecks.trans (htls ▸ h)
  · have hunchecked : ¬ CheckedOn past (c.withReply r f).nextAttempt :=
      fun h => Nat.lt_irrefl _ (hg.past _ h)
    refine ⟨?_, fun hne => ?_, fun _ h => ?_, fun _ => hunchecked,
      fun hs => ?_, fun hs => ?_⟩
    · show awaitsSocket ((c.withReply r f).replies t.reply).state = true
      rw [hstate]
      rfl
    · rcases hstage with hs | ⟨-, -, hsocket⟩
      · exact absurd hs hne
      · show ((c.withReply r f).replies t.reply).socket = _
        rw [withReply_replies, if_pos hreply]
        exact hsocket _
    · exact htls ▸ h
    all_goals
      change t.stage = _ at hs
      rcases hstage with h | ⟨h, -, -⟩ <;> rw [h] at hs <;> cases hs

theorem startTransport_keeps {r : Nat} (hspent : c.Spent r)
    (hstarted : r ∈ c.started) :
    Keeps env peers past c (c.startTransport r) := by
  have harm := armTimeout_unnoticed (c := c) r
  exact harm.keeps.trans (openSocket_keeps none (harm.spent hspent)
    (harm.started ▸ hstarted))

theorem retryWithDigest_keeps {r : Nat} (hspent : c.Spent r)
    (hstarted : r ∈ c.started) :
    Keeps env peers past c (c.retryWithDigest env r) := by
  have harm := armTimeout_unnoticed (c := c) r
  have hdiscard := harm.trans (discardResponse_unnoticed (harm.spent hspent))
  unfold retryWithDigest
  simp only []
  generalize (c.armTimeout r).discardResponse r = c₁ at hdiscard ⊢
  have hcount : Unnoticed c₁ { c₁ with nc := c₁.nc + 1 } :=
    .of_eq rfl rfl rfl rfl rfl rfl rfl rfl
  have hall := hdiscard.trans hcount
  refine hall.keeps.trans (openSocket_keeps _ (hall.spent hspent) ?_)
  rw [hall.started]
  exact hstarted

/-- A reply is started that was not started before. -/
theorem startNow_keeps {r : Nat} (hr : r ∉ c.started) :
    Keeps env peers past c (c.startNow env r) := by
  intro hg
  have hstarted : (c.emit (.started r)).started = c.started ++ [r] :=
    started_emit r
  have hin : r ∈ (c.emit (.started r)).started := by
    rw [hstarted]
    exact List.mem_append_right _ (List.mem_singleton_self r)
  have hspent : (c.emit (.started r)).Spent r := hg.spent hr
  have hemit : (c.emit (.started r)).Gate env peers past := by
    obtain ⟨hsound, halone, hopened, hbegun, hchecks, hpast⟩ := hg
    refine ⟨fun a ha => ?_, halone, hopened, fun a ha => ?_, hchecks, hpast⟩
    · obtain ⟨h₁, h₂, h₃, h₄, h₅, h₆⟩ := hsound a ha
      exact ⟨h₁, h₂, h₃, h₄, h₅, h₆⟩
    · rw [hstarted]
      exact List.mem_append_left _ (hbegun a ha)
  have hwritten : (c.emit (.started r)).written = c.written := by
    simp [written, emit, Effect.write?]
  have hthen : Keeps env peers past (c.emit (.started r))
      (c.startNow env r) := by
    unfold startNow
    simp only []
    split
    · exact retryWithDigest_keeps hspent hin
    · exact startTransport_keeps hspent hin
  obtain ⟨hg', hw⟩ := hthen hemit
  exact ⟨hg', hw.trans hwritten⟩

/-! ## Finishing -/

/-- Nothing that waits in the queue has been started. -/
def Unasked (c : Client) : Prop := ∀ q ∈ c.pendingQueue, q ∉ c.started

theorem Unnoticed.unasked (h : Unnoticed c c') (hq : c.Unasked) :
    c'.Unasked := by
  rw [Unasked, h.queue, h.started]
  exact hq

/-- The gate does not look at the queue. -/
theorem requeue_keeps (current : Option Nat) (queue : List Nat) :
    Keeps env peers past c
      { c with currentRequest := current, pendingQueue := queue } := by
  intro ⟨hsound, halone, hopened, hbegun, hchecks, hpast⟩
  refine ⟨⟨fun a ha => ?_, halone, hopened, hbegun, hchecks, hpast⟩, rfl⟩
  obtain ⟨h₁, h₂, h₃, h₄, h₅, h₆⟩ := hsound a ha
  exact ⟨h₁, h₂, h₃, h₄, h₅, h₆⟩

theorem drainQueue_keeps {queue : List Nat} (hq : ∀ q ∈ queue, q ∉ c.started) :
    Keeps env peers past c (c.drainQueue env queue) := by
  induction queue with
  | nil => exact requeue_keeps c.currentRequest []
  | cons next rest ih =>
      rw [List.forall_mem_cons] at hq
      rw [drainQueue]
      split
      · exact (requeue_keeps (some next) rest).trans (startNow_keeps hq.1)
      · exact ih hq.2

theorem drain_keeps (hq : c.Unasked) : Keeps env peers past c (c.drain env) :=
  (requeue_keeps none c.pendingQueue).trans (drainQueue_keeps hq)

theorem emitFinished_keeps (hq : c.Unasked) (r : Nat) (state : ReplyState)
    (errorString : String) :
    Keeps env peers past c (c.emitFinished env r state errorString) := by
  have hdone (rd : Reply) : ({ rd with
      state, errorString, finished := true } : Reply).live ≠ true := by
    simp [Reply.live]
  have hfinish := (withReply_unnoticed (c := c) r
    (fun rd => { rd with state, errorString, finished := true })
    (fun h => absurd h (hdone _)) fun h => absurd h (hdone _)).trans
      (emit_unnoticed (e := .finished r) rfl rfl)
  unfold emitFinished
  simp only []
  split
  · exact hfinish.keeps.trans (drain_keeps (hfinish.unasked hq))
  · exact hfinish.keeps

theorem finishReply_keeps (hq : c.Unasked) (r : Nat) (err : String) :
    Keeps env peers past c (c.finishReply env r err) := by
  have hstop := stopTimer_unnoticed (c := c) r
  have hthen state errorString : Keeps env peers past c
      ((c.stopTimer r).emitFinished env r state errorString) :=
    hstop.keeps.trans
      (emitFinished_keeps (hstop.unasked hq) r state errorString)
  unfold finishReply
  split
  · exact (Unnoticed.refl c).keeps
  · split <;> exact hthen _ _

theorem abort_keeps (hq : c.Unasked) (r : Nat) :
    Keeps env peers past c (c.abort env r) := by
  have habort := abortSocket_unnoticed (c := c) r
  unfold abort
  split
  · exact (Unnoticed.refl c).keeps
  · exact habort.keeps.trans (emitFinished_keeps (habort.unasked hq) r _ _)

theorem timeout_keeps (hq : c.Unasked) (r : Nat) :
    Keeps env peers past c (c.timeout env r) := by
  have hstop := stopTimer_unnoticed (c := c) r
  have habort := hstop.trans (abortSocket_unnoticed r)
  unfold timeout
  simp only []
  split
  · exact hstop.keeps
  · exact habort.keeps.trans (emitFinished_keeps (habort.unasked hq) r _ _)

theorem errorOccurred_keeps (hq : c.Unasked) (r : Nat) (errorString : String) :
    Keeps env peers past c (c.errorOccurred env r errorString) := by
  unfold errorOccurred
  split
  · exact (Unnoticed.refl c).keeps
  · split
    · exact (Unnoticed.refl c).keeps
    · exact emitFinished_keeps hq r _ _

theorem sendEnvelope_keeps
    (hmade : ∀ r ∈ c.started, r < c.nextReply) (envelope : Bytes)
    (soapAction : Option Bytes) :
    Keeps env peers past c (c.sendEnvelope env envelope soapAction) := by
  intro hg
  have hnew := newReply_unnoticed hg hmade envelope soapAction
  have hfresh : c.nextReply ∉ (c.newReply envelope soapAction).started :=
    fun h => Nat.lt_irrefl _ (hmade _ h)
  unfold sendEnvelope
  simp only []
  generalize c.newReply envelope soapAction = c₁ at hnew hfresh ⊢
  have hthen (c₂ : Client) (h : Keeps env peers past c₁ c₂) :
      c₂.Gate env peers past ∧ c₂.written = c.written :=
    hnew.keeps.trans h hg
  split
  · exact hthen _ (startNow_keeps hfresh)
  · split
    · exact hthen _ (requeue_keeps c₁.currentRequest _)
    · exact hthen _ ((requeue_keeps _ _).trans (startNow_keeps hfresh))

/-! ## Reading -/

/-- A pass over a socket whose request is not out yet only collects. -/
theorem readPass_waiting {rd : Reply} (hw : awaitsSocket rd.state = true)
    (connected : Bool) (chunk : Bytes) :
    (rd.readPass connected chunk).2 = .needMore ∧
      (rd.readPass connected chunk).1.state = rd.state := by
  have hne : rd.state ≠ .readingHeaders := by
    intro h
    rw [h] at hw
    cases hw
  obtain ⟨rest, hrest⟩ : ∃ rest, rd = { rest with state := rd.state } :=
    ⟨rd, rfl⟩
  generalize rd.state = st at hw hne hrest ⊢
  subst hrest
  rw [Reply.readPass, if_neg (fun h => hne h.2.2)]
  simp only [if_neg hne, Reply.readBody]
  cases st with
  | connecting | tlsHandshaking => exact ⟨rfl, rfl⟩
  | idle | writingRequest | readingHeaders | readingBodyContentLength
  | readingBodyChunked | done | failed => cases hw

theorem unauthorized_keeps (hq : c.Unasked) {r : Nat} (hspent : c.Spent r)
    (hstarted : r ∈ c.started) (wwwAuth : Bytes) :
    Keeps env peers past c (c.unauthorized env r wwwAuth) := by
  have hcache := cacheChallenge_unnoticed (c := c) (parseDigestChallenge wwwAuth)
  unfold unauthorized
  simp only []
  generalize c.cacheChallenge (parseDigestChallenge wwwAuth) = c₁ at hcache ⊢
  have hcount : Unnoticed c₁ (c₁.withReply r fun rd =>
      { rd with digestRetries := rd.digestRetries + 1 }) :=
    withReply_unnoticed r _ id fun _ => .inr ⟨rfl, rfl⟩
  have hfail err : Keeps env peers past c (c₁.finishReply env r err) :=
    hcache.keeps.trans (finishReply_keeps (hcache.unasked hq) r err)
  have hretry : Keeps env peers past c ((c₁.withReply r fun rd =>
      { rd with digestRetries := rd.digestRetries + 1 }).retryWithDigest env r) := by
    refine (hcache.trans hcount).keeps.trans (retryWithDigest_keeps ?_ ?_)
    · exact (hcache.trans hcount).spent hspent
    · rw [(hcache.trans hcount).started]
      exact hstarted
  split
  · exact hfail _
  · split <;> split
    · exact hfail _
    · exact hretry
    · exact hfail _
    · exact hretry

/-- The pass that a reply makes over its own socket. -/
theorem answerPass_keeps (hq : c.Unasked) {r : Nat} (hstarted : r ∈ c.started)
    (connected : Bool) (unread : Bytes) :
    Keeps env peers past c
      (c.answerPass env r ((c.replies r).readPass connected unread)) := by
  intro hg
  have hunread := Reply.readPass_unread connected unread (c.replies r)
  have hlive := Reply.live_of_unread hunread
  have hsocket : ((c.replies r).readPass connected unread).1.socket =
      (c.replies r).socket := by
    show ((c.replies r).readPass connected unread).1.unread.socket = _
    rw [hunread]
    rfl
  have hwaiting (hw : awaitsSocket (c.replies r).state = true) :=
    readPass_waiting hw connected unread
  generalize (c.replies r).readPass connected unread = p at *
  unfold answerPass
  by_cases hw : awaitsSocket (c.replies r).state = true
  · obtain ⟨hmore, hstate⟩ := hwaiting hw
    rw [hmore]
    exact (withReply_unnoticed r (fun _ => p.1) (hlive ▸ id)
      fun _ => .inr ⟨hsocket, hstate⟩).keeps hg
  · have hspent := hg.spent_of_state (eq_false_of_ne_true hw)
    have hread : Unnoticed c (c.withReply r fun _ => p.1) :=
      withReply_unnoticed r _ (hlive ▸ id) fun _ => .inl hspent
    have hq' := hread.unasked hq
    simp only []
    split
    · exact hread.keeps hg
    · exact hread.keeps.trans (finishReply_keeps hq' r _) hg
    · exact hread.keeps.trans (unauthorized_keeps hq' (hread.spent hspent)
        (hread.started.symm ▸ hstarted) _) hg

theorem readMore_keeps (hq : c.Unasked) {r : Nat} (hstarted : r ∈ c.started) :
    Keeps env peers past c (c.readMore env r) := by
  intro hg
  by_cases hf : (c.replies r).finished = true
  · rw [readMore_finished env hf]
    exact ⟨hg, rfl⟩
  cases hb : (c.replies r).socket with
  | none =>
      rw [readMore_unsocketed env hb]
      exact ⟨hg, rfl⟩
  | some b =>
      rw [readMore_eq env hb (eq_false_of_ne_true hf)]
      have hread : Unnoticed c
          (c.withAttempt b fun t => { t with unread := [] }) :=
        withAttempt_unnoticed b _ rfl id id ⟨rfl, rfl, rfl⟩ fun _ _ _ => rfl
      refine hread.keeps.trans (answerPass_keeps (hread.unasked hq) ?_ _ _) hg
      rw [hread.started]
      exact hstarted

/-! ## Connecting, and writing the request -/

/-- What happens to an attempt that can write and to its reply leaves the
other attempts as they are, since none of them has that reply. -/
theorem Gate.update (hg : c.Gate env peers past) {a : Nat} (hopen : c.CanWrite a)
    (g : Attempt → Attempt) (f : Reply → Reply)
    (hreply : (g (c.attempts a)).reply = (c.attempts a).reply)
    (hchecks : (g (c.attempts a)).stage ≠ .opening →
      (g (c.attempts a)).stage ≠ .settled → (g (c.attempts a)).tls = true →
        (g (c.attempts a)).auth = none → (g (c.attempts a)).checksPeer = true)
    (hlive : ∀ rd, (f rd).live = rd.live)
    (hself : (g (c.attempts a)).stage ≠ .settled →
      (passageOf (g (c.attempts a))
        (f (c.replies (c.attempts a).reply))).Sound env peers past c a) :
    ((c.withAttempt a g).withReply (c.attempts a).reply f).Gate env peers
      past := by
  have howner b : ((c.withAttempt a g).attempts b).reply =
      (c.attempts b).reply := withAttempt_field Attempt.reply a b g hreply
  have hstage b (hb : ((c.withAttempt a g).attempts b).stage ≠ .settled) :
      (c.attempts b).stage ≠ .settled :=
    withAttempt_imp (p := fun t => t.stage ≠ .settled) (fun _ => hopen.1) b hb
  have hcan b (hb : ((c.withAttempt a g).withReply (c.attempts a).reply
      f).CanWrite b) : c.CanWrite b := by
    obtain ⟨hs, hl⟩ := hb
    refine ⟨hstage b hs, ?_⟩
    have hfield := withReply_field (c := c) Reply.live (c.attempts a).reply
      (c.attempts b).reply f (hlive _)
    rw [← hfield, ← howner b]
    exact hl
  refine ⟨fun b hb => ?_, fun b d hb hd hbd => ?_, fun b hb => ?_,
    fun b hb => ?_, fun b => ?_, hg.past⟩
  · have hattempt := withAttempt_attempts (c := c) a b g
    have hpassage : ((c.withAttempt a g).withReply (c.attempts a).reply
        f).passage b = passageOf ((c.withAttempt a g).attempts b)
          ((c.withReply (c.attempts a).reply f).replies
            (c.attempts b).reply) := by
      rw [← howner b]
      rfl
    rw [hpassage, hattempt, withReply_replies]
    by_cases heq : b = a
    · subst heq
      rw [if_pos rfl, if_pos rfl]
      have hs := hb.1
      change ((c.withAttempt b g).attempts b).stage ≠ .settled at hs
      rw [hattempt, if_pos rfl] at hs
      obtain ⟨h₁, h₂, h₃, h₄, h₅, h₆⟩ := hself hs
      exact ⟨h₁, h₂, h₃, h₄, h₅, h₆⟩
    · have hne : (c.attempts b).reply ≠ (c.attempts a).reply :=
        fun h => heq (hg.alone b a (hcan b hb) hopen h)
      rw [if_neg heq, if_neg hne]
      obtain ⟨h₁, h₂, h₃, h₄, h₅, h₆⟩ := hg.sound b (hcan b hb)
      exact ⟨h₁, h₂, h₃, h₄, h₅, h₆⟩
  · refine hg.alone b d (hcan b hb) (hcan d hd) ?_
    rw [← howner b, ← howner d]
    exact hbd
  · exact hg.opened b (hstage b hb)
  · have hbegun := hg.begun b hb
    rw [← howner b] at hbegun
    exact hbegun
  · show (c.withAttempt a g).ChecksPeer b
    rw [ChecksPeer, withAttempt_attempts]
    split
    · exact hchecks
    · exact hg.checks b

/-- Where nothing happens to the reply. -/
theorem Gate.updateAttempt (hg : c.Gate env peers past) {a : Nat}
    (hopen : c.CanWrite a) (g : Attempt → Attempt)
    (hreply : (g (c.attempts a)).reply = (c.attempts a).reply)
    (hchecks : (g (c.attempts a)).stage ≠ .opening →
      (g (c.attempts a)).stage ≠ .settled → (g (c.attempts a)).tls = true →
        (g (c.attempts a)).auth = none → (g (c.attempts a)).checksPeer = true)
    (hself : (g (c.attempts a)).stage ≠ .settled →
      (passageOf (g (c.attempts a))
        (c.replies (c.attempts a).reply)).Sound env peers past c a) :
    (c.withAttempt a g).Gate env peers past := by
  have := hg.update hopen g id hreply hchecks (fun _ => rfl) hself
  rw [show (c.withAttempt a g).withReply (c.attempts a).reply id =
    c.withAttempt a g from withReply_self _] at this
  exact this

theorem emit_gate (hg : c.Gate env peers past) {e : Effect}
    (he : e.start = none) : (c.emit e).Gate env peers past := by
  obtain ⟨hsound, halone, hopened, hbegun, hchecks, hpast⟩ := hg
  refine ⟨fun a ha => ?_, halone, hopened, fun a ha => ?_, hchecks, hpast⟩
  · obtain ⟨h₁, h₂, h₃, h₄, h₅, h₆⟩ := hsound a ha
    exact ⟨h₁, h₂, h₃, h₄, h₅, h₆⟩
  · have hstarted : (c.emit e).started = c.started := by
      simp [started, emit, he]
    rw [hstarted]
    exact hbegun a ha

/-- From `c` to `c'` the gate holds, and attempt `a` may have written to its
own socket. -/
structure Sends (env : Env) (peers : Peers) (past : List (Client × Event))
    (a : Nat) (c c' : Client) : Prop where
  gate : c'.Gate env peers past
  written : c'.written = c.written ∨ c'.written = c.written ++ [(a, a)]

theorem writeRequestBytes_sends (hg : c.Gate env peers past) {a : Nat}
    (hopen : c.CanWrite a) :
    Sends env peers past a c (c.writeRequestBytes a a) := by
  unfold writeRequestBytes
  simp only []
  generalize hbytes : requestBytes _ _ _ _ _ _ = bytes
  let e : Effect := .wrote a a (c.attempts a).auth bytes
  refine ⟨?_, .inr ?_⟩
  · exact (emit_gate hg (e := e) rfl).update hopen
      (fun t => { t with stage := .settled })
      (fun rd => { rd with state := .readingHeaders }) rfl
      (fun _ h => absurd rfl h) (fun _ => rfl) fun h => absurd rfl h
  · show (c.emit e).written = c.written ++ [(a, a)]
    simp [written, emit, e, Effect.write?]

theorem doWrite_sends (hg : c.Gate env peers past) {a : Nat}
    (hopen : c.CanWrite a)
    (hsocket : (c.replies (c.attempts a).reply).socket = some a) :
    Sends env peers past a c (c.doWrite a) := by
  unfold doWrite
  rw [hsocket]
  exact writeRequestBytes_sends hg hopen

theorem socketReady_sends (hg : c.Gate env peers past) {a : Nat}
    (hopen : c.CanWrite a)
    (hsocket : (c.replies (c.attempts a).reply).socket = some a)
    (hunchecked : ¬ CheckedOn past a) (tls : Bool)
    (hchecks : tls = true → (c.attempts a).tls = true →
      (c.attempts a).auth = none → (c.attempts a).checksPeer = true) :
    Sends env peers past a c (c.socketReady a tls) ∧
      (tls = true → (c.socketReady a tls).written = c.written) := by
  unfold socketReady
  simp only []
  cases tls with
  | true =>
      refine ⟨⟨?_, .inl rfl⟩, fun _ => rfl⟩
      refine hg.update hopen (fun t => { t with
        stage := .handshaking, peerVerifyName := c.endpoint.host })
        (fun rd => { rd with state := .tlsHandshaking }) rfl
        (fun _ _ => hchecks rfl) (fun _ => rfl) fun _ => ?_
      refine ⟨rfl, fun _ => hsocket, fun h => ?_, fun h => ?_,
        fun _ h => absurd h hunchecked, fun h => ?_⟩
      · cases h
      · rcases h with h | h <;> cases h
      · cases h
  | false =>
      refine ⟨?_, fun h => by cases h⟩
      simp only [Bool.false_eq_true, if_false]
      split
      · exact doWrite_sends hg hopen hsocket
      · exact writeRequestBytes_sends hg hopen

theorem canWrite_of_reached {a : Nat} {stage : Stage} (hs : stage ≠ .settled)
    (hr : c.reached a stage = true)
    (hf : ¬ (c.replies (c.attempts a).reply).finished = true) :
    (c.attempts a).stage = stage ∧ c.CanWrite a := by
  rw [reached, Bool.and_eq_true, beq_iff_eq] at hr
  exact ⟨hr.1, hr.1 ▸ hs, Reply.live_of hr.2 hf⟩

theorem Sends.of_keeps {a : Nat} (h : Keeps env peers past c c')
    (hg : c.Gate env peers past) : Sends env peers past a c c' :=
  ⟨(h hg).1, .inl (h hg).2⟩

/-- A socket that has connected is ready at once. -/
theorem connectedReady_sends (hg : c.Gate env peers past) {a : Nat}
    (hopen : c.CanWrite a)
    (hsocket : (c.replies (c.attempts a).reply).socket = some a)
    (hunchecked : ¬ CheckedOn past a) (tls : Bool)
    (hchecks : tls = true → (c.attempts a).tls = true →
      (c.attempts a).auth = none → (c.attempts a).checksPeer = true) :
    Sends env peers past a c ((c.withAttempt a fun t =>
      { t with connected := true }).socketReady a tls) ∧
      (tls = true → ((c.withAttempt a fun t =>
        { t with connected := true }).socketReady a tls).written =
          c.written) := by
  have hup : Unnoticed c (c.withAttempt a fun t =>
      { t with connected := true }) :=
    withAttempt_unnoticed a _ rfl id id ⟨rfl, rfl, rfl⟩ fun _ _ _ => rfl
  have hfields : (c.withAttempt a fun t =>
      { t with connected := true }).attempts a =
        { c.attempts a with connected := true } := by
    rw [withAttempt_attempts, if_pos rfl]
  have hready := socketReady_sends (hup.gate hg) (a := a) (by rw [CanWrite, hfields]; exact hopen)
    (by rw [hfields]; exact hsocket) hunchecked tls
    (by rw [hfields]; exact hchecks)
  exact ⟨⟨hready.1.gate, hup.written ▸ hready.1.written⟩,
    fun h => (hready.2 h).trans hup.written⟩

theorem connected_sends (hg : c.Gate env peers past) {a : Nat}
    (hr : c.reached a .connecting = true) :
    Sends env peers past a c (c.connected a) ∧
      ((c.attempts a).tls = true → (c.connected a).written = c.written) := by
  have hup : Unnoticed c (c.withAttempt a fun t =>
      { t with connected := true }) :=
    withAttempt_unnoticed a _ rfl id id ⟨rfl, rfl, rfl⟩ fun _ _ _ => rfl
  unfold connected
  simp only []
  split
  · exact ⟨.of_keeps hup.keeps hg, fun _ => rfl⟩
  · next hf =>
    obtain ⟨hstage, hopen⟩ := canWrite_of_reached (by simp) hr hf
    have hsound := hg.sound a hopen
    have hne : (c.attempts a).stage ≠ .opening := by
      rw [hstage]
      simp
    exact connectedReady_sends hg hopen (hsound.socket hne)
      (hsound.unchecked (.inr hstage)) _ fun _ => hg.checks a hne hopen.1

/-- The request was over before the handshake was. -/
theorem encrypted_unnoticed {a : Nat} (hr : c.reached a .handshaking = true)
    (hf : (c.replies (c.attempts a).reply).finished = true) :
    Unnoticed c (c.encrypted a) := by
  have hstage : (c.attempts a).stage = .handshaking := by
    rw [reached, Bool.and_eq_true, beq_iff_eq] at hr
    exact hr.1
  unfold encrypted
  simp only []
  split
  · refine withAttempt_unnoticed a _ rfl (fun _ => by rw [hstage]; simp)
      (fun h => ?_) ⟨rfl, rfl, rfl⟩ fun _ hl => ?_
    · rw [hstage] at h
      cases h
    · rw [Reply.live_iff, hf] at hl
      cases hl.2
  · exact .refl c

/-- A handshake whose leaf is pinned leads to the write. -/
theorem encrypted_sends (hg : c.Gate env peers past) {a : Nat}
    (hstage : (c.attempts a).stage = .handshaking) (hopen : c.CanWrite a)
    (hpinned : (c.attempts a).tls = true → c.Pinned env peers a) :
    Sends env peers past a c (c.encrypted a) := by
  have hf := (Reply.live_iff.mp hopen.2).2
  have hsound := hg.sound a hopen
  have hne : (c.attempts a).stage ≠ .opening := by
    rw [hstage]
    simp
  unfold encrypted
  simp only []
  split
  · refine ⟨hg.updateAttempt hopen (fun t => { t with stage := .posted }) rfl
      (fun _ _ => hg.checks a hne hopen.1) fun _ => ?_, .inl rfl⟩
    refine ⟨hsound.waits, fun _ => hsound.socket hne, fun h => ?_,
      fun h => ?_, fun h => ?_, fun _ => hpinned⟩
    · cases h
    · rcases h with h | h <;> cases h
    · cases h
  · rw [if_neg (by rw [hf]; simp)]
    exact doWrite_sends hg hopen (hsound.socket hne)

theorem postedWrite_sends (hg : c.Gate env peers past) {a : Nat}
    (hr : c.reached a .posted = true) :
    Sends env peers past a c (c.postedWrite a) ∧
      ((c.attempts a).tls = true → (c.postedWrite a).written ≠ c.written →
        c.Pinned env peers a) := by
  unfold postedWrite
  split
  · exact ⟨⟨hg, .inl rfl⟩, fun _ h => absurd rfl h⟩
  · next hf =>
    obtain ⟨hstage, hopen⟩ := canWrite_of_reached (by simp) hr hf
    have hsound := hg.sound a hopen
    have hne : (c.attempts a).stage ≠ .opening := by
      rw [hstage]
      simp
    exact ⟨doWrite_sends hg hopen (hsound.socket hne),
      fun htls _ => hsound.posted hstage htls⟩

theorem factoryDone_sends (hq : c.Unasked) (hg : c.Gate env peers past)
    {a : Nat} (hstage : (c.attempts a).stage = .opening) (fd : Descriptor) :
    Sends env peers past a c (c.factoryDone env a fd) ∧
      ((c.attempts a).tls = true →
        (c.factoryDone env a fd).written = c.written) := by
  have hquiet (err : String) : Sends env peers past a c
      (c.finishReply env (c.attempts a).reply err) ∧
        ((c.attempts a).tls = true →
          (c.finishReply env (c.attempts a).reply err).written = c.written) :=
    ⟨.of_keeps (finishReply_keeps hq _ err) hg,
      fun _ => (finishReply_keeps hq _ err hg).2⟩
  unfold factoryDone
  simp only []
  split
  · exact ⟨⟨hg, .inl rfl⟩, fun _ => rfl⟩
  · next hl =>
    have hopen : c.CanWrite a := by
      refine ⟨by rw [hstage]; simp, ?_⟩
      simpa using hl
    have hsound := hg.sound a hopen
    have hunchecked : ¬ CheckedOn past a := hsound.unchecked (.inl hstage)
    cases fd with
    | none error => exact hquiet _
    | unusable error => exact hquiet _
    | usable =>
        let wire (t : Attempt) : Attempt :=
          { t with wired := true, checksPeer := c.endpoint.https }
        have hwired : (c.wireSocketHandlers (c.attempts a).reply a).Gate env
            peers past := by
          refine hg.update hopen wire (fun rd => { rd with socket := some a })
            rfl (fun h => absurd hstage h) (fun _ => rfl) fun _ => ?_
          refine ⟨hsound.waits, fun h => absurd hstage h, hsound.scheme,
            fun _ => hunchecked, fun h => ?_, fun h => ?_⟩
          all_goals
            change (c.attempts a).stage = _ at h
            rw [hstage] at h
            cases h
        have hfields : (c.wireSocketHandlers (c.attempts a).reply a).attempts a =
            wire (c.attempts a) := Function.update_self ..
        have hsocket : ((c.wireSocketHandlers (c.attempts a).reply a).replies
            (c.attempts a).reply).socket = some a := by
          show ((c.withReply _ fun rd => { rd with socket := some a }).replies
            _).socket = some a
          rw [withReply_replies, if_pos rfl]
        have hcan : (c.wireSocketHandlers (c.attempts a).reply a).CanWrite a := by
          refine ⟨?_, ?_⟩
          · rw [hfields]
            exact hopen.1
          · rw [hfields]
            exact (wireSocketHandlers_field Reply.live _ a _
              (fun _ => rfl)).trans hopen.2
        have hwritten : (c.wireSocketHandlers (c.attempts a).reply a).written =
          c.written := rfl
        have hhttps : (c.wireSocketHandlers (c.attempts a).reply a).endpoint =
          c.endpoint := rfl
        generalize c.wireSocketHandlers (c.attempts a).reply a = c₁ at *
        have hready := connectedReady_sends hwired hcan
          (by rw [hfields]; exact hsocket) hunchecked
          (if (c.attempts a).auth.isSome then (c.attempts a).tls
            else c₁.endpoint.https) fun h _ hauth => by
              rw [hfields] at hauth ⊢
              rw [hauth, hhttps] at h
              exact h
        refine ⟨⟨hready.1.gate, hwritten ▸ hready.1.written⟩, fun htls => ?_⟩
        refine (hready.2 ?_).trans hwritten
        rw [hhttps, htls, hsound.scheme hstage htls, ite_self]

/-! ## The errors of a handshake -/

theorem checkedOn_append {e : Event} {a : Nat} :
    CheckedOn (past ++ [(c, e)]) a ↔ CheckedOn past a ∨
      c.reached a .handshaking = true ∧ ∃ chain, e = .sslErrors a chain := by
  simp only [CheckedOn, List.mem_append, List.mem_singleton]
  constructor
  · rintro ⟨p, hp | rfl, hrest⟩
    · exact .inl ⟨p, hp, hrest⟩
    · exact .inr hrest
  · rintro (⟨p, hp, hrest⟩ | hrest)
    · exact ⟨p, .inl hp, hrest⟩
    · exact ⟨_, .inr rfl, hrest⟩

/-- An event in which no errors come up makes no difference to the trail. -/
theorem Gate.extend (hg : c'.Gate env peers past) {e : Event}
    (he : ∀ a chain, e = .sslErrors a chain → c.reached a .handshaking = false) :
    c'.Gate env peers (past ++ [(c, e)]) := by
  have hsame a : CheckedOn (past ++ [(c, e)]) a ↔ CheckedOn past a := by
    rw [checkedOn_append, or_iff_left]
    rintro ⟨hr, chain, rfl⟩
    rw [he a chain rfl] at hr
    cases hr
  obtain ⟨hsound, halone, hopened, hbegun, hchecks, hpast⟩ := hg
  refine ⟨fun a ha => ?_, halone, hopened, hbegun, hchecks,
    fun a ha => hpast a ((hsame a).mp ha)⟩
  obtain ⟨h₁, h₂, h₃, h₄, h₅, h₆⟩ := hsound a ha
  exact ⟨h₁, h₂, h₃, fun hs h => h₄ hs ((hsame a).mp h),
    fun hs h => h₅ hs ((hsame a).mp h), h₆⟩

/-- Errors that come up mark the handshake as checked: it is refused then, or
its leaf is pinned. -/
theorem Gate.checked (hg : c'.Gate env peers past) {b : Nat}
    {chain : List Certificate} (hr : c.reached b .handshaking = true)
    (hstage : (c'.attempts b).stage = .handshaking)
    (hverdict : (c'.attempts b).refused = true ∨ c'.Pinned env peers b) :
    c'.Gate env peers (past ++ [(c, .sslErrors b chain)]) := by
  have hof {a : Nat} (h : CheckedOn (past ++ [(c, .sslErrors b chain)]) a) :
      CheckedOn past a ∨ a = b := by
    rcases checkedOn_append.mp h with h | ⟨-, chain', heq⟩
    · exact .inl h
    · cases heq
      exact .inr rfl
  obtain ⟨hsound, halone, hopened, hbegun, hchecks, hpast⟩ := hg
  have hlt := hopened b (by rw [hstage]; simp)
  refine ⟨fun a ha => ?_, halone, hopened, hbegun, hchecks, fun a ha => ?_⟩
  · obtain ⟨h₁, h₂, h₃, h₄, h₅, h₆⟩ := hsound a ha
    refine ⟨h₁, h₂, h₃, fun hs h => ?_, fun hs h => ?_, h₆⟩
    · rcases hof h with h | rfl
      · exact h₄ hs h
      · change (c'.attempts a).stage = _ ∨ (c'.attempts a).stage = _ at hs
        rw [hstage] at hs
        rcases hs with hs | hs <;> cases hs
    · rcases hof h with h | rfl
      · exact h₅ hs h
      · exact hverdict
  · rcases hof ha with h | rfl
    · exact hpast a h
    · exact hlt

/-- The slot behind `sslErrors`: a pinned leaf gets by, and any other one is
refused. -/
theorem sslErrors_gate (hg : c.Gate env peers past) {b : Nat}
    {chain : List Certificate} (hr : c.reached b .handshaking = true)
    (hleaf : ∀ leaf ∈ chain.head?, leaf = peers.leaf b) :
    (c.sslErrors env b chain).Gate env peers
        (past ++ [(c, .sslErrors b chain)]) ∧
      (c.sslErrors env b chain).written = c.written := by
  have hstage : (c.attempts b).stage = .handshaking := by
    rw [reached, Bool.and_eq_true, beq_iff_eq] at hr
    exact hr.1
  let refuse (t : Attempt) : Attempt := { t with refused := true }
  have hrefused : ((c.withAttempt b refuse).attempts b).refused = true := by
    rw [withAttempt_attempts, if_pos rfl]
  have hstage' : ((c.withAttempt b refuse).attempts b).stage = .handshaking := by
    rw [withAttempt_attempts, if_pos rfl]
    exact hstage
  have hfailing : (c.withAttempt b refuse).Gate env peers past := by
    by_cases hopen : c.CanWrite b
    · have hsound := hg.sound b hopen
      refine hg.updateAttempt hopen refuse rfl (hg.checks b) fun _ => ?_
      refine ⟨hsound.waits, hsound.socket, hsound.scheme, hsound.unchecked,
        fun _ _ => .inl rfl, hsound.posted⟩
    · refine (withAttempt_unnoticed b refuse rfl id id ⟨rfl, rfl, rfl⟩
        fun hs hl => ?_).gate hg
      exact absurd ⟨hs, hl⟩ hopen
  have hdone : (c.withAttempt b refuse).Gate env peers
      (past ++ [(c, .sslErrors b chain)]) :=
    hfailing.checked hr hstage' (.inl hrefused)
  unfold sslErrors
  simp only []
  split
  · next leaf rest hchecks =>
    have hfp := hleaf leaf rfl
    split
    · next hpin =>
      refine ⟨Gate.checked (emit_gate hg rfl) hr hstage (.inr ?_), ?_⟩
      · rw [hfp, List.contains_iff_mem] at hpin
        exact hpin
      · simp [written, emit, Effect.write?]
    · split
      · exact ⟨hdone, rfl⟩
      · refine ⟨?_, by simp [written, emit, Effect.write?, withAttempt]⟩
        refine emit_gate (Unnoticed.gate ?_ hdone) rfl
        exact .of_eq rfl rfl rfl rfl rfl rfl rfl rfl
  · exact ⟨hdone, rfl⟩

/-- A first attempt that meets another leaf asks. -/
theorem sslErrors_prompts {b : Nat} {chain : List Certificate}
    (hchecks : (c.attempts b).checksPeer = true)
    (hauth : (c.attempts b).auth = none) (hchain : chain ≠ [])
    (hleaf : ∀ leaf ∈ chain.head?, leaf = peers.leaf b)
    (hpin : ¬ c.Pinned env peers b) :
    ∃ s : Redir.PeerCertSummary,
      s.fingerprintSha256 = fingerprintFor env (peers.leaf b) ∧
        (c.sslErrors env b chain).out = c.out ++ [.trustPromptRequired s] := by
  cases chain with
  | nil => exact absurd rfl hchain
  | cons leaf rest =>
      have hfp := hleaf leaf rfl
      have hnot : ¬ c.trustedFingerprints.contains (fingerprintFor env leaf) =
          true := by
        rw [hfp, List.contains_iff_mem]
        exact hpin
      unfold sslErrors
      simp only [hchecks, hauth, if_neg hnot, Option.isSome_none,
        Bool.false_eq_true, if_false]
      exact ⟨_, by rw [hfp], rfl⟩

/-! ## Events -/

theorem Keeps.gated {e : Event} (h : Keeps env peers past c (c.handle env e))
    (hg : c.Gate env peers past) (he : ∀ a, ¬ c.Concluded a e) :
    c.Gated env peers past e :=
  ⟨⟨[], by rw [(h hg).2, List.append_nil], by simp⟩,
    fun a ha => absurd ha (he a)⟩

/-- What an attempt writes to its own socket is gated where its leaf is
pinned. -/
theorem Sends.writes {a : Nat} (h : Sends env peers past a c c')
    (hpin : (c.attempts a).tls = true → c'.written ≠ c.written →
      c.Pinned env peers a) :
    ∃ new, c'.written = c.written ++ new ∧
      ∀ p ∈ new, (c.attempts p.2).tls = true → c.Pinned env peers p.1 := by
  rcases h.written with hw | hw
  · exact ⟨[], by rw [hw, List.append_nil], by simp⟩
  · refine ⟨[(a, a)], hw, fun p hp => ?_⟩
    rw [List.mem_singleton.mp hp]
    exact fun htls => hpin htls (by rw [hw]; simp)

/-- The pins may change as long as those stay that a handshake got by on. -/
theorem Gate.repin (hg : c.Gate env peers past) (fps : List Bytes)
    (hkept : ∀ a, (c.attempts a).stage = .handshaking ∨
      (c.attempts a).stage = .posted → c.Pinned env peers a →
        fingerprintFor env (peers.leaf a) ∈ fps) :
    ({ c with trustedFingerprints := fps } : Client).Gate env peers past := by
  obtain ⟨hsound, halone, hopened, hbegun, hchecks, hpast⟩ := hg
  refine ⟨fun a ha => ?_, halone, hopened, hbegun, hchecks, hpast⟩
  obtain ⟨h₁, h₂, h₃, h₄, h₅, h₆⟩ := hsound a ha
  refine ⟨h₁, h₂, h₃, h₄, fun hs h => ?_, fun hs htls => ?_⟩
  · exact (h₅ hs h).imp_right (hkept a (.inl hs))
  · exact hkept a (.inr hs) (h₆ hs htls)

theorem setEndpoint_keeps {endpoint : Endpoint}
    (h : PinsFirst env peers c (.setEndpoint endpoint)) :
    Keeps env peers past c { c with endpoint } := by
  intro ⟨hsound, halone, hopened, hbegun, hchecks, hpast⟩
  refine ⟨⟨fun a ha => ?_, halone, hopened, hbegun, hchecks, hpast⟩, rfl⟩
  obtain ⟨h₁, h₂, -, h₄, h₅, h₆⟩ := hsound a ha
  exact ⟨h₁, h₂, fun hs htls => h a hs htls, h₄, h₅, h₆⟩

theorem trustPendingPeerCert_keeps :
    Keeps env peers past c c.trustPendingPeerCert := by
  intro hg
  unfold trustPendingPeerCert
  simp only []
  split
  · exact ⟨hg, rfl⟩
  · refine ⟨?_, rfl⟩
    have hrest : Unnoticed c
        { c with pendingPeerCert := {}, awaitingTrust := false } :=
      .of_eq rfl rfl rfl rfl rfl rfl rfl rfl
    refine (hrest.gate hg).repin _ fun a _ hpin => ?_
    split
    · exact hpin
    · exact List.mem_append_left _ hpin

/-- The events that neither write nor conclude a handshake. -/
theorem handle_keeps (hs : c.Sane none) (hg : c.Gate env peers past) {e : Event}
    (he : PinsFirst env peers c e)
    (hconnected : ∀ a, e ≠ .connected a) (hencrypted : ∀ a, e ≠ .encrypted a)
    (hposted : ∀ a, e ≠ .postedWrite a)
    (hfactory : ∀ a fd, e ≠ .factoryDone a fd)
    (herrors : ∀ a chain, e ≠ .sslErrors a chain) :
    Keeps env peers past c (c.handle env e) := by
  have hq : c.Unasked := fun q hq => (hs.inLine.queue.waiting q hq).2
  have hsame : Keeps env peers past c c := (Unnoticed.refl c).keeps
  cases e with
  | setEndpoint endpoint => exact setEndpoint_keeps he
  | setTrustedFingerprints fps => exact fun hg => ⟨hg.repin fps he, rfl⟩
  | setCredentials | setTransferTimeoutMs | setSocketFactory
  | setSerializeRequests =>
      exact Unnoticed.keeps (.of_eq rfl rfl rfl rfl rfl rfl rfl rfl)
  | trustPendingPeerCert => exact trustPendingPeerCert_keeps
  | sendEnvelope envelope soapAction =>
      exact sendEnvelope_keeps hs.inLine.queue.made envelope soapAction
  | abort r =>
      rw [handle]
      split
      · exact abort_keeps hq r
      · exact hsame
  | destroy r =>
      rw [handle]
      split
      · exact (destroy_unnoticed r).keeps
      · exact hsame
  | timeout r =>
      rw [handle]
      split
      · exact timeout_keeps hq r
      · exact hsame
  | readyRead a chunk =>
      rw [handle]
      split
      · next hw =>
        have hread : Unnoticed c (c.withAttempt a fun t =>
            { t with unread := t.unread ++ chunk }) :=
          withAttempt_unnoticed a _ rfl id id ⟨rfl, rfl, rfl⟩ fun _ _ _ => rfl
        have hlt := hs.poised.opened a (wired_iff.mp hw).1
        refine hread.keeps.trans (readMore_keeps (hread.unasked hq) ?_)
        rw [hread.started]
        exact hg.begun a hlt
      · exact hsame
  | errorOccurred a errorString =>
      rw [handle]
      split
      · exact errorOccurred_keeps hq _ errorString
      · exact hsame
  | disconnected a =>
      rw [handle]
      split
      · exact (withAttempt_unnoticed a _ rfl id id ⟨rfl, rfl, rfl⟩
          fun _ _ _ => rfl).keeps
      · exact hsame
  | connected a => exact absurd rfl (hconnected a)
  | encrypted a => exact absurd rfl (hencrypted a)
  | postedWrite a => exact absurd rfl (hposted a)
  | factoryDone a fd => exact absurd rfl (hfactory a fd)
  | sslErrors a chain => exact absurd rfl (herrors a chain)

/-- What one event does: the gate holds behind it, and it was gated. -/
theorem handle_gate (hs : c.Sane none) (hg : c.Gate env peers past) {e : Event}
    (hobeys : Obeys peers past c e) (he : PinsFirst env peers c e) :
    (c.handle env e).Gate env peers (past ++ [(c, e)]) ∧
      c.Gated env peers past e := by
  have hq : c.Unasked := fun q hq => (hs.inLine.queue.waiting q hq).2
  have hquiet (h : Keeps env peers past c (c.handle env e))
      (herrors : ∀ a chain, e = .sslErrors a chain →
        c.reached a .handshaking = false)
      (hcon : ∀ a, ¬ c.Concluded a e) :=
    And.intro ((h hg).1.extend herrors) (h.gated hg hcon)
  have hsends {a : Nat} (h : Sends env peers past a c (c.handle env e))
      (herrors : ∀ a chain, e = .sslErrors a chain →
        c.reached a .handshaking = false)
      (hpin : (c.attempts a).tls = true →
        (c.handle env e).written ≠ c.written → c.Pinned env peers a)
      (hcon : ∀ b, c.Concluded b e → (c.attempts b).tls = true →
        c.Pinned env peers b) :
      (c.handle env e).Gate env peers (past ++ [(c, e)]) ∧
        c.Gated env peers past e :=
    ⟨h.gate.extend herrors, h.writes hpin,
      fun b hb htls _ hnot => absurd (hcon b hb htls) hnot⟩
  have hsame : Keeps env peers past c c := (Unnoticed.refl c).keeps
  have hno {e' : Event} (h : ∀ b chain, e' ≠ .sslErrors b chain) (b : Nat)
      (chain : List Certificate) (heq : e' = .sslErrors b chain) :
      c.reached b .handshaking = false :=
    absurd heq (h b chain)
  cases e with
  | connected a =>
      by_cases hr : c.reached a .connecting = true
      · have heq : c.handle env (.connected a) = c.connected a := if_pos hr
        have h := connected_sends hg hr
        rw [heq] at hsends ⊢
        exact hsends h.1 (hno (by simp)) (fun htls hw => absurd (h.2 htls) hw)
          fun _ h => h.elim
      · have heq : c.handle env (.connected a) = c := if_neg hr
        exact hquiet (by rw [heq]; exact hsame) (hno (by simp))
          fun _ h => h
  | encrypted a =>
      by_cases hr : c.reached a .handshaking = true ∧
          (!(c.attempts a).refused) = true
      · have heq : c.handle env (.encrypted a) = c.encrypted a := if_pos hr
        obtain ⟨hr, hrefused⟩ := hr
        have hrefused : (c.attempts a).refused = false := by
          simpa using hrefused
        have hstage : (c.attempts a).stage = .handshaking := by
          rw [reached, Bool.and_eq_true, beq_iff_eq] at hr
          exact hr.1
        by_cases hf : (c.replies (c.attempts a).reply).finished = true
        · refine hquiet (heq ▸ (encrypted_unnoticed hr hf).keeps)
            (hno (by simp)) ?_
          rintro b ⟨rfl, -, -, hf'⟩
          rw [hf] at hf'
          cases hf'
        · have hopen := (canWrite_of_reached (by simp) hr hf).2
          have hpin (htls : (c.attempts a).tls = true) :
              c.Pinned env peers a := by
            rcases hobeys hr with hv | hchecked
            · exact he hr htls hv
            · refine ((hg.sound a hopen).checked hstage hchecked).resolve_left ?_
              show (c.attempts a).refused ≠ true
              rw [hrefused]
              simp
          rw [heq] at hsends ⊢
          refine hsends (encrypted_sends hg hstage hopen hpin) (hno (by simp))
            (fun htls _ => hpin htls) ?_
          rintro b ⟨rfl, -⟩ htls
          exact hpin htls
      · have heq : c.handle env (.encrypted a) = c := if_neg hr
        refine hquiet (by rw [heq]; exact hsame) (hno (by simp)) ?_
        rintro b ⟨rfl, hr', hrefused, -⟩
        exact hr ⟨hr', by rw [hrefused]; rfl⟩
  | postedWrite a =>
      by_cases hr : c.reached a .posted = true
      · have heq : c.handle env (.postedWrite a) = c.postedWrite a := if_pos hr
        have h := postedWrite_sends hg hr
        rw [heq] at hsends ⊢
        exact hsends h.1 (hno (by simp)) h.2 fun _ h => h.elim
      · have heq : c.handle env (.postedWrite a) = c := if_neg hr
        exact hquiet (by rw [heq]; exact hsame) (hno (by simp))
          fun _ h => h
  | factoryDone a fd =>
      by_cases hr : (c.attempts a).stage = .opening
      · have heq : c.handle env (.factoryDone a fd) = c.factoryDone env a fd :=
          if_pos hr
        have h := factoryDone_sends hq hg hr fd
        rw [heq] at hsends ⊢
        exact hsends h.1 (hno (by simp)) (fun htls hw => absurd (h.2 htls) hw)
          fun _ h => h.elim
      · have heq : c.handle env (.factoryDone a fd) = c := if_neg hr
        exact hquiet (by rw [heq]; exact hsame) (hno (by simp))
          fun _ h => h
  | sslErrors a chain =>
      by_cases hr : c.reached a .handshaking = true
      · have heq : c.handle env (.sslErrors a chain) = c.sslErrors env a chain :=
          if_pos hr
        obtain ⟨hgate, hwritten⟩ := sslErrors_gate hg hr (hobeys hr).2
        rw [← heq] at hgate hwritten
        refine ⟨hgate, ⟨⟨[], by rw [hwritten, List.append_nil], by simp⟩, ?_⟩⟩
        rintro b ⟨rfl, -, hchain⟩ htls hauth hnot
        have hstage : (c.attempts a).stage = .handshaking := by
          rw [reached, Bool.and_eq_true, beq_iff_eq] at hr
          exact hr.1
        have hchecks := hg.checks a (by rw [hstage]; simp)
          (by rw [hstage]; simp) htls hauth
        obtain ⟨s, hs, hout⟩ := sslErrors_prompts hchecks hauth hchain
          (hobeys hr).2 hnot
        exact ⟨_, List.mem_append_right _ (List.mem_singleton_self _), chain,
          rfl, s, hs, heq ▸ hout⟩
      · have heq : c.handle env (.sslErrors a chain) = c := if_neg hr
        refine hquiet (by rw [heq]; exact hsame) ?_ ?_
        · rintro b chain' heq'
          cases heq'
          exact eq_false_of_ne_true hr
        · rintro b ⟨rfl, hr', -⟩
          exact hr hr'
  | setEndpoint | setCredentials | setTrustedFingerprints
  | setTransferTimeoutMs | setSocketFactory | setSerializeRequests
  | trustPendingPeerCert | sendEnvelope | abort | destroy | timeout | readyRead
  | errorOccurred | disconnected =>
      exact hquiet (handle_keeps hs hg he (by simp) (by simp) (by simp)
        (by simp) (by simp)) (hno (by simp)) fun _ h => h

end

/-! ## Runs -/

theorem gate_fresh (env : Env) (peers : Peers) :
    ({} : Client).Gate env peers [] where
  sound _ h := absurd rfl h.1
  alone _ _ h := absurd rfl h.1
  opened _ h := absurd rfl h
  begun _ h := absurd h (Nat.not_lt_zero _)
  checks _ _ h := absurd rfl h
  past _ h := by
    obtain ⟨p, hp, -⟩ := h
    exact absurd hp List.not_mem_nil

theorem PinsFirst.sparesQueue {env : Env} {peers : Peers} {c : Client}
    {e : Event} (h : PinsFirst env peers c e) : c.SparesQueue e := by
  cases e with
  | destroy r => exact h
  | setEndpoint | setCredentials | setTrustedFingerprints
  | setTransferTimeoutMs | setSocketFactory | setSerializeRequests
  | trustPendingPeerCert | sendEnvelope | abort | timeout | factoryDone
  | connected | encrypted | postedWrite | sslErrors | readyRead
  | errorOccurred | disconnected => exact trivial

end Client

/-- With sockets that do what `QSslSocket` does, in every run whose events all
meet the condition, a request for an https endpoint is written only to a
connection whose leaf is pinned at that moment, and a first attempt that meets
another leaf asks for trust. -/
theorem request_on_pinned (env : Env) (peers : Peers) (es : List Event)
    (hobeys : Guarded (Client.handle env) (Client.Obeys peers) {} es)
    (hpins : Guarded (Client.handle env)
      (fun _ c e => Client.PinsFirst env peers c e) {} es) :
    Guarded (Client.handle env) (Client.Gated env peers) {} es := by
  refine (hobeys.and hpins).ensures
    (fun past c => c.Sane none ∧ c.Gate env peers past) ?_
    ⟨Client.sane_fresh, Client.gate_fresh env peers⟩
  rintro past c e ⟨hs, hg⟩ ⟨hobeys, hpins⟩
  obtain ⟨hg', hgated⟩ := Client.handle_gate hs hg hobeys hpins
  have hs' := (Client.handle_proceeds env hpins.sparesQueue hs).1
  exact ⟨⟨hs', hg'⟩, hgated⟩

/-! ### A certificate that verifies -/

private def printEnv : Env where
  md5Hex _ := ascii "h"
  sha256 := id
  randomCnonce _ := ascii "c"

private def deviceCert : Certificate :=
  { commonNames := [], issuerNames := [], effectiveDate := [], expiryDate := []
    der := [0xA1, 0xB2] }

private def device (verifies : Bool) : Peers where
  leaf _ := deviceCert
  verifies _ := verifies

private def overTls : List Event :=
  [.setEndpoint { https := true, host := ascii "amt" },
    .sendEnvelope [] none, .connected 0]

/-- A self-signed certificate that is pinned: its errors are ignored, and the
request goes out. -/
theorem request_on_pinned_selfSigned :
    Guarded (Client.handle printEnv) (Client.Gated printEnv (device false)) {}
      (.setTrustedFingerprints [fingerprintFor printEnv deviceCert] ::
        overTls ++ [.sslErrors 0 [deviceCert], .encrypted 0]) := by
  refine request_on_pinned _ _ _ ?_ ?_
  · refine ⟨trivial, trivial, trivial, trivial, fun _ => ⟨rfl, ?_⟩,
      fun _ => .inr ?_, trivial⟩
    · rintro leaf ⟨⟩
      rfl
    · refine ⟨_, List.mem_append_right _ (List.mem_singleton_self _), rfl, ?_⟩
      exact ⟨_, rfl⟩
  · refine ⟨?_, ?_, trivial, trivial, trivial, ?_, trivial⟩
    · rintro a (h | h) <;> cases h
    · intro a h
      cases h
    · intro _ _ h
      cases h

/-- With no pins at all, a certificate that a root vouches for gets the
request. -/
theorem request_unpinned :
    ¬ ∀ (env : Env) (peers : Peers) (es : List Event),
      Guarded (Client.handle env) (Client.Obeys peers) {} es →
        Guarded (Client.handle env) (Client.Gated env peers) {} es := by
  intro h
  have hgated := h printEnv (device true) (overTls ++ [.encrypted 0]) ?_
  · obtain ⟨-, -, -, hlast, -⟩ := hgated
    obtain ⟨new, hnew, hpinned⟩ := hlast.writes
    have hwrote : new = [(0, 0)] := by
      rw [← List.append_cancel_left_eq, ← hnew]
      rfl
    subst hwrote
    have hpin := hpinned (0, 0) (List.mem_singleton_self _) rfl
    exact List.not_mem_nil hpin
  · refine ⟨trivial, trivial, trivial, fun _ => .inl rfl, trivial⟩

end QuMesh.Wsman
