import QuMesh.Proofs.WsmanSteps
import QuMesh.Lib.Run
import QuMesh.Lib.SingleFlight
import Mathlib.Data.List.Nodup

/-!
# The queue of serialized requests

With `setSerializeRequests(true)` a reply is started when the one before it has
finished. The drainer that does this hangs on every reply's `finished`, not on
the one in flight, and nothing drains when a reply is destroyed. So the queue
loses its discipline in two ways: a reply that is aborted while it waits starts
another one beside the one in flight, and a reply destroyed in flight leaves
the queue standing, until the next `sendEnvelope` starts its own reply past it.

In every run without these two the client refines a single-flight line: each
event is a step of the line or none, and what the line promises holds of the
replies.
-/

namespace QuMesh.Wsman

open QuMesh.Lib

/-- The reply whose transport a history entry starts. -/
def Effect.start : Effect → Option Nat
  | .started r => some r
  | _ => none

/-- An attempt that was made: the others are blank. -/
def Attempt.Used (t : Attempt) : Prop :=
  t.stage ≠ .settled ∨ t.wired = true

namespace Client

/-- The replies whose transport was started, in order. -/
def started (c : Client) : List Nat := c.out.filterMap Effect.start

/-- The replies that wait in the queue. -/
def waiting (c : Client) : List Nat :=
  c.pendingQueue.filter fun r => (c.replies r).alive

/-- The replies asked for, but for those destroyed while they waited. -/
def asked (c : Client) : List Nat :=
  (List.range c.nextReply).filter fun r =>
    (c.replies r).alive || c.started.contains r

def flight (c : Client) : Flight Nat where
  asked := c.asked
  current := c.current
  waiting := c.waiting
  started := c.started

/-! ## Operations the queue does not notice -/

/-- Nothing changes but the transport of one reply, or of none. -/
structure Calm (who : Option Nat) (c c' : Client) : Prop where
  serial : c'.serializeRequests = c.serializeRequests
  queue : c'.pendingQueue = c.pendingQueue
  request : c'.currentRequest = c.currentRequest
  nextReply : c'.nextReply = c.nextReply
  started : c'.started = c.started
  alive : ∀ s, (c'.replies s).alive = (c.replies s).alive
  finished : ∀ s, (c'.replies s).finished = (c.replies s).finished
  drains : ∀ s, (c'.replies s).drains = (c.replies s).drains
  timer : ∀ s, who ≠ some s → (c'.replies s).timer = (c.replies s).timer
  used : ∀ a, (c'.attempts a).Used → who = some (c'.attempts a).reply ∨
    (c.attempts a).Used ∧ (c'.attempts a).reply = (c.attempts a).reply

variable {who : Option Nat} {c c' c'' : Client}

theorem calm_of_eq (hserial : c'.serializeRequests = c.serializeRequests)
    (hqueue : c'.pendingQueue = c.pendingQueue)
    (hrequest : c'.currentRequest = c.currentRequest)
    (hnextReply : c'.nextReply = c.nextReply)
    (hreplies : c'.replies = c.replies) (hattempts : c'.attempts = c.attempts)
    (hstarted : c'.started = c.started) : Calm who c c' where
  serial := hserial
  queue := hqueue
  request := hrequest
  nextReply := hnextReply
  started := hstarted
  alive s := by rw [hreplies]
  finished s := by rw [hreplies]
  drains s := by rw [hreplies]
  timer s _ := by rw [hreplies]
  used a h := by
    rw [hattempts] at h
    exact .inr ⟨h, by rw [hattempts]⟩

theorem Calm.refl (c : Client) : Calm who c c :=
  calm_of_eq rfl rfl rfl rfl rfl rfl rfl

theorem Calm.trans (h : Calm who c c') (h' : Calm who c' c'') :
    Calm who c c'' where
  serial := h'.serial.trans h.serial
  queue := h'.queue.trans h.queue
  request := h'.request.trans h.request
  nextReply := h'.nextReply.trans h.nextReply
  started := h'.started.trans h.started
  alive s := (h'.alive s).trans (h.alive s)
  finished s := (h'.finished s).trans (h.finished s)
  drains s := (h'.drains s).trans (h.drains s)
  timer s hs := (h'.timer s hs).trans (h.timer s hs)
  used a ha := by
    rcases h'.used a ha with hw | ⟨hu, heq⟩
    · exact .inl hw
    · rcases h.used a hu with hw | ⟨hu, heq'⟩
      · exact .inl (heq ▸ hw)
      · exact .inr ⟨hu, heq.trans heq'⟩

theorem withReply_calm (r : Nat) (f : Reply → Reply)
    (halive : (f (c.replies r)).alive = (c.replies r).alive)
    (hfinished : (f (c.replies r)).finished = (c.replies r).finished)
    (hdrains : (f (c.replies r)).drains = (c.replies r).drains)
    (htimer : (f (c.replies r)).timer = (c.replies r).timer ∨ who = some r) :
    Calm who c (c.withReply r f) where
  serial := rfl
  queue := rfl
  request := rfl
  nextReply := rfl
  started := rfl
  alive s := withReply_field Reply.alive r s f halive
  finished s := withReply_field Reply.finished r s f hfinished
  drains s := withReply_field Reply.drains r s f hdrains
  timer s hs := by
    rcases htimer with htimer | hwho
    · exact withReply_field Reply.timer r s f htimer
    · rw [withReply_replies, if_neg]
      rintro rfl
      exact hs hwho
  used a h := .inr ⟨h, rfl⟩

theorem withAttempt_calm (a : Nat) (f : Attempt → Attempt)
    (hreply : (f (c.attempts a)).reply = (c.attempts a).reply)
    (hused : (f (c.attempts a)).Used →
      who = some (c.attempts a).reply ∨ (c.attempts a).Used) :
    Calm who c (c.withAttempt a f) where
  serial := rfl
  queue := rfl
  request := rfl
  nextReply := rfl
  started := rfl
  alive _ := rfl
  finished _ := rfl
  drains _ := rfl
  timer _ _ := rfl
  used b h := by
    rw [withAttempt_field Attempt.reply a b f hreply]
    by_cases hb : b = a
    · subst hb
      rw [withAttempt_attempts, if_pos rfl] at h
      exact (hused h).imp_right fun hu => ⟨hu, rfl⟩
    · rw [withAttempt_attempts, if_neg hb] at h
      exact .inr ⟨h, rfl⟩

theorem newAttempt_calm {t : Attempt} (howner : who = some t.reply) :
    Calm who c (c.newAttempt t) where
  serial := rfl
  queue := rfl
  request := rfl
  nextReply := rfl
  started := rfl
  alive _ := rfl
  finished _ := rfl
  drains _ := rfl
  timer _ _ := rfl
  used b h := by
    rw [newAttempt_attempts] at h ⊢
    split at h
    next hb => exact .inl (by rw [if_pos hb]; exact howner)
    next hb => exact .inr ⟨h, by rw [if_neg hb]⟩

theorem emit_calm {e : Effect} (he : e.start = none) : Calm who c (c.emit e) := by
  refine calm_of_eq rfl rfl rfl rfl rfl rfl ?_
  simp [started, emit, he]

theorem armTimeout_calm (r : Nat) : Calm (some r) c (c.armTimeout r) := by
  unfold armTimeout
  split
  · exact .refl c
  · exact withReply_calm r _ rfl rfl rfl (.inr rfl)

theorem stopTimer_calm (r : Nat) : Calm (some r) c (c.stopTimer r) := by
  unfold stopTimer
  split
  · exact withReply_calm r _ rfl rfl rfl (.inr rfl)
  · exact .refl c

theorem abortSocket_calm (r : Nat) : Calm who c (c.abortSocket r) := by
  unfold abortSocket
  split
  · exact .refl c
  · exact withAttempt_calm _ _ rfl .inr

theorem discardResponse_calm (r : Nat) : Calm who c (c.discardResponse r) := by
  have hclose : Calm who c (c.abortSocket r) := abortSocket_calm r
  unfold discardResponse
  unfold abortSocket at hclose
  exact hclose.trans (withReply_calm r _ rfl rfl rfl (.inl rfl))

theorem wireSocketHandlers_calm {r a : Nat}
    (h : who = some (c.attempts a).reply ∨ (c.attempts a).Used) :
    Calm who c (c.wireSocketHandlers r a) :=
  (withReply_calm r _ rfl rfl rfl (.inl rfl)).trans
    (withAttempt_calm a _ rfl fun _ => h)

theorem openSocket_calm (r : Nat) (auth : Option DigestHeader) :
    Calm (some r) c (c.openSocket r auth) := by
  have hstate (c : Client) : Calm (some r) c
      (c.withReply r fun rd => { rd with state := .connecting }) :=
    withReply_calm r _ rfl rfl rfl (.inl rfl)
  unfold openSocket
  simp only []
  split
  · refine Calm.trans ?_ (hstate _)
    exact newAttempt_calm rfl
  · refine Calm.trans (Calm.trans ?_ (wireSocketHandlers_calm ?_)) (hstate _)
    · exact newAttempt_calm rfl
    · left
      rw [newAttempt_attempts, if_pos rfl]

theorem startTransport_calm (r : Nat) :
    Calm (some r) c (c.startTransport r) :=
  (armTimeout_calm r).trans (openSocket_calm r none)

theorem retryWithDigest_calm (env : Env) (r : Nat) :
    Calm (some r) c (c.retryWithDigest env r) := by
  unfold retryWithDigest
  simp only []
  refine ((armTimeout_calm r).trans (discardResponse_calm r)).trans ?_
  refine Calm.trans ?_ (openSocket_calm r _)
  exact calm_of_eq rfl rfl rfl rfl rfl rfl rfl

/-- Once the history says so, a start touches the reply's transport alone. -/
theorem startNow_calm (env : Env) (r : Nat) :
    Calm (some r) (c.emit (.started r)) (c.startNow env r) := by
  unfold startNow
  simp only []
  split
  · exact retryWithDigest_calm env r
  · exact startTransport_calm r

theorem writeRequestBytes_calm (socket : Nat) {a : Nat}
    (hu : (c.attempts a).Used) : Calm who c (c.writeRequestBytes socket a) := by
  unfold writeRequestBytes
  simp only []
  refine (Calm.trans (emit_calm rfl) (withAttempt_calm a _ rfl ?_)).trans
    (withReply_calm _ _ rfl rfl rfl (.inl rfl))
  exact fun _ => .inr hu

theorem doWrite_calm {a : Nat} (hu : (c.attempts a).Used) :
    Calm who c (c.doWrite a) := by
  unfold doWrite
  split
  · exact withAttempt_calm a _ rfl fun _ => .inr hu
  · exact writeRequestBytes_calm _ hu

theorem socketReady_calm {a : Nat} {tls : Bool} (hu : (c.attempts a).Used) :
    Calm who c (c.socketReady a tls) := by
  unfold socketReady
  simp only []
  split
  · exact (withAttempt_calm a _ rfl fun _ => .inr hu).trans
      (withReply_calm _ _ rfl rfl rfl (.inl rfl))
  · split
    · exact doWrite_calm hu
    · exact writeRequestBytes_calm a hu

theorem withAttempt_used {a : Nat} {f : Attempt → Attempt}
    (h : (f (c.attempts a)).Used) : ((c.withAttempt a f).attempts a).Used := by
  rw [withAttempt_attempts, if_pos rfl]
  exact h

theorem connected_calm {a : Nat} (hu : (c.attempts a).Used) :
    Calm who c (c.connected a) := by
  unfold connected
  simp only []
  have hup : Calm who c (c.withAttempt a fun t => { t with connected := true }) :=
    withAttempt_calm a _ rfl fun _ => .inr hu
  refine hup.trans ?_
  split
  · exact .refl _
  · exact socketReady_calm (withAttempt_used hu)

theorem encrypted_calm {a : Nat} (hu : (c.attempts a).Used) :
    Calm who c (c.encrypted a) := by
  unfold encrypted
  simp only []
  split
  · exact withAttempt_calm a _ rfl fun _ => .inr hu
  · split
    · exact .refl c
    · exact doWrite_calm hu

theorem postedWrite_calm {a : Nat} (hu : (c.attempts a).Used) :
    Calm who c (c.postedWrite a) := by
  unfold postedWrite
  split
  · exact .refl c
  · exact doWrite_calm hu

theorem sslErrors_calm (env : Env) {a : Nat}
    (chain : List QuMesh.Redir.Certificate) (hu : (c.attempts a).Used) :
    Calm who c (c.sslErrors env a chain) := by
  have hfail : Calm who c (c.withAttempt a fun t => { t with refused := true }) :=
    withAttempt_calm a _ rfl fun _ => .inr hu
  unfold sslErrors
  simp only []
  split
  · split
    · exact emit_calm rfl
    · split
      · exact hfail
      · refine hfail.trans (Calm.trans ?_ (emit_calm rfl))
        exact calm_of_eq rfl rfl rfl rfl rfl rfl rfl
  · exact hfail

/-! ## What an event does

An event of a transport moves the transport of one reply on, and perhaps ends
the reply. -/

/-- A reply that has a transport, or a timer that runs. -/
def Owns (c : Client) (r : Nat) : Prop :=
  (c.replies r).alive = true ∧
    ((c.replies r).timer = .running ∨
      ∃ a, (c.attempts a).Used ∧ (c.attempts a).reply = r)

inductive Move (env : Env) (r : Nat) (c : Client) : Client → Prop
  | calm {c' : Client} (h : Calm (some r) c c') : Move env r c c'
  | ends {c' : Client} (state : ReplyState) (errorString : String)
      (h : Calm (some r) c c') (live : (c.replies r).live = true) :
      Move env r c (c'.emitFinished env r state errorString)

theorem Calm.of_none (h : Calm none c c') : Calm who c c' :=
  { h with
    timer := fun s _ => h.timer s (Option.some_ne_none s).symm
    used := fun a ha => .inr ((h.used a ha).resolve_left fun heq => by cases heq) }

theorem live_eq {c c' : Client} {r : Nat}
    (halive : (c'.replies r).alive = (c.replies r).alive)
    (hfinished : (c'.replies r).finished = (c.replies r).finished) :
    (c'.replies r).live = (c.replies r).live := by
  rw [Reply.live, Reply.live, halive, hfinished]

theorem Move.after {env : Env} {r : Nat} (h : Calm (some r) c c')
    (h' : Move env r c' c'') : Move env r c c'' := by
  cases h' with
  | calm h' => exact .calm (h.trans h')
  | ends state errorString h' live =>
      refine .ends state errorString (h.trans h') ?_
      rw [← live_eq (h.alive r) (h.finished r)]
      exact live

theorem Move.refl (env : Env) (r : Nat) (c : Client) : Move env r c c :=
  .calm (.refl c)

section

variable (env : Env) {r : Nat}

theorem finishReply_moves (err : String) (halive : (c.replies r).alive = true) :
    Move env r c (c.finishReply env r err) := by
  unfold Client.finishReply
  split
  · exact .refl env r c
  · next hf =>
      have hlive := Reply.live_of halive hf
      split <;> exact .ends _ _ (stopTimer_calm r) hlive

theorem abort_moves (halive : (c.replies r).alive = true) :
    Move env r c (c.abort env r) := by
  unfold Client.abort
  split
  · exact .refl env r c
  · next hf =>
      exact .ends _ _ (abortSocket_calm r) (Reply.live_of halive hf)

theorem timeout_moves (halive : (c.replies r).alive = true) :
    Move env r c (c.timeout env r) := by
  have hstop := stopTimer_calm (c := c) r
  unfold Client.timeout
  simp only []
  split
  · exact .calm hstop
  · next hf =>
      rw [hstop.finished] at hf
      exact .ends _ _ (hstop.trans (abortSocket_calm r))
        (Reply.live_of halive hf)

theorem usable_calm {a : Nat} (hstage : (c.attempts a).stage = .opening) :
    Calm who c (c.factoryDone env a .usable) := by
  have hu : (c.attempts a).Used := .inl (by rw [hstage]; simp)
  unfold Client.factoryDone
  simp only []
  split
  · exact .refl c
  · have hwire : Calm who c (c.wireSocketHandlers (c.attempts a).reply a) :=
      wireSocketHandlers_calm (.inr hu)
    have hu₁ : ((c.wireSocketHandlers (c.attempts a).reply a).attempts
        a).Used := withAttempt_used (.inr rfl)
    have hup : Calm who (c.wireSocketHandlers (c.attempts a).reply a)
        ((c.wireSocketHandlers (c.attempts a).reply a).withAttempt a
          fun t => { t with connected := true }) :=
      withAttempt_calm a _ rfl fun _ => .inr hu₁
    exact hwire.trans (hup.trans (socketReady_calm (withAttempt_used hu₁)))

theorem factoryDone_moves {a : Nat} (fd : Descriptor)
    (hstage : (c.attempts a).stage = .opening) :
    Move env (c.attempts a).reply c (c.factoryDone env a fd) := by
  cases fd with
  | usable => exact .calm (usable_calm env hstage)
  | none | unusable =>
      unfold Client.factoryDone
      simp only []
      split
      · exact .refl env _ c
      · next hdead =>
          have hlive : (c.replies (c.attempts a).reply).live = true := by
            simpa using hdead
          exact finishReply_moves env _ (Reply.live_iff.mp hlive).1

theorem unauthorized_moves_on (wwwAuth : Bytes)
    (halive : (c.replies r).alive = true) :
    Move env r c (c.unauthorized env r wwwAuth) := by
  have hcache : Calm (some r) c
      (c.cacheChallenge (parseDigestChallenge wwwAuth)) :=
    calm_of_eq rfl rfl rfl rfl rfl rfl rfl
  rw [← hcache.alive] at halive
  unfold Client.unauthorized
  simp only []
  refine .after hcache ?_
  generalize c.cacheChallenge (parseDigestChallenge wwwAuth) = c₁ at *
  have hcount : Calm (some r) c₁ (c₁.withReply r fun rd =>
      { rd with digestRetries := rd.digestRetries + 1 }) :=
    withReply_calm r _ rfl rfl rfl (.inl rfl)
  have hretry := hcount.trans (retryWithDigest_calm env r)
  split
  · exact finishReply_moves env _ halive
  · split <;> split
    · exact finishReply_moves env _ halive
    · exact .calm hretry
    · exact finishReply_moves env _ halive
    · exact .calm hretry

theorem readMore_moves (halive : (c.replies r).alive = true) :
    Move env r c (c.readMore env r) := by
  unfold Client.readMore
  simp only []
  split
  · exact .refl env r c
  · next a hsocket =>
      split
      · exact .refl env r c
      · have hunread := Reply.readPass_unread (c.attempts a).connected
          (c.attempts a).unread (c.replies r)
        cases hpass : (c.replies r).readPass (c.attempts a).connected
          (c.attempts a).unread with
        | mk rd verdict =>
            rw [hpass] at hunread
            have hcalm : Calm (some r) c ((c.withAttempt a fun t =>
                { t with unread := [] }).withReply r fun _ => rd) := by
              refine (withAttempt_calm a _ rfl .inr).trans
                (withReply_calm r _ ?_ ?_ ?_ (.inr rfl))
              · show rd.unread.alive = (c.replies r).unread.alive
                rw [hunread]
              · show rd.unread.finished = (c.replies r).unread.finished
                rw [hunread]
              · show rd.unread.drains = (c.replies r).unread.drains
                rw [hunread]
            have halive₁ := (hcalm.alive r).trans halive
            cases verdict with
            | needMore => exact .calm hcalm
            | finish err => exact .after hcalm (finishReply_moves env err halive₁)
            | unauthorized wwwAuth =>
                exact .after hcalm (unauthorized_moves_on env wwwAuth halive₁)

theorem errorOccurred_moves (errorString : String)
    (halive : (c.replies r).alive = true) :
    Move env r c (c.errorOccurred env r errorString) := by
  unfold Client.errorOccurred
  split
  · exact .refl env r c
  · next hf =>
      split
      · exact .refl env r c
      · exact .ends _ _ (.refl c) (Reply.live_of halive hf)

end

theorem reached_iff {a : Nat} {stage : Stage} : c.reached a stage = true ↔
    (c.attempts a).stage = stage ∧
      (c.replies (c.attempts a).reply).alive = true := by
  rw [reached, Bool.and_eq_true, beq_iff_eq]

theorem used_of_reached {a : Nat} {stage : Stage} (hs : stage ≠ .settled)
    (h : c.reached a stage = true) : (c.attempts a).Used :=
  .inl fun he => hs ((reached_iff.mp h).1.symm.trans he)

theorem wired_iff {a : Nat} : c.wired a = true ↔
    (c.attempts a).wired = true ∧
      (c.replies (c.attempts a).reply).alive = true := by
  rw [wired, Bool.and_eq_true]

end Client

def Event.ofTransport : Event → Bool
  | .timeout _ | .factoryDone _ _ | .connected _ | .encrypted _
  | .postedWrite _ | .sslErrors _ _ | .readyRead _ _ | .errorOccurred _ _
  | .disconnected _ => true
  | _ => false

namespace Client

variable {who : Option Nat} {c c' c'' : Client}

theorem handle_moves (env : Env) {e : Event} (he : e.ofTransport = true) :
    c.handle env e = c ∨ ∃ r, c.Owns r ∧ Move env r c (c.handle env e) := by
  have howns {a : Nat} (hu : (c.attempts a).Used)
      (halive : (c.replies (c.attempts a).reply).alive = true) :
      c.Owns (c.attempts a).reply := ⟨halive, .inr ⟨a, hu, rfl⟩⟩
  have hreached {a : Nat} {stage : Stage} (hr : c.reached a stage = true)
      (hs : stage ≠ .settled) : c.Owns (c.attempts a).reply :=
    howns (used_of_reached hs hr) (reached_iff.mp hr).2
  have hwired {a : Nat} (hw : c.wired a = true) :
      c.Owns (c.attempts a).reply :=
    howns (.inr (wired_iff.mp hw).1) (wired_iff.mp hw).2
  cases e with
  | timeout r =>
      rw [Client.handle]
      split
      · next hr => exact .inr ⟨r, ⟨hr.1, .inl hr.2⟩, timeout_moves env hr.1⟩
      · exact .inl rfl
  | factoryDone a fd =>
      rw [Client.handle]
      split
      · next hstage =>
          by_cases hlive : (c.replies (c.attempts a).reply).live = true
          · have hu : (c.attempts a).Used := .inl (by rw [hstage]; simp)
            exact .inr ⟨_, howns hu (Reply.live_iff.mp hlive).1,
              factoryDone_moves env fd hstage⟩
          · left
            unfold Client.factoryDone
            simp only []
            rw [if_pos (by simpa using hlive)]
      · exact .inl rfl
  | connected a =>
      rw [Client.handle]
      split
      · next hr =>
          exact .inr ⟨_, hreached hr (by simp),
            .calm (connected_calm (used_of_reached (by simp) hr))⟩
      · exact .inl rfl
  | encrypted a =>
      rw [Client.handle]
      split
      · next hr =>
          exact .inr ⟨_, hreached hr.1 (by simp),
            .calm (encrypted_calm (used_of_reached (by simp) hr.1))⟩
      · exact .inl rfl
  | postedWrite a =>
      rw [Client.handle]
      split
      · next hr =>
          exact .inr ⟨_, hreached hr (by simp),
            .calm (postedWrite_calm (used_of_reached (by simp) hr))⟩
      · exact .inl rfl
  | sslErrors a chain =>
      rw [Client.handle]
      split
      · next hr =>
          exact .inr ⟨_, hreached hr (by simp),
            .calm (sslErrors_calm env chain (used_of_reached (by simp) hr))⟩
      · exact .inl rfl
  | readyRead a chunk =>
      rw [Client.handle]
      split
      · next hw =>
          have hcalm : Calm (some (c.attempts a).reply) c (c.withAttempt a
              fun t => { t with unread := t.unread ++ chunk }) :=
            withAttempt_calm a _ rfl .inr
          exact .inr ⟨_, hwired hw,
            .after hcalm (readMore_moves env (wired_iff.mp hw).2)⟩
      · exact .inl rfl
  | errorOccurred a errorString =>
      rw [Client.handle]
      split
      · next hw =>
          exact .inr ⟨_, hwired hw,
            errorOccurred_moves env errorString (wired_iff.mp hw).2⟩
      · exact .inl rfl
  | disconnected a =>
      rw [Client.handle]
      split
      · next hw =>
          exact .inr ⟨_, hwired hw, .calm (withAttempt_calm a _ rfl .inr)⟩
      · exact .inl rfl
  | _ => cases he

/-! ## The invariant -/

/-- What holds of the client with a given queue and a given request in
flight. A reply in the queue has no transport yet, and only a reply in the
queue or the one in flight can still finish. -/
structure Line (c : Client) (queue : List Nat) (request : Option Nat) :
    Prop where
  serial : c.serializeRequests = true
  issued : ∀ r, (c.replies r).alive = true →
    r < c.nextReply ∧ (c.replies r).drains = true
  owned : ∀ a, (c.attempts a).Used → (c.attempts a).reply < c.nextReply
  nodup : queue.Nodup
  queued : ∀ q ∈ queue, q < c.nextReply ∧ q ∉ c.started ∧
    (c.replies q).finished = false ∧ (c.replies q).timer = .unarmed
  unopened : ∀ a, (c.attempts a).Used → (c.attempts a).reply ∉ queue
  begun : ∀ r ∈ c.started, r < c.nextReply
  live : ∀ r, (c.replies r).live = true → r ∈ queue ∨ request = some r
  flying : ∀ r, request = some r →
    r < c.nextReply ∧ r ∈ c.started ∧ r ∉ queue ∧
      (c.replies r).finished = false

/-- The same of the client's own queue and request, which wait for nothing
while no request is in flight. -/
structure Queued (c : Client) : Prop where
  line : c.Line c.pendingQueue c.currentRequest
  idle : c.current = none → c.pendingQueue = []

theorem queued_fresh : ({ serializeRequests := true } : Client).Queued := by
  have hblank : ¬ ({} : Attempt).Used := by simp [Attempt.Used]
  refine ⟨⟨rfl, ?_, ?_, .nil, ?_, ?_, ?_, ?_, ?_⟩, fun _ => rfl⟩
  · exact fun r hr => by cases hr
  · exact fun a ha => absurd ha hblank
  · exact fun q hq => by cases hq
  · exact fun a _ => List.not_mem_nil
  · exact fun r hr => by cases hr
  · exact fun r hr => by cases hr
  · exact fun r hr => by cases hr

/-- An operation on the transport of a reply that does not wait keeps the
line. -/
theorem Line.calm {queue : List Nat} {request : Option Nat}
    (h : c.Line queue request) (hc : Calm who c c')
    (hwho : ∀ r, who = some r → r < c.nextReply ∧ r ∉ queue) :
    c'.Line queue request where
  serial := hc.serial.trans h.serial
  issued r hr := by
    rw [hc.alive] at hr
    rw [hc.nextReply, hc.drains]
    exact h.issued r hr
  owned a ha := by
    rw [hc.nextReply]
    rcases hc.used a ha with hw | ⟨hu, heq⟩
    · exact (hwho _ hw).1
    · rw [heq]
      exact h.owned a hu
  nodup := h.nodup
  queued q hq := by
    have hne : who ≠ some q := fun he => (hwho q he).2 hq
    rw [hc.nextReply, hc.started, hc.finished, hc.timer q hne]
    exact h.queued q hq
  unopened a ha := by
    rcases hc.used a ha with hw | ⟨hu, heq⟩
    · exact (hwho _ hw).2
    · rw [heq]
      exact h.unopened a hu
  begun r hr := by
    rw [hc.started] at hr
    rw [hc.nextReply]
    exact h.begun r hr
  live r hr := by
    rw [live_eq (hc.alive r) (hc.finished r)] at hr
    exact h.live r hr
  flying r hr := by
    rw [hc.nextReply, hc.started, hc.finished]
    exact h.flying r hr

theorem Calm.current (hc : Calm who c c') : c'.current = c.current := by
  rw [Client.current, Client.current, hc.request]
  exact congrArg (fun p => Option.filter p c.currentRequest)
    (funext fun r => hc.alive r)

theorem Calm.flight (hc : Calm who c c') : c'.flight = c.flight := by
  have halive : (fun r => (c'.replies r).alive) = fun r => (c.replies r).alive :=
    funext hc.alive
  have hasked : c'.asked = c.asked := by
    rw [asked, asked, hc.nextReply, hc.started]
    exact List.filter_congr fun r _ => by rw [hc.alive]
  have hwaiting : c'.waiting = c.waiting := by
    rw [waiting, waiting, hc.queue, halive]
  rw [Client.flight, Client.flight, hasked, hc.current, hwaiting, hc.started]

theorem Queued.calm (h : c.Queued) (hc : Calm who c c')
    (hwho : ∀ r, who = some r → r < c.nextReply ∧ r ∉ c.pendingQueue) :
    c'.Queued := by
  refine ⟨?_, fun hn => ?_⟩
  · rw [hc.queue, hc.request]
    exact h.line.calm hc hwho
  · rw [hc.current] at hn
    rw [hc.queue]
    exact h.idle hn

/-- The discipline is kept, and the single-flight line makes a step. -/
def Serves (c c' : Client) : Prop :=
  c'.Queued ∧ Flight.Step c.flight c'.flight

theorem Queued.serves_calm (h : c.Queued) (hc : Calm who c c')
    (hwho : ∀ r, who = some r → r < c.nextReply ∧ r ∉ c.pendingQueue) :
    Serves c c' :=
  ⟨h.calm hc hwho, .idle hc.flight⟩

theorem Queued.serves_still (h : c.Queued) (hc : Calm none c c') :
    Serves c c' :=
  h.serves_calm hc fun r hr => by cases hr

theorem Queued.serves_refl (h : c.Queued) : Serves c c :=
  ⟨h, .idle rfl⟩

theorem Serves.after (hc : Calm who c c') (h : Serves c' c'') :
    Serves c c'' :=
  ⟨h.1, hc.flight ▸ h.2⟩

/-! ## Starting the next request -/

theorem started_emit (r : Nat) :
    (c.emit (.started r)).started = c.started ++ [r] := by
  simp [started, emit, Effect.start]

/-- The head of the queue is taken and started. -/
theorem Line.start {next : Nat} {rest : List Nat} (env : Env)
    (h : c.Line (next :: rest) none)
    (halive : (c.replies next).alive = true) :
    let c' := ({ c with
      currentRequest := some next
      pendingQueue := rest }).startNow env next
    c'.Queued ∧ c'.flight =
      { asked := c.asked
        current := some next
        waiting := rest.filter fun r => (c.replies r).alive
        started := c.started ++ [next] } := by
  intro c'
  let c₁ := ({ c with
    currentRequest := some next
    pendingQueue := rest }).emit (.started next)
  have hcalm : Calm (some next) c₁ c' := startNow_calm env next
  have hstarted : c₁.started = c.started ++ [next] := started_emit next
  have hnext := h.queued next List.mem_cons_self
  obtain ⟨hnotin, hnodup⟩ := List.nodup_cons.mp h.nodup
  have hcurrent : c₁.current = some next := by
    show Option.filter _ (some next) = _
    rw [Option.filter_some]
    exact if_pos halive
  have hline : c₁.Line rest (some next) := by
    refine ⟨h.serial, h.issued, h.owned, hnodup, fun q hq => ?_,
      fun a ha hq => ?_, fun r hr => ?_, fun r hr => ?_, fun r hr => ?_⟩
    · obtain ⟨hlt, hns, hfin, htimer⟩ := h.queued q (List.mem_cons_of_mem _ hq)
      refine ⟨hlt, fun hin => ?_, hfin, htimer⟩
      rw [hstarted, List.mem_append, List.mem_singleton] at hin
      rcases hin with hin | rfl
      · exact hns hin
      · exact hnotin hq
    · exact h.unopened a ha (List.mem_cons_of_mem _ hq)
    · rw [hstarted, List.mem_append, List.mem_singleton] at hr
      rcases hr with hr | rfl
      · exact h.begun r hr
      · exact hnext.1
    · rcases h.live r hr with hin | hnone
      · rcases List.mem_cons.mp hin with rfl | hin
        · exact .inr rfl
        · exact .inl hin
      · cases hnone
    · cases hr
      refine ⟨hnext.1, ?_, hnotin, hnext.2.2.1⟩
      rw [hstarted]
      exact List.mem_append_right _ List.mem_cons_self
  have hqueued : c₁.Queued :=
    ⟨hline, fun hn => by rw [hcurrent] at hn; cases hn⟩
  refine ⟨hqueued.calm hcalm fun r hr => ?_, ?_⟩
  · cases hr
    exact ⟨hnext.1, hnotin⟩
  · have hasked : c₁.asked = c.asked := by
      rw [asked, asked]
      refine List.filter_congr fun r _ => ?_
      show ((c.replies r).alive || c₁.started.contains r) = _
      rw [hstarted]
      by_cases hr : r = next
      · subst hr
        rw [halive]
        rfl
      · simp [hr]
    rw [hcalm.flight, Client.flight, hasked, hcurrent, hstarted]
    rfl

/-- The drainer starts the first reply of the queue that still exists. -/
theorem Line.drainQueue (env : Env) {queue : List Nat}
    (h : c.Line queue none) (hrequest : c.currentRequest = none) :
    (c.drainQueue env queue).Queued ∧
      (c.drainQueue env queue).flight =
        ({ asked := c.asked
           current := none
           waiting := queue.filter fun r => (c.replies r).alive
           started := c.started } : Flight Nat).settle := by
  induction queue with
  | nil =>
      have hcurrent : c.current = none := by
        rw [Client.current, hrequest]
        rfl
      rw [Client.drainQueue]
      refine ⟨⟨?_, fun _ => rfl⟩, ?_⟩
      · show Line _ [] c.currentRequest
        rw [hrequest]
        exact ⟨h.serial, h.issued, h.owned, h.nodup, h.queued, h.unopened,
          h.begun, h.live, h.flying⟩
      · have hflight : ({ c with pendingQueue := [] } : Client).flight =
            { asked := c.asked
              current := c.current
              waiting := []
              started := c.started } := rfl
        rw [Flight.settle_nil rfl, hflight, hcurrent]
        rfl
  | cons next rest ih =>
      rw [Client.drainQueue]
      split
      next halive =>
        obtain ⟨hqueued, hflight⟩ := h.start env halive
        have hwaiting : ((next :: rest).filter fun r => (c.replies r).alive) =
            next :: rest.filter fun r => (c.replies r).alive :=
          List.filter_cons_of_pos halive
        refine ⟨hqueued, ?_⟩
        rw [hflight, hwaiting, Flight.settle_cons rfl]
      next hdead =>
        have hwaiting : ((next :: rest).filter fun r => (c.replies r).alive) =
            rest.filter fun r => (c.replies r).alive :=
          List.filter_cons_of_neg hdead
        rw [hwaiting]
        refine ih ⟨h.serial, h.issued, h.owned, h.nodup.of_cons,
          fun q hq => h.queued q (List.mem_cons_of_mem _ hq),
          fun a ha hq => h.unopened a ha (List.mem_cons_of_mem _ hq),
          h.begun, fun r hr => ?_, fun r hr => by cases hr⟩
        rcases h.live r hr with hin | hnone
        · rcases List.mem_cons.mp hin with rfl | hin
          · exact absurd (Reply.live_iff.mp hr).1 hdead
          · exact .inl hin
        · exact .inr hnone

/-- The request in flight finishes, and the line moves on. -/
theorem Queued.emitFinished (env : Env) {r : Nat} (state : ReplyState)
    (errorString : String) (h : c.Queued) (hr : c.currentRequest = some r)
    (halive : (c.replies r).alive = true) :
    Serves c (c.emitFinished env r state errorString) := by
  let f (rd : Reply) : Reply := { rd with state, errorString, finished := true }
  let c₁ := ({ (c.withReply r f).emit (.finished r) with
    currentRequest := none } : Client)
  have halive₁ : ∀ s, (c₁.replies s).alive = (c.replies s).alive :=
    fun s => withReply_field Reply.alive r s f rfl
  have hdrains₁ : ∀ s, (c₁.replies s).drains = (c.replies s).drains :=
    fun s => withReply_field Reply.drains r s f rfl
  have htimer₁ : ∀ s, (c₁.replies s).timer = (c.replies s).timer :=
    fun s => withReply_field Reply.timer r s f rfl
  have hstarted₁ : c₁.started = c.started := by
    show (List.filterMap _ (_ ++ [_])) = _
    simp [started, Effect.start, withReply]
  have hline : c₁.Line c.pendingQueue none := by
    refine ⟨h.line.serial, fun s hs => ?_, h.line.owned, h.line.nodup,
      fun q hq => ?_, h.line.unopened, fun s hs => ?_, fun s hs => ?_,
      fun s hs => by cases hs⟩
    · rw [halive₁] at hs
      rw [hdrains₁]
      exact h.line.issued s hs
    · obtain ⟨hlt, hns, hfin, htimer⟩ := h.line.queued q hq
      refine ⟨hlt, by rw [hstarted₁]; exact hns, ?_, by rw [htimer₁, htimer]⟩
      have hne : q ≠ r := by
        rintro rfl
        exact (h.line.flying q hr).2.2.1 hq
      show ((c.withReply r f).replies q).finished = false
      rw [withReply_replies, if_neg hne]
      exact hfin
    · rw [hstarted₁] at hs
      exact h.line.begun s hs
    · have hs' : ((c.withReply r f).replies s).live = true := hs
      rw [withReply_replies] at hs'
      split at hs'
      next => simp [f, Reply.live] at hs'
      next hne =>
        rcases h.line.live s hs' with hin | hs'
        · exact .inl hin
        · rw [hr] at hs'
          cases hs'
          exact absurd rfl hne
  obtain ⟨hqueued, hflight⟩ := hline.drainQueue env rfl
  have hend : c.emitFinished env r state errorString =
      c₁.drainQueue env c.pendingQueue := by
    have hdrains : (((c.withReply r f).emit (.finished r)).replies r).drains =
        true := (hdrains₁ r).trans (h.line.issued r halive).2
    unfold Client.emitFinished
    simp only []
    rw [if_pos hdrains]
    rfl
  have hasked : c₁.asked = c.asked := by
    rw [asked, asked, hstarted₁]
    exact List.filter_congr fun s _ => by rw [halive₁]
  rw [hend]
  refine ⟨hqueued, .settle ?_⟩
  rw [hflight, hasked, hstarted₁, show (fun s => (c₁.replies s).alive) =
    fun s => (c.replies s).alive from funext halive₁]
  rfl

/-! ## The events -/

/-- A reply with a transport of its own is not in the queue. -/
theorem Queued.owns (h : c.Queued) {r : Nat} (ho : c.Owns r) :
    r ∉ c.pendingQueue := by
  intro hin
  rcases ho.2 with htimer | ⟨a, hu, rfl⟩
  · have := (h.line.queued r hin).2.2.2
    rw [htimer] at this
    cases this
  · exact h.line.unopened a hu hin

theorem Queued.move {env : Env} {r : Nat} (h : c.Queued)
    (halive : (c.replies r).alive = true) (hn : r ∉ c.pendingQueue)
    (hm : Move env r c c') : Serves c c' := by
  have hr := (h.line.issued r halive).1
  have hwho : ∀ s, some r = some s → s < c.nextReply ∧ s ∉ c.pendingQueue := by
    intro s hs
    cases hs
    exact ⟨hr, hn⟩
  cases hm with
  | calm hc => exact h.serves_calm hc hwho
  | ends state errorString hc hlive =>
      refine .after hc ((h.calm hc hwho).emitFinished env state errorString
        ?_ ((hc.alive r).trans halive))
      rw [hc.request]
      exact (h.line.live r hlive).resolve_left hn

/-! ### Destroying a reply -/

theorem kill_alive (r s : Nat) :
    ((c.withReply r fun rd => { rd with alive := false }).replies s).alive =
      ((c.replies s).alive && decide (s ≠ r)) := by
  rw [withReply_replies]
  split
  next heq => simp [heq]
  next hne => simp [hne]

theorem kill_live {r s : Nat} (h : ((c.withReply r fun rd =>
    { rd with alive := false }).replies s).live = true) :
    (c.replies s).live = true := by
  refine withReply_imp (p := fun rd => rd.live = true) (fun h => ?_) s h
  simp [Reply.live] at h

theorem Line.kill {queue : List Nat} {request : Option Nat}
    (h : c.Line queue request) (r : Nat) :
    (c.withReply r fun rd => { rd with alive := false }).Line queue request := by
  let f (rd : Reply) : Reply := { rd with alive := false }
  have hdrains s : ((c.withReply r f).replies s).drains = (c.replies s).drains :=
    withReply_field Reply.drains r s f rfl
  have hfinished s :
      ((c.withReply r f).replies s).finished = (c.replies s).finished :=
    withReply_field Reply.finished r s f rfl
  have htimer s : ((c.withReply r f).replies s).timer = (c.replies s).timer :=
    withReply_field Reply.timer r s f rfl
  refine ⟨h.serial, fun s hs => ?_, h.owned, h.nodup, fun q hq => ?_,
    h.unopened, h.begun, fun s hs => h.live s (kill_live hs), fun s hs => ?_⟩
  · rw [kill_alive, Bool.and_eq_true] at hs
    obtain ⟨hlt, hd⟩ := h.issued s hs.1
    exact ⟨hlt, (hdrains s).trans hd⟩
  · obtain ⟨hlt, hns, hfin, hun⟩ := h.queued q hq
    exact ⟨hlt, hns, (hfinished q).trans hfin, (htimer q).trans hun⟩
  · obtain ⟨hlt, hs', hnq, hfin⟩ := h.flying s hs
    exact ⟨hlt, hs', hnq, (hfinished s).trans hfin⟩

theorem kill_waiting (r : Nat) :
    (c.withReply r fun rd => { rd with alive := false }).waiting =
      c.waiting.filter (· ≠ r) := by
  rw [waiting, waiting, List.filter_filter]
  refine List.filter_congr fun s _ => ?_
  rw [kill_alive, Bool.and_comm]

theorem kill_asked {r : Nat} (hr : r ∉ c.started) :
    (c.withReply r fun rd => { rd with alive := false }).asked =
      c.asked.filter (· ≠ r) := by
  rw [asked, asked, List.filter_filter]
  refine List.filter_congr fun s _ => ?_
  rw [kill_alive]
  by_cases hs : s = r
  · subst hs
    simpa [started, withReply] using hr
  · simp only [hs, ne_eq, not_false_eq_true, decide_true, Bool.and_true,
      Bool.true_and]
    rfl

theorem kill_asked_started {r : Nat} (hr : r ∈ c.started) :
    (c.withReply r fun rd => { rd with alive := false }).asked = c.asked := by
  rw [asked, asked]
  refine List.filter_congr fun s _ => ?_
  rw [kill_alive]
  by_cases hs : s = r
  · subst hs
    have : c.started.contains s = true := by simpa using hr
    rw [this, Bool.or_true]
    exact (Bool.or_eq_true_iff).mpr (.inr this)
  · simp only [hs, ne_eq, not_false_eq_true, decide_true, Bool.and_true]
    rfl

theorem kill_current_ne {r : Nat} (hr : c.current ≠ some r) :
    (c.withReply r fun rd => { rd with alive := false }).current =
      c.current := by
  rw [current, current]
  show Option.filter _ c.currentRequest = _
  cases hreq : c.currentRequest with
  | none => rfl
  | some s =>
      rw [Option.filter_some, Option.filter_some, kill_alive]
      by_cases hs : s = r
      · subst hs
        rw [current, hreq, Option.filter_some] at hr
        have hdead : ¬ (c.replies s).alive = true := fun h => hr (if_pos h)
        simp [hdead]
      · simp [hs]

/-- The reply in flight is over with its object, and nothing waits; or a
waiting reply is withdrawn; or the reply had finished before. -/
theorem Queued.kill {r : Nat} (h : c.Queued) (hserved : c.flight.Served)
    (halive : (c.replies r).alive = true)
    (hcurrent : c.current = some r → c.pendingQueue = []) :
    Serves c (c.withReply r fun rd => { rd with alive := false }) := by
  have hline := h.line.kill r
  by_cases hq : r ∈ c.pendingQueue
  · have hns : r ∉ c.started := (h.line.queued r hq).2.1
    have hne : c.current ≠ some r := by
      intro hc
      rw [hcurrent hc] at hq
      cases hq
    have hcur := kill_current_ne hne
    refine ⟨⟨hline, fun hn => h.idle (hcur.symm.trans hn)⟩, .withdraw r hns ?_⟩
    rw [flight, kill_asked hns, hcur, kill_waiting]
    rfl
  · by_cases hc : c.current = some r
    · have hempty := hcurrent hc
      have hreq : c.currentRequest = some r := (Option.filter_eq_some_iff.mp hc).1
      have hstarted := (h.line.flying r hreq).2.1
      refine ⟨⟨hline, fun _ => hempty⟩, .settle ?_⟩
      have hcur : (c.withReply r fun rd => { rd with alive := false }).current =
          none := by
        rw [current]
        show Option.filter _ c.currentRequest = _
        rw [hreq, Option.filter_some, kill_alive]
        simp
      have hwaiting : c.waiting = [] := by
        rw [waiting, hempty]
        rfl
      rw [Flight.settle_nil hwaiting, flight, kill_asked_started hstarted, hcur,
        kill_waiting, hwaiting]
      show _ = ({ c.flight with current := none } : Flight Nat)
      rw [flight, hwaiting]
      rfl
    · have hcur := kill_current_ne hc
      have hnw : r ∉ c.waiting := fun hin => hq (List.mem_of_mem_filter hin)
      have hstarted : r ∈ c.started := by
        have hasked : r ∈ c.started ++ c.waiting := by
          have horder : c.started ++ c.waiting = c.asked := hserved.order
          rw [horder, asked, List.mem_filter, List.mem_range]
          exact ⟨(h.line.issued r halive).1, by rw [halive]; rfl⟩
        exact (List.mem_append.mp hasked).resolve_right hnw
      have hwaiting : c.waiting.filter (· ≠ r) = c.waiting := by
        rw [List.filter_eq_self]
        intro s hs
        have hne : s ≠ r := fun he => hnw (he ▸ hs)
        simpa using hne
      refine ⟨⟨hline, fun hn => h.idle (hcur.symm.trans hn)⟩, .idle ?_⟩
      rw [flight, kill_asked_started hstarted, hcur, kill_waiting, hwaiting]
      rfl

theorem Queued.destroy {r : Nat} (h : c.Queued) (hserved : c.flight.Served)
    (halive : (c.replies r).alive = true)
    (hcurrent : c.current = some r → c.pendingQueue = []) :
    Serves c (c.destroy r) := by
  have hcalm : Calm none c (c.abortSocket r) := abortSocket_calm r
  have h₁ := h.calm hcalm fun s hs => by cases hs
  refine .after hcalm (h₁.kill ?_ ?_ ?_)
  · rw [hcalm.flight]
    exact hserved
  · rw [hcalm.alive]
    exact halive
  · rw [hcalm.current, hcalm.queue]
    exact hcurrent

/-! ### A new reply -/

/-- A request that was destroyed is none. -/
theorem Line.idle {queue : List Nat} {request : Option Nat}
    (h : c.Line queue request)
    (hdead : ∀ r, request = some r → ¬ (c.replies r).alive = true) :
    c.Line queue none where
  serial := h.serial
  issued := h.issued
  owned := h.owned
  nodup := h.nodup
  queued := h.queued
  unopened := h.unopened
  begun := h.begun
  live r hr := by
    rcases h.live r hr with hin | hreq
    · exact .inl hin
    · exact absurd (Reply.live_iff.mp hr).1 (hdead r hreq)
  flying r hr := by cases hr

theorem newReply_ne (envelope : Bytes) (soapAction : Option Bytes) {r : Nat}
    (hr : r ≠ c.nextReply) :
    (c.newReply envelope soapAction).replies r = c.replies r :=
  Function.update_of_ne hr ..

/-- The new reply is at the end of the line. -/
theorem Line.newReply {queue : List Nat} {request : Option Nat}
    (h : c.Line queue request) (envelope : Bytes) (soapAction : Option Bytes) :
    (c.newReply envelope soapAction).Line (queue ++ [c.nextReply]) request := by
  have hsame {r : Nat} (hr : r < c.nextReply) :=
    newReply_ne (c := c) envelope soapAction (Nat.ne_of_lt hr)
  have hnew : (c.newReply envelope soapAction).replies c.nextReply = _ :=
    Function.update_self ..
  have hnq : c.nextReply ∉ queue :=
    fun hin => Nat.lt_irrefl _ (h.queued _ hin).1
  refine ⟨h.serial, fun r hr => ?_, fun a ha => ?_, ?_, fun q hq => ?_,
    fun a ha => ?_, fun r hr => ?_, fun r hr => ?_, fun r hr => ?_⟩
  · by_cases heq : r = c.nextReply
    · subst heq
      rw [hnew]
      exact ⟨Nat.lt_succ_self _, h.serial⟩
    · rw [newReply_ne _ _ heq] at hr ⊢
      obtain ⟨hlt, hd⟩ := h.issued r hr
      exact ⟨Nat.lt_succ_of_lt hlt, hd⟩
  · exact Nat.lt_succ_of_lt (h.owned a ha)
  · rw [List.nodup_append]
    refine ⟨h.nodup, List.pairwise_singleton _ _, ?_⟩
    rintro q hq r hr rfl
    rw [List.mem_singleton] at hr
    exact hnq (hr ▸ hq)
  · rw [List.mem_append, List.mem_singleton] at hq
    rcases hq with hq | rfl
    · obtain ⟨hlt, hns, hfin, htimer⟩ := h.queued q hq
      rw [hsame hlt]
      exact ⟨Nat.lt_succ_of_lt hlt, hns, hfin, htimer⟩
    · rw [hnew]
      exact ⟨Nat.lt_succ_self _,
        fun hin => Nat.lt_irrefl _ (h.begun _ hin), rfl, rfl⟩
  · have hlt : (c.attempts a).reply < c.nextReply := h.owned a ha
    rw [List.mem_append, List.mem_singleton]
    rintro (hin | heq)
    · exact h.unopened a ha hin
    · exact Nat.ne_of_lt hlt heq
  · exact Nat.lt_succ_of_lt (h.begun r hr)
  · by_cases heq : r = c.nextReply
    · subst heq
      exact .inl (List.mem_append_right _ List.mem_cons_self)
    · rw [newReply_ne _ _ heq] at hr
      exact (h.live r hr).imp_left (List.mem_append_left _)
  · obtain ⟨hlt, hin, hnr, hfin⟩ := h.flying r hr
    rw [hsame hlt]
    refine ⟨Nat.lt_succ_of_lt hlt, hin, ?_, hfin⟩
    rw [List.mem_append, List.mem_singleton]
    rintro (hin | rfl)
    · exact hnr hin
    · exact Nat.lt_irrefl _ hlt

theorem newReply_asked (envelope : Bytes)
    (soapAction : Option Bytes) :
    (c.newReply envelope soapAction).asked = c.asked ++ [c.nextReply] := by
  rw [asked, asked]
  show (List.range (c.nextReply + 1)).filter _ = _
  rw [List.range_succ, List.filter_append]
  congr 1
  · refine List.filter_congr fun r hr => ?_
    rw [newReply_ne _ _ (Nat.ne_of_lt (List.mem_range.mp hr))]
    rfl
  · refine List.filter_eq_self.mpr fun r hr => ?_
    rw [List.mem_singleton] at hr
    subst hr
    rw [show (c.newReply envelope soapAction).replies c.nextReply = _ from
      Function.update_self ..]
    rfl

theorem newReply_current (h : c.Queued) (envelope : Bytes)
    (soapAction : Option Bytes) :
    (c.newReply envelope soapAction).current = c.current := by
  rw [current, current]
  show Option.filter _ c.currentRequest = _
  cases hreq : c.currentRequest with
  | none => rfl
  | some r =>
      have hlt := (h.line.flying r hreq).1
      rw [Option.filter_some, Option.filter_some,
        newReply_ne _ _ (Nat.ne_of_lt hlt)]

theorem newReply_waiting (h : c.Queued) (envelope : Bytes)
    (soapAction : Option Bytes) :
    (c.pendingQueue.filter fun r =>
      ((c.newReply envelope soapAction).replies r).alive) = c.waiting := by
  rw [waiting]
  refine List.filter_congr fun r hr => ?_
  rw [newReply_ne _ _ (Nat.ne_of_lt (h.line.queued r hr).1)]

theorem Line.requeue {queue : List Nat} {request : Option Nat}
    (h : c.Line queue request) (queue' : List Nat) (request' : Option Nat) :
    ({ c with
      pendingQueue := queue'
      currentRequest := request' } : Client).Line queue request :=
  ⟨h.serial, h.issued, h.owned, h.nodup, h.queued, h.unopened, h.begun, h.live,
    h.flying⟩

theorem Queued.sendEnvelope (env : Env) (envelope : Bytes)
    (soapAction : Option Bytes) (h : c.Queued) :
    Serves c (c.sendEnvelope env envelope soapAction) := by
  have hline := h.line.newReply envelope soapAction
  have hasked := newReply_asked (c := c) envelope soapAction
  have hcur := newReply_current h envelope soapAction
  have hwait := newReply_waiting h envelope soapAction
  have hnew : ((c.newReply envelope soapAction).replies c.nextReply).alive =
      true := by
    rw [show (c.newReply envelope soapAction).replies c.nextReply = _ from
      Function.update_self ..]
  have hserial : (c.newReply envelope soapAction).serializeRequests = true :=
    h.line.serial
  unfold Client.sendEnvelope
  simp only []
  rw [if_neg (by rw [hserial]; decide)]
  split
  next y hy =>
    rw [hcur] at hy
    refine ⟨⟨hline.requeue _ _, fun hn => ?_⟩, .submit c.nextReply ?_⟩
    · have hn' : (c.newReply envelope soapAction).current = none := hn
      rw [hcur, hy] at hn'
      cases hn'
    · rw [Flight.submit_busy hy]
      have hflight : Client.flight { c.newReply envelope soapAction with
            pendingQueue := c.pendingQueue ++ [c.nextReply] } =
          { asked := (c.newReply envelope soapAction).asked
            current := (c.newReply envelope soapAction).current
            waiting := (c.pendingQueue ++ [c.nextReply]).filter fun r =>
              ((c.newReply envelope soapAction).replies r).alive
            started := c.started } := rfl
      have hlast : ([c.nextReply].filter fun r =>
          ((c.newReply envelope soapAction).replies r).alive) =
            [c.nextReply] := List.filter_cons_of_pos hnew
      refine hflight.trans ?_
      rw [hasked, hcur, List.filter_append, hwait, hlast]
      rfl
  next hy =>
    rw [hcur] at hy
    have hempty := h.idle hy
    have hempty' : (c.newReply envelope soapAction).pendingQueue = [] := hempty
    rw [hempty, List.nil_append] at hline
    rw [hempty', List.nil_append]
    have hdead : ∀ r, c.currentRequest = some r →
        ¬ ((c.newReply envelope soapAction).replies r).alive = true := by
      intro r hr
      have hlt := (h.line.flying r hr).1
      rw [newReply_ne _ _ (Nat.ne_of_lt hlt)]
      rw [current, hr, Option.filter_some] at hy
      split at hy
      next => cases hy
      next hdead => exact hdead
    obtain ⟨hqueued, hflight⟩ := (hline.idle hdead).start env hnew
    have hwaiting : c.waiting = [] := by
      rw [waiting, hempty]
      rfl
    have hsubmit : ({ c.flight with
        asked := c.flight.asked ++ [c.nextReply]
        current := some c.nextReply
        started := c.flight.started ++ [c.nextReply] } : Flight Nat) =
          { asked := c.asked ++ [c.nextReply]
            current := some c.nextReply
            waiting := c.waiting
            started := c.started ++ [c.nextReply] } := rfl
    refine ⟨hqueued, .submit c.nextReply ?_⟩
    rw [Flight.submit_idle hy, hsubmit, hwaiting]
    refine hflight.trans ?_
    rw [hasked]
    rfl

/-! ## Runs -/

/-- The mode stays serialized, nobody aborts a reply that waits, and a reply
in flight is destroyed only while the queue is empty. -/
def KeepsLine (c : Client) : Event → Prop
  | .setSerializeRequests serialize => serialize = true
  | .abort r => r ∉ c.waiting
  | .destroy r => c.current = some r → c.pendingQueue = []
  | _ => True

instance (c : Client) (e : Event) : Decidable (c.KeepsLine e) := by
  cases e <;> unfold KeepsLine <;> infer_instance

/-- Every event is a step of the single-flight line, or none. -/
theorem Queued.handle (env : Env) {e : Event} (h : c.Queued)
    (hserved : c.flight.Served) (he : c.KeepsLine e) :
    Serves c (c.handle env e) := by
  have htransport (ht : e.ofTransport = true) : Serves c (c.handle env e) := by
    rcases handle_moves env ht with heq | ⟨r, ho, hm⟩
    · rw [heq]
      exact h.serves_refl
    · exact h.move ho.1 (h.owns ho) hm
  cases e with
  | setEndpoint | setCredentials | setTrustedFingerprints
  | setTransferTimeoutMs | setSocketFactory =>
      refine h.serves_still ?_
      exact calm_of_eq rfl rfl rfl rfl rfl rfl rfl
  | setSerializeRequests serialize =>
      refine h.serves_still ?_
      exact calm_of_eq (he.trans h.line.serial.symm) rfl rfl rfl rfl rfl rfl
  | trustPendingPeerCert =>
      show Serves c c.trustPendingPeerCert
      unfold trustPendingPeerCert
      simp only []
      split
      · exact h.serves_refl
      · refine h.serves_still ?_
        exact calm_of_eq rfl rfl rfl rfl rfl rfl rfl
  | sendEnvelope envelope soapAction =>
      exact h.sendEnvelope env envelope soapAction
  | abort r =>
      rw [Client.handle]
      split
      next halive =>
        refine h.move halive (fun hin => he ?_) (abort_moves env halive)
        exact List.mem_filter.mpr ⟨hin, halive⟩
      next => exact h.serves_refl
  | destroy r =>
      rw [Client.handle]
      split
      next halive => exact h.destroy hserved halive he
      next => exact h.serves_refl
  | _ => exact htransport rfl

theorem served_fresh : ({ serializeRequests := true } : Client).flight.Served :=
  ⟨rfl, fun _ => rfl⟩

theorem run_served (env : Env) {es : List Event}
    (h : Guarded (Client.handle env) (fun _ c e => c.KeepsLine e)
      { serializeRequests := true } es) :
    (run (Client.handle env) { serializeRequests := true } es).Queued ∧
      (run (Client.handle env) { serializeRequests := true }
        es).flight.Served := by
  refine h.invariant (fun c => c.Queued ∧ c.flight.Served) ?_
    ⟨queued_fresh, served_fresh⟩
  rintro _ c e ⟨hq, hs⟩ he
  obtain ⟨hq', hstep⟩ := hq.handle env hs he
  exact ⟨hq', hstep.served hs⟩

/-- A reply whose transport was started and that has not finished. One that
was destroyed took its transport with it. -/
def InFlight (c : Client) (r : Nat) : Prop :=
  r ∈ c.started ∧ (c.replies r).live = true

theorem Queued.inFlight (h : c.Queued) {r : Nat} (hr : c.InFlight r) :
    c.current = some r := by
  have hreq : c.currentRequest = some r := by
    refine (h.line.live r hr.2).resolve_left fun hin => ?_
    exact (h.line.queued r hin).2.1 hr.1
  rw [current, hreq, Option.filter_some]
  exact if_pos (Reply.live_iff.mp hr.2).1

theorem Queued.current_inFlight (h : c.Queued) {r : Nat}
    (hr : c.current = some r) : c.InFlight r := by
  obtain ⟨hreq, halive⟩ := Option.filter_eq_some_iff.mp hr
  obtain ⟨-, hs, -, hfin⟩ := h.line.flying r hreq
  exact ⟨hs, Reply.live_iff.mpr ⟨halive, hfin⟩⟩

theorem asked_sorted (c : Client) : c.asked.Pairwise (· < ·) :=
  List.pairwise_lt_range.filter _

end Client

/-- What a serialized client promises: one reply in flight at a time, replies
started in the order they were made and each at most once, none of those that
still exist lost, and none waiting without one in flight. -/
structure SingleFlight (c : Client) : Prop where
  single : ∀ r s, c.InFlight r → c.InFlight s → r = s
  fifo : c.started.Pairwise (· < ·)
  ahead : ∀ r ∈ c.started, ∀ s ∈ c.waiting, r < s
  kept : ∀ r, (c.replies r).alive = true → r ∈ c.started ∨ r ∈ c.waiting
  progress : c.waiting ≠ [] → ∃ r, c.InFlight r

/-- Every run that aborts no waiting reply, and destroys one in flight only
while the queue is empty, ends with the promises kept; and where nothing is in
flight every reply that still exists has been started exactly once. -/
theorem single_flight (env : Env) (es : List Event)
    (h : Guarded (Client.handle env) (fun _ c e => c.KeepsLine e)
      { serializeRequests := true } es) :
    let c := run (Client.handle env) { serializeRequests := true } es
    SingleFlight c ∧ ((∀ r, ¬ c.InFlight r) →
      ∀ r, (c.replies r).alive = true → c.started.count r = 1) := by
  intro c
  obtain ⟨hq, hs⟩ : c.Queued ∧ c.flight.Served := Client.run_served env h
  have horder : c.started ++ c.waiting = c.asked := hs.order
  have hsorted := c.asked_sorted
  rw [← horder, List.pairwise_append] at hsorted
  obtain ⟨hfifo, -, hahead⟩ := hsorted
  have hkept : ∀ r, (c.replies r).alive = true →
      r ∈ c.started ∨ r ∈ c.waiting := by
    intro r hr
    rw [← List.mem_append, horder, Client.asked, List.mem_filter,
      List.mem_range]
    exact ⟨(hq.line.issued r hr).1, by rw [hr]; rfl⟩
  have hprogress : c.waiting ≠ [] → ∃ r, c.InFlight r := by
    intro hw
    obtain ⟨x, hx⟩ := List.exists_mem_of_ne_nil _ hw
    obtain ⟨r, hr⟩ := Option.isSome_iff_exists.mp (hs.progress hx)
    exact ⟨r, hq.current_inFlight hr⟩
  refine ⟨⟨fun r s hr hs => ?_, hfifo, hahead, hkept, hprogress⟩,
    fun hnone r hr => ?_⟩
  · have := (hq.inFlight hr).symm.trans (hq.inFlight hs)
    exact Option.some.inj this
  · have hempty : c.waiting = [] := by
      by_contra hw
      obtain ⟨s, hs⟩ := hprogress hw
      exact hnone s hs
    have hin : r ∈ c.started := by
      rcases hkept r hr with hin | hin
      · exact hin
      · rw [hempty] at hin
        cases hin
    have hnodup : c.started.Nodup := hfifo.imp Nat.ne_of_lt
    exact List.count_eq_one_of_mem hnodup hin

private def quietEnv : Env where
  md5Hex := id
  sha256 := id
  randomCnonce _ := []

/-- The second of three is withdrawn while it waits, the first times out, and
the third is destroyed in flight. -/
theorem single_flight_withdrawn :
    let c := run (Client.handle quietEnv) { serializeRequests := true }
      [.sendEnvelope [] none, .sendEnvelope [] none, .sendEnvelope [] none,
        .destroy 1, .timeout 0, .destroy 2, .sendEnvelope [] none]
    SingleFlight c ∧ ((∀ r, ¬ c.InFlight r) →
      ∀ r, (c.replies r).alive = true → c.started.count r = 1) :=
  single_flight quietEnv _ (by decide)

/-- A reply aborted while it waits starts the one before it in the queue,
beside the one in flight. -/
theorem single_flight_aborted :
    ¬ ∀ (env : Env) (es : List Event),
      (∀ serialize, Event.setSerializeRequests serialize ∉ es) →
      SingleFlight
        (run (Client.handle env) { serializeRequests := true } es) := by
  intro h
  have hc := h quietEnv
    [.sendEnvelope [] none, .sendEnvelope [] none, .sendEnvelope [] none,
      .abort 2] (by simp)
  have h0 : Client.InFlight (run (Client.handle quietEnv)
      { serializeRequests := true } [.sendEnvelope [] none,
        .sendEnvelope [] none, .sendEnvelope [] none, .abort 2]) 0 :=
    ⟨by decide, by decide⟩
  have h1 : Client.InFlight (run (Client.handle quietEnv)
      { serializeRequests := true } [.sendEnvelope [] none,
        .sendEnvelope [] none, .sendEnvelope [] none, .abort 2]) 1 :=
    ⟨by decide, by decide⟩
  cases hc.single 0 1 h0 h1

end QuMesh.Wsman
