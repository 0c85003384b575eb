import QuMesh.Proofs.ReplyOutcome

/-!
# No reply is left behind

A client may be told to serialize its requests, and not to, at any time. A
reply that has not finished was started, or it waits in the queue, and while
one waits another is in flight that has not finished and will drain. What the
roster says of the queue and of the request in flight is what keeps this true:
nothing that waits can finish, and nothing that finished is waited for. It
takes that no reply is aborted, and none destroyed before it has finished.
-/

namespace QuMesh.Wsman

open QuMesh.Lib

namespace Client

variable {who : Option Nat} {c c' : Client} {queue rest : List Nat}
  {request : Option Nat}

structure Roster (c : Client) (queue : List Nat) (request : Option Nat) :
    Prop where
  nodup : queue.Nodup
  issued : ∀ r, (c.replies r).alive = true → r < c.nextReply
  lives : ∀ r < c.nextReply, (c.replies r).finished = false →
    (c.replies r).alive = true
  owned : ∀ a, (c.attempts a).Used →
    (c.attempts a).reply < c.nextReply ∧ (c.attempts a).reply ∉ queue
  queued : ∀ q ∈ queue, q < c.nextReply ∧ (c.replies q).drains = true ∧
    (c.replies q).finished = false ∧ (c.replies q).timer = .unarmed
  flying : ∀ r, request = some r → r < c.nextReply ∧ r ∉ queue ∧
    (c.replies r).drains = true ∧ (c.replies r).finished = false ∧
      r ∈ c.started
  kept : ∀ r < c.nextReply, r ∈ c.started ∨ r ∈ queue

/-- The roster of the client's own queue and request. -/
structure Rostered (c : Client) : Prop where
  roster : c.Roster c.pendingQueue c.currentRequest
  idle : c.currentRequest = none → c.pendingQueue = []

theorem rostered_fresh : ({} : Client).Rostered where
  roster :=
    { nodup := .nil
      issued := fun _ h => by cases h
      lives := fun _ h => absurd h (Nat.not_lt_zero _)
      owned := fun _ h => absurd h (by simp [Attempt.Used])
      queued := fun _ h => absurd h List.not_mem_nil
      flying := fun _ h => by cases h
      kept := fun _ h => absurd h (Nat.not_lt_zero _) }
  idle _ := rfl

/-- A reply that has not finished has another one to wait for, or is in
flight itself. -/
theorem Rostered.served (h : c.Rostered) {r : Nat} (hr : r < c.nextReply)
    (hf : (c.replies r).finished = false) : ∃ s, c.InFlight s := by
  rcases h.roster.kept r hr with hstarted | hwaits
  · exact ⟨r, hstarted, Reply.live_iff.mpr ⟨h.roster.lives r hr hf, hf⟩⟩
  · cases hrequest : c.currentRequest with
    | none =>
        rw [h.idle hrequest] at hwaits
        cases hwaits
    | some s =>
        obtain ⟨hs, -, -, hfs, hstarted⟩ := h.roster.flying s hrequest
        exact ⟨s, hstarted, Reply.live_iff.mpr ⟨h.roster.lives s hs hfs, hfs⟩⟩

/-! ## Transports -/

theorem Roster.of_eq (h : c.Roster queue request)
    (hreplies : c'.replies = c.replies) (hattempts : c'.attempts = c.attempts)
    (hnext : c'.nextReply = c.nextReply) (hout : c'.out = c.out) :
    c'.Roster queue request := by
  have hstarted : c'.started = c.started := by rw [started, started, hout]
  obtain ⟨hnodup, hissued, hlives, howned, hqueued, hflying, hkept⟩ := h
  rw [← hreplies, ← hnext] at hissued hlives hqueued hflying
  rw [← hattempts, ← hnext] at howned
  rw [← hstarted] at hflying hkept
  rw [← hnext] at hkept
  exact ⟨hnodup, hissued, hlives, howned, hqueued, hflying, hkept⟩

/-- A reply with a transport of its own does not wait. -/
theorem Roster.owns (h : c.Roster queue request) {r : Nat} (ho : c.Owns r) :
    r < c.nextReply ∧ r ∉ queue := by
  refine ⟨h.issued r ho.1, fun hin => ?_⟩
  rcases ho.2 with htimer | ⟨a, hu, rfl⟩
  · have := (h.queued r hin).2.2.2
    rw [htimer] at this
    cases this
  · exact (h.owned a hu).2 hin

theorem Roster.calm (h : c.Roster queue request) (hc : Calm who c c')
    (hwho : ∀ r, who = some r → r < c.nextReply ∧ r ∉ queue) :
    c'.Roster queue request where
  nodup := h.nodup
  issued r hr := by
    rw [hc.alive] at hr
    rw [hc.nextReply]
    exact h.issued r hr
  lives r hr hf := by
    rw [hc.nextReply] at hr
    rw [hc.finished] at hf
    rw [hc.alive]
    exact h.lives r hr hf
  owned a ha := by
    rw [hc.nextReply]
    rcases hc.used a ha with hw | ⟨hu, heq⟩
    · exact hwho _ hw
    · rw [heq]
      exact h.owned a hu
  queued q hq := by
    have hne : who ≠ some q := fun he => (hwho q he).2 hq
    rw [hc.nextReply, hc.drains, hc.finished, hc.timer q hne]
    exact h.queued q hq
  flying r hr := by
    rw [hc.nextReply, hc.drains, hc.finished, hc.started]
    exact h.flying r hr
  kept r hr := by
    rw [hc.nextReply] at hr
    rw [hc.started]
    exact h.kept r hr

theorem Rostered.calm (h : c.Rostered) (hc : Calm who c c')
    (hwho : ∀ r, who = some r → r < c.nextReply ∧ r ∉ c.pendingQueue) :
    c'.Rostered := by
  refine ⟨?_, fun hn => ?_⟩
  · rw [hc.queue, hc.request]
    exact h.roster.calm hc hwho
  · rw [hc.request] at hn
    rw [hc.queue]
    exact h.idle hn

/-! ## Starting and finishing -/

/-- The history says that a reply was started. -/
theorem Roster.emit_started (h : c.Roster queue request) (r : Nat) :
    (c.emit (.started r)).Roster queue request where
  nodup := h.nodup
  issued := h.issued
  lives := h.lives
  owned := h.owned
  queued := h.queued
  flying s hs := by
    obtain ⟨hlt, hnq, hdrains, hf, hstarted⟩ := h.flying s hs
    refine ⟨hlt, hnq, hdrains, hf, ?_⟩
    rw [started_emit]
    exact List.mem_append_left _ hstarted
  kept s hs := by
    rw [started_emit]
    exact (h.kept s hs).imp_left (List.mem_append_left _)

/-- The head of the queue is taken and started. -/
theorem Roster.start {next : Nat} (env : Env)
    (h : c.Roster (next :: rest) request) :
    (({ c with
      currentRequest := some next
      pendingQueue := rest }).startNow env next).Rostered := by
  let c₁ : Client := { c with currentRequest := some next, pendingQueue := rest }
  obtain ⟨hnotin, hnodup⟩ := List.nodup_cons.mp h.nodup
  obtain ⟨hlt, hdrains, hf, htimer⟩ := h.queued next List.mem_cons_self
  have hstarted : next ∈ (c₁.emit (.started next)).started := by
    rw [started_emit]
    exact List.mem_append_right _ (List.mem_singleton.mpr rfl)
  have hroster : (c₁.emit (.started next)).Roster rest (some next) := by
    refine ⟨hnodup, h.issued, h.lives, fun a ha => ?_, fun q hq => ?_,
      fun r hr => ?_, fun r hr => ?_⟩
    · obtain ⟨hlt, hnq⟩ := h.owned a ha
      exact ⟨hlt, fun hin => hnq (List.mem_cons_of_mem _ hin)⟩
    · exact h.queued q (List.mem_cons_of_mem _ hq)
    · cases hr
      exact ⟨hlt, hnotin, hdrains, hf, hstarted⟩
    · rcases h.kept r hr with hin | hin
      · left
        rw [started_emit]
        exact List.mem_append_left _ hin
      · rcases List.mem_cons.mp hin with rfl | hin
        · exact .inl hstarted
        · exact .inr hin
  have hready : (c₁.emit (.started next)).Rostered :=
    ⟨hroster, fun hn => by cases hn⟩
  refine hready.calm (startNow_calm (c := c₁) env next) fun r hr => ?_
  cases hr
  exact ⟨hlt, hnotin⟩

theorem Roster.drainQueue (env : Env) (h : c.Roster queue none)
    (hrequest : c.currentRequest = none) :
    (c.drainQueue env queue).Rostered := by
  cases queue with
  | nil =>
      rw [Client.drainQueue]
      refine ⟨?_, fun _ => rfl⟩
      show Roster _ [] c.currentRequest
      rw [hrequest]
      exact h.of_eq rfl rfl rfl rfl
  | cons next rest =>
      -- what waits has not finished, so it was not destroyed
      obtain ⟨hlt, -, hf, -⟩ := h.queued next List.mem_cons_self
      rw [Client.drainQueue, if_pos (h.lives next hlt hf)]
      exact h.start env

theorem Rostered.emitFinished (env : Env) {r : Nat} (state : ReplyState)
    (errorString : String) (h : c.Rostered)
    (hlive : (c.replies r).live = true) (hn : r ∉ c.pendingQueue) :
    (c.emitFinished env r state errorString).Rostered := by
  let f (rd : Reply) : Reply := { rd with state, errorString, finished := true }
  let c₁ := (c.withReply r f).emit (.finished r)
  have hfield {β : Type} (g : Reply → β) (s : Nat)
      (hg : g (f (c.replies r)) = g (c.replies r)) :
      g (c₁.replies s) = g (c.replies s) := withReply_field g r s f hg
  have hother {s : Nat} (hs : s ≠ r) : c₁.replies s = c.replies s := by
    show (c.withReply r f).replies s = _
    rw [withReply_replies, if_neg hs]
  have hstarted : c₁.started = c.started := by
    simp [c₁, started, emit, withReply, Effect.start]
  have hroster (request : Option Nat)
      (hflying : ∀ s, request = some s → c.currentRequest = some s ∧ s ≠ r) :
      c₁.Roster c.pendingQueue request := by
    refine ⟨h.roster.nodup, fun s hs => ?_, fun s hs hf => ?_, h.roster.owned,
      fun q hq => ?_, fun s hs => ?_, fun s hs => ?_⟩
    · rw [hfield Reply.alive s rfl] at hs
      exact h.roster.issued s hs
    · have hne : s ≠ r := by
        rintro rfl
        have hended : ((c.withReply s f).replies s).finished = true := by
          rw [withReply_replies, if_pos rfl]
        rw [show (c₁.replies s).finished = true from hended] at hf
        cases hf
      rw [hother hne] at hf ⊢
      exact h.roster.lives s hs hf
    · rw [hother fun heq => hn (heq ▸ hq)]
      exact h.roster.queued q hq
    · obtain ⟨hrequest, hne⟩ := hflying s hs
      rw [hother hne, hstarted]
      exact h.roster.flying s hrequest
    · rw [hstarted]
      exact h.roster.kept s hs
  have hdrains : (c₁.replies r).drains = (c.replies r).drains :=
    hfield Reply.drains r rfl
  unfold Client.emitFinished
  simp only []
  split
  · have hdrained := hroster none fun s hs => by cases hs
    exact Roster.drainQueue (c := { c₁ with currentRequest := none }) env
      (hdrained.of_eq rfl rfl rfl rfl) rfl
  · next hdead =>
      refine ⟨hroster _ fun s hs => ⟨hs, ?_⟩, h.idle⟩
      rintro rfl
      exact hdead (hdrains.trans (h.roster.flying s hs).2.2.1)

theorem Rostered.move {env : Env} {r : Nat} (h : c.Rostered)
    (ho : c.Owns r) (hm : Move env r c c') : c'.Rostered := by
  have hr := h.roster.owns ho
  have hwho : ∀ s, some r = some s → s < c.nextReply ∧ s ∉ c.pendingQueue := by
    intro s hs
    cases hs
    exact hr
  cases hm with
  | calm hc => exact h.calm hc hwho
  | ends state errorString hc hlive =>
      refine (h.calm hc hwho).emitFinished env state errorString ?_ ?_
      · rw [live_eq (hc.alive r) (hc.finished r)]
        exact hlive
      · rw [hc.queue]
        exact hr.2

/-- A reply that is destroyed when it has finished is missed by nobody. -/
theorem Rostered.destroy {r : Nat} (h : c.Rostered)
    (hf : (c.replies r).finished = true) : (c.destroy r).Rostered := by
  let f (rd : Reply) : Reply := { rd with alive := false }
  have hcalm : Calm none c (c.abortSocket r) := abortSocket_calm r
  have h₁ := h.calm hcalm fun s hs => by cases hs
  rw [← hcalm.finished] at hf
  show ((c.abortSocket r).withReply r f).Rostered
  generalize c.abortSocket r = c₁ at *
  have hfinished s : ((c₁.withReply r f).replies s).finished =
      (c₁.replies s).finished := withReply_field Reply.finished r s f rfl
  refine ⟨⟨h₁.roster.nodup, fun s hs => ?_, fun s hs hfs => ?_,
    h₁.roster.owned, fun q hq => ?_, fun s hs => ?_, h₁.roster.kept⟩, h₁.idle⟩
  · rw [withReply_replies] at hs
    split at hs
    · cases hs
    · exact h₁.roster.issued s hs
  · rw [hfinished] at hfs
    have hne : s ≠ r := by
      rintro rfl
      rw [hfs] at hf
      cases hf
    rw [withReply_replies, if_neg hne]
    exact h₁.roster.lives s hs hfs
  · rw [hfinished, withReply_field Reply.drains r q f rfl,
      withReply_field Reply.timer r q f rfl]
    exact h₁.roster.queued q hq
  · rw [hfinished, withReply_field Reply.drains r s f rfl]
    exact h₁.roster.flying s hs

/-! ## A new reply -/

/-- The new reply joins the queue, or the history says already that it was
started. -/
theorem Roster.newReply {queue' : List Nat} (h : c.Roster queue request)
    (envelope : Bytes) (soapAction : Option Bytes) (hnodup : queue'.Nodup)
    (hsub : ∀ q ∈ queue, q ∈ queue')
    (hjoined : ∀ q ∈ queue', q ∈ queue ∨
      q = c.nextReply ∧ c.serializeRequests = true)
    (hlast : c.nextReply ∈ c.started ∨ c.nextReply ∈ queue') :
    (c.newReply envelope soapAction).Roster queue' request := by
  let c₁ := c.newReply envelope soapAction
  have hnew : c₁.replies c.nextReply = _ := Function.update_self ..
  have hsame {r : Nat} (hr : r ≠ c.nextReply) : c₁.replies r = c.replies r :=
    newReply_ne envelope soapAction hr
  have hnot {r : Nat} (hr : r < c.nextReply) (hn : r ∉ queue) : r ∉ queue' := by
    intro hin
    rcases hjoined r hin with hin | ⟨rfl, -⟩
    · exact hn hin
    · exact Nat.lt_irrefl _ hr
  refine ⟨hnodup, fun r hr => ?_, fun r hr hf => ?_, fun a ha => ?_,
    fun q hq => ?_, fun r hr => ?_, fun r hr => ?_⟩
  · by_cases heq : r = c.nextReply
    · rw [heq]
      exact Nat.lt_succ_self _
    · rw [show (c.newReply envelope soapAction).replies r = _ from hsame heq] at hr
      exact Nat.lt_succ_of_lt (h.issued r hr)
  · by_cases heq : r = c.nextReply
    · rw [heq, show (c.newReply envelope soapAction).replies c.nextReply = _ from
        hnew]
    · rw [show (c.newReply envelope soapAction).replies r = _ from hsame heq]
        at hf ⊢
      exact h.lives r (Nat.lt_of_le_of_ne (Nat.le_of_lt_succ hr) heq) hf
  · obtain ⟨hlt, hn⟩ := h.owned a ha
    exact ⟨Nat.lt_succ_of_lt hlt, hnot hlt hn⟩
  · rcases hjoined q hq with hold | ⟨rfl, hserial⟩
    · obtain ⟨hlt, hrest⟩ := h.queued q hold
      rw [show (c.newReply envelope soapAction).replies q = _ from
        hsame (Nat.ne_of_lt hlt)]
      exact ⟨Nat.lt_succ_of_lt hlt, hrest⟩
    · rw [show (c.newReply envelope soapAction).replies c.nextReply = _ from hnew]
      exact ⟨Nat.lt_succ_self _, hserial, rfl, rfl⟩
  · obtain ⟨hlt, hn, hrest⟩ := h.flying r hr
    rw [show (c.newReply envelope soapAction).replies r = _ from
      hsame (Nat.ne_of_lt hlt)]
    exact ⟨Nat.lt_succ_of_lt hlt, hnot hlt hn, hrest⟩
  · by_cases heq : r = c.nextReply
    · rw [heq]
      exact hlast
    · have hlt := Nat.lt_of_le_of_ne (Nat.le_of_lt_succ hr) heq
      exact (h.kept r hlt).imp_right (hsub r)

/-- A request in flight that has not finished was not destroyed. -/
theorem Rostered.current (h : c.Rostered) : c.current = c.currentRequest := by
  rw [Client.current]
  cases hrequest : c.currentRequest with
  | none => rfl
  | some r =>
      obtain ⟨hlt, -, -, hf, -⟩ := h.roster.flying r hrequest
      rw [Option.filter_some, if_pos (h.roster.lives r hlt hf)]

theorem Rostered.sendEnvelope (env : Env) (envelope : Bytes)
    (soapAction : Option Bytes) (h : c.Rostered) :
    (c.sendEnvelope env envelope soapAction).Rostered := by
  have hlt {q : Nat} (hq : q ∈ c.pendingQueue) : q < c.nextReply :=
    (h.roster.queued q hq).1
  have hnotin : c.nextReply ∉ c.pendingQueue :=
    fun hin => Nat.lt_irrefl _ (hlt hin)
  have hcurrent : (c.newReply envelope soapAction).current = c.currentRequest := by
    rw [← h.current, Client.current, Client.current]
    show Option.filter _ c.currentRequest = _
    cases hrequest : c.currentRequest with
    | none => rfl
    | some r =>
        have hr := (h.roster.flying r hrequest).1
        rw [Option.filter_some, Option.filter_some,
          newReply_ne _ _ (Nat.ne_of_lt hr)]
  unfold Client.sendEnvelope
  simp only []
  split
  · have hroster := (h.roster.emit_started c.nextReply).newReply envelope
      soapAction h.roster.nodup (fun _ => id) (fun _ => .inl) (.inl (by
        rw [started_emit]
        exact List.mem_append_right _ (List.mem_singleton.mpr rfl)))
    have hready : ((c.newReply envelope soapAction).emit
        (.started c.nextReply)).Rostered := ⟨hroster, h.idle⟩
    refine hready.calm (startNow_calm env c.nextReply) fun r hr => ?_
    cases hr
    exact ⟨Nat.lt_succ_self _, hnotin⟩
  · next hserial =>
      have hserial' : c.serializeRequests = true := by
        have : (c.newReply envelope soapAction).serializeRequests =
          c.serializeRequests := rfl
        simpa [this] using hserial
      have hroster : (c.newReply envelope soapAction).Roster
          (c.pendingQueue ++ [c.nextReply]) c.currentRequest := by
        refine h.roster.newReply envelope soapAction ?_
          (fun q hq => List.mem_append_left _ hq) (fun q hq => ?_) (.inr ?_)
        · rw [← List.concat_eq_append]
          exact h.roster.nodup.concat hnotin
        · rcases List.mem_append.mp hq with hq | hq
          · exact .inl hq
          · exact .inr ⟨List.mem_singleton.mp hq, hserial'⟩
        · exact List.mem_append_right _ (List.mem_singleton.mpr rfl)
      rw [hcurrent]
      split
      · next r hr =>
          refine ⟨hroster.of_eq rfl rfl rfl rfl, fun hn => ?_⟩
          have hn' : c.currentRequest = none := hn
          rw [hr] at hn'
          cases hn'
      · next hr =>
          have hempty : (c.newReply envelope soapAction).pendingQueue = [] :=
            h.idle hr
          have hempty' : c.pendingQueue = [] := hempty
          rw [hempty', List.nil_append] at hroster
          rw [hempty, List.nil_append]
          exact hroster.start env

/-! ## Runs -/

/-- Nothing is aborted, and what is destroyed has finished. -/
def Patient (c : Client) : Event → Prop
  | .abort _ => False
  | .destroy r => (c.replies r).finished = true
  | _ => True

theorem Rostered.handle (env : Env) {e : Event} (h : c.Rostered)
    (he : c.Patient e) : (c.handle env e).Rostered := by
  have htransport (ht : e.ofTransport = true) : (c.handle env e).Rostered := by
    rcases handle_moves env ht with heq | ⟨r, ho, hm⟩
    · rw [heq]
      exact h
    · exact h.move ho hm
  have hsettings {c' : Client} (hreplies : c'.replies = c.replies)
      (hattempts : c'.attempts = c.attempts)
      (hnext : c'.nextReply = c.nextReply) (hout : c'.out = c.out)
      (hqueue : c'.pendingQueue = c.pendingQueue)
      (hrequest : c'.currentRequest = c.currentRequest) : c'.Rostered := by
    refine ⟨?_, fun hn => ?_⟩
    · rw [hqueue, hrequest]
      exact h.roster.of_eq hreplies hattempts hnext hout
    · rw [hqueue]
      exact h.idle (hrequest.symm.trans hn)
  cases e with
  | setEndpoint | setCredentials | setTrustedFingerprints
  | setTransferTimeoutMs | setSocketFactory | setSerializeRequests =>
      exact hsettings rfl rfl rfl rfl rfl rfl
  | trustPendingPeerCert =>
      show c.trustPendingPeerCert.Rostered
      unfold trustPendingPeerCert
      simp only []
      split
      · exact h
      · exact hsettings rfl rfl rfl rfl rfl rfl
  | sendEnvelope envelope soapAction =>
      exact h.sendEnvelope env envelope soapAction
  | abort r => exact he.elim
  | destroy r =>
      rw [Client.handle]
      split
      · exact h.destroy he
      · exact h
  | _ => exact htransport rfl

/-- What finished is not in flight any more. -/
theorem Rostered.spares (h : c.Rostered) {e : Event} (he : c.Patient e) :
    c.SparesQueue e := by
  cases e with
  | destroy r =>
      intro hrequest
      have hf := (h.roster.flying r hrequest).2.2.2.1
      rw [show (c.replies r).finished = true from he] at hf
      cases hf
  | _ => trivial

end Client

end QuMesh.Wsman
