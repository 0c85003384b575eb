import QuMesh.App.Consent

/-!
# Granted consent is kept

Once the firmware has accepted the code nothing is to ask for consent again.
The window asks when it is driven while no round is active and the state it
knows is neither 3 nor 4, so one of the two has to hold as long as the grant
stands. What upsets it is a reply that is older than the grant: a status read
whose second half came in late puts the state back that the firmware has left
behind, and so does the reply to an earlier CancelOptIn. `consent_revoked` is
the first of these; the next panel that wants to connect tears the consent
down.

`consent_kept` says that without such replies, with a round that is still
active when the code is accepted, and with a prompt that does not run out
behind it, nothing takes the grant back.
-/

namespace QuMesh.Consent

open QuMesh.Lib

/-- Requests that take a consent back, or ask for another one. -/
def Effect.revoking : Effect → Bool
  | .sent _ .startOptIn | .sent _ .cancelOptIn => true
  | _ => false

namespace Session

/-- From `s` to `s'` nothing was sent that revokes a consent. -/
def Harmless (s s' : Session) : Prop :=
  ∃ new, s'.out = s.out ++ new ∧ ∀ x ∈ new, x.revoking = false

/-- What the law asks of an event: a grant that stands, and that the event
does not end, is not revoked. -/
def KeepsGrant (s : Session) (e : Event) : Prop :=
  s.closed = false → s.granted = true → s.endsGrant e = false →
    s.Harmless (s.step e)

/-- A reply to a request that is older than the grant, and that puts the
controller back behind it. -/
def stale (q : Request) (lost : Option String) : Bool :=
  match q.call with
  | .getKvmSettings r =>
      !q.afterGrant && !(r.optInState = 3 || r.optInState = 4)
  | .cancelOptIn => true
  | .startOptIn => lost.isSome || q.answer != some (.returned 0)
  | .getOptInService | .sendOptInCode _ => false

/-- The condition: the firmware accepts a code while the round is active, the
prompt does not run out while the grant stands, and no stale reply comes in
then. -/
def InOrder (s : Session) : Event → Prop
  | .serve id returnValue =>
      s.grants (.serve id returnValue) = true → s.optInRoundActive = true
  | .countdownElapsed => s.granted = true → s.promptOpened = false
  | .deliver id lost =>
      s.granted = true → (s.request id).all (fun q => !stale q lost) = true
  | _ => True

instance (s : Session) : ∀ e, Decidable (s.InOrder e)
  | .serve _ _ | .countdownElapsed | .deliver _ _ =>
      inferInstanceAs (Decidable (_ → _))
  | .requestConnect _ | .submitted _ | .cancelled | .dismissed | .close
  | .refreshOptInStatus | .pollTick | .sshConnecting | .sshConnected | .sshDown
  | .setHost _ | .direct _ | .firmware _ => .isTrue trivial

variable {s s' s'' : Session}

namespace Harmless

theorem refl (s : Session) : Harmless s s := ⟨[], by simp, by simp⟩

theorem of_out (h : s'.out = s.out) : Harmless s s' :=
  ⟨[], by simp [h], by simp⟩

theorem trans (h : Harmless s s') (h' : Harmless s' s'') : Harmless s s'' := by
  obtain ⟨new, hnew, hall⟩ := h
  obtain ⟨new', hnew', hall'⟩ := h'
  refine ⟨new ++ new', by rw [hnew', hnew, List.append_assoc], ?_⟩
  intro x hx
  rcases List.mem_append.mp hx with hx | hx
  · exact hall x hx
  · exact hall' x hx

theorem emit (s : Session) {e : Effect} (he : e.revoking = false) :
    Harmless s (s.emit e) := by
  refine ⟨[e], rfl, fun x hx => ?_⟩
  rw [List.mem_singleton.mp hx]
  exact he

/-- What revokes a consent was sent before. -/
theorem mem_out (h : Harmless s s') {x : Effect} (hx : x ∈ s'.out)
    (hr : x.revoking = true) : x ∈ s.out := by
  obtain ⟨new, hnew, hall⟩ := h
  rw [hnew] at hx
  rcases List.mem_append.mp hx with hx | hx
  · exact hx
  · rw [hall x hx] at hr
    cases hr

end Harmless

/-! ## Safe sessions -/

/-- The window has no reason to ask. -/
def Safe (s : Session) : Prop :=
  s.optInRoundActive = true ∨ s.optInState = 3 ∨ s.optInState = 4

/-- From `s` to `s'` the window got no reason to ask, and nothing was sent that
revokes a consent. -/
structure Keeps (s s' : Session) : Prop where
  harmless : Harmless s s'
  safe : s'.Safe

theorem Keeps.trans (h : Keeps s s') (h' : s'.Safe → Keeps s' s'') :
    Keeps s s'' :=
  ⟨h.harmless.trans (h' h.safe).harmless, (h' h.safe).safe⟩

/-- An operation that leaves the round and the state alone. -/
theorem Keeps.of_frame (hs : s.Safe) (h : Harmless s s')
    (hround : s'.optInRoundActive = s.optInRoundActive)
    (hstate : s'.optInState = s.optInState) : Keeps s s' := by
  refine ⟨h, ?_⟩
  rw [Safe, hround, hstate]
  exact hs

theorem emit_keeps (hs : s.Safe) {e : Effect} (he : e.revoking = false) :
    Keeps s (s.emit e) :=
  .of_frame hs (.emit s he) rfl rfl

theorem send_keeps (hs : s.Safe) {call : Call} (afterGrant : Bool)
    (hcall : (Effect.sent s.nextRequest call).revoking = false) :
    Keeps s (s.send call afterGrant) := by
  refine .of_frame hs ⟨[.sent s.nextRequest call], rfl, fun x hx => ?_⟩ rfl rfl
  rw [List.mem_singleton.mp hx]
  exact hcall

theorem consentResolved_keeps (hs : s.Safe) : Keeps s s.consentResolved := by
  unfold consentResolved
  split
  · exact .of_frame hs (.refl s) rfl rfl
  · exact .of_frame hs ⟨[_], rfl, by simp [Effect.revoking]⟩ rfl rfl

theorem consentSatisfiedFor_of_state (p : Protocol)
    (h : s.optInState = 3 ∨ s.optInState = 4) :
    s.consentSatisfiedFor p = true := by
  rcases h with h | h <;> simp [consentSatisfiedFor, h]

/-- A safe window that is driven does not ask. -/
theorem driveConsent_keeps (hs : s.Safe) : Keeps s s.driveConsent := by
  have hsame : Keeps s s := .of_frame hs (.refl s) rfl rfl
  unfold driveConsent
  split
  · exact hsame
  · next p hp =>
    split
    · exact hsame
    · split
      · exact consentResolved_keeps hs
      · next hnot =>
        rcases hs with hround | hstate
        · rw [if_pos (by simp [hround])]
          exact hsame
        · exact absurd (consentSatisfiedFor_of_state p hstate) hnot

theorem refreshOptInStatus_keeps (hs : s.Safe) :
    Keeps s s.refreshOptInStatus := by
  have hsame : Keeps s s := .of_frame hs (.refl s) rfl rfl
  unfold refreshOptInStatus
  split
  · exact .of_frame hs (.of_out rfl) rfl rfl
  · split
    · exact hsame
    · split
      · exact hsame
      · have hflag : Keeps s { s with optInStatusInFlight := true } :=
          .of_frame hs (.of_out rfl) rfl rfl
        exact hflag.trans fun h => send_keeps h false rfl

theorem requestConnect_keeps (hs : s.Safe) (p : Protocol) :
    Keeps s (s.requestConnect p) := by
  have hfront : Keeps s
      ({ s with pendingConnectTab := some p }).resetOptInAttempts :=
    .of_frame hs ⟨[_], rfl, by simp [Effect.revoking]⟩ rfl rfl
  unfold requestConnect
  simp only []
  split
  · exact hfront.trans refreshOptInStatus_keeps
  · exact hfront.trans driveConsent_keeps

/-! ## Replies -/

theorem consentResolved_optInState (s : Session) :
    s.consentResolved.optInState = s.optInState := by
  unfold consentResolved
  split <;> rfl

theorem startOptIn_optInState (s : Session) :
    s.startOptIn.optInState = s.optInState := by
  unfold startOptIn
  split
  · rfl
  · split <;> rfl

/-- Driving the consent asks, and reads nothing. -/
theorem driveConsent_optInState (s : Session) :
    s.driveConsent.optInState = s.optInState := by
  unfold driveConsent
  split
  · rfl
  · split
    · rfl
    · split
      · exact consentResolved_optInState s
      · split
        · rfl
        · rw [startOptIn_optInState]
          split <;> rfl

/-- The poll ends a round that was granted. -/
theorem pollState_keeps (hstate : s.optInState = 3 ∨ s.optInState = 4)
    (prevState : Int) : Keeps s (s.pollState prevState) := by
  have hgranted : Keeps s ((s.stopOptInPolling.setOptInRoundActive
      false).emit .optInGranted).closePrompt :=
    ⟨⟨[_], rfl, by simp [Effect.revoking]⟩, .inr hstate⟩
  unfold pollState
  split
  · exact hgranted.trans consentResolved_keeps
  · exact .of_frame (.inr hstate) (.refl s) rfl rfl

theorem statusRead_keeps {r : OptInServiceResult}
    (hr : r.optInState = 3 ∨ r.optInState = 4) : Keeps s (s.statusRead r) := by
  let stored : Session := { s with
    optInStatusInFlight := false
    optInStatusKnown := true
    optInRequired := r.optInRequired
    optInRequiredRaw := r.optInRequiredRaw
    optInState := r.optInState
    canModifyOptInPolicy := r.canModifyOptInPolicy
    settings := r.settings }
  have hstored : Keeps s stored := ⟨.of_out rfl, .inr hr⟩
  have hdriven := hstored.trans driveConsent_keeps
  refine hdriven.trans fun _ => pollState_keeps ?_ s.optInState
  rw [driveConsent_optInState]
  exact hr

theorem statusFailed_keeps (hs : s.Safe) (error : String) :
    Keeps s (s.statusFailed error) := by
  unfold statusFailed
  simp only []
  split
  · have hknown : Keeps s { s with
        optInStatusInFlight := false
        optInStatusKnown := true
        optInRequired := false } := .of_frame hs (.of_out rfl) rfl rfl
    exact (hknown.trans driveConsent_keeps).trans fun h => emit_keeps h rfl
  · exact .of_frame hs (.of_out rfl) rfl rfl

theorem optInAccepted_keeps (hs : s.Safe) : Keeps s s.optInAccepted :=
  .of_frame hs ⟨[_], rfl, by simp [Effect.revoking]⟩ rfl rfl

theorem codeRejected_keeps (hs : s.Safe) (error : String) :
    Keeps s (s.codeRejected error) :=
  .of_frame hs ⟨[_], rfl, by simp [Effect.revoking]⟩ rfl rfl

theorem codeAccepted_keeps (s : Session) : Keeps s s.codeAccepted := by
  let received : Session := { s with
    optInPolling := false
    optInFailures := 0
    optInRoundActive := false
    optInState := 3 }
  have hreceived : Keeps s received := ⟨.of_out rfl, .inr (.inl rfl)⟩
  have hdriven := hreceived.trans driveConsent_keeps
  have htold : Keeps s ((received.driveConsent.emit
      (.optInCodeResult true "")).closePrompt) := by
    refine hdriven.trans fun h => ?_
    exact .of_frame h ⟨[_], rfl, by simp [Effect.revoking]⟩ rfl rfl
  exact htold.trans consentResolved_keeps

/-- The callback of a reply that is not stale. -/
theorem callback_keeps (hs : s.Safe) {q : Request} {lost : Option String}
    (hstale : stale q lost = false)
    (hstate : ∀ r, q.call = .getKvmSettings r →
      r.optInState = 3 ∨ r.optInState = 4)
    {reply : Except String Answer}
    (hreply : (∃ e, lost = some e ∧ reply = .error e) ∨
      lost = none ∧ ∃ a, q.answer = some a ∧ reply = .ok a) :
    Keeps s (s.callback q reply) := by
  have hsame : Keeps s s := .of_frame hs (.refl s) rfl rfl
  obtain ⟨id, call, answer, afterGrant⟩ := q
  cases call with
  | getOptInService =>
      cases reply with
      | error e => exact statusFailed_keeps hs e
      | ok a =>
          cases a with
          | service r => exact send_keeps hs afterGrant rfl
          | settings | returned => exact hsame
  | getKvmSettings r =>
      have hr := hstate r rfl
      cases reply with
      | error e => exact statusRead_keeps hr
      | ok a =>
          cases a with
          | settings k => exact statusRead_keeps (r := { r with settings := k }) hr
          | service | returned => exact statusRead_keeps hr
  | startOptIn =>
      -- a failed one is stale
      rcases hreply with ⟨e, rfl, rfl⟩ | ⟨rfl, a, ha, rfl⟩
      · cases hstale
      · change answer = some a at ha
        subst ha
        have : a = .returned 0 := by simpa [stale] using hstale
        subst this
        exact optInAccepted_keeps hs
  | sendOptInCode code =>
      cases reply with
      | error e => exact codeRejected_keeps hs e
      | ok a =>
          cases a with
          | returned v =>
              cases v with
              | zero => exact codeAccepted_keeps s
              | succ v => exact codeRejected_keeps hs _
          | service | settings => exact hsame
  | cancelOptIn => cases hstale

theorem deliver_keeps (hs : s.Safe) {id : Nat} {lost : Option String}
    (hends : s.endsGrant (.deliver id lost) = false)
    (hstale : ∀ q, s.request id = some q → stale q lost = false) :
    Keeps s (s.deliver id lost) := by
  unfold deliver
  split
  · exact .of_frame hs (.refl s) rfl rfl
  · next q hq =>
    have hfresh := hstale q hq
    have hdone : Keeps s { s with flight := s.flight.filter fun p => p.id ≠ id } :=
      .of_frame hs (.of_out rfl) rfl rfl
    have hstate (hheard : (lost.isSome || q.answer.isSome) = true)
        (r : OptInServiceResult) (hcall : q.call = .getKvmSettings r) :
        r.optInState = 3 ∨ r.optInState = 4 := by
      obtain ⟨qid, call, answer, afterGrant⟩ := q
      change call = _ at hcall
      subst hcall
      cases afterGrant with
      | true =>
          rw [endsGrant, hq] at hends
          simp only [] at hends hheard
          rw [hheard] at hends
          rw [or_iff_not_imp_left]
          simpa using hends
      | false =>
          rw [or_iff_not_imp_left]
          simpa [stale] using hfresh
    split
    · next error =>
      exact hdone.trans fun h => callback_keeps h hfresh
        (hstate (by simp)) (.inl ⟨error, rfl, rfl⟩)
    · next answer hanswer =>
      exact hdone.trans fun h => callback_keeps h hfresh
        (hstate (by simp [hanswer])) (.inr ⟨rfl, answer, hanswer, rfl⟩)
    · exact .of_frame hs (.refl s) rfl rfl

theorem serve_keeps (hs : s.Safe) (id returnValue : Nat) :
    Keeps s (s.serve id returnValue) := by
  unfold serve
  split
  · exact .of_frame hs (.refl s) rfl rfl
  · split
    · exact .of_frame hs (.refl s) rfl rfl
    · simp only []
      split <;> exact .of_frame hs (.of_out rfl) rfl rfl

/-- An event that comes from the window or from outside, that is in order and
leaves the grant, keeps a safe session safe. -/
theorem handle_keeps (hs : s.Safe) (hgranted : s.granted = true) {e : Event}
    (hwindow : e.fromWindow = true) (hok : s.InOrder e)
    (hends : s.endsGrant e = false) : Keeps s (s.handle e) := by
  have hsame : Keeps s s := .of_frame hs (.refl s) rfl rfl
  cases e with
  | requestConnect p => exact requestConnect_keeps hs p
  | submitted code =>
      rw [handle]
      split
      · exact send_keeps hs false rfl
      · exact hsame
  | cancelled =>
      have hshut : s.promptOpened = false := hends
      rw [handle, if_neg (by rw [hshut]; simp)]
      exact hsame
  | countdownElapsed =>
      have hshut : s.promptOpened = false := hok hgranted
      rw [handle, if_neg (by rw [hshut]; simp)]
      exact hsame
  | dismissed => exact .of_frame hs (.of_out rfl) rfl rfl
  | close => cases hends
  | refreshOptInStatus => exact refreshOptInStatus_keeps hs
  | pollTick =>
      rw [handle]
      split
      · exact refreshOptInStatus_keeps hs
      · exact hsame
  | sshConnecting => exact .of_frame hs (.of_out rfl) rfl rfl
  | sshConnected =>
      have hup : Keeps s
          { s with sshConnecting := false, pendingOverview := false } :=
        .of_frame hs (.of_out rfl) rfl rfl
      simp only [handle]
      split
      · exact hup.trans refreshOptInStatus_keeps
      · exact hup
  | sshDown => exact .of_frame hs (.of_out rfl) rfl rfl
  | setHost present => exact .of_frame hs (.of_out rfl) rfl rfl
  | direct call => cases hwindow
  | serve id returnValue => exact serve_keeps hs id returnValue
  | deliver id lost =>
      refine deliver_keeps hs hends fun q hq => ?_
      have := hok hgranted
      rw [hq] at this
      simpa using this
  | firmware fw => exact .of_frame hs (.of_out rfl) rfl rfl

/-- While a grant stands, the session is safe. -/
def Inv (s : Session) : Prop := s.closed = false → s.granted = true → s.Safe

theorem step_keeps (hinv : s.Inv) {e : Event}
    (hwindow : e.fromWindow = true) (hok : s.InOrder e) :
    (s.step e).Inv ∧ s.KeepsGrant e := by
  by_cases hopen : s.closed = true
  · have hstep : s.step e = s := if_pos hopen
    refine ⟨by rw [hstep]; exact hinv, fun h => ?_⟩
    rw [hopen] at h
    cases h
  have hclosed : s.closed = false := eq_false_of_ne_true hopen
  have hstep : s.step e = { s.handle e with
      granted := !s.endsGrant e && (s.granted || s.grants e) } :=
    if_neg hopen
  refine ⟨fun _ hgranted => ?_, fun _ hgranted hends => ?_⟩
  · rw [hstep] at hgranted ⊢
    rw [Bool.and_eq_true, Bool.or_eq_true] at hgranted
    obtain ⟨hends, hgranted | hgrants⟩ := hgranted
    · have hends : s.endsGrant e = false := by simpa using hends
      exact (handle_keeps (hinv hclosed hgranted) hgranted hwindow hok hends).safe
    · cases e with
      | serve id returnValue =>
          exact (serve_keeps (.inl (hok hgrants)) id returnValue).safe
      | _ => cases hgrants
  · rw [hstep]
    obtain ⟨new, hnew, hall⟩ := (handle_keeps (hinv hclosed hgranted) hgranted
      hwindow hok hends).harmless
    exact ⟨new, hnew, hall⟩

end Session

/-- In every run that the window drives, in which a code is accepted while its
round is active, the prompt does not run out behind that, and no reply from
before the grant comes in after it: as long as the grant stands no StartOptIn
and no CancelOptIn is sent. -/
theorem consent_kept (es : List Event)
    (hwindow : ∀ e ∈ es, e.fromWindow = true)
    (hok : Guarded Session.step (fun _ s e => s.InOrder e) {} es) :
    Guarded Session.step (fun _ s e => s.KeepsGrant e) {} es := by
  have hdriven : Guarded Session.step (fun _ _ e => e.fromWindow = true) {} es := by
    exact GuardedFrom.of_forall [] _ hwindow
  refine (hdriven.and hok).ensures (fun _ s => s.Inv) ?_ (fun _ h => by cases h)
  rintro past s e hinv ⟨hwindow, hok⟩
  exact s.step_keeps hinv hwindow hok

/-! ### A status that comes in late -/

/-- A machine that gates every protocol: its status is read, the desktop asks
for consent, and a code is on the screen. -/
private def codeOnScreen : List Event :=
  [.firmware { optInRequired := 4294967295 }, .refreshOptInStatus,
    .serve 0 0, .deliver 0 none, .serve 1 0, .deliver 1 none,
    .requestConnect .kvm, .serve 2 0, .deliver 2 none]

/-- The code is accepted, and the serial console wants to connect as well. -/
theorem consent_kept_second_panel :
    Guarded Session.step (fun _ s e => s.KeepsGrant e) {}
      (codeOnScreen ++ [.submitted 123456, .serve 3 0, .deliver 3 none,
        .requestConnect .sol]) := by
  exact consent_kept _ (by decide) (by decide)

/-- The same with a poll that was served before the code was accepted, and
whose second read is answered after it. -/
theorem consent_revoked :
    ¬ ∀ es : List Event, (∀ e ∈ es, e.fromWindow = true) →
      Guarded Session.step (fun _ s e => s.KeepsGrant e) {} es := by
  intro h
  have hkept := h (codeOnScreen ++ [.pollTick, .serve 3 0, .deliver 3 none,
    .submitted 123456, .serve 5 0, .deliver 5 none, .serve 4 0,
    .deliver 4 none, .requestConnect .sol]) (by decide)
  obtain ⟨-, -, -, -, -, -, -, -, -, -, -, -, -, -, -, -, -, hlast, -⟩ := hkept
  have hnew := (hlast rfl rfl rfl).mem_out (x := .sent 6 .cancelOptIn)
    (by decide) rfl
  revert hnew
  decide

end QuMesh.Consent
