import QuMesh.App.Consent
import Mathlib.Data.List.Nodup

/-!
# One consent round at a time

`m_optInRoundActive` is the latch that keeps a second StartOptIn away. It is
released by whatever ends the round, and that need not have waited for the
reply to the StartOptIn: `cancelOptIn` opens it while the request is on its
way. The late reply then starts the poll of a round that is over, the next
StartOptIn goes out beside the first, and since only a reply counts as a
failure the cap on them is never reached. `consent_round_reopened` cancels once.

The other way round, `consent_round`: in a run in which no round is ended, by
a cancel or by an accepted code, while a StartOptIn is in flight, the poll runs
inside a round only, one StartOptIn is outstanding at most, and what is sent
between two resets is covered by the failures counted and the one in flight.
-/

namespace QuMesh.Consent

open QuMesh.Lib

/-- The StartOptIn requests since the last reset or success. -/
def startsSince (out : List Effect) : Nat :=
  out.foldl (fun n x =>
    match x with
    | .sent _ .startOptIn => n + 1
    | .attemptsReset | .optInStarted true _ | .optInCodeResult true _ => 0
    | _ => n) 0

/-- How many times it was reported that a round has started. -/
def roundsReported (out : List Effect) : Nat :=
  out.countP fun x =>
    match x with
    | .optInStarted true _ => true
    | _ => false

namespace Session

/-- The StartOptIn requests in flight. -/
def starts (s : Session) : List Nat :=
  (s.flight.filter fun q => q.call = .startOptIn).map Request.id

/-- What the law asks of a state. -/
structure RoundKept (s : Session) : Prop where
  polling : s.optInPolling = true → s.optInRoundActive = true
  outstanding : s.starts.length + (if s.optInPolling then 1 else 0) ≤ 1
  capped : startsSince s.out ≤ kMaxOptInFailures

/-- What it asks of an event: the reply to a StartOptIn that a CancelOptIn was
sent after does not bring the round back. -/
def CancelFinal (s : Session) : Event → Prop
  | .deliver k lost =>
      ∀ q, s.request k = some q → q.call = .startOptIn →
        (∃ j > k, Effect.sent j .cancelOptIn ∈ s.out) →
          ((s.step (.deliver k lost)).optInPolling = true →
            s.optInPolling = true) ∧
          roundsReported (s.step (.deliver k lost)).out = roundsReported s.out
  | _ => True

/-- The reply of a code that was accepted. -/
def codeReply (s : Session) (id : Nat) (lost : Option String) : Bool :=
  match s.request id with
  | some { call := .sendOptInCode _, answer := some (.returned 0), .. } =>
      lost.isNone
  | _ => false

/-- The condition: nothing ends a round while a StartOptIn is in flight. -/
def Waits (s : Session) : Event → Prop
  | .cancelled | .countdownElapsed => s.promptOpened = true → s.starts = []
  | .close | .direct .cancelOptIn => s.starts = []
  | .deliver id lost => s.codeReply id lost = true → s.starts = []
  | _ => True

instance (s : Session) : ∀ e, Decidable (s.Waits e)
  | .cancelled | .countdownElapsed | .deliver _ _ =>
      inferInstanceAs (Decidable (_ → _))
  | .close | .direct .cancelOptIn => inferInstanceAs (Decidable (_ = _))
  | .requestConnect _ | .submitted _ | .dismissed | .refreshOptInStatus
  | .pollTick | .sshConnecting | .sshConnected | .sshDown | .setHost _
  | .direct .startOptIn | .direct (.sendOptInCode _)
  | .direct .resetOptInAttempts | .serve _ _ | .firmware _ => .isTrue trivial

/-! ## The invariant -/

structure Round (s : Session) : Prop where
  ids : (s.flight.map Request.id).Nodup
  fresh : ∀ q ∈ s.flight, q.id < s.nextRequest
  typed : ∀ q ∈ s.flight, q.call = .startOptIn → ∀ a, q.answer = some a →
    ∃ v, a = .returned v
  sent : ∀ j call, .sent j call ∈ s.out → j < s.nextRequest
  order : ∀ k ∈ s.starts, ∀ j, .sent j .cancelOptIn ∈ s.out → j < k
  one : s.starts.length ≤ 1
  live : s.starts ≠ [] → s.optInRoundActive = true ∧ s.optInPolling = false ∧
    s.optInFailures < kMaxOptInFailures
  polls : s.optInPolling = true → s.optInRoundActive = true
  capped : s.optInFailures ≤ kMaxOptInFailures
  counted : startsSince s.out ≤ s.optInFailures + s.starts.length

variable {s s' : Session}

theorem Round.kept (h : s.Round) : s.RoundKept := by
  have hcounted := h.counted
  have hcapped := h.capped
  have hone := h.one
  refine ⟨h.polls, ?_, ?_⟩
  · split
    · next hpoll =>
      have hnone : s.starts = [] := by
        by_contra hne
        have := (h.live hne).2.1
        rw [hpoll] at this
        cases this
      simp [hnone]
    · omega
  · by_cases hnone : s.starts = []
    · rw [hnone, List.length_nil] at hcounted
      omega
    · have := (h.live hnone).2.2
      omega

/-- The invariant is read off these. -/
theorem Round.of_eq (h : s.Round) (hflight : s'.flight = s.flight)
    (hnext : s'.nextRequest = s.nextRequest) (hout : s'.out = s.out)
    (hpoll : s'.optInPolling = s.optInPolling)
    (hround : s'.optInRoundActive = s.optInRoundActive)
    (hfailures : s'.optInFailures = s.optInFailures) : s'.Round := by
  have hstarts : s'.starts = s.starts := by rw [starts, starts, hflight]
  obtain ⟨h₁, h₂, h₃, h₄, h₅, h₆, h₇, h₈, h₉, h₁₀⟩ := h
  refine ⟨?_, ?_, ?_, ?_, ?_, ?_, ?_, ?_, ?_, ?_⟩ <;>
    simp only [hstarts, hflight, hnext, hout, hpoll, hround, hfailures] <;>
    assumption

/-- Nothing is in flight that could bring a round back, and none is on. -/
theorem Round.idle (h : s.Round) (hround : s.optInRoundActive = false) :
    s.starts = [] := by
  by_contra hne
  have := (h.live hne).1
  rw [hround] at this
  cases this

/-- A poll runs when the StartOptIn of its round was answered. -/
theorem Round.answered (h : s.Round) (hpoll : s.optInPolling = true) :
    s.starts = [] := by
  by_contra hne
  have := (h.live hne).2.1
  rw [hpoll] at this
  cases this

/-! ## What is sent and signalled -/

theorem startsSince_append (out : List Effect) (e : Effect) :
    startsSince (out ++ [e]) =
      match e with
      | .sent _ .startOptIn => startsSince out + 1
      | .attemptsReset | .optInStarted true _ | .optInCodeResult true _ => 0
      | _ => startsSince out := by
  simp only [startsSince, List.foldl_append, List.foldl_cons, List.foldl_nil]

def Effect.isSent : Effect → Bool
  | .sent _ _ => true
  | _ => false

theorem startsSince_le {out : List Effect} {e : Effect}
    (he : Effect.isSent e = false) :
    startsSince (out ++ [e]) ≤ startsSince out := by
  rw [startsSince_append]
  split
  · cases he
  all_goals omega

/-- A signal. -/
theorem Round.emit (h : s.Round) {e : Effect} (he : Effect.isSent e = false) :
    (s.emit e).Round := by
  have hsent {j : Nat} {call : Call} (hj : Effect.sent j call ∈ s.out ++ [e]) :
      Effect.sent j call ∈ s.out := by
    rcases List.mem_append.mp hj with hj | hj
    · exact hj
    · rw [← List.mem_singleton.mp hj] at he
      cases he
  refine ⟨h.ids, h.fresh, h.typed, fun j call hj => h.sent j call (hsent hj),
    fun k hk j hj => h.order k hk j (hsent hj), h.one, h.live, h.polls, h.capped,
    ?_⟩
  exact Nat.le_trans (startsSince_le he) h.counted

theorem starts_send (call : Call) (afterGrant : Bool) :
    (s.send call afterGrant).starts =
      s.starts ++ if call = .startOptIn then [s.nextRequest] else [] := by
  simp only [starts, send, Session.emit, List.filter_append, List.map_append]
  split <;> simp_all

theorem mem_out_send {call call' : Call} {afterGrant : Bool} {j : Nat}
    (hj : Effect.sent j call' ∈ (s.send call afterGrant).out) :
    Effect.sent j call' ∈ s.out ∨ j = s.nextRequest ∧ call' = call := by
  rcases List.mem_append.mp hj with hj | hj
  · exact .inl hj
  · have := List.mem_singleton.mp hj
    simp only [Effect.sent.injEq] at this
    exact .inr this

/-- Numbering, whatever is sent. -/
theorem Round.send_numbers (h : s.Round) (call : Call) (afterGrant : Bool) :
    ((s.send call afterGrant).flight.map Request.id).Nodup ∧
      (∀ q ∈ (s.send call afterGrant).flight,
        q.id < (s.send call afterGrant).nextRequest) ∧
      (∀ q ∈ (s.send call afterGrant).flight, q.call = .startOptIn →
        ∀ a, q.answer = some a → ∃ v, a = .returned v) ∧
      ∀ j call', .sent j call' ∈ (s.send call afterGrant).out →
        j < (s.send call afterGrant).nextRequest := by
  have hnext : (s.send call afterGrant).nextRequest = s.nextRequest + 1 := rfl
  refine ⟨?_, fun q hq => ?_, fun q hq => ?_, fun j call' hj => ?_⟩
  · simp only [send, Session.emit, List.map_append, List.map_cons, List.map_nil]
    rw [← List.concat_eq_append]
    refine h.ids.concat fun hmem => ?_
    obtain ⟨q, hq, heq⟩ := List.mem_map.mp hmem
    have := h.fresh q hq
    omega
  · rw [hnext]
    rcases List.mem_append.mp hq with hq | hq
    · have := h.fresh q hq
      omega
    · rw [List.mem_singleton.mp hq]
      exact Nat.lt_succ_self _
  · rcases List.mem_append.mp hq with hq | hq
    · exact h.typed q hq
    · rw [List.mem_singleton.mp hq]
      intro _ a ha
      cases ha
  · rw [hnext]
    rcases mem_out_send hj with hj | ⟨rfl, -⟩
    · have := h.sent j call' hj
      omega
    · exact Nat.lt_succ_self _

/-- A request that has nothing to do with the round. -/
theorem Round.send (h : s.Round) {call : Call} (afterGrant : Bool)
    (hstart : call ≠ .startOptIn) (hcancel : call ≠ .cancelOptIn) :
    (s.send call afterGrant).Round := by
  obtain ⟨hids, hfresh, htyped, hsent⟩ := h.send_numbers call afterGrant
  have hstarts : (s.send call afterGrant).starts = s.starts := by
    rw [starts_send, if_neg hstart, List.append_nil]
  refine ⟨hids, hfresh, htyped, hsent, ?_, ?_, ?_, h.polls, h.capped, ?_⟩ <;>
    rw [hstarts]
  · intro k hk j hj
    rcases mem_out_send hj with hj | ⟨-, hcall⟩
    · exact h.order k hk j hj
    · exact absurd hcall.symm hcancel
  · exact h.one
  · exact h.live
  · refine Nat.le_trans (Nat.le_of_eq ?_) h.counted
    show startsSince (s.out ++ [.sent s.nextRequest call]) = _
    rw [startsSince_append]
    cases call with
    | startOptIn => exact absurd rfl hstart
    | getOptInService | getKvmSettings | sendOptInCode | cancelOptIn => rfl

/-! ## The operations -/

/-- The round is over, and no StartOptIn was in flight. -/
theorem Round.ended (h : s.Round) (hnone : s.starts = [])
    (hflight : s'.flight = s.flight) (hnext : s'.nextRequest = s.nextRequest)
    (hout : s'.out = s.out) (hpoll : s'.optInPolling = false)
    (hfailures : s'.optInFailures = s.optInFailures) : s'.Round := by
  have hstarts : s'.starts = [] := by
    rw [starts, hflight]
    exact hnone
  have hcounted := h.counted
  rw [hnone] at hcounted
  refine ⟨?_, ?_, ?_, ?_, ?_, ?_, ?_, ?_, ?_, ?_⟩ <;>
    simp only [hstarts, hflight, hnext, hout, hpoll, hfailures]
  · exact h.ids
  · exact h.fresh
  · exact h.typed
  · exact h.sent
  · intro k hk
    cases hk
  · exact Nat.zero_le 1
  · intro hne
    exact absurd rfl hne
  · intro hon
    cases hon
  · exact h.capped
  · exact hcounted

theorem startOptIn_round (h : s.Round) : s.startOptIn.Round := by
  unfold startOptIn
  split
  · exact h
  next hidle =>
  split
  · exact h
  next hfew =>
  have hidle : s.optInRoundActive = false := eq_false_of_ne_true hidle
  have hnone := h.idle hidle
  have hoff : s.optInPolling = false := by
    rw [← Bool.not_eq_true]
    intro hpoll
    rw [h.polls hpoll] at hidle
    cases hidle
  have hactive : (s.setOptInRoundActive true).Round :=
    h.ended hnone rfl rfl rfl hoff rfl
  obtain ⟨hids, hfresh, htyped, hsent⟩ := hactive.send_numbers .startOptIn false
  have hstarts : ((s.setOptInRoundActive true).send .startOptIn false).starts =
      [s.nextRequest] := by
    rw [starts_send, if_pos rfl]
    show s.starts ++ [s.nextRequest] = _
    rw [hnone, List.nil_append]
  refine ⟨hids, hfresh, htyped, hsent, ?_, ?_, fun _ => ?_, fun _ => rfl,
    h.capped, ?_⟩
  · rw [hstarts]
    intro k hk j hj
    rw [List.mem_singleton.mp hk]
    rcases mem_out_send hj with hj | ⟨-, hcall⟩
    · exact h.sent j _ hj
    · cases hcall
  · rw [hstarts]
    exact Nat.le_refl 1
  · exact ⟨rfl, hoff, Nat.lt_of_not_le hfew⟩
  · rw [hstarts]
    have hcounted := h.counted
    rw [hnone, List.length_nil] at hcounted
    show startsSince (s.out ++ [.sent s.nextRequest .startOptIn]) ≤
      s.optInFailures + 1
    rw [startsSince_append]
    simp only []
    omega

/-- A round that waits for nothing can be cancelled. -/
theorem cancelOptIn_round (h : s.Round) (hnone : s.starts = []) :
    s.cancelOptIn.Round ∧ s.cancelOptIn.starts = [] := by
  have hended : (s.stopOptInPolling.setOptInRoundActive false).Round :=
    h.ended hnone rfl rfl rfl rfl rfl
  obtain ⟨hids, hfresh, htyped, hsent⟩ := hended.send_numbers .cancelOptIn false
  have hstarts : s.cancelOptIn.starts = [] := by
    show ((s.stopOptInPolling.setOptInRoundActive false).send _ _).starts = []
    rw [starts_send, if_neg (by simp)]
    show s.starts ++ [] = []
    rw [hnone, List.nil_append]
  refine ⟨⟨hids, hfresh, htyped, hsent, ?_, ?_, ?_, ?_, h.capped, ?_⟩, hstarts⟩
  · rw [hstarts]
    intro k hk
    cases hk
  · rw [hstarts]
    exact Nat.zero_le 1
  · intro hne
    exact absurd hstarts hne
  · intro hon
    cases hon
  · rw [hstarts]
    have hcounted := h.counted
    rw [hnone] at hcounted
    show startsSince (s.out ++ [.sent s.nextRequest .cancelOptIn]) ≤ _
    rw [startsSince_append]
    exact hcounted

theorem consentResolved_round (h : s.Round) : s.consentResolved.Round := by
  unfold consentResolved
  split
  · exact h
  · next p _ =>
    have hcleared : ({ s with pendingConnectTab := none } : Session).Round :=
      h.of_eq rfl rfl rfl rfl rfl rfl
    exact hcleared.emit (e := .panelStarted p) rfl

/-- The window cancels and starts a round where none is active only. -/
theorem driveConsent_round (h : s.Round) : s.driveConsent.Round := by
  unfold driveConsent
  split
  · exact h
  split
  · exact h
  split
  · exact consentResolved_round h
  split
  · exact h
  next hquiet =>
  rw [Bool.or_eq_true, not_or] at hquiet
  have hnone := h.idle (eq_false_of_ne_true hquiet.2)
  split
  · exact startOptIn_round (cancelOptIn_round h hnone).1
  · exact startOptIn_round h

theorem refreshOptInStatus_round (h : s.Round) : s.refreshOptInStatus.Round := by
  unfold refreshOptInStatus
  split
  · exact h.of_eq rfl rfl rfl rfl rfl rfl
  split
  · exact h
  split
  · exact h
  · have hbusy : ({ s with optInStatusInFlight := true } : Session).Round :=
      h.of_eq rfl rfl rfl rfl rfl rfl
    exact hbusy.send false (by simp) (by simp)

/-- The attempts are counted from here. -/
theorem Round.restarted (h : s.Round) {e : Effect}
    (hsent : Effect.isSent e = false)
    (hzero : startsSince (s.out ++ [e]) = 0) :
    (({ s with optInFailures := 0 } : Session).emit e).Round := by
  have hemit := h.emit hsent
  refine ⟨hemit.ids, hemit.fresh, hemit.typed, hemit.sent, hemit.order, hemit.one,
    fun hne => ?_, hemit.polls, Nat.zero_le _, ?_⟩
  · obtain ⟨hactive, hoff, -⟩ := h.live hne
    exact ⟨hactive, hoff, Nat.zero_lt_succ 2⟩
  · show startsSince (s.out ++ [e]) ≤ _
    rw [hzero]
    exact Nat.zero_le _

theorem resetOptInAttempts_round (h : s.Round) : s.resetOptInAttempts.Round := by
  refine h.restarted rfl ?_
  rw [startsSince_append]

theorem requestConnect_round (h : s.Round) (p : Protocol) :
    (s.requestConnect p).Round := by
  have hwaiting : ({ s with pendingConnectTab := some p } : Session).Round :=
    h.of_eq rfl rfl rfl rfl rfl rfl
  have hreset := resetOptInAttempts_round hwaiting
  unfold requestConnect
  simp only []
  split
  · exact refreshOptInStatus_round hreset
  · exact driveConsent_round hreset

/-! ## The callbacks -/

theorem pollState_round (h : s.Round) (prevState : Int) :
    (s.pollState prevState).Round := by
  unfold pollState
  split
  · next hpoll =>
    have hended : (s.stopOptInPolling.setOptInRoundActive false).Round :=
      h.ended (h.answered hpoll) rfl rfl rfl rfl rfl
    split
    · refine consentResolved_round ?_
      exact (hended.emit (e := .optInGranted) rfl).of_eq rfl rfl rfl rfl rfl rfl
    split
    · exact (hended.emit (e := .optInExpiredOrDenied) rfl).of_eq
        rfl rfl rfl rfl rfl rfl
    · exact h
  · exact h

theorem statusRead_round (h : s.Round) (r : OptInServiceResult) :
    (s.statusRead r).Round := by
  refine pollState_round (driveConsent_round ?_) _
  exact h.of_eq rfl rfl rfl rfl rfl rfl

theorem statusFailed_round (h : s.Round) (error : String) :
    (s.statusFailed error).Round := by
  unfold statusFailed
  simp only []
  split
  · refine Round.emit (driveConsent_round ?_) rfl
    exact h.of_eq rfl rfl rfl rfl rfl rfl
  · exact h.of_eq rfl rfl rfl rfl rfl rfl

theorem optInCancelled_round (h : s.Round) : s.optInCancelled.Round := by
  refine driveConsent_round ?_
  exact h.of_eq rfl rfl rfl rfl rfl rfl

theorem codeRejected_round (h : s.Round) (error : String) :
    (s.codeRejected error).Round :=
  (h.emit (e := .optInCodeResult false error) rfl).of_eq rfl rfl rfl rfl rfl rfl

/-- With the state at 3 the window has nothing to ask for. -/
theorem driveConsent_granted (hstate : s.optInState = 3) :
    s.driveConsent = s ∨ s.driveConsent = s.consentResolved := by
  unfold driveConsent
  split
  · exact .inl rfl
  split
  · exact .inl rfl
  rw [if_pos (by simp [consentSatisfiedFor, hstate])]
  exact .inr rfl

theorem codeAccepted_round (h : s.Round) (hnone : s.starts = []) :
    s.codeAccepted.Round := by
  have hended : (s.stopOptInPolling.setOptInRoundActive false).Round :=
    h.ended hnone rfl rfl rfl rfl rfl
  have hanswered {t : Session} (ht : t.Round) :
      (({ t with optInFailures := 0 } : Session).emit
        (.optInCodeResult true "")).Round :=
    ht.restarted rfl (by rw [startsSince_append])
  have hcode : s.codeAccepted =
      (({ s.stopOptInPolling.setOptInRoundActive false with
        optInFailures := 0
        optInState := 3 } : Session).driveConsent.emit
          (.optInCodeResult true "")).closePrompt.consentResolved := rfl
  rw [hcode]
  refine consentResolved_round ?_
  generalize hgranted : ({ s.stopOptInPolling.setOptInRoundActive false with
    optInFailures := 0, optInState := 3 } : Session) = t
  have hstate : t.optInState = 3 := by rw [← hgranted]
  rcases driveConsent_granted hstate with heq | heq <;> rw [heq]
  · rw [← hgranted]
    exact (hanswered hended).of_eq rfl rfl rfl rfl rfl rfl
  · unfold consentResolved
    split
    · rw [← hgranted]
      exact (hanswered hended).of_eq rfl rfl rfl rfl rfl rfl
    · next p _ =>
      rw [← hgranted]
      exact (hanswered (hended.emit (e := .panelStarted p) rfl)).of_eq
        rfl rfl rfl rfl rfl rfl

/-! ## A reply that comes in -/

/-- A request leaves the flight. -/
def without (s : Session) (id : Nat) : Session :=
  { s with flight := s.flight.filter fun p => p.id ≠ id }

theorem starts_without (id : Nat) :
    (s.without id).starts = s.starts.filter fun k => k ≠ id := by
  simp only [starts, without, List.filter_filter, List.filter_map]
  congr 1
  refine List.filter_congr fun q _ => ?_
  simp only [Function.comp_apply]
  rw [Bool.and_comm]

/-- All that was in order but the reply that is due. -/
theorem Round.remove (h : s.Round) {id : Nat} {q : Request}
    (hq : s.request id = some q) (hcall : q.call ≠ .startOptIn) :
    (s.without id).Round ∧ (s.without id).starts = s.starts := by
  have hmem := List.mem_of_find?_eq_some hq
  have hid : q.id = id := by simpa using List.find?_some hq
  have hstarts : (s.without id).starts = s.starts := by
    rw [starts_without, List.filter_eq_self]
    intro k hk
    obtain ⟨p, hp, rfl⟩ := List.mem_map.mp hk
    rw [List.mem_filter] at hp
    have hne : p.id ≠ id := by
      intro heq
      have := List.inj_on_of_nodup_map h.ids hp.1 hmem (heq.trans hid.symm)
      rw [this] at hp
      simp [hcall] at hp
    simpa using hne
  refine ⟨⟨?_, ?_, ?_, h.sent, ?_, ?_, ?_, h.polls, h.capped, ?_⟩, hstarts⟩
  · exact (List.filter_sublist.map _).nodup h.ids
  · exact fun q hq => h.fresh q (List.mem_filter.mp hq).1
  · exact fun q hq => h.typed q (List.mem_filter.mp hq).1
  all_goals rw [hstarts]
  · exact h.order
  · exact h.one
  · exact h.live
  · exact h.counted

/-- The reply to the StartOptIn of the round. -/
theorem Round.replied (h : s.Round) {id : Nat} {q : Request}
    (hq : s.request id = some q) (hcall : q.call = .startOptIn) :
    id ∈ s.starts ∧ (s.without id).starts = [] := by
  have hmem := List.mem_of_find?_eq_some hq
  have hid : q.id = id := by simpa using List.find?_some hq
  have hin : id ∈ s.starts := by
    rw [← hid]
    exact List.mem_map_of_mem (List.mem_filter.mpr ⟨hmem, by simpa using hcall⟩)
  refine ⟨hin, ?_⟩
  have hone : s.starts = [id] := by
    have := h.one
    match hs : s.starts with
    | [] => rw [hs] at hin; cases hin
    | [k] =>
        rw [hs] at hin
        rw [List.mem_singleton.mp hin]
    | _ :: _ :: _ => rw [hs] at this; simp at this
  rw [starts_without, hone]
  simp

/-- What the reply to a StartOptIn leaves, where the signal is `e`. -/
theorem Round.settled (h : s.Round) {id : Nat} {q : Request}
    (hq : s.request id = some q) (hcall : q.call = .startOptIn)
    (hflight : s'.flight = (s.without id).flight)
    (hnext : s'.nextRequest = s.nextRequest)
    (hout : ∀ j call, .sent j call ∈ s'.out → .sent j call ∈ s.out)
    (hpoll : s'.optInPolling = true → s'.optInRoundActive = true)
    (hcapped : s'.optInFailures ≤ kMaxOptInFailures)
    (hcounted : startsSince s'.out ≤ s'.optInFailures) : s'.Round := by
  have hstarts : s'.starts = [] := by
    rw [starts, hflight]
    exact (h.replied hq hcall).2
  refine ⟨?_, ?_, ?_, fun j call hj => ?_, ?_, ?_, ?_, hpoll, hcapped, ?_⟩
  · rw [hflight]
    exact (List.filter_sublist.map _).nodup h.ids
  · rw [hflight, hnext]
    exact fun q hq => h.fresh q (List.mem_filter.mp hq).1
  · rw [hflight]
    exact fun q hq => h.typed q (List.mem_filter.mp hq).1
  · rw [hnext]
    exact h.sent j call (hout j call hj)
  · rw [hstarts]
    intro k hk
    cases hk
  · rw [hstarts]
    exact Nat.zero_le 1
  · intro hne
    exact absurd hstarts hne
  · rw [hstarts]
    exact hcounted

theorem sent_mem_emit {e : Effect} (he : Effect.isSent e = false)
    {out : List Effect} (j : Nat) (call : Call)
    (hj : Effect.sent j call ∈ out ++ [e]) : Effect.sent j call ∈ out := by
  rcases List.mem_append.mp hj with hj | hj
  · exact hj
  · rw [← List.mem_singleton.mp hj] at he
    cases he

theorem optInAccepted_round (h : s.Round) {id : Nat} {q : Request}
    (hq : s.request id = some q) (hcall : q.call = .startOptIn) :
    (s.without id).optInAccepted.Round := by
  have hne : s.starts ≠ [] := List.ne_nil_of_mem (h.replied hq hcall).1
  refine h.settled hq hcall rfl rfl (sent_mem_emit rfl) (fun _ => (h.live hne).1)
    (Nat.zero_le _) ?_
  exact Nat.le_of_eq (startsSince_append s.out (.optInStarted true ""))

theorem optInFailed_round (h : s.Round) {id : Nat} {q : Request}
    (hq : s.request id = some q) (hcall : q.call = .startOptIn)
    (error : String) : ((s.without id).optInFailed error).Round := by
  obtain ⟨hin, -⟩ := h.replied hq hcall
  have hne : s.starts ≠ [] := List.ne_nil_of_mem hin
  obtain ⟨-, hoff, hfew⟩ := h.live hne
  have hfailed : (({ (s.without id).setOptInRoundActive false with
      optInFailures := s.optInFailures + 1 } : Session).emit
        (.optInStarted false error)).Round := by
    refine h.settled hq hcall rfl rfl (sent_mem_emit rfl) (fun hon => ?_) hfew ?_
    · have hon : s.optInPolling = true := hon
      rw [hoff] at hon
      cases hon
    · refine Nat.le_trans (startsSince_le rfl) ?_
      refine Nat.le_trans h.counted ?_
      have := h.one
      show s.optInFailures + s.starts.length ≤ s.optInFailures + 1
      omega
  unfold optInFailed
  simp only []
  split
  · exact (hfailed.emit rfl).of_eq rfl rfl rfl rfl rfl rfl
  · exact hfailed

/-- A reply to another request: what it was, and what is done with it. -/
theorem callback_round (h : s.Round) {q : Request}
    {reply : Except String Answer} (hcall : q.call ≠ .startOptIn)
    (hcode : ∀ code, q.call = .sendOptInCode code →
      reply = .ok (.returned 0) → s.starts = []) :
    (s.callback q reply).Round := by
  unfold callback
  split
  · exact h.send _ (by simp) (by simp)
  · exact h
  · exact statusFailed_round h _
  · exact statusRead_round h _
  · exact statusRead_round h _
  · next hstart => exact absurd hstart hcall
  · next hstart => exact absurd hstart hcall
  · next hstart => exact absurd hstart hcall
  · next hstart => exact absurd hstart hcall
  · next code hsend => exact codeAccepted_round h (hcode code hsend rfl)
  · exact codeRejected_round h _
  · exact h
  · exact codeRejected_round h _
  · exact optInCancelled_round h

/-- The reply to a StartOptIn: what the firmware answers it is typed. -/
theorem startOptIn_reply_round (h : s.Round) {id : Nat} {q : Request}
    (hq : s.request id = some q) (hcall : q.call = .startOptIn)
    {reply : Except String Answer}
    (hreply : ∀ a, reply = .ok a → q.answer = some a) :
    ((s.without id).callback q reply).Round := by
  unfold callback
  rw [hcall]
  cases reply with
  | error error => exact optInFailed_round h hq hcall error
  | ok a =>
      obtain ⟨v, rfl⟩ := h.typed q (List.mem_of_find?_eq_some hq) hcall a
        (hreply a rfl)
      cases v with
      | zero => exact optInAccepted_round h hq hcall
      | succ v => exact optInFailed_round h hq hcall _

theorem deliver_round (h : s.Round) {id : Nat} {lost : Option String}
    (hcode : s.codeReply id lost = true → s.starts = []) :
    (s.deliver id lost).Round := by
  unfold deliver
  split
  · exact h
  next q hq =>
  have hother {reply : Except String Answer} (hcall : q.call ≠ .startOptIn)
      (hreply : ∀ code, q.call = .sendOptInCode code →
        reply = .ok (.returned 0) → s.codeReply id lost = true) :
      ((s.without id).callback q reply).Round := by
    obtain ⟨hrest, hstarts⟩ := h.remove hq hcall
    refine callback_round hrest hcall fun code hsend hok => ?_
    rw [hstarts]
    exact hcode (hreply code hsend hok)
  simp only []
  split
  · next error =>
    by_cases hcall : q.call = .startOptIn
    · exact startOptIn_reply_round h hq hcall fun a ha => by cases ha
    · exact hother hcall fun code _ hok => by cases hok
  · next answer hanswer =>
    by_cases hcall : q.call = .startOptIn
    · refine startOptIn_reply_round h hq hcall fun a ha => ?_
      cases ha
      exact hanswer
    · refine hother hcall fun code hsend hok => ?_
      cases hok
      obtain ⟨qid, call, answer, afterGrant⟩ := q
      cases hsend
      cases hanswer
      rw [codeReply, hq]
      rfl
  · exact h

/-- The firmware answers, and a request keeps its number and its call. -/
theorem Round.relabelled (h : s.Round) (f : Request → Request)
    (hid : ∀ q, (f q).id = q.id) (hcall : ∀ q, (f q).call = q.call)
    (hanswer : ∀ q ∈ s.flight, q.call = .startOptIn →
      ∀ a, (f q).answer = some a → ∃ v, a = .returned v)
    (firmware : Firmware) :
    ({ s with firmware, flight := s.flight.map f } : Session).Round := by
  have hids : (s.flight.map f).map Request.id = s.flight.map Request.id := by
    rw [List.map_map]
    exact List.map_congr_left fun q _ => hid q
  have hstarts : ({ s with firmware, flight := s.flight.map f } : Session).starts =
      s.starts := by
    simp only [starts, List.filter_map, List.map_map]
    have hsame : (fun q : Request => decide (q.call = .startOptIn)) ∘ f =
        fun q => decide (q.call = .startOptIn) := by
      funext q
      rw [Function.comp_apply, hcall]
    rw [hsame]
    exact List.map_congr_left fun q _ => hid q
  refine ⟨?_, fun q hq => ?_, fun q hq => ?_, h.sent, ?_, ?_, ?_, h.polls,
    h.capped, ?_⟩
  · rw [hids]
    exact h.ids
  · obtain ⟨p, hp, rfl⟩ := List.mem_map.mp hq
    rw [hid]
    exact h.fresh p hp
  · obtain ⟨p, hp, rfl⟩ := List.mem_map.mp hq
    rw [hcall]
    exact hanswer p hp
  all_goals rw [hstarts]
  · exact h.order
  · exact h.one
  · exact h.live
  · exact h.counted

theorem serve_round (h : s.Round) (id returnValue : Nat) :
    (s.serve id returnValue).Round := by
  unfold serve
  split
  · exact h
  next q hq =>
  have hmem := List.mem_of_find?_eq_some hq
  have hqid : q.id = id := by simpa using List.find?_some hq
  split
  · exact h
  simp only []
  have hserved := h.relabelled (fun p =>
    if p.id = id then
      { p with
        answer := some (answerTo q.call returnValue s.firmware).1
        afterGrant :=
          if q.call = .getOptInService then s.granted else p.afterGrant }
    else p) (fun p => by split <;> rfl) (fun p => by split <;> rfl)
    (fun p hp hcall a ha => by
      split at ha
      · next heq =>
        have hsame := List.inj_on_of_nodup_map h.ids hp hmem (heq.trans hqid.symm)
        rw [← hsame, hcall] at ha
        exact ⟨returnValue, (Option.some.inj ha).symm⟩
      · exact h.typed p hp hcall a ha)
    (answerTo q.call returnValue s.firmware).2
  split
  · exact hserved.relabelled (fun p => { p with afterGrant := false })
      (fun _ => rfl) (fun _ => rfl) (fun p hp hcall a ha => hserved.typed p hp
        hcall a ha) _
  · exact hserved

/-! ## A step -/

theorem handle_round (h : s.Round) {e : Event} (hok : s.Waits e) :
    (s.handle e).Round := by
  have hend (hnone : s.starts = []) : s.promptCancelled.Round := by
    have hcleared : ({ s with pendingConnectTab := none } : Session).Round :=
      h.of_eq rfl rfl rfl rfl rfl rfl
    exact (cancelOptIn_round hcleared hnone).1.of_eq rfl rfl rfl rfl rfl rfl
  cases e with
  | requestConnect p => exact requestConnect_round h p
  | submitted code =>
      rw [handle]
      split
      · exact h.send false (by simp) (by simp)
      · exact h
  | cancelled =>
      rw [handle]
      split
      · next hopen => exact hend (hok hopen)
      · exact h
  | countdownElapsed =>
      rw [handle]
      split
      · next hopen => exact hend (hok hopen)
      · exact h
  | dismissed => exact h.of_eq rfl rfl rfl rfl rfl rfl
  | close =>
      have hstopped : (({ s with
          pendingConnectTab := none } : Session).stopOptInPolling).Round :=
        h.ended hok rfl rfl rfl rfl rfl
      simp only [handle, close]
      split
      · exact (cancelOptIn_round hstopped hok).1.of_eq rfl rfl rfl rfl rfl rfl
      · exact hstopped.of_eq rfl rfl rfl rfl rfl rfl
  | refreshOptInStatus => exact refreshOptInStatus_round h
  | pollTick =>
      rw [handle]
      split
      · exact refreshOptInStatus_round h
      · exact h
  | sshConnecting => exact h.of_eq rfl rfl rfl rfl rfl rfl
  | sshConnected =>
      have hup : ({ s with
          sshConnecting := false, pendingOverview := false } : Session).Round :=
        h.of_eq rfl rfl rfl rfl rfl rfl
      simp only [handle]
      split
      · exact refreshOptInStatus_round hup
      · exact hup
  | sshDown => exact h.of_eq rfl rfl rfl rfl rfl rfl
  | setHost present => exact h.of_eq rfl rfl rfl rfl rfl rfl
  | direct call =>
      cases call with
      | startOptIn => exact startOptIn_round h
      | sendOptInCode code => exact h.send false (by simp) (by simp)
      | cancelOptIn => exact (cancelOptIn_round h hok).1
      | resetOptInAttempts => exact resetOptInAttempts_round h
  | serve id returnValue => exact serve_round h id returnValue
  | deliver id lost => exact deliver_round h hok
  | firmware fw => exact h.of_eq rfl rfl rfl rfl rfl rfl

theorem step_round (h : s.Round) {e : Event} (hok : s.Waits e) :
    (s.step e).Round := by
  unfold step
  split
  · exact h
  · exact (handle_round h hok).of_eq rfl rfl rfl rfl rfl rfl

/-- No CancelOptIn was sent behind a StartOptIn that is in flight. -/
theorem Round.cancelFinal (h : s.Round) (e : Event) : s.CancelFinal e := by
  cases e with
  | deliver k lost =>
      rintro q hq hcall ⟨j, hlt, hj⟩
      have := h.order k (h.replied hq hcall).1 j hj
      omega
  | _ => exact trivial

theorem Round.empty : ({} : Session).Round where
  ids := List.nodup_nil
  fresh := fun q hq => by cases hq
  typed := fun q hq => by cases hq
  sent := fun j call hj => by cases hj
  order := fun k hk => by cases hk
  one := Nat.zero_le 1
  live := fun hne => absurd rfl hne
  polls := fun hon => by cases hon
  capped := Nat.zero_le _
  counted := Nat.zero_le _

end Session

/-- In every run in which no round is ended while a StartOptIn is in flight,
every state keeps the law of the round, and a reply to a StartOptIn that was
cancelled does not bring it back. -/
theorem consent_round (es : List Event)
    (hok : ∀ x ∈ trail Session.step {} es, x.1.Waits x.2) :
    (∀ early, early <+: es → (run Session.step {} early).RoundKept) ∧
      ∀ x ∈ trail Session.step {} es, x.1.CancelFinal x.2 := by
  have hkeeps : ∀ s e, Session.Round s → s.Waits e → (s.step e).Round :=
    fun _ _ h hok => Session.step_round h hok
  refine ⟨fun early hearly => ?_, fun x hx => ?_⟩
  · exact (invariant_of_trail hkeeps .empty hok early hearly).kept
  · exact (invariant_on_trail hkeeps .empty hok x hx).cancelFinal x.2

/-- A round that is refused, one that is cancelled when its prompt is up, and
a third one. -/
theorem consent_round_cancelled :
    (∀ early, early <+: [.direct .startOptIn, .serve 0 1, .deliver 0 none,
        .direct .startOptIn, .serve 1 0, .deliver 1 none, .cancelled,
        .serve 2 0, .deliver 2 none, .direct .startOptIn] →
      (run Session.step {} early).RoundKept) ∧
    ∀ x ∈ trail Session.step {} [.direct .startOptIn, .serve 0 1,
        .deliver 0 none, .direct .startOptIn, .serve 1 0, .deliver 1 none,
        .cancelled, .serve 2 0, .deliver 2 none, .direct .startOptIn],
      x.1.CancelFinal x.2 := by
  exact consent_round _ (by decide)

/-- A round is cancelled before the firmware answered: the answer starts the
poll of a round that is over. -/
theorem consent_round_reopened :
    ¬ ∀ es : List Event,
      (∀ early, early <+: es → (run Session.step {} early).RoundKept) ∧
        ∀ x ∈ trail Session.step {} es, x.1.CancelFinal x.2 := by
  intro h
  have hpolls := ((h [.direct .startOptIn, .serve 0 0, .direct .cancelOptIn,
    .deliver 0 none]).1 _ (List.prefix_refl _)).polling rfl
  cases hpolls

end QuMesh.Consent
