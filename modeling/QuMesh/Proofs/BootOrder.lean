import QuMesh.Proofs.ReplyTruth

/-!
# The order of a boot action

An action sends its requests in the documented order, and each behind a reply
that was taken for a success; how far it gets is how many replies from the first
on are taken for one. `run_eq` says so, and what the callback is given: the first
reply that is not taken ends the chain with its error, and the reply to the power
change ends it in any case.

So what is promised of the order and of the callback holds of every run, and what
is promised of success holds as far as the chain can tell one. It does not ask
for the status, and a fault without text is none to it: with such a reply taken
for a success the chain goes on to the power change. `orderly_iff` says that
nothing else is in the way.
-/

namespace QuMesh.Wsman

open QuMesh.Lib QuMesh.Lib.Xml

/-! ## How far a chain gets -/

section Progress

variable {σ ρ : Type} (takes : σ → ρ → Bool)

/-- How many steps have a reply that is taken for a success, from the first one
on. -/
def progress : List σ → List ρ → Nat
  | s :: steps, r :: replies =>
      if takes s r then progress steps replies + 1 else 0
  | _, _ => 0

variable {takes}

theorem progress_le (steps : List σ) (replies : List ρ) :
    progress takes steps replies ≤ steps.length ∧
      progress takes steps replies ≤ replies.length := by
  induction steps generalizing replies with
  | nil => exact ⟨Nat.le_refl 0, Nat.zero_le _⟩
  | cons s steps ih =>
      cases replies with
      | nil => exact ⟨Nat.zero_le _, Nat.le_refl 0⟩
      | cons r replies =>
          obtain ⟨hsteps, hreplies⟩ := ih replies
          rw [progress]
          split
          · exact ⟨Nat.succ_le_succ hsteps, Nat.succ_le_succ hreplies⟩
          · exact ⟨Nat.zero_le _, Nat.zero_le _⟩

/-- The steps that the chain has behind it. -/
theorem lt_progress_iff {steps : List σ} {replies : List ρ} {k : Nat} :
    k < progress takes steps replies ↔
      ∀ j ≤ k, ∃ s r, steps[j]? = some s ∧ replies[j]? = some r ∧
        takes s r = true := by
  induction steps generalizing replies k with
  | nil =>
      refine iff_of_false (Nat.not_lt_zero k) fun h => ?_
      obtain ⟨s, r, hs, -⟩ := h 0 (Nat.zero_le k)
      cases hs
  | cons s steps ih =>
      cases replies with
      | nil =>
          refine iff_of_false (Nat.not_lt_zero k) fun h => ?_
          obtain ⟨s, r, -, hr, -⟩ := h 0 (Nat.zero_le k)
          cases hr
      | cons r replies =>
          rw [progress]
          split
          next htakes =>
            cases k with
            | zero =>
                refine iff_of_true (Nat.succ_pos _) fun j hj => ?_
                obtain rfl := Nat.le_zero.mp hj
                exact ⟨s, r, rfl, rfl, htakes⟩
            | succ k =>
                rw [Nat.succ_lt_succ_iff, ih]
                constructor
                · intro h j hj
                  cases j with
                  | zero => exact ⟨s, r, rfl, rfl, htakes⟩
                  | succ j => exact h j (Nat.le_of_succ_le_succ hj)
                · intro h j hj
                  exact h (j + 1) (Nat.succ_le_succ hj)
          next htakes =>
            refine iff_of_false (Nat.not_lt_zero k) fun h => ?_
            obtain ⟨s', r', hs, hr, hok⟩ := h 0 (Nat.zero_le k)
            cases hs
            cases hr
            exact htakes hok

end Progress

/-! ## The documented order -/

/-- The step that sets the source, where there is one. -/
def sourceSteps (p : BootActionParams) : List BootStep :=
  if p.amtBootSource = "" then [] else [.setSpecificBootSource]

/-- The steps of an action, as they are documented. -/
def documented (p : BootActionParams) : List BootStep :=
  [.clearBootOrder, .putBootSettingData, .setRole] ++ sourceSteps p ++
    [.powerChange]

namespace BootStep

/-- The steps behind one. -/
def after (p : BootActionParams) : BootStep → List BootStep
  | clearBootOrder =>
      [.putBootSettingData, .setRole] ++ sourceSteps p ++ [.powerChange]
  | putBootSettingData => [.setRole] ++ sourceSteps p ++ [.powerChange]
  | setRole => sourceSteps p ++ [.powerChange]
  | setSpecificBootSource => [.powerChange]
  | powerChange => []

def check (s : BootStep) : Check :=
  if s = .putBootSettingData then .unread else .strict

/-- The reply is taken for a success. -/
def takes (p : BootActionParams) (s : BootStep) (r : Outcome) : Bool :=
  (s.result p (some r)).ok

theorem takes_iff (p : BootActionParams) (s : BootStep) (r : Outcome) :
    s.takes p r = true ↔ Taken s.check r :=
  (s.result_taken p).2 r

/-- A step that is ok sends the one behind it. -/
theorem next_send {s : BootStep} (h : s ≠ .powerChange) {c : BootChain}
    (result : InvokeResult) :
    ∃ t, s.after c.p = t :: t.after c.p ∧ c.next result s = c.send t := by
  cases s with
  | clearBootOrder => exact ⟨.putBootSettingData, rfl, rfl⟩
  | putBootSettingData => exact ⟨.setRole, rfl, rfl⟩
  | setRole =>
      by_cases hsource : c.p.amtBootSource = ""
      · exact ⟨.powerChange, by simp [after, sourceSteps, hsource],
          if_pos hsource⟩
      · exact ⟨.setSpecificBootSource, by simp [after, sourceSteps, hsource],
          if_neg hsource⟩
  | setSpecificBootSource => exact ⟨.powerChange, rfl, rfl⟩
  | powerChange => exact absurd rfl h

end BootStep

/-! ## Runs -/

namespace BootChain

/-- The callback was run, once. -/
def Ended (c : BootChain) (ok : Bool) : Prop :=
  c.waiting = none ∧ ∃ result, c.calls = [result] ∧ result.ok = ok

theorem reply_ended {c : BootChain} {ok : Bool} (h : c.Ended ok)
    (replies : List Outcome) : (replies.foldl reply c) = c := by
  induction replies with
  | nil => rfl
  | cons r replies ih =>
      have hsame : c.reply r = c := by
        rw [reply, h.1]
      rw [List.foldl_cons, hsame, ih]

/-- What a chain that waits for the reply to a step has sent, and whether it has
ended, `n` taken replies later. -/
structure At (c : BootChain) (s : BootStep) (given n : Nat) (d : BootChain) :
    Prop where
  sent : d.sent = c.sent ++ (s.after c.p).take n
  whole : n = (s.after c.p).length + 1 → d.Ended true
  failed : n < (s.after c.p).length + 1 → n < given → d.Ended false
  waits : n < (s.after c.p).length + 1 → n = given →
    d.waiting ≠ none ∧ d.calls = []

/-- What a run comes to. -/
theorem run_eq {c : BootChain} {s : BootStep} (hwaiting : c.waiting = some s)
    (hcalls : c.calls = []) (replies : List Outcome) :
    c.At s replies.length
      (progress (BootStep.takes c.p) (s :: s.after c.p) replies)
      (replies.foldl reply c) := by
  induction replies generalizing c s with
  | nil =>
      refine ⟨by simp [progress], fun h => ?_, fun _ h => ?_, fun _ _ => ?_⟩
      · cases h
      · exact absurd h (Nat.lt_irrefl 0)
      · exact ⟨by simp [hwaiting], hcalls⟩
  | cons r replies ih =>
      have hreply : c.reply r =
          if s.takes c.p r then c.next (s.result c.p (some r)) s
          else c.callback (s.result c.p (some r)) := by
        rw [reply, hwaiting]
        rfl
      rw [List.foldl_cons, hreply, progress]
      by_cases htakes : s.takes c.p r = true
      · rw [if_pos htakes, if_pos htakes]
        by_cases hlast : s = .powerChange
        · subst hlast
          have hended : (c.next (BootStep.powerChange.result c.p (some r))
              .powerChange).Ended true :=
            ⟨rfl, _, by rw [next, callback, hcalls]; rfl, htakes⟩
          rw [reply_ended hended]
          exact ⟨by simp [BootStep.after, next, callback, progress],
            fun _ => hended, fun h => absurd h (by simp [BootStep.after]),
            fun h => absurd h (by simp [BootStep.after])⟩
        · obtain ⟨t, hafter, hnext⟩ :=
            BootStep.next_send hlast (c := c) (s.result c.p (some r))
          rw [hnext, hafter]
          have hrest := ih (c := c.send t) (s := t) rfl hcalls
          obtain ⟨hsent, hwhole, hfailed, hwaits⟩ := hrest
          refine ⟨?_, ?_, ?_, ?_⟩
          · rw [hsent, hafter]
            simp [send]
          · intro h
            rw [hafter] at h
            exact hwhole (Nat.succ.inj h)
          · intro h hgiven
            rw [hafter] at h
            exact hfailed (Nat.lt_of_succ_lt_succ h)
              (Nat.lt_of_succ_lt_succ hgiven)
          · intro h hgiven
            rw [hafter] at h
            exact hwaits (Nat.lt_of_succ_lt_succ h) (Nat.succ.inj hgiven)
      · rw [if_neg htakes, if_neg htakes]
        have hended : (c.callback (s.result c.p (some r))).Ended false :=
          ⟨rfl, _, by rw [callback, hcalls]; rfl, by simpa [BootStep.takes]
            using htakes⟩
        rw [reply_ended hended]
        exact ⟨by simp [callback], fun h => absurd h (by omega),
          fun _ _ => hended, fun _ h => absurd h (by simp)⟩

end BootChain

/-- An action, after some replies. -/
def bootRun (p : BootActionParams) (replies : List Outcome) : BootChain :=
  replies.foldl BootChain.reply (performBootAction true p)

/-! ## Orderly runs -/

/-- The step succeeded. -/
structure Succeeded (s : BootStep) (r : Outcome) : Prop where
  noError : r.errorString = ""
  faultless : Faultless r.xml
  status : 200 ≤ r.httpStatus ∧ r.httpStatus < 300
  returnValue : s ≠ .putBootSettingData → r.returnValue = some 0

theorem succeeded_of_taken {s : BootStep} {r : Outcome} (h : Taken s.check r)
    (hstatus : 200 ≤ r.httpStatus ∧ r.httpStatus < 300)
    (hfaultless : Faultless r.xml) : Succeeded s r where
  noError := h.noError
  faultless := hfaultless
  status := hstatus
  returnValue hs := by
    have hvalue := h.returnValue
    rw [BootStep.check, if_neg hs] at hvalue
    exact not_not.mp hvalue

/-- What is promised of an action. The device answers each request once, so that
no reply is left where nothing is waited for. -/
structure Orderly (p : BootActionParams) (replies : List Outcome) : Prop where
  order : (bootRun p replies).sent <+: documented p
  behind : ∀ k : Nat, k + 1 < (bootRun p replies).sent.length →
    ∃ s r, (documented p)[k]? = some s ∧ replies[k]? = some r ∧ Succeeded s r
  atMostOnce : (bootRun p replies).calls.length ≤ 1
  called : (bootRun p replies).waiting = none ↔
    (bootRun p replies).calls.length = 1
  ends : (documented p).length ≤ replies.length →
    (bootRun p replies).waiting = none
  success : ∀ result ∈ (bootRun p replies).calls, result.ok = true →
    (bootRun p replies).sent = documented p ∧
      ∀ (k : Nat) (s : BootStep), (documented p)[k]? = some s →
        ∃ r, replies[k]? = some r ∧ Succeeded s r

/-- No reply misleads the chain: as far as all replies are taken for successes,
they have a 2xx status and no fault. -/
def Unmisled (p : BootActionParams) (replies : List Outcome) : Prop :=
  ∀ k : Nat, (∀ j ≤ k, ∃ s r, (documented p)[j]? = some s ∧ replies[j]? = some r ∧
      Taken (BootStep.check s) r) →
    ∀ r : Outcome, replies[k]? = some r →
      (200 ≤ r.httpStatus ∧ r.httpStatus < 300) ∧ Faultless r.xml

theorem documented_eq (p : BootActionParams) :
    documented p = .clearBootOrder :: BootStep.after p .clearBootOrder := rfl

/-- How far an action gets. -/
def reached (p : BootActionParams) (replies : List Outcome) : Nat :=
  progress (BootStep.takes p) (documented p) replies

theorem bootRun_at (p : BootActionParams) (replies : List Outcome) :
    (performBootAction true p).At .clearBootOrder replies.length
      (reached p replies) (bootRun p replies) :=
  BootChain.run_eq rfl rfl replies

theorem bootRun_sent (p : BootActionParams) (replies : List Outcome) :
    (bootRun p replies).sent = (documented p).take (reached p replies + 1) := by
  rw [(bootRun_at p replies).sent, documented_eq, List.take_succ_cons]
  rfl

theorem lt_reached_iff {p : BootActionParams} {replies : List Outcome} {k : Nat} :
    k < reached p replies ↔
      ∀ j ≤ k, ∃ s r, (documented p)[j]? = some s ∧ replies[j]? = some r ∧
        Taken (BootStep.check s) r := by
  simp only [reached, lt_progress_iff, BootStep.takes_iff]

/-- Of the callback: it is run with a success where all steps are behind, with a
failure where a reply was none, and else it is not run yet. -/
theorem bootRun_callback (p : BootActionParams) (replies : List Outcome) :
    (reached p replies = (documented p).length ∧
      (bootRun p replies).Ended true) ∨
    (reached p replies < (documented p).length ∧
      (bootRun p replies).Ended false) ∨
    (replies.length < (documented p).length ∧
      (bootRun p replies).waiting ≠ none ∧ (bootRun p replies).calls = []) := by
  obtain ⟨hsteps, hreplies⟩ :=
    progress_le (documented p) replies
  have hat := bootRun_at p replies
  have hlen : (documented p).length =
      (BootStep.after p .clearBootOrder).length + 1 := rfl
  change reached p replies ≤ _ at hsteps hreplies
  by_cases hall : reached p replies = (documented p).length
  · exact .inl ⟨hall, hat.whole hall⟩
  have hlt : reached p replies < (documented p).length := by omega
  by_cases hgiven : reached p replies < replies.length
  · exact .inr (.inl ⟨hlt, hat.failed hlt hgiven⟩)
  · have hsame : reached p replies = replies.length := by omega
    exact .inr (.inr ⟨hsame ▸ hlt, hat.waits hlt hsame⟩)

/-- A step that is behind succeeded, where no reply misleads. -/
theorem succeeded_of_lt {p : BootActionParams} {replies : List Outcome}
    (h : Unmisled p replies) {k : Nat} (hk : k < reached p replies) :
    ∃ s r, (documented p)[k]? = some s ∧ replies[k]? = some r ∧
      Succeeded s r := by
  have hbehind := lt_reached_iff.mp hk
  obtain ⟨s, r, hs, hr, htaken⟩ := hbehind k (Nat.le_refl k)
  obtain ⟨hstatus, hfaultless⟩ := h k hbehind r hr
  exact ⟨s, r, hs, hr, succeeded_of_taken htaken hstatus hfaultless⟩

theorem orderly_of_unmisled {p : BootActionParams} {replies : List Outcome}
    (h : Unmisled p replies) : Orderly p replies := by
  have hcallback := bootRun_callback p replies
  constructor
  · rw [bootRun_sent]
    exact List.take_prefix _ _
  · intro k hk
    rw [bootRun_sent, List.length_take] at hk
    exact succeeded_of_lt h (by omega)
  · rcases hcallback with ⟨-, -, result, hcalls, -⟩ | ⟨-, -, result, hcalls, -⟩ |
      ⟨-, -, hcalls⟩ <;> rw [hcalls] <;> simp
  · rcases hcallback with ⟨-, hnone, result, hcalls, -⟩ |
      ⟨-, hnone, result, hcalls, -⟩ | ⟨-, hwaits, hcalls⟩
    · exact iff_of_true hnone (by rw [hcalls]; rfl)
    · exact iff_of_true hnone (by rw [hcalls]; rfl)
    · exact iff_of_false hwaits (by rw [hcalls]; simp)
  · intro hlen
    rcases hcallback with ⟨-, hnone, -⟩ | ⟨-, hnone, -⟩ | ⟨hlt, -⟩
    · exact hnone
    · exact hnone
    · omega
  · intro result hmem hok
    rcases hcallback with ⟨hall, -⟩ | ⟨-, -, failure, hcalls, hfailed⟩ |
      ⟨-, -, hcalls⟩
    · rw [bootRun_sent, hall]
      refine ⟨List.take_of_length_le (Nat.le_succ _), fun k s hs => ?_⟩
      have hk : k < (documented p).length := (List.getElem?_eq_some_iff.mp hs).1
      obtain ⟨s', r, hs', hr, hsucceeded⟩ := succeeded_of_lt h (hall ▸ hk)
      rw [hs] at hs'
      cases hs'
      exact ⟨r, hr, hsucceeded⟩
    · rw [hcalls, List.mem_singleton] at hmem
      rw [hmem, hfailed] at hok
      cases hok
    · rw [hcalls] at hmem
      cases hmem

theorem unmisled_of_orderly {p : BootActionParams} {replies : List Outcome}
    (h : Orderly p replies) : Unmisled p replies := by
  intro k hbehind r hr
  have hk := lt_reached_iff.mpr hbehind
  have hle : progress (BootStep.takes p) (documented p) replies ≤
      (documented p).length := (progress_le (documented p) replies).1
  change reached p replies ≤ _ at hle
  obtain ⟨s, r', hs, hr', hsucceeded⟩ : ∃ s r, (documented p)[k]? = some s ∧
      replies[k]? = some r ∧ Succeeded s r := by
    by_cases hlast : k + 1 < (documented p).length
    · refine h.behind k ?_
      rw [bootRun_sent, List.length_take]
      omega
    · have hall : reached p replies = (documented p).length := by omega
      obtain ⟨-, result, hcalls, hok⟩ :=
        (bootRun_at p replies).whole hall
      have hsuccess := (h.success result (by rw [hcalls]; simp) hok).2
      obtain ⟨s, -, hs, -⟩ := hbehind k (Nat.le_refl k)
      obtain ⟨r, hr, hsucceeded⟩ := hsuccess k s hs
      exact ⟨s, r, hs, hr, hsucceeded⟩
  rw [hr] at hr'
  cases hr'
  exact ⟨hsucceeded.status, hsucceeded.faultless⟩

/-- The reply to an invocation that succeeded. -/
def doneReply : Outcome where
  xml := [.startElement kNsSoap "Envelope" [], .startElement kNsSoap "Body" [],
    .startElement "" "OUTPUT" [], .startElement "" "ReturnValue" [],
    .characters "0", .endElement, .endElement, .endElement, .endElement]

/-- The settings were not put, and the power is changed. -/
theorem put_notFound :
    ∃ p replies, (bootRun p replies).sent = documented p ∧
      ¬Orderly p replies := by
  refine ⟨{ amtBootSource := "Force PXE Boot" },
    [doneReply, { httpStatus := 404 }, doneReply, doneReply, doneReply],
    by decide, fun h => ?_⟩
  obtain ⟨s, r, -, hr, hsucceeded⟩ := h.behind 1 (by decide)
  cases hr
  exact absurd hsucceeded.status (by decide)

/-- An action keeps what is promised of it in just the runs in which no reply
misleads it. -/
theorem orderly_iff (p : BootActionParams) (replies : List Outcome) :
    Orderly p replies ↔ Unmisled p replies :=
  ⟨unmisled_of_orderly, orderly_of_unmisled⟩

end QuMesh.Wsman
