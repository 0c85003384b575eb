import QuMesh.Lib.Rounds
import QuMesh.Lib.Run

/-!
# Watching a history for what must not follow

Many a rule about a component says that after some event another must not
happen. A `Watch` is such a rule: the history is an output the states carry,
`marks` says which entries raise and lower the alarm, `breach` what must not
be done while it is raised, and `rest` what a state looks like that will do
none of it. `Rests good s d` is the one judgement about a step: what it added
is in order exactly if `good` holds, and then an alarm leaves the state at
rest. It composes, so an exact condition for a round or an event is one for a
loop or a run.
-/

namespace QuMesh.Lib

structure Watch (σ ε : Type) where
  out : σ → List ε
  marks : Bool → ε → Bool
  breach : ε → Bool
  rest : σ → Prop

namespace Watch

variable {σ ε : Type} (w : Watch σ ε)

/-- Whether the alarm is raised after a history. -/
def alarmAfter (alarm : Bool) (es : List ε) : Bool := es.foldl w.marks alarm

/-- No breach in the history while the alarm is raised. -/
def inOrder : Bool → List ε → Bool
  | _, [] => true
  | alarm, e :: es =>
      !(alarm && w.breach e) && inOrder (w.marks alarm e) es

def alarm (s : σ) : Bool := w.alarmAfter false (w.out s)

/-- An alarm leaves the state at rest. -/
def Calm (s : σ) : Prop := w.alarm s = true → w.rest s

/-- The step is in order exactly if `good` holds, and then `d` is calm. -/
def Rests (good : Prop) (s d : σ) : Prop :=
  ∃ new, w.out d = w.out s ++ new ∧
    (w.inOrder (w.alarm s) new = true ↔ good) ∧ (good → w.Calm d)

variable {w}

theorem inOrder_append (alarm : Bool) (es fs : List ε) :
    w.inOrder alarm (es ++ fs) =
      (w.inOrder alarm es && w.inOrder (w.alarmAfter alarm es) fs) := by
  induction es generalizing alarm with
  | nil => rfl
  | cons e es ih =>
      rw [List.cons_append, inOrder, inOrder, ih, Bool.and_assoc]
      rfl

theorem alarm_append {s d : σ} {new : List ε}
    (h : w.out d = w.out s ++ new) : w.alarm d = w.alarmAfter (w.alarm s) new := by
  rw [alarm, h, alarmAfter, List.foldl_append]
  rfl

/-- Entries that do not touch the alarm. -/
theorem alarmAfter_eq {alarm : Bool} {es : List ε}
    (h : ∀ e ∈ es, w.marks alarm e = alarm) : w.alarmAfter alarm es = alarm := by
  induction es with
  | nil => rfl
  | cons e es ih =>
      rw [alarmAfter, List.foldl_cons, h e List.mem_cons_self]
      exact ih fun e' he' => h e' (List.mem_cons_of_mem e he')

/-- As long as the alarm is not raised anything goes. -/
theorem inOrder_silent {es : List ε}
    (h : ∀ e ∈ es, w.marks false e = false) : w.inOrder false es = true := by
  induction es with
  | nil => rfl
  | cons e es ih =>
      rw [inOrder, h e List.mem_cons_self,
        ih fun e' he' => h e' (List.mem_cons_of_mem e he')]
      rfl

/-- Under an alarm that is not lowered a breach is one. -/
theorem inOrder_breached {es : List ε}
    (hkeeps : ∀ e ∈ es, w.marks true e = true) {e : ε} (he : e ∈ es)
    (hbreach : w.breach e = true) : w.inOrder true es = false := by
  induction es with
  | nil => cases he
  | cons x xs ih =>
      rw [inOrder, hkeeps x List.mem_cons_self]
      rcases List.mem_cons.mp he with rfl | he
      · rw [hbreach]
        rfl
      · rw [ih (fun e' he' => hkeeps e' (List.mem_cons_of_mem x he')) he,
          Bool.and_false]

namespace Rests

theorem grows {good : Prop} {s d : σ} (h : w.Rests good s d) : Grows w.out s d := by
  obtain ⟨new, hout, -⟩ := h
  exact ⟨new, hout⟩

theorem calm {good : Prop} {s d : σ} (h : w.Rests good s d) (hg : good) :
    w.Calm d := by
  obtain ⟨-, -, -, hcalm⟩ := h
  exact hcalm hg

theorem congr {good other : Prop} {s d : σ} (h : w.Rests good s d)
    (hiff : good ↔ other) : w.Rests other s d := by
  obtain ⟨new, hout, hrests, hcalm⟩ := h
  exact ⟨new, hout, hrests.trans hiff, fun ho => hcalm (hiff.mpr ho)⟩

/-- Nothing in the history, and the state as much at rest as it was. -/
theorem quiet {s d : σ} (hs : w.Calm s) (hout : w.out d = w.out s)
    (hrest : w.rest s → w.rest d) : w.Rests True s d := by
  refine ⟨[], by rw [hout, List.append_nil], iff_of_true rfl trivial,
    fun _ hd => hrest (hs ?_)⟩
  rwa [alarm, hout] at hd

/-- One entry, that neither touches the alarm nor is a breach. -/
theorem entry {s d : σ} (hs : w.Calm s) {e : ε} (hout : w.out d = w.out s ++ [e])
    (hmarks : ∀ alarm, w.marks alarm e = alarm) (hbreach : w.breach e = false)
    (hrest : w.rest s → w.rest d) : w.Rests True s d := by
  refine ⟨[e], hout, iff_of_true ?_ trivial, fun _ hd => hrest (hs ?_)⟩
  · rw [inOrder, hbreach, Bool.and_false]
    rfl
  · rwa [alarm_append hout, alarmAfter_eq fun x hx => by
      rw [List.mem_singleton.mp hx, hmarks]] at hd

/-- What is not in the history does not count. -/
theorem around {good : Prop} {s s' d d' : σ} (h : w.Rests good s' d)
    (hs : w.out s' = w.out s) (hd : w.out d' = w.out d)
    (hrest : w.rest d → w.rest d') : w.Rests good s d' := by
  obtain ⟨new, hout, hrests, hcalm⟩ := h
  refine ⟨new, by rw [hd, hout, hs], ?_, fun hg hf => hrest (hcalm hg ?_)⟩
  · rwa [alarm, hs] at hrests
  · rwa [alarm, hd] at hf

theorem trans {g₁ g₂ : Prop} {s t d : σ} (h : w.Rests g₁ s t)
    (hgrows : Grows w.out t d) (hnext : g₁ → w.Rests g₂ t d) :
    w.Rests (g₁ ∧ g₂) s d := by
  obtain ⟨new₁, hout₁, hrests₁, -⟩ := h
  by_cases hg : g₁
  · obtain ⟨new₂, hout₂, hrests₂, hcalm₂⟩ := hnext hg
    refine ⟨new₁ ++ new₂, by rw [hout₂, hout₁, List.append_assoc], ?_,
      fun h => hcalm₂ h.2⟩
    rw [inOrder_append, ← alarm_append hout₁, Bool.and_eq_true, hrests₁,
      hrests₂]
  · -- it was out of order before the second step began
    obtain ⟨new₂, hout₂⟩ := hgrows
    refine ⟨new₁ ++ new₂, by rw [hout₂, hout₁, List.append_assoc], ?_,
      fun h => absurd h.1 hg⟩
    rw [inOrder_append, Bool.and_eq_true, hrests₁]
    exact ⟨fun h => absurd h.1 hg, fun h => absurd h.1 hg⟩

/-- A loop is in order if each of its rounds is. -/
theorem rounds (idle : σ → Bool) {round : σ → σ × Bool} {ok : σ → Bool}
    (hgrows : ∀ s, Grows w.out s (round s).1)
    (h : ∀ s, w.Calm s → w.Rests (ok s = true) s (round s).1) (fuel : Nat)
    {s : σ} (hs : w.Calm s) :
    w.Rests (everyRound idle round ok fuel s = true) s
      (rounds idle round fuel s) := by
  induction fuel generalizing s with
  | zero => exact (quiet hs rfl id).congr (iff_of_true trivial rfl)
  | succ fuel ih =>
      cases hidle : idle s with
      | true =>
          rw [rounds_idle hidle, everyRound_idle hidle]
          exact (quiet hs rfl id).congr (iff_of_true trivial rfl)
      | false =>
          have hstep := h s hs
          rw [everyRound, hidle, Bool.false_or, Bool.and_eq_true]
          cases hd : round s with
          | mk d go =>
              rw [hd] at hstep
              cases go with
              | false =>
                  rw [rounds_stop hidle hd]
                  exact hstep.congr (and_iff_left rfl).symm
              | true =>
                  rw [rounds_go hidle hd]
                  exact hstep.trans
                    (rounds_relation Grows.refl Grows.trans hgrows fuel d)
                    fun hg => ih (hstep.calm hg)

/-- A run is in order if each of its events is. -/
theorem run {η : Type} {step : σ → η → σ} {ok : σ → η → Prop}
    (hgrows : ∀ s e, Grows w.out s (step s e))
    (h : ∀ s e, w.Calm s → w.Rests (ok s e) s (step s e)) (es : List η)
    (past : List (σ × η)) {s : σ} (hs : w.Calm s) :
    w.Rests (GuardedFrom step (fun _ s e => ok s e) past s es) s
      (run step s es) := by
  induction es generalizing s past with
  | nil => exact quiet hs rfl id
  | cons e es ih =>
      have hstep := h s e hs
      exact hstep.trans (Grows.run hgrows _ es) fun hg => ih _ (hstep.calm hg)

end Rests

/-- From a state with no history, the runs that are in order are the ones
whose events are. -/
theorem inOrder_run {η : Type} {step : σ → η → σ} {ok : σ → η → Prop}
    (hgrows : ∀ s e, Grows w.out s (step s e))
    (h : ∀ s e, w.Calm s → w.Rests (ok s e) s (step s e)) {s : σ}
    (hs : w.out s = []) (es : List η) :
    (w.inOrder false (w.out (run step s es)) = true ∧
        w.Calm (run step s es)) ↔
      Guarded step (fun _ s e => ok s e) s es := by
  have halarm : w.alarm s = false := by rw [alarm, hs]; rfl
  have hcalm : w.Calm s := fun hs' => by rw [halarm] at hs'; cases hs'
  obtain ⟨new, hout, hrests, hend⟩ := Rests.run hgrows h es [] hcalm
  rw [hs, List.nil_append] at hout
  rw [halarm] at hrests
  rw [hout]
  constructor
  · exact fun h => hrests.mp h.1
  · exact fun h => ⟨hrests.mpr h, hend h⟩

end Watch

end QuMesh.Lib
