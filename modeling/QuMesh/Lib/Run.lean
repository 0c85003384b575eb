import Mathlib.Tactic.Common

/-!
# Runs of an event-driven component

A component that lives in an event loop is a state and a total function that
answers one event. A run is a list of events, and what a property over runs
ranges over is the trail: every event paired with the state it met. The
rules below are the one induction on that list. `Guarded.history` carries a
property of the state and of the trail behind it along the runs whose events
meet a condition where they land; speaking about the trail is how a statement
can say that something happened earlier without the state having to remember
it. `Guarded.invariant` is the rule for a property of the state alone.
-/

namespace QuMesh.Lib

variable {σ ε : Type}

/-- The state a run ends in. -/
def run (step : σ → ε → σ) (s : σ) (es : List ε) : σ := es.foldl step s

/-- Every event of a run, paired with the state it met. -/
def trail (step : σ → ε → σ) : σ → List ε → List (σ × ε)
  | _, [] => []
  | s, e :: es => (s, e) :: trail step (step s e) es

/-- Every event of a run meets a condition on where it lands: the state it
finds there and the trail that led to it. `past` is the trail so far. -/
def GuardedFrom (step : σ → ε → σ) (ok : List (σ × ε) → σ → ε → Prop) :
    List (σ × ε) → σ → List ε → Prop
  | _, _, [] => True
  | past, s, e :: es =>
      ok past s e ∧ GuardedFrom step ok (past ++ [(s, e)]) (step s e) es

/-- The same of a run from its beginning. -/
def Guarded (step : σ → ε → σ) (ok : List (σ × ε) → σ → ε → Prop) (s : σ)
    (es : List ε) : Prop :=
  GuardedFrom step ok [] s es

section

variable {step : σ → ε → σ} {ok : List (σ × ε) → σ → ε → Prop}

/-- Whether a run is guarded can be computed where its condition can. -/
instance GuardedFrom.decidable [∀ past s e, Decidable (ok past s e)] :
    ∀ past s es, Decidable (GuardedFrom step ok past s es)
  | _, _, [] => .isTrue trivial
  | past, s, e :: es =>
      have := GuardedFrom.decidable (past ++ [(s, e)]) (step s e) es
      inferInstanceAs (Decidable (_ ∧ _))

instance [∀ past s e, Decidable (ok past s e)] (s : σ) (es : List ε) :
    Decidable (Guarded step ok s es) :=
  GuardedFrom.decidable [] s es

@[simp] theorem run_nil (s : σ) : run step s [] = s := rfl

@[simp] theorem run_cons (s : σ) (e : ε) (es : List ε) :
    run step s (e :: es) = run step (step s e) es := rfl

@[simp] theorem trail_nil (s : σ) : trail step s [] = [] := rfl

@[simp] theorem trail_cons (s : σ) (e : ε) (es : List ε) :
    trail step s (e :: es) = (s, e) :: trail step (step s e) es := rfl

/-- A property of the state and the trail behind it, kept by every event the
condition admits, holds where a guarded run ends. -/
theorem GuardedFrom.history (Inv : List (σ × ε) → σ → Prop)
    (keeps : ∀ past s e, Inv past s → ok past s e →
      Inv (past ++ [(s, e)]) (step s e))
    {past : List (σ × ε)} {s : σ} {es : List ε}
    (hg : GuardedFrom step ok past s es) (h : Inv past s) :
    Inv (past ++ trail step s es) (run step s es) := by
  induction es generalizing past s with
  | nil => simpa using h
  | cons e es ih =>
      have := ih hg.2 (keeps past s e h hg.1)
      simpa using this

/-- Every run meets a condition that always holds. -/
theorem unguarded (past : List (σ × ε)) (s : σ) (es : List ε) :
    GuardedFrom step (fun _ _ _ => True) past s es := by
  induction es generalizing past s with
  | nil => exact trivial
  | cons e es ih => exact ⟨trivial, ih _ _⟩

theorem Guarded.history (Inv : List (σ × ε) → σ → Prop)
    (keeps : ∀ past s e, Inv past s → ok past s e →
      Inv (past ++ [(s, e)]) (step s e))
    {s : σ} {es : List ε} (hg : Guarded step ok s es) (h : Inv [] s) :
    Inv (trail step s es) (run step s es) :=
  GuardedFrom.history Inv keeps hg h

/-- Where every event the condition admits keeps an invariant and meets
another condition, the guarded runs meet that one too. -/
theorem GuardedFrom.ensures {ok' : List (σ × ε) → σ → ε → Prop}
    (Inv : List (σ × ε) → σ → Prop)
    (keeps : ∀ past s e, Inv past s → ok past s e →
      Inv (past ++ [(s, e)]) (step s e) ∧ ok' past s e)
    {past : List (σ × ε)} {s : σ} {es : List ε}
    (hg : GuardedFrom step ok past s es) (h : Inv past s) :
    GuardedFrom step ok' past s es := by
  induction es generalizing past s with
  | nil => exact trivial
  | cons e es ih =>
      obtain ⟨hnext, hok⟩ := keeps past s e h hg.1
      exact ⟨hok, ih hg.2 hnext⟩

theorem GuardedFrom.and {ok' : List (σ × ε) → σ → ε → Prop}
    {past : List (σ × ε)} {s : σ} {es : List ε}
    (h : GuardedFrom step ok past s es) (h' : GuardedFrom step ok' past s es) :
    GuardedFrom step (fun past s e => ok past s e ∧ ok' past s e) past s es := by
  induction es generalizing past s with
  | nil => exact trivial
  | cons e es ih => exact ⟨⟨h.1, h'.1⟩, ih h.2 h'.2⟩

theorem Guarded.and {ok' : List (σ × ε) → σ → ε → Prop} {s : σ} {es : List ε}
    (h : Guarded step ok s es) (h' : Guarded step ok' s es) :
    Guarded step (fun past s e => ok past s e ∧ ok' past s e) s es :=
  GuardedFrom.and h h'

theorem Guarded.ensures {ok' : List (σ × ε) → σ → ε → Prop}
    (Inv : List (σ × ε) → σ → Prop)
    (keeps : ∀ past s e, Inv past s → ok past s e →
      Inv (past ++ [(s, e)]) (step s e) ∧ ok' past s e)
    {s : σ} {es : List ε} (hg : Guarded step ok s es) (h : Inv [] s) :
    Guarded step ok' s es :=
  GuardedFrom.ensures Inv keeps hg h

/-- The same along every run. -/
theorem history (Inv : List (σ × ε) → σ → Prop)
    (keeps : ∀ past s e, Inv past s → Inv (past ++ [(s, e)]) (step s e))
    {s : σ} (es : List ε) (h : Inv [] s) :
    Inv (trail step s es) (run step s es) := by
  exact GuardedFrom.history Inv (fun past s e h _ => keeps past s e h)
    (unguarded [] s es) h

/-- The same for a property of the state alone. -/
theorem Guarded.invariant (Inv : σ → Prop)
    (keeps : ∀ past s e, Inv s → ok past s e → Inv (step s e))
    {s : σ} {es : List ε} (hg : Guarded step ok s es) (h : Inv s) :
    Inv (run step s es) := by
  exact hg.history (fun _ s => Inv s) keeps h

theorem run_append (s : σ) (es es' : List ε) :
    run step s (es ++ es') = run step (run step s es) es' :=
  List.foldl_append

theorem trail_append (s : σ) (es es' : List ε) :
    trail step s (es ++ es') =
      trail step s es ++ trail step (run step s es) es' := by
  induction es generalizing s with
  | nil => rfl
  | cons e es ih => simp [ih]

/-- What an event of a run meets is where a run ends. -/
theorem trail_run {s : σ} {es : List ε} {x : σ × ε} (hx : x ∈ trail step s es) :
    ∃ pre, x.1 = run step s pre := by
  induction es generalizing s with
  | nil => cases hx
  | cons e es ih =>
      rcases List.mem_cons.mp hx with rfl | hx
      · exact ⟨[], rfl⟩
      · obtain ⟨pre, hpre⟩ := ih hx
        exact ⟨e :: pre, hpre⟩

/-- An invariant that the events keep which meet a condition holds in every
state of a run whose events all do. -/
theorem invariant_of_trail {Inv : σ → Prop} {good : σ → ε → Prop}
    (keeps : ∀ s e, Inv s → good s e → Inv (step s e)) {s : σ} {es : List ε}
    (h : Inv s) (hgood : ∀ x ∈ trail step s es, good x.1 x.2) :
    ∀ early, early <+: es → Inv (run step s early) := by
  intro early hearly
  induction early generalizing s es with
  | nil => exact h
  | cons e early ih =>
      obtain ⟨late, rfl⟩ := hearly
      rw [List.cons_append, trail_cons, List.forall_mem_cons] at hgood
      exact ih (keeps s e h hgood.1) hgood.2 (List.prefix_append early late)

/-- The same of every state that an event of the run meets. -/
theorem invariant_on_trail {Inv : σ → Prop} {good : σ → ε → Prop}
    (keeps : ∀ s e, Inv s → good s e → Inv (step s e)) {s : σ} {es : List ε}
    (h : Inv s) (hgood : ∀ x ∈ trail step s es, good x.1 x.2) :
    ∀ x ∈ trail step s es, Inv x.1 := by
  induction es generalizing s with
  | nil => exact List.forall_mem_nil _
  | cons e es ih =>
      rw [trail_cons, List.forall_mem_cons] at hgood ⊢
      exact ⟨h, ih (keeps s e h hgood.1) hgood.2⟩

/-- Where an invariant makes two conditions on an event the same, and either of
them keeps it, they are the same of all events of a run. -/
theorem forall_trail_iff {Inv : σ → Prop} {P good : σ → ε → Prop}
    (same : ∀ s e, Inv s → (P s e ↔ good s e))
    (keeps : ∀ s e, Inv s → good s e → Inv (step s e)) {s : σ} {es : List ε}
    (h : Inv s) :
    (∀ x ∈ trail step s es, P x.1 x.2) ↔
      ∀ x ∈ trail step s es, good x.1 x.2 := by
  induction es generalizing s with
  | nil => simp
  | cons e es ih =>
      rw [trail_cons, List.forall_mem_cons, List.forall_mem_cons, same s e h]
      exact and_congr_right fun hgood => ih (keeps s e h hgood)

/-- A condition on the events alone. -/
theorem GuardedFrom.of_forall {p : ε → Prop} (past : List (σ × ε)) (s : σ)
    {es : List ε} (h : ∀ e ∈ es, p e) :
    GuardedFrom step (fun _ _ e => p e) past s es := by
  induction es generalizing past s with
  | nil => exact trivial
  | cons e es ih =>
      rw [List.forall_mem_cons] at h
      exact ⟨h.1, ih _ _ h.2⟩

/-- A condition on where the events land. -/
theorem GuardedFrom.of_trail {good : σ → ε → Prop} (past : List (σ × ε)) {s : σ}
    {es : List ε} (h : ∀ x ∈ trail step s es, good x.1 x.2) :
    GuardedFrom step (fun _ s e => good s e) past s es := by
  induction es generalizing past s with
  | nil => exact trivial
  | cons e es ih =>
      rw [trail_cons, List.forall_mem_cons] at h
      exact ⟨h.1, ih _ h.2⟩

/-- The last that meets a condition is the one that came last, if it does. -/
theorem last_filter_pos {α : Type} {p : α → Bool} {x : α} (past : List α)
    (h : p x = true) : ((past ++ [x]).filter p).getLast? = some x := by
  rw [List.filter_append, List.filter_cons_of_pos h, List.filter_nil,
    List.getLast?_concat]

/-- If it does not, the last is the same as before. -/
theorem last_filter_neg {α : Type} {p : α → Bool} {x : α} (past : List α)
    (h : p x = false) :
    ((past ++ [x]).filter p).getLast? = (past.filter p).getLast? := by
  have hno : ¬p x = true := by
    rw [h]
    exact Bool.false_ne_true
  rw [List.filter_append, List.filter_cons_of_neg hno, List.filter_nil,
    List.append_nil]

theorem trail_events (s : σ) (es : List ε) :
    (trail step s es).map Prod.snd = es := by
  induction es generalizing s with
  | nil => rfl
  | cons e es ih => simp [ih]

/-- Where an invariant implies a property, and an event that does not meet a
condition breaks the property, the runs that have the property at all times
are the ones whose events all meet the condition where they land. -/
theorem GuardedFrom.always_iff {Inv P : σ → Prop} {good : σ → ε → Prop}
    (sound : ∀ s, Inv s → P s)
    (keeps : ∀ past s e, Inv s → ok past s e → good s e → Inv (step s e))
    (breaks : ∀ past s e, Inv s → ok past s e → ¬good s e → ¬P (step s e))
    {past : List (σ × ε)} {s : σ} {es : List ε}
    (hg : GuardedFrom step ok past s es) (h : Inv s) :
    (∀ early, early <+: es → P (run step s early)) ↔
      ∀ x ∈ trail step s es, good x.1 x.2 := by
  induction es generalizing past s with
  | nil =>
      refine iff_of_true (fun early hearly => ?_) (List.forall_mem_nil _)
      rw [List.prefix_nil.mp hearly]
      exact sound s h
  | cons e es ih =>
      rw [trail_cons, List.forall_mem_cons]
      constructor
      · intro hall
        have hgood : good s e := by
          by_contra hbad
          exact breaks past s e h hg.1 hbad (hall [e] ⟨es, rfl⟩)
        have hnext := keeps past s e h hg.1 hgood
        refine ⟨hgood, (ih hg.2 hnext).mp fun early hearly => ?_⟩
        exact hall (e :: early) (List.cons_prefix_cons.mpr ⟨rfl, hearly⟩)
      · rintro ⟨hgood, hrest⟩ early hearly
        cases early with
        | nil => exact sound s h
        | cons e' early =>
            obtain ⟨rfl, htail⟩ := List.cons_prefix_cons.mp hearly
            exact (ih hg.2 (keeps past s e' h hg.1 hgood)).mpr hrest early htail

theorem Guarded.always_iff {Inv P : σ → Prop} {good : σ → ε → Prop}
    (sound : ∀ s, Inv s → P s)
    (keeps : ∀ past s e, Inv s → ok past s e → good s e → Inv (step s e))
    (breaks : ∀ past s e, Inv s → ok past s e → ¬good s e → ¬P (step s e))
    {s : σ} {es : List ε} (hg : Guarded step ok s es) (h : Inv s) :
    (∀ early, early <+: es → P (run step s early)) ↔
      ∀ x ∈ trail step s es, good x.1 x.2 :=
  GuardedFrom.always_iff sound keeps breaks hg h

/-- The same of the runs that nothing guards. -/
theorem always_iff {Inv P : σ → Prop} {good : σ → ε → Prop}
    (sound : ∀ s, Inv s → P s)
    (keeps : ∀ s e, Inv s → good s e → Inv (step s e))
    (breaks : ∀ s e, Inv s → ¬good s e → ¬P (step s e))
    {s : σ} (es : List ε) (h : Inv s) :
    (∀ early, early <+: es → P (run step s early)) ↔
      ∀ x ∈ trail step s es, good x.1 x.2 :=
  GuardedFrom.always_iff sound (fun _ s e h _ => keeps s e h)
    (fun _ s e h _ => breaks s e h) (unguarded [] s es) h

end

/-! ## Histories -/

/-- Nothing is taken out of the history that the states carry. -/
def Grows {α : Type} (out : σ → List α) (s d : σ) : Prop :=
  ∃ new, out d = out s ++ new

namespace Grows

variable {α : Type} {out : σ → List α}

theorem of_eq {s d : σ} (h : out d = out s) : Grows out s d :=
  ⟨[], by rw [h, List.append_nil]⟩

theorem refl (s : σ) : Grows out s s := of_eq rfl

theorem trans {s t d : σ} (h : Grows out s t) (g : Grows out t d) :
    Grows out s d := by
  obtain ⟨new₁, hout₁⟩ := h
  obtain ⟨new₂, hout₂⟩ := g
  exact ⟨new₁ ++ new₂, by rw [hout₂, hout₁, List.append_assoc]⟩

/-- What is not in the history does not count. -/
theorem around {s s' d d' : σ} (h : Grows out s' d) (hs : out s' = out s)
    (hd : out d' = out d) : Grows out s d' := by
  rw [Grows, hd, ← hs]
  exact h

theorem run {step : σ → ε → σ} (h : ∀ s e, Grows out s (step s e)) (s : σ)
    (es : List ε) : Grows out s (run step s es) := by
  induction es generalizing s with
  | nil => exact refl s
  | cons e es ih => exact (h s e).trans (ih _)

end Grows

end QuMesh.Lib
