import QuMesh.Lib.Run

/-!
# Jobs done in any order

A component with several jobs open is a state, a step for each job, and a
predicate that says which jobs are ready. A schedule does jobs as they are
ready. If what is ready stays so while other jobs are done, and two ready jobs
can be done in either order, then any two schedules that leave nothing to do end
in the same state: whatever is ready in the beginning can be moved to the front
of a complete schedule, `Exchange.front`, and so one schedule is turned into the
other job by job.

`JoinsOnce` is what is asked of a component that calls back when the jobs are
done.
-/

namespace QuMesh.Lib

variable {σ ε : Type} (step : σ → ε → σ) (ready : σ → ε → Prop)

/-- Every job of a run is ready when it is done. -/
def Schedule (s : σ) (es : List ε) : Prop :=
  ∀ x ∈ trail step s es, ready x.1 x.2

/-- There is nothing left to do. -/
def Finished (s : σ) : Prop := ∀ e, ¬ready s e

/-- Jobs that are ready can be done in either order. -/
structure Exchange (Inv : σ → Prop) : Prop where
  keeps : ∀ {s e}, Inv s → ready s e → Inv (step s e)
  stays : ∀ {s e f}, Inv s → ready s e → ready s f → e ≠ f → ready (step s e) f
  comm : ∀ {s e f}, Inv s → ready s e → ready s f → e ≠ f →
    step (step s e) f = step (step s f) e

/-- The calls are made when the jobs are done, there is one, and it does not
depend on the order of the jobs. -/
structure JoinsOnce {ρ : Type} (calls : σ → List ρ) (s : σ) : Prop where
  early : ∀ es, Schedule step ready s es → ¬Finished ready (run step s es) →
    calls (run step s es) = []
  once : ∀ es, Schedule step ready s es → Finished ready (run step s es) →
    (calls (run step s es)).length = 1
  same : ∀ es es', Schedule step ready s es → Schedule step ready s es' →
    Finished ready (run step s es) → Finished ready (run step s es') →
    calls (run step s es) = calls (run step s es')

variable {step ready}

theorem schedule_cons {s : σ} {e : ε} {es : List ε} :
    Schedule step ready s (e :: es) ↔
      ready s e ∧ Schedule step ready (step s e) es := by
  rw [Schedule, trail_cons, List.forall_mem_cons]
  exact Iff.rfl

namespace Exchange

variable {Inv : σ → Prop} (h : Exchange step ready Inv)

include h

theorem run_keeps {s : σ} (hs : Inv s) {es : List ε}
    (hes : Schedule step ready s es) : Inv (run step s es) := by
  induction es generalizing s with
  | nil => exact hs
  | cons e es ih =>
      rw [schedule_cons] at hes
      exact ih (h.keeps hs hes.1) hes.2

/-- A job that is ready can be done first: a complete schedule without it ends
where the schedule did. -/
theorem front {s : σ} (hs : Inv s) {f : ε} (hf : ready s f) {es : List ε}
    (hes : Schedule step ready s es) (hend : Finished ready (run step s es)) :
    ∃ rest, Schedule step ready (step s f) rest ∧
      run step (step s f) rest = run step s es := by
  induction es generalizing s with
  | nil => exact absurd hf (hend f)
  | cons e es ih =>
      obtain ⟨he, hes⟩ := schedule_cons.mp hes
      by_cases hef : e = f
      · exact ⟨es, hef ▸ hes, by rw [run_cons, hef]⟩
      · obtain ⟨rest, hrest, hrun⟩ :=
          ih (h.keeps hs he) (h.stays hs he hf hef) hes hend
        have hcomm := h.comm hs he hf hef
        have hready : ready (step s f) e := h.stays hs hf he fun hfe => hef hfe.symm
        refine ⟨e :: rest, schedule_cons.mpr ⟨hready, ?_⟩, ?_⟩
        · rw [← hcomm]
          exact hrest
        · rw [run_cons, ← hcomm, hrun, run_cons]

/-- All complete schedules end in one state. -/
theorem same_end {s : σ} (hs : Inv s) {es es' : List ε}
    (hes : Schedule step ready s es) (hes' : Schedule step ready s es')
    (hend : Finished ready (run step s es))
    (hend' : Finished ready (run step s es')) :
    run step s es = run step s es' := by
  induction es' generalizing s es with
  | nil =>
      cases es with
      | nil => rfl
      | cons e es => exact absurd (schedule_cons.mp hes).1 (hend' e)
  | cons f es' ih =>
      obtain ⟨hf, hes'⟩ := schedule_cons.mp hes'
      obtain ⟨rest, hrest, hrun⟩ := h.front hs hf hes hend
      rw [← hrun] at hend ⊢
      exact ih (h.keeps hs hf) hrest hes' hend hend'

/-- Where the calls are made at the end, they are made as they should be. -/
theorem joinsOnce {ρ : Type} {calls : σ → List ρ}
    (early : ∀ {s}, Inv s → ¬Finished ready s → calls s = [])
    (once : ∀ {s}, Inv s → Finished ready s → (calls s).length = 1) {s : σ}
    (hs : Inv s) : JoinsOnce step ready calls s where
  early _ hes hopen := early (h.run_keeps hs hes) hopen
  once _ hes hend := once (h.run_keeps hs hes) hend
  same _ _ hes hes' hend hend' := by
    rw [h.same_end hs hes hes' hend hend']

end Exchange

end QuMesh.Lib
