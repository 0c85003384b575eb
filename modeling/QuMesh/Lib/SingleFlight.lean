import Mathlib.Data.List.Basic

/-!
# A single-flight line

Jobs are asked for one after the other and are done one at a time: a job that
comes while one is in flight waits in line, and the head of the line is started
when the one in flight is settled. A job may be withdrawn while it waits, and
then it was never asked for.

What such a line promises is one equation. The jobs started so far, followed by
those that wait, are the jobs asked for: so every job is started at most once,
in the order they came, and none is lost.
-/

namespace QuMesh.Lib

structure Flight (α : Type) where
  asked : List α := []
  current : Option α := none
  waiting : List α := []
  started : List α := []

namespace Flight

variable {α : Type} {f f' : Flight α}

def submit (x : α) (f : Flight α) : Flight α :=
  match f.current with
  | none =>
      { f with
        asked := f.asked ++ [x]
        current := some x
        started := f.started ++ [x] }
  | some _ => { f with asked := f.asked ++ [x], waiting := f.waiting ++ [x] }

/-- The job in flight is over, and the next one starts. -/
def settle (f : Flight α) : Flight α :=
  match f.waiting with
  | [] => { f with current := none }
  | x :: rest =>
      { f with
        current := some x
        waiting := rest
        started := f.started ++ [x] }

def withdraw [DecidableEq α] (x : α) (f : Flight α) : Flight α :=
  { f with
    asked := f.asked.filter (· ≠ x)
    waiting := f.waiting.filter (· ≠ x) }

inductive Step [DecidableEq α] (f f' : Flight α) : Prop
  | idle (same : f' = f)
  | submit (x : α) (next : f' = f.submit x)
  | settle (next : f' = f.settle)
  | withdraw (x : α) (unstarted : x ∉ f.started) (next : f' = f.withdraw x)

structure Served (f : Flight α) : Prop where
  order : f.started ++ f.waiting = f.asked
  /-- The line only waits behind a job in flight. -/
  busy : f.current = none → f.waiting = []

theorem submit_idle (h : f.current = none) (x : α) :
    f.submit x =
      { f with
        asked := f.asked ++ [x]
        current := some x
        started := f.started ++ [x] } := by
  rw [submit, h]

theorem submit_busy {y : α} (h : f.current = some y) (x : α) :
    f.submit x =
      { f with asked := f.asked ++ [x], waiting := f.waiting ++ [x] } := by
  rw [submit, h]

theorem settle_nil (h : f.waiting = []) :
    f.settle = { f with current := none } := by
  rw [settle, h]

theorem settle_cons {x : α} {rest : List α} (h : f.waiting = x :: rest) :
    f.settle =
      { f with
        current := some x
        waiting := rest
        started := f.started ++ [x] } := by
  rw [settle, h]

theorem Served.submit (h : f.Served) (x : α) : (f.submit x).Served := by
  cases hc : f.current with
  | none =>
      rw [submit_idle hc]
      have hw := h.busy hc
      refine ⟨?_, fun _ => hw⟩
      show f.started ++ [x] ++ f.waiting = f.asked ++ [x]
      rw [← h.order, hw, List.append_nil, List.append_nil]
  | some y =>
      rw [submit_busy hc]
      refine ⟨?_, fun hn => ?_⟩
      · show f.started ++ (f.waiting ++ [x]) = f.asked ++ [x]
        rw [← List.append_assoc, h.order]
      · have : f.current = none := hn
        rw [hc] at this
        cases this

theorem Served.settle (h : f.Served) : f.settle.Served := by
  cases hw : f.waiting with
  | nil =>
      rw [settle_nil hw]
      exact ⟨h.order, fun _ => hw⟩
  | cons x rest =>
      rw [settle_cons hw]
      refine ⟨?_, fun hn => by simp at hn⟩
      show f.started ++ [x] ++ rest = f.asked
      rw [← h.order, hw, List.append_assoc, List.singleton_append]

theorem Served.withdraw [DecidableEq α] (h : f.Served) {x : α}
    (unstarted : x ∉ f.started) :
    (f.withdraw x).Served := by
  refine ⟨?_, fun hc => ?_⟩
  · have hstarted : f.started.filter (· ≠ x) = f.started := by
      rw [List.filter_eq_self]
      intro y hy
      have hne : y ≠ x := fun he => unstarted (he ▸ hy)
      simpa using hne
    show f.started ++ f.waiting.filter (· ≠ x) = f.asked.filter (· ≠ x)
    rw [← h.order, List.filter_append, hstarted]
  · show f.waiting.filter (· ≠ x) = []
    rw [h.busy hc, List.filter_nil]

theorem Step.served [DecidableEq α] (step : Step f f') (h : f.Served) : f'.Served := by
  cases step with
  | idle same => exact same ▸ h
  | submit x next => exact next ▸ h.submit x
  | settle next => exact next ▸ h.settle
  | withdraw x unstarted next => exact next ▸ h.withdraw unstarted

/-- Whatever waits, something is in flight. -/
theorem Served.progress (h : f.Served) {x : α} (hx : x ∈ f.waiting) :
    f.current.isSome := by
  cases hc : f.current with
  | none =>
      rw [h.busy hc] at hx
      exact absurd hx List.not_mem_nil
  | some y => rfl

end Flight

end QuMesh.Lib
