import Mathlib.Logic.Relation
import Mathlib.Tactic.Common

/-!
# Machines that work through an inbox

A stream reader keeps the bytes it has not understood yet in an inbox and
takes steps while it can. What makes such a reader indifferent to how the
stream was cut is one law, `extends_feed`: a step that could be taken is still
the same step when more bytes stand behind. Together with a rank that every
step lowers it gives a drain that always ends, and `drain_feed_step` says
that steps taken early are steps the drain would have taken: whatever was
done to the inbox in between, draining the rest ends in the same state.
-/

namespace QuMesh.Lib

/-- A reader of `α`s: `step` answers `none` when it has to wait or has
halted, `feed` puts input behind what is waiting. -/
structure InboxMachine (σ α : Type) where
  step : σ → Option σ
  feed : σ → List α → σ
  rank : σ → Nat
  feed_nil : ∀ s, feed s [] = s
  feed_feed : ∀ s xs ys, feed (feed s xs) ys = feed s (xs ++ ys)
  shrinks : ∀ {s s'}, step s = some s' → rank s' < rank s
  extends_feed : ∀ {s s'}, step s = some s' →
    ∀ xs, step (feed s xs) = some (feed s' xs)

namespace InboxMachine

variable {σ α : Type} (m : InboxMachine σ α)

/-- Steps taken until none is left to take. -/
def drain (s : σ) : σ :=
  match _h : m.step s with
  | none => s
  | some s' => drain s'
termination_by m.rank s
decreasing_by exact m.shrinks _h

/-- Nothing to do until more input arrives. -/
def Quiet (s : σ) : Prop := m.step s = none

theorem drain_quiet {s : σ} (h : m.Quiet s) : m.drain s = s := by
  rw [drain]
  split
  · rfl
  · next s' hs => rw [Quiet, hs] at h; cases h

theorem drain_step {s s' : σ} (h : m.step s = some s') :
    m.drain s = m.drain s' := by
  rw [drain]
  split
  · next hs => rw [hs] at h; cases h
  · next t hs => rw [hs] at h; cases h; rfl

/-- A step taken before the rest of the input came is a step the drain of
the whole input takes. -/
theorem drain_feed_step {s s' : σ} (h : m.step s = some s') (xs : List α) :
    m.drain (m.feed s xs) = m.drain (m.feed s' xs) :=
  m.drain_step (m.extends_feed h xs)

/-- However many steps were taken early, the input still to come leads to the
same end. -/
theorem drain_feed_steps {s s' : σ}
    (h : Relation.ReflTransGen (fun a b => m.step a = some b) s s')
    (xs : List α) : m.drain (m.feed s' xs) = m.drain (m.feed s xs) := by
  induction h with
  | refl => rfl
  | tail _ hstep ih => rw [← ih, m.drain_feed_step hstep xs]

end InboxMachine

end QuMesh.Lib
