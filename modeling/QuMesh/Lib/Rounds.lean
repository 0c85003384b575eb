import Mathlib.Tactic.Common

/-!
# Loops that take rounds

A reader that drains an inbox takes rounds: it stops when it is idle or when a
round says so, and otherwise goes on with what the round left. The fuel is
bookkeeping, because a round that goes on leaves less than it found. The rules
carry what one round does to the whole loop: an invariant, a relation between
where the loop starts and where it ends, and the congruence in fuel.
`everyRound` speaks about the states a round starts from.
-/

namespace QuMesh.Lib

variable {σ : Type} (idle : σ → Bool) (round : σ → σ × Bool)

def rounds : Nat → σ → σ
  | 0, s => s
  | fuel + 1, s =>
      if idle s then s
      else
        match round s with
        | (s, true) => rounds fuel s
        | (s, false) => s

/-- The condition holds wherever a round begins. -/
def everyRound (ok : σ → Bool) : Nat → σ → Bool
  | 0, _ => true
  | fuel + 1, s =>
      idle s ||
        (ok s &&
          match round s with
          | (s, true) => everyRound ok fuel s
          | (_, false) => true)

variable {idle round}

theorem rounds_idle {s : σ} (h : idle s = true) (fuel : Nat) :
    rounds idle round fuel s = s := by
  cases fuel with
  | zero => rfl
  | succ fuel => rw [rounds, if_pos h]

theorem rounds_stop {s d : σ} (hidle : idle s = false)
    (h : round s = (d, false)) (fuel : Nat) :
    rounds idle round (fuel + 1) s = d := by
  rw [rounds, hidle, h]
  rfl

theorem rounds_go {s d : σ} (hidle : idle s = false) (h : round s = (d, true))
    (fuel : Nat) :
    rounds idle round (fuel + 1) s = rounds idle round fuel d := by
  rw [rounds, hidle, h]
  rfl

theorem everyRound_idle {ok : σ → Bool} {s : σ} (h : idle s = true)
    (fuel : Nat) : everyRound idle round ok fuel s = true := by
  cases fuel with
  | zero => rfl
  | succ fuel => rw [everyRound, h, Bool.true_or]

/-- A relation that every round respects holds across the loop. -/
theorem rounds_relation {R : σ → σ → Prop} (refl : ∀ s, R s s)
    (trans : ∀ {s t d}, R s t → R t d → R s d)
    (hround : ∀ s, R s (round s).1) (fuel : Nat) (s : σ) :
    R s (rounds idle round fuel s) := by
  induction fuel generalizing s with
  | zero => exact refl s
  | succ fuel ih =>
      have hstep := hround s
      cases hidle : idle s with
      | true =>
          rw [rounds_idle hidle]
          exact refl s
      | false =>
          cases hd : round s with
          | mk d go =>
              rw [hd] at hstep
              cases go with
              | false =>
                  rw [rounds_stop hidle hd]
                  exact hstep
              | true =>
                  rw [rounds_go hidle hd]
                  exact trans hstep (ih d)

/-- What every round keeps the loop keeps. -/
theorem rounds_invariant {P : σ → Prop} (hround : ∀ s, P s → P (round s).1)
    (fuel : Nat) {s : σ} (h : P s) : P (rounds idle round fuel s) :=
  rounds_relation (R := fun s d => P s → P d) (fun _ => id)
    (fun h g hs => g (h hs)) hround fuel s h

section

variable (rank : σ → Nat) (hidle : ∀ {s}, rank s = 0 → idle s = true)
  (hshrinks : ∀ {s d}, round s = (d, true) → rank d < rank s)

include hidle hshrinks

/-- Any two amounts of fuel that cover the rank give the same end. -/
theorem rounds_fuel (f g : Nat) (s : σ) (hf : rank s ≤ f) (hg : rank s ≤ g) :
    rounds idle round f s = rounds idle round g s := by
  induction f generalizing g s with
  | zero =>
      have hnone : idle s = true := hidle (Nat.le_zero.mp hf)
      rw [rounds_idle hnone, rounds_idle hnone]
  | succ f ih =>
      cases hs : idle s with
      | true => rw [rounds_idle hs, rounds_idle hs]
      | false =>
          cases g with
          | zero =>
              rw [hidle (Nat.le_zero.mp hg)] at hs
              cases hs
          | succ g =>
              cases hd : round s with
              | mk d go =>
                  cases go with
                  | false => rw [rounds_stop hs hd, rounds_stop hs hd]
                  | true =>
                      have hlt := hshrinks hd
                      rw [rounds_go hs hd, rounds_go hs hd]
                      exact ih g d (by omega) (by omega)

/-- The loop after a round that goes on is the loop. -/
theorem rounds_round {s d : σ} (hs : idle s = false)
    (h : round s = (d, true)) :
    rounds idle round (rank s) s = rounds idle round (rank d) d := by
  have hlt := hshrinks h
  rw [rounds_fuel rank hidle hshrinks (rank s) (rank s + 1) s (Nat.le_refl _)
    (Nat.le_succ _), rounds_go hs h]
  exact rounds_fuel rank hidle hshrinks _ _ d (by omega) (Nat.le_refl _)

end

/-! ## Readers -/

section

variable {α : Type} (r : σ → List α) (step : σ → σ)

/-- A loop that reads until there is nothing left to read. -/
def readToEnd (s : σ) : σ :=
  rounds (fun s => (r s).isEmpty) (fun s => (step s, !(r s).isEmpty))
    (r s).length s

variable {r step}

theorem readToEnd_nil {s : σ} (h : r s = []) : readToEnd r step s = s := by
  rw [readToEnd, h]
  rfl

theorem readToEnd_invariant {P : σ → Prop} (hstep : ∀ s, P s → P (step s))
    {s : σ} (h : P s) : P (readToEnd r step s) :=
  rounds_invariant hstep _ h

/-- A reader whose steps read something takes one step, and reads on. -/
theorem readToEnd_step
    (hshrinks : ∀ s, r s ≠ [] → (r (step s)).length < (r s).length) {s : σ}
    (h : r s ≠ []) : readToEnd r step s = readToEnd r step (step s) := by
  have hempty : (r s).isEmpty = false := by
    cases hr : r s with
    | nil => exact absurd hr h
    | cons x xs => rfl
  refine rounds_round (fun s => (r s).length) ?_ ?_ hempty ?_
  · intro s hs
    rw [List.length_eq_zero_iff.mp hs]
    rfl
  · intro s d hd
    obtain ⟨rfl, hgo⟩ := Prod.mk.inj hd
    refine hshrinks s fun hnil => ?_
    rw [hnil] at hgo
    cases hgo
  · rw [hempty]
    rfl

end

end QuMesh.Lib
