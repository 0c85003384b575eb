import Mathlib.Tactic.Common

/-!
# Cutting into pieces

A sender with a bound on what it may send at once cuts its data into pieces of
that bound, the last one as long as is left. `pieces` is that list, and
`lastMarked` the same list with the flag a receiver needs to know that nothing
more is coming. No data is no pieces.
-/

namespace QuMesh.Lib

variable {α : Type}

def pieces (k : Nat) (l : List α) : List (List α) :=
  if 0 < k ∧ l ≠ [] then l.take k :: pieces k (l.drop k) else []
termination_by l.length
decreasing_by
  next h =>
    have hpos : 0 < l.length := List.length_pos_iff.mpr h.2
    rw [List.length_drop]
    omega

/-- Each entry, and whether it is the last. -/
def lastMarked : List α → List (α × Bool)
  | [] => []
  | x :: xs => (x, xs.isEmpty) :: lastMarked xs

theorem pieces_nil (k : Nat) : pieces k ([] : List α) = [] := by
  rw [pieces, if_neg (by simp)]

theorem pieces_cons {k : Nat} {l : List α} (hk : 0 < k) (hl : l ≠ []) :
    pieces k l = l.take k :: pieces k (l.drop k) := by
  rw [pieces, if_pos ⟨hk, hl⟩]

/-- Induction along the cuts. -/
theorem pieces_induction {k : Nat} (hk : 0 < k) {P : List α → Prop}
    (nil : P []) (cut : ∀ l, l ≠ [] → P (l.drop k) → P l) (l : List α) : P l := by
  by_cases hl : l = []
  · rw [hl]
    exact nil
  · exact cut l hl (pieces_induction hk nil cut (l.drop k))
termination_by l.length
decreasing_by
  have hpos : 0 < l.length := List.length_pos_iff.mpr hl
  rw [List.length_drop]
  omega

/-- The pieces add up. -/
theorem pieces_flatten {k : Nat} (hk : 0 < k) (l : List α) :
    (pieces k l).flatten = l := by
  induction l using pieces_induction hk with
  | nil => rw [pieces_nil, List.flatten_nil]
  | cut l hl ih =>
      rw [pieces_cons hk hl, List.flatten_cons, ih, List.take_append_drop]

/-- No piece is empty, and none is longer than the bound. -/
theorem pieces_length {k : Nat} (hk : 0 < k) (l : List α) :
    ∀ p ∈ pieces k l, 0 < p.length ∧ p.length ≤ k := by
  induction l using pieces_induction hk with
  | nil =>
      intro p hp
      rw [pieces_nil] at hp
      cases hp
  | cut l hl ih =>
      intro p hp
      rw [pieces_cons hk hl] at hp
      rcases List.mem_cons.mp hp with rfl | hp
      · have hpos : 0 < l.length := List.length_pos_iff.mpr hl
        rw [List.length_take]
        omega
      · exact ih p hp

/-- How many pieces there are. -/
theorem pieces_count {k : Nat} (hk : 0 < k) (l : List α) (m : Nat) :
    (pieces k l).length ≤ m ↔ l.length ≤ m * k := by
  induction l using pieces_induction hk generalizing m with
  | nil => simp [pieces_nil]
  | cut l hl ih =>
      have hpos : 0 < l.length := List.length_pos_iff.mpr hl
      rw [pieces_cons hk hl, List.length_cons]
      cases m with
      | zero => omega
      | succ m =>
          rw [Nat.add_le_add_iff_right, ih m, List.length_drop, Nat.succ_mul]
          omega

theorem pieces_eq_nil {k : Nat} (hk : 0 < k) {l : List α} :
    pieces k l = [] ↔ l = [] := by
  refine ⟨fun h => ?_, fun h => by rw [h, pieces_nil]⟩
  by_contra hl
  rw [pieces_cons hk hl] at h
  cases h

theorem lastMarked_fst (xs : List α) : (lastMarked xs).map Prod.fst = xs := by
  induction xs with
  | nil => rfl
  | cons x xs ih => rw [lastMarked, List.map_cons, ih]

theorem lastMarked_length (xs : List α) :
    (lastMarked xs).length = xs.length := by
  have h := congrArg List.length (lastMarked_fst xs)
  rwa [List.length_map] at h

/-- The last entry carries the mark, and no other. -/
theorem lastMarked_snd {xs : List α} (h : xs ≠ []) :
    (lastMarked xs).map Prod.snd =
      List.replicate (xs.length - 1) false ++ [true] := by
  induction xs with
  | nil => exact absurd rfl h
  | cons x xs ih =>
      rw [lastMarked, List.map_cons]
      cases xs with
      | nil => rfl
      | cons y ys =>
          rw [ih (List.cons_ne_nil y ys)]
          rfl

end QuMesh.Lib
