import Mathlib.Data.List.Basic

/-!
# One holder

The entries of a list that only grows may each hold something there should be
one of, and its owner keeps the place of the entry that does. That no other
entry holds it is `HeldBy`. An owner may name an entry that does not hold;
with no owner, nothing is held.
-/

namespace QuMesh.Lib

variable {α : Type}

/-- An entry that holds is the one the owner names. -/
def HeldBy (holds : α → Bool) (xs : List α) (owner : Option Nat) : Prop :=
  ∀ i x, xs[i]? = some x → holds x = true → owner = some i

namespace HeldBy

variable {holds : α → Bool} {xs : List α} {owner : Option Nat}

theorem nil : HeldBy holds [] owner := by
  intro i x hx
  rw [List.getElem?_nil] at hx
  cases hx

theorem unique (h : HeldBy holds xs owner) {i j : Nat} {x y : α}
    (hx : xs[i]? = some x) (hy : xs[j]? = some y) (hhx : holds x = true)
    (hhy : holds y = true) : i = j := by
  have hi := h i x hx hhx
  rw [h j y hy hhy] at hi
  exact (Option.some.inj hi).symm

/-- Who holds is all that counts. -/
theorem congr (h : HeldBy holds xs owner) {ys : List α}
    (heq : ys.map holds = xs.map holds) : HeldBy holds ys owner := by
  intro i y hy hholds
  have hget := congrArg (·[i]?) heq
  simp only [List.getElem?_map, hy, Option.map_some] at hget
  obtain ⟨x, hx, hxy⟩ := Option.map_eq_some_iff.mp hget.symm
  exact h i x hx (hxy.trans hholds)

/-- One entry is replaced, and if the new one holds, it is the owner's. -/
theorem set (h : HeldBy holds xs owner) {i : Nat} {y : α}
    (hy : holds y = true → owner = some i) : HeldBy holds (xs.set i y) owner := by
  intro j x hx hholds
  rw [List.getElem?_set] at hx
  split at hx
  · next heq =>
    split at hx
    · cases hx
      rw [← heq]
      exact hy hholds
    · cases hx
  · exact h j x hx hholds

/-- One entry changes, and does not come to hold by it. -/
theorem modify (h : HeldBy holds xs owner) {i : Nat} {f : α → α}
    (hf : ∀ x, holds (f x) = true → holds x = true) :
    HeldBy holds (xs.modify i f) owner := by
  intro j x hx hholds
  rw [List.getElem?_modify] at hx
  obtain ⟨y, hy, rfl⟩ := Option.map_eq_some_iff.mp hx
  refine h j y hy ?_
  split at hholds
  · exact hf y hholds
  · exact hholds

/-- Where nothing is held, a new entry may be the owner's. -/
theorem append (h : HeldBy holds xs none) (y : α) :
    HeldBy holds (xs ++ [y]) (some xs.length) := by
  intro i x hx hholds
  rw [List.getElem?_append] at hx
  split at hx
  · cases h i x hx hholds
  · next hlen =>
    cases hi : i - xs.length with
    | zero => congr 1; omega
    | succ n =>
        rw [hi] at hx
        cases hx

/-- What the owner's entry does not hold, nothing does. -/
theorem release (h : HeldBy holds xs owner) (o : Option Nat)
    (hx : ∀ i x, owner = some i → xs[i]? = some x → holds x = false) :
    HeldBy holds xs o := by
  intro i x hget hholds
  rw [hx i x (h i x hget hholds) hget] at hholds
  cases hholds

theorem of_none (h : HeldBy holds xs none) {x : α} (hx : x ∈ xs) :
    holds x = false := by
  obtain ⟨i, hi⟩ := List.getElem?_of_mem hx
  cases hholds : holds x with
  | false => rfl
  | true => cases h i x hi hholds

end HeldBy

end QuMesh.Lib
