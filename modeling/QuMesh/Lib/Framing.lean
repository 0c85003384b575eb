import Mathlib.Tactic.Common

/-!
# A stream of frames

Frames laid end to end can be told apart where no frame begins another. What
such a stream holds is then settled by its bytes alone: two readings of one
stream that both stop where no whole frame is in front have taken the same
frames and are left with the same rest.
-/

namespace QuMesh.Lib

variable {α ω : Type} (bytes : ω → List α)

/-- No frame is the beginning of another one. -/
def PrefixFree : Prop :=
  ∀ v w s t, bytes v ++ s = bytes w ++ t → v = w

/-- No whole frame is in front. -/
def Unframed (rest : List α) : Prop := ∀ w t, rest ≠ bytes w ++ t

variable {bytes}

/-- The frames of a stream are its own. -/
theorem frames_unique (hfree : PrefixFree bytes) {vs ws : List ω}
    {r s : List α} (hr : Unframed bytes r) (hs : Unframed bytes s)
    (h : vs.flatMap bytes ++ r = ws.flatMap bytes ++ s) : vs = ws ∧ r = s := by
  induction vs generalizing ws with
  | nil =>
      cases ws with
      | nil => exact ⟨rfl, h⟩
      | cons w ws =>
          rw [List.flatMap_nil, List.nil_append, List.flatMap_cons,
            List.append_assoc] at h
          exact absurd h (hr w _)
  | cons v vs ih =>
      rw [List.flatMap_cons, List.append_assoc] at h
      cases ws with
      | nil => exact absurd h.symm (hs v _)
      | cons w ws =>
          rw [List.flatMap_cons, List.append_assoc] at h
          obtain rfl := hfree v w _ _ h
          obtain ⟨rfl, hrest⟩ := ih (List.append_cancel_left h)
          exact ⟨rfl, hrest⟩

/-- The beginning of a frame that is not the frame has no frame in it. -/
theorem unframed_part (hfree : PrefixFree bytes) {w : ω} {rest more : List α}
    (h : bytes w = rest ++ more) (hmore : more ≠ []) : Unframed bytes rest := by
  intro v t hv
  rw [hv, List.append_assoc] at h
  have hsame : bytes w ++ [] = bytes v ++ (t ++ more) := by
    rw [List.append_nil, h]
  obtain rfl := hfree w v _ _ hsame
  have hnil := List.append_cancel_left hsame
  exact hmore (List.append_eq_nil_iff.mp hnil.symm).2

end QuMesh.Lib
