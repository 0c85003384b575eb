import Mathlib.Tactic.Common

/-!
# A relay between two streams

A relay takes data in at one end and gives it out at the other, a piece at a
time. It loses nothing if what it has taken is what it has given followed by
what it holds; then what came out is at all times a prefix of what went in.
-/

namespace QuMesh.Lib

structure Relay (α : Type) where
  taken : List α
  given : List α
  held : List α

namespace Relay

variable {α : Type} {r : Relay α}

def Lossless (r : Relay α) : Prop := r.taken = r.given ++ r.held

instance [DecidableEq α] (r : Relay α) : Decidable r.Lossless :=
  inferInstanceAs (Decidable (r.taken = _))

theorem Lossless.given_prefix (h : r.Lossless) : r.given <+: r.taken :=
  ⟨r.held, h.symm⟩

/-- A relay that holds nothing may take the next piece. -/
theorem Lossless.load (h : r.Lossless) (hempty : r.held = []) (xs : List α) :
    Lossless ⟨r.taken ++ xs, r.given, xs⟩ := by
  unfold Lossless at *
  rw [h, hempty, List.append_nil]

theorem Lossless.pass (h : r.Lossless) (n : Nat) :
    Lossless ⟨r.taken, r.given ++ r.held.take n, r.held.drop n⟩ := by
  unfold Lossless at *
  rw [List.append_assoc, List.take_append_drop, h]

end Relay

end QuMesh.Lib
