import Mathlib.Data.List.Nodup

/-!
# Promises and the tickets that carry them

A promise is to be kept once. Until then a ticket carries it, and a slip says
which one. A ticket is settled at some time, and the promise it carries falls
due: it is kept, or another ticket is taken for it. `Balanced` is the
book-keeping: a promise that was made is carried by an open ticket, or due, or
kept, and it is one of the three, once.
-/

namespace QuMesh.Lib

structure Promises (τ : Type) where
  /-- The number of the next promise. -/
  made : Nat
  /-- The promises and the tickets that were taken for them. -/
  slips : List (Nat × τ)
  kept : List Nat

namespace Promises

variable {τ : Type} {p : Promises τ} {settled settled' : τ → Bool}
  {due : List Nat} {i : Nat} {t : τ}

/-- How many open tickets carry a promise. -/
def carried (settled : τ → Bool) (p : Promises τ) (i : Nat) : Nat :=
  p.slips.countP fun s => s.1 == i && !settled s.2

/-- `due` are the promises whose tickets were settled, and of which is still to
be said what becomes of them. -/
structure Balanced (settled : τ → Bool) (due : List Nat) (p : Promises τ) :
    Prop where
  placed : ∀ s ∈ p.slips, s.1 < p.made
  known : ∀ i ∈ p.kept ++ due, i < p.made
  apart : (p.slips.map Prod.snd).Nodup
  even : ∀ i < p.made, p.kept.count i + p.carried settled i + due.count i = 1

theorem balanced_none (settled : τ → Bool) :
    Balanced settled [] { made := 0, slips := [], kept := [] } where
  placed _ h := absurd h List.not_mem_nil
  known _ h := absurd h List.not_mem_nil
  apart := .nil
  even _ h := absurd h (Nat.not_lt_zero _)

namespace Balanced

/-- Only the tickets that were taken count. -/
theorem congr (h : p.Balanced settled due)
    (hsame : ∀ s ∈ p.slips, settled' s.2 = settled s.2) :
    p.Balanced settled' due := by
  refine ⟨h.placed, h.known, h.apart, fun i hi => ?_⟩
  have hcarried : p.carried settled' i = p.carried settled i :=
    List.countP_congr fun s hs => by rw [hsame s hs]
  rw [hcarried]
  exact h.even i hi

/-- A promise that was made is kept just if no open ticket carries it. -/
theorem kept_count (h : p.Balanced settled []) (hi : i < p.made) :
    p.kept.count i =
      if p.slips.any (fun s => s.1 == i && !settled s.2) then 0 else 1 := by
  have heven := h.even i hi
  rw [List.count_nil] at heven
  have hpos : 0 < p.carried settled i ↔
      p.slips.any (fun s => s.1 == i && !settled s.2) = true := by
    rw [carried, List.countP_pos_iff, List.any_eq_true]
  split
  · next hany =>
      have := hpos.mpr hany
      omega
  · next hany =>
      have := mt hpos.mp hany
      omega

theorem not_kept (h : p.Balanced settled due) : p.made ∉ p.kept ++ due :=
  fun hin => Nat.lt_irrefl _ (h.known _ hin)

theorem carried_append (s : Nat × τ) :
    carried settled { p with slips := p.slips ++ [s] } i =
      p.carried settled i + if s.1 == i && !settled s.2 then 1 else 0 := by
  rw [carried, List.countP_append, List.countP_singleton]
  rfl

theorem apart_append (h : p.Balanced settled due) (i : Nat)
    (hnew : t ∉ p.slips.map Prod.snd) :
    ((p.slips ++ [(i, t)]).map Prod.snd).Nodup := by
  rw [List.map_append, List.map_singleton, ← List.concat_eq_append]
  exact h.apart.concat hnew

/-- A promise is made, and an open ticket carries it. -/
theorem promise (h : p.Balanced settled due) (hnew : t ∉ p.slips.map Prod.snd)
    (hopen : settled t = false) :
    Balanced settled due
      { p with made := p.made + 1, slips := p.slips ++ [(p.made, t)] } where
  placed s hs := by
    rcases List.mem_append.mp hs with hs | hs
    · exact Nat.lt_succ_of_lt (h.placed s hs)
    · rw [List.mem_singleton.mp hs]
      exact Nat.lt_succ_self _
  known i hi := Nat.lt_succ_of_lt (h.known i hi)
  apart := h.apart_append p.made hnew
  even i hi := by
    show p.kept.count i +
      carried settled { p with slips := p.slips ++ [(p.made, t)] } i + _ = 1
    rw [carried_append]
    by_cases hlast : i = p.made
    · subst hlast
      have hnone := h.not_kept
      rw [List.mem_append, not_or] at hnone
      have hcarried : p.carried settled p.made = 0 := by
        refine List.countP_eq_zero.mpr fun s hs => ?_
        have := h.placed s hs
        have hne : s.1 ≠ p.made := Nat.ne_of_lt this
        simp [hne]
      rw [List.count_eq_zero_of_not_mem hnone.1,
        List.count_eq_zero_of_not_mem hnone.2, hcarried]
      simp [hopen]
    · have hold : i < p.made := Nat.lt_of_le_of_ne (Nat.le_of_lt_succ hi) hlast
      have hne : ¬(p.made == i && !settled t) = true := by
        simp [Ne.symm hlast]
      rw [if_neg hne]
      exact h.even i hold

/-- A ticket is settled, and what it carried falls due. -/
theorem settle [DecidableEq τ] (h : p.Balanced settled due)
    (hopen : settled t = false)
    (hsettled : ∀ u, settled' u = true ↔ settled u = true ∨ u = t) :
    p.Balanced settled'
      ((p.slips.filter fun s => s.2 = t).map Prod.fst ++ due) where
  placed := h.placed
  known i hi := by
    rw [List.mem_append, List.mem_append, List.mem_map] at hi
    rcases hi with hi | ⟨s, hs, rfl⟩ | hi
    · exact h.known i (List.mem_append_left _ hi)
    · exact h.placed s (List.mem_of_mem_filter hs)
    · exact h.known i (List.mem_append_right _ hi)
  apart := h.apart
  even i hi := by
    have hsplit (slips : List (Nat × τ)) :
        slips.countP (fun s => s.1 == i && !settled s.2) =
          slips.countP (fun s => s.1 == i && !settled' s.2) +
            ((slips.filter fun s => s.2 = t).map Prod.fst).count i := by
      induction slips with
      | nil => rfl
      | cons s slips ih =>
          rw [List.countP_cons, List.countP_cons, ih, List.filter_cons]
          by_cases hs : s.2 = t
          · have hnow : settled' s.2 = true := (hsettled _).mpr (.inr hs)
            have hwas : settled s.2 = false := hs ▸ hopen
            rw [if_pos (decide_eq_true hs), List.map_cons, List.count_cons, hnow,
              hwas]
            simp only [Bool.not_false, Bool.and_true, Bool.not_true,
              Bool.and_false, Bool.false_eq_true, if_false]
            omega
          · have hsame : settled' s.2 = settled s.2 :=
              Bool.eq_iff_iff.mpr
                ((hsettled _).trans (or_iff_left hs))
            rw [if_neg (fun hd => hs (of_decide_eq_true hd)), hsame]
            omega
    have heven := h.even i hi
    have := hsplit p.slips
    unfold carried at heven ⊢
    rw [List.count_append]
    omega

/-- A promise that is due is kept. -/
theorem keep (h : p.Balanced settled (i :: due)) :
    Balanced settled due { p with kept := p.kept ++ [i] } where
  placed := h.placed
  known j hj := by
    refine h.known j ?_
    simp only [List.mem_append, List.mem_cons, List.not_mem_nil, or_false]
      at hj ⊢
    tauto
  apart := h.apart
  even j hj := by
    have heven := h.even j hj
    show (p.kept ++ [i]).count j + p.carried settled j + due.count j = 1
    rw [List.count_append, List.count_singleton]
    rw [List.count_cons] at heven
    omega

/-- Another ticket is taken for it. -/
theorem pass (h : p.Balanced settled (i :: due))
    (hnew : t ∉ p.slips.map Prod.snd) (hopen : settled t = false) :
    Balanced settled due { p with slips := p.slips ++ [(i, t)] } where
  placed s hs := by
    rcases List.mem_append.mp hs with hs | hs
    · exact h.placed s hs
    · rw [List.mem_singleton.mp hs]
      exact h.known i (List.mem_append_right _ List.mem_cons_self)
  known j hj := by
    refine h.known j ?_
    simp only [List.mem_append, List.mem_cons] at hj ⊢
    tauto
  apart := h.apart_append i hnew
  even j hj := by
    have heven := h.even j hj
    show p.kept.count j +
      carried settled { p with slips := p.slips ++ [(i, t)] } j + _ = 1
    rw [carried_append]
    rw [List.count_cons] at heven
    simp only [hopen, Bool.not_false, Bool.and_true]
    omega

end Balanced

end Promises

end QuMesh.Lib
