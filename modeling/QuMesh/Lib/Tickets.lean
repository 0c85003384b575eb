import Mathlib.Data.Set.Insert
import Mathlib.Logic.Relation

/-!
# Numbered tickets

A desk issues tickets under a name and numbers them upwards; when it takes
another name the numbers start again. A ticket is spent some time after it was
issued, or never, and until then other tickets may be issued and spent under
this name or another one.

What a checker wants to see is that the numbers spent under one name go up. The
desk alone cannot promise it. It holds when the desk takes no name that a
ticket still around has, and when the tickets of one name are spent in the
order they were issued in. `place` is that order, across all names.
-/

namespace QuMesh.Lib

structure Ticket (ν : Type) where
  place : Nat
  name : ν
  count : Nat
  deriving DecidableEq, Repr

structure Desk (ν : Type) where
  name : ν
  count : Nat
  /-- The place of the next ticket. -/
  issued : Nat
  /-- Tickets that may still be spent. -/
  held : Set (Ticket ν)
  spent : List (Ticket ν)

namespace Desk

variable {ν : Type} {d d' : Desk ν}

/-- A ticket that was spent or still can be. -/
def Around (d : Desk ν) (t : Ticket ν) : Prop := t ∈ d.held ∨ t ∈ d.spent

inductive Step (d d' : Desk ν) : Prop
  /-- Places may be skipped and tickets lost at any time. -/
  | lapse (name : d'.name = d.name) (count : d'.count = d.count)
      (issued : d.issued ≤ d'.issued) (held : ∀ t ∈ d'.held, t ∈ d.held)
      (spent : d'.spent = d.spent)
  | issue (name : d'.name = d.name) (count : d'.count = d.count + 1)
      (issued : d.issued < d'.issued)
      (held : ∀ t ∈ d'.held, t ∈ d.held ∨ t = ⟨d.issued, d.name, d.count + 1⟩)
      (spent : d'.spent = d.spent)
  | rename (fresh : ∀ t, d.Around t → t.name ≠ d'.name)
      (issued : d.issued ≤ d'.issued) (held : ∀ t ∈ d'.held, t ∈ d.held)
      (spent : d'.spent = d.spent)
  | spend (t : Ticket ν) (mine : t ∈ d.held)
      (turn : ∀ u ∈ d.spent, u.name = t.name → u.place < t.place)
      (name : d'.name = d.name) (count : d'.count = d.count)
      (issued : d.issued ≤ d'.issued) (held : ∀ t ∈ d'.held, t ∈ d.held)
      (spent : d'.spent = d.spent ++ [t])

/-- Any number of steps. -/
abbrev Steps : Desk ν → Desk ν → Prop := Relation.ReflTransGen Step

/-- The numbers spent under one name go up. -/
def Increasing (d : Desk ν) : Prop :=
  d.spent.Pairwise fun t u => t.name = u.name → t.count < u.count

structure Orderly (d : Desk ν) : Prop where
  increasing : d.Increasing
  placed : ∀ t, d.Around t → t.place < d.issued
  counted : ∀ t, d.Around t → t.name = d.name → t.count ≤ d.count
  ordered : ∀ t u, d.Around t → d.Around u → t.name = u.name →
    t.place < u.place → t.count < u.count

theorem around_of_lapse (held : ∀ t ∈ d'.held, t ∈ d.held)
    (spent : d'.spent = d.spent) (t : Ticket ν) (ht : d'.Around t) :
    d.Around t := by
  rw [Around, spent] at ht
  exact ht.imp_left (held t)

/-- The new ticket has a place behind all the others, and under the desk's
name a number above theirs. -/
theorem Orderly.issue (h : d.Orderly) (name : d'.name = d.name)
    (count : d'.count = d.count + 1) (issued : d.issued < d'.issued)
    (held : ∀ t ∈ d'.held, t ∈ d.held ∨ t = ⟨d.issued, d.name, d.count + 1⟩)
    (spent : d'.spent = d.spent) : d'.Orderly := by
  have around : ∀ t, d'.Around t →
      d.Around t ∨ t = ⟨d.issued, d.name, d.count + 1⟩ := by
    intro t ht
    rw [Around, spent] at ht
    rcases ht with ht | ht
    · exact (held t ht).imp_left .inl
    · exact .inl (.inr ht)
  refine ⟨by rw [Increasing, spent]; exact h.increasing, ?_, ?_, ?_⟩
  · intro t ht
    rcases around t ht with ht | rfl
    · have := h.placed t ht
      omega
    · exact issued
  · intro t ht hname
    rw [count]
    rcases around t ht with ht | rfl
    · have := h.counted t ht (hname.trans name)
      omega
    · exact Nat.le_refl _
  · intro t u ht hu hname hplace
    rcases around t ht with ht | rfl <;> rcases around u hu with hu | rfl
    · exact h.ordered t u ht hu hname hplace
    · have := h.counted t ht hname
      show t.count < d.count + 1
      omega
    · have := h.placed u hu
      have : d.issued < u.place := hplace
      omega
    · exact absurd hplace (Nat.lt_irrefl _)

theorem Orderly.spend {t : Ticket ν} (h : d.Orderly) (mine : t ∈ d.held)
    (turn : ∀ u ∈ d.spent, u.name = t.name → u.place < t.place)
    (name : d'.name = d.name) (count : d'.count = d.count)
    (issued : d.issued ≤ d'.issued) (held : ∀ t ∈ d'.held, t ∈ d.held)
    (spent : d'.spent = d.spent ++ [t]) : d'.Orderly := by
  have around : ∀ u, d'.Around u → d.Around u := by
    intro u hu
    rw [Around, spent, List.mem_append, List.mem_singleton] at hu
    rcases hu with hu | hu | rfl
    · exact .inl (held u hu)
    · exact .inr hu
    · exact .inl mine
  refine ⟨?_, ?_, ?_, ?_⟩
  · rw [Increasing, spent, List.pairwise_append]
    refine ⟨h.increasing, List.pairwise_singleton _ _, ?_⟩
    intro u hu v hv hname
    rw [List.mem_singleton] at hv
    subst hv
    exact h.ordered u v (.inr hu) (.inl mine) hname (turn u hu hname)
  · intro u hu
    exact Nat.lt_of_lt_of_le (h.placed u (around u hu)) issued
  · intro u hu hname
    rw [count]
    exact h.counted u (around u hu) (hname.trans name)
  · intro u v hu hv
    exact h.ordered u v (around u hu) (around v hv)

theorem Step.orderly (step : Step d d') (h : d.Orderly) : d'.Orderly := by
  cases step with
  | lapse name count issued held spent =>
      have around := around_of_lapse held spent
      refine ⟨by rw [Increasing, spent]; exact h.increasing, ?_, ?_, ?_⟩
      · intro t ht
        exact Nat.lt_of_lt_of_le (h.placed t (around t ht)) issued
      · intro t ht hname
        rw [count]
        exact h.counted t (around t ht) (hname.trans name)
      · intro t u ht hu
        exact h.ordered t u (around t ht) (around u hu)
  | issue name count issued held spent =>
      exact h.issue name count issued held spent
  | rename fresh issued held spent =>
      have around := around_of_lapse held spent
      refine ⟨by rw [Increasing, spent]; exact h.increasing, ?_, ?_, ?_⟩
      · intro t ht
        exact Nat.lt_of_lt_of_le (h.placed t (around t ht)) issued
      · intro t ht hname
        exact absurd hname (fresh t (around t ht))
      · intro t u ht hu
        exact h.ordered t u (around t ht) (around u hu)
  | spend t mine turn name count issued held spent =>
      exact h.spend mine turn name count issued held spent

theorem Steps.orderly (steps : Steps d d') (h : d.Orderly) : d'.Orderly := by
  induction steps with
  | refl => exact h
  | tail _ step ih => exact step.orderly ih

end Desk

end QuMesh.Lib
