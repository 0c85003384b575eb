import Mathlib.Data.List.Lex
import Mathlib.Order.Lattice
import Mathlib.Tactic.Common

/-!
# Ranges of a sorted store

A store that keeps its entries in the order of their keys is read through an
iterator: it is put at the first key that is not below a given one, and moves
on from there. The keys that begin with a prefix lie together in that order,
and the prefix itself is not above any of them; so putting the iterator at the
prefix and reading as long as the keys begin with it reads all of them.
-/

namespace QuMesh.Lib

/-- Bytes are ordered as numbers. -/
instance uint8LinearOrder : LinearOrder UInt8 where
  le_refl := UInt8.le_refl
  le_trans _ _ _ := UInt8.le_trans
  le_antisymm _ _ := UInt8.le_antisymm
  le_total := UInt8.le_total
  lt_iff_le_not_ge a b := by
    rw [UInt8.not_le, UInt8.lt_iff_toNat_lt, UInt8.le_iff_toNat_le]
    omega
  toDecidableLE := inferInstance
  toDecidableEq := inferInstance
  toDecidableLT := inferInstance

variable {α β : Type} [LinearOrder α]

/-- Where the iterator is put. -/
def seek (start : List α) (store : List (List α × β)) : List (List α × β) :=
  store.dropWhile fun e => e.1 < start

/-- The entries whose key begins with a prefix. -/
def withPrefix (start : List α) (store : List (List α × β)) : List (List α × β) :=
  store.filter fun e => start.isPrefixOf e.1

/-- The order of the keys. -/
def Sorted (store : List (List α × β)) : Prop :=
  store.Pairwise fun e f => e.1 < f.1

theorem not_lt_prefix {p k : List α} (h : p <+: k) : ¬ k < p := by
  induction p generalizing k with
  | nil => exact List.not_lt_nil k
  | cons x p ih =>
      obtain ⟨t, rfl⟩ := h
      rw [List.cons_append, List.cons_lt_cons_iff]
      rintro (hlt | ⟨-, hlt⟩)
      · exact lt_irrefl x hlt
      · exact ih (List.prefix_append p t) hlt

/-- Between a prefix and a key that begins with it, every key does. -/
theorem prefix_of_between {p a b : List α} (hpa : ¬ a < p) (hab : a < b)
    (hb : p <+: b) : p <+: a := by
  induction p generalizing a b with
  | nil => exact List.nil_prefix
  | cons x p ih =>
      obtain ⟨t, rfl⟩ := hb
      cases a with
      | nil => exact absurd (List.nil_lt_cons x p) hpa
      | cons y a =>
          rw [List.cons_lt_cons_iff, not_or, not_and] at hpa
          rw [List.cons_append, List.cons_lt_cons_iff] at hab
          rcases hab with hlt | ⟨rfl, hlt⟩
          · exact absurd hlt hpa.1
          · rw [List.cons_prefix_cons]
            exact ⟨rfl, ih (hpa.2 rfl) hlt (List.prefix_append p t)⟩

theorem takeWhile_withPrefix {p : List α} {store : List (List α × β)}
    (hsorted : Sorted store) (hstart : ∀ e ∈ store, ¬ e.1 < p) :
    store.takeWhile (fun e => p.isPrefixOf e.1) = withPrefix p store := by
  induction store with
  | nil => rfl
  | cons e store ih =>
      obtain ⟨habove, htail⟩ := List.pairwise_cons.mp hsorted
      rw [List.forall_mem_cons] at hstart
      rw [withPrefix, List.takeWhile_cons, List.filter_cons]
      split
      · rw [ih htail hstart.2, withPrefix]
      next hout =>
      symm
      rw [List.filter_eq_nil_iff]
      intro f hf hin
      refine hout (List.isPrefixOf_iff_prefix.mpr ?_)
      exact prefix_of_between hstart.1 (habove f hf)
        (List.isPrefixOf_iff_prefix.mp hin)

/-- Reading from the prefix on, as long as the keys begin with it. -/
theorem takeWhile_seek {p : List α} {store : List (List α × β)}
    (hsorted : Sorted store) :
    (seek p store).takeWhile (fun e => p.isPrefixOf e.1) = withPrefix p store := by
  induction store with
  | nil => rfl
  | cons e store ih =>
      obtain ⟨habove, htail⟩ := List.pairwise_cons.mp hsorted
      rw [seek, List.dropWhile_cons]
      split
      · next hbelow =>
        have hbelow : e.1 < p := by simpa using hbelow
        have hout : p.isPrefixOf e.1 = false := by
          rw [← Bool.not_eq_true, List.isPrefixOf_iff_prefix]
          exact fun h => not_lt_prefix h hbelow
        rw [withPrefix, List.filter_cons, hout, if_neg (by simp)]
        exact ih htail
      · next hstart =>
        have hstart : ¬ e.1 < p := by simpa using hstart
        refine takeWhile_withPrefix hsorted (List.forall_mem_cons.mpr ⟨hstart, ?_⟩)
        intro f hf hlt
        exact hstart (lt_trans (habove f hf) hlt)

end QuMesh.Lib
