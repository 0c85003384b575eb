import Mathlib.Data.List.Nodup

/-!
# Tables that come in no order

A hash table holds one value for a key, and going through it brings its entries
in an order of its own, which another run of the same program need not share.
The entries are kept here in the order in which their keys came; an `Order` is
how one run goes through all tables. What is asked of it is that it brings
every entry once.

Two runs bring the entries of a table in the same order, whatever their orders
are, only where there is nothing to order.
-/

namespace QuMesh.Lib

variable {κ υ : Type}

structure Table (κ υ : Type) where
  entries : List (κ × υ)
  nodup : (entries.map Prod.fst).Nodup

namespace Table

def empty : Table κ υ := ⟨[], .nil⟩

variable [DecidableEq κ]

/-- The value of a key that is there already is replaced. -/
def insert (key : κ) (value : υ) (t : Table κ υ) : Table κ υ :=
  if h : key ∈ t.entries.map Prod.fst then
    { entries := t.entries.map fun e => if e.1 = key then (key, value) else e
      nodup := by
        have hkeys : (t.entries.map fun e =>
            if e.1 = key then (key, value) else e).map Prod.fst =
            t.entries.map Prod.fst := by
          rw [List.map_map]
          refine List.map_congr_left fun e _ => ?_
          show (if e.1 = key then (key, value) else e).1 = e.1
          split
          · next heq => exact heq.symm
          · rfl
        rw [hkeys]
        exact t.nodup }
  else
    { entries := t.entries ++ [(key, value)]
      nodup := by
        rw [List.map_append, List.nodup_append]
        refine ⟨t.nodup, List.nodup_singleton _, ?_⟩
        rintro a ha b hb rfl
        have hkey : a = key := List.mem_singleton.mp hb
        rw [hkey] at ha
        exact h ha }

/-- The value of a key. -/
def value? (key : κ) (t : Table κ υ) : Option υ :=
  (t.entries.find? fun e => e.1 = key).map Prod.snd

theorem value?_insert (key key' : κ) (value : υ) (t : Table κ υ) :
    (t.insert key value).value? key' =
      if key' = key then some value else t.value? key' := by
  unfold insert value?
  split
  · next hmem =>
    -- the keys stand as they were
    have hkeys : ∀ e : κ × υ,
        (if e.1 = key then (key, value) else e).1 = e.1 := by
      intro e
      split
      · next heq => exact heq.symm
      · rfl
    have hfind : ((t.entries.map fun e =>
        if e.1 = key then (key, value) else e).find? fun e => e.1 = key') =
        (t.entries.find? fun e => e.1 = key').map fun e =>
          if e.1 = key then (key, value) else e := by
      rw [List.find?_map]
      simp only [Function.comp_def, hkeys]
    show Option.map Prod.snd _ = _
    rw [hfind]
    cases hsome : t.entries.find? fun e => e.1 = key' with
    | none =>
        rw [List.find?_eq_none] at hsome
        have hne : key' ≠ key := by
          rintro rfl
          obtain ⟨e, he, hkey⟩ := List.mem_map.mp hmem
          exact hsome e he (decide_eq_true hkey)
        rw [if_neg hne]
        rfl
    | some e =>
        have hkey : e.1 = key' := of_decide_eq_true (List.find?_some hsome :)
        simp only [Option.map_some, hkey]
        split <;> rfl
  · next hmem =>
    show Option.map Prod.snd ((t.entries ++ [(key, value)]).find? _) = _
    rw [List.find?_append]
    split
    · next heq =>
      have hnone : t.entries.find? (fun e => e.1 = key') = none := by
        rw [List.find?_eq_none]
        intro e he hkey
        exact hmem (List.mem_map.mpr
          ⟨e, he, (of_decide_eq_true hkey).trans heq⟩)
      rw [hnone, heq]
      simp
    · next hne =>
      have hlast : [(key, value)].find? (fun e => e.1 = key') = none := by
        simp [Ne.symm hne]
      rw [hlast, Option.or_none]

/-- The value of an entry. -/
theorem value?_of_mem {t : Table κ υ} {e : κ × υ} (h : e ∈ t.entries) :
    t.value? e.1 = some e.2 := by
  have hnodup := t.nodup
  unfold value?
  generalize t.entries = l at h hnodup ⊢
  induction l with
  | nil => cases h
  | cons f rest ih =>
      rw [List.map_cons, List.nodup_cons] at hnodup
      rcases List.mem_cons.mp h with rfl | hrest
      · rw [List.find?_cons_of_pos (by simp)]
        rfl
      · have hne : f.1 ≠ e.1 := by
          intro heq
          exact hnodup.1 (heq ▸ List.mem_map_of_mem hrest)
        rw [List.find?_cons_of_neg (by simpa using hne)]
        exact ih hrest hnodup.2

theorem insert_length (key : κ) (value : υ) (t : Table κ υ) :
    (t.insert key value).entries.length =
      if key ∈ t.entries.map Prod.fst then t.entries.length
      else t.entries.length + 1 := by
  unfold insert
  split
  · exact List.length_map _
  · exact List.length_append

theorem le_insert (key : κ) (value : υ) {t : Table κ υ} {n : Nat}
    (h : n ≤ t.entries.length) : n ≤ (t.insert key value).entries.length := by
  rw [insert_length]
  split <;> omega

end Table

/-- How a run goes through its tables. -/
structure Order (κ υ : Type) where
  iterate : Table κ υ → List (κ × υ)
  perm : ∀ t, (iterate t).Perm t.entries

namespace Order

/-- As the keys came. -/
def forward : Order κ υ := ⟨Table.entries, fun _ => .refl _⟩

def backward : Order κ υ :=
  ⟨fun t => t.entries.reverse, fun t => List.reverse_perm t.entries⟩

theorem iterate_short (σ : Order κ υ) {t : Table κ υ}
    (h : t.entries.length ≤ 1) : σ.iterate t = t.entries := by
  have hperm := σ.perm t
  cases hentries : t.entries with
  | nil =>
      rw [hentries] at hperm
      exact hperm.eq_nil
  | cons e rest =>
      rw [hentries, List.length_cons] at h
      have hrest : rest = [] := List.length_eq_zero_iff.mp (by omega)
      rw [hentries, hrest] at hperm
      rw [hrest]
      exact List.perm_singleton.mp hperm

/-- All orders agree on a table just where it has one entry at most. -/
theorem agree_iff (t : Table κ υ) :
    (∀ σ τ : Order κ υ, σ.iterate t = τ.iterate t) ↔ t.entries.length ≤ 1 := by
  constructor
  · intro hagree
    have hreverse : t.entries = t.entries.reverse := hagree forward backward
    have hnodup := t.nodup
    cases hentries : t.entries with
    | nil => exact Nat.zero_le 1
    | cons e rest =>
        rw [hentries] at hreverse hnodup
        -- the first entry is the last one
        have hfirst := congrArg List.getLast? hreverse
        rw [List.getLast?_reverse, List.head?_cons] at hfirst
        cases rest with
        | nil => exact Nat.le_refl 1
        | cons f rest =>
            rw [List.getLast?_cons_cons] at hfirst
            have hmem := List.mem_of_getLast? hfirst
            rw [List.map_cons, List.nodup_cons] at hnodup
            exact absurd (List.mem_map_of_mem hmem) hnodup.1
  · intro hshort σ τ
    rw [σ.iterate_short hshort, τ.iterate_short hshort]

end Order

end QuMesh.Lib
