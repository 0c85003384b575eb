import Mathlib.Data.List.Nodup
import Mathlib.Data.List.Perm.Subperm
import Mathlib.Data.Set.Insert
import Mathlib.Logic.Relation

/-!
# Errands run in tries

An errand is run for an owner, in tries. A try is issued out of a quota, it
may be spent once, and many tries of one errand may be out at a time; closing
the errand is the last thing that happens to it, so a try that is still out
then is lost. The tries are numbered as they are issued, over all owners.

`Sound` is what such a bookkeeping keeps: every try is spent at most once,
every errand is closed at most once and has no try spent behind that, and the
tries an owner has had and may still have are no more than it was granted.
-/

namespace QuMesh.Lib

namespace Errands

inductive Entry (ω : Type) where
  | spent (i : Nat)
  | closed (w : ω)
  deriving DecidableEq, Repr

/-- The errand an entry closes. -/
def Entry.close {ω : Type} : Entry ω → Option ω
  | .spent _ => none
  | .closed w => some w

end Errands

structure Errands (ω : Type) where
  /-- Whose try it is. -/
  owner : Nat → ω
  /-- The number of the next try. -/
  issued : Nat
  /-- Tries that may still be spent. -/
  ready : Set Nat
  /-- How many tries an owner may still have. -/
  quota : ω → Nat
  closed : Set ω
  history : List (Errands.Entry ω)

namespace Errands

variable {ω : Type} {s s' : Errands ω}

/-- The owners of tries that exist, and what is granted, do not grow. -/
structure Keeps (s s' : Errands ω) : Prop where
  owner : ∀ i < s.issued, s'.owner i = s.owner i
  quota : ∀ w, s'.quota w ≤ s.quota w

inductive Step (s s' : Errands ω) : Prop
  /-- Tries may be lost and quotas cut at any time. -/
  | lapse (keeps : Keeps s s') (issued : s'.issued = s.issued)
      (ready : ∀ i ∈ s'.ready, i ∈ s.ready) (closed : s'.closed = s.closed)
      (history : s'.history = s.history)
  | issue (w : ω) (keeps : Keeps s s') (issued : s'.issued = s.issued + 1)
      (owner : s'.owner s.issued = w) (quota : s'.quota w < s.quota w)
      (ready : ∀ i ∈ s'.ready, i ∈ s.ready ∨ i = s.issued)
      (closed : s'.closed = s.closed) (history : s'.history = s.history)
  | spend (i : Nat) (mine : i ∈ s.ready) (unclosed : s.owner i ∉ s.closed)
      (keeps : Keeps s s') (issued : s'.issued = s.issued)
      (ready : ∀ j ∈ s'.ready, j ∈ s.ready ∧ j ≠ i)
      (closed : s'.closed = s.closed)
      (history : s'.history = s.history ++ [.spent i])
  | close (w : ω) (unclosed : w ∉ s.closed) (keeps : Keeps s s')
      (issued : s'.issued = s.issued) (ready : ∀ i ∈ s'.ready, i ∈ s.ready)
      (closed : s'.closed = insert w s.closed)
      (history : s'.history = s.history ++ [.closed w])

/-- Any number of steps. -/
abbrev Steps : Errands ω → Errands ω → Prop := Relation.ReflTransGen Step

/-- The tries that exist have the owners they had. -/
theorem Keeps.last (keeps : Keeps s s') (made : ∀ i, .spent i ∈ s.history →
    i < s.issued) (last : s.history.Pairwise fun e f =>
      ∀ i, f = .spent i → e ≠ .closed (s.owner i)) :
    s.history.Pairwise fun e f =>
      ∀ i, f = .spent i → e ≠ .closed (s'.owner i) := by
  refine last.imp_of_mem fun {e f} _ hf h i hi => ?_
  rw [keeps.owner i (made i (hi ▸ hf))]
  exact h i hi

/-- The errands that were closed, in order. -/
def closes (s : Errands ω) : List ω := s.history.filterMap Entry.close

theorem mem_closes {w : ω} : w ∈ s.closes ↔ .closed w ∈ s.history := by
  rw [closes, List.mem_filterMap]
  constructor
  · rintro ⟨e, he, heq⟩
    cases e with
    | spent i => cases heq
    | closed v => exact Option.some.inj heq ▸ he
  · exact fun h => ⟨_, h, rfl⟩

/-- What was written down stays. -/
theorem Steps.history_prefix (steps : Steps s s') :
    s.history <+: s'.history := by
  induction steps with
  | refl => exact List.prefix_refl _
  | tail _ step ih =>
      refine ih.trans ?_
      cases step with
      | lapse _ _ _ _ history => exact history ▸ List.prefix_refl _
      | issue _ _ _ _ _ _ _ history => exact history ▸ List.prefix_refl _
      | spend i _ _ _ _ _ _ history => exact ⟨_, history.symm⟩
      | close w _ _ _ _ _ history => exact ⟨_, history.symm⟩

variable [DecidableEq ω]

/-- How many tries an owner has had. -/
def tries (s : Errands ω) (w : ω) : Nat :=
  (List.range s.issued).countP fun i => s.owner i = w

/-- The tries of an owner that were spent. -/
def spends (s : Errands ω) (w : ω) : List (Entry ω) :=
  s.history.filter fun e =>
    match e with
    | .spent i => s.owner i = w
    | .closed _ => false

structure Sound (granted : Nat) (s : Errands ω) : Prop where
  placed : ∀ i ∈ s.ready, i < s.issued
  made : ∀ i, .spent i ∈ s.history → i < s.issued
  unspent : ∀ i ∈ s.ready, .spent i ∉ s.history
  nodup : s.history.Nodup
  closed : ∀ w, w ∈ s.closed ↔ .closed w ∈ s.history
  /-- Nothing is spent behind the close. -/
  last : s.history.Pairwise fun e f =>
    ∀ i, f = .spent i → e ≠ .closed (s.owner i)
  granted : ∀ w, s.tries w + s.quota w ≤ granted

theorem Keeps.tries (keeps : Keeps s s') (issued : s'.issued = s.issued)
    (w : ω) : s'.tries w = s.tries w := by
  rw [Errands.tries, Errands.tries, issued]
  refine List.countP_congr fun i hi => ?_
  rw [keeps.owner i (List.mem_range.mp hi)]

theorem Sound.lapse {granted : Nat} (h : s.Sound granted)
    (keeps : Keeps s s') (issued : s'.issued = s.issued)
    (ready : ∀ i ∈ s'.ready, i ∈ s.ready) (closed : s'.closed = s.closed)
    (history : s'.history = s.history) : s'.Sound granted where
  placed i hi := issued ▸ h.placed i (ready i hi)
  made i hi := issued ▸ h.made i (history ▸ hi)
  unspent i hi := history ▸ h.unspent i (ready i hi)
  nodup := history ▸ h.nodup
  closed w := by rw [closed, history]; exact h.closed w
  last := by rw [history]; exact keeps.last h.made h.last
  granted w := by
    have := keeps.quota w
    have := h.granted w
    rw [keeps.tries issued]
    omega

theorem Sound.issue {granted : Nat} {w : ω} (h : s.Sound granted)
    (keeps : Keeps s s') (issued : s'.issued = s.issued + 1)
    (owner : s'.owner s.issued = w) (quota : s'.quota w < s.quota w)
    (ready : ∀ i ∈ s'.ready, i ∈ s.ready ∨ i = s.issued)
    (closed : s'.closed = s.closed) (history : s'.history = s.history) :
    s'.Sound granted where
  placed i hi := by
    rcases ready i hi with hold | rfl
    · have := h.placed i hold
      omega
    · omega
  made i hi := by
    have := h.made i (history ▸ hi)
    omega
  unspent i hi := by
    rw [history]
    rcases ready i hi with hold | rfl
    · exact h.unspent i hold
    · exact fun hspent => Nat.lt_irrefl _ (h.made _ hspent)
  nodup := history ▸ h.nodup
  closed v := by rw [closed, history]; exact h.closed v
  last := by rw [history]; exact keeps.last h.made h.last
  granted v := by
    have hold := h.granted v
    have hquota := keeps.quota v
    have htries : s'.tries v = s.tries v + if v = w then 1 else 0 := by
      rw [Errands.tries, issued, List.range_succ, List.countP_append]
      congr 1
      · refine List.countP_congr fun i hi => ?_
        rw [keeps.owner i (List.mem_range.mp hi)]
      · rw [List.countP_singleton, owner]
        by_cases hv : v = w
        · rw [if_pos hv, if_pos (decide_eq_true hv.symm)]
        · rw [if_neg hv, if_neg (fun hw => hv (of_decide_eq_true hw).symm)]
    rw [htries]
    split
    · next hv =>
        subst hv
        omega
    · omega

theorem Sound.spend {granted i : Nat} (h : s.Sound granted)
    (mine : i ∈ s.ready) (unclosed : s.owner i ∉ s.closed)
    (keeps : Keeps s s') (issued : s'.issued = s.issued)
    (ready : ∀ j ∈ s'.ready, j ∈ s.ready ∧ j ≠ i)
    (closed : s'.closed = s.closed)
    (history : s'.history = s.history ++ [.spent i]) :
    s'.Sound granted where
  placed j hj := issued ▸ h.placed j (ready j hj).1
  made j hj := by
    rw [history, List.mem_append, List.mem_singleton] at hj
    rw [issued]
    rcases hj with hj | hj
    · exact h.made j hj
    · cases hj
      exact h.placed i mine
  unspent j hj := by
    obtain ⟨hold, hne⟩ := ready j hj
    rw [history, List.mem_append, List.mem_singleton]
    rintro (hspent | hspent)
    · exact h.unspent j hold hspent
    · exact hne (Entry.spent.inj hspent)
  nodup := by
    rw [history, ← List.concat_eq_append]
    exact h.nodup.concat (h.unspent i mine)
  closed w := by
    rw [closed, history, List.mem_append, List.mem_singleton, h.closed w]
    exact ⟨.inl, fun hw => hw.resolve_right fun heq => by cases heq⟩
  last := by
    have howner := keeps.owner i (h.placed i mine)
    rw [history, List.pairwise_append]
    refine ⟨keeps.last h.made h.last, List.pairwise_singleton _ _, ?_⟩
    intro e he f hf j hj
    rw [List.mem_singleton.mp hf] at hj
    cases hj
    rintro rfl
    rw [howner] at he
    exact unclosed ((h.closed _).mpr he)
  granted w := by
    have := keeps.quota w
    have := h.granted w
    rw [keeps.tries issued]
    omega

theorem Sound.close {granted : Nat} {w : ω} (h : s.Sound granted)
    (unclosed : w ∉ s.closed) (keeps : Keeps s s')
    (issued : s'.issued = s.issued) (ready : ∀ i ∈ s'.ready, i ∈ s.ready)
    (closed : s'.closed = insert w s.closed)
    (history : s'.history = s.history ++ [.closed w]) :
    s'.Sound granted where
  placed i hi := issued ▸ h.placed i (ready i hi)
  made i hi := by
    rw [history, List.mem_append, List.mem_singleton] at hi
    exact issued ▸ h.made i (hi.resolve_right fun heq => by cases heq)
  unspent i hi := by
    rw [history, List.mem_append, List.mem_singleton]
    rintro (hspent | hspent)
    · exact h.unspent i (ready i hi) hspent
    · cases hspent
  nodup := by
    rw [history, ← List.concat_eq_append]
    exact h.nodup.concat fun hw => unclosed ((h.closed w).mpr hw)
  closed v := by
    rw [closed, history, List.mem_append, List.mem_singleton,
      Set.mem_insert_iff, h.closed v, or_comm, Entry.closed.injEq]
  last := by
    rw [history, List.pairwise_append]
    refine ⟨keeps.last h.made h.last, List.pairwise_singleton _ _, ?_⟩
    intro e he f hf i hi
    rw [List.mem_singleton.mp hf] at hi
    cases hi
  granted v := by
    have := keeps.quota v
    have := h.granted v
    rw [keeps.tries issued]
    omega

theorem Step.sound {granted : Nat} (step : Step s s') (h : s.Sound granted) :
    s'.Sound granted := by
  cases step with
  | lapse keeps issued ready closed history =>
      exact h.lapse keeps issued ready closed history
  | issue w keeps issued owner quota ready closed history =>
      exact h.issue keeps issued owner quota ready closed history
  | spend i mine unclosed keeps issued ready closed history =>
      exact h.spend mine unclosed keeps issued ready closed history
  | close w unclosed keeps issued ready closed history =>
      exact h.close unclosed keeps issued ready closed history

theorem Steps.sound {granted : Nat} (steps : Steps s s')
    (h : s.Sound granted) : s'.Sound granted := by
  induction steps with
  | refl => exact h
  | tail _ step ih => exact step.sound ih

/-- No owner spends more tries than it was granted. -/
theorem Sound.spends_le {granted : Nat} (h : s.Sound granted) (w : ω) :
    (s.spends w).length ≤ granted := by
  have hsub : s.spends w ⊆
      ((List.range s.issued).filter fun i => s.owner i = w).map .spent := by
    intro e he
    rw [spends, List.mem_filter] at he
    obtain ⟨hmem, howner⟩ := he
    cases e with
    | closed v => cases howner
    | spent i =>
        refine List.mem_map_of_mem (List.mem_filter.mpr ⟨?_, howner⟩)
        exact List.mem_range.mpr (h.made i hmem)
  have hle := ((h.nodup.filter _).subperm hsub).length_le
  have hgranted := h.granted w
  rw [List.length_map] at hle
  rw [tries, List.countP_eq_length_filter] at hgranted
  exact Nat.le_trans hle (Nat.le_trans (Nat.le_add_right _ _) hgranted)

/-! ## Closes, in order -/

theorem Sound.closes_nodup {granted : Nat} (h : s.Sound granted) :
    s.closes.Nodup := by
  refine h.nodup.filterMap fun e f w he hf => ?_
  cases e with
  | spent i => cases he
  | closed v =>
      cases f with
      | spent i => cases hf
      | closed u =>
          exact congrArg _ ((Option.some.inj he).trans (Option.some.inj hf).symm)

/-- The closes that steps have added are those of errands that were open, and
each is there once. -/
theorem Sound.closes_since {granted : Nat} (h : s.Sound granted)
    (steps : Steps s s') :
    ∃ new, s'.closes = s.closes ++ new ∧ new.Nodup ∧
      (∀ w ∈ new, w ∉ s.closed) ∧
        ∀ w, w ∈ s'.closed ↔ w ∈ s.closed ∨ w ∈ new := by
  obtain ⟨added, hadded⟩ := steps.history_prefix
  have h' := steps.sound h
  have hcloses : s'.closes = s.closes ++ added.filterMap Entry.close := by
    rw [closes, ← hadded, List.filterMap_append]
    rfl
  have hnodup := h'.closes_nodup
  rw [hcloses, List.nodup_append] at hnodup
  refine ⟨_, hcloses, hnodup.2.1, fun w hw hclosed => ?_, fun w => ?_⟩
  · rw [h.closed, ← mem_closes] at hclosed
    exact hnodup.2.2 w hclosed w hw rfl
  · rw [h'.closed, h.closed, ← mem_closes, ← mem_closes, hcloses,
      List.mem_append]

end Errands

end QuMesh.Lib
