import Mathlib.Data.List.Nodup

/-!
# Partners by the first hit

The things of one list look for their partners in another one, and each takes
the first that its key agrees with. Keys agree along a preorder and not by being
equal, so the first hit need not be the partner.

Asked are which things have a partner and which partners nobody has taken. Both
answers are what the keys say if and only if nothing that a key agrees with
stands before its partner, `exact_iff`. A partner that a wrong hit leaves behind
would have to be taken by a lesser key, and that one meets the wrong hit first.
-/

namespace QuMesh.Lib.FirstHit

variable {α β η : Type}

section Answers

variable (R : η → η → Prop) [DecidableRel R] (f : α → η) (g : β → η)
  (ks : List α) (cs : List β)

def hit (c : β) : Option α := ks.find? fun k => R (g c) (f k)

/-- Both answers are right. -/
structure Exact : Prop where
  partnered : ∀ c ∈ cs, (hit R f g ks c).isSome ↔ ∃ k ∈ ks, f k = g c
  taken : ∀ k ∈ ks,
    (∃ c ∈ cs, hit R f g ks c = some k) ↔ ∃ c ∈ cs, g c = f k

/-- What agrees with a key is its partner or comes behind it. -/
def Ahead : Prop :=
  ∀ c ∈ cs, ∀ front k back, ks = front ++ k :: back → R (g c) (f k) →
    ∃ k' ∈ front ++ [k], f k' = g c

end Answers

variable {R : η → η → Prop} [DecidableRel R] {f : α → η} {g : β → η}
  {ks : List α} {cs : List β}

theorem hit_eq_some {c : β} {k : α} :
    hit R f g ks c = some k ↔ R (g c) (f k) ∧
      ∃ front back, ks = front ++ k :: back ∧ ∀ a ∈ front, ¬R (g c) (f a) := by
  rw [hit, List.find?_eq_some_iff_append]
  simp

theorem hit_isSome {c : β} :
    (hit R f g ks c).isSome ↔ ∃ k ∈ ks, R (g c) (f k) := by
  rw [hit, List.find?_isSome]
  simp

/-- A hit that a greater key agrees with is a hit of that key too. -/
theorem hit_of_le (htrans : ∀ x y z, R x y → R y z → R x z) {c d : β} {k : α}
    (hle : R (g d) (g c)) (h : hit R f g ks d = some k) (hk : R (g c) (f k)) :
    hit R f g ks c = some k := by
  obtain ⟨-, front, back, hsplit, hnone⟩ := hit_eq_some.mp h
  refine hit_eq_some.mpr ⟨hk, front, back, hsplit, fun a ha hagrees => ?_⟩
  exact hnone a ha (htrans _ _ _ hle hagrees)

/-- Every hit is a partner. -/
theorem ahead_iff (hrefl : ∀ x, R x x) :
    Ahead R f g ks cs ↔
      ∀ c ∈ cs, ∀ k, hit R f g ks c = some k → f k = g c := by
  constructor
  · intro h c hc k hhit
    obtain ⟨hk, front, back, hsplit, hnone⟩ := hit_eq_some.mp hhit
    obtain ⟨k', hk', hkey⟩ := h c hc front k back hsplit hk
    rcases List.mem_append.mp hk' with hfront | hlast
    · refine absurd ?_ (hnone k' hfront)
      rw [hkey]
      exact hrefl _
    · rwa [List.mem_singleton.mp hlast] at hkey
  · rintro h c hc front k back rfl hk
    have hsome : (hit R f g (front ++ [k]) c).isSome :=
      hit_isSome.mpr ⟨k, by simp, hk⟩
    obtain ⟨k', hk'⟩ := Option.isSome_iff_exists.mp hsome
    have hlonger : hit R f g (front ++ k :: back) c = some k' := by
      rw [List.append_cons, hit, List.find?_append]
      exact Option.or_eq_some_iff.mpr (.inl hk')
    exact ⟨k', List.mem_of_find?_eq_some hk', h c hc k' hlonger⟩

theorem exact_iff (hrefl : ∀ x, R x x) (htrans : ∀ x y z, R x y → R y z → R x z)
    (hnodup : (ks.map f).Nodup) :
    Exact R f g ks cs ↔ Ahead R f g ks cs := by
  rw [ahead_iff hrefl]
  constructor
  · rintro ⟨hpartnered, htaken⟩ c hc k hhit
    obtain ⟨partner, hmem, hkey⟩ :=
      (hpartnered c hc).mp (Option.isSome_of_eq_some hhit)
    -- somebody has taken the partner, and by a key that is no greater
    obtain ⟨d, -, hd⟩ := (htaken partner hmem).mpr ⟨c, hc, hkey.symm⟩
    have hle : R (g d) (g c) := by
      rw [← hkey]
      exact (hit_eq_some.mp hd).1
    have hagrees : R (g c) (f partner) := by
      rw [hkey]
      exact hrefl _
    have hsame := hit_of_le htrans hle hd hagrees
    rw [hhit, Option.some_inj] at hsame
    rw [hsame, hkey]
  · intro h
    refine ⟨fun c hc => ?_, fun k hk => ?_⟩
    · rw [Option.isSome_iff_exists]
      constructor
      · rintro ⟨k, hhit⟩
        exact ⟨k, List.mem_of_find?_eq_some hhit, h c hc k hhit⟩
      · rintro ⟨k, hk, hkey⟩
        refine Option.isSome_iff_exists.mp (hit_isSome.mpr ⟨k, hk, ?_⟩)
        rw [hkey]
        exact hrefl _
    · constructor
      · rintro ⟨c, hc, hhit⟩
        exact ⟨c, hc, (h c hc k hhit).symm⟩
      · rintro ⟨c, hc, hkey⟩
        have hsome : (hit R f g ks c).isSome := by
          refine hit_isSome.mpr ⟨k, hk, ?_⟩
          rw [hkey]
          exact hrefl _
        obtain ⟨k', hhit⟩ := Option.isSome_iff_exists.mp hsome
        have hpartner := (h c hc k' hhit).trans hkey
        have hsame := List.inj_on_of_nodup_map hnodup
          (List.mem_of_find?_eq_some hhit) hk hpartner
        rw [hsame] at hhit
        exact ⟨c, hc, hhit⟩

end QuMesh.Lib.FirstHit
