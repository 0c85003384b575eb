import QuMesh.Proofs.ImportIds

/-!
# Which row an import takes

An entry that has the id of a row is meant for this row, whatever stands before
it in the list. The plan is made in one pass, though, and an entry whose id is
that of no row takes the first free row with its host and name: also one whose
owner comes later.

Nothing is taken from an owner where there are enough rows that no entry owns.
Such an entry takes a row behind them only if they are all claimed, and each of
them was claimed by an entry like it. Where there are not enough of them, the
order in which all of these entries come first shows it.
-/

namespace QuMesh.App.ComputerModel

open QuMesh.Lib

variable {fold : Text → Text} {rows : List Computer} {claimed : List Nat}

/-- What an entry falls back on: the host, and the name but for its case. -/
def key (fold : Text → Text) (c : Computer) : Text × Text :=
  (c.host, fold c.name)

/-- Entries that fall back on the key of `x`. -/
def strangers (fold : Text → Text) (rows incoming : List Computer)
    (x : Computer) : List Computer :=
  incoming.filter fun c => c.id ∉ ids rows ∧ key fold c = key fold x

/-- The row has the key of `x`, and no entry has its id. -/
def Spare (fold : Text → Text) (rows incoming : List Computer) (x : Computer)
    (j : Nat) : Prop :=
  ∃ y ∈ rows[j]?, key fold y = key fold x ∧ y.id ∉ ids incoming

instance (fold : Text → Text) (rows incoming : List Computer) (x : Computer) :
    DecidablePred (Spare fold rows incoming x) := fun j =>
  match h : rows[j]? with
  | none => .isFalse fun ⟨y, hy, _⟩ => by rw [h] at hy; cases hy
  | some y => decidable_of_iff
      (key fold y = key fold x ∧ y.id ∉ ids incoming) (by
        unfold Spare
        rw [h]
        simp)

/-- The spare rows before row `i`. -/
def spares (fold : Text → Text) (rows incoming : List Computer) (x : Computer)
    (i : Nat) : List Nat :=
  (List.range i).filter (Spare fold rows incoming x)

/-- For each row that an entry owns there are as many spare rows before it as
entries that fall back on its key. -/
def Roomy (fold : Text → Text) (rows incoming : List Computer) : Prop :=
  ∀ i x, rows[i]? = some x → x.id ∈ ids incoming →
    (strangers fold rows incoming x).length ≤
      (spares fold rows incoming x i).length

/-- The entry is to update the row that has its id, if one has. -/
def ById (rows : List Computer) (e : ImportPlanEntry) : Prop :=
  e.incoming.id ∈ ids rows →
    e.matched = .importUpdate ∧ e.existingId = e.incoming.id

/-- The entries that have the id of a row. -/
def owners (rows : List Computer) (plan : List ImportPlanEntry) :
    List ImportPlanEntry :=
  plan.filter fun e => e.incoming.id ∈ ids rows

/-- What a plan is to keep: the ids go first, in whatever order. -/
structure IdsFirst (fold : Text → Text) (m : ComputerModel)
    (incoming : List Computer) : Prop where
  entries : (m.planImport fold incoming).map (·.incoming) = incoming
  byId : ∀ e ∈ m.planImport fold incoming, ById m.computers e
  permuted : ∀ incoming', incoming'.Perm incoming →
    (owners m.computers (m.planImport fold incoming')).Perm
      (owners m.computers (m.planImport fold incoming))

/-! ## One entry -/

/-- The row that is found is the first one. -/
theorem findRow_first {ok : Computer → Bool} {i : Nat}
    (h : findRow rows claimed ok = some i) {j : Nat} {x : Computer}
    (hj : j < i) (hx : rows[j]? = some x) (hok : ok x = true) :
    j ∈ claimed := by
  obtain ⟨-, k, hk, hget, hfirst⟩ := List.find?_eq_some_iff_getElem.mp h
  rw [List.getElem_range] at hget
  subst hget
  have hskip := hfirst j hj
  rw [List.getElem_range, hx] at hskip
  simpa [hok] using hskip

/-- An entry whose id is that of no row falls back on its key. -/
theorem findHit_stranger {c : Computer} (hc : c.id ∉ ids rows) :
    findHit fold rows claimed c =
      findRow rows claimed fun x => key fold x = key fold c := by
  have hnone : findRow rows claimed (fun x => x.id = c.id) = none := by
    cases h : findRow rows claimed fun x => x.id = c.id with
    | none => rfl
    | some i =>
        obtain ⟨-, x, hx, hid⟩ := findRow_some h
        refine absurd ?_ hc
        rw [← of_decide_eq_true hid]
        exact List.mem_map_of_mem (List.mem_of_getElem? hx)
  unfold findHit key
  simp only [hnone, ite_self, Prod.mk.injEq]

/-- The rows that are claimed after some entries. -/
def claims (fold : Text → Text) (rows : List Computer) :
    List Nat → List Computer → List Nat
  | claimed, [] => claimed
  | claimed, c :: incoming =>
      claims fold rows (planEntry fold rows claimed c).2 incoming

theorem planLoop_append (a b : List Computer) :
    planLoop fold rows claimed (a ++ b) =
      planLoop fold rows claimed a ++
        planLoop fold rows (claims fold rows claimed a) b := by
  induction a generalizing claimed with
  | nil => rfl
  | cons c a ih => rw [List.cons_append, planLoop, ih]; rfl

theorem claimed_planEntry (c : Computer) :
    (planEntry fold rows claimed c).2 =
      (findHit fold rows claimed c).toList ++ claimed := by
  unfold planEntry
  split
  · next hit h => rw [h]; rfl
  · next h => rw [h]; rfl

theorem claims_subset (incoming : List Computer) {i : Nat} (h : i ∈ claimed) :
    i ∈ claims fold rows claimed incoming := by
  induction incoming generalizing claimed with
  | nil => exact h
  | cons c incoming ih =>
      refine ih ?_
      rw [claimed_planEntry]
      exact List.mem_append_right _ h

/-! ## Enough rows -/

/-- The rows that some entries claimed: each spare one on behalf of an entry
that fell back on its key, and none that a later entry owns. -/
structure FairFor (fold : Text → Text) (rows incoming : List Computer)
    (before after : List Computer) (claimed : List Nat) : Prop where
  spare : ∀ x, (claimed.filter (Spare fold rows incoming x)).length ≤
    (strangers fold rows before x).length
  free : ∀ i ∈ claimed, ∀ id, (ids rows)[i]? = some id → id ∉ ids after

theorem strangers_append (a b : List Computer) (x : Computer) :
    strangers fold rows (a ++ b) x =
      strangers fold rows a x ++ strangers fold rows b x :=
  List.filter_append ..

/-- An entry that falls back takes no row that a later one owns. -/
theorem FairFor.fallback {before after : List Computer} {c : Computer}
    (hroom : Roomy fold rows (before ++ c :: after))
    (h : FairFor fold rows (before ++ c :: after) before (c :: after) claimed)
    (hc : c.id ∉ ids rows) {i : Nat} {y : Computer}
    (hi : findRow rows claimed (fun x => key fold x = key fold c) = some i)
    (hy : rows[i]? = some y) : y.id ∉ ids after := by
  intro hlater
  obtain ⟨-, y', hy', hkey⟩ := findRow_some hi
  rw [hy] at hy'
  cases hy'
  have hkey : key fold y = key fold c := of_decide_eq_true hkey
  have howned : y.id ∈ ids (before ++ c :: after) := by
    simp only [ids, List.map_append, List.map_cons, List.mem_append,
      List.mem_cons]
    exact .inr (.inr hlater)
  have hclaimed : spares fold rows (before ++ c :: after) y i ⊆
      claimed.filter (Spare fold rows (before ++ c :: after) y) := by
    intro j hj
    obtain ⟨hlt, hspare⟩ := List.mem_filter.mp hj
    refine List.mem_filter.mpr ⟨?_, hspare⟩
    obtain ⟨z, hz, hzkey, -⟩ := of_decide_eq_true hspare
    exact findRow_first hi (List.mem_range.mp hlt) hz
      (decide_eq_true (hzkey.trans hkey))
  have hnodup : (spares fold rows (before ++ c :: after) y i).Nodup :=
    List.nodup_range.filter _
  have hcount := List.Nodup.length_le_of_subset hnodup hclaimed
  have hspent := h.spare y
  have hneeded := hroom i y hy howned
  have hone : strangers fold rows (c :: after) y =
      c :: strangers fold rows after y :=
    List.filter_cons_of_pos (decide_eq_true ⟨hc, hkey.symm⟩)
  rw [strangers_append, hone, List.length_append, List.length_cons] at hneeded
  omega

theorem FairFor.step (hrows : Distinct rows) {before after : List Computer}
    {c : Computer} (hincoming : (ids (before ++ c :: after)).Nodup)
    (hroom : Roomy fold rows (before ++ c :: after))
    (h : FairFor fold rows (before ++ c :: after) before (c :: after) claimed) :
    ById rows (planEntry fold rows claimed c).1 ∧
      FairFor fold rows (before ++ c :: after) (before ++ [c]) after
        (planEntry fold rows claimed c).2 := by
  have hmem : c.id ∈ ids (before ++ c :: after) := by simp [ids]
  have hafter : c.id ∉ ids after := by
    have hsub : (ids (c :: after)).Sublist (ids (before ++ c :: after)) :=
      (List.sublist_append_right _ _).map _
    exact (List.nodup_cons.mp (hincoming.sublist hsub)).1
  have hfree : ∀ i ∈ claimed, ∀ id, (ids rows)[i]? = some id →
      id ∉ ids after :=
    fun i hi id hid hlater => h.free i hi id hid (List.mem_cons_of_mem _ hlater)
  rw [claimed_planEntry]
  by_cases hc : c.id ∈ ids rows
  · -- the row that has the id is free, and is taken
    obtain ⟨i, hi⟩ := List.getElem?_of_mem hc
    have hnew : i ∉ claimed := fun hin =>
      h.free i hin c.id hi List.mem_cons_self
    have hhit : findHit fold rows claimed c = some i :=
      findHit_byId hrows c hnew hi
    obtain ⟨y, hy, hid⟩ : ∃ y, rows[i]? = some y ∧ y.id = c.id := by
      rw [getElem?_ids, Option.map_eq_some_iff] at hi
      exact hi
    refine ⟨fun _ => ?_, ?_, ?_⟩
    · unfold planEntry
      rw [hhit]
      dsimp only
      exact ⟨rfl, by rw [hy]; exact hid⟩
    · intro x
      have howned : ¬Spare fold rows (before ++ c :: after) x i := by
        rintro ⟨z, hz, -, hspare⟩
        rw [hy] at hz
        cases hz
        exact hspare (hid ▸ hmem)
      have hskip : (i :: claimed).filter
          (Spare fold rows (before ++ c :: after) x) =
            claimed.filter (Spare fold rows (before ++ c :: after) x) :=
        List.filter_cons_of_neg (by simpa using howned)
      rw [hhit, Option.toList_some, List.singleton_append, hskip,
        strangers_append, List.length_append]
      have hspent := h.spare x
      omega
    · rw [hhit, Option.toList_some, List.singleton_append]
      intro j hj id hid
      rcases List.mem_cons.mp hj with rfl | hj
      · rw [hi] at hid
        cases hid
        exact hafter
      · exact hfree j hj id hid
  · refine ⟨fun howned => absurd ?_ hc, ?_⟩
    · unfold planEntry at howned
      split at howned <;> exact howned
    rw [findHit_stranger hc]
    cases hrow : findRow rows claimed fun x => key fold x = key fold c with
    | none =>
        refine ⟨fun x => ?_, hfree⟩
        rw [strangers_append, List.length_append]
        exact Nat.le_add_right_of_le (h.spare x)
    | some i =>
        obtain ⟨-, y, hy, hkey⟩ := findRow_some hrow
        have hkey : key fold y = key fold c := of_decide_eq_true hkey
        rw [Option.toList_some, List.singleton_append]
        refine ⟨fun x => ?_, fun j hj id hid => ?_⟩
        · have hspent := h.spare x
          rw [strangers_append, List.length_append, List.filter_cons]
          split
          · next hspare =>
            obtain ⟨z, hz, hzkey, -⟩ := of_decide_eq_true hspare
            rw [hy] at hz
            cases hz
            have hone : strangers fold rows [c] x = [c] :=
              List.filter_cons_of_pos
                (decide_eq_true ⟨hc, hkey.symm.trans hzkey⟩)
            rw [hone, List.length_cons, List.length_singleton]
            omega
          · omega
        · rcases List.mem_cons.mp hj with rfl | hj
          · rw [getElem?_ids, hy] at hid
            cases hid
            exact h.fallback hroom hc hrow hy
          · exact hfree j hj id hid

theorem FairFor.planLoop (hrows : Distinct rows) {before after : List Computer}
    (hincoming : (ids (before ++ after)).Nodup)
    (hroom : Roomy fold rows (before ++ after))
    (h : FairFor fold rows (before ++ after) before after claimed) :
    ∀ e ∈ planLoop fold rows claimed after, ById rows e := by
  induction after generalizing before claimed with
  | nil => exact List.forall_mem_nil _
  | cons c after ih =>
      obtain ⟨hentry, hrest⟩ := h.step hrows hincoming hroom
      have hsplit : before ++ c :: after = (before ++ [c]) ++ after := by
        rw [List.append_assoc, List.singleton_append]
      rw [hsplit] at hincoming hroom hrest
      rw [ComputerModel.planLoop, List.forall_mem_cons]
      exact ⟨hentry, ih hincoming hroom hrest⟩

/-- With enough rows the ids go first. -/
theorem planLoop_byId (hrows : Distinct rows) {incoming : List Computer}
    (hincoming : (ids incoming).Nodup) (hroom : Roomy fold rows incoming) :
    ∀ e ∈ planLoop fold rows [] incoming, ById rows e := by
  have hstart : FairFor fold rows ([] ++ incoming) [] incoming [] :=
    ⟨fun x => Nat.le_refl 0, fun i hi => absurd hi List.not_mem_nil⟩
  refine FairFor.planLoop hrows ?_ ?_ hstart
  · exact hincoming
  · exact hroom

theorem Roomy.perm {incoming incoming' : List Computer}
    (hperm : incoming'.Perm incoming) (h : Roomy fold rows incoming) :
    Roomy fold rows incoming' := by
  have hids : ∀ id, id ∈ ids incoming' ↔ id ∈ ids incoming :=
    fun id => (hperm.map _).mem_iff
  have hspare : ∀ x, Spare fold rows incoming' x = Spare fold rows incoming x :=
    fun x => funext fun j => by simp only [Spare, hids]
  intro i x hx howned
  have hlength : (strangers fold rows incoming' x).length =
      (strangers fold rows incoming x).length :=
    (hperm.filter _).length_eq
  have hspares : spares fold rows incoming' x i =
      spares fold rows incoming x i :=
    List.filter_congr fun j _ => by simp only [hspare]
  rw [hlength, hspares]
  exact h i x hx ((hids _).mp howned)

/-! ## Too few rows -/

/-- The entries that fall back on a key claim rows before a row of this key, as
long as they leave the row alone. -/
theorem strangers_claims {x : Computer} {i : Nat} (hx : rows[i]? = some x)
    {incoming : List Computer}
    (hincoming : ∀ c ∈ incoming, c.id ∉ ids rows ∧ key fold c = key fold x)
    (hclaimed : claimed.Nodup)
    (hi : i ∉ claims fold rows claimed incoming) :
    (claims fold rows claimed incoming).Nodup ∧
      (claims fold rows claimed incoming).length =
        claimed.length + incoming.length ∧
      ∀ j ∈ claims fold rows claimed incoming, j ∈ claimed ∨
        j < i ∧ ∃ y, rows[j]? = some y ∧ key fold y = key fold x := by
  induction incoming generalizing claimed with
  | nil => exact ⟨hclaimed, rfl, fun j hj => .inl hj⟩
  | cons c incoming ih =>
      rw [List.forall_mem_cons] at hincoming
      obtain ⟨⟨hc, hkey⟩, hrest⟩ := hincoming
      rw [claims] at hi ⊢
      have hnow : i ∉ (planEntry fold rows claimed c).2 :=
        fun h => hi (claims_subset incoming h)
      rw [claimed_planEntry, findHit_stranger hc] at hi hnow ⊢
      have hfree : i ∉ claimed := fun h => hnow (List.mem_append_right _ h)
      obtain ⟨j, hj⟩ := Option.isSome_iff_exists.mp (findRow_isSome
        (fun y => key fold y = key fold c) hfree hx (decide_eq_true hkey.symm))
      obtain ⟨hjFree, y, hy, hyKey⟩ := findRow_some hj
      have hyKey : key fold y = key fold c := of_decide_eq_true hyKey
      rw [hj, Option.toList_some, List.singleton_append] at hi hnow ⊢
      have hne : i ≠ j := fun h => hnow (h ▸ List.mem_cons_self)
      have hle : ¬i < j := fun h => hfree
        (findRow_first hj h hx (decide_eq_true hkey.symm))
      obtain ⟨hnodup, hlength, hfrom⟩ :=
        ih hrest (List.nodup_cons.mpr ⟨hjFree, hclaimed⟩) hi
      refine ⟨hnodup, ?_, fun k hk => ?_⟩
      · rw [hlength, List.length_cons, List.length_cons]
        omega
      · rcases hfrom k hk with hk | hk
        · rcases List.mem_cons.mp hk with rfl | hk
          · exact .inr ⟨by omega, y, hy, hyKey.trans hkey⟩
          · exact .inl hk
        · exact .inr hk

/-- An entry that updates the row of its id finds it unclaimed. -/
theorem unclaimed_of_byId (hrows : Distinct rows) {incoming : List Computer}
    (h : ∀ e ∈ planLoop fold rows claimed incoming, ById rows e) {j : Nat}
    {id : Text} (hj : (ids rows)[j]? = some id) (hid : id ∈ ids incoming) :
    j ∉ claimed := by
  obtain ⟨c, hc, rfl⟩ := List.mem_map.mp hid
  rw [← planLoop_incoming rows claimed incoming] at hc
  obtain ⟨e, he, rfl⟩ := List.mem_map.mp hc
  obtain ⟨hupdate, hexisting⟩ := h e he (List.mem_of_getElem? hj)
  obtain ⟨i, hi, hrow⟩ := planLoop_existing e he hupdate
  rw [hexisting] at hrow
  rwa [hrows.same _ hj hrow]

/-- Where the ids go first in every order, there are enough rows: the order that
tells is the one that begins with the entries that fall back on a key. -/
theorem roomy_of_byId (hrows : Distinct rows) {incoming : List Computer}
    (h : ∀ incoming', incoming'.Perm incoming →
      ∀ e ∈ planLoop fold rows [] incoming', ById rows e) :
    Roomy fold rows incoming := by
  intro i x hx howned
  let early := strangers fold rows incoming x
  let late := incoming.filter fun c =>
    !decide (c.id ∉ ids rows ∧ key fold c = key fold x)
  have hlate : ∀ e ∈ planLoop fold rows (claims fold rows [] early) late,
      ById rows e := by
    intro e he
    refine h (early ++ late) (List.filter_append_perm _ incoming) e ?_
    rw [planLoop_append]
    exact List.mem_append_right _ he
  have hunclaimed : ∀ j id, (ids rows)[j]? = some id → id ∈ ids incoming →
      j ∉ claims fold rows [] early := by
    intro j id hj hid
    refine unclaimed_of_byId hrows hlate hj ?_
    obtain ⟨c, hc, rfl⟩ := List.mem_map.mp hid
    refine List.mem_map_of_mem (List.mem_filter.mpr ⟨hc, ?_⟩)
    have hmem : c.id ∈ ids rows := List.mem_of_getElem? hj
    simp [hmem]
  have hrow : (ids rows)[i]? = some x.id := by
    rw [getElem?_ids, hx]
    rfl
  obtain ⟨hnodup, hlength, hfrom⟩ := strangers_claims hx
    (fun c hc => of_decide_eq_true (List.mem_filter.mp hc).2) List.nodup_nil
    (hunclaimed i x.id hrow howned)
  have hsub : claims fold rows [] early ⊆ spares fold rows incoming x i := by
    intro j hj
    rcases hfrom j hj with hj' | ⟨hlt, y, hy, hkey⟩
    · cases hj'
    · refine List.mem_filter.mpr ⟨List.mem_range.mpr hlt, ?_⟩
      refine decide_eq_true ⟨y, hy, hkey, fun hid => ?_⟩
      refine hunclaimed j y.id ?_ hid hj
      rw [getElem?_ids, hy]
      rfl
  have hle := List.Nodup.length_le_of_subset hnodup hsub
  rwa [hlength, List.length_nil, Nat.zero_add] at hle

/-! ## The plan -/

/-- The plan for entries that go by their ids. -/
theorem owners_eq {plan : List ImportPlanEntry}
    (h : ∀ e ∈ plan, ById rows e) :
    owners rows plan =
      ((plan.map (·.incoming)).filter fun c => c.id ∈ ids rows).map fun c =>
        { incoming := c, existingId := c.id, matched := .importUpdate } := by
  induction plan with
  | nil => rfl
  | cons e plan ih =>
      rw [List.forall_mem_cons] at h
      have hrest := ih h.2
      unfold owners at hrest ⊢
      rw [List.map_cons, List.filter_cons, List.filter_cons]
      split
      · next howned =>
        obtain ⟨hupdate, hexisting⟩ := h.1 (of_decide_eq_true howned)
        obtain ⟨c, existingId, matched⟩ := e
        dsimp only at hupdate hexisting
        rw [hrest, List.map_cons, hupdate, hexisting]
      · exact hrest

/-- The ids go first, in every order of the incoming list, exactly where for
each row that an entry owns there are as many spare rows before it as entries
that fall back on its key. -/
theorem planImport_idsFirst_iff (fold : Text → Text) (m : ComputerModel)
    (hm : Distinct m.computers) (incoming : List Computer)
    (hincoming : Distinct incoming) :
    IdsFirst fold m incoming ↔ Roomy fold m.computers incoming := by
  constructor
  · intro h
    refine roomy_of_byId hm fun incoming' hperm e he howned => ?_
    have hmem : e ∈ owners m.computers (m.planImport fold incoming') :=
      List.mem_filter.mpr ⟨he, decide_eq_true howned⟩
    have hplan := (h.permuted incoming' hperm).mem_iff.mp hmem
    exact h.byId e (List.mem_filter.mp hplan).1 howned
  · intro hroom
    have hall : ∀ incoming', incoming'.Perm incoming →
        ∀ e ∈ m.planImport fold incoming', ById m.computers e := by
      intro incoming' hperm
      have hids : (ids incoming').Perm (ids incoming) := hperm.map _
      exact planLoop_byId hm (hids.nodup_iff.mpr hincoming.nodup)
        (hroom.perm hperm)
    refine ⟨planLoop_incoming _ _ _, hall incoming (.refl _), ?_⟩
    intro incoming' hperm
    rw [owners_eq (hall incoming' hperm), owners_eq (hall incoming (.refl _)),
      planImport, planImport, planLoop_incoming, planLoop_incoming]
    exact (hperm.filter _).map _

/-- A machine that is in the list, after one that is not. -/
theorem planImport_idsFirst_known :
    IdsFirst id { computers := [machine "A"] } [machine "B", machine "A"] ↔
      Roomy id [machine "A"] [machine "B", machine "A"] :=
  planImport_idsFirst_iff id { computers := [machine "A"] }
    ⟨by decide, by decide⟩ [machine "B", machine "A"]
    ⟨by decide, by decide⟩

/-- A machine that was set up anew under the name and host of the one before,
and this one, in a backup: the row goes to the wrong entry. -/
theorem planImport_namesake :
    let m : ComputerModel := { computers := [machine "A"] }
    let incoming := [{ machine "A" with id := .lit "B" }, machine "A"]
    Distinct m.computers ∧ Distinct incoming ∧
      (m.planImport id incoming).map (·.matched) =
        [.importUpdate, .importNew] ∧
      ¬IdsFirst id m incoming := by
  refine ⟨⟨by decide, by decide⟩,
    ⟨by decide, by decide⟩, by decide, fun h => ?_⟩
  have hbyId := h.byId
  revert hbyId
  unfold ById
  decide

end QuMesh.App.ComputerModel
