import QuMesh.Proofs.ComputerSaves

/-!
# Ids under import

An entry of a plan is applied to the row that has the id it was matched with,
or is appended. What is written to a row keeps the row's id, so the ids of the
list afterwards are those before, and after them those of what was appended:
`ids_applyEntries`. That an appended row is not taken for the target of a later
entry is due to the plan: a row is matched by its id before it is matched by
its host and name, so an entry that comes before the one that claimed a row
has another id than the row.

No check is made of the ids that are appended. They are distinct from the
others where the incoming list and the claims make them so, and not otherwise.
-/

namespace QuMesh.App.ComputerModel

open QuMesh.Lib

variable {json : JsonText} {aes : AesCtr} {fold : Text → Text}

def ids (rows : List Computer) : List Text := rows.map (·.id)

/-- The ids are pairwise distinct and not empty. -/
structure Distinct (rows : List Computer) : Prop where
  nodup : (ids rows).Nodup
  named : ∀ id ∈ ids rows, id.isEmpty = false

theorem length_ids (rows : List Computer) : (ids rows).length = rows.length :=
  List.length_map _

theorem getElem?_ids (rows : List Computer) (i : Nat) :
    (ids rows)[i]? = (rows[i]?).map (·.id) :=
  List.getElem?_map

/-- Rows with one id are one row. -/
theorem Distinct.same {rows : List Computer} (h : Distinct rows) {i j : Nat}
    (id : Text) (hi : (ids rows)[i]? = some id) (hj : (ids rows)[j]? = some id) :
    i = j := by
  have hlt : i < (ids rows).length := (List.getElem?_eq_some_iff.mp hi).1
  exact (List.getElem?_inj hlt h.nodup).mp (hi.trans hj.symm)

/-! ## Plans -/

theorem findRow_some {rows : List Computer} {claimed : List Nat}
    {ok : Computer → Bool} {i : Nat} (h : findRow rows claimed ok = some i) :
    i ∉ claimed ∧ ∃ x, rows[i]? = some x ∧ ok x = true := by
  have hfound := List.find?_some h
  rw [Bool.and_eq_true, Bool.not_eq_true', Option.any_eq_true] at hfound
  obtain ⟨hclaimed, x, hx, hok⟩ := hfound
  exact ⟨by simpa using hclaimed, x, hx, hok⟩

theorem findRow_isSome {rows : List Computer} {claimed : List Nat}
    (ok : Computer → Bool) {i : Nat} {x : Computer} (hi : i ∉ claimed)
    (hx : rows[i]? = some x) (hok : ok x = true) :
    (findRow rows claimed ok).isSome := by
  have hlt : i < rows.length := (List.getElem?_eq_some_iff.mp hx).1
  rw [findRow, List.find?_isSome]
  refine ⟨i, List.mem_range.mpr hlt, ?_⟩
  simp [hi, hx, hok]

theorem findHit_some {rows : List Computer} {claimed : List Nat} {c : Computer}
    {i : Nat} (h : findHit fold rows claimed c = some i) :
    i ∉ claimed ∧ ∃ x, rows[i]? = some x := by
  unfold findHit at h
  dsimp only at h
  split at h
  · next j hj =>
    cases h
    split at hj
    · cases hj
    · obtain ⟨hi, x, hx, _⟩ := findRow_some hj
      exact ⟨hi, x, hx⟩
  · obtain ⟨hi, x, hx, _⟩ := findRow_some h
    exact ⟨hi, x, hx⟩

/-- An id that an unclaimed row has is matched first. -/
theorem findHit_byId {rows : List Computer} (hrows : Distinct rows)
    {claimed : List Nat} (c : Computer) {i : Nat} (hi : i ∉ claimed)
    (hid : (ids rows)[i]? = some c.id) :
    findHit fold rows claimed c = some i := by
  have hnamed : c.id.isEmpty = false :=
    hrows.named c.id (List.mem_of_getElem? hid)
  obtain ⟨x, hx, hxid⟩ : ∃ x, rows[i]? = some x ∧ x.id = c.id := by
    rw [getElem?_ids, Option.map_eq_some_iff] at hid
    exact hid
  obtain ⟨j, hj⟩ := Option.isSome_iff_exists.mp
    (findRow_isSome (fun x => x.id = c.id) hi hx (by simpa using hxid))
  obtain ⟨_, y, hy, hyid⟩ := findRow_some hj
  have hsame : j = i := by
    refine hrows.same c.id ?_ hid
    rw [getElem?_ids, hy, Option.map_some, of_decide_eq_true hyid]
  unfold findHit
  simp only [hnamed, Bool.false_eq_true, if_false, hj, hsame]

/-- The row an updating entry is matched with was not claimed before. -/
theorem planLoop_existing {rows : List Computer} {claimed : List Nat}
    {incoming : List Computer} :
    ∀ e ∈ planLoop fold rows claimed incoming, e.matched = .importUpdate →
      ∃ i, i ∉ claimed ∧ (ids rows)[i]? = some e.existingId := by
  induction incoming generalizing claimed with
  | nil => exact List.forall_mem_nil _
  | cons c incoming ih =>
      intro e he hupdate
      rw [planLoop] at he
      unfold planEntry at he
      split at he
      · next hit hhit =>
        rcases List.mem_cons.mp he with rfl | he
        · obtain ⟨hi, x, hx⟩ := findHit_some hhit
          refine ⟨hit, hi, ?_⟩
          simp [getElem?_ids, hx]
        · obtain ⟨i, hi, hid⟩ := ih e he hupdate
          exact ⟨i, fun hmem => hi (List.mem_cons_of_mem _ hmem), hid⟩
      · rcases List.mem_cons.mp he with rfl | he
        · cases hupdate
        · exact ih e he hupdate

/-- Any other entry carries no id. -/
theorem planLoop_unmatched {rows : List Computer} {claimed : List Nat}
    {incoming : List Computer} :
    ∀ e ∈ planLoop fold rows claimed incoming, e.matched ≠ .importUpdate →
      e.existingId = .empty := by
  induction incoming generalizing claimed with
  | nil => exact List.forall_mem_nil _
  | cons c incoming ih =>
      rw [planLoop, List.forall_mem_cons]
      refine ⟨?_, ih⟩
      unfold planEntry
      split
      · exact fun h => absurd rfl h
      · exact fun _ => rfl

theorem planLoop_incoming (rows : List Computer) (claimed : List Nat)
    (incoming : List Computer) :
    (planLoop fold rows claimed incoming).map (·.incoming) = incoming := by
  induction incoming generalizing claimed with
  | nil => rfl
  | cons c incoming ih =>
      rw [planLoop, List.map_cons, ih]
      unfold planEntry
      split <;> rfl

/-- The entry `e` leaves the row of `e'` alone: it is not matched with it, and
it does not have its id. -/
def Apart (e e' : ImportPlanEntry) : Prop :=
  e'.matched = .importUpdate → e.incoming.id ≠ e'.existingId ∧
    (e.matched = .importUpdate → e.existingId ≠ e'.existingId)

theorem planLoop_apart {rows : List Computer} (hrows : Distinct rows)
    {claimed : List Nat} {incoming : List Computer} :
    (planLoop fold rows claimed incoming).Pairwise Apart := by
  induction incoming generalizing claimed with
  | nil => exact .nil
  | cons c incoming ih =>
      rw [planLoop]
      unfold planEntry
      split
      · next hit hhit =>
        refine .cons (fun e' he' hupdate => ?_) ih
        obtain ⟨i, hi, hid⟩ := planLoop_existing e' he' hupdate
        obtain ⟨hhitfree, x, hx⟩ := findHit_some hhit
        rw [List.mem_cons, not_or] at hi
        refine ⟨fun heq => ?_, fun _ heq => ?_⟩
        · -- the id would have been matched first
          have hbyId : findHit fold rows claimed c = some i :=
            findHit_byId hrows c hi.2 (heq ▸ hid)
          rw [hhit] at hbyId
          exact hi.1 (Option.some.inj hbyId).symm
        · have hxid : (ids rows)[hit]? = some e'.existingId := by
            rw [← heq, getElem?_ids, hx]
            rfl
          exact hi.1 (hrows.same _ hid hxid)
      · next hnone =>
        refine .cons (fun e' he' hupdate => ?_) ih
        obtain ⟨i, hi, hid⟩ := planLoop_existing e' he' hupdate
        refine ⟨fun heq => ?_, nofun⟩
        have hbyId : findHit fold rows claimed c = some i :=
          findHit_byId hrows c hi (heq ▸ hid)
        rw [hnone] at hbyId
        cases hbyId

/-! ## What is applied -/

theorem targetOf_some {rows : List Computer} {e : ImportPlanEntry} {i : Nat}
    (h : targetOf rows e = some i) :
    e.matched = .importUpdate ∧ (ids rows)[i]? = some e.existingId := by
  unfold targetOf at h
  split at h
  · next hupdate =>
    obtain ⟨hlt, hid, _⟩ := List.findIdx?_eq_some_iff_getElem.mp h
    refine ⟨hupdate.1, ?_⟩
    rw [getElem?_ids, List.getElem?_eq_getElem hlt, Option.map_some,
      of_decide_eq_true hid]
  · cases h

theorem targetOf_none {rows : List Computer} {e : ImportPlanEntry} :
    targetOf rows e = none ↔ (e.matched = .importUpdate →
      e.existingId.isEmpty = false → e.existingId ∉ ids rows) := by
  have hids : (∀ x ∈ rows, decide (x.id = e.existingId) = false) ↔
      e.existingId ∉ ids rows := by
    simp [ids]
  unfold targetOf
  split
  · next hupdate =>
    rw [List.findIdx?_eq_none_iff, hids]
    refine ⟨fun h _ _ => h, fun h => h hupdate.1 (by simpa using hupdate.2)⟩
  · next hupdate =>
    refine iff_of_true rfl fun hmatched hnamed => ?_
    exact absurd ⟨hmatched, by simp [hnamed]⟩ hupdate

/-- The id of an entry that is appended. -/
def newId (fresh : Text) (e : ImportPlanEntry) : Text :=
  if e.incoming.id.isEmpty then fresh else e.incoming.id

theorem ids_applyEntry (fresh : Text) (rows : List Computer)
    (e : ImportPlanEntry) :
    ids (applyEntry fresh rows e) =
      if targetOf rows e = none then ids rows ++ [newId fresh e]
      else ids rows := by
  unfold applyEntry
  cases htarget : targetOf rows e with
  | none =>
      rw [if_pos rfl, ids, List.map_append]
      unfold newId
      split <;> rfl
  | some i =>
      have hid := (targetOf_some htarget).2
      rw [getElem?_ids, Option.map_eq_some_iff] at hid
      obtain ⟨x, hx, _⟩ := hid
      have hlt : i < rows.length := (List.getElem?_eq_some_iff.mp hx).1
      have hsame : (ids rows)[i]? = some x.id := by
        rw [getElem?_ids, hx]
        rfl
      simp only [reduceCtorEq, if_false, hx, Option.getD_some]
      rw [ids, List.map_set]
      refine List.ext_getElem? fun j => ?_
      rw [List.getElem?_set]
      split
      · next heq =>
        rw [← heq, List.length_map, if_pos hlt]
        exact hsame.symm
      · rfl

/-- The ids that are appended, as far as the rows before decide it. -/
def newIds (fresh : Nat → Text) (rows : List Computer) :
    Nat → List ImportPlanEntry → List Text
  | _, [] => []
  | n, e :: plan =>
      (if targetOf rows e = none then [newId (fresh n) e] else []) ++
        newIds fresh rows (n + 1) plan

/-- New uuids are no id that is known, none of them is empty, and no two are
the same. -/
structure Unique (fresh : Nat → Text) (known : List Text) : Prop where
  injective : Function.Injective fresh
  named : ∀ n, (fresh n).isEmpty = false
  unknown : ∀ n, fresh n ∉ known

/-- The ids afterwards are those before, and those that are appended. -/
theorem ids_applyEntries {fresh : Nat → Text} {rows : List Computer}
    {plan : List ImportPlanEntry} (hplan : plan.Pairwise Apart)
    (hfresh : ∀ n, ∀ e ∈ plan, e.existingId ≠ fresh n) (n : Nat)
    {now : List Computer} {added : List Text}
    (hnow : ids now = ids rows ++ added)
    (hadded : ∀ e ∈ plan, e.matched = .importUpdate → e.existingId ∉ added) :
    ids (applyEntries fresh n now plan) =
      ids now ++ newIds fresh rows n plan := by
  induction plan generalizing n now added with
  | nil => rw [applyEntries, newIds, List.append_nil]
  | cons e plan ih =>
      rw [List.pairwise_cons] at hplan
      have hmore := fun n e' he' => hfresh n e' (List.mem_cons_of_mem _ he')
      have hrest := fun e' he' => hadded e' (List.mem_cons_of_mem _ he')
      have htarget : targetOf now e = none ↔ targetOf rows e = none := by
        rw [targetOf_none, targetOf_none, hnow]
        refine forall_congr' fun hupdate => ?_
        rw [List.mem_append,
          or_iff_left (hadded e List.mem_cons_self hupdate)]
      rw [applyEntries, newIds]
      by_cases hnone : targetOf rows e = none
      · have hids := ids_applyEntry (fresh n) now e
        rw [if_pos (htarget.mpr hnone)] at hids
        have hstep := ih hplan.2 hmore (n + 1)
          (hids.trans (by rw [hnow, List.append_assoc])) fun e' he' hupdate => by
            rw [List.mem_append, List.mem_singleton, not_or]
            refine ⟨hrest e' he' hupdate, ?_⟩
            unfold newId
            split
            · exact hmore n e' he'
            · exact fun heq => (hplan.1 e' he' hupdate).1 heq.symm
        rw [hstep, hids, if_pos hnone, List.append_assoc]
      · have hids := ids_applyEntry (fresh n) now e
        rw [if_neg (mt htarget.mp hnone)] at hids
        have hstep := ih hplan.2 hmore (n + 1) (hids.trans hnow) hrest
        rw [hstep, hids, if_neg hnone, List.nil_append]

/-! ## The ids of the incoming list -/

/-- The ids that incoming entries bring along to be appended. -/
def brought (rows : List Computer) (plan : List ImportPlanEntry) : List Text :=
  ((plan.filter fun e => targetOf rows e = none).map (·.incoming.id)).filter
    fun id => !id.isEmpty

/-- They are distinct, also from the ids in the list. -/
def Appendable (rows : List Computer) (plan : List ImportPlanEntry) : Prop :=
  (brought rows plan).Nodup ∧ ∀ id ∈ brought rows plan, id ∉ ids rows

instance (rows : List Computer) (plan : List ImportPlanEntry) :
    Decidable (Appendable rows plan) :=
  inferInstanceAs (Decidable (_ ∧ _))

theorem brought_cons (rows : List Computer) (e : ImportPlanEntry)
    (plan : List ImportPlanEntry) :
    brought rows (e :: plan) =
      (if targetOf rows e = none ∧ e.incoming.id.isEmpty = false then
        [e.incoming.id] else []) ++ brought rows plan := by
  unfold brought
  by_cases hnone : targetOf rows e = none
  · cases hempty : e.incoming.id.isEmpty <;> simp [hnone, hempty]
  · simp [hnone]

theorem brought_subset {rows : List Computer} {plan : List ImportPlanEntry}
    {id : Text} (h : id ∈ brought rows plan) :
    id.isEmpty = false ∧ ∃ e ∈ plan, e.incoming.id = id := by
  unfold brought at h
  rw [List.mem_filter, List.mem_map] at h
  obtain ⟨⟨e, he, rfl⟩, hnamed⟩ := h
  exact ⟨by simpa using hnamed, e, (List.mem_filter.mp he).1, rfl⟩

/-- Beside what is brought along there are new uuids only. -/
theorem mem_newIds {fresh : Nat → Text} {rows : List Computer} {n : Nat}
    {plan : List ImportPlanEntry} {id : Text} :
    id ∈ newIds fresh rows n plan →
      id ∈ brought rows plan ∨ ∃ k, n ≤ k ∧ id = fresh k := by
  induction plan generalizing n with
  | nil => nofun
  | cons e plan ih =>
      intro h
      rw [newIds, List.mem_append] at h
      rw [brought_cons]
      rcases h with h | h
      · split at h
        · next hnone =>
          rw [List.mem_singleton] at h
          subst h
          unfold newId
          cases hempty : e.incoming.id.isEmpty with
          | true => exact .inr ⟨n, Nat.le_refl n, rfl⟩
          | false => simp [hnone]
        · cases h
      · rcases ih h with h | ⟨k, hk, rfl⟩
        · exact .inl (List.mem_append_right _ h)
        · exact .inr ⟨k, by omega, rfl⟩

theorem brought_newIds {fresh : Nat → Text} {rows : List Computer} {n : Nat}
    {plan : List ImportPlanEntry} {id : Text} (h : id ∈ brought rows plan) :
    id ∈ newIds fresh rows n plan := by
  induction plan generalizing n with
  | nil => cases h
  | cons e plan ih =>
      rw [brought_cons, List.mem_append] at h
      rw [newIds, List.mem_append]
      rcases h with h | h
      · split at h
        · next hnew =>
          rw [List.mem_singleton] at h
          left
          simp [hnew.1, newId, hnew.2, h]
        · cases h
      · exact .inr (ih h)

theorem nodup_newIds {fresh : Nat → Text} {rows : List Computer} {n : Nat}
    {plan : List ImportPlanEntry} {known : List Text}
    (hfresh : Unique fresh known)
    (hknown : ∀ e ∈ plan, e.incoming.id ∈ known) :
    (newIds fresh rows n plan).Nodup ↔ (brought rows plan).Nodup := by
  induction plan generalizing n with
  | nil => exact Iff.rfl
  | cons e plan ih =>
      have hrest := fun e' he' => hknown e' (List.mem_cons_of_mem e he')
      have hbrought : ∀ id ∈ brought rows plan, id ∈ known := by
        intro id hid
        obtain ⟨_, e', he', rfl⟩ := brought_subset hid
        exact hrest e' he'
      rw [newIds, brought_cons]
      by_cases hnone : targetOf rows e = none
      · rw [if_pos hnone, List.singleton_append, List.nodup_cons, ih hrest]
        unfold newId
        cases hempty : e.incoming.id.isEmpty with
        | true =>
            have hnew : fresh n ∉ newIds fresh rows (n + 1) plan := by
              intro hmem
              rcases mem_newIds hmem with hmem | ⟨k, hk, heq⟩
              · exact hfresh.unknown n (hbrought _ hmem)
              · have := hfresh.injective heq
                omega
            simp [hnew]
        | false =>
            have hsame : e.incoming.id ∈ newIds fresh rows (n + 1) plan ↔
                e.incoming.id ∈ brought rows plan := by
              refine ⟨fun hmem => ?_, brought_newIds⟩
              rcases mem_newIds hmem with hmem | ⟨k, _, heq⟩
              · exact hmem
              · have hin := hknown e List.mem_cons_self
                rw [heq] at hin
                exact absurd hin (hfresh.unknown k)
            simp [hnone, hsame]
      · simp [hnone, ih hrest]

/-- What makes the ids distinct again. -/
theorem distinct_iff {fresh : Nat → Text} {rows : List Computer}
    (hrows : Distinct rows) {plan : List ImportPlanEntry} {known : List Text}
    (hfresh : Unique fresh known) (hids : ∀ id ∈ ids rows, id ∈ known)
    (hknown : ∀ e ∈ plan, e.incoming.id ∈ known) {now : List Computer}
    {n : Nat} (hnow : ids now = ids rows ++ newIds fresh rows n plan) :
    Distinct now ↔ Appendable rows plan := by
  have hapart : (∀ id ∈ newIds fresh rows n plan, id ∉ ids rows) ↔
      ∀ id ∈ brought rows plan, id ∉ ids rows := by
    refine ⟨fun h id hid => h id (brought_newIds hid), fun h id hid => ?_⟩
    rcases mem_newIds hid with hid | ⟨k, _, rfl⟩
    · exact h id hid
    · exact fun hmem => hfresh.unknown k (hids _ hmem)
  have hnodup : (ids now).Nodup ↔ Appendable rows plan := by
    rw [hnow, List.nodup_append, and_iff_right hrows.nodup, Appendable,
      nodup_newIds hfresh hknown, ← hapart]
    exact and_congr_right fun _ => ⟨fun h id hid hmem => h id hmem id hid rfl,
      fun h id hid id' hid' heq => h id' hid' (heq ▸ hid)⟩
  refine ⟨fun h => hnodup.mp h.nodup, fun h => ⟨hnodup.mpr h, ?_⟩⟩
  intro id hid
  rw [hnow, List.mem_append] at hid
  rcases hid with hid | hid
  · exact hrows.named id hid
  · rcases mem_newIds hid with hid | ⟨k, _, rfl⟩
    · exact (brought_subset hid).1
    · exact hfresh.named k

/-! ## Rows that are there -/

/-- The row each entry is applied to, where it is not appended. -/
def targets (fresh : Nat → Text) :
    Nat → List Computer → List ImportPlanEntry → List (Option Nat)
  | _, _, [] => []
  | n, rows, e :: plan =>
      targetOf rows e ::
        targets fresh (n + 1) (applyEntry (fresh n) rows e) plan

theorem applyEntry_getElem? (fresh : Text) {rows : List Computer} {i : Nat}
    (hi : i < rows.length) {e : ImportPlanEntry}
    (h : targetOf rows e ≠ some i) :
    (applyEntry fresh rows e)[i]? = rows[i]? := by
  unfold applyEntry
  split
  · next j hj =>
    have hne : j ≠ i := fun heq => h (heq ▸ hj)
    exact List.getElem?_set_ne hne
  · exact List.getElem?_append_left hi

/-- An entry keeps the id of a row that is there. -/
theorem applyEntry_id (fresh : Text) {rows : List Computer} {i : Nat}
    {id : Text} (h : (ids rows)[i]? = some id) (e : ImportPlanEntry) :
    (ids (applyEntry fresh rows e))[i]? = some id := by
  have hlt : i < (ids rows).length := (List.getElem?_eq_some_iff.mp h).1
  rw [ids_applyEntry]
  split
  · rw [List.getElem?_append_left hlt, h]
  · exact h

/-- A row that no entry was matched with stays as it is. -/
theorem applyEntries_untouched (fresh : Nat → Text) {rows : List Computer}
    {i : Nat} {id : Text} (hid : (ids rows)[i]? = some id)
    {plan : List ImportPlanEntry}
    (h : ∀ e ∈ plan, e.matched = .importUpdate → e.existingId ≠ id) (n : Nat) :
    (applyEntries fresh n rows plan)[i]? = rows[i]? := by
  induction plan generalizing n rows with
  | nil => rfl
  | cons e plan ih =>
      have hlt : i < rows.length := by
        rw [← length_ids]
        exact (List.getElem?_eq_some_iff.mp hid).1
      have hother : targetOf rows e ≠ some i := by
        intro htarget
        obtain ⟨hupdate, hsame⟩ := targetOf_some htarget
        rw [hid] at hsame
        exact h e List.mem_cons_self hupdate (Option.some.inj hsame).symm
      rw [applyEntries, ih (applyEntry_id (fresh n) hid e)
        fun e' he' => h e' (List.mem_cons_of_mem _ he')]
      exact applyEntry_getElem? (fresh n) hlt hother

/-- Only what was matched with a row is applied to it. -/
theorem targets_matched {fresh : Nat → Text} {rows : List Computer} {i n : Nat}
    {id : Text} (hid : (ids rows)[i]? = some id)
    {plan : List ImportPlanEntry} (h : some i ∈ targets fresh n rows plan) :
    ∃ e ∈ plan, e.matched = .importUpdate ∧ e.existingId = id := by
  induction plan generalizing n rows with
  | nil => cases h
  | cons e plan ih =>
      rw [targets] at h
      rcases List.mem_cons.mp h with htarget | hrest
      · obtain ⟨hupdate, hsame⟩ := targetOf_some htarget.symm
        rw [hid] at hsame
        exact ⟨e, List.mem_cons_self, hupdate, (Option.some.inj hsame).symm⟩
      · obtain ⟨e', he', hmatched⟩ :=
          ih (applyEntry_id (fresh n) hid e) hrest
        exact ⟨e', List.mem_cons_of_mem _ he', hmatched⟩

/-- No row is written to by two entries. -/
theorem targets_count {fresh : Nat → Text} {rows : List Computer} {i n : Nat}
    {id : Text} (hid : (ids rows)[i]? = some id)
    {plan : List ImportPlanEntry} (hplan : plan.Pairwise Apart) :
    (targets fresh n rows plan).count (some i) ≤ 1 := by
  induction plan generalizing n rows with
  | nil => exact Nat.zero_le 1
  | cons e plan ih =>
      rw [List.pairwise_cons] at hplan
      rw [targets, List.count_cons]
      have hstep := applyEntry_id (fresh n) hid e
      split
      · next htarget =>
        obtain ⟨hupdate, hsame⟩ := targetOf_some (eq_of_beq htarget)
        rw [hid] at hsame
        have hnone : (targets fresh (n + 1) (applyEntry (fresh n) rows e)
            plan).count (some i) = 0 := by
          rw [List.count_eq_zero]
          intro hmem
          obtain ⟨e', he', hupdate', hid'⟩ := targets_matched hstep hmem
          refine (hplan.1 e' he' hupdate').2 hupdate ?_
          rw [hid', Option.some.inj hsame]
        omega
      · exact ih hstep hplan.2

/-! ## Between the plan and its application -/

/-- A row is removed, or one is added under an id that is not in the list. -/
def Edits (m : ComputerModel) (e : Call × Platform) : Prop :=
  match e with
  | (.removeAt _, _) => True
  | (.addComputer .., a) =>
      (a.fresh 0).isEmpty = false ∧ a.fresh 0 ∉ ids m.computers
  | _ => False

theorem step_computers (m : ComputerModel) (c : Call) (a : Platform) :
    (step json aes m (c, a)).computers = m.computers ∨
      (step json aes m (c, a)).computers = edited a m.computers c := by
  have houtcome : Outcome json aes _ _ _ _ := call_outcome c a m
  rw [step]
  generalize m.call json aes c a = r at houtcome ⊢
  cases houtcome with
  | refused m' _ hcomputers _ _ => exact .inl hcomputers
  | idle _ => exact .inl rfl
  | inMemory _ => exact .inr rfl
  | saved m' _ _ hcomputers _ _ => exact .inr hcomputers

/-- The list of the model has distinct ids. -/
def Sound (m : ComputerModel) : Prop := Distinct m.computers

theorem sound_step {m : ComputerModel} {e : Call × Platform} (h : Sound m)
    (he : Edits m e) : Sound (step json aes m e) := by
  obtain ⟨c, a⟩ := e
  have hcases : (step json aes m (c, a)).computers = m.computers ∨ _ :=
    step_computers m c a
  rcases hcases with heq | heq
  · rw [Sound, heq]
    exact h
  · rw [Sound, heq]
    cases c with
    | removeAt row =>
        rw [edited]
        split
        · next i _ =>
          have hsub : (ids (m.computers.eraseIdx i)).Sublist
              (ids m.computers) :=
            (List.eraseIdx_sublist _ _).map _
          exact ⟨h.nodup.sublist hsub, fun id hid => h.named id (hsub.mem hid)⟩
        · exact h
    | addComputer name host user pass tls =>
        have hids : ids (edited a m.computers
            (.addComputer name host user pass tls)) =
              ids m.computers ++ [a.fresh 0] := by
          simp [edited, ids]
        refine ⟨?_, ?_⟩
        · rw [hids, List.nodup_append]
          refine ⟨h.nodup, List.pairwise_singleton _ _, ?_⟩
          rintro id hid id' hid' rfl
          exact he.2 (List.mem_singleton.mp hid' ▸ hid)
        · intro id hid
          rw [hids, List.mem_append, List.mem_singleton] at hid
          rcases hid with hid | rfl
          · exact h.named id hid
          · exact he.1
    | setData | addTrustedFingerprint | setSshConfig | addTrustedSshHostKey
    | applyImport => exact he.elim

/-! ## Import -/

/-- The list cannot be written out. -/
def Unsaved (a : Platform) (m : ComputerModel) : Prop :=
  m.attached = true ∧ a.writing ≠ .done

instance (a : Platform) (m : ComputerModel) : Decidable (Unsaved a m) :=
  inferInstanceAs (Decidable (_ ∧ _))

theorem saveComputers_fst (s : ConfigStore) (arr : List Json) (w : Writing) :
    (s.saveComputers json arr w).1 = decide (w = .done) := by
  cases w <;> rfl

theorem applyImport_computers (a : Platform) (plan : List ImportPlanEntry)
    (m : ComputerModel) :
    (m.applyImport json aes a plan).2.computers =
      if Unsaved a m then m.computers
      else applyEntries a.fresh 0 m.computers plan := by
  unfold applyImport mutate persist Unsaved
  dsimp only
  by_cases hattached : m.attached = true
  · generalize applyEntries a.fresh 0 m.computers plan = rows
    have hsave : (m.store.saveComputers json (toJsonArray aes a rows)
        a.writing).1 = _ := saveComputers_fst _ _ _
    rw [if_neg (by simp [hattached])]
    generalize m.store.saveComputers json _ a.writing = r at hsave
    obtain ⟨ok, s'⟩ := r
    change ok = _ at hsave
    subst hsave
    by_cases hw : a.writing = .done <;> simp [hattached, hw]
  · simp [hattached]

/-- What an import is to keep: the ids are distinct and not empty, no row is
overwritten by two entries, and none changes that no entry was matched with. -/
structure Imported (fresh : Nat → Text) (plan : List ImportPlanEntry)
    (before after : List Computer) : Prop where
  distinct : Distinct after
  once : ∀ i < before.length,
    (targets fresh 0 before plan).count (some i) ≤ 1
  others : ∀ (i : Nat) id, (ids before)[i]? = some id →
    (∀ e ∈ plan, e.matched = .importUpdate → e.existingId ≠ id) →
      after[i]? = before[i]?

/-- An import keeps that exactly where the ids that its entries bring along to
be appended are distinct, also from those in the list. -/
theorem import_distinct_iff (json : JsonText) (aes : AesCtr)
    (fold : Text → Text) (m : ComputerModel) (hm : Distinct m.computers)
    (incoming : List Computer) (between : List (Call × Platform))
    (hbetween : ∀ x ∈ trail (step json aes) m between, Edits x.1 x.2)
    (a : Platform)
    (hfresh : Unique a.fresh (ids m.computers ++
      ids (run (step json aes) m between).computers ++ ids incoming)) :
    let plan := m.planImport fold incoming
    let now := run (step json aes) m between
    Imported a.fresh plan now.computers
        (now.applyImport json aes a plan).2.computers ↔
      Unsaved a now ∨ Appendable now.computers plan := by
  intro plan now
  have hsteps : ∀ m e, Sound m → Edits m e → Sound (step json aes m e) :=
    fun _ _ => sound_step
  have hnow : Sound now :=
    invariant_of_trail hsteps hm hbetween between
      (List.prefix_refl _)
  have hplan : plan.Pairwise Apart := planLoop_apart hm
  have honce : ∀ i < now.computers.length,
      (targets a.fresh 0 now.computers plan).count (some i) ≤ 1 := by
    intro i hi
    have hid := getElem?_ids now.computers i
    rw [List.getElem?_eq_getElem hi, Option.map_some] at hid
    exact targets_count hid hplan
  rw [applyImport_computers]
  split
  · next hunsaved =>
    refine iff_of_true ⟨hnow, honce, fun _ _ _ _ => rfl⟩ (.inl hunsaved)
  · next hsaved =>
    have hexisting : ∀ n, ∀ e ∈ plan, e.existingId ≠ a.fresh n := by
      intro n e he heq
      by_cases hupdate : e.matched = .importUpdate
      · obtain ⟨i, _, hid⟩ := planLoop_existing e he hupdate
        refine hfresh.unknown n ?_
        rw [← heq, List.mem_append, List.mem_append]
        exact .inl (.inl (List.mem_of_getElem? hid))
      · have hnamed := hfresh.named n
        rw [← heq, planLoop_unmatched e he hupdate] at hnamed
        cases hnamed
    have hids : ids (applyEntries a.fresh 0 now.computers plan) =
        ids now.computers ++ newIds a.fresh now.computers 0 plan :=
      ids_applyEntries hplan hexisting 0 (List.append_nil _).symm
        (fun _ _ _ => List.not_mem_nil)
    have hiff : Distinct (applyEntries a.fresh 0 now.computers plan) ↔
        Appendable now.computers plan :=
      distinct_iff hnow hfresh
        (fun id hid => by
          simp only [List.mem_append]
          exact .inl (.inr hid))
        (fun e he => by
          simp only [List.mem_append]
          refine .inr ?_
          have hall : plan.map (·.incoming) = incoming :=
            planLoop_incoming m.computers [] incoming
          have hmem : e.incoming ∈ incoming :=
            hall ▸ List.mem_map_of_mem he
          exact List.mem_map_of_mem hmem) hids
    rw [or_iff_right hsaved, ← hiff]
    exact ⟨Imported.distinct, fun h => ⟨h, honce, fun i id hid hother =>
      applyEntries_untouched a.fresh hid hother 0⟩⟩

/-! ## An entry twice -/

/-- The uuids of the examples: a letter, over and over. -/
def letters (n : Nat) : Text := .ofLatin1 (List.replicate (n + 1) 0x7A)

/-- A row that stands in the list, under a name of its own. -/
def machine (id : String) : Computer :=
  { id := .lit id, name := .lit id, host := .lit id }

theorem letters_unique {known : List Text}
    (h : ∀ id ∈ known, ∃ c ∈ id.utf8, c ≠ 0x7A) : Unique letters known := by
  have hutf8 : ∀ n, (letters n).utf8 = List.replicate (n + 1) 0x7A := by
    intro n
    refine Text.ofLatin1_ascii fun x hx => ?_
    rw [List.eq_of_mem_replicate hx]
    decide
  refine ⟨fun n k heq => ?_, fun n => ?_, fun n hmem => ?_⟩
  · have hlength := congrArg (fun t => t.utf8.length) heq
    simp only [hutf8, List.length_replicate] at hlength
    omega
  · rw [Text.isEmpty, hutf8]
    rfl
  · obtain ⟨c, hc, hne⟩ := h _ hmem
    rw [hutf8] at hc
    exact hne (List.eq_of_mem_replicate hc)

/-- A machine that is in the list and one that is not, imported after the first
was removed. -/
theorem import_distinct_iff_removed :
    let m : ComputerModel := { computers := [machine "A"] }
    let incoming := [machine "A", machine "B"]
    let between : List (Call × Platform) := [(.removeAt 0, {})]
    let a : Platform := { fresh := letters }
    let plan := m.planImport id incoming
    let now := run (step qtJson SecretCodec.zeroStream) m between
    Imported a.fresh plan now.computers
        (now.applyImport qtJson SecretCodec.zeroStream a plan).2.computers ↔
      Unsaved a now ∨ Appendable now.computers plan := by
  refine import_distinct_iff qtJson SecretCodec.zeroStream id _
    ⟨by decide, by decide⟩ _ _ (fun x hx => ?_) _
    (letters_unique (by decide))
  rw [List.mem_singleton.mp hx]
  trivial

/-- One machine twice in a backup, imported where it is not in the list. -/
theorem import_duplicates :
    let m : ComputerModel := {}
    let a : Platform := { fresh := letters }
    let plan := m.planImport id [machine "A", machine "A"]
    let r := m.applyImport qtJson SecretCodec.zeroStream a plan
    Distinct m.computers ∧ r.1 = true ∧
      ids r.2.computers = [.lit "A", .lit "A"] ∧
      ¬Distinct r.2.computers := by
  refine ⟨⟨by decide, by decide⟩, by decide, by decide,
    fun h => ?_⟩
  have hnodup := h.nodup
  revert hnodup
  decide

end QuMesh.App.ComputerModel
