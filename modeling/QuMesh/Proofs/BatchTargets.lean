import QuMesh.App.BatchController
import QuMesh.Proofs.ImportIds

/-!
# The machine that was selected

A job is a row, and the row is looked up when the job is dispatched. Nothing
that is done to the list but a removal moves a row: edits keep the ids in their
rows, what is added comes last, and an import writes to a row or appends. So
the rows in front of every row that was removed hold the ids they held when the
batch was started, `Standing`, and a job among them reaches the computer that
was selected.
-/

namespace QuMesh.App.BatchController

open QuMesh.Lib ComputerModel

variable {json : JsonText} {aes : AesCtr}

/-- The rows of a list from before, up to the first that was removed. -/
def Standing (before : List Text) (removed : List Nat) (now : List Text) :
    Prop :=
  ∀ i, i < before.length → (∀ k ∈ removed, i < k) → now[i]? = before[i]?

/-- What was sent went to the computer that was selected. -/
def OnTarget (s : BatchController) : Prop :=
  ∀ x ∈ s.sent, x.selected = some x.target

/-- What a step sends goes to the endpoint that a computer of the list has at
that moment, under the id of this computer. -/
def Addressed (s t : BatchController) : Prop :=
  ∀ x ∈ t.sent.drop s.sent.length, ∃ m c, s.model = some m ∧
    c ∈ m.computers ∧ x.target = c.id ∧ x.endpoint = endpointForRow c

structure Sound (s : BatchController) : Prop where
  standing : Standing s.atStart s.removed (idsOf s.model)
  sent : OnTarget s

/-- A job is dispatched only where its row, if it is one, was one at the start,
and no row up to it was removed since. -/
def Steady (s : BatchController) : Event → Prop
  | .resume => ∀ row ∈ nextRow s.runner, 0 ≤ row →
      row < (idsOf s.model).length →
        row < s.atStart.length ∧ ∀ k ∈ s.removed, row < k
  | _ => True

instance (s : BatchController) (e : Event) : Decidable (Steady s e) := by
  unfold Steady
  split <;> infer_instance

/-! ## Edits of the list -/

theorem ids_modify (rows : List Computer) (i : Nat) {f : Computer → Computer}
    (hf : ∀ c, (f c).id = c.id) : ids (rows.modify i f) = ids rows := by
  induction rows generalizing i with
  | nil => simp [ids]
  | cons c rows ih =>
      cases i with
      | zero => simp [ids, hf]
      | succ i =>
          have hrest := ih i
          simp only [ids] at hrest
          simp [ids, hrest]

theorem roleEdit_id {value : Variant} {role : Role} {f : Computer → Computer}
    (h : roleEdit value role = some f) (c : Computer) : (f c).id = c.id := by
  cases role <;> cases h <;> rfl

theorem applyEntries_ids (fresh : Nat → Text) {i : Nat} {id : Text}
    (plan : List ImportPlanEntry) {n : Nat} {rows : List Computer}
    (h : (ids rows)[i]? = some id) :
    (ids (applyEntries fresh n rows plan))[i]? = some id := by
  induction plan generalizing n rows with
  | nil => exact h
  | cons e plan ih => exact ih (applyEntry_id (fresh n) h e)

/-- No edit but a removal moves a row, and a removal none in front of it. -/
theorem edited_ids (a : Platform) {rows : List Computer} (c : Call) {i : Nat}
    {id : Text} (h : (ids rows)[i]? = some id)
    (hremoved : ∀ row, c = .removeAt row → ∀ k ∈ rowOf rows row, i < k) :
    (ids (edited a rows c))[i]? = some id := by
  cases c with
  | setData row value role =>
      rw [edited]
      split
      · next hedit => rw [ids_modify _ _ (roleEdit_id hedit), h]
      · exact h
  | addTrustedFingerprint row fingerprint =>
      rw [edited]
      split
      · split
        · exact h
        · rw [ids_modify]
          · exact h
          · exact fun _ => rfl
      · exact h
  | setSshConfig row cfg =>
      rw [edited]
      split
      · rw [ids_modify]
        · exact h
        · exact fun _ => rfl
      · exact h
  | addTrustedSshHostKey row fingerprint =>
      rw [edited]
      split
      · split
        · exact h
        · rw [ids_modify]
          · exact h
          · exact fun _ => rfl
      · exact h
  | addComputer name host user pass tls =>
      have hlt := (List.getElem?_eq_some_iff.mp h).1
      rw [edited, ids, List.map_append]
      exact (List.getElem?_append_left hlt).trans h
  | removeAt row =>
      rw [edited]
      split
      · next k hk =>
        have hlt := hremoved row rfl k hk
        rw [getElem?_ids, List.getElem?_eraseIdx_of_lt hlt, ← getElem?_ids, h]
      · exact h
  | applyImport plan => exact applyEntries_ids a.fresh plan h

theorem Standing.edit {before : List Text} {removed : List Nat}
    {m : ComputerModel} (h : Standing before removed (idsOf (some m)))
    (c : Call) (a : Platform) :
    Standing before (if (m.call json aes c a).1 then
        (removal m c).toList ++ removed else removed)
      (idsOf (some (m.call json aes c a).2)) := by
  intro i hi hfree
  have hlist : ∀ m : ComputerModel, idsOf (some m) = ids m.computers :=
    fun _ => rfl
  have hold : (ids m.computers)[i]? = before[i]? := by
    refine h i hi fun k hk => hfree k ?_
    split
    · exact List.mem_append_right _ hk
    · exact hk
  rw [List.getElem?_eq_getElem hi] at hold ⊢
  rw [hlist]
  have hcases : (ComputerModel.step json aes m (c, a)).computers =
      m.computers ∨ _ :=
    step_computers m c a
  change (m.call json aes c a).2.computers = m.computers ∨ _ at hcases
  cases hok : (m.call json aes c a).1 with
  | false => rw [call_failed hok, hold]
  | true =>
      rcases hcases with heq | heq
      · rw [heq, hold]
      · change (m.call json aes c a).2.computers = _ at heq
        rw [heq]
        refine edited_ids a c hold fun row hrow k hk => hfree k ?_
        subst hrow
        rw [if_pos hok]
        refine List.mem_append_left _ ?_
        rw [Option.mem_def] at hk
        simp [removal, hk]

/-! ## Runs -/

theorem dispatch_client {model : Option ComputerModel} {row : Int}
    {c : Computer} (h : dispatch model row = .client c) :
    0 ≤ row ∧ ∃ m, model = some m ∧ m.computers[row.toNat]? = some c := by
  unfold dispatch at h
  split at h
  · cases h
  next m =>
  split at h
  · cases h
  next hrow =>
  rw [not_or, Int.not_lt, Int.not_le] at hrow
  dsimp only at h
  split at h
  · cases h
  split at h
  · cases h
  have hat : rowOf m.computers row = some row.toNat := if_pos hrow
  have hlt : row.toNat < m.computers.length := by omega
  cases h
  refine ⟨hrow.1, m, rfl, ?_⟩
  simp [computerAt, hat, List.getElem?_eq_getElem hlt]

theorem Sound.runner {s : BatchController} (h : Sound s)
    (r : BatchRunner Unit) : Sound { s with runner := r } := ⟨h.standing, h.sent⟩

theorem Sound.call {s : BatchController} (h : Sound s) {row : Int}
    (hrow : 0 ≤ row → row < (idsOf s.model).length →
      row < s.atStart.length ∧ ∀ k ∈ s.removed, row < k) :
    Sound (s.call row) := by
  unfold BatchController.call
  split
  · exact h.runner _
  · next c hc =>
    obtain ⟨hpos, m, hm, hget⟩ := dispatch_client hc
    have hlist : idsOf s.model = ids m.computers := by
      rw [hm]
      rfl
    have hlt := (List.getElem?_eq_some_iff.mp hget).1
    rw [hlist, length_ids] at hrow
    obtain ⟨hstart, hfree⟩ := hrow hpos (by omega)
    have hsame := h.standing row.toNat (by omega) fun k hk => by
      have := hfree k hk
      omega
    refine ⟨h.standing, fun x hx => ?_⟩
    rcases List.mem_append.mp hx with hx | hx
    · exact h.sent x hx
    · rw [List.mem_singleton.mp hx]
      change s.selected row = some c.id
      rw [selected, if_neg (by omega), ← hsame, hlist, getElem?_ids, hget]
      rfl

theorem Sound.resume {s : BatchController} (h : Sound s)
    (hsteady : Steady s .resume) : Sound s.resume := by
  unfold BatchController.resume
  dsimp only
  split
  · next row hrow => exact (h.runner _).call (hsteady row hrow)
  · exact h.runner _

theorem Sound.start {s : BatchController} (h : Sound s) (rows : List Int)
    (action : Int) : Sound (s.start rows action) := by
  unfold BatchController.start
  split
  · exact h
  · dsimp only
    split
    · exact h.runner _
    · exact ⟨fun i _ _ => rfl, h.sent⟩

theorem Sound.edit {s : BatchController} (h : Sound s) (c : Call)
    (a : Platform) : Sound (s.edit json aes c a) := by
  unfold BatchController.edit
  split
  · exact h
  · next m hm =>
    have hstanding := h.standing
    rw [hm] at hstanding
    exact ⟨hstanding.edit c a, h.sent⟩

theorem step_sound {s : BatchController} (h : Sound s) {e : Event}
    (he : Steady s e) : Sound (step json aes s e) := by
  cases e with
  | start rows action => exact h.start rows action
  | retryFailed => exact h.runner _
  | reply n r => exact h.runner _
  | resume => exact h.resume he
  | edit c a => exact h.edit c a

theorem Addressed.of_sent {s t : BatchController} (h : t.sent = s.sent) :
    Addressed s t := by
  intro x hx
  rw [h, List.drop_length] at hx
  cases hx

theorem addressed_call (row : Int) (s : BatchController) :
    Addressed s (s.call row) := by
  unfold BatchController.call
  split
  · exact .of_sent rfl
  · next c hc =>
    obtain ⟨-, m, hm, hget⟩ := dispatch_client hc
    intro x hx
    rw [List.drop_left, List.mem_singleton] at hx
    subst hx
    exact ⟨m, c, hm, List.mem_of_getElem? hget, rfl, rfl⟩

theorem step_addressed (s : BatchController) (e : Event) :
    Addressed s (step json aes s e) := by
  cases e with
  | start rows action =>
      refine .of_sent ?_
      show (s.start rows action).sent = s.sent
      unfold BatchController.start
      split
      · rfl
      · dsimp only
        split <;> rfl
  | retryFailed => exact .of_sent rfl
  | reply n r => exact .of_sent rfl
  | resume =>
      show Addressed s s.resume
      unfold BatchController.resume
      dsimp only
      split
      · next row _ => exact addressed_call row { s with runner := s.runner.resume }
      · exact .of_sent rfl
  | edit c a =>
      refine .of_sent ?_
      show (s.edit json aes c a).sent = s.sent
      unfold BatchController.edit
      split <;> rfl

/-- In every run that dispatches no job after a row up to its own was removed,
and none for a row that was not there at the start, all that is sent goes to
the computer that was selected, at the endpoint it has when it is sent. -/
theorem batch_on_target (json : JsonText) (aes : AesCtr)
    (model : Option ComputerModel) (es : List Event)
    (h : ∀ x ∈ trail (step json aes) { model } es, Steady x.1 x.2) :
    (∀ early, early <+: es → OnTarget (run (step json aes) { model } early)) ∧
      ∀ x ∈ trail (step json aes) { model } es,
        Addressed x.1 (step json aes x.1 x.2) := by
  have hsteps : ∀ s e, Sound s → Steady s e → Sound (step json aes s e) :=
    fun _ _ hs he => step_sound hs he
  have hinitial : Sound { model } := ⟨fun _ hi => absurd hi (by simp), by
    simp [OnTarget]⟩
  refine ⟨fun early hearly => ?_, fun x _ => step_addressed x.1 x.2⟩
  exact (invariant_of_trail hsteps hinitial h early hearly).sent

/-! ## A removal during the batch -/

def threeMachines : ComputerModel :=
  { computers := [
      { id := .lit "A", host := .lit "a" }, { id := .lit "B", host := .lit "b" },
      { id := .lit "C", host := .lit "c" }] }

/-- The second machine is powered off; another one is added meanwhile. -/
theorem batch_on_target_added :
    let s : BatchController := { model := some threeMachines }
    let es : List Event := [.start [1] 3, .resume,
      .edit (.addComputer (.lit "d") (.lit "d") .empty .empty false) {},
      .resume]
    (run (step qtJson SecretCodec.zeroStream) s es).sent.length = 1 ∧
      (∀ early, early <+: es →
        OnTarget (run (step qtJson SecretCodec.zeroStream) s early)) ∧
      ∀ x ∈ trail (step qtJson SecretCodec.zeroStream) s es,
        Addressed x.1 (step qtJson SecretCodec.zeroStream x.1 x.2) :=
  ⟨by decide, batch_on_target _ _ _ _ (by decide)⟩

/-- The first machine is removed before the second is powered off: the third
is. -/
theorem batch_off_target :
    let s : BatchController := { model := some threeMachines }
    let es : List Event := [.start [1] 3, .edit (.removeAt 0) {}, .resume,
      .resume]
    (run (step qtJson SecretCodec.zeroStream) s es).sent =
      [{ row := 1
         target := .lit "C"
         endpoint := { tls := false, host := .lit "c", port := 16992 }
         operation := some (.requestPowerStateChange 12)
         selected := some (.lit "B") }] := by
  decide

end QuMesh.App.BatchController
