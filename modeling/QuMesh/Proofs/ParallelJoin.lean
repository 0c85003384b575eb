import QuMesh.Lib.Schedules
import QuMesh.Wsman.ParallelReads

/-!
# Enumerations that run side by side

A reply to one enumeration leaves the other ones alone, and so does its
callback, which writes to places of its own. What could depend on the order is
the merging, and it is done by the last callback, when all the places are
written. `Join` says this of the record that the callbacks share; the rest is
the same for the two functions.
-/

namespace QuMesh.Wsman

open QuMesh.Lib QuMesh.Lib.Xml

/-! ## One enumeration -/

/-- A reply is followed by another request, or it ends the enumeration, with one
call. -/
theorem Enumeration.reply_cases {s : Enumeration} (h : s.waiting ≠ none)
    (r : Outcome) :
    ((s.reply r).waiting ≠ none ∧ (s.reply r).calls = s.calls) ∨
      (s.reply r).waiting = none ∧
        ∃ items error, (s.reply r).calls = s.calls ++ [(items, error)] := by
  cases hwait : s.waiting with
  | none => exact absurd hwait h
  | some request =>
      cases hreply : r.response with
      | error error =>
          simp only [Enumeration.reply, hwait, hreply]
          exact .inr ⟨rfl, [], error, rfl⟩
      | ok soap =>
          cases request with
          | enumerate =>
              simp only [Enumeration.reply, hwait, hreply]
              split
              · exact .inr ⟨rfl, s.items, "", rfl⟩
              · exact .inl ⟨by simp, rfl⟩
          | pull context =>
              simp only [Enumeration.reply, hwait, hreply]
              split
              · exact .inr ⟨rfl, _, _, rfl⟩
              · exact .inl ⟨by simp, rfl⟩

/-! ## What the callbacks share -/

/-- Callbacks that each write to places of their own and of which the last one
calls back. -/
structure Join {κ δ ρ : Type}
    (onDone : κ → List (List Token) → String → δ → δ)
    (calls : δ → List ρ) (done : δ → κ → Prop) (Good : δ → Prop) : Prop where
  good : ∀ {k items error d}, Good d → ¬done d k → Good (onDone k items error d)
  marks : ∀ {k items error d l}, done (onDone k items error d) l ↔
    l = k ∨ done d l
  comm : ∀ {k l items error items' error' d}, Good d → ¬done d k → ¬done d l →
    k ≠ l → onDone l items' error' (onDone k items error d) =
      onDone k items error (onDone l items' error' d)
  early : ∀ {d}, Good d → (¬∀ k, done d k) → calls d = []
  once : ∀ {d}, Good d → (∀ k, done d k) → (calls d).length = 1

section

variable {κ δ ρ : Type} {store : κ → List (List Token) → String → δ → δ}
  {maybeFire : δ → δ} {fired : δ → Bool} {calls : δ → List ρ}
  {done : δ → κ → Prop}

/-- Nothing was called before all are done, and one call was made then. -/
structure Unfired (fired : δ → Bool) (calls : δ → List ρ) (done : δ → κ → Prop)
    (d : δ) : Prop where
  early : (¬∀ k, done d k) → fired d = false ∧ calls d = []
  once : (∀ k, done d k) → (calls d).length = 1

/-- A callback that writes to its place and calls back where all are done. -/
structure Stores (store : κ → List (List Token) → String → δ → δ)
    (maybeFire : δ → δ) (fired : δ → Bool) (calls : δ → List ρ)
    (done : δ → κ → Prop) : Prop where
  marks : ∀ {k items error d l}, done (store k items error d) l ↔
    l = k ∨ done d l
  comm : ∀ {k l items error items' error' d}, k ≠ l →
    store l items' error' (store k items error d) =
      store k items error (store l items' error' d)
  kept : ∀ {k items error d}, fired (store k items error d) = fired d ∧
    calls (store k items error d) = calls d
  waits : ∀ {d}, (¬∀ k, done d k) → maybeFire d = d
  fires : ∀ {d}, fired d = false → (∀ k, done d k) →
    ∃ r, calls (maybeFire d) = calls d ++ [r]
  done_fire : ∀ {d}, done (maybeFire d) = done d

theorem Stores.join (h : Stores store maybeFire fired calls done) :
    Join (fun k items error d => maybeFire (store k items error d)) calls done
      (Unfired fired calls done) where
  good {k items error d} hd hk := by
    obtain ⟨hfired, hcalls⟩ := hd.early fun hall => hk (hall k)
    obtain ⟨hsame, hkept⟩ := @h.kept k items error d
    by_cases hall : ∀ l, done (store k items error d) l
    · obtain ⟨r, hr⟩ := h.fires (hsame.trans hfired) hall
      refine ⟨fun hopen => absurd ?_ hopen, fun _ => ?_⟩
      · rw [h.done_fire]
        exact hall
      · rw [hr, hkept, hcalls]
        rfl
    · rw [h.waits hall]
      exact ⟨fun _ => ⟨hsame.trans hfired, hkept.trans hcalls⟩,
        fun h => absurd h hall⟩
  marks {k items error d l} := by
    rw [h.done_fire]
    exact h.marks
  comm {k l items error items' error' d} _ hk hl hkl := by
    have hopen : ∀ {m m' : κ} (items : List (List Token)) (error : String),
        m ≠ m' → ¬done d m' → ¬∀ n, done (store m items error d) n := by
      intro m m' items error hm hopen hall
      rcases h.marks.mp (hall m') with heq | hdone
      · exact hm heq.symm
      · exact hopen hdone
    rw [h.waits (hopen items error hkl hl),
      h.waits (hopen items' error' hkl.symm hk), h.comm hkl]
  early hd hopen := (hd.early hopen).2
  once hd hall := hd.once hall

end

namespace Parallel

variable {κ δ ρ : Type} [DecidableEq κ]
  {onDone : κ → List (List Token) → String → δ → δ}
  {calls : δ → List ρ} {done : δ → κ → Prop} {Good : δ → Prop}

/-- The callback of an enumeration has run when it has no request out. -/
structure Inv (done : δ → κ → Prop) (Good : δ → Prop) (s : Parallel κ δ) :
    Prop where
  good : Good s.shared
  done_iff : ∀ k, done s.shared k ↔ ¬s.ready k

/-- A step: another request is out, or the callback is run. -/
theorem step_cases {s : Parallel κ δ} {k : κ} (h : s.ready k)
    (answer : κ → Nat → Outcome) :
    ((step onDone answer s k).ready k ∧
        (step onDone answer s k).shared = s.shared) ∨
      ¬(step onDone answer s k).ready k ∧
        ∃ items error, (step onDone answer s k).shared =
          onDone k items error s.shared := by
  rcases Enumeration.reply_cases h (answer k (s.replies k)) with
    ⟨hwait, hcalls⟩ | ⟨hwait, items, error, hcalls⟩
  · refine .inl ⟨?_, ?_⟩
    · simpa [ready, step] using hwait
    · simp [step, hcalls]
  · refine .inr ⟨?_, items, error, ?_⟩
    · simpa [ready, step] using hwait
    · simp [step, hcalls]

/-- The other enumerations go on as they were. -/
theorem step_other (answer : κ → Nat → Outcome) (s : Parallel κ δ) {k l : κ}
    (h : l ≠ k) :
    (step onDone answer s k).running l = s.running l ∧
      (step onDone answer s k).replies l = s.replies l :=
  ⟨Function.update_of_ne h _ _, Function.update_of_ne h _ _⟩

theorem ready_other (answer : κ → Nat → Outcome) (s : Parallel κ δ) {k l : κ}
    (h : l ≠ k) : (step onDone answer s k).ready l ↔ s.ready l := by
  rw [ready, (step_other answer s h).1]
  exact Iff.rfl

theorem Inv.step (hjoin : Join onDone calls done Good) {s : Parallel κ δ}
    (hs : s.Inv done Good) {k : κ} (h : s.ready k)
    (answer : κ → Nat → Outcome) :
    (step onDone answer s k).Inv done Good := by
  have hopen : ¬done s.shared k := fun hdone => (hs.done_iff k).mp hdone h
  rcases step_cases h answer with ⟨hready, hshared⟩ | ⟨hready, items, error, hshared⟩
  · refine ⟨by rw [hshared]; exact hs.good, fun l => ?_⟩
    rw [hshared]
    by_cases hl : l = k
    · rw [hl]
      exact iff_of_false hopen fun hnot => hnot hready
    · rw [ready_other answer s hl]
      exact hs.done_iff l
  · refine ⟨by rw [hshared]; exact hjoin.good hs.good hopen, fun l => ?_⟩
    rw [hshared, hjoin.marks]
    by_cases hl : l = k
    · rw [hl]
      exact iff_of_true (.inl rfl) hready
    · rw [ready_other answer s hl, or_iff_right hl]
      exact hs.done_iff l

/-- What a step does depends on its own enumeration alone. -/
theorem step_local {s : Parallel κ δ} {k : κ} (h : s.ready k)
    (answer : κ → Nat → Outcome) :
    ∃ after replies, ∃ call : Option (List (List Token) × String),
      ∀ t : Parallel κ δ, t.running k = s.running k →
        t.replies k = s.replies k → Parallel.step onDone answer t k =
          { running := Function.update t.running k after
            replies := Function.update t.replies k replies
            shared := call.elim t.shared fun c =>
              onDone k c.1 c.2 t.shared } := by
  have hstep : ∀ call : Option (List (List Token) × String),
      ((s.running k).reply (answer k (s.replies k))).calls =
        (s.running k).calls ++ call.toList →
      ∃ after replies, ∃ call : Option (List (List Token) × String),
        ∀ t : Parallel κ δ, t.running k = s.running k →
          t.replies k = s.replies k → Parallel.step onDone answer t k =
            { running := Function.update t.running k after
              replies := Function.update t.replies k replies
              shared := call.elim t.shared fun c =>
                onDone k c.1 c.2 t.shared } := by
    intro call hcalls
    refine ⟨(s.running k).reply (answer k (s.replies k)), s.replies k + 1, call,
      fun t hrunning hreplies => ?_⟩
    simp only [Parallel.step, hrunning, hreplies, hcalls, List.drop_left]
    cases call <;> rfl
  rcases Enumeration.reply_cases h (answer k (s.replies k)) with
    ⟨-, hcalls⟩ | ⟨-, items, error, hcalls⟩
  · exact hstep none (by rw [hcalls]; exact (List.append_nil _).symm)
  · exact hstep (some (items, error)) hcalls

/-- Replies to two enumerations can come in either order. -/
theorem step_comm (hjoin : Join onDone calls done Good) {s : Parallel κ δ}
    (hs : s.Inv done Good) {k l : κ} (hk : s.ready k) (hl : s.ready l)
    (hkl : k ≠ l) (answer : κ → Nat → Outcome) :
    Parallel.step onDone answer (Parallel.step onDone answer s k) l =
      Parallel.step onDone answer (Parallel.step onDone answer s l) k := by
  obtain ⟨hrunl, hrepl⟩ :=
    @step_other _ _ _ onDone answer s k l (fun h => hkl h.symm)
  obtain ⟨hrunk, hrepk⟩ := @step_other _ _ _ onDone answer s l k hkl
  obtain ⟨afterk, repliesk, callk, hstepk⟩ :=
    @step_local _ _ _ onDone s k hk answer
  obtain ⟨afterl, repliesl, calll, hstepl⟩ :=
    @step_local _ _ _ onDone s l hl answer
  have hopenk : ¬done s.shared k := fun hdone => (hs.done_iff k).mp hdone hk
  have hopenl : ¬done s.shared l := fun hdone => (hs.done_iff l).mp hdone hl
  rw [hstepl _ hrunl hrepl, hstepk _ hrunk hrepk, hstepk s rfl rfl,
    hstepl s rfl rfl]
  simp only [mk.injEq]
  refine ⟨Function.update_comm hkl _ _ _, Function.update_comm hkl _ _ _, ?_⟩
  cases callk with
  | none => rfl
  | some ck =>
      cases calll with
      | none => rfl
      | some cl => exact hjoin.comm hs.good hopenk hopenl hkl

theorem exchange (hjoin : Join onDone calls done Good)
    (answer : κ → Nat → Outcome) :
    Exchange (Parallel.step onDone answer) ready (Inv done Good) where
  keeps hs hk := hs.step hjoin hk answer
  stays _ _ hl hkl := (ready_other answer _ fun h => hkl h.symm).mpr hl
  comm hs hk hl hkl := step_comm hjoin hs hk hl hkl answer

omit [DecidableEq κ] in
theorem Inv.finished {s : Parallel κ δ} (hs : s.Inv done Good) :
    Finished ready s ↔ ∀ k, done s.shared k :=
  forall_congr' fun k => (hs.done_iff k).symm

/-- Enumerations that are started with nothing marked are joined. -/
theorem joinsOnce (hjoin : Join onDone calls done Good) {d : δ}
    (hgood : Good d) (hnone : ∀ k, ¬done d k) (answer : κ → Nat → Outcome) :
    JoinsOnce (Parallel.step onDone answer) ready (fun s => calls s.shared)
      { shared := d } := by
  refine (exchange hjoin answer).joinsOnce ?_ ?_ ⟨hgood, fun k => ?_⟩
  · intro s hs hopen
    exact hjoin.early hs.good fun hall => hopen (hs.finished.mpr hall)
  · intro s hs hend
    exact hjoin.once hs.good (hs.finished.mp hend)
  · exact iff_of_false (hnone k) fun hready => hready nofun

end Parallel

/-! ## The two functions -/

namespace HardwareState

theorem hardwareKinds_all (done : HardwareKind → Bool) :
    hardwareKinds.all done = true ↔ ∀ k, done k = true := by
  rw [List.all_eq_true]
  refine forall_congr' fun k => ?_
  cases k <;> simp [hardwareKinds]

theorem stores (toLower : String → String) :
    Stores store (maybeFire toLower) fired calls
      fun st k => st.done k = true where
  marks {k items error st l} := by
    by_cases hl : l = k
    · rw [hl]
      simp [store]
    · simp [store, hl]
  comm h := by
    simp only [store, Function.update_comm h]
  kept := ⟨rfl, rfl⟩
  waits {st} h := by
    rw [maybeFire, if_neg (mt (hardwareKinds_all st.done).mp h)]
    exact ite_self _
  fires {st} hfired hall := by
    rw [maybeFire, hfired, if_neg (by decide),
      if_pos ((hardwareKinds_all st.done).mpr hall)]
    exact ⟨_, rfl⟩
  done_fire {st} := by
    unfold maybeFire
    split
    · rfl
    · split <;> rfl

end HardwareState

namespace EthernetAcc

def done (acc : EthernetAcc) : EthernetKind → Bool
  | .eth => acc.ethDone
  | .ipv6 => acc.ipv6Done

theorem done_all (acc : EthernetAcc) :
    (!acc.ethDone || !acc.ipv6Done) = false ↔ ∀ k, acc.done k = true := by
  simp only [Bool.or_eq_false_iff, Bool.not_eq_false']
  constructor
  · intro h k
    cases k with
    | eth => exact h.1
    | ipv6 => exact h.2
  · intro h
    exact ⟨h .eth, h .ipv6⟩

theorem stores (isDigit : Char → Bool) :
    Stores store (maybeFire isDigit) fired calls
      fun acc k => acc.done k = true where
  marks {k items error acc l} := by
    cases k <;> cases l <;> simp [store, done]
  comm {k l items error items' error' acc} h := by
    cases k with
    | eth =>
        cases l with
        | eth => exact absurd rfl h
        | ipv6 => rfl
    | ipv6 =>
        cases l with
        | eth => rfl
        | ipv6 => exact absurd rfl h
  kept {k items error acc} := by
    cases k <;> exact ⟨rfl, rfl⟩
  waits {acc} h := by
    have hopen : (!acc.ethDone || !acc.ipv6Done) = true :=
      Bool.of_not_eq_false (mt acc.done_all.mp h)
    rw [maybeFire, if_pos hopen]
    exact ite_self _
  fires {acc} hfired hall := by
    rw [maybeFire, hfired, if_neg (by decide), acc.done_all.mpr hall,
      if_neg (by decide)]
    exact ⟨_, rfl⟩
  done_fire {acc} := by
    funext k
    unfold maybeFire
    split
    · rfl
    · split
      · rfl
      · cases k <;> rfl

end EthernetAcc

/-- `getHardwareInventory` calls back once, when its ten enumerations have
ended, and whatever order their replies came in. -/
theorem hardware_joins (toLower : String → String)
    (answer : HardwareKind → Nat → Outcome) :
    JoinsOnce (Parallel.step (HardwareState.onDone toLower) answer)
      Parallel.ready (fun s => s.shared.calls) { shared := {} } := by
  refine Parallel.joinsOnce (HardwareState.stores toLower).join ?_ ?_ answer
  · exact ⟨fun _ => ⟨rfl, rfl⟩, fun h => absurd (h .chassis) (by decide)⟩
  · exact fun _ => Bool.false_ne_true

/-- The same of `getEthernetSettings` and its two enumerations. -/
theorem ethernet_joins (isDigit : Char → Bool)
    (answer : EthernetKind → Nat → Outcome) :
    JoinsOnce (Parallel.step (EthernetAcc.onDone isDigit) answer)
      Parallel.ready (fun s => s.shared.calls) { shared := {} } := by
  refine Parallel.joinsOnce (EthernetAcc.stores isDigit).join ?_ ?_ answer
  · exact ⟨fun _ => ⟨rfl, rfl⟩, fun h => absurd (h .eth) (by decide)⟩
  · intro k
    cases k <;> decide

end QuMesh.Wsman
