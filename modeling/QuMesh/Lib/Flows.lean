import QuMesh.Lib.Run
import Mathlib.Data.List.Perm.Basic
import Mathlib.Data.List.Range

/-!
# Counting what is under way

Code that lives in an event loop starts a flow, sends a request and goes on in
the callback of the reply, where it sends the next request or ends the flow. A
counter goes up at each start and down at each end. `Code` is what the counter
sees of the code: where it goes up and down, which callback a request gets, and
where the ways part. Which way is taken, when a reply comes, and when other
code is called is left to the run, and all of it may happen at any time, also
while code is running.

A frame of code that is running and a callback that waits carry a flow, or
none. Code `fits` if it starts no flow on top of one it carries, hands a flow
on with each request, and carries none when it is done. Then every flow that
was started and has not ended is carried by one frame or callback, and the
counter is their number.
-/

namespace QuMesh.Lib

inductive Code (τ : Type)
  | done
  | up (next : Code τ)
  | down (next : Code τ)
  | test (t : τ) (yes no : Code τ)
  | request (callback next : Code τ)
  | call (callee next : Code τ)
  deriving DecidableEq, Repr

/-- Whether code fits that carries a flow when it begins. -/
def Code.fits {τ : Type} : Bool → Code τ → Bool
  | carries, done => !carries
  | carries, up next => !carries && next.fits true
  | carries, down next => carries && next.fits false
  | carries, test _ yes no => yes.fits carries && no.fits carries
  | carries, request callback next =>
      carries && callback.fits true && next.fits false
  | carries, call callee next => callee.fits false && next.fits carries

structure Frame (τ : Type) where
  flow : Option Nat
  code : Code τ
  deriving DecidableEq, Repr

structure Flows (τ : Type) where
  counter : Nat := 0
  /-- The innermost first. -/
  running : List (Frame τ) := []
  /-- The callbacks of the requests that are out. -/
  waiting : List (Frame τ) := []
  /-- The number of the next flow. -/
  started : Nat := 0
  ended : List Nat := []
  deriving DecidableEq, Repr

namespace Flows

variable {τ μ : Type}

inductive Turn (μ : Type)
  /-- A piece of code is called. -/
  | invoke (m : μ)
  /-- A reply comes, and its callback runs. -/
  | reply (i : Nat)
  /-- The code that is running makes a step. -/
  | go (yes : Bool)
  deriving DecidableEq, Repr

/-- The counter is not lowered below zero. -/
def lower (s : Flows τ) : Flows τ :=
  { s with counter := if 0 < s.counter then s.counter - 1 else s.counter }

def go (yes : Bool) (s : Flows τ) : Flows τ :=
  match s.running with
  | [] => s
  | ⟨flow, code⟩ :: frames =>
      match code with
      | .done => { s with running := frames }
      | .up next =>
          { s with
            counter := s.counter + 1
            running := ⟨some s.started, next⟩ :: frames
            started := s.started + 1 }
      | .down next =>
          { s.lower with
            running := ⟨none, next⟩ :: frames
            ended := s.ended ++ flow.toList }
      | .test _ t f =>
          { s with running := ⟨flow, if yes then t else f⟩ :: frames }
      | .request callback next =>
          { s with
            running := ⟨none, next⟩ :: frames
            waiting := s.waiting ++ [⟨flow, callback⟩] }
      | .call callee next =>
          { s with running := ⟨none, callee⟩ :: ⟨flow, next⟩ :: frames }

def step (body : μ → Code τ) (s : Flows τ) : Turn μ → Flows τ
  | .invoke m => { s with running := ⟨none, body m⟩ :: s.running }
  | .reply i =>
      match s.waiting[i]? with
      | none => s
      | some callback =>
          { s with
            running := callback :: s.running
            waiting := s.waiting.eraseIdx i }
  | .go yes => s.go yes

/-- The step would lower the counter. -/
def lowers (s : Flows τ) : Turn μ → Prop
  | .go _ => ∃ flow next frames, s.running = ⟨flow, .down next⟩ :: frames
  | _ => False

/-- The flows that were started and have not ended. -/
def underWay (s : Flows τ) : List Nat :=
  (List.range s.started).filter fun f => f ∉ s.ended

def carried (s : Flows τ) : List Nat :=
  s.running.filterMap Frame.flow ++ s.waiting.filterMap Frame.flow

end Flows

def Frame.Fits {τ : Type} (f : Frame τ) : Prop :=
  f.code.fits f.flow.isSome = true

namespace Flows

variable {τ μ : Type} {body : μ → Code τ} {s : Flows τ}

/-- Every flow that was started has ended, or it is carried, once. -/
structure Kept (s : Flows τ) : Prop where
  running : ∀ f ∈ s.running, f.Fits
  waiting : ∀ f ∈ s.waiting, f.flow.isSome = true ∧ f.Fits
  flows : (s.carried ++ s.ended).Perm (List.range s.started)
  counter : s.counter = s.carried.length

theorem kept_none : ({} : Flows τ).Kept where
  running _ h := absurd h List.not_mem_nil
  waiting _ h := absurd h List.not_mem_nil
  flows := .refl _
  counter := rfl

/-- Frames change, and the flows they carry do not. -/
theorem Kept.carry {s' : Flows τ} (h : s.Kept)
    (hrunning : ∀ f ∈ s'.running, f.Fits)
    (hwaiting : ∀ f ∈ s'.waiting, f.flow.isSome = true ∧ f.Fits)
    (hcarried : s'.carried.Perm s.carried) (hstarted : s'.started = s.started)
    (hended : s'.ended = s.ended) (hcounter : s'.counter = s.counter) :
    s'.Kept where
  running := hrunning
  waiting := hwaiting
  flows := by
    rw [hstarted, hended]
    exact (hcarried.append_right _).trans h.flows
  counter := by rw [hcounter, h.counter, hcarried.length_eq]

theorem Kept.invoke (h : s.Kept) {code : Code τ} (hcode : code.fits false = true) :
    Kept { s with running := ⟨none, code⟩ :: s.running } :=
  h.carry (List.forall_mem_cons.mpr ⟨hcode, h.running⟩) h.waiting (.refl _) rfl
    rfl rfl

theorem Kept.reply (h : s.Kept) {i : Nat} {callback : Frame τ}
    (hi : s.waiting[i]? = some callback) :
    Kept { s with
      running := callback :: s.running
      waiting := s.waiting.eraseIdx i } := by
  obtain ⟨hlt, hget⟩ := List.getElem?_eq_some_iff.mp hi
  have hperm : (callback :: s.waiting.eraseIdx i).Perm s.waiting :=
    hget ▸ List.getElem_cons_eraseIdx_perm hlt
  refine h.carry (List.forall_mem_cons.mpr ⟨?_, h.running⟩) (fun f hf => ?_) ?_
    rfl rfl rfl
  · exact (h.waiting callback (hperm.subset List.mem_cons_self)).2
  · exact h.waiting f (List.mem_of_mem_eraseIdx hf)
  · refine .trans ?_ ((hperm.filterMap Frame.flow).append_left
      (s.running.filterMap Frame.flow))
    unfold carried
    cases hflow : callback.flow with
    | none =>
        rw [List.filterMap_cons_none hflow, List.filterMap_cons_none hflow]
    | some f =>
        rw [List.filterMap_cons_some hflow, List.filterMap_cons_some hflow]
        exact List.perm_middle.symm

theorem Kept.up (h : s.Kept) {next : Code τ} {frames : List (Frame τ)}
    (hrunning : s.running = ⟨none, .up next⟩ :: frames) :
    Kept { s with
      counter := s.counter + 1
      running := ⟨some s.started, next⟩ :: frames
      started := s.started + 1 } := by
  have hfits := h.running
  rw [hrunning, List.forall_mem_cons] at hfits
  have hcarried : s.carried =
      frames.filterMap Frame.flow ++ s.waiting.filterMap Frame.flow := by
    rw [carried, hrunning]
    rfl
  have hmore : carried { s with
      counter := s.counter + 1
      running := ⟨some s.started, next⟩ :: frames
      started := s.started + 1 } = s.started :: s.carried := by
    rw [hcarried]
    rfl
  refine ⟨List.forall_mem_cons.mpr ⟨hfits.1, hfits.2⟩, h.waiting, ?_, ?_⟩
  · rw [hmore, List.range_succ]
    exact (h.flows.cons _).trans (List.perm_append_singleton _ _).symm
  · rw [hmore, List.length_cons, ← h.counter]

/-- The frame that is about to lower the counter carries a flow. -/
theorem Kept.down_flow (h : s.Kept) {flow : Option Nat} {next : Code τ}
    {frames : List (Frame τ)}
    (hrunning : s.running = ⟨flow, .down next⟩ :: frames) :
    ∃ f, flow = some f ∧ next.fits false = true ∧
      s.carried = f :: carried { s with running := ⟨none, next⟩ :: frames } := by
  have hfits := h.running ⟨flow, .down next⟩ (by
    rw [hrunning]
    exact List.mem_cons_self)
  obtain ⟨hsome, hnext⟩ := (Bool.and_eq_true _ _).mp hfits
  obtain ⟨f, rfl⟩ := Option.isSome_iff_exists.mp hsome
  refine ⟨f, rfl, hnext, ?_⟩
  rw [carried, hrunning]
  rfl

theorem Kept.lowers_pos (h : s.Kept) {t : Turn μ} (ht : s.lowers t) :
    0 < s.counter := by
  cases t with
  | invoke m => exact ht.elim
  | reply i => exact ht.elim
  | go yes =>
      obtain ⟨flow, next, frames, hrunning⟩ := ht
      obtain ⟨f, -, -, hcarried⟩ := h.down_flow hrunning
      rw [h.counter, hcarried]
      exact Nat.zero_lt_succ _

theorem Kept.down (h : s.Kept) {flow : Option Nat} {next : Code τ}
    {frames : List (Frame τ)}
    (hrunning : s.running = ⟨flow, .down next⟩ :: frames) :
    Kept { s.lower with
      running := ⟨none, next⟩ :: frames
      ended := s.ended ++ flow.toList } := by
  obtain ⟨f, rfl, hnext, hcarried⟩ := h.down_flow hrunning
  have hpos := h.lowers_pos (μ := Unit) (t := .go true) ⟨_, _, _, hrunning⟩
  have hframes := h.running
  rw [hrunning, List.forall_mem_cons] at hframes
  refine ⟨List.forall_mem_cons.mpr ⟨hnext, hframes.2⟩, h.waiting, ?_, ?_⟩
  · refine .trans ?_ h.flows
    rw [hcarried]
    exact .trans (.of_eq (List.append_assoc _ _ _).symm)
      (List.perm_append_singleton _ _)
  · have hcount := h.counter
    rw [hcarried, List.length_cons] at hcount
    show (if 0 < s.counter then s.counter - 1 else s.counter) = _
    rw [if_pos hpos, hcount]
    rfl

theorem Kept.go (h : s.Kept) (yes : Bool) : (s.go yes).Kept := by
  unfold Flows.go
  split
  · exact h
  · next flow code frames hrunning =>
      have hfits := h.running
      rw [hrunning, List.forall_mem_cons] at hfits
      obtain ⟨hcode, hframes⟩ := hfits
      have hcarried : s.carried = flow.toList ++ (frames.filterMap Frame.flow ++
          s.waiting.filterMap Frame.flow) := by
        rw [carried, hrunning]
        cases flow <;> rfl
      cases code with
      | done =>
          have hnone : flow = none := by
            cases flow with
            | none => rfl
            | some f => cases hcode
          subst hnone
          refine h.carry hframes h.waiting (.of_eq ?_) rfl rfl rfl
          rw [hcarried]
          rfl
      | up next =>
          have hnone : flow = none := by
            cases flow with
            | none => rfl
            | some f => cases hcode
          subst hnone
          exact h.up hrunning
      | down next => exact h.down hrunning
      | test t yes' no =>
          obtain ⟨hyes, hno⟩ := (Bool.and_eq_true _ _).mp hcode
          refine h.carry (List.forall_mem_cons.mpr ⟨?_, hframes⟩) h.waiting
            (.of_eq ?_) rfl rfl rfl
          · cases yes
            · exact hno
            · exact hyes
          · rw [hcarried]
            cases flow <;> rfl
      | request callback next =>
          obtain ⟨hcallback, hnext⟩ := (Bool.and_eq_true _ _).mp hcode
          obtain ⟨hsome, hcallback⟩ := (Bool.and_eq_true _ _).mp hcallback
          obtain ⟨f, rfl⟩ := Option.isSome_iff_exists.mp hsome
          refine h.carry (List.forall_mem_cons.mpr ⟨hnext, hframes⟩)
            (fun g hg => ?_) ?_ rfl rfl rfl
          · rcases List.mem_append.mp hg with hg | hg
            · exact h.waiting g hg
            · rw [List.mem_singleton.mp hg]
              exact ⟨rfl, hcallback⟩
          · rw [hcarried]
            show (frames.filterMap Frame.flow ++
              (s.waiting ++ [Frame.mk (some f) callback]).filterMap Frame.flow).Perm _
            rw [List.filterMap_append, ← List.append_assoc]
            exact List.perm_append_singleton _ _
      | call callee next =>
          obtain ⟨hcallee, hnext⟩ := (Bool.and_eq_true _ _).mp hcode
          refine h.carry (List.forall_mem_cons.mpr ⟨hcallee,
            List.forall_mem_cons.mpr ⟨hnext, hframes⟩⟩) h.waiting (.of_eq ?_)
            rfl rfl rfl
          rw [hcarried]
          cases flow <;> rfl

theorem Kept.step (hbody : ∀ m, (body m).fits false = true) (h : s.Kept)
    (t : Turn μ) : (s.step body t).Kept := by
  cases t with
  | invoke m => exact h.invoke (hbody m)
  | reply i =>
      rw [Flows.step]
      split
      · exact h
      · next hi => exact h.reply hi
  | go yes => exact h.go yes

theorem Kept.nodup (h : s.Kept) : (s.carried ++ s.ended).Nodup :=
  h.flows.nodup_iff.mpr List.nodup_range

theorem Kept.ended_nodup (h : s.Kept) : s.ended.Nodup :=
  (List.nodup_append.mp h.nodup).2.1

/-- What is carried is what is under way. -/
theorem Kept.underWay (h : s.Kept) : s.underWay.Perm s.carried := by
  have hapart := (List.nodup_append.mp h.nodup).2.2
  have hkept : (s.carried ++ s.ended).filter (fun f => f ∉ s.ended) =
      s.carried := by
    rw [List.filter_append, List.filter_eq_self.mpr, List.filter_eq_nil_iff.mpr,
      List.append_nil]
    · intro f hf
      simpa using hf
    · intro f hf
      simpa using fun hin => hapart f hf f hin rfl
  have hperm := h.flows.symm.filter fun f => decide (f ∉ s.ended)
  rw [hkept] at hperm
  exact hperm

/-- With no code running, the counter is the number of requests that are out. -/
theorem Kept.counter_waiting (h : s.Kept) (hrunning : s.running = []) :
    s.counter = s.waiting.length := by
  rw [h.counter, carried, hrunning, List.filterMap_nil, List.nil_append,
    List.length_filterMap_eq_countP]
  exact List.countP_eq_length.mpr fun f hf => (h.waiting f hf).1

end Flows

end QuMesh.Lib
