import QuMesh.Lib.Inbox
import QuMesh.Lib.Run
import QuMesh.Proofs.KvmSteps

/-!
# Chunking does not matter

A session is a machine that works through its inbox, so whatever rounds it has
already taken when the next chunk comes, or when the budget of a drain ran
out, are rounds the drain of the whole stream takes too. What is left to see
is that the bounded drain never stops with something to do and nothing in the
event queue: it posts itself exactly when its budget ran out over an inbox
that is not empty, and over an empty one no state has a round to take.
-/

namespace QuMesh.Kvm

open QuMesh.Lib

variable {z : Zlib}

namespace Session

instance (r : Session z × Bool) : Decidable (Acted r) :=
  inferInstanceAs (Decidable (_ ∨ _))

/-- A round as the drain of a whole stream sees it. -/
def advance (link : Link) (s : Session z) : Option (Session z) :=
  if s.state ≠ .failed ∧ Acted (s.step link) then some (s.step link).1 else none

theorem advance_eq_some {link : Link} {s t : Session z} :
    s.advance link = some t ↔
      s.state ≠ .failed ∧ Acted (s.step link) ∧ (s.step link).1 = t := by
  rw [advance]
  split
  · next h =>
      rw [Option.some.injEq]
      exact ⟨fun ht => ⟨h.1, h.2, ht⟩, fun ht => ht.2.2⟩
  · next h =>
      constructor
      · intro ht
        cases ht
      · intro ht
        exact absurd ⟨ht.1, ht.2.1⟩ h

/-- Bytes first, and a session that can still fail above one that has. -/
def rank (s : Session z) : Nat :=
  2 * s.inbox.length + if s.state = .failed then 0 else 1

/-- The reader of the RFB stream. -/
def machine (link : Link) : InboxMachine (Session z) UInt8 where
  step := advance link
  feed := feed
  rank := rank
  feed_nil := feed_nil
  feed_feed := feed_feed
  shrinks := by
    intro s t h
    obtain ⟨hs, hact, rfl⟩ := advance_eq_some.mp h
    have hsound := step_sound link hs
    rw [rank, rank, if_neg hs]
    rcases hact with hgo | hfail
    · have := hsound.shrinks hgo
      split <;> omega
    · have := hsound.shorter
      rw [if_pos hfail]
      omega
  extends_feed := by
    intro s t h xs
    obtain ⟨hs, hact, rfl⟩ := advance_eq_some.mp h
    have hfeed := (step_sound link hs).feed hact xs
    rw [advance_eq_some]
    refine ⟨hs, ?_, by rw [hfeed]⟩
    rw [hfeed]
    exact hact

/-- A round that stops the loop leaves nothing to do. -/
theorem step_stops {link : Link} {s t : Session z}
    (h : s.step link = (t, false)) :
    (machine link).Quiet t ∧ (t = s ∨ (machine link).step s = some t) := by
  by_cases hs : s.state = .failed
  · have hst := step_failed link hs
    rw [h] at hst
    have hts : t = s := congrArg Prod.fst hst
    refine ⟨?_, Or.inl hts⟩
    rw [hts]
    exact if_neg fun hn => hn.1 hs
  · by_cases hact : Acted (s.step link)
    · have hfail : t.state = .failed := by
        rw [h] at hact
        rcases hact with hb | hf
        · cases hb
        · exact hf
      refine ⟨if_neg fun hn => hn.1 hfail, Or.inr ?_⟩
      rw [machine]
      exact advance_eq_some.mpr ⟨hs, hact, by rw [h]⟩
    · have hwait := (step_sound link hs).waits hact
      rw [h] at hwait
      have hts : t = s := congrArg Prod.fst hwait
      refine ⟨?_, Or.inl hts⟩
      rw [hts]
      exact if_neg fun hn => hact hn.2

/-- The loop takes rounds of the machine, and if it stops before its budget
there is none left. -/
theorem drainSteps_steps (link : Link) (n : Nat) (s : Session z) :
    Relation.ReflTransGen (fun a b => (machine link).step a = some b) s
        (s.drainSteps link n).1 ∧
      ((s.drainSteps link n).2 = false →
        (machine link).Quiet (s.drainSteps link n).1) := by
  induction n generalizing s with
  | zero => exact ⟨.refl, fun h => by cases h⟩
  | succ n ih =>
      rw [drainSteps]
      split
      · next t ht =>
          have hstep : (machine link).step s = some t := by
            refine advance_eq_some.mpr ⟨?_, Or.inl (by rw [ht]), by rw [ht]⟩
            intro hs
            rw [step_failed link hs] at ht
            cases ht
          obtain ⟨hsteps, hquiet⟩ := ih t
          exact ⟨.head hstep hsteps, hquiet⟩
      · next t ht =>
          obtain ⟨hquiet, hsame | hstep⟩ := step_stops ht
          · rw [hsame] at hquiet ⊢
            exact ⟨.refl, fun _ => hquiet⟩
          · exact ⟨.single hstep, fun _ => hquiet⟩

/-- Nothing can be done with no bytes. -/
theorem quiet_of_empty (link : Link) {s : Session z} (h : s.inbox = []) :
    (machine link).Quiet s := by
  refine if_neg ?_
  rintro ⟨hs, hact⟩
  have hsound := step_sound link hs
  rcases hact with hgo | hfail
  · have := hsound.shrinks hgo
    rw [h] at this
    cases this
  · revert hfail
    cases hst : s.state with
    | version | security | authResult | serverInit =>
        simp [step, hst, stepHandshake, h, tryParseSecurityTypes,
          tryParseSecurityResult, tryParseServerInit, kSecurityResultSize,
          kServerInitFixedSize]
    | frameLoop =>
        by_cases hp : s.pendingRects > 0
        · simp [step, hst, stepFrameLoop, hp, stepRect, tryParseRectHeader,
            kRectHeaderSize, h]
        · simp [step, hst, stepFrameLoop, hp, h]
    | idle => simp [step, hst]
    | failed => exact absurd hst hs

end Session

/-- The stream as the session's slot is handed it. -/
def Event.bytes : Event → Bytes
  | .rawBytes chunk => chunk
  | _ => []

/-- A chunk arrives, or a posted drain runs. -/
def Event.delivers : Event → Bool
  | .rawBytes _ | .continuation => true
  | _ => false

/-- What holds between deliveries: the rest of the stream leads to the same
end as from the start, and a session with something to do has posted itself. -/
structure Caught (link : Link) (s : Session z) (stream : Bytes) (l : Loop z) :
    Prop where
  same : ∀ xs, (Session.machine link).drain (l.session.feed xs) =
    (Session.machine link).drain (s.feed (stream ++ xs))
  posted : 0 < l.queued ∨ (Session.machine link).Quiet l.session

theorem Caught.drainInbox {link : Link} {s t : Session z} {stream : Bytes}
    {l : Loop z}
    (h : ∀ xs, (Session.machine link).drain (t.feed xs) =
      (Session.machine link).drain (s.feed (stream ++ xs))) :
    Caught link s stream (l.settle (t.drainInbox link)) := by
  obtain ⟨hsteps, hquiet⟩ :=
    Session.drainSteps_steps link Session.kMaxStepsPerCall t
  have hsame : (t.drainInbox link).1 =
      (t.drainSteps link Session.kMaxStepsPerCall).1 := by
    rw [Session.drainInbox]
    split <;> next hd => rw [hd]
  refine ⟨fun xs => ?_, ?_⟩
  · rw [Loop.settle, hsame, ← h xs]
    exact (Session.machine link).drain_feed_steps hsteps xs
  · rw [Loop.settle, hsame]
    rw [Session.drainInbox]
    split
    · next u hd =>
        by_cases hempty : u.inbox = []
        · rw [hd]
          exact Or.inr (Session.quiet_of_empty link hempty)
        · left
          simp [hempty]
    · next u hd =>
        exact Or.inr (hquiet (by rw [hd]))

theorem Caught.handle {link : Link} {s : Session z} {stream : Bytes}
    {l : Loop z} (h : Caught link s stream l) {e : Event}
    (he : e.delivers = true) :
    Caught link s (stream ++ e.bytes) (l.handle link e) := by
  cases e with
  | rawBytes chunk =>
      refine Caught.drainInbox fun xs => ?_
      have := h.same (chunk ++ xs)
      rw [← Session.feed_feed, ← List.append_assoc] at this
      exact this
  | continuation =>
      simp only [Loop.handle, Event.bytes, List.append_nil]
      split
      · exact h
      · exact Caught.drainInbox h.same
  | _ => cases he

/-- The loop with a budget that is large enough is the drain of a whole
stream. -/
theorem Session.drainSteps_enough (link : Link) (s : Session z) :
    ∃ n, s.drainSteps link n = ((machine link).drain s, false) := by
  generalize hr : s.rank = r
  induction r using Nat.strongRecOn generalizing s with
  | ind r ih =>
      cases hst : s.step link with
      | mk t b =>
          cases b with
          | false =>
              refine ⟨1, ?_⟩
              obtain ⟨hquiet, hsame | hstep⟩ := step_stops hst
              · rw [hsame] at hquiet hst
                simp only [drainSteps, hst, (machine link).drain_quiet hquiet]
              · rw [(machine link).drain_step hstep,
                  (machine link).drain_quiet hquiet]
                simp only [drainSteps, hst]
          | true =>
              have hstep : (machine link).step s = some t := by
                refine advance_eq_some.mpr
                  ⟨?_, Or.inl (by rw [hst]), by rw [hst]⟩
                intro hs
                rw [step_failed link hs] at hst
                cases hst
              have hlt : t.rank < r := by
                rw [← hr]
                exact (machine link).shrinks hstep
              obtain ⟨n, hn⟩ := ih t.rank hlt t rfl
              refine ⟨n + 1, ?_⟩
              rw [(machine link).drain_step hstep, ← hn]
              simp only [drainSteps, hst]

/-- However a stream is cut, and whenever the posted drains run, a session
with none left in the queue is where one drain of the whole stream ends, if
its loop is given as many rounds as it can use. -/
theorem chunking_irrelevant (link : Link) (l : Loop z) (es : List Event)
    (hl : l.session.inbox = [] ∧ l.queued = 0)
    (hes : ∀ e ∈ es, e.delivers = true)
    (hend : (run (Loop.handle link) l es).queued = 0) :
    ∃ n, (l.session.feed (es.flatMap Event.bytes)).drainSteps link n =
      ((run (Loop.handle link) l es).session, false) := by
  have hrun : ∀ (es : List Event) (m : Loop z) (stream : Bytes),
      (∀ e ∈ es, e.delivers = true) → Caught link l.session stream m →
      Caught link l.session (stream ++ es.flatMap Event.bytes)
        (run (Loop.handle link) m es) := by
    intro es
    induction es with
    | nil =>
        intro m stream _ h
        simpa using h
    | cons e es ih =>
        intro m stream hes h
        have := ih (m.handle link e) (stream ++ e.bytes)
          (fun e' he' => hes e' (List.mem_cons_of_mem _ he'))
          (h.handle (hes e List.mem_cons_self))
        rw [run_cons, List.flatMap_cons, ← List.append_assoc]
        exact this
  have hstart : Caught link l.session [] l :=
    ⟨fun xs => rfl, Or.inr (Session.quiet_of_empty link hl.1)⟩
  obtain ⟨hsame, hposted⟩ := hrun es l [] hes hstart
  rw [hend] at hposted
  have hquiet := hposted.resolve_left (Nat.lt_irrefl 0)
  obtain ⟨n, hn⟩ := Session.drainSteps_enough link
    (l.session.feed (es.flatMap Event.bytes))
  refine ⟨n, ?_⟩
  have := hsame []
  rw [Session.feed_nil, List.append_nil, List.nil_append,
    (Session.machine link).drain_quiet hquiet] at this
  rw [hn, this]

/-- A handshake and twenty bells in two chunks: the second drain runs out of
its budget and the posted one goes on. -/
theorem chunking_irrelevant_bells :
    ∃ n, ((({} : Session .stored).start true true).feed
        (List.flatMap Event.bytes [.rawBytes (List.replicate 14 1),
          .rawBytes ([0, 0, 0, 0] ++ List.replicate 24 0 ++
            List.replicate 20 2), .continuation])).drainSteps .open n =
      ((run (Loop.handle .open)
        { session := ({} : Session .stored).start true true }
        [.rawBytes (List.replicate 14 1), .rawBytes ([0, 0, 0, 0] ++
          List.replicate 24 0 ++ List.replicate 20 2), .continuation]).session,
        false) :=
  chunking_irrelevant .open
    { session := ({} : Session .stored).start true true } _ (by decide)
    (by decide) (by decide)

end QuMesh.Kvm
