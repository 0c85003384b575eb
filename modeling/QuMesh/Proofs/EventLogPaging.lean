import Mathlib.Data.Nat.Find
import QuMesh.Lib.Run
import QuMesh.Proofs.SoapTrees
import QuMesh.Wsman.EventLog

/-!
# Paging through the event log

The reading ends with a batch that says so, or when the entries are as many as
the reader takes. Nothing else is counted: a device whose batches never say so,
and hold no record that decodes, is asked forever, `empty_batches`.

A reading that is not done has had one batch for each request but the last two
and has the entries of these in order, `Reading`. One reply leads on to the next
request or ends the reading, and which of these it does depends on this batch
and on the number of entries alone. So a stream of replies is read to an end
exactly where one of its batches is the last or the entries come to the limit.
Where each batch has an entry the limit bounds the requests, `sent_le`.
-/

namespace QuMesh.Wsman

open QuMesh.Lib QuMesh.Lib.Xml

/-! ## What a stream of replies holds -/

/-- The entry for a record, if it has one. -/
def decodeEvent (b64 : String) : Option EventLogEntry :=
  let e := decodeEventRecord ((fromBase64 false (Strings.toLatin1 b64)).getD [])
  if e.timestamp = "" then none else some e

/-- The entries of a reply to GetRecords. -/
def batchEntries (r : Outcome) : List EventLogEntry :=
  match r.response with
  | .error _ => []
  | .ok soap =>
      if findScalar soap.bodyXml "ReturnValue" = "0" then
        (collectRecordArray soap.bodyXml).filterMap decodeEvent
      else []

/-- The entries of the replies behind the first one, `n` of them. -/
def batches (replies : Nat → Outcome) (n : Nat) : List EventLogEntry :=
  (List.range n).flatMap fun i => batchEntries (replies (i + 1))

/-- The entries of a result, which are numbered. -/
def numbered (es : List EventLogEntry) : List EventLogEntry :=
  es.zipIdx.map fun p => { p.1 with recordId := toString (p.2 + 1) }

/-- There is no iteration to read from. -/
def Unpositioned (r : Outcome) : Prop :=
  match r.response with
  | .error _ => True
  | .ok soap => findScalar soap.bodyXml "ReturnValue" ≠ "0" ∨
      findScalar soap.bodyXml "IterationIdentifier" = ""

/-- The reply says that it is the last one. -/
def LastBatch (r : Outcome) : Prop :=
  match r.response with
  | .error _ => True
  | .ok soap => findScalar soap.bodyXml "ReturnValue" ≠ "0" ∨
      (findScalar soap.bodyXml "NoMoreRecords").toLower = "true" ∨
      findScalar soap.bodyXml "IterationIdentifier" = ""

/-- The reply `i` ends the reading, if it was not ended before. -/
def EndsAt (replies : Nat → Outcome) : Nat → Prop
  | 0 => Unpositioned (replies 0)
  | i + 1 => LastBatch (replies (i + 1)) ∨
      kMaxRecords ≤ (batches replies (i + 1)).length

namespace EventLogRead

/-- After so many replies. -/
def after (replies : Nat → Outcome) (n : Nat) : EventLogRead :=
  run reply {} ((List.range n).map replies)

/-- It ended with the `n`-th reply, after as many requests and with one call,
which has the entries of the batches in order, as far as it takes them. -/
structure Ended (replies : Nat → Outcome) (n : Nat) (s : EventLogRead) :
    Prop where
  waiting : s.waiting = none
  sent : s.sent.length = n
  calls : ∃ result, s.calls = [result] ∧
    result.entries = numbered ((batches replies (n - 1)).take kMaxRecords)

/-- It has had `n` replies and waits for the next one. -/
structure Reading (replies : Nat → Outcome) (n : Nat) (s : EventLogRead) :
    Prop where
  waiting : s.waiting = some (if n = 0 then .positioning else .getting)
  sent : s.sent.length = n + 1
  calls : s.calls = []
  items : s.items = numbered (batches replies (n - 1))
  room : (batches replies (n - 1)).length < kMaxRecords

end EventLogRead

/-- The reading ends: it sends a bounded number of requests and calls back
once, with the entries in order. -/
def ReadsEvents (replies : Nat → Outcome) : Prop :=
  ∃ n, ∀ k ≥ n, (EventLogRead.after replies k).Ended replies n

/-! ## One batch -/

theorem numbered_snoc (es : List EventLogEntry) (e : EventLogEntry) :
    numbered (es ++ [e]) =
      numbered es ++ [{ e with recordId := toString (es.length + 1) }] := by
  simp [numbered, List.zipIdx_append]

theorem numbered_length (es : List EventLogEntry) :
    (numbered es).length = es.length := by
  simp [numbered]

theorem batches_succ (replies : Nat → Outcome) (n : Nat) :
    batches replies (n + 1) =
      batches replies n ++ batchEntries (replies (n + 1)) := by
  simp [batches, List.range_succ]

theorem lastBatch_error {r : Outcome} {error : String}
    (h : r.response = .error error) : LastBatch r := by
  unfold LastBatch
  rw [h]
  exact trivial

theorem lastBatch_ok {r : Outcome} {soap : SoapResponse}
    (h : r.response = .ok soap) :
    LastBatch r ↔ findScalar soap.bodyXml "ReturnValue" ≠ "0" ∨
      (findScalar soap.bodyXml "NoMoreRecords").toLower = "true" ∨
      findScalar soap.bodyXml "IterationIdentifier" = "" := by
  unfold LastBatch
  rw [h]

instance (r : Outcome) : Decidable (LastBatch r) :=
  match h : r.response with
  | .error _ => .isTrue (lastBatch_error h)
  | .ok _ => decidable_of_iff' _ (lastBatch_ok h)

theorem unpositioned_ok {r : Outcome} {soap : SoapResponse}
    (h : r.response = .ok soap) :
    Unpositioned r ↔ findScalar soap.bodyXml "ReturnValue" ≠ "0" ∨
      findScalar soap.bodyXml "IterationIdentifier" = "" := by
  unfold Unpositioned
  rw [h]

instance (r : Outcome) : Decidable (Unpositioned r) :=
  match h : r.response with
  | .error _ => .isTrue (by unfold Unpositioned; rw [h]; exact trivial)
  | .ok _ => decidable_of_iff' _ (unpositioned_ok h)

theorem batchEntries_ok {r : Outcome} {soap : SoapResponse}
    (h : r.response = .ok soap) :
    batchEntries r = if findScalar soap.bodyXml "ReturnValue" = "0" then
      (collectRecordArray soap.bodyXml).filterMap decodeEvent else [] := by
  unfold batchEntries
  rw [h]

namespace EventLogRead

variable {replies : Nat → Outcome} {n : Nat} {s : EventLogRead}

/-- The records of a batch: all of them are taken where there is room, else as
many as there is room for, and the reading is done. -/
theorem takeRecords_eq (records : List String) {es : List EventLogEntry}
    (hs : s.items = numbered es) (hroom : es.length < kMaxRecords) :
    takeRecords records s =
      let all := es ++ records.filterMap decodeEvent
      if all.length < kMaxRecords then ({ s with items := numbered all }, true)
      else
        (({ s with items := numbered (all.take kMaxRecords) } :
          EventLogRead).done "", false) := by
  induction records generalizing s es with
  | nil =>
      simp only [takeRecords, List.filterMap_nil, List.append_nil, if_pos hroom,
        ← hs]
  | cons b64 records ih =>
      rw [takeRecords]
      dsimp only
      split
      · next hnone =>
        have hdecode : decodeEvent b64 = none := if_pos hnone
        rw [ih hs hroom, List.filterMap_cons_none hdecode]
      · next hsome =>
        have hdecode : decodeEvent b64 = some (decodeEventRecord
            ((fromBase64 false (Strings.toLatin1 b64)).getD [])) := if_neg hsome
        rw [List.filterMap_cons_some hdecode]
        generalize decodeEventRecord _ = e
        have hlength : s.items.length = es.length := by
          rw [hs, numbered_length]
        have hitems : s.items ++
            [{ e with recordId := toString (s.items.length + 1) }] =
              numbered (es ++ [e]) := by
          rw [numbered_snoc, hlength, hs]
        rw [hitems, numbered_length, List.length_append, List.length_singleton]
        split
        · next hfull =>
          have htake : (es ++ e :: records.filterMap decodeEvent).take
              kMaxRecords = es ++ [e] := by
            rw [List.append_cons]
            refine List.take_left' ?_
            rw [List.length_append, List.length_singleton]
            omega
          rw [if_neg, htake]
          rw [List.length_append, List.length_cons]
          omega
        · next hmore =>
          rw [@ih { s with items := numbered (es ++ [e]) } (es ++ [e]) rfl (by
            rw [List.length_append, List.length_singleton]
            omega)]
          rw [List.append_assoc, List.singleton_append]

theorem ended_done (error : String) (hsent : s.sent.length = n + 1)
    (hcalls : s.calls = [])
    (hitems : s.items = numbered ((batches replies n).take kMaxRecords)) :
    (s.done error).Ended replies (n + 1) := by
  refine ⟨rfl, hsent, { ok := error = "", error, entries := s.items }, ?_, ?_⟩
  · show s.calls ++ _ = _
    rw [hcalls, List.nil_append]
  · exact hitems

/-! ## One reply -/

theorem Reading.first (h : s.Reading replies 0) :
    (Unpositioned (replies 0) → (s.reply (replies 0)).Ended replies 1) ∧
      (¬Unpositioned (replies 0) →
        (s.reply (replies 0)).Reading replies 1) := by
  have hdone (error : String) : (s.done error).Ended replies 1 :=
    ended_done error h.sent h.calls h.items
  unfold reply Unpositioned
  rw [h.waiting, if_pos rfl]
  cases (replies 0).response with
  | error error => exact ⟨fun _ => hdone error, fun hon => absurd trivial hon⟩
  | ok soap =>
      dsimp only
      unfold positioned
      dsimp only
      split
      · next hrv => exact ⟨fun _ => hdone _, fun hon => absurd (.inl hrv) hon⟩
      split
      · next hid => exact ⟨fun _ => hdone _, fun hon => absurd (.inr hid) hon⟩
      · next hrv hid =>
        refine ⟨fun hend => ?_, fun _ => ⟨rfl, ?_, h.calls, h.items, h.room⟩⟩
        · rcases hend with hend | hend
          · exact absurd hend hrv
          · exact absurd hend hid
        · show (s.sent ++ _).length = _
          rw [List.length_append, h.sent]
          rfl

theorem Reading.next (h : s.Reading replies (n + 1)) :
    (EndsAt replies (n + 1) →
      (s.reply (replies (n + 1))).Ended replies (n + 2)) ∧
      (¬EndsAt replies (n + 1) →
        (s.reply (replies (n + 1))).Reading replies (n + 2)) := by
  have hitems : s.items = numbered (batches replies n) := h.items
  have hroom : (batches replies n).length < kMaxRecords := h.room
  have hbatches := batches_succ replies n
  have hdone (error : String) (hnone : batchEntries (replies (n + 1)) = []) :
      (s.done error).Ended replies (n + 2) := by
    refine ended_done error h.sent h.calls ?_
    rw [hbatches, hnone, List.append_nil, List.take_of_length_le (by omega)]
    exact hitems
  show (LastBatch (replies (n + 1)) ∨ _ → _) ∧ (¬(LastBatch _ ∨ _) → _)
  unfold reply
  rw [h.waiting, if_neg (Nat.succ_ne_zero n)]
  cases hresponse : (replies (n + 1)).response with
  | error error =>
      refine ⟨fun _ => hdone error ?_,
        fun hon => absurd (.inl (lastBatch_error hresponse)) hon⟩
      rw [batchEntries, hresponse]
  | ok soap =>
      have hlast := lastBatch_ok hresponse
      have hentries := batchEntries_ok hresponse
      dsimp only
      unfold received
      dsimp only
      split
      · next hrv =>
        rw [if_neg hrv] at hentries
        exact ⟨fun _ => hdone _ hentries,
          fun hon => absurd (.inl (hlast.mpr (.inl hrv))) hon⟩
      next hrv =>
        rw [not_not] at hrv
        rw [if_pos hrv] at hentries
        rw [hentries] at hbatches
        rw [takeRecords_eq _ hitems hroom, ← hbatches]
        dsimp only
        split
        · next heq =>
          split at heq
          · cases heq
          · next hfull =>
            cases heq
            have hlimit : kMaxRecords ≤ (batches replies (n + 1)).length := by
              omega
            exact ⟨fun _ => ended_done "" h.sent h.calls rfl,
              fun hon => absurd (.inr hlimit) hon⟩
        · next heq =>
          split at heq
          · next hmore =>
            cases heq
            have hended : (({ s with
                items := numbered (batches replies (n + 1)) } :
                  EventLogRead).done "").Ended replies (n + 2) := by
              refine ended_done "" h.sent h.calls ?_
              rw [List.take_of_length_le (by omega)]
            split
            · next hno =>
              exact ⟨fun _ => hended,
                fun hon => absurd (.inl (hlast.mpr (.inr (.inl hno)))) hon⟩
            split
            · next hid =>
              exact ⟨fun _ => hended,
                fun hon => absurd (.inl (hlast.mpr (.inr (.inr hid)))) hon⟩
            · next hno hid =>
              refine ⟨fun hend => ?_, fun _ => ⟨rfl, ?_, h.calls, rfl, hmore⟩⟩
              · rcases hend with hend | hend
                · rcases hlast.mp hend with hend | hend | hend
                  · exact absurd hrv hend
                  · exact absurd hend hno
                  · exact absurd hend hid
                · omega
              · show (s.sent ++ _).length = _
                rw [List.length_append, h.sent]
                rfl
          · cases heq

theorem Reading.step (h : s.Reading replies n) :
    (EndsAt replies n → (s.reply (replies n)).Ended replies (n + 1)) ∧
      (¬EndsAt replies n → (s.reply (replies n)).Reading replies (n + 1)) := by
  cases n with
  | zero => exact h.first
  | succ n => exact h.next

theorem Ended.step (h : s.Ended replies n) (r : Outcome) :
    (s.reply r).Ended replies n := by
  rw [reply, h.waiting]
  exact h

/-! ## A stream of replies -/

theorem after_succ (replies : Nat → Outcome) (n : Nat) :
    after replies (n + 1) = (after replies n).reply (replies n) := by
  rw [after, List.range_succ, List.map_append, run_append]
  rfl

theorem reading_start (replies : Nat → Outcome) :
    (after replies 0).Reading replies 0 :=
  ⟨rfl, rfl, rfl, rfl, Nat.zero_lt_succ _⟩

/-- As long as no reply ends it, the reading goes on. -/
theorem reading_of_none (hnone : ∀ i < n, ¬EndsAt replies i) :
    (after replies n).Reading replies n := by
  induction n with
  | zero => exact reading_start replies
  | succ n ih =>
      rw [after_succ]
      have hreading := ih fun i hi => hnone i (Nat.lt_succ_of_lt hi)
      exact hreading.step.2 (hnone n (Nat.lt_succ_self n))

/-- The first reply that ends it ends it for good. -/
theorem ended_of_first (hend : EndsAt replies n)
    (hnone : ∀ i < n, ¬EndsAt replies i) {k : Nat} (hk : n + 1 ≤ k) :
    (after replies k).Ended replies (n + 1) := by
  induction hk with
  | refl =>
      rw [after_succ]
      exact (reading_of_none hnone).step.1 hend
  | @step k _ ih =>
      rw [after_succ]
      exact ih.step (replies k)

end EventLogRead

/-- A stream of replies is read to an end if and only if one of them is the
last, or the entries come to the limit. -/
theorem readsEvents_iff (replies : Nat → Outcome) :
    ReadsEvents replies ↔
      Unpositioned (replies 0) ∨ ∃ n, LastBatch (replies (n + 1)) ∨
        kMaxRecords ≤ (batches replies (n + 1)).length := by
  have hends : (Unpositioned (replies 0) ∨ ∃ n, LastBatch (replies (n + 1)) ∨
      kMaxRecords ≤ (batches replies (n + 1)).length) ↔
        ∃ i, EndsAt replies i := by
    constructor
    · rintro (h | ⟨n, h⟩)
      · exact ⟨0, h⟩
      · exact ⟨n + 1, h⟩
    · rintro ⟨i, h⟩
      cases i with
      | zero => exact .inl h
      | succ n => exact .inr ⟨n, h⟩
  rw [hends]
  constructor
  · rintro ⟨n, h⟩
    by_contra hnone
    rw [not_exists] at hnone
    have hreading : (EventLogRead.after replies n).Reading replies n :=
      EventLogRead.reading_of_none fun i _ => hnone i
    have hwaiting := (h n (Nat.le_refl n)).waiting
    rw [hreading.waiting] at hwaiting
    cases hwaiting
  · intro h
    classical
    exact ⟨Nat.find h + 1, fun k hk => EventLogRead.ended_of_first
      (Nat.find_spec h) (fun i hi => Nat.find_min h hi) hk⟩

/-- Where each batch but the last has an entry, the limit bounds the
requests. -/
theorem sent_le {replies : Nat → Outcome}
    (hsome : ∀ n, LastBatch (replies (n + 1)) ∨
      batchEntries (replies (n + 1)) ≠ []) :
    ∃ n ≤ kMaxRecords + 1, ∀ k ≥ n,
      (EventLogRead.after replies k).Ended replies n := by
  have hgrows : ∀ n, (∀ i < n + 1, ¬EndsAt replies i) →
      n ≤ (batches replies n).length := by
    intro n
    induction n with
    | zero => exact fun _ => Nat.zero_le _
    | succ n ih =>
        intro hnone
        have hlast : ¬LastBatch (replies (n + 1)) :=
          fun h => hnone (n + 1) (Nat.lt_succ_self _) (.inl h)
        have hpos := List.length_pos_iff.mpr ((hsome n).resolve_left hlast)
        have hle := ih fun i hi => hnone i (Nat.lt_succ_of_lt hi)
        rw [batches_succ, List.length_append]
        omega
  by_cases h : ∃ i, i < kMaxRecords + 1 ∧ EndsAt replies i
  · classical
    have hex : ∃ i, EndsAt replies i := h.imp fun i hi => hi.2
    obtain ⟨i, hi, hend⟩ := h
    have hmin := Nat.find_min' hex hend
    exact ⟨Nat.find hex + 1, by omega, fun k hk => EventLogRead.ended_of_first
      (Nat.find_spec hex) (fun i hi => Nat.find_min hex hi) hk⟩
  · simp only [not_exists, not_and] at h
    have hfull := hgrows kMaxRecords h
    exact absurd (.inr hfull) (h kMaxRecords (Nat.lt_succ_self _))

/-! ## A device that never says so -/

def eventLogOutput (name : String) (values : List (String × String)) : Node :=
  .element kMessageLogResource name [] (values.map fun p =>
    .element kMessageLogResource p.1 [] [.text p.2])

/-- A reply with this output. -/
def eventLogReply (output : Node) : Outcome :=
  { xml := ({ body := [output] } : Envelope).node.tokens }

/-- An iteration, and then batches without records, each with the iteration to
go on with. -/
def emptyReplies : Nat → Outcome
  | 0 => eventLogReply (eventLogOutput "PositionToFirstRecord_OUTPUT"
      [("IterationIdentifier", "1"), ("ReturnValue", "0")])
  | _ => eventLogReply (eventLogOutput "GetRecords_OUTPUT"
      [("IterationIdentifier", "1"), ("NoMoreRecords", "false"),
        ("ReturnValue", "0")])

theorem emptyReplies_succ (i : Nat) : emptyReplies (i + 1) = emptyReplies 1 :=
  rfl

theorem empty_batches : ¬ReadsEvents emptyReplies := by
  have hpositioned : ¬Unpositioned (emptyReplies 0) := by decide +kernel
  have hmore : ¬LastBatch (emptyReplies 1) := by decide +kernel
  have hentries : batchEntries (emptyReplies 1) = [] := by decide +kernel
  have hnone : ∀ n, batches emptyReplies n = [] := by
    intro n
    simp only [batches, emptyReplies_succ, hentries, List.flatMap_eq_nil_iff,
      implies_true]
  rintro ⟨n, h⟩
  have hreading :
      (EventLogRead.after emptyReplies n).Reading emptyReplies n := by
    refine EventLogRead.reading_of_none fun i _ => ?_
    cases i with
    | zero => exact hpositioned
    | succ i =>
        refine not_or.mpr ⟨hmore, ?_⟩
        rw [hnone]
        decide
  have hwaiting := (h n (Nat.le_refl n)).waiting
  rw [hreading.waiting] at hwaiting
  cases hwaiting

end QuMesh.Wsman
