import QuMesh.App.RowReplacement
import QuMesh.Proofs.WatchdogIds

/-!
# A row is not lost to a refusal

A replacement deletes the old row before it adds the new one, so what would
refuse the new row has to be asked before. The controller asks some of it, and
the operation that adds asks again, behind the delete. Where the second asks for
more than the first, the old row is gone and nothing was sent for the new one.

`replace_cases` says with what request a replacement begins, and `run_deleting`
what the replies make of it; from there on `safe_iff` holds of any kind of row.
For wake alarms the two checks are the same. For watchdogs the first asks only
for an id that is not empty, and the second for one that is a GUID.
-/

namespace QuMesh.Details

open QuMesh.Lib QuMesh.Lib.Xml QuMesh.Wsman

variable {ι ω δ α : Type}

/-- The requests of a replacement, with these replies so far. -/
structure Safe (k : RowKind ι ω δ α) (old : ι) (row : ω)
    (replies : List Outcome) (e : RowEditor ι ω δ α) : Prop where
  refused : k.addRequest row = none → ∀ d, .delete d ∉ e.sent
  failed : ∀ d, .delete d ∈ e.sent → ∀ r, replies.head? = some r →
    (k.delete old (some r)).ok = false → ∀ a, .add a ∉ e.sent
  ended : e.waiting = none → e.sent = [] ∨
    (∃ d r, e.sent = [.delete d] ∧ replies.head? = some r ∧
      (k.delete old (some r)).ok = false) ∨
      ∃ d a, e.sent = [.delete d, .add a] ∧ k.deleteRequest old = some d ∧
        k.addRequest row = some a

/-- A plain add sends a request. -/
def SendsPlain (k : RowKind ι ω δ α) (row : ω) (addError : Option String)
    (p : Panel) : Prop :=
  addError = none ∧ ¬p.host.isEmpty = true ∧ k.addRequest row ≠ none

/-- A replacement sends its delete. -/
def SendsDelete (k : RowKind ι ω δ α) (old : ι) (row : ω) (p : Panel) : Prop :=
  k.savable row = true ∧ ¬p.host.isEmpty = true ∧ k.deleteRequest old ≠ none

/-- There is an old row, and where its delete is sent the new one is not
refused; or there is none, and no plain add is sent. -/
def Survives (k : RowKind ι ω δ α) (old : ι) (row : ω)
    (addError : Option String) (p : Panel) : Prop :=
  if k.isEmpty old then ¬SendsPlain k row addError p
  else SendsDelete k old row p → k.addRequest row ≠ none

section Runs

variable (k : RowKind ι ω δ α)

/-! ## How a call begins -/

/-- Nothing was sent, and nothing is waited for. -/
structure Idle (e : RowEditor ι ω δ α) : Prop where
  sent : e.sent = []
  waiting : e.waiting = none

theorem issueAdd_refused {row : ω} (h : k.addRequest row = none) (plain : Bool)
    (e : RowEditor ι ω δ α) :
    (k.issueAdd row plain e).sent = e.sent ∧
      (k.issueAdd row plain e).waiting = e.waiting := by
  unfold RowKind.issueAdd RowKind.onAdded
  rw [h]
  dsimp only
  split
  · exact ⟨rfl, rfl⟩
  split
  · exact ⟨rfl, rfl⟩
  · exact ⟨rfl, rfl⟩

theorem issueAdd_sent {row : ω} {a : α} (h : k.addRequest row = some a)
    (plain : Bool) (e : RowEditor ι ω δ α) :
    (k.issueAdd row plain e).sent = e.sent ++ [.add a] ∧
      (k.issueAdd row plain e).waiting = some (.adding row plain) := by
  unfold RowKind.issueAdd
  rw [h]
  exact ⟨rfl, rfl⟩

theorem issueDelete_refused {old : ι} (h : k.deleteRequest old = none) (row : ω)
    (e : RowEditor ι ω δ α) :
    (k.issueDelete old row e).sent = e.sent ∧
      (k.issueDelete old row e).waiting = e.waiting := by
  unfold RowKind.issueDelete RowKind.onDeleted
  rw [h]
  dsimp only
  rw [k.delete_refused old none h, if_neg Bool.false_ne_true]
  exact ⟨rfl, rfl⟩

theorem addPlain_cases (row : ω) (addError : Option String) (p : Panel) :
    (¬SendsPlain k row addError p ∧
        Idle (k.addPlain row addError { panel := p })) ∨
      ∃ a, SendsPlain k row addError p ∧ k.addRequest row = some a ∧
        (k.addPlain row addError { panel := p }).sent = [.add a] ∧
          (k.addPlain row addError { panel := p }).waiting =
            some (.adding row true) := by
  have hhost : ∀ error : String, (({ panel := p } :
      RowEditor ι ω δ α).setLastError error).host = p.host := fun _ => rfl
  unfold RowKind.addPlain
  dsimp only
  cases haddError : addError with
  | some error =>
      refine .inl ⟨fun h => ?_, rfl, rfl⟩
      cases h.1
  | none =>
      dsimp only
      rw [hhost]
      split
      · next hempty => exact .inl ⟨fun h => h.2.1 hempty, rfl, rfl⟩
      · next hgiven =>
        cases hrequest : k.addRequest row with
        | none =>
            obtain ⟨hsent, hwaiting⟩ := issueAdd_refused k hrequest true
              (({ panel := p } : RowEditor ι ω δ α).setLastError "").incInflight
            exact .inl ⟨fun h => h.2.2 hrequest, hsent, hwaiting⟩
        | some a =>
            obtain ⟨hsent, hwaiting⟩ := issueAdd_sent k hrequest true
              (({ panel := p } : RowEditor ι ω δ α).setLastError "").incInflight
            refine .inr ⟨a, ⟨rfl, hgiven, ?_⟩, rfl, hsent, hwaiting⟩
            rw [hrequest]
            exact Option.some_ne_none a

theorem replace_empty {old : ι} (h : k.isEmpty old = true) (row : ω)
    (addError : Option String) (p : Panel) :
    k.replace old row addError { panel := p } =
      k.addPlain row addError { panel := p.setLastError "" } := by
  unfold RowKind.replace
  dsimp only
  rw [if_pos h]
  rfl

theorem replace_cases {old : ι} (h : ¬k.isEmpty old = true) (row : ω)
    (addError : Option String) (p : Panel) :
    (¬SendsDelete k old row p ∧
        Idle (k.replace old row addError { panel := p })) ∨
      ∃ d, SendsDelete k old row p ∧ k.deleteRequest old = some d ∧
        (k.replace old row addError { panel := p }).sent = [.delete d] ∧
          (k.replace old row addError { panel := p }).waiting =
            some (.deleting old row) := by
  have hhost : ∀ error : String, (({ panel := p } :
      RowEditor ι ω δ α).setLastError error).host = p.host := fun _ => rfl
  unfold RowKind.replace
  dsimp only
  rw [if_neg h, hhost]
  split
  · next hunfit =>
    refine .inl ⟨fun hsends => ?_, rfl, rfl⟩
    rw [hsends.1] at hunfit
    cases hunfit
  · next hfit =>
    rw [Bool.not_eq_true', Bool.not_eq_false] at hfit
    split
    · next hempty => exact .inl ⟨fun hsends => hsends.2.1 hempty, rfl, rfl⟩
    · next hgiven =>
      cases hrequest : k.deleteRequest old with
      | none =>
          obtain ⟨hsent, hwaiting⟩ := issueDelete_refused k hrequest row
            (({ panel := p } : RowEditor ι ω δ α).setLastError "").incInflight
          exact .inl ⟨fun hsends => hsends.2.2 hrequest, hsent, hwaiting⟩
      | some d =>
          refine .inr ⟨d, ⟨hfit, hgiven, ?_⟩, rfl, ?_⟩
          · rw [hrequest]
            exact Option.some_ne_none d
          · unfold RowKind.issueDelete
            rw [hrequest]
            exact ⟨rfl, rfl⟩

/-! ## What the replies make of it -/

theorem run_idle {e : RowEditor ι ω δ α} (h : e.waiting = none)
    (replies : List Outcome) : replies.foldl k.reply e = e := by
  induction replies with
  | nil => rfl
  | cons r replies ih =>
      have hreply : k.reply e r = e := by
        unfold RowKind.reply
        rw [h]
      rw [List.foldl_cons, hreply, ih]

theorem onAdded_frame (plain : Bool) (r : InvokeResult)
    (e : RowEditor ι ω δ α) :
    (k.onAdded plain r e).sent = e.sent ∧
      (k.onAdded plain r e).waiting = e.waiting := by
  unfold RowKind.onAdded
  dsimp only
  split
  · exact ⟨rfl, rfl⟩
  split
  · exact ⟨rfl, rfl⟩
  · exact ⟨rfl, rfl⟩

/-- Behind the add nothing more is sent. -/
theorem run_adding {e : RowEditor ι ω δ α} {row : ω} {plain : Bool}
    (h : e.waiting = some (.adding row plain)) (replies : List Outcome) :
    (replies.foldl k.reply e).sent = e.sent := by
  cases replies with
  | nil => rfl
  | cons r replies =>
      have hreply : k.reply e r =
          k.onAdded plain (k.add row (some r)) { e with waiting := none } := by
        unfold RowKind.reply
        rw [h]
      obtain ⟨hsent, hwaiting⟩ := onAdded_frame k plain (k.add row (some r))
        { e with waiting := none }
      rw [List.foldl_cons, hreply, run_idle k hwaiting, hsent]

/-- The first reply answers the delete. -/
theorem reply_deleting {e : RowEditor ι ω δ α} {old : ι} {row : ω}
    (h : e.waiting = some (.deleting old row)) (r : Outcome) :
    k.reply e r =
      k.onDeleted row (k.delete old (some r)) { e with waiting := none } := by
  unfold RowKind.reply
  rw [h]

/-- A delete that fails is the end, and so is an add that is refused. -/
theorem run_failed {e : RowEditor ι ω δ α} {old : ι} {row : ω}
    (h : e.waiting = some (.deleting old row)) {r : Outcome}
    (hr : (k.delete old (some r)).ok = false ∨ k.addRequest row = none)
    (replies : List Outcome) :
    ((r :: replies).foldl k.reply e).sent = e.sent ∧
      ((r :: replies).foldl k.reply e).waiting = none := by
  have hend : (k.reply e r).sent = e.sent ∧ (k.reply e r).waiting = none := by
    rw [reply_deleting k h]
    unfold RowKind.onDeleted
    split
    · next hok =>
      rcases hr with hfailed | hrefused
      · rw [hfailed] at hok
        cases hok
      · exact issueAdd_refused k hrefused false _
    · exact ⟨rfl, rfl⟩
  rw [List.foldl_cons, run_idle k hend.2]
  exact hend

/-- A delete that succeeds is followed by the add. -/
theorem run_deleted {e : RowEditor ι ω δ α} {old : ι} {row : ω}
    (h : e.waiting = some (.deleting old row)) {r : Outcome}
    (hok : (k.delete old (some r)).ok = true) {a : α}
    (ha : k.addRequest row = some a) (replies : List Outcome) :
    ((r :: replies).foldl k.reply e).sent = e.sent ++ [.add a] := by
  have hreply : k.reply e r =
      k.issueAdd row false { e with waiting := none } := by
    rw [reply_deleting k h]
    unfold RowKind.onDeleted
    rw [if_pos hok]
  obtain ⟨hsent, hwaiting⟩ :=
    issueAdd_sent k ha false { e with waiting := none }
  rw [List.foldl_cons, hreply, run_adding k hwaiting, hsent]

/-! ## Any kind of row -/

/-- With nothing sent everything is promised. -/
theorem safe_idle {e : RowEditor ι ω δ α} (h : Idle e) (old : ι) (row : ω)
    (replies : List Outcome) :
    Safe k old row replies (replies.foldl k.reply e) := by
  rw [run_idle k h.waiting]
  refine ⟨fun _ d hd => ?_, fun d hd => ?_, fun _ => .inl h.sent⟩
  · rw [h.sent] at hd
    cases hd
  · rw [h.sent] at hd
    cases hd

theorem safe_deleting {e : RowEditor ι ω δ α} {old : ι} {row : ω} {d : δ}
    (hdelete : k.deleteRequest old = some d) (hsent : e.sent = [.delete d])
    (hwaiting : e.waiting = some (.deleting old row)) {a : α}
    (ha : k.addRequest row = some a) (replies : List Outcome) :
    Safe k old row replies (replies.foldl k.reply e) := by
  have hnoAdd : ∀ a', RowRequest.add a' ∉ [(.delete d : RowRequest δ α)] := by
    intro a' hmem
    cases List.mem_singleton.mp hmem
  refine ⟨fun hnone => ?_, ?_, ?_⟩
  · rw [ha] at hnone
    cases hnone
  · intro d' _ r hr hfailed a'
    cases replies with
    | nil => cases hr
    | cons r' replies =>
        cases hr
        rw [(run_failed k hwaiting (.inl hfailed) replies).1, hsent]
        exact hnoAdd a'
  · intro hend
    cases replies with
    | nil =>
        rw [List.foldl_nil, hwaiting] at hend
        cases hend
    | cons r replies =>
        cases hok : (k.delete old (some r)).ok with
        | true =>
            refine .inr (.inr ⟨d, a, ?_, hdelete, ha⟩)
            rw [run_deleted k hwaiting hok ha, hsent]
            rfl
        | false =>
            refine .inr (.inl ⟨d, r, ?_, rfl, hok⟩)
            rw [(run_failed k hwaiting (.inl hok) replies).1, hsent]

/-- A plain add is no replacement. -/
theorem not_safe_plain {e : RowEditor ι ω δ α} {row : ω} {a : α}
    (hsent : e.sent = [.add a]) (hwaiting : e.waiting = some (.adding row true))
    (old : ι) :
    ¬∀ replies, Safe k old row replies (replies.foldl k.reply e) := by
  intro h
  have hend : ([{}].foldl k.reply e).waiting = none := by
    show (k.reply e {}).waiting = none
    unfold RowKind.reply
    rw [hwaiting]
    exact (onAdded_frame k true (k.add row (some {}))
      { e with waiting := none }).2
  have hone := run_adding k hwaiting [{}]
  rw [hsent] at hone
  rcases (h [{}]).ended hend with hnone | ⟨d, r, hdelete, -⟩ | ⟨d, a', hboth, -⟩
  · rw [hone] at hnone
    cases hnone
  · rw [hone] at hdelete
    cases hdelete
  · rw [hone] at hboth
    cases hboth

/-- What is promised of a replacement is kept for all replies, if and only if
the row survives. -/
theorem safe_iff (old : ι) (row : ω) (addError : Option String) (p : Panel) :
    (∀ replies, Safe k old row replies
      (replies.foldl k.reply (k.replace old row addError { panel := p }))) ↔
      Survives k old row addError p := by
  unfold Survives
  split
  · next hempty =>
    rw [replace_empty k hempty]
    rcases addPlain_cases k row addError (p.setLastError "") with
      ⟨hnone, hidle⟩ | ⟨a, hplain, -, hsent, hwaiting⟩
    · exact iff_of_true (safe_idle k hidle old row) hnone
    · exact iff_of_false (not_safe_plain k hsent hwaiting old)
        (fun h => h hplain)
  · next hgiven =>
    rcases replace_cases k hgiven row addError p with
      ⟨hnone, hidle⟩ | ⟨d, hsends, hdelete, hsent, hwaiting⟩
    · exact iff_of_true (safe_idle k hidle old row)
        (fun hsends => absurd hsends hnone)
    · cases ha : k.addRequest row with
      | none =>
          refine iff_of_false (fun h => ?_) (fun h => h hsends rfl)
          refine (h []).refused ha d ?_
          rw [List.foldl_nil, hsent]
          exact List.mem_singleton_self _
      | some a =>
          exact iff_of_true (safe_deleting k hdelete hsent hwaiting ha)
            (fun _ => Option.some_ne_none a)

end Runs

/-! ## Watchdogs -/

/-- What goes for an id: but for dashes and braces thirty-two letters or digits,
one of which may be no hex digit. -/
def TakenForId (tables : CharTables) (s : Units) : Prop :=
  (∀ u ∈ bare s, tables.isLetterOrNumber u = true) ∧ (bare s).length = 32 ∧
    31 ≤ ((bare s).filter fun u => IsHexDigit u).length

/-- The delete of an old watchdog is not sent, or the new one goes for an id;
and without an old one the plain add is not sent. -/
def WatchdogSurvives (tables : CharTables) (ap : AgentPresence) (host : String)
    (old : Units) (w : AgentPresenceWatchdog) : Prop :=
  host = "" ∨ w.deviceIdGuid = [] ∨ w.timeoutIntervalSec ≤ 0 ∨
    if old = [] then
      ¬TakenForId tables w.deviceIdGuid ∨
        (0 < ap.maxTotalAgents ∧ ap.maxTotalAgents ≤ ap.watchdogs)
    else ¬TakenForId tables old ∨ TakenForId tables w.deviceIdGuid

section Watchdogs

variable (tables : CharTables) (mentions : List Token → String → Bool)

theorem registerAgentRequest_ne_none (w : AgentPresenceWatchdog) :
    registerAgentRequest tables w ≠ none ↔
      TakenForId tables w.deviceIdGuid ∧ ¬w.timeoutIntervalSec ≤ 0 := by
  unfold registerAgentRequest registerAgentRefusal TakenForId
  rw [← encode_ne_nil]
  split
  · next error herror =>
    refine iff_of_false (fun h => h rfl) ?_
    rintro ⟨hid, htimeout⟩
    rw [if_neg hid, if_neg htimeout] at herror
    cases herror
  · next hnone =>
    refine iff_of_true (Option.some_ne_none _) ?_
    split at hnone
    · cases hnone
    split at hnone
    · cases hnone
    · next hid htimeout => exact ⟨hid, htimeout⟩

theorem deleteWatchdogRequest_ne_none (old : Units) :
    deleteWatchdogRequest tables old ≠ none ↔ TakenForId tables old := by
  unfold deleteWatchdogRequest TakenForId
  rw [← encode_ne_nil]
  dsimp only
  split
  · next hempty => exact iff_of_false (fun h => h rfl) (fun h => h hempty)
  · next hgiven => exact iff_of_true (Option.some_ne_none _) hgiven

theorem addWatchdogError_eq_none (ap : AgentPresence)
    (w : AgentPresenceWatchdog) :
    addWatchdogError ap w = none ↔ w.deviceIdGuid ≠ [] ∧
      ¬w.timeoutIntervalSec ≤ 0 ∧
        ¬(0 < ap.maxTotalAgents ∧ ap.maxTotalAgents ≤ ap.watchdogs) := by
  unfold addWatchdogError
  split
  · next h => exact iff_of_false nofun (fun hall => hall.1 h)
  · next hid =>
    split
    · next h => exact iff_of_false nofun (fun hall => hall.2.1 h)
    · next htimeout =>
      split
      · next h => exact iff_of_false nofun (fun hall => hall.2.2 h)
      · next hceiling => exact iff_of_true rfl ⟨hid, htimeout, hceiling⟩

theorem watchdog_survives_iff (ap : AgentPresence) (old : Units)
    (w : AgentPresenceWatchdog) (p : Panel) :
    Survives (watchdogRows tables mentions) old w (addWatchdogError ap w) p ↔
      WatchdogSurvives tables ap p.host old w := by
  have hadd := registerAgentRequest_ne_none tables w
  have hdelete := deleteWatchdogRequest_ne_none tables old
  have herror := addWatchdogError_eq_none ap w
  have hsavable : (watchdogRows tables mentions).savable w = true ↔
      w.deviceIdGuid ≠ [] ∧ ¬w.timeoutIntervalSec ≤ 0 := by
    show (w.deviceIdGuid ≠ [] && w.timeoutIntervalSec > 0) = true ↔ _
    simp
  unfold Survives WatchdogSurvives SendsPlain SendsDelete
  rw [String.isEmpty_iff]
  show (if old.isEmpty = true then
    ¬(_ ∧ _ ∧ registerAgentRequest tables w ≠ none) else
      (_ ∧ _ ∧ deleteWatchdogRequest tables old ≠ none) →
        registerAgentRequest tables w ≠ none) ↔ _
  rw [hadd, hdelete, herror, hsavable]
  clear hadd hdelete herror hsavable
  by_cases hold : old = []
  · rw [if_pos (List.isEmpty_iff.mpr hold), if_pos hold]
    grind
  · rw [if_neg (fun h => hold (List.isEmpty_iff.mp h)), if_neg hold]
    grind

end Watchdogs

/-! ## Wake alarms -/

/-- There is an old alarm, or the plain add is not sent. -/
def AlarmSurvives (host : String) (old : String) (a : WakeAlarm) : Prop :=
  old ≠ "" ∨ host = "" ∨ a.elementName = "" ∨ a.startTimeIso = ""

theorem addAlarmRequest_ne_none (a : WakeAlarm) :
    addAlarmRequest a ≠ none ↔ a.elementName ≠ "" ∧ a.startTimeIso ≠ "" := by
  unfold addAlarmRequest
  split
  · next h => exact iff_of_false (fun hne => hne rfl) (by tauto)
  · next h => exact iff_of_true (Option.some_ne_none _) (not_or.mp h)

theorem addAlarmError_eq_none (a : WakeAlarm) :
    addAlarmError a = none ↔ a.elementName ≠ "" ∧ a.startTimeIso ≠ "" := by
  unfold addAlarmError
  split
  · next h => exact iff_of_false nofun (fun hall => hall.1 h)
  · next hname =>
    split
    · next h => exact iff_of_false nofun (fun hall => hall.2 h)
    · next hstart => exact iff_of_true rfl ⟨hname, hstart⟩

theorem alarm_survives_iff (mentions : List Token → String → Bool)
    (old : String) (a : WakeAlarm) (p : Panel) :
    Survives (alarmRows mentions) old a (addAlarmError a) p ↔
      AlarmSurvives p.host old a := by
  have hadd := addAlarmRequest_ne_none a
  have herror := addAlarmError_eq_none a
  have hsavable : (alarmRows mentions).savable a = true ↔
      a.elementName ≠ "" ∧ a.startTimeIso ≠ "" := by
    show (a.elementName ≠ "" && a.startTimeIso ≠ "") = true ↔ _
    simp
  unfold Survives AlarmSurvives SendsPlain SendsDelete
  rw [String.isEmpty_iff]
  show (if old.isEmpty = true then
    ¬(_ ∧ _ ∧ addAlarmRequest a ≠ none) else
      (_ ∧ _ ∧ _) → addAlarmRequest a ≠ none) ↔ _
  rw [hadd, herror, hsavable]
  by_cases hold : old = ""
  · rw [if_pos (String.isEmpty_iff.mpr hold)]
    grind
  · rw [if_neg (fun h => hold (String.isEmpty_iff.mp h))]
    grind

/-! ## Both kinds -/

/-- The requests of a watchdog's replacement, with these replies so far. -/
def WatchdogSafe (tables : CharTables) (mentions : List Token → String → Bool)
    (ap : AgentPresence) (old : Units) (fields : WatchdogFields) (p : Panel)
    (replies : List Outcome) : Prop :=
  Safe (watchdogRows tables mentions) old (watchdogFromFields fields) replies
    (replies.foldl (watchdogRows tables mentions).reply
      (replaceAgentPresenceWatchdog tables mentions ap old fields
        { panel := p }))

def AlarmSafe (mentions : List Token → String → Bool) (old : String)
    (fields : WakeAlarmFields) (p : Panel) (replies : List Outcome) : Prop :=
  Safe (alarmRows mentions) old (alarmFromFields fields) replies
    (replies.foldl (alarmRows mentions).reply
      (replaceWakeAlarm mentions old fields { panel := p }))

theorem watchdogSafe_iff (tables : CharTables)
    (mentions : List Token → String → Bool) (ap : AgentPresence) (old : Units)
    (fields : WatchdogFields) (p : Panel) :
    (∀ replies, WatchdogSafe tables mentions ap old fields p replies) ↔
      WatchdogSurvives tables ap p.host old (watchdogFromFields fields) := by
  rw [← watchdog_survives_iff tables mentions]
  exact safe_iff (watchdogRows tables mentions) old (watchdogFromFields fields)
    (addWatchdogError ap (watchdogFromFields fields)) p

theorem alarmSafe_iff (mentions : List Token → String → Bool) (old : String)
    (fields : WakeAlarmFields) (p : Panel) :
    (∀ replies, AlarmSafe mentions old fields p replies) ↔
      AlarmSurvives p.host old (alarmFromFields fields) := by
  rw [← alarm_survives_iff mentions]
  exact safe_iff (alarmRows mentions) old (alarmFromFields fields)
    (addAlarmError (alarmFromFields fields)) p

/-- The new watchdog of the sample: its id is `x`. -/
def misnamed : WatchdogFields where
  deviceIdGuid := [0x78]
  timeoutIntervalSec := 30

def reachedPanel : Panel where
  machine := { host := "amt" }

/-- The old watchdog is deleted, and none comes in its place. -/
theorem watchdog_lost :
    ¬∀ replies, WatchdogSafe asciiTables (fun _ _ => false) {}
      (List.replicate 32 0x31) misnamed reachedPanel replies := by
  have hid : (watchdogFromFields misnamed).deviceIdGuid = [0x78] := by
    decide
  have hbare : bare (List.replicate 32 0x31) = List.replicate 32 0x31 := by
    decide
  have hold : TakenForId asciiTables (List.replicate 32 0x31) := by
    unfold TakenForId
    rw [hbare]
    refine ⟨fun u hu => ?_, by decide, by decide⟩
    rw [List.eq_of_mem_replicate hu]
    decide
  have hnew : ¬TakenForId asciiTables [0x78] := fun h =>
    absurd h.2.1 (by decide)
  rw [watchdogSafe_iff]
  unfold WatchdogSurvives
  rw [hid, if_neg (by decide)]
  rintro (hhost | hempty | htimeout | hnone | htaken)
  · exact absurd hhost (by decide)
  · cases hempty
  · exact absurd htimeout (by decide)
  · exact hnone hold
  · exact hnew htaken

/-- A replacement does what is promised for all replies, if and only if the
watchdog survives, or the alarm does. -/
theorem replaces_safely_iff (tables : CharTables)
    (mentions : List Token → String → Bool) (p : Panel) :
    (∀ ap old fields,
      (∀ replies, WatchdogSafe tables mentions ap old fields p replies) ↔
        WatchdogSurvives tables ap p.host old (watchdogFromFields fields)) ∧
      ∀ old fields, (∀ replies, AlarmSafe mentions old fields p replies) ↔
        AlarmSurvives p.host old (alarmFromFields fields) :=
  ⟨fun ap old fields => watchdogSafe_iff tables mentions ap old fields p,
    fun old fields => alarmSafe_iff mentions old fields p⟩

end QuMesh.Details
