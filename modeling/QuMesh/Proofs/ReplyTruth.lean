import QuMesh.Proofs.SoapTrees
import QuMesh.Wsman.BootActions

/-!
# What counts as a success

An operation is to report a success only for a genuine one: a 2xx status, an
envelope without a fault, and for an invocation a `ReturnValue` that is the
number 0. What the operations look at is less. None of them asks for the status,
or whether the body is an envelope at all: what is no envelope has no fault and
no `ReturnValue`, and this is a success wherever a missing `ReturnValue` is one.
That is so for the opt-in service and the accounts, whose extractors read what is
no number as a 0 where the extractors of other operations report it, and for the
operations that look at nothing. A fault is told by its text, so that a fault
without any is none.

`reportsTruth_iff` says that there is nothing else: where the reply tells of its
failure in one of the ways the operation looks at, no success is reported, and
all other replies are reported as one.
-/

namespace QuMesh.Wsman

open QuMesh.Lib QuMesh.Lib.Xml

/-! ## Genuine successes -/

/-- There is no fault, with a text or without one. -/
def Faultless (xml : List Token) : Prop :=
  ∀ attributes, Token.startElement kNsSoap "Fault" attributes ∉ xml

/-- The `ReturnValue` of a reply, as a number. -/
def Outcome.returnValue (r : Outcome) : Option Int :=
  Strings.toInt (findScalar (parseResponse r.xml).bodyXml "ReturnValue")

structure Genuine (invokes : Bool) (r : Outcome) : Prop where
  status : 200 ≤ r.httpStatus ∧ r.httpStatus < 300
  complete : r.complete = true
  envelope : ∃ e : Envelope, e.Valid ∧ r.xml = e.node.tokens
  faultless : Faultless r.xml
  returnValue : invokes = true → r.returnValue = some 0

/-- Where there is no fault none is read. -/
theorem fault_of_faultless {xml : List Token} (h : Faultless xml) :
    (parseResponse xml).fault = "" := by
  let P (s : ResponseLoop) : Prop := s.fault = "" ∧ Faultless s.r
  have hkeep {s : ResponseLoop} {t : Token} {r : List Token}
      (hs : P s) (hr : s.r = t :: r) {s' : ResponseLoop}
      (hfault : s'.fault = s.fault) (hrest : s'.r <:+ r) : P s' := by
    refine ⟨hfault.trans hs.1, fun attributes hmem => hs.2 attributes ?_⟩
    rw [hr]
    exact List.mem_cons_of_mem _ (hrest.subset hmem)
  have hround : ∀ s, P s → P s.round := by
    intro s hs
    unfold ResponseLoop.round
    cases hr : s.r with
    | nil => exact hs
    | cons t r =>
        cases t with
        | characters text =>
            simp only [ResponseLoop.characters]
            split <;> exact hkeep hs hr rfl List.suffix_rfl
        | endElement =>
            simp only [ResponseLoop.endElement]
            split <;> split <;> exact hkeep hs hr rfl List.suffix_rfl
        | startElement ns ln attrs =>
            simp only [ResponseLoop.startElement]
            split
            · exact hkeep hs hr rfl List.suffix_rfl
            split
            · next hf =>
              obtain ⟨-, -, rfl, rfl⟩ := hf
              refine absurd ?_ (hs.2 attrs)
              rw [hr]
              exact List.mem_cons_self
            split
            · exact hkeep hs hr rfl (readElementText_suffix r)
            split
            · exact hkeep hs hr rfl (readElementText_suffix r)
            split <;> exact hkeep hs hr rfl List.suffix_rfl
  exact (readToEnd_invariant (P := P) hround ⟨rfl, h⟩).1

/-! ## What is looked at -/

/-- What an operation asks of the `ReturnValue`. -/
inductive Check
  | strict
  | lax
  | unread
  deriving DecidableEq

/-- The `ReturnValue` is one that is reported as a failure. -/
def Check.rejects (returnValue : Option Int) : Check → Prop
  | .strict => returnValue ≠ some 0
  | .lax => ∃ n, returnValue = some n ∧ n ≠ 0
  | .unread => False

inductive CheckedOperation
  | startOptIn
  | sendOptInCode
  | cancelOptIn
  | addUserAclEntryEx
  | updateUserAclEntryEx
  | removeUserAclEntry
  | setAclEnabledState
  | setAdminAclEntryEx
  | deleteAgentPresenceWatchdog (tables : CharTables) (guid : Units)
  | deleteAgentPresenceWatchdogAction (tables : CharTables) (guid : Units)
      (oldState newState : Int)
  | bootStep (p : BootActionParams) (step : BootStep)

namespace CheckedOperation

def result : CheckedOperation → Option Outcome → InvokeResult
  | startOptIn => Wsman.startOptIn
  | sendOptInCode => Wsman.sendOptInCode
  | cancelOptIn => Wsman.cancelOptIn
  | addUserAclEntryEx => Wsman.addUserAclEntryEx
  | updateUserAclEntryEx => Wsman.updateUserAclEntryEx
  | removeUserAclEntry => Wsman.removeUserAclEntry
  | setAclEnabledState => Wsman.setAclEnabledState
  | setAdminAclEntryEx => Wsman.setAdminAclEntryEx
  | deleteAgentPresenceWatchdog tables guid =>
      Wsman.deleteAgentPresenceWatchdog tables guid
  | deleteAgentPresenceWatchdogAction tables guid oldState newState =>
      Wsman.deleteAgentPresenceWatchdogAction tables guid oldState newState
  | bootStep p step => step.result p

/-- The request calls a method, which answers with a `ReturnValue`. -/
def invokes : CheckedOperation → Bool
  | deleteAgentPresenceWatchdog .. | deleteAgentPresenceWatchdogAction .. => false
  | bootStep _ step => step ≠ .putBootSettingData
  | _ => true

def check : CheckedOperation → Check
  | deleteAgentPresenceWatchdog .. | deleteAgentPresenceWatchdogAction .. =>
      .unread
  | bootStep _ step => if step = .putBootSettingData then .unread else .strict
  | _ => .lax

/-- The arguments are none to send. -/
def refuses : CheckedOperation → Prop
  | deleteAgentPresenceWatchdog tables guid =>
      encodeWatchdogDeviceId tables guid = []
  | deleteAgentPresenceWatchdogAction tables guid oldState newState =>
      encodeWatchdogDeviceId tables guid = [] ∨ oldState < 0 ∨ newState < 0
  | _ => False

/-- The operation is told of a failure: nothing is sent, or the reply is an error
of the transport, or a fault with a text, or it has a `ReturnValue` that the
operation rejects. -/
def Told (op : CheckedOperation) : Option Outcome → Prop
  | none => True
  | some r =>
      op.refuses ∨ r.errorString ≠ "" ∨ (parseResponse r.xml).fault ≠ "" ∨
        op.check.rejects r.returnValue

end CheckedOperation

/-! ## Extractors -/

theorem response_cases (r : Outcome) :
    (∃ error, r.response = .error error ∧
      ¬(r.errorString = "" ∧ (parseResponse r.xml).fault = "")) ∨
    (r.response = .ok (parseResponse r.xml) ∧
      r.errorString = "" ∧ (parseResponse r.xml).fault = "") := by
  simp only [Outcome.response, Outcome.hasError, SoapResponse.isFault,
    decide_eq_true_eq]
  split
  next herr => exact .inl ⟨_, rfl, fun h => herr h.1⟩
  next herr =>
  split
  next hfault => exact .inl ⟨_, rfl, fun h => hfault h.2⟩
  next hfault => exact .inr ⟨rfl, not_not.mp herr, not_not.mp hfault⟩

/-- An extractor that goes by one kind of check. -/
def Extractor.Checks (check : Check) (extract : Extractor) : Prop :=
  ∀ body, (extract body {}).ok = true ↔
    ¬check.rejects (Strings.toInt (findScalar body "ReturnValue"))

theorem lax_iff (value : Option Int) :
    value.getD 0 = 0 ↔ ¬Check.lax.rejects value := by
  cases value with
  | none => simp [Check.rejects]
  | some n => simp [Check.rejects]

theorem optInExtractor_checks (what : String) :
    (optInExtractor what).Checks .lax := by
  intro body
  rw [← lax_iff]
  simp only [optInExtractor]
  split
  next => exact decide_eq_true_iff
  next => exact decide_eq_true_iff

theorem aclReturnValueExtractor_checks (what : String) :
    (aclReturnValueExtractor what).Checks .lax := by
  intro body
  rw [← lax_iff]
  simp only [aclReturnValueExtractor]
  split
  next => exact decide_eq_true_iff
  next => exact decide_eq_true_iff

theorem readReturnValueOk_checks : Extractor.Checks .strict readReturnValueOk := by
  intro body
  simp only [readReturnValueOk, Check.rejects, not_not]
  split
  next hempty =>
    rw [hempty]
    decide
  next => exact decide_eq_true_iff

theorem returnValueExtractor_checks (what : String) :
    (returnValueExtractor what).Checks .strict := by
  intro body
  rw [← readReturnValueOk_checks body]
  simp only [returnValueExtractor]
  split <;> rfl

theorem deletedExtractor_checks : Extractor.Checks .unread deletedExtractor := by
  intro body
  exact iff_of_true rfl id

/-! ## Operations -/

/-- A reply as a check takes it for a success. -/
structure Taken (check : Check) (r : Outcome) : Prop where
  noError : r.errorString = ""
  noFault : (parseResponse r.xml).fault = ""
  returnValue : ¬check.rejects r.returnValue

/-- What is reported of a request that was sent. -/
def ReportsTaken (check : Check) (report : Option Outcome → InvokeResult) :
    Prop :=
  (report none).ok = false ∧ ∀ r, (report (some r)).ok = true ↔ Taken check r

variable {check : Check} {extract : Extractor}

theorem runRequest_taken (h : extract.Checks check) :
    ReportsTaken check (runRequest extract) := by
  refine ⟨rfl, fun r => ?_⟩
  have hbody := h (parseResponse r.xml).bodyXml
  rw [runRequest]
  rcases response_cases r with ⟨error, hr, hnot⟩ | ⟨hr, hnoError, hnoFault⟩
  · rw [hr]
    exact iff_of_false (by simp) fun ht => hnot ⟨ht.noError, ht.noFault⟩
  · rw [hr]
    exact hbody.trans
      ⟨fun hvalue => ⟨hnoError, hnoFault, hvalue⟩, Taken.returnValue⟩

theorem runChainStep_taken (h : extract.Checks check) (name : String) :
    ReportsTaken check (runChainStep name extract) := by
  refine ⟨rfl, fun r => ?_⟩
  have hbody : (extract (parseResponse r.xml).bodyXml {}).ok = true ↔
      ¬check.rejects r.returnValue := h _
  rw [runChainStep]
  rcases response_cases r with ⟨error, hr, hnot⟩ | ⟨hr, hnoError, hnoFault⟩
  · rw [hr]
    exact iff_of_false (by simp) fun ht => hnot ⟨ht.noError, ht.noFault⟩
  · rw [hr]
    have hvalue : Taken check r ↔ ¬check.rejects r.returnValue :=
      ⟨Taken.returnValue, fun hvalue => ⟨hnoError, hnoFault, hvalue⟩⟩
    rw [hvalue, ← hbody]
    dsimp only
    split
    next hok => exact Iff.rfl
    next hok => exact iff_of_false (by simp) hok

/-- A step of the boot chain goes by the `ReturnValue`, but for the one that
puts. -/
theorem BootStep.result_taken (p : BootActionParams) (step : BootStep) :
    ReportsTaken (if step = .putBootSettingData then .unread else .strict)
      (step.result p) := by
  cases step with
  | clearBootOrder => exact runChainStep_taken readReturnValueOk_checks _
  | putBootSettingData => exact runChainStep_taken deletedExtractor_checks _
  | setRole => exact runChainStep_taken readReturnValueOk_checks _
  | setSpecificBootSource => exact runChainStep_taken readReturnValueOk_checks _
  | powerChange => exact runRequest_taken (returnValueExtractor_checks _)

namespace CheckedOperation

/-- An operation that sends its request goes by its check. -/
theorem result_taken (op : CheckedOperation) (h : ¬op.refuses) :
    ReportsTaken op.check op.result := by
  cases op with
  | startOptIn | sendOptInCode | cancelOptIn =>
      exact runRequest_taken (optInExtractor_checks _)
  | addUserAclEntryEx | updateUserAclEntryEx | removeUserAclEntry
  | setAclEnabledState | setAdminAclEntryEx =>
      exact runRequest_taken (aclReturnValueExtractor_checks _)
  | deleteAgentPresenceWatchdog tables guid =>
      have hsent : (deleteAgentPresenceWatchdog tables guid).result =
          runRequest deletedExtractor :=
        funext fun _ => if_neg h
      rw [hsent]
      exact runRequest_taken deletedExtractor_checks
  | deleteAgentPresenceWatchdogAction tables guid oldState newState =>
      obtain ⟨hguid, hstates⟩ := not_or.mp h
      have hsent : (deleteAgentPresenceWatchdogAction tables guid oldState
          newState).result = runRequest deletedExtractor :=
        funext fun _ => (if_neg hguid).trans (if_neg hstates)
      rw [hsent]
      exact runRequest_taken deletedExtractor_checks
  | bootStep p step => exact BootStep.result_taken p step

theorem result_refused (op : CheckedOperation) (h : op.refuses)
    (reply : Option Outcome) : (op.result reply).ok = false := by
  cases op with
  | deleteAgentPresenceWatchdog tables guid =>
      change encodeWatchdogDeviceId tables guid = [] at h
      show (Wsman.deleteAgentPresenceWatchdog tables guid reply).ok = false
      rw [Wsman.deleteAgentPresenceWatchdog, if_pos h]
  | deleteAgentPresenceWatchdogAction tables guid oldState newState =>
      show (Wsman.deleteAgentPresenceWatchdogAction tables guid oldState newState
        reply).ok = false
      rw [Wsman.deleteAgentPresenceWatchdogAction]
      split
      · rfl
      next hguid =>
        rw [if_pos (h.resolve_left hguid)]
  | _ => exact h.elim

/-- A failure is reported where it was told, and only there. -/
theorem ok_iff (op : CheckedOperation) (reply : Option Outcome) :
    (op.result reply).ok = true ↔ ¬op.Told reply := by
  by_cases hrefuses : op.refuses
  · refine iff_of_false (by rw [op.result_refused hrefuses]; simp) fun hnot => ?_
    cases reply with
    | none => exact hnot trivial
    | some r => exact hnot (.inl hrefuses)
  obtain ⟨hnone, hsome⟩ := op.result_taken hrefuses
  cases reply with
  | none => exact iff_of_false (by rw [hnone]; simp) fun hnot => hnot trivial
  | some r =>
      rw [hsome r]
      constructor
      · rintro ⟨hnoError, hnoFault, hvalue⟩ (h | h | h | h)
        · exact hrefuses h
        · exact h hnoError
        · exact h hnoFault
        · exact hvalue h
      · intro hnot
        obtain ⟨-, hnot⟩ := not_or.mp hnot
        obtain ⟨herr, hnot⟩ := not_or.mp hnot
        obtain ⟨hfault, hvalue⟩ := not_or.mp hnot
        exact ⟨not_not.mp herr, not_not.mp hfault, hvalue⟩

/-- A genuine success is reported. -/
theorem ok_of_genuine (op : CheckedOperation) {r : Outcome}
    (hrefuses : ¬op.refuses) (herror : r.errorString = "")
    (h : Genuine op.invokes r) : (op.result (some r)).ok = true := by
  rw [ok_iff]
  rintro (hr | hr | hr | hr)
  · exact hrefuses hr
  · exact hr herror
  · exact hr (fault_of_faultless h.faultless)
  · by_cases hinvokes : op.invokes = true
    · rw [h.returnValue hinvokes] at hr
      cases hcheck : op.check with
      | strict =>
          rw [hcheck] at hr
          exact hr rfl
      | lax =>
          rw [hcheck] at hr
          obtain ⟨n, hn, hne⟩ := hr
          cases hn
          exact hne rfl
      | unread =>
          rw [hcheck] at hr
          exact hr
    · have hunread : op.check = .unread := by
        cases op with
        | bootStep p step =>
            refine if_pos ?_
            simpa [invokes] using hinvokes
        | deleteAgentPresenceWatchdog => rfl
        | deleteAgentPresenceWatchdogAction => rfl
        | _ => exact absurd rfl hinvokes
      rw [hunread] at hr
      exact hr

/-- No success is reported that is none. -/
def ReportsTruth (op : CheckedOperation) (reply : Option Outcome) : Prop :=
  (op.result reply).ok = true → ∃ r, reply = some r ∧ Genuine op.invokes r

/-- An empty body is a success of `StartOptIn`. -/
theorem empty_startOptIn :
    ∃ reply, ¬startOptIn.ReportsTruth (some reply) := by
  refine ⟨{}, fun h => ?_⟩
  obtain ⟨r, hr, hgenuine⟩ := h (by decide)
  cases hr
  have hvalue := hgenuine.returnValue rfl
  exact absurd hvalue (by decide)

/-- An operation reports the truth if and only if it was told of the failure, or
there is none. -/
theorem reportsTruth_iff (op : CheckedOperation) (reply : Option Outcome) :
    op.ReportsTruth reply ↔
      op.Told reply ∨ ∃ r, reply = some r ∧ Genuine op.invokes r := by
  rw [ReportsTruth, ok_iff]
  constructor
  · intro h
    by_cases htold : op.Told reply
    · exact .inl htold
    · exact .inr (h htold)
  · rintro (htold | hgenuine) hnot
    · exact absurd htold hnot
    · exact hgenuine

end CheckedOperation

end QuMesh.Wsman
