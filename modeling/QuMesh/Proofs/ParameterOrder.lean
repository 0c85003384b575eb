import QuMesh.Wsman.Operations

/-!
# In which order parameters are written

The firmware checks an invocation against a schema that fixes the sequence of
its parameters. A table with two entries comes in one order in one run of the
program and in the other in another, so what is written from it may be accepted
or not by chance. The ordered builder was made for that reason, and four
operations with more than one parameter do not use it.
-/

namespace QuMesh.Wsman

open QuMesh.Lib

/-- All runs write the same sequence, and with it all of them are accepted or
none is. -/
def Parameters.Settled (p : Parameters) : Prop :=
  ∀ σ τ : HashOrder, p.elements σ = p.elements τ

theorem settled_unordered_iff (t : TextTable) :
    (Parameters.unordered t).Settled ↔ t.entries.length ≤ 1 :=
  Order.agree_iff t

theorem settled_ordered (l : List (String × String)) :
    (Parameters.ordered l).Settled := fun _ _ => rfl

theorem single_length (name value : String) :
    (single name value).entries.length = 1 := rfl

/-- Two parameters of different names. -/
theorem pair_length {a b : String} (h : a ≠ b) (v w : String) :
    ((single a v).insert b w).entries.length = 2 := by
  have hnew : b ∉ (single a v).entries.map Prod.fst := by
    intro hmem
    exact h (List.mem_singleton.mp hmem).symm
  rw [Table.insert_length, if_neg hnew, single_length]

theorem single_settled (name value : String) :
    (Parameters.unordered (single name value)).Settled :=
  (settled_unordered_iff _).mpr (Nat.le_refl 1)

theorem none_settled : (Parameters.unordered .empty).Settled :=
  (settled_unordered_iff _).mpr (Nat.zero_le 1)

theorem unsettled {t : TextTable} (h : 2 ≤ t.entries.length) :
    ¬(Parameters.unordered t).Settled := by
  rw [settled_unordered_iff]
  omega

/-- The operations that fill a table with more than one parameter. -/
def Operation.Shuffles : Operation → Prop
  | setAclEnabledState _ _ | generateKeyPair _ _ | addHttpProxy _ _ _ _
  | addMpServer _ => True
  | _ => False

theorem mpServerParams_length (input : MpServerInput) :
    2 ≤ (Invoke.mpServerParams input).entries.length := by
  have hpair := pair_length (show "AccessInfo" ≠ "InfoFormat" by decide)
    input.accessInfo (number32 input.infoFormat)
  have hauth := Table.le_insert "AuthMethod" (number32 input.authMethod)
    (Table.le_insert "Port" (number32 input.port) (Nat.le_of_eq hpair.symm))
  unfold Invoke.mpServerParams
  simp only []
  refine Table.le_insert _ _ (Table.le_insert _ _ ?_)
  split
  · exact Table.le_insert _ _ (Table.le_insert _ _ hauth)
  · exact hauth

/-- For all arguments, an operation writes its parameters in one sequence in
all runs exactly where it is none of those. -/
theorem parameters_settled_iff (op : Operation) :
    op.invoke.parameters.Settled ↔ ¬op.Shuffles := by
  cases op with
  | setAclEnabledState handle enabled =>
      refine iff_of_false (unsettled (Nat.le_of_eq ?_)) fun h => h trivial
      exact (pair_length (by decide) _ _).symm
  | generateKeyPair algorithm length =>
      refine iff_of_false (unsettled (Nat.le_of_eq ?_)) fun h => h trivial
      exact (pair_length (by decide) _ _).symm
  | addHttpProxy accessInfo infoFormat port suffix =>
      refine iff_of_false (unsettled ?_) fun h => h trivial
      refine Table.le_insert _ _ (Table.le_insert _ _ (Nat.le_of_eq ?_))
      exact (pair_length (by decide) _ _).symm
  | addMpServer input =>
      exact iff_of_false (unsettled (mpServerParams_length input)) fun h =>
        h trivial
  | setHighAccuracyTimeSync | getRecords | addUserAclEntryEx
  | updateUserAclEntryEx | setAdminAclEntryEx =>
      exact iff_of_true (settled_ordered _) id
  | requestOsPowerStateChange | requestPowerStateChange
  | enumerateUserAclEntries | getUserAclEntryEx | getAclEnabledState
  | removeUserAclEntry | sendOptInCode | setKvmRedirectionEnabled | readRecords
  | addTrustedRootCertificate | addCertificate | setWiFiPortState
  | setUserInitiatedConnectionState =>
      exact iff_of_true (single_settled _ _) id
  | setPowerScheme | getTimeSettings | positionToFirstRecord | getAdminAclEntry
  | startOptIn | cancelOptIn | deleteAllITWiFiProfiles
  | deleteAllUserWiFiProfiles | clearAuditLog | clearEventLog =>
      exact iff_of_true none_settled id

/-- A key pair is asked for with its length behind the algorithm in one run,
and in front of it in another. -/
theorem parameters_shuffled :
    ¬∀ (op : Operation) (σ τ : HashOrder),
      op.invoke.parameters.elements σ = op.invoke.parameters.elements τ := by
  intro h
  have hsame := h (.generateKeyPair 0 2048) .forward .backward
  have hother : (Operation.generateKeyPair 0 2048).invoke.parameters.elements
      .forward ≠ (Operation.generateKeyPair 0 2048).invoke.parameters.elements
      .backward := by
    decide
  exact hother hsame

end QuMesh.Wsman
