import QuMesh.Lib.Run
import QuMesh.Proofs.SoapTrees
import QuMesh.Wsman.AuditLog

/-!
# Paging through the audit log

The StartIndex of a page is one more than the number of entries so far, and that
is the number of records read only while every record is an entry. A record that
is none makes the next page begin too early; on a page of its own it makes the
next page begin where this one did, and the reading stops, `unread_record`.

While the records decode, a page from behind the entries brings the next ones,
`page_entries`, and it either brings some or there are no more that decode. So
the reading comes out right, whatever number of records the device chooses for
each page, if the records that do not decode are the last ones; and where one of
them stands before a record that does, a device that returns them one at a time
loses that record. A total that an `int` does not hold is the other thing that
ends the reading early.
-/

namespace QuMesh.Wsman

open QuMesh.Lib QuMesh.Lib.Xml

/-! ## The device -/

def recordsElement (name text : String) : Node :=
  .element kAuditLogResource name [] [.text text]

def recordsOutput (total : Nat) (records : List String) : Node :=
  .element kAuditLogResource "ReadRecords_OUTPUT" []
    (recordsElement "TotalRecordCount" (toString total) ::
      recordsElement "RecordsReturned" (toString records.length) ::
      (records.map (recordsElement "EventRecords") ++
        [recordsElement "ReturnValue" "0"]))

/-- The reply to ReadRecords. -/
def recordsReply (total : Nat) (records : List String) : Envelope where
  before := [.element kNsSoap "Header" []
    [.element kNsAddressing "Action" []
      [.text (kAuditLogResource ++ "/ReadRecordsResponse")]]]
  body := [recordsOutput total records]

/-- The reply of a device with this log that chooses to return up to `count`
records from the StartIndex on. -/
def auditPage (log : List String) (startIndex count : Nat) : Outcome :=
  { xml := (recordsReply log.length
      ((log.drop (startIndex - 1)).take count)).node.tokens }

namespace AuditRead

/-- The device replies to the request that is out. -/
def step (log : List String) (s : AuditRead) (count : Nat) : AuditRead :=
  match s.waiting with
  | none => s
  | some startIndex => s.reply (auditPage log startIndex count)

/-- After so many replies, each with the number of records that was chosen for
it. -/
def after (log : List String) (choice : Nat → Nat) (n : Nat) : AuditRead :=
  run (step log) {} ((List.range n).map choice)

end AuditRead

/-- The log is read: whatever positive numbers the device chooses, the reading
ends, with one call, and with the entries of the log. -/
def ReadsLog (log : List String) : Prop :=
  ∀ choice : Nat → Nat, (∀ i, 0 < choice i) →
    ∃ n, (AuditRead.after log choice n).waiting = none ∧
      (AuditRead.after log choice n).calls =
        [{ ok := true, entries := log.filterMap decodeRecord }]

/-- The condition: no record that does not decode stands before one that
does. -/
def UndecodableLast (log : List String) : Prop :=
  ∀ t ∈ log.dropWhile fun t => (decodeRecord t).isSome, decodeRecord t = none

instance (log : List String) : Decidable (UndecodableLast log) :=
  inferInstanceAs (Decidable (∀ t ∈ _, decodeRecord t = none))

/-! ## One page -/

namespace RecordLoop

theorem round_shrinks (s : RecordLoop) (h : s.r ≠ []) :
    s.round.r.length < s.r.length := by
  unfold round
  cases hr : s.r with
  | nil => exact absurd hr h
  | cons t r =>
      have htext := readElementText_length r
      cases t with
      | characters text => simp
      | endElement => simp
      | startElement ns name attributes =>
          dsimp only
          split
          · simp only [List.length_cons]
            omega
          · simp

theorem loop_round {s : RecordLoop} {t : Token} {r : List Token}
    (h : s.r = t :: r) : s.loop = s.round.loop := by
  refine readToEnd_step round_shrinks ?_
  rw [h]
  exact List.cons_ne_nil t r

/-- An element that is no record, with text in it. -/
theorem loop_other {name : String} (hname : name ≠ "EventRecords")
    (text : String) (r : List Token) (entries : List AuditLogEntry) :
    loop ⟨(recordsElement name text).tokens ++ r, entries⟩ = loop ⟨r, entries⟩ := by
  simp only [recordsElement, Node.tokens, allTokens, List.cons_append,
    List.nil_append, List.append_nil]
  rw [loop_round rfl]
  simp only [round, if_neg hname]
  rw [loop_round rfl]
  simp only [round]
  rw [loop_round rfl]
  simp only [round]

theorem loop_records (records : List String) (r : List Token)
    (entries : List AuditLogEntry) :
    loop ⟨allTokens (records.map (recordsElement "EventRecords")) ++ r, entries⟩ =
      loop ⟨r, entries ++ records.filterMap decodeRecord⟩ := by
  induction records generalizing entries with
  | nil => simp [allTokens]
  | cons t rest ih =>
      have hone : ∀ r, loop ⟨(recordsElement "EventRecords" t).tokens ++ r, entries⟩ =
          loop ⟨r, entries ++ (decodeRecord t).toList⟩ := by
        intro r
        simp only [recordsElement, Node.tokens, allTokens, List.cons_append,
          List.nil_append, List.append_nil]
        rw [loop_round rfl]
        simp [round, readElementText]
      simp only [List.map_cons, allTokens, List.append_assoc]
      rw [hone, ih]
      cases ht : decodeRecord t <;> simp [ht]

end RecordLoop

theorem recordsReply_valid (total : Nat) (records : List String) :
    (recordsReply total records).Valid := by
  refine ⟨fun n hn => ?_, fun n hn => absurd hn List.not_mem_nil⟩
  cases List.mem_singleton.mp hn
  refine ⟨rfl, rfl, fun b hb => ?_⟩
  cases List.mem_singleton.mp hb
  intro _ _ n hn
  cases List.mem_singleton.mp hn
  rfl

/-- What is read of a reply: the output element, whole. -/
theorem recordsReply_response (total : Nat) (records : List String) :
    (parseResponse (recordsReply total records).node.tokens).fault = "" ∧
      readBack 0
          (parseResponse (recordsReply total records).node.tokens).bodyXml =
        (recordsOutput total records).tokens := by
  have hcontent : ∀ n ∈ (recordsReply total records).body, IsContent n := by
    intro n hn
    cases List.mem_singleton.mp hn
    exact ⟨by decide, by decide⟩
  obtain ⟨hfault, hbody⟩ :=
    parseResponse_envelope (recordsReply_valid total records) hcontent
  have helements : ((recordsReply total records).body.filter
      fun n => !n.isText) = [recordsOutput total records] := rfl
  refine ⟨hfault, ?_⟩
  rw [hbody, helements, allTokens, allTokens]
  exact readBack_element _ _ _ _ []

/-- The records of a reply. -/
theorem loop_reply (total : Nat) (records : List String)
    (entries : List AuditLogEntry) :
    (RecordLoop.loop ⟨(recordsOutput total records).tokens, entries⟩).entries =
      entries ++ records.filterMap decodeRecord := by
  have hloop : RecordLoop.loop ⟨(recordsOutput total records).tokens, entries⟩ =
      RecordLoop.loop ⟨[], entries ++ records.filterMap decodeRecord⟩ := by
    rw [recordsOutput, Node.tokens, RecordLoop.loop_round rfl]
    simp only [RecordLoop.round, allTokens, allTokens_append, List.append_assoc,
      List.nil_append]
    rw [if_neg (by decide), RecordLoop.loop_other (by decide),
      RecordLoop.loop_other (by decide), RecordLoop.loop_records,
      RecordLoop.loop_other (by decide), RecordLoop.loop_round rfl]
    simp only [RecordLoop.round]
  rw [hloop]
  exact congrArg RecordLoop.entries (readToEnd_nil rfl)

namespace AuditRead

/-- A reply is taken: its records, as far as they decode, and its total, if an
`int` holds it. -/
theorem reply_page {s : AuditRead} {startIndex : Nat}
    (hwait : s.waiting = some startIndex) (total : Nat) (records : List String) :
    s.reply { xml := (recordsReply total records).node.tokens } =
      ({ s with
          totalReported :=
            if total < 2 ^ 31 then (total : Int) else s.totalReported
          entries := s.entries ++ records.filterMap decodeRecord } :
        AuditRead).proceed startIndex := by
  obtain ⟨hfault, hread⟩ := recordsReply_response total records
  have hresponse : ({ xml := (recordsReply total records).node.tokens } :
      Outcome).response =
      .ok (parseResponse (recordsReply total records).node.tokens) := by
    simp [Outcome.response, Outcome.hasError, SoapResponse.isFault, hfault]
  have htotal : findScalar
      (parseResponse (recordsReply total records).node.tokens).bodyXml
      "TotalRecordCount" = toString total := by
    rw [findScalar, hread]
    simp [recordsOutput, Node.tokens, findScalarIn, allTokens, recordsElement,
      readElementText]
  simp only [reply, hwait, hresponse, takePage, htotal, hread, loop_reply,
    Strings.toInt_toString]
  split <;> rfl

end AuditRead

/-! ## The log -/

/-- The records up to the first that does not decode. -/
def goodRecords (log : List String) : List String :=
  log.takeWhile fun t => (decodeRecord t).isSome

/-- The rest of the log. -/
def otherRecords (log : List String) : List String :=
  log.dropWhile fun t => (decodeRecord t).isSome

/-- The entries of the good records. -/
def goodEntries (log : List String) : List AuditLogEntry :=
  (goodRecords log).filterMap decodeRecord

theorem records_split (log : List String) :
    log = goodRecords log ++ otherRecords log :=
  List.takeWhile_append_dropWhile.symm

theorem goodRecords_isSome {log : List String} :
    ∀ t ∈ goodRecords log, (decodeRecord t).isSome = true := by
  intro t ht
  exact List.all_eq_true.mp List.all_takeWhile t ht

/-- Where every record is an entry, they can be counted either way. -/
theorem filterMap_map {records : List String}
    (h : ∀ t ∈ records, (decodeRecord t).isSome = true) :
    records.filterMap decodeRecord =
      records.map fun t => (decodeRecord t).getD {} := by
  induction records with
  | nil => rfl
  | cons t rest ih =>
      rw [List.forall_mem_cons] at h
      obtain ⟨entry, hentry⟩ := Option.isSome_iff_exists.mp h.1
      rw [List.filterMap_cons_some hentry, ih h.2, List.map_cons, hentry]
      rfl

theorem goodEntries_length (log : List String) :
    (goodEntries log).length = (goodRecords log).length := by
  rw [goodEntries, filterMap_map goodRecords_isSome, List.length_map]

theorem goodEntries_page (log : List String) (e k : Nat) :
    (((goodRecords log).drop e).take k).filterMap decodeRecord =
      ((goodEntries log).drop e).take k := by
  have hsome : ∀ t ∈ ((goodRecords log).drop e).take k,
      (decodeRecord t).isSome = true := by
    intro t ht
    exact goodRecords_isSome t (List.mem_of_mem_drop (List.mem_of_mem_take ht))
  rw [goodEntries, filterMap_map hsome, filterMap_map goodRecords_isSome,
    List.map_take, List.map_drop]

theorem goodEntries_le (log : List String) :
    (goodEntries log).length ≤ log.length := by
  rw [goodEntries_length]
  exact (List.takeWhile_sublist _).length_le

theorem entries_split (log : List String) :
    log.filterMap decodeRecord =
      goodEntries log ++ (otherRecords log).filterMap decodeRecord := by
  conv => lhs; rw [records_split log, List.filterMap_append]
  rfl

theorem undecodableLast_iff (log : List String) :
    UndecodableLast log ↔ (otherRecords log).filterMap decodeRecord = [] := by
  rw [List.filterMap_eq_nil_iff]
  exact Iff.rfl

/-- The first of the other records does not decode. -/
theorem otherRecords_one (log : List String) :
    ((otherRecords log).take 1).filterMap decodeRecord = [] := by
  have hhead := List.head?_dropWhile_not (fun t => (decodeRecord t).isSome) log
  rw [← otherRecords] at hhead
  cases hrest : otherRecords log with
  | nil => rfl
  | cons t rest =>
      rw [hrest] at hhead
      have ht : decodeRecord t = none := by simpa using hhead
      simp [ht]

/-- A page from behind the entries brings the next ones, if it is of one record,
or if those that do not decode are the last. -/
theorem page_entries {log : List String} {e k : Nat}
    (he : e ≤ (goodEntries log).length) (hk : k = 1 ∨ UndecodableLast log) :
    ((log.drop e).take k).filterMap decodeRecord =
      ((goodEntries log).drop e).take k := by
  have hlen : e ≤ (goodRecords log).length := by
    rw [← goodEntries_length]
    exact he
  have hsplit : (log.drop e).take k =
      ((goodRecords log).drop e).take k ++
        (otherRecords log).take (k - ((goodRecords log).length - e)) := by
    conv => lhs; rw [records_split log]
    rw [List.drop_append_of_le_length hlen, List.take_append, List.length_drop]
  rw [hsplit, List.filterMap_append, goodEntries_page]
  have hrest : ((otherRecords log).take
      (k - ((goodRecords log).length - e))).filterMap decodeRecord = [] := by
    rcases hk with rfl | hlast
    · rcases Nat.eq_zero_or_pos (1 - ((goodRecords log).length - e)) with h | h
      · rw [h]
        rfl
      · have hone : 1 - ((goodRecords log).length - e) = 1 := by omega
        rw [hone]
        exact otherRecords_one log
    · rw [List.filterMap_eq_nil_iff]
      intro t ht
      exact hlast t (List.mem_of_mem_take ht)
  rw [hrest, List.append_nil]

namespace AuditRead

/-- The reading has come to the record behind the first `e`, all of which were
entries. -/
structure Reading (log : List String) (e : Nat) (s : AuditRead) : Prop where
  waiting : s.waiting = some (e + 1)
  entries : s.entries = (goodEntries log).take e
  le : e ≤ (goodEntries log).length
  fired : s.fired = false
  calls : s.calls = []
  large : 2 ^ 31 ≤ log.length → e = 0 ∧ s.totalReported = -1

/-- The reading has ended, with these entries. -/
structure Done (entries : List AuditLogEntry) (s : AuditRead) : Prop where
  waiting : s.waiting = none
  calls : s.calls = [{ ok := true, entries }]

theorem finish_done {s : AuditRead} (hfired : s.fired = false)
    (hcalls : s.calls = []) : (s.finish "").Done s.entries := by
  simp only [finish, hfired, hcalls]
  exact ⟨rfl, rfl⟩

theorem Done.step {entries : List AuditLogEntry} {s : AuditRead}
    (h : s.Done entries) (log : List String) (k : Nat) :
    (s.step log k).Done entries := by
  rw [AuditRead.step, h.waiting]
  exact h

/-- One page. Either there is more to read and some was read, or the reading
ends, with the entries up to this page; and if the total is held by an `int`
these are all. -/
theorem Reading.step {log : List String} {e : Nat} {s : AuditRead}
    (h : s.Reading log e) {k : Nat} (hpos : 0 < k)
    (hk : k = 1 ∨ UndecodableLast log) :
    (∃ e', e < e' ∧ (s.step log k).Reading log e') ∨
      (s.step log k).Done ((goodEntries log).take (e + k)) ∧
        (log.length < 2 ^ 31 → (goodEntries log).length ≤ e + k) := by
  have hentries : (goodEntries log).take e ++
      ((log.drop e).take k).filterMap decodeRecord =
        (goodEntries log).take (e + k) := by
    rw [page_entries h.le hk, List.take_add]
  have hlength : ((goodEntries log).take (e + k)).length =
      min (e + k) (goodEntries log).length := List.length_take
  have hle := goodEntries_le log
  have hreply : s.step log k = s.reply (auditPage log (e + 1) k) := by
    rw [AuditRead.step, h.waiting]
  rw [hreply, auditPage, Nat.add_sub_cancel, reply_page h.waiting, h.entries,
    hentries]
  generalize htotal : (if log.length < 2 ^ 31 then (log.length : Int)
    else s.totalReported) = total
  simp only [proceed, hlength]
  split
  next hmore =>
    obtain ⟨-, -, hless, hnext⟩ := hmore
    have hgrown : e < min (e + k) (goodEntries log).length := by omega
    refine .inl ⟨min (e + k) (goodEntries log).length, hgrown, rfl,
      List.take_eq_take_min, Nat.min_le_right _ _, h.fired, h.calls, ?_⟩
    intro hlarge
    rw [if_neg (by omega), (h.large hlarge).2] at htotal
    omega
  next hend =>
    refine .inr ⟨@finish_done
      { s with
        totalReported := total
        entries := (goodEntries log).take (e + k) } h.fired h.calls,
      fun hsmall => ?_⟩
    rw [if_pos hsmall] at htotal
    omega

/-- The reading begins. -/
theorem reading_start (log : List String) : ({} : AuditRead).Reading log 0 :=
  ⟨rfl, rfl, Nat.zero_le _, rfl, rfl, fun _ => ⟨rfl, rfl⟩⟩

theorem after_succ (log : List String) (choice : Nat → Nat) (n : Nat) :
    after log choice (n + 1) = (after log choice n).step log (choice n) := by
  rw [after, List.range_succ, List.map_append, run_append]
  rfl

/-- Where a log of this size can be read, it is: so many pages are enough. -/
theorem reads {log : List String} (hlast : UndecodableLast log)
    (hsize : log.length < 2 ^ 31 ∨ (goodEntries log).length ≤ 1)
    {choice : Nat → Nat} (hpos : ∀ i, 0 < choice i) (n : Nat) :
    (after log choice n).Done (goodEntries log) ∨
      ∃ e, n ≤ e ∧ (after log choice n).Reading log e := by
  induction n with
  | zero => exact .inr ⟨0, Nat.le_refl 0, reading_start log⟩
  | succ n ih =>
      rw [after_succ]
      rcases ih with hdone | ⟨e, hn, hreading⟩
      · exact .inl (hdone.step log (choice n))
      · rcases hreading.step (hpos n) (.inr hlast) with
          ⟨e', he', hnext⟩ | ⟨hdone, hall⟩
        · exact .inr ⟨e', by omega, hnext⟩
        · have hcovered : (goodEntries log).length ≤ e + choice n := by
            rcases hsize with hsmall | hfew
            · exact hall hsmall
            · have := hpos n
              omega
          rw [List.take_of_length_le hcovered] at hdone
          exact .inl hdone

/-- A device that returns the records one at a time is read up to a record that
does not decode, and if an `int` does not hold the total, up to the first. -/
theorem reads_one (log : List String) (n : Nat) :
    (∃ m, (after log (fun _ => 1) n).Done ((goodEntries log).take m) ∧
      (2 ^ 31 ≤ log.length → m ≤ 1)) ∨
      ∃ e, (after log (fun _ => 1) n).Reading log e := by
  induction n with
  | zero => exact .inr ⟨0, reading_start log⟩
  | succ n ih =>
      rw [after_succ]
      rcases ih with ⟨m, hdone, hm⟩ | ⟨e, hreading⟩
      · exact .inl ⟨m, hdone.step log 1, hm⟩
      · rcases hreading.step Nat.one_pos (.inl rfl) with
          ⟨e', -, hnext⟩ | ⟨hdone, -⟩
        · exact .inr ⟨e', hnext⟩
        · refine .inl ⟨e + 1, hdone, fun hlarge => ?_⟩
          have := (hreading.large hlarge).1
          omega

end AuditRead

/-- A log is read, whatever the device chooses, if and only if the records that
do not decode are the last ones, and an `int` holds the number of records or
there is at most one entry to read. -/
theorem audit_log_iff (log : List String) :
    ReadsLog log ↔ UndecodableLast log ∧
      (log.length < 2 ^ 31 ∨ (log.filterMap decodeRecord).length ≤ 1) := by
  have hentries := entries_split log
  constructor
  · intro h
    obtain ⟨n, hend, hcalls⟩ := h (fun _ => 1) (fun _ => Nat.one_pos)
    rcases AuditRead.reads_one log n with ⟨m, hdone, hm⟩ | ⟨e, hreading⟩
    · have hall : log.filterMap decodeRecord = (goodEntries log).take m := by
        have hsame := hcalls.symm.trans hdone.calls
        simpa using hsame
      have hlength := congrArg List.length hall
      rw [List.length_take] at hlength
      have hsum := congrArg List.length hentries
      rw [List.length_append] at hsum
      refine ⟨(undecodableLast_iff log).mpr ?_, ?_⟩
      · exact List.length_eq_zero_iff.mp (by omega)
      · by_cases hsmall : log.length < 2 ^ 31
        · exact .inl hsmall
        · have := hm (by omega)
          exact .inr (by omega)
    · rw [hreading.waiting] at hend
      cases hend
  · rintro ⟨hlast, hsize⟩ choice hpos
    rw [(undecodableLast_iff log).mp hlast, List.append_nil] at hentries
    rw [hentries] at hsize
    refine ⟨(goodEntries log).length + 1, ?_⟩
    rcases AuditRead.reads hlast hsize hpos ((goodEntries log).length + 1) with
      hdone | ⟨e, he, hreading⟩
    · rw [hentries]
      exact ⟨hdone.waiting, hdone.calls⟩
    · have := hreading.le
      omega

/-! ## A record that is not read -/

/-- The text of an entry: Provisioning Started, by the local agent. -/
def provisioningStarted : String := "ABAAAAI="

/-- An empty record stands before an entry. Read one at a time, the empty record
is all there is. -/
theorem unread_record : ¬ ∀ log, ReadsLog log := by
  intro h
  obtain ⟨n, hend, hcalls⟩ :=
    h ["", provisioningStarted] (fun _ => 1) fun _ => Nat.one_pos
  have hgood : goodEntries ["", provisioningStarted] = [] := by
    decide
  have hentries :
      (["", provisioningStarted].filterMap decodeRecord).length = 1 := by
    decide
  rcases AuditRead.reads_one ["", provisioningStarted] n with
    ⟨m, hdone, -⟩ | ⟨e, hreading⟩
  · have hsame := hcalls.symm.trans hdone.calls
    rw [hgood, List.take_nil] at hsame
    have hnone : ["", provisioningStarted].filterMap decodeRecord = [] := by
      simpa using hsame
    rw [hnone] at hentries
    cases hentries
  · rw [hreading.waiting] at hend
    cases hend

end QuMesh.Wsman
