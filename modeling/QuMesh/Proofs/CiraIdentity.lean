import QuMesh.App.CiraPolicy

/-!
# Saving a policy that was not changed

A policy of remote access that is opened for an edit and saved as it is should
be what it was: its trigger, its life time, the bytes of its schedule, and each
of its servers once, in the same order, among those of its type. The schedule
goes through the decoder, the drafts of the dialog and the encoder; the names of
the servers go through the keys of an object.

`getRemoteAccess_policy` says what of the device a policy is. From there on an
edit is followed to its request, `edit_eq`: a schedule that the drafts cannot
hold is refused, as is a policy without a server. What is lost without a word is
an interval of 0 seconds, a life time that no `int` holds, and of the servers
their order, where names that are array indices come behind others, and the one
name that is no key.
-/

namespace QuMesh.Details

open QuMesh.Lib QuMesh.Wsman

/-! ## Policies of the device -/

/-- The schedules that are well formed. -/
inductive Schedule
  | interval (seconds : UInt32)
  | timeOfDay (hour minute : UInt32)
  deriving DecidableEq

def Schedule.bytes : Schedule → Bytes
  | interval seconds => pack32Be 0 ++ pack32Be seconds.toNat
  | timeOfDay hour minute =>
      pack32Be 1 ++ pack32Be hour.toNat ++ pack32Be minute.toNat

inductive Trigger
  | userInitiated
  | alert
  | periodic (schedule : Schedule)
  deriving DecidableEq

namespace Trigger

def code : Trigger → Int
  | userInitiated => 0
  | alert => 1
  | periodic _ => 2

/-- The `ExtendedData` of a rule. -/
def extendedData : Trigger → Bytes
  | periodic schedule => schedule.bytes
  | _ => []

end Trigger

/-- The item of a rule with this trigger and this life time. -/
structure Reports (item : PolicyItem) (t : Trigger) (lifeTime : Int) :
    Prop where
  trigger : Strings.toInt item.trigger = some t.code
  tunnelLifeTime : Strings.numeral item.tunnelLifeTime = some lifeTime
  extendedData : bytesOfBase64 item.extendedData = t.extendedData

/-- The rule that is kept under a name is the last one. -/
def ruleOf (rules : List PolicyItem) (name : String) : Option PolicyItem :=
  rules.reverse.find? fun item => item.policyRuleName == name

/-- The servers that are linked to a policy. -/
def boundTo (links : List LinkRow) (name : String) : List String :=
  (links.filter fun row => row.policyName = name ∧ row.policyName ≠ "" ∧
    row.mpsName ≠ "").map LinkRow.mpsName

/-! ## What is promised of an edit -/

/-- The request of a policy that is opened and saved as it is. -/
def edit (remote : RemoteAccessResult) (panel : Panel) (d : CiraPolicyDialog)
    (policy : RemoteAccessPolicy) : Option PolicyRuleRequest :=
  match (d.openForEdit remote policy).submitIfReady with
  | none => none
  | some fields => (panel.addCiraPolicyRule fields).2

section Promise

variable (servers : List MpsServer) (names : List String)

/-- The servers of a policy among those of CIRA. -/
def ciraNames : List String := names.filter fun n => mpsTypeOf servers n ≠ 1

def cilaNames : List String := names.filter fun n => mpsTypeOf servers n = 1

/-- The rule that is added is the rule that there was. -/
structure Same (t : Trigger) (lifeTime : Int) (request : PolicyRuleRequest) :
    Prop where
  trigger : request.trigger = t.code
  tunnelLifeTime : request.tunnelLifeTime = lifeTime
  extendedData : bytesOfBase64 request.extendedData = t.extendedData
  mpServers : request.mpServers = (ciraNames servers names).eraseDups
  internalMpServers :
    request.internalMpServers = (cilaNames servers names).eraseDups

/-- The schedule does not pass: the dialog takes no such numbers. -/
def Trigger.Unfit : Trigger → Prop
  | periodic (.interval seconds) => 2 ^ 31 ≤ seconds.toNat
  | periodic (.timeOfDay hour minute) => 23 < hour.toNat ∨ 59 < minute.toNat
  | _ => False

instance (t : Trigger) : Decidable t.Unfit :=
  match t with
  | .periodic (.interval _) => inferInstanceAs (Decidable (_ ≤ _))
  | .periodic (.timeOfDay _ _) => inferInstanceAs (Decidable (_ ∨ _))
  | .userInitiated => inferInstanceAs (Decidable False)
  | .alert => inferInstanceAs (Decidable False)

/-- An edit is refused: there is no host or no server to bind, or the schedule
or the life time does not pass. -/
def Refused (panel : Panel) (t : Trigger) (lifeTime : Int) : Prop :=
  panel.host.isEmpty = true ∨ (∀ n ∈ names, n = "__proto__") ∨ t.Unfit ∨
    (-(2 : Int) ^ 31 ≤ lifeTime ∧ lifeTime < 0)

/-- Nothing is lost on the way. -/
structure Kept (t : Trigger) (lifeTime : Int) : Prop where
  seconds : t ≠ .periodic (.interval 0)
  lifeTime : -(2 : Int) ^ 31 ≤ lifeTime ∧ lifeTime < (2 : Int) ^ 31
  keys : "__proto__" ∉ names
  cira : Listed (ciraNames servers names).eraseDups
  cila : Listed (cilaNames servers names).eraseDups

end Promise

/-! ## What a policy is read from -/

theorem bytesOfBase64_toBase64 (raw : Bytes) :
    bytesOfBase64 (Strings.fromLatin1 (toBase64 raw)) = raw := by
  rw [bytesOfBase64, Strings.toLatin1_fromLatin1, fromBase64_toBase64,
    Option.getD_some]

/-- The life time as it is read. -/
def lifeTimeRead (lifeTime : Int) : Int :=
  if -(2 : Int) ^ 31 ≤ lifeTime ∧ lifeTime < (2 : Int) ^ 31 then lifeTime else 0

/-- The schedule as a policy has it. -/
def Trigger.ReadIn : Trigger → RemoteAccessPolicy → Prop
  | .periodic (.interval seconds), p =>
      p.periodicInterval = true ∧ p.periodicSeconds = signed32 seconds.toNat
  | .periodic (.timeOfDay hour minute), p =>
      p.periodicInterval = false ∧ p.periodicTimeOfDay = true ∧
        p.periodicHour = signed32 hour.toNat ∧
          p.periodicMinute = signed32 minute.toNat
  | _, _ => True

/-- What is read of a rule, but for its servers. -/
structure ReadAs (t : Trigger) (lifeTime : Int) (p : RemoteAccessPolicy) :
    Prop where
  trigger : p.trigger = t.code
  tunnelLifeTime : p.tunnelLifeTime = lifeTimeRead lifeTime
  schedule : t.ReadIn p

/-- A text without bytes decodes to nothing. -/
theorem readPolicy_eq (item : PolicyItem) :
    readPolicy item = decodeExtendedData item.extendedData
      { name := item.policyRuleName
        trigger := (Strings.toInt item.trigger).getD (-1)
        tunnelLifeTime := (Strings.toInt item.tunnelLifeTime).getD 0 } := by
  unfold readPolicy
  dsimp only
  split
  · rfl
  · next hempty =>
    rw [Bool.not_eq_true', Bool.not_eq_false, String.isEmpty_iff] at hempty
    rw [hempty]
    rfl

theorem decodeExtendedData_nil {b64 : String} (h : bytesOfBase64 b64 = [])
    (p : RemoteAccessPolicy) : decodeExtendedData b64 p = p := by
  unfold decodeExtendedData
  dsimp only
  rw [h]
  rfl

theorem decodeExtendedData_interval {b64 : String} {seconds : UInt32}
    (h : bytesOfBase64 b64 = (Schedule.interval seconds).bytes)
    (p : RemoteAccessPolicy) :
    decodeExtendedData b64 p =
      { p with
        periodicInterval := true
        periodicSeconds := signed32 seconds.toNat } := by
  have htype : read32Be (Schedule.interval seconds).bytes 0 = 0 :=
    read32Be_pack 0 _
  have hseconds : read32Be (Schedule.interval seconds).bytes 4 =
      seconds.toNat := by
    have hbehind := read32Be_behind (pack32Be 0) seconds.toNat_lt []
    rwa [List.append_nil] at hbehind
  have hlength : ¬(Schedule.interval seconds).bytes.length < 8 :=
    Nat.lt_irrefl 8
  unfold decodeExtendedData
  dsimp only
  rw [h, htype, hseconds, if_neg hlength, if_pos rfl]

theorem decodeExtendedData_timeOfDay {b64 : String} {hour minute : UInt32}
    (h : bytesOfBase64 b64 = (Schedule.timeOfDay hour minute).bytes)
    (p : RemoteAccessPolicy) :
    decodeExtendedData b64 p =
      { p with
        periodicTimeOfDay := true
        periodicHour := signed32 hour.toNat
        periodicMinute := signed32 minute.toNat } := by
  have hbytes : (Schedule.timeOfDay hour minute).bytes =
      pack32Be 1 ++ (pack32Be hour.toNat ++ pack32Be minute.toNat) :=
    List.append_assoc ..
  have htype : read32Be (Schedule.timeOfDay hour minute).bytes 0 = 1 := by
    rw [hbytes]
    exact read32Be_pack 1 _
  have hhour : read32Be (Schedule.timeOfDay hour minute).bytes 4 =
      hour.toNat := by
    rw [hbytes]
    exact read32Be_behind (pack32Be 1) hour.toNat_lt _
  have hminute : read32Be (Schedule.timeOfDay hour minute).bytes 8 =
      minute.toNat := by
    have hbehind := read32Be_behind (pack32Be 1 ++ pack32Be hour.toNat)
      minute.toNat_lt []
    rwa [List.append_nil] at hbehind
  have hlength : (Schedule.timeOfDay hour minute).bytes.length = 12 := rfl
  unfold decodeExtendedData
  dsimp only
  rw [h, htype, hhour, hminute, hlength, if_neg (by omega),
    if_neg Nat.one_ne_zero, if_pos ⟨rfl, Nat.le_refl 12⟩]

theorem readPolicy_reports {item : PolicyItem} {t : Trigger} {lifeTime : Int}
    (h : Reports item t lifeTime) : ReadAs t lifeTime (readPolicy item) := by
  obtain ⟨htrigger, hlife, hext⟩ := h
  have hread := Strings.toInt_numeral hlife
  have hlifeTime : (Strings.toInt item.tunnelLifeTime).getD 0 =
      lifeTimeRead lifeTime := by
    rw [hread, lifeTimeRead]
    split <;> rfl
  rw [readPolicy_eq, htrigger, hlifeTime]
  cases t with
  | userInitiated =>
      rw [decodeExtendedData_nil hext]
      exact ⟨rfl, rfl, trivial⟩
  | alert =>
      rw [decodeExtendedData_nil hext]
      exact ⟨rfl, rfl, trivial⟩
  | periodic schedule =>
      cases schedule with
      | interval seconds =>
          rw [decodeExtendedData_interval hext]
          exact ⟨rfl, rfl, rfl, rfl⟩
      | timeOfDay hour minute =>
          rw [decodeExtendedData_timeOfDay hext]
          exact ⟨rfl, rfl, rfl, rfl, rfl, rfl⟩

/-! ## What a policy of the device is -/

theorem readPolicy_name (item : PolicyItem) :
    (readPolicy item).name = item.policyRuleName ∧
      (readPolicy item).mpsNames = [] := by
  rw [readPolicy_eq]
  unfold decodeExtendedData
  dsimp only
  split
  · exact ⟨rfl, rfl⟩
  split
  · exact ⟨rfl, rfl⟩
  split
  · exact ⟨rfl, rfl⟩
  · exact ⟨rfl, rfl⟩

theorem value_rules (rules : List PolicyItem) (name : String) :
    (rules.foldl (fun t item =>
      t.insert item.policyRuleName (readPolicy item))
        (Table.empty : PolicyTable)).value? name =
      (ruleOf rules name).map readPolicy := by
  induction rules using List.reverseRecOn with
  | nil => rfl
  | append_singleton rules item ih =>
      have hrule : ruleOf (rules ++ [item]) name =
          if name = item.policyRuleName then some item
          else ruleOf rules name := by
        unfold ruleOf
        rw [List.reverse_append, List.reverse_singleton, List.singleton_append]
        split
        · next heq => rw [List.find?_cons_of_pos (by simp [heq])]
        · next hne =>
          rw [List.find?_cons_of_neg (by simpa using Ne.symm hne)]
      rw [List.foldl_append, List.foldl_cons, List.foldl_nil,
        Table.value?_insert, ih, hrule]
      split <;> rfl

/-- A row that links nothing to the policy changes nothing of it. -/
theorem boundTo_append (links : List LinkRow) (row : LinkRow) (name : String) :
    boundTo (links ++ [row]) name =
      if row.policyName = name ∧ row.policyName ≠ "" ∧ row.mpsName ≠ "" then
        boundTo links name ++ [row.mpsName]
      else boundTo links name := by
  unfold boundTo
  rw [List.filter_append, List.map_append]
  split
  · next hrow =>
    rw [List.filter_cons_of_pos (by simpa using hrow), List.filter_nil]
    rfl
  · next hrow =>
    rw [List.filter_cons_of_neg (by simpa using hrow), List.filter_nil,
      List.map_nil, List.append_nil]

theorem value_links (links : List LinkRow) (t : PolicyTable) (name : String) :
    (links.foldl bindServer t).value? name =
      (t.value? name).map fun p =>
        { p with mpsNames := p.mpsNames ++ boundTo links name } := by
  induction links using List.reverseRecOn with
  | nil =>
      have hid : (fun p : RemoteAccessPolicy =>
          { p with mpsNames := p.mpsNames ++ boundTo [] name }) = id := by
        funext p
        show { p with mpsNames := p.mpsNames ++ [] } = p
        rw [List.append_nil]
      rw [hid, Option.map_id]
      rfl
  | append_singleton links row ih =>
      rw [List.foldl_append, List.foldl_cons, List.foldl_nil, boundTo_append]
      generalize links.foldl bindServer t = s at ih ⊢
      unfold bindServer
      split
      · next hempty =>
        rw [Bool.or_eq_true, String.isEmpty_iff, String.isEmpty_iff] at hempty
        rw [if_neg (by tauto), ih]
      · next hgiven =>
        rw [Bool.or_eq_true, String.isEmpty_iff, String.isEmpty_iff,
          not_or] at hgiven
        by_cases hname : row.policyName = name
        · rw [if_pos ⟨hname, hgiven⟩]
          subst hname
          split
          · next hnone =>
            rw [hnone] at ih
            rw [hnone]
            cases hbefore : t.value? row.policyName with
            | none => rfl
            | some p => rw [hbefore] at ih; cases ih
          · next p hp =>
            rw [Table.value?_insert, if_pos rfl]
            rw [hp] at ih
            obtain ⟨q, hq, rfl⟩ := Option.map_eq_some_iff.mp ih.symm
            rw [hq, Option.map_some, List.append_assoc]
        · rw [if_neg (fun h => hname h.1), ← ih]
          split
          · rfl
          · rw [Table.value?_insert, if_neg (Ne.symm hname)]

/-- A policy is the last rule of its name, with the servers that are linked to
it. -/
theorem getRemoteAccess_policy {σ : Order String RemoteAccessPolicy}
    {rules : List PolicyItem} {links : List LinkRow} {servers : List MpsItem}
    {p : RemoteAccessPolicy}
    (hp : p ∈ (getRemoteAccess σ rules links servers).policies) :
    ∃ item, ruleOf rules p.name = some item ∧
      p = { readPolicy item with mpsNames := boundTo links p.name } := by
  obtain ⟨name, hvalue⟩ : ∃ name,
      (policyByName rules links).value? name = some p := by
    rcases List.mem_append.mp hp with hordered | hother
    · obtain ⟨name, -, hvalue⟩ := List.mem_filterMap.mp hordered
      exact ⟨name, hvalue⟩
    · obtain ⟨e, he, rfl⟩ := List.mem_map.mp hother
      have hentry := (σ.perm _).mem_iff.mp (List.mem_of_mem_filter he)
      exact ⟨e.1, Table.value?_of_mem hentry⟩
  rw [policyByName, value_links, value_rules, Option.map_map] at hvalue
  obtain ⟨item, hitem, hread⟩ := Option.map_eq_some_iff.mp hvalue
  obtain ⟨hname, hnone⟩ := readPolicy_name item
  have hfound : item.policyRuleName = name := by
    have h := List.find?_some hitem
    exact beq_iff_eq.mp h
  have hp : p = { readPolicy item with mpsNames := boundTo links name } := by
    rw [← hread, Function.comp_apply, hnone, List.nil_append]
  have hpname : p.name = name := by
    rw [hp]
    exact hname.trans hfound
  rw [hpname]
  exact ⟨item, hitem, hp⟩

/-! ## What is submitted -/

theorem jsOr_zero (v : Int) : jsOr v 0 = v := by
  unfold jsOr
  split
  · next h => exact h.symm
  · rfl

/-- The names of each type are put into the object of it. -/
theorem selectBound_eq (servers : List MpsServer) (names : List String) :
    ∀ cira cila : JsObject,
      CiraPolicyDialog.selectBound servers names (cira, cila) =
        ((ciraNames servers names).foldl (fun o k => o.put k) cira,
          (cilaNames servers names).foldl (fun o k => o.put k) cila) := by
  induction names with
  | nil =>
      intro cira cila
      rfl
  | cons n names ih =>
      intro cira cila
      rw [CiraPolicyDialog.selectBound]
      unfold ciraNames cilaNames at ih ⊢
      split
      · next hone => simp [ih, hone]
      · next hother => simp [ih, hother]

/-- The keys of the two objects. -/
def ciraKeys (servers : List MpsServer) (names : List String) : List String :=
  (JsObject.ofList (ciraNames servers names)).keys

def cilaKeys (servers : List MpsServer) (names : List String) : List String :=
  (JsObject.ofList (cilaNames servers names)).keys

theorem no_server_iff {servers : List MpsServer} {names : List String} :
    ((ciraKeys servers names).isEmpty && (cilaKeys servers names).isEmpty) =
      true ↔ ∀ n ∈ names, n = "__proto__" := by
  rw [Bool.and_eq_true, List.isEmpty_iff, List.isEmpty_iff]
  constructor
  · rintro ⟨hcira, hcila⟩ n hn
    by_contra hother
    by_cases hone : mpsTypeOf servers n = 1
    · have hkey : n ∈ cilaKeys servers names :=
        JsObject.mem_keys.mpr ⟨by simp [cilaNames, hn, hone], hother⟩
      rw [hcila] at hkey
      cases hkey
    · have hkey : n ∈ ciraKeys servers names :=
        JsObject.mem_keys.mpr ⟨by simp [ciraNames, hn, hone], hother⟩
      rw [hcira] at hkey
      cases hkey
  · intro h
    refine ⟨List.eq_nil_iff_forall_not_mem.mpr fun k hk => ?_,
      List.eq_nil_iff_forall_not_mem.mpr fun k hk => ?_⟩
    · obtain ⟨hmem, hother⟩ := JsObject.mem_keys.mp hk
      exact hother (h k (List.mem_of_mem_filter hmem))
    · obtain ⟨hmem, hother⟩ := JsObject.mem_keys.mp hk
      exact hother (h k (List.mem_of_mem_filter hmem))

/-- What the dialog passes on. -/
def Trigger.fields (t : Trigger) (lifeTime : Int) (cira cila : List String) :
    CiraFields :=
  let fields : CiraFields :=
    { trigger := t.code
      tunnelLifeTime := lifeTime
      ciraMpsNames := cira
      cilaMpsNames := cila }
  match t with
  | .periodic (.interval seconds) =>
      { fields with
        periodicMode := some "interval"
        periodicSeconds := some (jsOr (signed32 seconds.toNat) 300) }
  | .periodic (.timeOfDay hour minute) =>
      { fields with
        periodicMode := some "timeOfDay"
        periodicHour := some (signed32 hour.toNat)
        periodicMinute := some (signed32 minute.toNat) }
  | _ => fields

/-- The `ExtendedData` of the request. -/
def Trigger.sent : Trigger → String
  | .periodic (.interval seconds) =>
      buildExtendedData true (jsOr (signed32 seconds.toNat) 300) 0 0
  | .periodic (.timeOfDay hour minute) =>
      buildExtendedData false 0 (signed32 hour.toNat) (signed32 minute.toNat)
  | _ => ""

theorem interval_unfit {seconds : UInt32} :
    (Trigger.periodic (.interval seconds)).Unfit ↔
      jsOr (signed32 seconds.toNat) 300 ≤ 0 := by
  show 2 ^ 31 ≤ seconds.toNat ↔ _
  have hlt := seconds.toNat_lt
  unfold jsOr signed32
  split <;> split <;> omega

theorem timeOfDay_unfit {hour minute : UInt32} :
    (Trigger.periodic (.timeOfDay hour minute)).Unfit ↔
      signed32 hour.toNat < 0 ∨ 23 < signed32 hour.toNat ∨
        signed32 minute.toNat < 0 ∨ 59 < signed32 minute.toNat := by
  show 23 < hour.toNat ∨ 59 < minute.toNat ↔ _
  have hhour := hour.toNat_lt
  have hminute := minute.toNat_lt
  unfold signed32
  split <;> split <;> omega

/-- The schedule as the dialog has it. -/
def Trigger.DraftedIn : Trigger → CiraPolicyDialog → Prop
  | .periodic (.interval seconds), d =>
      d.draftPeriodicMode = "interval" ∧
        d.draftPeriodicSeconds = jsOr (signed32 seconds.toNat) 300
  | .periodic (.timeOfDay hour minute), d =>
      d.draftPeriodicMode = "timeOfDay" ∧
        d.draftPeriodicHour = signed32 hour.toNat ∧
          d.draftPeriodicMinute = signed32 minute.toNat
  | _, _ => True

/-- The drafts that a policy is opened with. -/
structure Drafts (t : Trigger) (lifeTime : Int) (cira cila : JsObject)
    (d : CiraPolicyDialog) : Prop where
  trigger : d.draftTrigger = t.code
  tunnelLifeTime : d.draftTunnelLifeTime = lifeTime
  ciraSelected : d.ciraSelected = cira
  cilaSelected : d.cilaSelected = cila
  schedule : t.DraftedIn d

theorem openForEdit_drafts {t : Trigger} {lifeTime : Int}
    {p : RemoteAccessPolicy} (h : ReadAs t lifeTime p)
    (remote : RemoteAccessResult) (d : CiraPolicyDialog) :
    Drafts t (lifeTimeRead lifeTime)
      (.ofList (ciraNames remote.servers p.mpsNames))
      (.ofList (cilaNames remote.servers p.mpsNames))
      (d.openForEdit remote p) := by
  obtain ⟨htrigger, hlife, hschedule⟩ := h
  have hselected : CiraPolicyDialog.selectBound remote.servers p.mpsNames
      (.empty, .empty) =
        (.ofList (ciraNames remote.servers p.mpsNames),
          .ofList (cilaNames remote.servers p.mpsNames)) :=
    selectBound_eq ..
  unfold CiraPolicyDialog.openForEdit
  dsimp only
  rw [hselected, jsOr_zero, jsOr_zero, htrigger, hlife]
  refine ⟨?_, ?_, rfl, rfl, ?_⟩
  · split
    · rfl
    split <;> rfl
  · split
    · rfl
    split <;> rfl
  · cases t with
    | userInitiated => trivial
    | alert => trivial
    | periodic schedule =>
        cases schedule with
        | interval seconds =>
            obtain ⟨hinterval, hseconds⟩ := hschedule
            rw [if_pos hinterval, hseconds]
            exact ⟨rfl, rfl⟩
        | timeOfDay hour minute =>
            obtain ⟨hinterval, htime, hhour, hminute⟩ := hschedule
            rw [hinterval, if_neg Bool.false_ne_true, if_pos htime, jsOr_zero,
              jsOr_zero]
            exact ⟨rfl, hhour, hminute⟩

/-- The drafts are passed on as they are, unless the dialog is not ready. -/
theorem submitIfReady_eq {t : Trigger} {lifeTime : Int} {cira cila : JsObject}
    {d : CiraPolicyDialog} (h : Drafts t lifeTime cira cila d) :
    d.submitIfReady =
      if (cira.keys.isEmpty && cila.keys.isEmpty) = true ∨ t.Unfit then none
      else some (t.fields lifeTime cira.keys cila.keys) := by
  obtain ⟨htrigger, hlife, hcira, hcila, hschedule⟩ := h
  unfold CiraPolicyDialog.submitIfReady CiraPolicyDialog.submitReady
  rw [htrigger, hlife, hcira, hcila]
  by_cases hserver : (cira.keys.isEmpty && cila.keys.isEmpty) = true
  · rw [if_pos hserver, if_pos (Or.inl hserver)]
    rfl
  · rw [if_neg hserver]
    cases t with
    | userInitiated =>
        simp [hserver, Trigger.Unfit, Trigger.code, Trigger.fields]
    | alert => simp [hserver, Trigger.Unfit, Trigger.code, Trigger.fields]
    | periodic schedule =>
        cases schedule with
        | interval seconds =>
            obtain ⟨hmode, hseconds⟩ := hschedule
            rw [hmode, hseconds]
            simp [hserver, interval_unfit, Trigger.code, Trigger.fields]
        | timeOfDay hour minute =>
            obtain ⟨hmode, hhour, hminute⟩ := hschedule
            rw [hmode, hhour, hminute]
            simp [hserver, timeOfDay_unfit, or_assoc, Trigger.code,
              Trigger.fields]

theorem submit_eq {t : Trigger} {lifeTime : Int} {p : RemoteAccessPolicy}
    (h : ReadAs t lifeTime p) (remote : RemoteAccessResult)
    (d : CiraPolicyDialog) :
    (d.openForEdit remote p).submitIfReady =
      if ((ciraKeys remote.servers p.mpsNames).isEmpty &&
          (cilaKeys remote.servers p.mpsNames).isEmpty) = true ∨ t.Unfit then
        none
      else some (t.fields (lifeTimeRead lifeTime)
        (ciraKeys remote.servers p.mpsNames)
        (cilaKeys remote.servers p.mpsNames)) :=
  submitIfReady_eq (openForEdit_drafts h remote d)

/-- What the controller makes of the fields that it is given. -/
theorem ciraPolicyInput_eq {t : Trigger} (hfit : ¬t.Unfit) {lifeTime : Int}
    (hlife : ¬lifeTime < 0) {cira cila : List String}
    (hserver : ¬(cira.isEmpty && cila.isEmpty) = true) :
    ∃ input, Panel.ciraPolicyInput (t.fields lifeTime cira cila) = .ok input ∧
      addRemoteAccessPolicyRule input =
        { trigger := t.code
          tunnelLifeTime := lifeTime
          extendedData := t.sent
          mpServers := cira
          internalMpServers := cila } := by
  cases t with
  | userInitiated =>
      simp [Panel.ciraPolicyInput, Trigger.fields, Trigger.code, hlife, hserver,
        addRemoteAccessPolicyRule, Trigger.sent]
  | alert =>
      simp [Panel.ciraPolicyInput, Trigger.fields, Trigger.code, hlife, hserver,
        addRemoteAccessPolicyRule, Trigger.sent]
  | periodic schedule =>
      cases schedule with
      | interval seconds =>
          rw [interval_unfit] at hfit
          simp [Panel.ciraPolicyInput, Panel.ciraSchedule, Trigger.fields,
            Trigger.code, hlife, hserver, hfit, addRemoteAccessPolicyRule,
            Trigger.sent]
      | timeOfDay hour minute =>
          rw [timeOfDay_unfit] at hfit
          simp [Panel.ciraPolicyInput, Panel.ciraSchedule, Trigger.fields,
            Trigger.code, hlife, hserver, hfit, addRemoteAccessPolicyRule,
            Trigger.sent]

/-- A life time below 0 is an error. -/
theorem ciraPolicyInput_below {t : Trigger} {lifeTime : Int}
    (hlife : lifeTime < 0) {cira cila : List String} :
    Panel.ciraPolicyInput (t.fields lifeTime cira cila) =
      .error "CIRA policy: tunnel lifetime must be >= 0." := by
  cases t with
  | userInitiated =>
      simp [Panel.ciraPolicyInput, Trigger.fields, Trigger.code, hlife]
  | alert => simp [Panel.ciraPolicyInput, Trigger.fields, Trigger.code, hlife]
  | periodic schedule =>
      cases schedule with
      | interval seconds =>
          simp [Panel.ciraPolicyInput, Trigger.fields, Trigger.code, hlife]
      | timeOfDay hour minute =>
          simp [Panel.ciraPolicyInput, Trigger.fields, Trigger.code, hlife]

/-- The request is sent where nothing refuses it. -/
theorem edit_eq {t : Trigger} {lifeTime : Int} {p : RemoteAccessPolicy}
    (h : ReadAs t lifeTime p) (remote : RemoteAccessResult) (panel : Panel)
    (d : CiraPolicyDialog)
    (hrefused : ¬Refused p.mpsNames panel t lifeTime) :
    edit remote panel d p = some
      { trigger := t.code
        tunnelLifeTime := lifeTimeRead lifeTime
        extendedData := t.sent
        mpServers := ciraKeys remote.servers p.mpsNames
        internalMpServers := cilaKeys remote.servers p.mpsNames } := by
  obtain ⟨hhost, hnames, hfit, hlife⟩ :
      ¬panel.host.isEmpty = true ∧ (¬∀ n ∈ p.mpsNames, n = "__proto__") ∧
        ¬t.Unfit ∧ ¬(-(2 : Int) ^ 31 ≤ lifeTime ∧ lifeTime < 0) := by
    unfold Refused at hrefused
    tauto
  have hserver : ¬((ciraKeys remote.servers p.mpsNames).isEmpty &&
      (cilaKeys remote.servers p.mpsNames).isEmpty) = true :=
    fun hempty => hnames (no_server_iff.mp hempty)
  have hread : ¬lifeTimeRead lifeTime < 0 := by
    unfold lifeTimeRead
    split <;> omega
  obtain ⟨input, hinput, hrequest⟩ := ciraPolicyInput_eq hfit hread hserver
  unfold edit
  rw [submit_eq h remote d,
    if_neg (not_or.mpr ⟨hserver, hfit⟩)]
  have hset : (panel.setLastError "").host = panel.host := rfl
  unfold Panel.addCiraPolicyRule
  dsimp only
  rw [hset, if_neg hhost, hinput]
  exact congrArg some hrequest

theorem edit_refused {t : Trigger} {lifeTime : Int} {p : RemoteAccessPolicy}
    (h : ReadAs t lifeTime p) (remote : RemoteAccessResult) (panel : Panel)
    (d : CiraPolicyDialog) (hrefused : Refused p.mpsNames panel t lifeTime) :
    edit remote panel d p = none := by
  unfold edit
  rw [submit_eq h remote d]
  by_cases hready : ((ciraKeys remote.servers p.mpsNames).isEmpty &&
      (cilaKeys remote.servers p.mpsNames).isEmpty) = true ∨ t.Unfit
  · rw [if_pos hready]
  · rw [if_neg hready]
    unfold Panel.addCiraPolicyRule
    dsimp only
    split
    · rfl
    · next hhost =>
      have hlife : lifeTimeRead lifeTime < 0 := by
        rcases hrefused with hempty | hnames | hunfit | hlife
        · exact absurd hempty hhost
        · exact absurd (.inl (no_server_iff.mpr hnames)) hready
        · exact absurd (.inr hunfit) hready
        · unfold lifeTimeRead
          split <;> omega
      rw [ciraPolicyInput_below hlife]

/-! ## What is lost -/

theorem lifeTimeRead_eq {lifeTime : Int} :
    lifeTimeRead lifeTime = lifeTime ↔
      -(2 : Int) ^ 31 ≤ lifeTime ∧ lifeTime < (2 : Int) ^ 31 := by
  unfold lifeTimeRead
  split <;> omega

theorem bytesOfBase64_build (intervalMode : Bool)
    (intervalSeconds hour minute : Int) :
    bytesOfBase64 (buildExtendedData intervalMode intervalSeconds hour minute) =
      if intervalMode then pack32Be 0 ++ pack32Be (unsigned32 intervalSeconds)
      else pack32Be 1 ++ pack32Be (unsigned32 hour) ++
        pack32Be (unsigned32 minute) :=
  bytesOfBase64_toBase64 _

theorem unsigned32_signed32 {v : UInt32} (h : v.toNat < 2 ^ 31) :
    unsigned32 (signed32 v.toNat) = v.toNat := by
  unfold unsigned32 signed32
  rw [if_pos h, if_neg (by omega), Int.toNat_natCast]

/-- Only an interval of 0 seconds does not come back. -/
theorem sent_eq {t : Trigger} (hfit : ¬t.Unfit) :
    bytesOfBase64 t.sent = t.extendedData ↔ t ≠ .periodic (.interval 0) := by
  cases t with
  | userInitiated => exact iff_of_true rfl nofun
  | alert => exact iff_of_true rfl nofun
  | periodic schedule =>
      cases schedule with
      | interval seconds =>
          rw [Trigger.sent, bytesOfBase64_build, if_pos rfl]
          by_cases hzero : seconds = 0
          · subst hzero
            exact iff_of_false (by decide) (fun h => h rfl)
          · have hseconds : jsOr (signed32 seconds.toNat) 300 =
                signed32 seconds.toNat := by
              have hne : seconds.toNat ≠ 0 :=
                fun h => hzero (UInt32.toNat_inj.mp h)
              refine if_neg fun h => ?_
              rw [signed32, if_pos (Nat.lt_of_not_le hfit)] at h
              omega
            rw [hseconds, unsigned32_signed32 (Nat.lt_of_not_le hfit)]
            exact iff_of_true rfl (by simpa using hzero)
      | timeOfDay hour minute =>
          obtain ⟨hhour, hminute⟩ := not_or.mp hfit
          rw [Trigger.sent, bytesOfBase64_build, if_neg Bool.false_ne_true,
            unsigned32_signed32 (by omega), unsigned32_signed32 (by omega)]
          exact iff_of_true rfl nofun

/-- The bucket of a type is as it was. -/
theorem keys_same {servers : List MpsServer} {names : List String} :
    (ciraKeys servers names = (ciraNames servers names).eraseDups ∧
      cilaKeys servers names = (cilaNames servers names).eraseDups) ↔
      "__proto__" ∉ names ∧ Listed (ciraNames servers names).eraseDups ∧
        Listed (cilaNames servers names).eraseDups := by
  have hproto : "__proto__" ∉ names ↔
      "__proto__" ∉ ciraNames servers names ∧
        "__proto__" ∉ cilaNames servers names := by
    by_cases hone : mpsTypeOf servers "__proto__" = 1
    · simp [ciraNames, cilaNames, hone]
    · simp [ciraNames, cilaNames, hone]
  unfold ciraKeys cilaKeys
  rw [JsObject.keys_ofList, JsObject.keys_ofList, hproto]
  tauto

/-- The rule of a policy tells what is read of it. -/
theorem readAs_policy {σ : Order String RemoteAccessPolicy}
    {rules : List PolicyItem} {links : List LinkRow} {servers : List MpsItem}
    {p : RemoteAccessPolicy}
    (hp : p ∈ (getRemoteAccess σ rules links servers).policies)
    {item : PolicyItem} (hitem : ruleOf rules p.name = some item)
    {t : Trigger} {lifeTime : Int} (hreports : Reports item t lifeTime) :
    ReadAs t lifeTime p := by
  obtain ⟨rule, hrule, heq⟩ := getRemoteAccess_policy hp
  rw [hitem] at hrule
  cases hrule
  rw [heq]
  obtain ⟨htrigger, hlife, hschedule⟩ := readPolicy_reports hreports
  refine ⟨htrigger, hlife, ?_⟩
  cases t with
  | userInitiated => trivial
  | alert => trivial
  | periodic schedule => cases schedule <;> exact hschedule

/-- What is sent is what there was, if and only if nothing is lost. -/
theorem same_iff {t : Trigger} (hfit : ¬t.Unfit) {lifeTime : Int}
    {servers : List MpsServer} {names : List String} :
    Same servers names t lifeTime
      { trigger := t.code
        tunnelLifeTime := lifeTimeRead lifeTime
        extendedData := t.sent
        mpServers := ciraKeys servers names
        internalMpServers := cilaKeys servers names } ↔
      Kept servers names t lifeTime := by
  constructor
  · rintro ⟨-, hlife, hext, hcira, hcila⟩
    obtain ⟨hkeys, hciraListed, hcilaListed⟩ := keys_same.mp ⟨hcira, hcila⟩
    exact ⟨(sent_eq hfit).mp hext, lifeTimeRead_eq.mp hlife, hkeys,
      hciraListed, hcilaListed⟩
  · rintro ⟨hseconds, hlife, hkeys, hciraListed, hcilaListed⟩
    obtain ⟨hcira, hcila⟩ := keys_same.mpr ⟨hkeys, hciraListed, hcilaListed⟩
    exact ⟨rfl, lifeTimeRead_eq.mpr hlife, (sent_eq hfit).mpr hseconds, hcira,
      hcila⟩

/-- What is sent, if anything is, is what there was, if and only if the edit is
refused or nothing is lost. -/
theorem sends_same_iff {t : Trigger} {lifeTime : Int} {p : RemoteAccessPolicy}
    (hread : ReadAs t lifeTime p) (remote : RemoteAccessResult) (panel : Panel)
    (d : CiraPolicyDialog) :
    (∀ request, edit remote panel d p = some request →
      Same remote.servers p.mpsNames t lifeTime request) ↔
      Refused p.mpsNames panel t lifeTime ∨
        Kept remote.servers p.mpsNames t lifeTime := by
  by_cases hrefused : Refused p.mpsNames panel t lifeTime
  · refine iff_of_true (fun request hrequest => ?_) (.inl hrefused)
    rw [edit_refused hread remote panel d hrefused] at hrequest
    cases hrequest
  · have hfit : ¬t.Unfit := fun h => hrefused (.inr (.inr (.inl h)))
    rw [edit_eq hread remote panel d hrefused, or_iff_right hrefused,
      ← same_iff hfit]
    constructor
    · intro h
      exact h _ rfl
    · intro h request hrequest
      cases hrequest
      exact h

def hostPanel : Panel where
  machine := { host := "amt" }

/-- A rule on the clock, as the device has it. -/
def periodicRule (lifeTime : String) (seconds : UInt32) : PolicyItem where
  policyRuleName := "Periodic"
  trigger := "2"
  tunnelLifeTime := lifeTime
  extendedData :=
    Strings.fromLatin1 (toBase64 (Schedule.interval seconds).bytes)

/-- A device with that rule and one server. -/
def periodicDevice (lifeTime : String) (seconds : UInt32) :
    RemoteAccessResult :=
  getRemoteAccess .forward [periodicRule lifeTime seconds]
    [⟨"Periodic", "mps"⟩] [⟨"mps", "0"⟩]

def periodicPolicy (lifeTime : String) (seconds : UInt32) :
    RemoteAccessPolicy :=
  { readPolicy (periodicRule lifeTime seconds) with mpsNames := ["mps"] }

theorem periodicPolicy_listed (lifeTime : String) (seconds : UInt32) :
    periodicPolicy lifeTime seconds ∈
      (periodicDevice lifeTime seconds).policies := by
  refine List.mem_append_left _
    (List.mem_filterMap.mpr ⟨"Periodic", by decide, ?_⟩)
  have hrule : ruleOf [periodicRule lifeTime seconds] "Periodic" =
      some (periodicRule lifeTime seconds) :=
    List.find?_cons_of_pos (beq_self_eq_true _)
  have hbound : boundTo [⟨"Periodic", "mps"⟩] "Periodic" = ["mps"] := by
    decide
  obtain ⟨-, hnone⟩ := readPolicy_name (periodicRule lifeTime seconds)
  rw [policyByName, value_links, value_rules, hrule, hbound, Option.map_some,
    Option.map_some, hnone]
  rfl

theorem periodicPolicy_name (lifeTime : String) (seconds : UInt32) :
    ruleOf [periodicRule lifeTime seconds]
      (periodicPolicy lifeTime seconds).name =
      some (periodicRule lifeTime seconds) := by
  obtain ⟨hname, -⟩ := readPolicy_name (periodicRule lifeTime seconds)
  unfold periodicPolicy
  dsimp only
  rw [hname]
  exact List.find?_cons_of_pos (beq_self_eq_true _)

theorem periodicRule_reports {text : String} {lifeTime : Int}
    (h : Strings.numeral text = some lifeTime) (seconds : UInt32) :
    Reports (periodicRule text seconds) (.periodic (.interval seconds))
      lifeTime := by
  have htrigger : Strings.toInt "2" = some 2 := by
    decide
  exact ⟨htrigger, h, bytesOfBase64_toBase64 _⟩

/-- An interval of 0 seconds is saved as one of 300, and a life time that no
`int` holds as none. -/
theorem interval_replaced :
    (¬∀ request, edit (periodicDevice "60" 0) hostPanel {}
        (periodicPolicy "60" 0) = some request →
      Same (periodicDevice "60" 0).servers ["mps"] (.periodic (.interval 0)) 60
        request) ∧
      ¬∀ request, edit (periodicDevice "3000000000" 300) hostPanel {}
          (periodicPolicy "3000000000" 300) = some request →
        Same (periodicDevice "3000000000" 300).servers ["mps"]
          (.periodic (.interval 300)) 3000000000 request := by
  have hhost : ¬hostPanel.host.isEmpty = true := by
    decide
  have hserver : ¬∀ n ∈ ["mps"], n = "__proto__" := by
    decide
  constructor
  · have hread := readAs_policy (periodicPolicy_listed "60" 0)
      (periodicPolicy_name "60" 0)
      (periodicRule_reports (by decide : Strings.numeral "60" = some 60) 0)
    intro hsame
    rcases (sends_same_iff hread _ _ _).mp hsame with hrefused | hkept
    · obtain h | h | h | h := hrefused
      · exact hhost h
      · exact hserver h
      · exact absurd h (by decide)
      · exact absurd h (by decide)
    · exact hkept.seconds rfl
  · have hnumeral : Strings.numeral "3000000000" = some 3000000000 := by
      decide
    have hread := readAs_policy (periodicPolicy_listed "3000000000" 300)
      (periodicPolicy_name "3000000000" 300) (periodicRule_reports hnumeral 300)
    intro hsame
    rcases (sends_same_iff hread _ _ _).mp hsame with hrefused | hkept
    · obtain h | h | h | h := hrefused
      · exact hhost h
      · exact hserver h
      · exact absurd h (by decide)
      · exact absurd h (by decide)
    · exact absurd hkept.lifeTime (by decide)

/-- A policy that is opened and saved as it is comes back as it was, if and only
if the edit is refused or nothing is lost on the way. -/
theorem edit_same_iff {σ : Order String RemoteAccessPolicy}
    {rules : List PolicyItem} {links : List LinkRow} {servers : List MpsItem}
    {p : RemoteAccessPolicy}
    (hp : p ∈ (getRemoteAccess σ rules links servers).policies)
    {item : PolicyItem} (hitem : ruleOf rules p.name = some item)
    {t : Trigger} {lifeTime : Int} (hreports : Reports item t lifeTime)
    (panel : Panel) (d : CiraPolicyDialog) :
    let remote := getRemoteAccess σ rules links servers
    (∀ request, edit remote panel d p = some request →
      Same remote.servers p.mpsNames t lifeTime request) ↔
      Refused p.mpsNames panel t lifeTime ∨
        Kept remote.servers p.mpsNames t lifeTime :=
  sends_same_iff (readAs_policy hp hitem hreports) _ panel d

/-- Every five minutes, for a minute at most: that comes back. -/
theorem periodic_same :
    ∃ request, edit (periodicDevice "60" 300) hostPanel {}
        (periodicPolicy "60" 300) = some request ∧
      Same (periodicDevice "60" 300).servers ["mps"]
        (.periodic (.interval 300)) 60 request := by
  have hreports := periodicRule_reports
    (by decide : Strings.numeral "60" = some 60) 300
  have hread := readAs_policy (periodicPolicy_listed "60" 300)
    (periodicPolicy_name "60" 300) hreports
  have hcira : (ciraNames [⟨"mps", 0⟩] ["mps"]).eraseDups = ["mps"] := by
    decide
  have hcila : (cilaNames [⟨"mps", 0⟩] ["mps"]).eraseDups = [] := by
    decide
  have hservers : (periodicDevice "60" 300).servers = [⟨"mps", 0⟩] := rfl
  have hkept : Kept (periodicDevice "60" 300).servers ["mps"]
      (.periodic (.interval 300)) 60 := by
    rw [hservers]
    refine ⟨by decide, by decide, by decide, ?_, ?_⟩
    · rw [hcira]
      exact List.pairwise_singleton _ _
    · rw [hcila]
      exact .nil
  have haccepted : ¬Refused ["mps"] hostPanel (.periodic (.interval 300)) 60 := by
    rintro (hhost | hserver | hunfit | hlife)
    · exact absurd hhost (by decide)
    · exact absurd hserver (by decide)
    · exact absurd hunfit (by decide)
    · exact absurd hlife (by decide)
  have hsent := edit_eq hread (periodicDevice "60" 300) hostPanel {} haccepted
  exact ⟨_, hsent, (edit_same_iff (periodicPolicy_listed "60" 300)
    (periodicPolicy_name "60" 300) hreports _ _).mpr (.inr hkept) _ hsent⟩

end QuMesh.Details
