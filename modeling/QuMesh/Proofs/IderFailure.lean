import QuMesh.Lib.Watch
import QuMesh.Proofs.ScsiCompletion

/-!
# After a failure

A session that failed closed its file and said so; until it is started again
it should write nothing, open nothing and not be closed a second time. The
cases of `Close` and of an unknown command leave `drainInbox` for that reason.
The others do not: a reply that is refused, a second read or a write that did
not go out fail the session and the loop takes the next frame, and a chunk
that comes in later is drained as if nothing had happened.

Which frames may follow can be said exactly. Those that a shut session makes
nothing of are `inert`, and every other stirs it. So the history of a run is
in order if and only if no other frame was at the front of the inbox of a
failed session when the loop looked at it, and the client did not fail under
one.
-/

namespace QuMesh.Ider

open QuMesh.Lib

/-- What a failed session must not do. -/
def Effect.stirs : Effect → Bool
  | .wrote _ _ | .sessionOpened _ | .closed _ => true
  | .enabledChanged enabled => enabled
  | _ => false

/-- Whether the session has failed and was not started again. -/
def Effect.marks (failed : Bool) : Effect → Bool
  | .closed _ => true
  | .started => false
  | _ => failed

/-- What `fail` leaves. -/
structure Session.Shut (s : Session) : Prop where
  opened : s.opened = false
  enabled : s.enabled = false
  isoFile : s.isoFile = none

/-- A failure and what it rules out. -/
def failure : Watch Session Effect where
  out := Session.out
  marks := Effect.marks
  breach := Effect.stirs
  rest := Session.Shut

/-- Neither a failure nor a start. -/
def Effect.plain : Effect → Bool
  | .closed _ | .started => false
  | _ => true

def Plain (es : List Effect) : Prop := ∀ e ∈ es, e.plain = true

theorem Plain.marks {es : List Effect} (h : Plain es) (failed : Bool) :
    ∀ e ∈ es, e.marks failed = failed := by
  intro e he
  have := h e he
  cases e <;> first | rfl | cases this

namespace Session

def failed (s : Session) : Bool := failure.alarm s

/-- From `s` to `d` the session was not started, and if it failed then that
was the last thing that happened and `d` is shut. Under the condition `loud`
something stirred. -/
def Ends (loud : Prop) (s d : Session) : Prop :=
  ∃ new, d.out = s.out ++ new ∧ (loud → ∃ e ∈ new, e.stirs = true) ∧
    (Plain new ∨
      ∃ mid reason, new = mid ++ [.closed reason] ∧ Plain mid ∧ d.Shut)

namespace Ends

theorem quiet {s d : Session} (h : d.out = s.out) : Ends False s d :=
  ⟨[], by rw [h, List.append_nil], False.elim, .inl nofun⟩

theorem weaken {loud : Prop} {s d : Session} (h : Ends loud s d) {less : Prop}
    (himp : less → loud) : Ends less s d := by
  obtain ⟨new, hout, hloud, hend⟩ := h
  exact ⟨new, hout, fun h => hloud (himp h), hend⟩

/-- What happened before the step, if it was not a failure. -/
theorem after {loud : Prop} {s t d : Session} {e : Effect}
    (ht : t.out = s.out ++ [e]) (he : e.plain = true) (h : Ends loud t d) :
    Ends (e.stirs = true ∨ loud) s d := by
  obtain ⟨new, hout, hloud, hend⟩ := h
  have hcons {mid : List Effect} (hmid : Plain mid) : Plain (e :: mid) := by
    intro x hx
    rcases List.mem_cons.mp hx with rfl | hx
    · exact he
    · exact hmid x hx
  refine ⟨e :: new, by rw [hout, ht, List.append_assoc]; rfl, ?_, ?_⟩
  · rintro (h | h)
    · exact ⟨e, List.mem_cons_self, h⟩
    · obtain ⟨x, hx, hstirs⟩ := hloud h
      exact ⟨x, List.mem_cons_of_mem e hx, hstirs⟩
  · rcases hend with hplain | ⟨mid, reason, rfl, hplain, hshut⟩
    · exact .inl (hcons hplain)
    · exact .inr ⟨e :: mid, reason, rfl, hcons hplain, hshut⟩

theorem fail (reason : String) (s : Session) :
    Ends True s (s.fail reason) := by
  have hshut : (s.fail reason).Shut := by
    rw [Session.fail]
    simp only []
    split
    · exact ⟨rfl, rfl, rfl⟩
    next hidle =>
      simp only [Bool.or_eq_true, not_or, Bool.not_eq_true] at hidle
      exact ⟨hidle.1, hidle.2, rfl⟩
  obtain ⟨mid, hout, hmid⟩ : ∃ mid,
      (s.fail reason).out = s.out ++ (mid ++ [.closed reason]) ∧ Plain mid := by
    rw [Session.fail]
    simp only []
    split
    · exact ⟨[.enabledChanged false], by simp [Session.emit], by simp [Plain, Effect.plain]⟩
    · exact ⟨[], rfl, fun e he => absurd he List.not_mem_nil⟩
  refine ⟨mid ++ [.closed reason], hout, fun _ => ?_, .inr ⟨mid, reason, rfl, hmid, hshut⟩⟩
  exact ⟨_, List.mem_append_right _ (List.mem_singleton.mpr rfl), rfl⟩

theorem writeNumbered (env : Env) (frame : Nat → Frame) (s : Session) :
    Ends True s (s.writeNumbered env frame) := by
  let t : Session := { s with outSequence := (s.outSequence + 1) % 2 ^ 32 }
  change Ends True t (t.writeFrame env (frame s.outSequence))
  rw [Session.writeFrame]
  simp only []
  split
  · exact (after rfl rfl (fail _ _)).weaken fun _ => .inl rfl
  · refine ⟨[.wrote (frame s.outSequence)
        (env.writeRaw t.writes (frame s.outSequence).bytes),
      .statsChanged (t.bytesSentToAmt + (frame s.outSequence).bytes.length)
        t.bytesReceivedFromAmt], by simp [Session.emit], fun _ => ?_,
      .inl (by simp [Plain, Effect.plain])⟩
    exact ⟨_, List.mem_cons_self, rfl⟩

theorem answers {env : Env} {dev : UInt8} {s d : Session}
    (h : Answers env dev s d) : Ends True s d := by
  obtain ⟨ready, frame, -, rfl⟩ := h
  exact writeNumbered env frame _

end Ends

/-! ## One frame -/

end Session

/-- The frames a shut session makes nothing of. -/
def Inbound.inert : Inbound → Bool
  | .keepAlivePong | .errorOccurred | .heartbeat => true
  | .statusData data =>
      if data.type = kStatusRegsAvail then data.value % 2 == 0
      else if data.type = kStatusRegsStatus then data.value / 2 % 2 == 0
      else true
  | _ => false

namespace Session

theorem onOpenSessionReply_ends (env : Env) (info : SessionInfo)
    (s : Session) : Ends True s (s.onOpenSessionReply env info) := by
  rw [onOpenSessionReply]
  split
  · exact Ends.fail _ s
  · split
    · exact Ends.fail _ s
    · refine (Ends.after (t := ({ s with info, opened := true }).emit
        (.sessionOpened info)) rfl rfl (Ends.writeNumbered env _ _)).weaken ?_
      exact fun _ => .inr trivial

theorem onStatusData_ends (env : Env) (data : StatusData) (s : Session) :
    Ends (s.Shut ∧ (Inbound.statusData data).inert = false) s
      (s.onStatusData env data) := by
  rw [onStatusData, Inbound.inert]
  split
  · split
    · exact (Ends.writeNumbered env _ s).weaken fun _ => trivial
    next heven =>
      refine (Ends.quiet rfl).weaken fun h => ?_
      have hone : (data.value % 2 == 0) = false := h.2
      rw [beq_eq_false_iff_ne] at hone
      omega
  · split
    · simp only []
      split
      next hne =>
        refine (Ends.after (t := ({ s with
          enabled := data.value / 2 % 2 == 1 }).emit
          (.enabledChanged (data.value / 2 % 2 == 1))) rfl rfl
          (Ends.quiet rfl)).weaken fun h => .inl ?_
        have hset := h.2
        rw [beq_eq_false_iff_ne] at hset
        change (data.value / 2 % 2 == 1) = true
        rw [beq_iff_eq]
        omega
      next hsame =>
        refine (Ends.quiet rfl).weaken fun h => hsame ?_
        have hset := h.2
        rw [beq_eq_false_iff_ne] at hset
        rw [h.1.enabled, ne_eq, beq_eq_false_iff_ne]
        omega
    · exact (Ends.quiet rfl).weaken fun h => Bool.noConfusion h.2

theorem handleScsi_ends (env : Env) {cmd : ScsiCommand} (s : Session)
    (hcdb : cmd.cdb ≠ []) : Ends s.Shut s (s.handleScsi env cmd) := by
  by_cases hread : isRead cmd = true
  · obtain ⟨isRead10, hscsi⟩ := handleScsi_read env s hread
    rw [hscsi]
    rcases scsiRead_cases env cmd.cdb (device cmd) cmd.featureRegister
        isRead10 s with h | ⟨reason, heq⟩ | ⟨iso, lba, len, hiso, -, -, heq⟩
    · exact (Ends.answers h).weaken fun _ => trivial
    · rw [heq]
      exact (Ends.fail reason s).weaken fun _ => trivial
    · -- a shut session has no file to read
      rw [heq]
      refine (Ends.quiet rfl).weaken fun hshut => ?_
      rw [hshut.isoFile] at hiso
      cases hiso
  · exact (Ends.answers (handleScsi_other env s hcdb
      (eq_false_of_ne_true hread))).weaken fun _ => trivial

theorem handleFrame_ends (env : Env) {frame : Inbound} (s : Session)
    (hcdb : ∀ cmd, frame = .commandWritten cmd → cmd.cdb ≠ []) :
    Ends (s.Shut ∧ frame.inert = false) s (s.handleFrame env frame).1 := by
  let t := s.emit (.received frame)
  suffices h : Ends (s.Shut ∧ frame.inert = false) t
      (s.handleFrame env frame).1 from
    (Ends.after (t := t) rfl rfl h).weaken .inr
  cases frame with
  | openSessionReply info =>
      exact (onOpenSessionReply_ends env info t).weaken fun _ => trivial
  | close => exact (Ends.fail _ t).weaken fun _ => trivial
  | keepAlivePing =>
      exact (Ends.writeNumbered env _ t).weaken fun _ => trivial
  | keepAlivePong => exact (Ends.quiet rfl).weaken fun h => Bool.noConfusion h.2
  | resetOccurred =>
      exact (Ends.writeNumbered env _ t).weaken fun _ => trivial
  | statusData data =>
      exact (onStatusData_ends env data t).weaken fun ⟨hshut, hloud⟩ =>
        ⟨⟨hshut.opened, hshut.enabled, hshut.isoFile⟩, hloud⟩
  | errorOccurred => exact (Ends.quiet rfl).weaken fun h => Bool.noConfusion h.2
  | heartbeat => exact (Ends.quiet rfl).weaken fun h => Bool.noConfusion h.2
  | commandWritten cmd =>
      exact (handleScsi_ends env t (hcdb cmd rfl)).weaken fun ⟨hshut, _⟩ =>
        ⟨hshut.opened, hshut.enabled, hshut.isoFile⟩
  | unknown tag => exact (Ends.fail _ t).weaken fun _ => trivial

theorem handleFrame_inert (env : Env) {frame : Inbound} {s : Session}
    (hshut : s.Shut) (h : frame.inert = true) :
    (s.handleFrame env frame).1 = s.emit (.received frame) := by
  cases frame with
  | keepAlivePong => rfl
  | errorOccurred => rfl
  | heartbeat => rfl
  | statusData data =>
      let t := s.emit (.received (.statusData data))
      change t.onStatusData env data = t
      have henabled : t.enabled = false := hshut.enabled
      rw [Inbound.inert] at h
      rw [onStatusData]
      split at h
      next htype =>
        rw [if_pos htype, if_neg]
        rw [beq_iff_eq] at h
        omega
      next htype =>
        rw [if_neg htype]
        split at h
        next htype =>
          have hclear : (data.value / 2 % 2 == 1) = false := by
            rw [beq_iff_eq] at h
            rw [beq_eq_false_iff_ne]
            omega
          rw [if_pos htype, hclear, henabled]
          rfl
        next htype => rw [if_neg htype]
  | _ => cases h

/-! ## Whether a step leaves a failed session alone -/

/-- A session that has not failed may do as it likes. -/
theorem Ends.rests {loud : Prop} {s d : Session} (h : Ends loud s d)
    (hs : s.failed = false) : failure.Rests True s d := by
  obtain ⟨new, hout, -, hend⟩ := h
  rw [failed] at hs
  refine ⟨new, hout, ?_, fun _ hd => ?_⟩
  · rw [hs, iff_true]
    rcases hend with hplain | ⟨mid, reason, rfl, hplain, -⟩
    · exact Watch.inOrder_silent (hplain.marks false)
    · have hmid : failure.alarmAfter false mid = false :=
        Watch.alarmAfter_eq (hplain.marks false)
      rw [Watch.inOrder_append, Watch.inOrder_silent (hplain.marks false), hmid]
      rfl
  · rcases hend with hplain | ⟨mid, reason, -, -, hshut⟩
    · rw [Watch.alarm_append (w := failure) hout, hs,
        Watch.alarmAfter_eq (hplain.marks false)] at hd
      cases hd
    · exact hshut

/-- A failed one that stirs is out of order. -/
theorem Ends.stirred {loud : Prop} {s d : Session} (h : Ends loud s d)
    (hs : s.failed = true) (hloud : loud) : failure.Rests False s d := by
  obtain ⟨new, hout, hstirs, hend⟩ := h
  obtain ⟨e, he, hstir⟩ := hstirs hloud
  have hkeeps : ∀ e ∈ new, e.marks true = true := by
    rcases hend with hplain | ⟨mid, reason, rfl, hplain, -⟩
    · exact hplain.marks true
    · intro e he
      rcases List.mem_append.mp he with he | he
      · exact hplain.marks true e he
      · cases List.mem_singleton.mp he
        rfl
  rw [failed] at hs
  refine ⟨new, hout, ?_, False.elim⟩
  rw [hs, Watch.inOrder_breached hkeeps he hstir]
  exact ⟨Bool.noConfusion, False.elim⟩

/-- The frame at the front of the inbox leaves a failed session alone. -/
def heeds (s : Session) : Bool :=
  !s.failed ||
    match nextFrame s.inbox with
    | none => true
    | some (frame, _) => frame.inert

/-- Whether an event does: the rounds its chunk takes all do, and the client
does not fail under a failed session. -/
def heedsAt (env : Env) (s : Session) : Event → Bool
  | .rawBytes chunk =>
      everyRound (·.inbox.isEmpty) (drainStep env) heeds
        (s.taken chunk).inbox.length (s.taken chunk)
  | .clientFailed _ => !s.failed
  | _ => true

/-- A session keeps its rest where its flags and its file stay as they are. -/
theorem quiet {s d : Session} (hs : failure.Calm s) (hout : d.out = s.out)
    (hrest : s.Shut → d.Shut) : failure.Rests True s d :=
  Watch.Rests.quiet hs hout hrest

theorem handleFrame_rests (env : Env) {frame : Inbound} {s : Session}
    (hs : failure.Calm s)
    (hcdb : ∀ cmd, frame = .commandWritten cmd → cmd.cdb ≠ []) :
    failure.Rests (s.failed = true → frame.inert = true) s
      (s.handleFrame env frame).1 := by
  have hends := handleFrame_ends env s hcdb
  cases hf : s.failed with
  | false => exact (hends.rests hf).congr (iff_of_true trivial nofun)
  | true =>
      have hshut : s.Shut := hs hf
      cases hin : frame.inert with
      | false =>
          exact (hends.stirred hf ⟨hshut, hin⟩).congr
            (iff_of_false id fun h => Bool.noConfusion (h rfl))
      | true =>
          rw [handleFrame_inert env hshut hin]
          refine ⟨[.received frame], rfl, ?_, fun _ _ => ?_⟩
          · cases failure.alarm s <;> exact iff_of_true rfl fun _ => rfl
          · exact ⟨hshut.opened, hshut.enabled, hshut.isoFile⟩

theorem drainStep_rests (env : Env) {s : Session} (hs : failure.Calm s) :
    failure.Rests (s.heeds = true) s (s.drainStep env).1 := by
  rw [drainStep, heeds]
  cases hnext : nextFrame s.inbox with
  | none => exact (quiet hs rfl id).congr (iff_of_true trivial (Bool.or_true _))
  | some taken =>
      obtain ⟨frame, n⟩ := taken
      let t : Session := { s with inbox := s.inbox.drop n }
      have ht : failure.Calm t := fun hf =>
        ⟨(hs hf).opened, (hs hf).enabled, (hs hf).isoFile⟩
      have hcdb : ∀ cmd, frame = .commandWritten cmd → cmd.cdb ≠ [] := by
        intro cmd hcmd hnil
        rw [hcmd] at hnext
        have hlen := nextFrame_cdb hnext
        rw [hnil] at hlen
        cases hlen
      have hframe : failure.Rests (s.failed = true → frame.inert = true) s
          (t.handleFrame env frame).1 :=
        (handleFrame_rests env ht hcdb).around rfl rfl id
      refine hframe.congr ?_
      cases s.failed <;> simp

theorem onRawBytes_rests (env : Env) (chunk : Bytes) {s : Session}
    (hs : failure.Calm s) :
    failure.Rests (s.heedsAt env (.rawBytes chunk) = true) s
      (s.onRawBytes env chunk) := by
  have ht : failure.Calm (s.taken chunk) := fun hf =>
    ⟨(hs hf).opened, (hs hf).enabled, (hs hf).isoFile⟩
  let d := (s.taken chunk).drainInbox env
  have hloop : failure.Rests (s.heedsAt env (.rawBytes chunk) = true)
      (s.taken chunk) d := by
    have := Watch.Rests.rounds (w := failure) (·.inbox.isEmpty)
      (Grows.drainStep env) (fun _ h => drainStep_rests env h)
      (s.taken chunk).inbox.length ht
    rwa [← drainLoop_rounds] at this
  -- the counters that are reported at the end stir nothing
  have hstats (hd : failure.Calm d) : failure.Rests True d (d.emit
      (.statsChanged d.bytesSentToAmt d.bytesReceivedFromAmt)) := by
    refine ⟨_, rfl, iff_of_true ?_ trivial, fun _ hf => ?_⟩
    · cases failure.alarm d <;> rfl
    · have hf' : failure.alarm d = true := by
        rwa [Watch.alarm_append (w := failure) rfl] at hf
      exact ⟨(hd hf').opened, (hd hf').enabled, (hd hf').isoFile⟩
  exact ((hloop.trans (Grows.of_does (Does.emit _ rfl))
    fun hg => hstats (hloop.calm hg)).congr (and_iff_left trivial)).around
    rfl rfl id

/-- The timer of a session that is shut has no file to read. -/
theorem tick_rests (env : Env) {s : Session} (hs : failure.Calm s) :
    failure.Rests True s (s.tick env) := by
  have hcase := tick_cases env s
  generalize s.tick env = d at hcase
  have hopen {iso : IsoFile} (hiso : s.isoFile = some iso) :
      s.failed = false := by
    cases hf : s.failed with
    | false => rfl
    | true =>
        rw [(hs hf).isoFile] at hiso
        cases hiso
  cases hcase with
  | idle htime => exact quiet hs rfl id
  | ended htime h =>
      exact quiet hs rfl fun h => ⟨h.opened, h.enabled, h.isoFile⟩
  | @short htime iso hiso hleft =>
      have hsent := (Ends.writeNumbered env
        (fun n => .commandEndResponse n false kSenseIllegalRequest s.chunkDev
          0x21 0x00) (s.fired.afterChunk iso s.remainingReadBytes)).rests
        (hopen hiso)
      exact hsent.around rfl rfl fun h => ⟨h.opened, h.enabled, h.isoFile⟩
  | @chunk htime iso hiso hleft =>
      have hsent := (Ends.writeNumbered env
        (fun n => .sendDataToHost n s.chunkDev
          (s.remainingReadBytes - s.chunkWant == 0) (s.chunkData iso)
          (feature s.chunkFeature))
        (s.fired.afterChunk iso (s.remainingReadBytes - s.chunkWant))).rests
        (hopen hiso)
      refine hsent.around rfl (rearm_out _) fun h => ?_
      rw [rearm]
      split <;> exact ⟨h.opened, h.enabled, h.isoFile⟩

theorem start_rests (env : Env) (authenticated : Bool) (s : Session) :
    failure.Rests True s (s.start env authenticated) := by
  have hstarted : failure.Rests True s (s.emit .started) := by
    refine ⟨[.started], rfl, iff_of_true ?_ trivial, fun _ hf => ?_⟩
    · cases failure.alarm s <;> rfl
    · rw [Watch.alarm_append (w := failure) rfl] at hf
      cases hf
  have hfresh : (s.emit .started).failed = failure.alarmAfter s.failed [.started] :=
    Watch.alarm_append (w := failure) rfl
  have hend {loud : Prop} {d : Session} (h : Ends loud (s.emit .started) d) :
      failure.Rests True s d := by
    have hgrows : Grows (s.emit .started) d := by
      obtain ⟨new, hout, -⟩ := h
      exact ⟨new, hout⟩
    exact (hstarted.trans hgrows fun _ => h.rests hfresh).congr (and_self_iff)
  rw [Session.start]
  simp only []
  split
  · exact hend (Ends.fail _ _)
  · split
    · exact hend (Ends.writeNumbered env _ _)
    · split
      · exact hend (Ends.fail _ _)
      next contents hfile =>
        exact hend (Ends.writeNumbered env _ { s.emit .started with
          isoFile := some { contents }
          isoSize := contents.length })

theorem handle_rests (env : Env) {s : Session} (hs : failure.Calm s) (e : Event) :
    failure.Rests (s.heedsAt env e = true) s (s.handle env e) := by
  cases e with
  | setIsoPath path =>
      have h : failure.Rests True s { s with isoPath := path } :=
        quiet hs rfl fun h => ⟨h.opened, h.enabled, h.isoFile⟩
      exact h.congr (iff_of_true trivial rfl)
  | setStartOption option =>
      have h : failure.Rests True s { s with startOption := option } :=
        quiet hs rfl fun h => ⟨h.opened, h.enabled, h.isoFile⟩
      exact h.congr (iff_of_true trivial rfl)
  | start authenticated =>
      exact (start_rests env authenticated s).congr (iff_of_true trivial rfl)
  | rawBytes chunk => exact onRawBytes_rests env chunk hs
  | clientFailed reason =>
      have hfail := Ends.fail reason s
      rw [heedsAt]
      cases hf : s.failed with
      | false => exact (hfail.rests hf).congr (iff_of_true trivial rfl)
      | true => exact (hfail.stirred hf trivial).congr (iff_of_false id nofun)
  | chunkTimer => exact (tick_rests env hs).congr (iff_of_true trivial rfl)

end Session

/-- A failed session comes to rest exactly in the runs in which `drainInbox`
finds only inert frames under it and the client does not fail under it. -/
theorem failure_terminal (env : Env) (path : String) (option : StartOption)
    (es : List Event) :
    (failure.inOrder false (run (Session.handle env)
        { isoPath := path, startOption := option } es).out = true ∧
      failure.Calm (run (Session.handle env)
        { isoPath := path, startOption := option } es)) ↔
      Guarded (Session.handle env) (fun _ s e => s.heedsAt env e = true)
        { isoPath := path, startOption := option } es :=
  Watch.inOrder_run (w := failure) (Session.Grows.handle env)
    (fun _ e hs => Session.handle_rests env hs e) rfl es

/-- A refused `OpenSessionReply` with a `KeepAlivePing` behind it, and then one
that is not refused. -/
def refusedRun : List Event :=
  [.start true,
    .rawBytes ([0x41, 0, 0, 0, 0, 0, 0, 0, 0, 0, 0, 0, 0, 0, 0, 0, 0, 0, 0, 0,
      0, 1, 0, 0, 0, 0, 0, 0, 0, 0] ++ [0x44, 0, 0, 0, 0, 0, 0, 0]),
    .rawBytes ([0x41] ++ List.replicate 29 0)]

theorem failure_not_terminal :
    failure.inOrder false (run (Session.handle .plain)
      { isoPath := "cd.iso" } refusedRun).out = false ∧
    (run (Session.handle .plain) { isoPath := "cd.iso" } refusedRun).failed =
      true ∧
    (run (Session.handle .plain) { isoPath := "cd.iso" } refusedRun).opened =
      true := by
  decide

end QuMesh.Ider
