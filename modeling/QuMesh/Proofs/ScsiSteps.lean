import QuMesh.Ider.Session

/-!
# What an IDE-R step does

A step is known by what it adds to the history, and a session that has not
failed by what is not in it. `Does got done` says both: the step took the
commands of the devices `got`, completed commands of the devices `done`, and
left a read that is under way alone, unless it failed the session. The
handlers that are not a read all do the same, one frame that completes the one
command: that is `Answers`, and there is one lemma for each.
-/

namespace QuMesh.Ider

open QuMesh.Lib

/-- The device whose command the frame completes. -/
def Frame.completes? : Frame → Option UInt8
  | .commandEndResponse _ _ _ device _ _ => some device
  | .sendDataToHost _ device true _ _ => some device
  | _ => none

/-- A response that went out and completes a command. -/
def Effect.completion? : Effect → Option UInt8
  | .wrote frame result => if 0 < result then frame.completes? else none
  | _ => none

/-- A command that came in. -/
def Effect.command? : Effect → Option UInt8
  | .received (.commandWritten cmd) => some (Session.device cmd)
  | _ => none

def Effect.isClosed : Effect → Bool
  | .closed _ => true
  | _ => false

def completions (es : List Effect) : List UInt8 :=
  es.filterMap Effect.completion?

def commands (es : List Effect) : List UInt8 := es.filterMap Effect.command?

/-- The session did not fail in these steps. -/
def Healthy (es : List Effect) : Prop := ∀ e ∈ es, e.isClosed = false

theorem completions_append (es fs : List Effect) :
    completions (es ++ fs) = completions es ++ completions fs :=
  List.filterMap_append

theorem commands_append (es fs : List Effect) :
    commands (es ++ fs) = commands es ++ commands fs :=
  List.filterMap_append

theorem Healthy.left {es fs : List Effect} (h : Healthy (es ++ fs)) :
    Healthy es :=
  fun e he => h e (List.mem_append_left _ he)

theorem Healthy.right {es fs : List Effect} (h : Healthy (es ++ fs)) :
    Healthy fs :=
  fun e he => h e (List.mem_append_right _ he)

namespace Session

/-- What the chunk timer looks at. -/
structure Reading where
  isoFile : Option IsoFile
  isoSize : Nat
  remaining : Nat
  dev : UInt8
  feature : UInt8
  size : Nat
  inFlight : Bool
  timers : Nat

def reading (s : Session) : Reading :=
  ⟨s.isoFile, s.isoSize, s.remainingReadBytes, s.chunkDev, s.chunkFeature,
    s.chunkSize, s.scsiReadInFlight, s.chunkTimers⟩

/-- The read buffer is one `onOpenSessionReply` lets pass. -/
def Negotiated (s : Session) : Prop := s.info.readBuffer ≤ kMaxReadCap

/-- From `s` to `d` these commands came in and these were completed, and the
read was left alone. A step that fails the session promises nothing. -/
def Does (got done : List UInt8) (s d : Session) : Prop :=
  (s.Negotiated → d.Negotiated) ∧
    ∃ new, d.out = s.out ++ new ∧
      (Healthy new → commands new = got ∧ completions new = done ∧
        d.reading = s.reading)

/-- A failure is in the history. -/
theorem fail_out (reason : String) (s : Session) :
    ∃ new, (s.fail reason).out = s.out ++ new ∧ ¬ Healthy new := by
  have hclosed (new : List Effect) : ¬ Healthy (new ++ [.closed reason]) :=
    fun h => absurd (h _ (List.mem_append_right _ (List.mem_singleton.mpr rfl)))
      (by simp [Effect.isClosed])
  rw [Session.fail]
  simp only []
  split
  · exact ⟨[.enabledChanged false] ++ [.closed reason],
      by simp [Session.emit], hclosed _⟩
  · exact ⟨[] ++ [.closed reason], rfl, hclosed _⟩

namespace Does

theorem nothing {s d : Session} (hout : d.out = s.out)
    (h : d.reading = s.reading) (hn : s.Negotiated → d.Negotiated) :
    Does [] [] s d :=
  ⟨hn, [], by rw [hout, List.append_nil], fun _ => ⟨rfl, rfl, h⟩⟩

theorem refl (s : Session) : Does [] [] s s := nothing rfl rfl id

theorem trans {g₁ g₂ f₁ f₂ : List UInt8} {s t d : Session}
    (h : Does g₁ f₁ s t) (g : Does g₂ f₂ t d) :
    Does (g₁ ++ g₂) (f₁ ++ f₂) s d := by
  obtain ⟨hn₁, new₁, hout₁, h₁⟩ := h
  obtain ⟨hn₂, new₂, hout₂, h₂⟩ := g
  refine ⟨fun hn => hn₂ (hn₁ hn), new₁ ++ new₂, by rw [hout₂, hout₁, List.append_assoc], fun hh => ?_⟩
  obtain ⟨hc₁, hd₁, hs₁⟩ := h₁ hh.left
  obtain ⟨hc₂, hd₂, hs₂⟩ := h₂ hh.right
  exact ⟨by rw [commands_append, hc₁, hc₂],
    by rw [completions_append, hd₁, hd₂], hs₂.trans hs₁⟩

/-- A change of what a read does not look at, before a step. -/
theorem after {got done : List UInt8} {s t d : Session} (hout : t.out = s.out)
    (hs : t.reading = s.reading) (hn : s.Negotiated → t.Negotiated)
    (h : Does got done t d) : Does got done s d :=
  (nothing hout hs hn).trans h

/-- A step that did not fail started from a session that had not. -/
theorem healthy {got done : List UInt8} {s d : Session} (h : Does got done s d)
    (hh : Healthy d.out) :
    Healthy s.out ∧ d.reading = s.reading := by
  obtain ⟨-, new, hout, hnew⟩ := h
  rw [hout] at hh
  exact ⟨hh.left, (hnew hh.right).2.2⟩

theorem ite {c : Prop} [Decidable c] {got done : List UInt8} {s a b : Session}
    (ha : Does got done s a) (hb : Does got done s b) :
    Does got done s (if c then a else b) := by
  split
  · exact ha
  · exact hb

theorem emit (s : Session) {e : Effect} (he : e.completion? = none) :
    Does e.command?.toList [] s (s.emit e) := by
  refine ⟨id, [e], rfl, fun _ => ⟨?_, ?_, rfl⟩⟩
  · cases h : e.command? <;> simp [commands, h]
  · simp [completions, he]

theorem fail (got done : List UInt8) (reason : String) (s : Session) :
    Does got done s (s.fail reason) := by
  obtain ⟨new, hout, hnew⟩ := fail_out reason s
  refine ⟨fun hn => ?_, new, hout, fun h => absurd h hnew⟩
  have hinfo : (s.fail reason).info = s.info := by
    rw [Session.fail]
    simp only []
    split <;> rfl
  rw [Negotiated, hinfo]
  exact hn

theorem writeFrame (env : Env) (frame : Frame) (s : Session) :
    Does [] frame.completes?.toList s (s.writeFrame env frame) := by
  rw [Session.writeFrame]
  simp only []
  split
  next hbad =>
    have hw : Does [] [] s (({ s with writes := s.writes + 1 }).emit
        (.wrote frame (env.writeRaw s.writes frame.bytes))) := by
      refine after (t := { s with writes := s.writes + 1 }) rfl rfl id
        (emit _ ?_)
      exact if_neg (Int.not_lt.mpr hbad)
    exact hw.trans (fail [] _ _ _)
  next hgood =>
    refine ⟨id, [.wrote frame (env.writeRaw s.writes frame.bytes),
      .statsChanged (s.bytesSentToAmt + frame.bytes.length)
        s.bytesReceivedFromAmt], by simp [Session.emit], fun _ => ⟨rfl, ?_, rfl⟩⟩
    have hpos : Effect.completion?
        (.wrote frame (env.writeRaw s.writes frame.bytes)) =
        frame.completes? :=
      if_pos (Int.not_le.mp hgood)
    have hstats (a b : Nat) : (Effect.statsChanged a b).completion? = none :=
      rfl
    cases hf : frame.completes? <;>
      simp [completions, hpos, hf, hstats]

theorem writeNumbered (env : Env) (frame : Nat → Frame) (s : Session)
    {done : List UInt8}
    (h : ∀ n, (frame n).completes?.toList = done) :
    Does [] done s (s.writeNumbered env frame) := by
  rw [← h s.outSequence]
  exact after (t := { s with outSequence := (s.outSequence + 1) % 2 ^ 32 }) rfl
    rfl id (writeFrame env _ _)

/-! ## The frames that are not a command -/

/-- A chunk that is not the last completes nothing. -/
theorem sendChunk (env : Env) (dev : UInt8) (completed : Bool) (data : Bytes)
    (dma : Bool) (s : Session) :
    Does [] (if completed then [dev] else []) s
      (s.sendData env dev completed data dma) :=
  writeNumbered env _ s fun _ => by cases completed <;> rfl

theorem enableFeatures (env : Env) (s : Session) :
    Does [] [] s (s.enableFeatures env) :=
  writeNumbered env _ s fun _ => rfl

theorem onOpenSessionReply (env : Env) (info : SessionInfo) (s : Session) :
    Does [] [] s (s.onOpenSessionReply env info) := by
  rw [Session.onOpenSessionReply]
  split
  · exact fail [] [] _ s
  · split
    · exact fail [] [] _ s
    next hsize =>
      refine after (t := { s with info, opened := true }) rfl rfl
        (fun _ => Nat.le_of_not_lt fun h => hsize (.inl h)) ?_
      exact (emit _ rfl).trans (enableFeatures env _)

theorem onStatusData (env : Env) (data : StatusData) (s : Session) :
    Does [] [] s (s.onStatusData env data) := by
  rw [Session.onStatusData]
  split
  · split
    · exact enableFeatures env s
    · exact refl s
  · split
    · simp only []
      split
      · refine after (t := { s with enabled := data.value / 2 % 2 == 1 }) rfl
          rfl id (emit _ rfl)
      · exact refl s
    · exact refl s

theorem sendError (env : Env) (dev sense asc asq : UInt8) (s : Session) :
    Does [] [dev] s (s.sendError env dev sense asc asq) :=
  writeNumbered env _ s fun _ => rfl

end Does

/-! ## The handlers -/

/-- One frame that completes the command, and at most a change of medium noted
before it. -/
def Answers (env : Env) (dev : UInt8) (s d : Session) : Prop :=
  ∃ ready frame, (∀ n, (frame n).completes? = some dev) ∧
    d = ({ s with cdReady := ready }).writeNumbered env frame

namespace Answers

theorem ite {env : Env} {dev : UInt8} {c : Prop} [Decidable c]
    {s a b : Session} (ha : Answers env dev s a) (hb : Answers env dev s b) :
    Answers env dev s (if c then a else b) := by
  split
  · exact ha
  · exact hb

theorem does {env : Env} {dev : UInt8} {s d : Session}
    (h : Answers env dev s d) : Does [] [dev] s d := by
  obtain ⟨ready, frame, hframe, rfl⟩ := h
  refine Does.after (t := { s with cdReady := ready }) rfl rfl id
    (Does.writeNumbered env _ _ fun n => ?_)
  rw [hframe n]
  rfl

theorem sendOk (env : Env) (dev : UInt8) (s : Session) :
    Answers env dev s (s.sendOk env dev) :=
  ⟨s.cdReady, _, fun _ => rfl, rfl⟩

theorem sendError (env : Env) (dev sense asc asq : UInt8) (s : Session) :
    Answers env dev s (s.sendError env dev sense asc asq) :=
  ⟨s.cdReady, _, fun _ => rfl, rfl⟩

theorem sendData (env : Env) (dev : UInt8) (data : Bytes) (dma : Bool)
    (s : Session) : Answers env dev s (s.sendData env dev true data dma) :=
  ⟨s.cdReady, _, fun _ => rfl, rfl⟩

theorem scsiTestUnitReady (env : Env) (dev : UInt8) (s : Session) :
    Answers env dev s (s.scsiTestUnitReady env dev) := by
  rw [Session.scsiTestUnitReady]
  split
  · exact sendError env _ _ _ _ s
  · split
    · exact ⟨true, _, fun _ => rfl, rfl⟩
    · exact sendOk env dev s

theorem scsiModeSense6 (env : Env) (cdb : Bytes) (dev fr : UInt8)
    (s : Session) : Answers env dev s (s.scsiModeSense6 env cdb dev fr) := by
  rw [Session.scsiModeSense6]
  split
  · exact sendError env _ _ _ _ s
  · split
    · split
      · split
        · exact sendError env _ _ _ _ s
        · exact sendData env _ _ _ s
      · exact sendError env _ _ _ _ s
    · exact sendError env _ _ _ _ s

theorem scsiModeSense10 (env : Env) (cdb : Bytes) (dev fr : UInt8)
    (s : Session) : Answers env dev s (s.scsiModeSense10 env cdb dev fr) := by
  rw [Session.scsiModeSense10]
  split
  · exact sendError env _ _ _ _ s
  · simp only []
    split
    · exact sendData env _ _ _ s
    · split
      · exact sendError env _ _ _ _ s
      · exact sendData env _ _ _ s

theorem scsiAllowMediumRemoval (env : Env) (dev : UInt8) (s : Session) :
    Answers env dev s (s.scsiAllowMediumRemoval env dev) := by
  rw [Session.scsiAllowMediumRemoval]
  split
  · exact sendError env _ _ _ _ s
  · exact sendOk env dev s

theorem scsiReadCapacity (env : Env) (dev fr : UInt8) (s : Session) :
    Answers env dev s (s.scsiReadCapacity env dev fr) := by
  rw [Session.scsiReadCapacity]
  split
  · exact sendError env _ _ _ _ s
  · exact sendData env _ _ _ s

theorem scsiReadToc (env : Env) (cdb : Bytes) (dev fr : UInt8) (s : Session) :
    Answers env dev s (s.scsiReadToc env cdb dev fr) := by
  rw [Session.scsiReadToc]
  split
  · exact sendError env _ _ _ _ s
  · simp only []
    split
    · split
      · exact sendData env _ _ _ s
      · split
        · exact sendData env _ _ _ s
        · exact sendError env _ _ _ _ s
    · split
      · exact sendData env _ _ _ s
      · split
        · exact sendData env _ _ _ s
        · exact sendError env _ _ _ _ s

theorem scsiGetConfiguration (env : Env) (cdb : Bytes) (dev fr : UInt8)
    (s : Session) :
    Answers env dev s (s.scsiGetConfiguration env cdb dev fr) := by
  rw [Session.scsiGetConfiguration]
  split
  · exact sendError env _ _ _ _ s
  · simp only []
    split
    · exact sendData env _ _ _ s
    · exact sendData env _ _ _ s

theorem scsiGetEventStatus (env : Env) (cdb : Bytes) (dev fr : UInt8)
    (s : Session) :
    Answers env dev s (s.scsiGetEventStatus env cdb dev fr) := by
  rw [Session.scsiGetEventStatus]
  split
  · exact sendError env _ _ _ _ s
  · exact sendData env _ _ _ s

theorem scsiReadFormatCapacities (env : Env) (dev fr : UInt8) (s : Session) :
    Answers env dev s (s.scsiReadFormatCapacities env dev fr) := by
  rw [Session.scsiReadFormatCapacities]
  split
  · exact sendError env _ _ _ _ s
  · exact sendData env _ _ _ s

end Answers

/-- The command is one of the two reads. -/
def isRead (cmd : ScsiCommand) : Bool :=
  match cmd.cdb with
  | [] => false
  | opcode :: _ => opcode == kRead6 || opcode == kRead10

/-- A read that is taken on: the file is at its first block and the chunk
timer is armed. -/
def beginRead (iso : IsoFile) (lba len : Nat) (dev fr : UInt8) (s : Session) :
    Session :=
  { s with
    isoFile := some { iso with pos := lba * 2 ^ 11 }
    remainingReadBytes := len * 2 ^ 11
    chunkDev := dev
    chunkFeature := fr
    chunkSize :=
      if s.info.readBuffer > 0 then s.info.readBuffer else kMaxReadCap
    scsiReadInFlight := true
    chunkTimers := s.chunkTimers + 1 }

/-- A read is answered at once, fails the session, or is taken on. -/
theorem scsiRead_cases (env : Env) (cdb : Bytes) (dev fr : UInt8)
    (isRead10 : Bool) (s : Session) :
    Answers env dev s (s.scsiRead env cdb dev fr isRead10) ∨
      (∃ reason, s.scsiRead env cdb dev fr isRead10 = s.fail reason) ∨
      ∃ iso lba len, s.isoFile = some iso ∧ 0 < len ∧
        s.scsiReadInFlight = false ∧
        s.scsiRead env cdb dev fr isRead10 = s.beginRead iso lba len dev fr := by
  unfold scsiRead
  split
  · exact .inl (Answers.sendError env _ _ _ _ s)
  next iso hiso =>
    split
    · exact .inl (Answers.sendError env _ _ _ _ s)
    · split
      · exact .inl (Answers.sendError env _ _ _ _ s)
      next lba len hext =>
        simp only []
        split
        · exact .inl (Answers.sendError env _ _ _ _ s)
        · split
          · exact .inl (Answers.sendOk env dev s)
          next hlen =>
            split
            · exact .inr (.inl ⟨_, rfl⟩)
            next hidle =>
              exact .inr (.inr ⟨iso, lba, len, hiso, Nat.pos_of_ne_zero hlen,
                eq_false_of_ne_true hidle, rfl⟩)

/-- Every command but a read is completed by its handler. -/
theorem handleScsi_other (env : Env) {cmd : ScsiCommand} (s : Session)
    (hcdb : cmd.cdb ≠ []) (hread : isRead cmd = false) :
    Answers env (device cmd) s (s.handleScsi env cmd) := by
  rw [handleScsi]
  cases hc : cmd.cdb with
  | nil => exact absurd hc hcdb
  | cons opcode rest =>
      rw [isRead, hc] at hread
      simp only [Bool.or_eq_false_iff, beq_eq_false_iff_ne] at hread
      -- the opcodes in the order of the switch
      refine .ite (Answers.scsiTestUnitReady env _ s) ?_
      refine .ite (Answers.scsiModeSense6 env _ _ _ s) ?_
      refine .ite (Answers.scsiModeSense10 env _ _ _ s) ?_
      refine .ite (Answers.scsiAllowMediumRemoval env _ s) ?_
      refine .ite (Answers.sendOk env _ s) ?_
      refine .ite (Answers.scsiReadCapacity env _ _ s) ?_
      rw [if_neg hread.1, if_neg hread.2]
      refine .ite (Answers.scsiReadToc env _ _ _ s) ?_
      refine .ite (Answers.scsiGetConfiguration env _ _ _ s) ?_
      refine .ite (Answers.scsiGetEventStatus env _ _ _ s) ?_
      refine .ite (Answers.scsiReadFormatCapacities env _ _ s) ?_
      iterate 3 refine .ite (Answers.sendError env _ _ _ _ s) ?_
      exact Answers.sendError env _ _ _ _ s

/-- A read that is not answered at once. -/
theorem handleScsi_read (env : Env) {cmd : ScsiCommand} (s : Session)
    (hread : isRead cmd = true) :
    ∃ isRead10, s.handleScsi env cmd =
      s.scsiRead env cmd.cdb (device cmd) cmd.featureRegister isRead10 := by
  rw [handleScsi]
  cases hc : cmd.cdb with
  | nil =>
      rw [isRead, hc] at hread
      cases hread
  | cons opcode rest =>
      rw [isRead, hc] at hread
      simp only [Bool.or_eq_true, beq_iff_eq] at hread
      rcases hread with rfl | rfl
      · exact ⟨false, rfl⟩
      · exact ⟨true, rfl⟩

end Session

def Inbound.isRead : Inbound → Bool
  | .commandWritten cmd => Session.isRead cmd
  | _ => false

namespace Session

/-- Every frame that is not a read: a command is completed, and nothing else
is. -/
theorem handleFrame_other (env : Env) {frame : Inbound} (s : Session)
    (hcdb : ∀ cmd, frame = .commandWritten cmd → cmd.cdb ≠ [])
    (hread : frame.isRead = false) :
    Does (Effect.received frame).command?.toList
      (Effect.received frame).command?.toList s (s.handleFrame env frame).1 := by
  have hgot : Does (Effect.received frame).command?.toList [] s
      (s.emit (.received frame)) := Does.emit s rfl
  have hquiet : ∀ {d : Session}, Does [] [] (s.emit (.received frame)) d →
      (Effect.received frame).command? = none →
      Does (Effect.received frame).command?.toList
        (Effect.received frame).command?.toList s d := by
    intro d hd hnone
    rw [hnone] at hgot ⊢
    exact hgot.trans hd
  cases frame with
  | openSessionReply info =>
      exact hquiet (Does.onOpenSessionReply env info _) rfl
  | close => exact hquiet (Does.fail [] [] _ _) rfl
  | keepAlivePing => exact hquiet (Does.writeNumbered env _ _ fun _ => rfl) rfl
  | keepAlivePong => exact hquiet (Does.refl _) rfl
  | resetOccurred => exact hquiet (Does.writeNumbered env _ _ fun _ => rfl) rfl
  | statusData data => exact hquiet (Does.onStatusData env data _) rfl
  | errorOccurred => exact hquiet (Does.refl _) rfl
  | heartbeat => exact hquiet (Does.refl _) rfl
  | commandWritten cmd =>
      exact hgot.trans (handleScsi_other env _ (hcdb cmd rfl) hread).does
  | unknown tag => exact hquiet (Does.fail [] [] _ _) rfl

theorem ite_some {α : Type} {c : Prop} [Decidable c] {a b : Option α} {x : α}
    (h : (if c then a else b) = some x) :
    (c ∧ a = some x) ∨ (¬ c ∧ b = some x) := by
  by_cases hc : c
  · exact .inl ⟨hc, by rwa [if_pos hc] at h⟩
  · exact .inr ⟨hc, by rwa [if_neg hc] at h⟩

/-- A command off the wire has its twelve bytes. -/
theorem nextFrame_cdb {inbox : Bytes} {cmd : ScsiCommand} {n : Nat}
    (h : nextFrame inbox = some (.commandWritten cmd, n)) :
    cmd.cdb.length = 12 := by
  have hno {α : Type} {o : Option α} {f : α → Inbound × Nat}
      (hf : ∀ a, (f a).1 ≠ .commandWritten cmd) :
      o.map f ≠ some (.commandWritten cmd, n) := by
    intro he
    obtain ⟨a, -, ha⟩ := Option.map_eq_some_iff.mp he
    exact hf a (by rw [ha])
  -- only the branch of the tag itself makes a command
  iterate 8
    rcases ite_some h with ⟨-, h⟩ | ⟨-, h⟩
    · exact absurd h (hno fun _ => Inbound.noConfusion)
  rcases ite_some h with ⟨-, h⟩ | ⟨-, h⟩
  · obtain ⟨⟨cmd', m⟩, hparse, he⟩ := Option.map_eq_some_iff.mp h
    cases he
    rcases ite_some hparse with ⟨-, hparse⟩ | ⟨hlen, hparse⟩
    · cases hparse
    rcases ite_some hparse with ⟨-, hparse⟩ | ⟨-, hparse⟩
    · cases hparse
    cases hparse
    rw [List.length_take, List.length_drop]
    omega
  · cases h

/-! ## One tick of a read -/

/-- What the next chunk should hold, and what the file has of it. -/
def chunkWant (s : Session) : Nat := min s.remainingReadBytes s.chunkSize

def chunkData (iso : IsoFile) (s : Session) : Bytes :=
  (iso.contents.drop iso.pos).take s.chunkWant

/-- The chunk has been read off the file. -/
def afterChunk (iso : IsoFile) (left : Nat) (s : Session) : Session :=
  { s with
    isoFile := some { iso with pos := iso.pos + (s.chunkData iso).length }
    remainingReadBytes := left }

/-- The end of a chunk: the timer is armed again, or the read is over. -/
def rearm (s : Session) : Session :=
  if s.remainingReadBytes > 0 then { s with chunkTimers := s.chunkTimers + 1 }
  else { s with scsiReadInFlight := false }

theorem rearm_out (s : Session) : s.rearm.out = s.out := by
  rw [rearm]
  split <;> rfl

theorem rearm_last {s : Session} (h : s.remainingReadBytes = 0) :
    s.rearm = { s with scsiReadInFlight := false } :=
  if_neg (by omega)

theorem rearm_next {s : Session} (h : 0 < s.remainingReadBytes) :
    s.rearm = { s with chunkTimers := s.chunkTimers + 1 } :=
  if_pos h

/-- A file shorter than it was when the read was taken on. -/
theorem sendNextScsiChunk_short (env : Env) {s : Session} {iso : IsoFile}
    (hiso : s.isoFile = some iso) (hleft : s.remainingReadBytes ≠ 0)
    (hlen : (s.chunkData iso).length ≠ s.chunkWant) :
    s.sendNextScsiChunk env =
      { (s.afterChunk iso s.remainingReadBytes).sendError env s.chunkDev
          kSenseIllegalRequest 0x21 0x00 with
        remainingReadBytes := 0
        scsiReadInFlight := false } := by
  rw [sendNextScsiChunk, hiso]
  simp only []
  rw [if_neg hleft]
  exact if_pos hlen

theorem sendNextScsiChunk_full (env : Env) {s : Session} {iso : IsoFile}
    (hiso : s.isoFile = some iso) (hleft : s.remainingReadBytes ≠ 0)
    (hlen : (s.chunkData iso).length = s.chunkWant) :
    s.sendNextScsiChunk env =
      ((s.afterChunk iso (s.remainingReadBytes - s.chunkWant)).sendData env
        s.chunkDev (s.remainingReadBytes - s.chunkWant == 0)
        (s.chunkData iso) (feature s.chunkFeature)).rearm := by
  rw [sendNextScsiChunk, hiso]
  simp only []
  rw [if_neg hleft]
  exact if_neg (not_not_intro hlen)

/-- The session with one timer taken off the queue. -/
def fired (s : Session) : Session := { s with chunkTimers := s.chunkTimers - 1 }

/-- What a tick may do: nothing, end a read that has no file or no bytes left,
complain that the file is short, or send a chunk. -/
inductive Ticks (env : Env) (s : Session) : Session → Prop
  | idle (htime : s.chunkTimers = 0) : Ticks env s s
  | ended (htime : s.chunkTimers ≠ 0)
      (h : s.isoFile = none ∨ s.remainingReadBytes = 0) :
      Ticks env s { s.fired with scsiReadInFlight := false }
  | short (htime : s.chunkTimers ≠ 0) {iso : IsoFile}
      (hiso : s.isoFile = some iso) (hleft : s.remainingReadBytes ≠ 0) :
      Ticks env s
        { (s.fired.afterChunk iso s.remainingReadBytes).sendError env
            s.chunkDev kSenseIllegalRequest 0x21 0x00 with
          remainingReadBytes := 0
          scsiReadInFlight := false }
  | chunk (htime : s.chunkTimers ≠ 0) {iso : IsoFile}
      (hiso : s.isoFile = some iso) (hleft : s.remainingReadBytes ≠ 0) :
      Ticks env s
        ((s.fired.afterChunk iso (s.remainingReadBytes - s.chunkWant)).sendData
          env s.chunkDev (s.remainingReadBytes - s.chunkWant == 0)
          (s.chunkData iso) (feature s.chunkFeature)).rearm

theorem tick_cases (env : Env) (s : Session) : Ticks env s (s.tick env) := by
  rw [tick]
  split
  next htime => exact .idle htime
  next htime =>
    change Ticks env s (s.fired.sendNextScsiChunk env)
    by_cases hover : s.isoFile = none ∨ s.remainingReadBytes = 0
    · have hend : s.fired.sendNextScsiChunk env =
          { s.fired with scsiReadInFlight := false } := by
        rw [sendNextScsiChunk]
        split
        · rfl
        next iso hiso =>
          rcases hover with hnone | hzero
          · cases hiso.symm.trans hnone
          · exact if_pos hzero
      rw [hend]
      exact .ended htime hover
    · rw [not_or] at hover
      obtain ⟨iso, hiso⟩ := Option.ne_none_iff_exists'.mp hover.1
      by_cases hlen : (s.fired.chunkData iso).length = s.fired.chunkWant
      · rw [sendNextScsiChunk_full env (s := s.fired) hiso hover.2 hlen]
        exact .chunk htime hiso hover.2
      · rw [sendNextScsiChunk_short env (s := s.fired) hiso hover.2 hlen]
        exact .short htime hiso hover.2

end Session

end QuMesh.Ider
