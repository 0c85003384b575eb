import QuMesh.Proofs.IderStream

/-!
# Every command is completed once

The target's IDE controller waits for each command it wrote, and two answers
to one command are as bad as none. `Balanced` is the tally: what has been
completed, and the read that is still to be, are the commands that came in,
device by device. A read that is under way has exactly one chunk timer to
carry it on and bytes left to send; an idle session has no timer. An open file
is the image whose size is known, and no chunk is larger than AMT's buffers.

A session that has failed owes nothing, so the tally is kept only as long as
there is no `closed` in the history. The history never shrinks, so a run that
ends without one went without one all along.

The tally is of the history. That the commands in it are the ones the target
sent is what `IderStream` says of the bytes that came in, and that the answers
in it are answers on the wire is `answerAt_bytes`.
-/

namespace QuMesh.Ider

open QuMesh.Lib

namespace Session

/-- The read whose last chunk is still to come. -/
def pending (s : Session) : List UInt8 :=
  if s.scsiReadInFlight then [s.chunkDev] else []

structure Balanced (s : Session) : Prop where
  tally : (completions s.out ++ s.pending).Perm (commands s.out)
  busy : s.scsiReadInFlight = true →
    s.chunkTimers = 1 ∧ s.isoFile.isSome = true ∧ 0 < s.remainingReadBytes
  idle : s.scsiReadInFlight = false → s.chunkTimers = 0
  image : ∀ iso, s.isoFile = some iso → s.isoSize = iso.contents.length
  negotiated : s.Negotiated

/-- The tally is right unless the session failed. -/
def Sound (s : Session) : Prop := Healthy s.out → s.Balanced

theorem pending_reading {s d : Session} (h : d.reading = s.reading) :
    d.pending = s.pending := by
  have hf : d.scsiReadInFlight = s.scsiReadInFlight :=
    congrArg Reading.inFlight h
  have hd : d.chunkDev = s.chunkDev := congrArg Reading.dev h
  rw [pending, pending, hf, hd]

/-- A step that completes what it takes. -/
theorem Sound.does {got done : List UInt8} {s d : Session} (h : s.Sound)
    (hd : Does got done s d) (hsame : done.Perm got) : d.Sound := by
  intro hh
  obtain ⟨hneg, new, hout, hnew⟩ := hd
  rw [hout] at hh
  obtain ⟨hgot, hdone, hread⟩ := hnew hh.right
  have hs := h hh.left
  refine ⟨?_, ?_, ?_, fun iso hiso => ?_, hneg hs.negotiated⟩
  · rw [hout, completions_append, commands_append, hgot, hdone,
      pending_reading hread, List.append_assoc]
    have hswap : (done ++ s.pending).Perm (s.pending ++ done) :=
      List.perm_append_comm
    refine (hswap.append_left _).trans ?_
    rw [← List.append_assoc]
    exact hs.tally.append hsame
  · intro hf
    have hf' : s.scsiReadInFlight = true :=
      (congrArg Reading.inFlight hread).symm.trans hf
    obtain ⟨ht, hi, hr⟩ := hs.busy hf'
    refine ⟨(congrArg Reading.timers hread).trans ht, ?_, ?_⟩
    · have hiso : d.isoFile = s.isoFile := congrArg Reading.isoFile hread
      rw [hiso]
      exact hi
    · have hrem : d.remainingReadBytes = s.remainingReadBytes :=
        congrArg Reading.remaining hread
      rw [hrem]
      exact hr
  · intro hf
    have hf' : s.scsiReadInFlight = false :=
      (congrArg Reading.inFlight hread).symm.trans hf
    exact (congrArg Reading.timers hread).trans (hs.idle hf')
  · have hsize : d.isoSize = s.isoSize := congrArg Reading.isoSize hread
    rw [hsize]
    exact hs.image iso ((congrArg Reading.isoFile hread).symm.trans hiso)

/-- A read that is taken on is owed. -/
theorem Sound.beginRead {s : Session} (h : s.Sound) {cmd : ScsiCommand}
    {iso : IsoFile} {lba len : Nat} {fr : UInt8} (hiso : s.isoFile = some iso)
    (hlen : 0 < len) (hidle : s.scsiReadInFlight = false) :
    ((s.emit (.received (.commandWritten cmd))).beginRead iso lba len
      (device cmd) fr).Sound := by
  intro hh
  have hs := h (Healthy.left hh)
  have hnone : s.pending = [] := by
    rw [pending, hidle]
    rfl
  have htally := hs.tally
  rw [hnone, List.append_nil] at htally
  refine ⟨?_, fun _ => ⟨?_, rfl, ?_⟩, fun hf => Bool.noConfusion hf,
    fun iso' hiso' => ?_, hs.negotiated⟩
  · change (completions (s.out ++ [.received (.commandWritten cmd)]) ++
      [device cmd]).Perm (commands (s.out ++ [.received (.commandWritten cmd)]))
    have hquiet : completions [.received (.commandWritten cmd)] = [] := rfl
    rw [completions_append, commands_append, hquiet, List.append_nil]
    exact htally.append (.refl _)
  · change s.chunkTimers + 1 = 1
    rw [hs.idle hidle]
  · change 0 < len * 2 ^ 11
    exact Nat.mul_pos hlen (by decide)
  · cases hiso'
    exact hs.image iso hiso

/-- A frame off the inbox. -/
theorem Sound.handleFrame (env : Env) {s : Session} (h : s.Sound)
    {frame : Inbound}
    (hcdb : ∀ cmd, frame = .commandWritten cmd → cmd.cdb ≠ []) :
    (s.handleFrame env frame).1.Sound := by
  by_cases hread : frame.isRead = true
  · cases frame with
    | commandWritten cmd =>
        obtain ⟨isRead10, hscsi⟩ :=
          handleScsi_read env (s.emit (.received (.commandWritten cmd))) hread
        have hgot : Does [device cmd] [] s
            (s.emit (.received (.commandWritten cmd))) := Does.emit s rfl
        change ((s.emit (.received (.commandWritten cmd))).handleScsi env
          cmd).Sound
        rw [hscsi]
        rcases scsiRead_cases env cmd.cdb (device cmd) cmd.featureRegister
            isRead10 (s.emit (.received (.commandWritten cmd))) with
          hd | ⟨reason, heq⟩ | ⟨iso, lba, len, hiso, hlen, hidle, heq⟩
        · exact h.does (hgot.trans hd.does) (.refl _)
        · rw [heq]
          exact h.does (hgot.trans (Does.fail [] [device cmd] reason _)) (.refl _)
        · rw [heq]
          exact h.beginRead hiso hlen hidle
    | _ => cases hread
  · exact h.does (handleFrame_other env s hcdb (eq_false_of_ne_true hread))
      (.refl _)

theorem Sound.drainStep (env : Env) {s : Session} (h : s.Sound) :
    (s.drainStep env).1.Sound := by
  rw [Session.drainStep]
  split
  · exact h
  next frame n hnext =>
    have hsame : Sound { s with inbox := s.inbox.drop n } :=
      h.does (Does.nothing rfl rfl id) (.refl _)
    refine hsame.handleFrame env fun cmd hcmd hnil => ?_
    rw [hcmd] at hnext
    have := nextFrame_cdb hnext
    rw [hnil] at this
    cases this

theorem Sound.drainLoop (env : Env) (fuel : Nat) {s : Session} (h : s.Sound) :
    (s.drainLoop env fuel).Sound := by
  rw [drainLoop_rounds]
  exact rounds_invariant (fun _ h => Sound.drainStep env h) fuel h

theorem Sound.onRawBytes (env : Env) (chunk : Bytes) {s : Session}
    (h : s.Sound) : (s.onRawBytes env chunk).Sound := by
  have hin : Sound { s with
      bytesReceivedFromAmt := s.bytesReceivedFromAmt + chunk.length
      inbox := s.inbox ++ chunk } :=
    h.does (Does.nothing rfl rfl id) (.refl _)
  exact (hin.drainLoop env _).does (Does.emit _ rfl) (.refl _)

/-! ## The chunk timer -/

/-- What is left of a step that ends a read: it completed the command, or it
goes on. -/
theorem Sound.settle {done : List UInt8} {s t d : Session} (hs : s.Balanced)
    (ht : Does [] done t d) (hh : Healthy d.out) (hout : t.out = s.out)
    (hbusy : s.scsiReadInFlight = true) {d' : Session} (hd' : d'.out = d.out)
    (hinfo : d'.info = d.info) (hneg : t.info = s.info)
    (himage : ∀ iso, d'.isoFile = some iso → d'.isoSize = iso.contents.length)
    (hdone : done ++ d'.pending = [s.chunkDev])
    (hcarry : d'.scsiReadInFlight = true →
      d'.chunkTimers = 1 ∧ d'.isoFile.isSome = true ∧
        0 < d'.remainingReadBytes)
    (hrest : d'.scsiReadInFlight = false → d'.chunkTimers = 0) :
    d'.Balanced := by
  obtain ⟨hkeep, new, hnew, hdoes⟩ := ht
  rw [hnew] at hh
  obtain ⟨hgot, hcomp, -⟩ := hdoes hh.right
  refine ⟨?_, hcarry, hrest, himage, ?_⟩
  case refine_2 =>
    rw [Negotiated, hinfo]
    refine hkeep ?_
    rw [Negotiated, hneg]
    exact hs.negotiated
  have htally := hs.tally
  have hpending : s.pending = [s.chunkDev] := by
    rw [pending, hbusy]
    rfl
  rw [hpending] at htally
  rw [hd', hnew, hout, completions_append, commands_append, hgot, hcomp,
    List.append_nil, List.append_assoc, hdone]
  exact htally

/-- A chunk went out with `left` bytes to go. -/
theorem Balanced.rearm {s t d : Session} {left : Nat} (hb : s.Balanced)
    (hbusy : s.scsiReadInFlight = true)
    (hdoes : Does [] (if left == 0 then [s.chunkDev] else []) t d)
    (hh : Healthy d.out) (hout : t.out = s.out)
    (hrem : t.remainingReadBytes = left) (htime : t.chunkTimers = 0)
    (hdev : t.chunkDev = s.chunkDev) (hfly : t.scsiReadInFlight = true)
    (hopen : t.isoFile.isSome = true) (hinfo : t.info = s.info)
    (himage : ∀ iso, t.isoFile = some iso → t.isoSize = iso.contents.length) :
    d.rearm.Balanced := by
  have hread := (hdoes.healthy hh).2
  have hrem' := (congrArg Reading.remaining hread).trans hrem
  have htime' := (congrArg Reading.timers hread).trans htime
  have hdev' := (congrArg Reading.dev hread).trans hdev
  have hfly' := (congrArg Reading.inFlight hread).trans hfly
  have hopen' : d.isoFile.isSome = true :=
    (congrArg Option.isSome (congrArg Reading.isoFile hread)).trans hopen
  have himage' : ∀ iso, d.isoFile = some iso →
      d.isoSize = iso.contents.length := by
    intro iso hiso
    have hsize : d.isoSize = t.isoSize := congrArg Reading.isoSize hread
    rw [hsize]
    exact himage iso ((congrArg Reading.isoFile hread).symm.trans hiso)
  by_cases hend : left = 0
  · rw [rearm_last (hrem'.trans hend)]
    refine Sound.settle hb hdoes hh hout hbusy rfl rfl hinfo himage' ?_
      (fun hf => absurd hf Bool.false_ne_true) fun _ => htime'
    rw [hend]
    rfl
  · rw [rearm_next (Nat.pos_of_ne_zero fun hz => hend (hrem'.symm.trans hz))]
    refine Sound.settle hb hdoes hh hout hbusy rfl rfl hinfo himage' ?_
      (fun _ => ⟨?_, hopen', ?_⟩) fun hf => ?_
    · have hnot : (left == 0) = false := beq_false_of_ne hend
      rw [hnot, pending]
      exact (if_pos hfly').trans (congrArg (· :: []) hdev')
    · exact congrArg (· + 1) htime'
    · exact Nat.pos_of_ne_zero fun hz => hend (hrem'.symm.trans hz)
    · exact Bool.noConfusion (hfly'.symm.trans hf)

theorem Sound.tick (env : Env) {s : Session} (h : s.Sound) :
    (s.tick env).Sound := by
  have hcase := tick_cases env s
  generalize s.tick env = d at hcase
  have hbusy (hb : s.Balanced) (htime : s.chunkTimers ≠ 0) :
      s.scsiReadInFlight = true := by
    cases hf : s.scsiReadInFlight with
    | true => rfl
    | false => exact absurd (hb.idle hf) htime
  have htimers (hb : s.Balanced) (htime : s.chunkTimers ≠ 0) :
      s.chunkTimers - 1 = 0 := by
    have := (hb.busy (hbusy hb htime)).1
    omega
  cases hcase with
  | idle htime => exact h
  | ended htime hover =>
      -- a read that is owed has a file and bytes left
      intro hh
      have hb := h hh
      obtain ⟨-, hopen, hleft⟩ := hb.busy (hbusy hb htime)
      rcases hover with hnone | hzero
      · rw [hnone] at hopen
        cases hopen
      · omega
  | @short htime iso hiso hleft =>
      intro hh
      have hdoes := Does.sendError env s.chunkDev kSenseIllegalRequest 0x21 0x00
        (s.fired.afterChunk iso s.remainingReadBytes)
      obtain ⟨hs, hread⟩ := hdoes.healthy hh
      have hb := h hs
      refine Sound.settle hb hdoes hh rfl (hbusy hb htime) rfl rfl rfl
        (fun iso' hiso' => ?_) rfl
        (fun hf => absurd hf Bool.false_ne_true) fun _ => ?_
      · have hfile := (congrArg Reading.isoFile hread).symm.trans hiso'
        cases hfile
        exact (congrArg Reading.isoSize hread).trans (hb.image iso hiso)
      · exact (congrArg Reading.timers hread).trans (htimers hb htime)
  | @chunk htime iso hiso hleft =>
      intro hh
      rw [rearm_out] at hh
      have hdoes := Does.sendChunk env s.chunkDev
        (s.remainingReadBytes - s.chunkWant == 0) (s.chunkData iso)
        (feature s.chunkFeature)
        (s.fired.afterChunk iso (s.remainingReadBytes - s.chunkWant))
      have hb := h (hdoes.healthy hh).1
      refine Balanced.rearm hb (hbusy hb htime) hdoes hh rfl rfl
        (htimers hb htime) rfl (hbusy hb htime) rfl rfl fun iso' hiso' => ?_
      cases hiso'
      exact hb.image iso hiso

/-! ## Every run -/

/-- Opening the file again leaves a read its place in the tally. -/
theorem Sound.start (env : Env) (authenticated : Bool) {s : Session}
    (h : s.Sound) : (s.start env authenticated).Sound := by
  have hstarted : Sound (s.emit .started) :=
    h.does (Does.emit s rfl) (.refl _)
  have hopening {t : Session} (ht : t.Sound) :
      (t.writeNumbered env fun n => .openSession n kRxTimeoutMs kTxTimeoutMs
        kHeartbeatMs kProtocolVersion).Sound :=
    ht.does (Does.writeNumbered env _ _ fun _ => rfl) (.refl _)
  rw [Session.start]
  simp only []
  split
  · exact hstarted.does (Does.fail [] [] _ _) (.refl _)
  · split
    · exact hopening hstarted
    · split
      · exact hstarted.does (Does.fail [] [] _ _) (.refl _)
      · refine hopening fun hh => ?_
        have hb := hstarted hh
        refine ⟨hb.tally, fun hf => ⟨(hb.busy hf).1, rfl, (hb.busy hf).2.2⟩,
          hb.idle, fun iso hiso => ?_, hb.negotiated⟩
        cases hiso
        rfl

theorem Sound.handle (env : Env) {s : Session} (h : s.Sound) (e : Event) :
    (s.handle env e).Sound := by
  cases e with
  | setIsoPath path => exact h.does (Does.nothing rfl rfl id) (.refl _)
  | setStartOption option => exact h.does (Does.nothing rfl rfl id) (.refl _)
  | start authenticated => exact h.start env authenticated
  | rawBytes chunk => exact h.onRawBytes env chunk
  | clientFailed reason => exact h.does (Does.fail [] [] reason s) (.refl _)
  | chunkTimer => exact h.tick env

end Session

/-! ## The bytes of the answers -/

/-- The device of the command that these bytes complete: a
`CommandEndResponse`, or a `SendDataToHost` with the completed attribute. -/
def answerAt (bytes : Bytes) : Option UInt8 :=
  if bytes.headD 0 = 0x51 then some (bytes.getD 26 0)
  else if bytes.headD 0 = 0x54 ∧ bytes.getD 3 0 &&& 0x02 ≠ 0 then
    some (bytes.getD 18 0)
  else none

/-- What went out, read off its bytes. -/
def Effect.answer? : Effect → Option UInt8
  | .wrote frame result => if 0 < result then answerAt frame.bytes else none
  | _ => none

/-- The answers that went out, by the device they carry. -/
def answers (es : List Effect) : List UInt8 := es.filterMap Effect.answer?

/-- The builders put the device and the attribute where they are read. -/
theorem answerAt_bytes (frame : Frame) : answerAt frame.bytes = frame.completes? := by
  cases frame with
  | commandEndResponse sequence error sense device asc asq =>
      cases error <;> rfl
  | sendDataToHost sequence device completed data dma =>
      cases completed <;> cases dma <;>
        simp [answerAt, Frame.bytes, Frame.completes?, buildSendDataToHost,
          packHeader, pack32Le, pack16Le, CmdSendDataToHost] <;>
        decide
  | _ => rfl

theorem answers_eq (es : List Effect) : answers es = completions es := by
  have hsame : Effect.answer? = Effect.completion? := by
    funext e
    cases e with
    | wrote frame result =>
        rw [Effect.answer?, Effect.completion?, answerAt_bytes]
    | _ => rfl
  rw [answers, completions, hsame]

/-- As long as the session has not failed, and with no read under way, the
answers that went out are the commands of the frames that were sent, device by
device, however their bytes were cut. -/
theorem scsi_completed_once (env : Env) (path : String)
    (option : StartOption) (es : List Event) (sent : List Wire) (rest : Bytes)
    (hfed : fed es = sent.flatMap Wire.bytes ++ rest)
    (hrest : Unframed Wire.bytes rest)
    (hopen : Healthy
      (run (Session.handle env) { isoPath := path, startOption := option }
        es).out)
    (hidle : (run (Session.handle env)
      { isoPath := path, startOption := option } es).scsiReadInFlight = false) :
    (answers (run (Session.handle env)
        { isoPath := path, startOption := option } es).out).Perm
      (sent.filterMap Wire.command?) := by
  have hinit : Session.Sound { isoPath := path, startOption := option } :=
    fun _ => ⟨.refl _, fun hf => Bool.noConfusion hf, fun _ => rfl,
      fun _ hiso => absurd hiso (by simp), Nat.zero_le _⟩
  have hend : Session.Sound (run (Session.handle env)
      { isoPath := path, startOption := option } es) :=
    history (fun _ s => Session.Sound s) (fun _ _ e h => h.handle env e) es hinit
  have htally := (hend hopen).tally
  rw [Session.pending, hidle] at htally
  rw [answers_eq, ← Session.commands_of_stream env rfl rfl hfed hrest hopen]
  simpa using htally

/-- A client that takes every write, and an image of two blocks. -/
def Env.plain : Env where
  writeRaw := fun _ bytes => bytes.length
  lastError := fun _ => ""
  file := fun _ =>
    some (List.replicate (2 ^ 11) 0x41 ++ List.replicate (2 ^ 11) 0x42)
  fileError := fun _ => ""

/-- A `CommandWritten` for the CD-ROM drive. -/
def cdCommand (featureRegister : UInt8) (cdb : Bytes) : Bytes :=
  [0x50, 0, 0, 0, 0, 0, 0, 0, 0, featureRegister, 0, 0, 0, 0, 0x10, 0] ++ cdb

def testUnitReady : Bytes := [0, 0, 0, 0, 0, 0, 0, 0, 0, 0, 0, 0]

/-- READ(10) of both blocks. -/
def readBoth : Bytes := [0x28, 0, 0, 0, 0, 0, 0, 0, 2, 0, 0, 0]

/-- The same, in the frame it comes in. -/
def cdWire (cdb : Bytes) (h : cdb.length = 12) : Wire where
  bytes := cdCommand 0 cdb
  whole := by
    rw [cdCommand, List.length_append, h]
    rfl

/-- A `CommandWritten` for the floppy drive. -/
def floppyWire : Wire where
  bytes := 0x50 :: List.replicate 15 0 ++ testUnitReady
  whole := rfl

def heartbeatWire : Wire where
  bytes := 0x4B :: List.replicate 7 0
  whole := rfl

/-- A read that comes in two chunks, with a command behind it that comes in
before the first block goes out, and the beginning of a heartbeat. -/
def servedRun : List Event :=
  [.start true, .rawBytes ((cdCommand 0 readBoth).take 20),
    .rawBytes ((cdCommand 0 readBoth).drop 20 ++ floppyWire.bytes ++ [0x4B]),
    .chunkTimer]

/-- Both commands came in, one for each device, and both were answered. -/
theorem scsi_completed_once_served :
    (answers (run (Session.handle .plain)
        { isoPath := "cd.iso", startOption := .graceful } servedRun).out).Perm
      [kDeviceCdRom, kDeviceFloppy] :=
  scsi_completed_once .plain "cd.iso" .graceful servedRun
    [cdWire readBoth rfl, floppyWire] [0x4B] (by decide)
    (unframed_part Wire.prefixFree
      (show heartbeatWire.bytes = [0x4B] ++ List.replicate 7 0 from rfl)
      (by decide))
    (by unfold Healthy; decide +kernel) (by decide +kernel)

end QuMesh.Ider
