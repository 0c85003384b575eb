import QuMesh.Lib.Framing
import QuMesh.Proofs.IderInbox

/-!
# The frames of the stream

What the target sends is a stream of frames, whose lengths are settled by the
first byte and, for the reply to an open, by the byte that counts its OEM data.
`Wire` is such a frame as bytes, read here by position and not through the
parsers, so that the number of commands in a stream is a fact about what was
fed in. `Framed` ties the two together: as long as the session has not failed,
the bytes that have come in are whole frames with the inbox behind them, and
the commands in the history are the ones these frames carry. No frame begins
another, so the frames are those of the sender, however the stream was cut.
-/

namespace QuMesh.Ider

open QuMesh.Lib

/-- A frame of the target. -/
@[ext]
structure Wire where
  bytes : Bytes
  whole : frameLength bytes = some bytes.length

/-- The device of the command at the front of the bytes, if there is one. -/
def commandAt (bytes : Bytes) : Option UInt8 :=
  if bytes.headD 0 = 0x50 then
    some (if bytes.getD 14 0 &&& 0x10 ≠ 0 then 0xB0 else 0xA0)
  else none

def Wire.command? (w : Wire) : Option UInt8 := commandAt w.bytes

/-- The bytes that came in, in the order in which they did. -/
def fed (es : List Event) : Bytes :=
  es.flatMap fun
    | .rawBytes chunk => chunk
    | _ => []

theorem fed_append (es es' : List Event) : fed (es ++ es') = fed es ++ fed es' :=
  List.flatMap_append

/-! ## The parsers read frames -/

namespace Wire

theorem ne_nil (w : Wire) : w.bytes ≠ [] := by
  intro hnil
  have hwhole := w.whole
  rw [hnil] at hwhole
  cases hwhole

theorem headD_append (w : Wire) (more : Bytes) :
    (w.bytes ++ more).headD 0 = w.bytes.headD 0 := by
  obtain ⟨b, rest, hcons⟩ := List.exists_cons_of_ne_nil w.ne_nil
  rw [hcons]
  rfl

/-- Bytes behind a frame do not change it. -/
theorem frameLength_append (w : Wire) (more : Bytes) :
    frameLength (w.bytes ++ more) = some w.bytes.length := by
  have hwhole := w.whole
  unfold frameLength frameLengthOf at hwhole ⊢
  rw [w.headD_append]
  split at hwhole
  · have hlen := Option.some.inj hwhole
    rw [byteAt_append (by omega)]
    exact hwhole
  all_goals exact hwhole

theorem commandAt_append (w : Wire) (more : Bytes) :
    commandAt (w.bytes ++ more) = w.command? := by
  rw [command?, commandAt, commandAt, w.headD_append]
  split
  next htag =>
    have hlen : 28 = w.bytes.length := by
      have hwhole := w.whole
      rw [frameLength, htag] at hwhole
      exact Option.some.inj hwhole
    rw [List.getD_append _ _ _ _ (by omega)]
  · rfl

/-- No frame begins another. -/
theorem prefixFree : PrefixFree Wire.bytes := by
  intro v w s t h
  have hlen := v.frameLength_append s
  rw [h, w.frameLength_append t] at hlen
  exact Wire.ext (List.append_inj_left h (Option.some.inj hlen).symm)

end Wire

/-- The bytes of a frame are one. -/
theorem frameLength_take {bytes : Bytes} {n : Nat}
    (h : frameLength bytes = some n) : frameLength (bytes.take n) = some n := by
  have hpos := frameLength_pos h
  have hhead : (bytes.take n).headD 0 = bytes.headD 0 := by
    rw [List.headD_eq_head?_getD, List.headD_eq_head?_getD,
      List.head?_take, if_neg (by omega)]
  unfold frameLength frameLengthOf at h ⊢
  rw [hhead]
  split at h
  · have hlen := Option.some.inj h
    rw [byteAt_take (by omega)]
    exact h
  all_goals exact h

namespace Session

theorem tryParseFixed_whole {inbox : Bytes} {tag : UInt8} {size : Nat}
    (htag : inbox.headD 0 = tag) (hn : size ≤ inbox.length) :
    tryParseFixed inbox tag size = some size := by
  rw [tryParseFixed, if_neg (by omega), peekTag, htag]
  exact if_neg fun hne => hne rfl

theorem tryParseStatusData_whole {inbox : Bytes} (htag : inbox.headD 0 = 0x49)
    (hn : 13 ≤ inbox.length) :
    ∃ data, tryParseStatusData inbox = some (data, 13) := by
  rw [tryParseStatusData, if_neg (by omega), peekTag, htag,
    if_neg (fun hne => hne rfl)]
  exact ⟨_, rfl⟩

theorem tryParseOpenSessionReply_whole {inbox : Bytes}
    (htag : inbox.headD 0 = 0x41)
    (hn : 30 + byteAt inbox 29 ≤ inbox.length) :
    ∃ info, tryParseOpenSessionReply inbox =
      some (info, 30 + byteAt inbox 29) := by
  rw [tryParseOpenSessionReply, if_neg (by omega), peekTag, htag,
    if_neg (fun hne => hne rfl)]
  dsimp only
  rw [if_neg (by omega)]
  exact ⟨_, rfl⟩

/-- A command carries the device of its flags. -/
theorem tryParseCommandWritten_whole {inbox : Bytes}
    (htag : inbox.headD 0 = 0x50) (hn : 28 ≤ inbox.length) :
    ∃ cmd, tryParseCommandWritten inbox = some (cmd, 28) ∧
      some (device cmd) = commandAt inbox := by
  rw [tryParseCommandWritten, if_neg (by omega), peekTag, htag,
    if_neg (fun hne => hne rfl), commandAt, htag]
  exact ⟨_, rfl, rfl⟩

/-- A frame that is all there is taken, as the command it is or as none. -/
theorem nextFrame_whole {inbox : Bytes} {n : Nat}
    (h : frameLength inbox = some n) (hn : n ≤ inbox.length) :
    ∃ frame, nextFrame inbox = some (frame, n) ∧
      (Effect.received frame).command? = commandAt inbox := by
  have hquiet {tag : UInt8} (htag : inbox.headD 0 = tag) (hne : tag ≠ 0x50) :
      none = commandAt inbox := by
    rw [commandAt, htag, if_neg hne]
  have hfixed {tag : UInt8} (htag : inbox.headD 0 = tag) (frame : Inbound) :
      (tryParseFixed inbox tag n).map (frame, ·) = some (frame, n) := by
    rw [tryParseFixed_whole htag hn]
    rfl
  unfold frameLength frameLengthOf at h
  rw [nextFrame, peekTag]
  -- the tags in the order of the table
  split at h <;> cases h
  next htag =>
    obtain ⟨info, hparse⟩ := tryParseOpenSessionReply_whole htag hn
    rw [htag]
    refine ⟨.openSessionReply info, ?_, hquiet htag (by decide)⟩
    exact congrArg (Option.map fun x => (Inbound.openSessionReply x.1, x.2))
      hparse
  next htag =>
    rw [htag]
    exact ⟨.close, hfixed htag _, hquiet htag (by decide)⟩
  next htag =>
    rw [htag]
    exact ⟨.keepAlivePing, hfixed htag _, hquiet htag (by decide)⟩
  next htag =>
    rw [htag]
    exact ⟨.keepAlivePong, hfixed htag _, hquiet htag (by decide)⟩
  next htag =>
    rw [htag]
    exact ⟨.resetOccurred, hfixed htag _, hquiet htag (by decide)⟩
  next htag =>
    obtain ⟨data, hparse⟩ := tryParseStatusData_whole htag hn
    rw [htag]
    refine ⟨.statusData data, ?_, hquiet htag (by decide)⟩
    exact congrArg (Option.map fun x => (Inbound.statusData x.1, x.2)) hparse
  next htag =>
    rw [htag]
    exact ⟨.errorOccurred, hfixed htag _, hquiet htag (by decide)⟩
  next htag =>
    rw [htag]
    exact ⟨.heartbeat, hfixed htag _, hquiet htag (by decide)⟩
  next htag =>
    obtain ⟨cmd, hparse, hdev⟩ := tryParseCommandWritten_whole htag hn
    rw [htag]
    refine ⟨.commandWritten cmd, ?_, hdev⟩
    exact congrArg (Option.map fun x => (Inbound.commandWritten x.1, x.2))
      hparse

/-- A round that goes on took the frame in front, and its command. -/
theorem nextFrame_wire {inbox : Bytes} {frame : Inbound} {n : Nat}
    (h : nextFrame inbox = some (frame, n)) (hgo : frame.goesOn = true) :
    ∃ w : Wire, inbox = w.bytes ++ inbox.drop n ∧
      (Effect.received frame).command? = w.command? := by
  obtain ⟨hlength, hle⟩ := nextFrame_framed h hgo
  obtain ⟨frame', hnext, hcommand⟩ := nextFrame_whole hlength hle
  rw [h] at hnext
  cases hnext
  have hwhole : frameLength (inbox.take n) = some (inbox.take n).length := by
    rw [List.length_take, Nat.min_eq_left hle]
    exact frameLength_take hlength
  have hsplit : inbox = inbox.take n ++ inbox.drop n :=
    (List.take_append_drop n inbox).symm
  refine ⟨⟨inbox.take n, hwhole⟩, hsplit, ?_⟩
  rw [hcommand]
  exact (congrArg commandAt hsplit).trans
    (Wire.commandAt_append ⟨inbox.take n, hwhole⟩ _)

/-- A frame in front is taken. -/
theorem unframed_of_wait {inbox : Bytes} (h : nextFrame inbox = none) :
    Unframed Wire.bytes inbox := by
  intro w more hw
  have hlength : frameLength inbox = some w.bytes.length := by
    rw [hw]
    exact w.frameLength_append more
  obtain ⟨frame, hnext, -⟩ := nextFrame_whole hlength (by
    rw [hw, List.length_append]
    omega)
  rw [h] at hnext
  cases hnext

theorem unframed_nil : Unframed Wire.bytes [] := by
  intro w more hw
  exact w.ne_nil (List.append_eq_nil_iff.mp hw.symm).1

/-! ## What a round takes -/

/-- The commands of a step that did not fail. -/
theorem Does.commands {got done : List UInt8} {s d : Session}
    (h : Does got done s d) (hh : Healthy d.out) :
    Ider.commands d.out = Ider.commands s.out ++ got := by
  obtain ⟨-, new, hout, hnew⟩ := h
  rw [hout] at hh ⊢
  rw [commands_append, (hnew hh.right).1]

/-- A frame adds the command it is. -/
theorem handleFrame_commands (env : Env) {frame : Inbound} (s : Session)
    (hcdb : ∀ cmd, frame = .commandWritten cmd → cmd.cdb ≠ [])
    (hh : Healthy (s.handleFrame env frame).1.out) :
    commands (s.handleFrame env frame).1.out =
      commands s.out ++ (Effect.received frame).command?.toList := by
  by_cases hread : frame.isRead = true
  · cases frame with
    | commandWritten cmd =>
        have hgot : Does [device cmd] [] s
            (s.emit (.received (.commandWritten cmd))) := Does.emit s rfl
        obtain ⟨isRead10, hscsi⟩ :=
          handleScsi_read env (s.emit (.received (.commandWritten cmd))) hread
        change Healthy ((s.emit (.received (.commandWritten cmd))).handleScsi
          env cmd).out at hh
        change commands ((s.emit (.received (.commandWritten cmd))).handleScsi
          env cmd).out = _
        rw [hscsi] at hh ⊢
        rcases scsiRead_cases env cmd.cdb (device cmd) cmd.featureRegister
            isRead10 (s.emit (.received (.commandWritten cmd))) with
          hd | ⟨reason, heq⟩ | ⟨iso, lba, len, -, -, -, heq⟩
        · exact (hgot.trans hd.does).commands hh
        · rw [heq] at hh ⊢
          exact (hgot.trans (Does.fail [] [] reason _)).commands hh
        · -- a read that is taken on leaves the history as it is
          rw [heq] at hh ⊢
          exact hgot.commands hh
    | _ => cases hread
  · exact (handleFrame_other env s hcdb (eq_false_of_ne_true hread)).commands hh

theorem fail_unhealthy (reason : String) (s : Session) :
    ¬Healthy (s.fail reason).out := by
  obtain ⟨new, hout, hnew⟩ := fail_out reason s
  rw [hout]
  exact fun h => hnew h.right

/-- The loop stops after a frame only where the frame fails the session. -/
theorem goesOn_of_healthy (env : Env) {frame : Inbound} {s : Session}
    (hh : Healthy (s.handleFrame env frame).1.out) : frame.goesOn = true := by
  cases frame with
  | close => exact absurd hh (fail_unhealthy _ _)
  | unknown tag => exact absurd hh (fail_unhealthy _ _)
  | _ => rfl

/-- From `s` to `d` these frames were taken off the inbox, and their commands
went into the history. -/
structure Takes (ws : List Wire) (s d : Session) : Prop where
  inbox : s.inbox = ws.flatMap Wire.bytes ++ d.inbox
  commands : commands d.out = commands s.out ++ ws.filterMap Wire.command?

namespace Takes

theorem nothing {s d : Session} (hinbox : d.inbox = s.inbox)
    (hout : Ider.commands d.out = Ider.commands s.out) : Takes [] s d :=
  ⟨hinbox.symm, hout.trans (List.append_nil _).symm⟩

theorem trans {vs ws : List Wire} {s t d : Session} (h : Takes vs s t)
    (g : Takes ws t d) : Takes (vs ++ ws) s d := by
  constructor
  · rw [h.inbox, g.inbox, List.flatMap_append, List.append_assoc]
  · rw [g.commands, h.commands, List.filterMap_append, List.append_assoc]

/-- A step that takes no command and leaves the inbox alone. -/
theorem of_does {done : List UInt8} {s d : Session} (h : Does [] done s d)
    (hinbox : d.inbox = s.inbox) (hh : Healthy d.out) : Takes [] s d :=
  nothing hinbox ((h.commands hh).trans (List.append_nil _))

end Takes

/-- A round that did not fail waits for more, or takes a frame. -/
theorem drainStep_takes (env : Env) {s : Session}
    (hh : Healthy (s.drainStep env).1.out) :
    (nextFrame s.inbox = none ∧ s.drainStep env = (s, false)) ∨
      ∃ d w, s.drainStep env = (d, true) ∧ Takes [w] s d := by
  rw [drainStep] at hh ⊢
  split at hh
  next hnext => exact .inl ⟨hnext, rfl⟩
  next frame n hnext =>
    have hgo := goesOn_of_healthy env hh
    obtain ⟨w, hsplit, hcommand⟩ := nextFrame_wire hnext hgo
    have hcdb : ∀ cmd, frame = .commandWritten cmd → cmd.cdb ≠ [] := by
      intro cmd hcmd hnil
      rw [hcmd] at hnext
      have hlen := nextFrame_cdb hnext
      rw [hnil] at hlen
      cases hlen
    refine .inr ⟨_, w, Prod.ext rfl ((handleFrame_goesOn _ _ _).trans hgo),
      ⟨?_, ?_⟩⟩
    · rw [handleFrame_inbox, List.flatMap_singleton]
      exact hsplit
    · have hone : [w].filterMap Wire.command? = w.command?.toList := by
        cases hw : w.command? <;> simp [hw]
      rw [handleFrame_commands env _ hcdb hh, hcommand, hone]

/-- The loop takes the whole frames that are in front. -/
theorem drainLoop_takes (env : Env) (fuel : Nat) {s : Session}
    (hfuel : s.inbox.length ≤ fuel) (hh : Healthy (s.drainLoop env fuel).out) :
    ∃ ws, Takes ws s (s.drainLoop env fuel) ∧
      Unframed Wire.bytes (s.drainLoop env fuel).inbox := by
  induction fuel generalizing s with
  | zero =>
      refine ⟨[], .nothing rfl rfl, ?_⟩
      rw [drainLoop, List.length_eq_zero_iff.mp (Nat.le_zero.mp hfuel)]
      exact unframed_nil
  | succ fuel ih =>
      rw [drainLoop] at hh ⊢
      split
      next hempty =>
        refine ⟨[], .nothing rfl rfl, ?_⟩
        rw [List.isEmpty_iff.mp hempty]
        exact unframed_nil
      next hbusy =>
        rw [if_neg hbusy] at hh
        have hround : Healthy (s.drainStep env).1.out := by
          split at hh
          next d hd =>
            obtain ⟨new, hout⟩ := Grows.drainLoop env fuel d
            rw [hout] at hh
            rw [hd]
            exact hh.left
          next d hd =>
            rw [hd]
            exact hh
        rcases drainStep_takes env hround with ⟨hwait, hd⟩ | ⟨d, w, hd, htake⟩
        · rw [hd]
          exact ⟨[], .nothing rfl rfl, unframed_of_wait hwait⟩
        · rw [hd] at hh ⊢
          have hless := drainStep_shrinks hd
          obtain ⟨ws, hws, hrest⟩ := ih (by omega) hh
          exact ⟨w :: ws, htake.trans hws, hrest⟩

/-! ## Every run -/

theorem tick_takes (env : Env) {s : Session} (hh : Healthy (s.tick env).out) :
    Takes [] s (s.tick env) := by
  have hcase := tick_cases env s
  generalize s.tick env = d at hcase hh
  cases hcase with
  | idle htime => exact .nothing rfl rfl
  | ended htime h => exact .nothing rfl rfl
  | @short htime iso hiso hleft =>
      have hdoes := Does.sendError env s.chunkDev kSenseIllegalRequest 0x21 0x00
        (s.fired.afterChunk iso s.remainingReadBytes)
      exact .nothing (writeNumbered_inbox env _ _)
        ((hdoes.commands hh).trans (List.append_nil _))
  | @chunk htime iso hiso hleft =>
      have hdoes := Does.sendChunk env s.chunkDev
        (s.remainingReadBytes - s.chunkWant == 0) (s.chunkData iso)
        (feature s.chunkFeature)
        (s.fired.afterChunk iso (s.remainingReadBytes - s.chunkWant))
      have hinbox (t : Session) : t.rearm.inbox = t.inbox := by
        rw [rearm]
        split <;> rfl
      rw [rearm_out] at hh
      refine .nothing ((hinbox _).trans (writeNumbered_inbox env _ _)) ?_
      rw [rearm_out]
      exact (hdoes.commands hh).trans (List.append_nil _)

theorem start_takes (env : Env) (authenticated : Bool) {s : Session}
    (hh : Healthy (s.start env authenticated).out) :
    Takes [] s (s.start env authenticated) := by
  have hopening (t : Session) (ht : Takes [] s t)
      (hh : Healthy (t.writeNumbered env fun n => .openSession n kRxTimeoutMs
        kTxTimeoutMs kHeartbeatMs kProtocolVersion).out) :
      Takes [] s (t.writeNumbered env fun n => .openSession n kRxTimeoutMs
        kTxTimeoutMs kHeartbeatMs kProtocolVersion) :=
    ht.trans (.of_does (Does.writeNumbered env _ t fun _ => rfl)
      (writeNumbered_inbox env _ t) hh)
  have hstarted : Takes [] s (s.emit .started) :=
    .nothing rfl ((commands_append _ _).trans (List.append_nil _))
  rw [start] at hh ⊢
  dsimp only at hh ⊢
  split
  next hauth =>
    rw [if_pos hauth] at hh
    exact absurd hh (fail_unhealthy _ _)
  next hauth =>
    rw [if_neg hauth] at hh
    split
    next hpath =>
      rw [if_pos hpath] at hh
      exact hopening _ hstarted hh
    next hpath =>
      rw [if_neg hpath] at hh
      split at hh
      · exact absurd hh (fail_unhealthy _ _)
      next contents hfile =>
        exact hopening _ ⟨hstarted.inbox, hstarted.commands⟩ hh

/-- What has come in is whole frames with the inbox behind them, and the
commands are theirs. -/
def Framed (all : Bytes) (s : Session) : Prop :=
  ∃ ws : List Wire, all = ws.flatMap Wire.bytes ++ s.inbox ∧
    commands s.out = ws.filterMap Wire.command? ∧ Unframed Wire.bytes s.inbox

theorem Framed.takes {all : Bytes} {ws : List Wire} {s d : Session}
    (h : Framed all s) {chunk : Bytes} (htake : Takes ws (s.taken chunk) d)
    (hrest : Unframed Wire.bytes d.inbox) : Framed (all ++ chunk) d := by
  obtain ⟨vs, hall, hcommands, -⟩ := h
  refine ⟨vs ++ ws, ?_, ?_, hrest⟩
  · have hin : s.inbox ++ chunk = ws.flatMap Wire.bytes ++ d.inbox :=
      htake.inbox
    rw [hall, List.flatMap_append, List.append_assoc, List.append_assoc, hin]
  · rw [htake.commands, List.filterMap_append, ← hcommands]
    rfl

theorem Framed.onRawBytes (env : Env) (chunk : Bytes) {all : Bytes}
    {s : Session} (h : Framed all s)
    (hh : Healthy (s.onRawBytes env chunk).out) :
    Framed (all ++ chunk) (s.onRawBytes env chunk) := by
  rw [onRawBytes_eq] at hh ⊢
  have hdrain : Healthy ((s.taken chunk).drainInbox env).out := hh.left
  obtain ⟨ws, htake, hrest⟩ := drainLoop_takes env _ (Nat.le_refl _) hdrain
  refine h.takes (?_ : Takes ws (s.taken chunk) _) hrest
  refine ⟨htake.inbox, (commands_append _ _).trans ?_⟩
  exact (List.append_nil _).trans htake.commands

/-- Every event puts what it brings behind what there was. -/
theorem Framed.handle (env : Env) {all : Bytes} {s : Session} (h : Framed all s)
    (e : Event) (hh : Healthy (s.handle env e).out) :
    Framed (all ++ fed [e]) (s.handle env e) := by
  have hquiet {d : Session} (htake : Takes [] s d) : Framed (all ++ []) d := by
    have hin : s.inbox = d.inbox := htake.inbox
    obtain ⟨ws, hall, hcommands, hrest⟩ := h
    rw [hin] at hall hrest
    refine ⟨ws, (List.append_nil _).trans hall, ?_, hrest⟩
    rw [htake.commands, hcommands]
    exact List.append_nil _
  cases e with
  | setIsoPath path => exact hquiet (.nothing rfl rfl)
  | setStartOption option => exact hquiet (.nothing rfl rfl)
  | start authenticated => exact hquiet (start_takes env authenticated hh)
  | rawBytes chunk =>
      have hfed : fed [.rawBytes chunk] = chunk := List.append_nil chunk
      rw [hfed]
      exact h.onRawBytes env chunk hh
  | clientFailed reason => exact absurd hh (fail_unhealthy reason s)
  | chunkTimer => exact hquiet (tick_takes env hh)

theorem run_framed (env : Env) {s : Session} (hinbox : s.inbox = [])
    (hout : s.out = []) (es : List Event)
    (hh : Healthy (run (Session.handle env) s es).out) :
    Framed (fed es) (run (Session.handle env) s es) := by
  have hkeeps (past : List (Session × Event)) (d : Session) (e : Event)
      (h : Healthy d.out → Framed (fed (past.map Prod.snd)) d)
      (hd : Healthy (d.handle env e).out) :
      Framed (fed ((past ++ [(d, e)]).map Prod.snd)) (d.handle env e) := by
    obtain ⟨new, hnew⟩ := Grows.handle env d e
    have hearly : Healthy d.out := by
      rw [hnew] at hd
      exact hd.left
    rw [List.map_append, fed_append]
    exact (h hearly).handle env e hd
  have hstart : Framed (fed []) s := by
    refine ⟨[], hinbox.symm, ?_, ?_⟩
    · rw [hout]
      rfl
    · rw [hinbox]
      exact unframed_nil
  have hend := history
    (fun past d => Healthy d.out → Framed (fed (past.map Prod.snd)) d)
    hkeeps es (fun _ => hstart) hh
  rw [trail_events] at hend
  exact hend

/-- The commands in the history are those of the frames that were sent. -/
theorem commands_of_stream (env : Env) {s : Session} (hinbox : s.inbox = [])
    (hout : s.out = []) {es : List Event} {sent : List Wire} {rest : Bytes}
    (hfed : fed es = sent.flatMap Wire.bytes ++ rest)
    (hrest : Unframed Wire.bytes rest)
    (hh : Healthy (run (Session.handle env) s es).out) :
    commands (run (Session.handle env) s es).out =
      sent.filterMap Wire.command? := by
  obtain ⟨ws, hall, hcommands, hin⟩ := run_framed env hinbox hout es hh
  rw [hfed] at hall
  obtain ⟨rfl, -⟩ := frames_unique Wire.prefixFree hrest hin hall
  exact hcommands

end Session

end QuMesh.Ider
