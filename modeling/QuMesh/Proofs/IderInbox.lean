import QuMesh.Lib.Rounds
import QuMesh.Proofs.ScsiSteps

/-!
# What the drain loop takes

The handlers leave the inbox alone, so which frames a chunk holds is settled
before the first of them is handled, and a round that goes on has taken a whole
frame, as long as its first bytes say. The fuel of the loop is therefore
bookkeeping: any two amounts that cover the inbox give the same state.
-/

namespace QuMesh.Ider

open QuMesh.Lib

namespace Session

theorem fail_inbox (reason : String) (s : Session) :
    (s.fail reason).inbox = s.inbox := by
  rw [fail]
  simp only []
  split <;> rfl

theorem writeNumbered_inbox (env : Env) (frame : Nat → Frame) (s : Session) :
    (s.writeNumbered env frame).inbox = s.inbox := by
  rw [writeNumbered, writeFrame]
  simp only []
  split
  · exact fail_inbox _ _
  · rfl

theorem Answers.inbox {env : Env} {dev : UInt8} {s d : Session}
    (h : Answers env dev s d) : d.inbox = s.inbox := by
  obtain ⟨ready, frame, -, rfl⟩ := h
  exact writeNumbered_inbox env frame _

theorem handleScsi_inbox (env : Env) (cmd : ScsiCommand) (s : Session) :
    (s.handleScsi env cmd).inbox = s.inbox := by
  by_cases hnil : cmd.cdb = []
  · rw [handleScsi, hnil]
  · by_cases hread : isRead cmd = true
    · obtain ⟨isRead10, hscsi⟩ := handleScsi_read env s hread
      rw [hscsi]
      rcases scsiRead_cases env cmd.cdb (device cmd) cmd.featureRegister
          isRead10 s with h | ⟨reason, heq⟩ | ⟨iso, lba, len, -, -, -, heq⟩
      · exact h.inbox
      · rw [heq]
        exact fail_inbox reason s
      · rw [heq]
        rfl
    · exact (handleScsi_other env s hnil (eq_false_of_ne_true hread)).inbox

theorem onStatusData_inbox (env : Env) (data : StatusData) (s : Session) :
    (s.onStatusData env data).inbox = s.inbox := by
  rw [onStatusData]
  split
  · split
    · exact writeNumbered_inbox env _ s
    · rfl
  · split
    · simp only []
      split <;> rfl
    · rfl

theorem onOpenSessionReply_inbox (env : Env) (info : SessionInfo)
    (s : Session) : (s.onOpenSessionReply env info).inbox = s.inbox := by
  rw [onOpenSessionReply]
  split
  · exact fail_inbox _ s
  · split
    · exact fail_inbox _ s
    · exact writeNumbered_inbox env _ _

theorem handleFrame_inbox (env : Env) (frame : Inbound) (s : Session) :
    (s.handleFrame env frame).1.inbox = s.inbox := by
  cases frame with
  | openSessionReply info => exact onOpenSessionReply_inbox env info _
  | close => exact fail_inbox _ _
  | keepAlivePing => exact writeNumbered_inbox env _ _
  | keepAlivePong => rfl
  | resetOccurred => exact writeNumbered_inbox env _ _
  | statusData data => exact onStatusData_inbox env data _
  | errorOccurred => rfl
  | heartbeat => rfl
  | commandWritten cmd => exact handleScsi_inbox env cmd _
  | unknown tag => exact fail_inbox _ _

end Session

/-- The cases of `drainInbox` after which its loop goes on. -/
def Inbound.goesOn : Inbound → Bool
  | .close | .unknown _ => false
  | _ => true

/-! ## The frames of the wire -/

/-- How long a frame with this first byte is. The one whose length is not
settled by it counts its OEM data in its last fixed byte. -/
def frameLengthOf (tag : UInt8) (bytes : Bytes) : Option Nat :=
  match tag with
  | 0x41 => some (30 + byteAt bytes 29)
  | 0x43 => some 8
  | 0x44 => some 8
  | 0x45 => some 8
  | 0x46 => some 9
  | 0x49 => some 13
  | 0x4A => some 11
  | 0x4B => some 8
  | 0x50 => some 28
  | _ => none

/-- How long the frame at the front of the bytes is. -/
def frameLength (bytes : Bytes) : Option Nat :=
  frameLengthOf (bytes.headD 0) bytes

theorem frameLength_pos {bytes : Bytes} {n : Nat}
    (h : frameLength bytes = some n) : 0 < n := by
  unfold frameLength frameLengthOf at h
  split at h <;> cases h <;> omega

namespace Session

theorem handleFrame_goesOn (env : Env) (frame : Inbound) (s : Session) :
    (s.handleFrame env frame).2 = frame.goesOn := by
  cases frame <;> rfl

theorem tryParseFixed_size {buffer : Bytes} {tag : UInt8} {size n : Nat}
    (h : tryParseFixed buffer tag size = some n) :
    n = size ∧ size ≤ buffer.length := by
  rcases ite_some h with ⟨-, h⟩ | ⟨hlen, h⟩
  · cases h
  rcases ite_some h with ⟨-, h⟩ | ⟨-, h⟩
  · cases h
  · cases h
    exact ⟨rfl, Nat.le_of_not_lt hlen⟩

theorem tryParseOpenSessionReply_size {buffer : Bytes} {info : SessionInfo}
    {n : Nat} (h : tryParseOpenSessionReply buffer = some (info, n)) :
    n = 30 + byteAt buffer 29 ∧ n ≤ buffer.length := by
  rcases ite_some h with ⟨-, h⟩ | ⟨-, h⟩
  · cases h
  rcases ite_some h with ⟨-, h⟩ | ⟨-, h⟩
  · cases h
  rcases ite_some h with ⟨-, h⟩ | ⟨hlen, h⟩
  · cases h
  · cases h
    exact ⟨rfl, Nat.le_of_not_lt hlen⟩

theorem tryParseStatusData_size {buffer : Bytes} {data : StatusData} {n : Nat}
    (h : tryParseStatusData buffer = some (data, n)) :
    n = 13 ∧ n ≤ buffer.length := by
  rcases ite_some h with ⟨-, h⟩ | ⟨hlen, h⟩
  · cases h
  rcases ite_some h with ⟨-, h⟩ | ⟨-, h⟩
  · cases h
  · cases h
    exact ⟨rfl, Nat.le_of_not_lt hlen⟩

theorem tryParseCommandWritten_size {buffer : Bytes} {cmd : ScsiCommand}
    {n : Nat} (h : tryParseCommandWritten buffer = some (cmd, n)) :
    n = 28 ∧ n ≤ buffer.length := by
  rcases ite_some h with ⟨-, h⟩ | ⟨hlen, h⟩
  · cases h
  rcases ite_some h with ⟨-, h⟩ | ⟨-, h⟩
  · cases h
  · cases h
    exact ⟨rfl, Nat.le_of_not_lt hlen⟩

/-- What is taken, if the loop goes on after it, is a frame that is there with
all its bytes. -/
theorem nextFrame_framed {inbox : Bytes} {frame : Inbound} {n : Nat}
    (h : nextFrame inbox = some (frame, n)) (hgo : frame.goesOn = true) :
    frameLength inbox = some n ∧ n ≤ inbox.length := by
  have hfixed : ∀ {tag : UInt8} {size : Nat} {f : Inbound},
      frameLength inbox = some size →
      (tryParseFixed inbox tag size).map (f, ·) = some (frame, n) →
      frameLength inbox = some n ∧ n ≤ inbox.length := by
    intro tag size f hlen h
    obtain ⟨m, hparse, he⟩ := Option.map_eq_some_iff.mp h
    obtain ⟨rfl, hle⟩ := tryParseFixed_size hparse
    cases he
    exact ⟨hlen, hle⟩
  have hlength {tag : UInt8} (htag : peekTag inbox = tag) :
      frameLength inbox = frameLengthOf tag inbox := by
    rw [frameLength, ← htag, peekTag]
  -- the tags in the order of the switch
  rcases ite_some h with ⟨htag, h⟩ | ⟨-, h⟩
  · obtain ⟨⟨info, m⟩, hparse, he⟩ := Option.map_eq_some_iff.mp h
    cases he
    obtain ⟨rfl, hle⟩ := tryParseOpenSessionReply_size hparse
    exact ⟨hlength htag, hle⟩
  iterate 4
    rcases ite_some h with ⟨htag, h⟩ | ⟨-, h⟩
    · exact hfixed (hlength htag) h
  rcases ite_some h with ⟨htag, h⟩ | ⟨-, h⟩
  · obtain ⟨⟨data, m⟩, hparse, he⟩ := Option.map_eq_some_iff.mp h
    cases he
    obtain ⟨rfl, hle⟩ := tryParseStatusData_size hparse
    exact ⟨hlength htag, hle⟩
  iterate 2
    rcases ite_some h with ⟨htag, h⟩ | ⟨-, h⟩
    · exact hfixed (hlength htag) h
  rcases ite_some h with ⟨htag, h⟩ | ⟨-, h⟩
  · obtain ⟨⟨cmd, m⟩, hparse, he⟩ := Option.map_eq_some_iff.mp h
    cases he
    obtain ⟨rfl, hle⟩ := tryParseCommandWritten_size hparse
    exact ⟨hlength htag, hle⟩
  · cases h
    cases hgo

/-- A frame after which the loop goes on has bytes, and they are there. -/
theorem nextFrame_size {inbox : Bytes} {frame : Inbound} {n : Nat}
    (h : nextFrame inbox = some (frame, n)) (hgo : frame.goesOn = true) :
    0 < n ∧ n ≤ inbox.length := by
  obtain ⟨hlen, hle⟩ := nextFrame_framed h hgo
  exact ⟨frameLength_pos hlen, hle⟩

theorem drainStep_shrinks {env : Env} {s d : Session}
    (h : s.drainStep env = (d, true)) : d.inbox.length < s.inbox.length := by
  rw [drainStep] at h
  split at h
  · cases h
  next frame n hnext =>
    have hgo : frame.goesOn = true := by
      rw [← handleFrame_goesOn env frame { s with inbox := s.inbox.drop n }, h]
    have hin : d.inbox = s.inbox.drop n := by
      have := handleFrame_inbox env frame { s with inbox := s.inbox.drop n }
      rwa [h] at this
    obtain ⟨hpos, hle⟩ := nextFrame_size hnext hgo
    rw [hin, List.length_drop]
    omega

/-- The loop of `drainInbox` is a loop that takes rounds. -/
theorem drainLoop_rounds (env : Env) (fuel : Nat) (s : Session) :
    s.drainLoop env fuel =
      rounds (·.inbox.isEmpty) (drainStep env) fuel s := by
  induction fuel generalizing s with
  | zero => rfl
  | succ fuel ih =>
      rw [drainLoop, rounds]
      split
      · rfl
      · split
        next d hd => rw [hd]; exact ih d
        next d hd => rw [hd]

/-- The loop after a round that goes on is the loop. -/
theorem drainInbox_round {env : Env} {s d : Session}
    (h : s.drainStep env = (d, true)) : s.drainInbox env = d.drainInbox env := by
  have hbusy : s.inbox.isEmpty = false := by
    have hlt := drainStep_shrinks h
    cases hs : s.inbox with
    | nil =>
        rw [hs] at hlt
        cases hlt
    | cons b rest => rfl
  rw [drainInbox, drainInbox, drainLoop_rounds, drainLoop_rounds]
  exact rounds_round (fun s : Session => s.inbox.length)
    (fun hz => List.isEmpty_iff_length_eq_zero.mpr hz) drainStep_shrinks hbusy h

/-- The chunk is in the inbox and nothing of it has been looked at. -/
def taken (chunk : Bytes) (s : Session) : Session :=
  { s with
    bytesReceivedFromAmt := s.bytesReceivedFromAmt + chunk.length
    inbox := s.inbox ++ chunk }

theorem onRawBytes_eq (env : Env) (chunk : Bytes) (s : Session) :
    s.onRawBytes env chunk =
      ((s.taken chunk).drainInbox env).emit
        (.statsChanged ((s.taken chunk).drainInbox env).bytesSentToAmt
          ((s.taken chunk).drainInbox env).bytesReceivedFromAmt) :=
  rfl

/-! ## The history -/

/-- Nothing is taken out of the history. -/
abbrev Grows (s d : Session) : Prop := Lib.Grows out s d

namespace Grows

theorem of_does {got done : List UInt8} {s d : Session} (h : Does got done s d) :
    Grows s d := by
  obtain ⟨-, new, hout, -⟩ := h
  exact ⟨new, hout⟩

theorem fail (reason : String) (s : Session) : Grows s (s.fail reason) :=
  of_does (Does.fail [] [] reason s)

theorem handleScsi (env : Env) (cmd : ScsiCommand) (s : Session) :
    Grows s (s.handleScsi env cmd) := by
  by_cases hnil : cmd.cdb = []
  · rw [Session.handleScsi, hnil]
    exact Lib.Grows.refl s
  · by_cases hread : isRead cmd = true
    · obtain ⟨isRead10, hscsi⟩ := handleScsi_read env s hread
      rw [hscsi]
      rcases scsiRead_cases env cmd.cdb (device cmd) cmd.featureRegister
          isRead10 s with h | ⟨reason, heq⟩ | ⟨iso, lba, len, -, -, -, heq⟩
      · exact of_does h.does
      · rw [heq]
        exact fail reason s
      · rw [heq]
        exact Lib.Grows.of_eq rfl
    · exact of_does
        (handleScsi_other env s hnil (eq_false_of_ne_true hread)).does

theorem handleFrame (env : Env) (frame : Inbound) (s : Session) :
    Grows s (s.handleFrame env frame).1 := by
  have hgot : Grows s (s.emit (.received frame)) := of_does (Does.emit s rfl)
  by_cases hread : frame.isRead = true
  · cases frame with
    | commandWritten cmd => exact hgot.trans (handleScsi env cmd _)
    | _ => cases hread
  · cases frame with
    | commandWritten cmd => exact hgot.trans (handleScsi env cmd _)
    | _ => exact of_does (handleFrame_other env s nofun rfl)

theorem drainStep (env : Env) (s : Session) : Grows s (s.drainStep env).1 := by
  rw [Session.drainStep]
  split
  · exact Lib.Grows.refl s
  next frame n hnext =>
    exact handleFrame env frame { s with inbox := s.inbox.drop n }

theorem drainLoop (env : Env) (fuel : Nat) (s : Session) :
    Grows s (s.drainLoop env fuel) := by
  rw [drainLoop_rounds]
  exact rounds_relation Lib.Grows.refl Lib.Grows.trans (drainStep env) fuel s

theorem onRawBytes (env : Env) (chunk : Bytes) (s : Session) :
    Grows s (s.onRawBytes env chunk) := by
  have hin : Grows s (s.taken chunk) := of_does (Does.nothing rfl rfl id)
  exact (hin.trans (drainLoop env _ _)).trans (of_does (Does.emit _ rfl))

theorem tick (env : Env) (s : Session) : Grows s (s.tick env) := by
  have h := tick_cases env s
  generalize s.tick env = d at h
  cases h with
  | idle htime => exact Lib.Grows.refl s
  | ended htime h => exact ⟨[], (List.append_nil _).symm⟩
  | @short htime iso hiso hleft =>
      have hsent := of_does (Does.sendError env s.chunkDev kSenseIllegalRequest
        0x21 0x00 (s.fired.afterChunk iso s.remainingReadBytes))
      exact hsent.around rfl rfl
  | @chunk htime iso hiso hleft =>
      have hsent := of_does (Does.sendChunk env s.chunkDev
        (s.remainingReadBytes - s.chunkWant == 0) (s.chunkData iso)
        (feature s.chunkFeature)
        (s.fired.afterChunk iso (s.remainingReadBytes - s.chunkWant)))
      exact hsent.around rfl (rearm_out _)

theorem start (env : Env) (authenticated : Bool) (s : Session) :
    Grows s (s.start env authenticated) := by
  have hstarted : Grows s (s.emit .started) := of_does (Does.emit s rfl)
  have hopening (t : Session) : Grows t (t.writeNumbered env fun n =>
      .openSession n kRxTimeoutMs kTxTimeoutMs kHeartbeatMs kProtocolVersion) :=
    of_does (Does.writeNumbered env _ t fun _ => rfl)
  rw [Session.start]
  simp only []
  split
  · exact hstarted.trans (fail _ _)
  · split
    · exact hstarted.trans (hopening _)
    · split
      · exact hstarted.trans (fail _ _)
      · exact hstarted.trans (hopening _)

theorem handle (env : Env) (s : Session) (e : Event) :
    Grows s (s.handle env e) := by
  cases e with
  | setIsoPath path => exact Lib.Grows.of_eq rfl
  | setStartOption option => exact Lib.Grows.of_eq rfl
  | start authenticated => exact start env authenticated s
  | rawBytes chunk => exact onRawBytes env chunk s
  | clientFailed reason => exact fail reason s
  | chunkTimer => exact tick env s

theorem run (env : Env) (s : Session) (es : List Event) :
    Grows s (run (Session.handle env) s es) :=
  Lib.Grows.run (handle env) s es

end Grows

end Session

end QuMesh.Ider
