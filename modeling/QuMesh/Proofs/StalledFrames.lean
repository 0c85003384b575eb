import QuMesh.Proofs.TrustGate

/-!
# Frames that are whole and stay where they are

Every frame says how long it is, so a client can tell a frame that has not
come in yet from one it cannot read. `tryParseAuthReply` does not pass that
on. It returns `false` with nothing consumed for a `0x14` that is short, for
one that announces more data than it would ever take, and for a challenge
whose realm or nonce runs past its own end, and `drainInbox` waits on all
three alike. The branch that calls a challenge malformed is never reached by
one that is cut short.

`frames_processed` says these are the only ones: whatever is in front of the
inbox, it is taken or it fails the session, unless it is `Stuck`.
-/

namespace QuMesh.Redir

open QuMesh.Lib

/-- How long the first frame is, by its own length fields, once they are in.
A tag without a frame is its own length. -/
def frameSize (s : State) (inbox : Bytes) : Option Nat :=
  if inbox.isEmpty then none
  else if s = .kvmStarting ∧ byteAt inbox 0 = 0x41 then some 8
  else if byteAt inbox 0 = 0x11 then
    if inbox.length < kStartReplyFixedSize then none
    else some (kStartReplyFixedSize + byteAt inbox 12)
  else if byteAt inbox 0 = 0x14 then
    if inbox.length < kAuthReplyFixedSize then none
    else some (kAuthReplyFixedSize + read32Le inbox 5)
  else some 1

/-- The first frame is in the inbox to its last byte. -/
def FrameComplete (s : State) (inbox : Bytes) : Prop :=
  ∃ n, frameSize s inbox = some n ∧ n ≤ inbox.length

/-- A `0x14` that announces more data than the parser takes. -/
def OverLong (inbox : Bytes) : Prop :=
  byteAt inbox 0 = 0x14 ∧ kAuthReplyFixedSize ≤ inbox.length ∧
    kAuthReplyMaxData < read32Le inbox 5

/-- A complete digest challenge, status 1, whose body has no realm and nonce
that fit in it. -/
def MalformedChallenge (inbox : Bytes) : Prop :=
  byteAt inbox 0 = 0x14 ∧ kAuthReplyFixedSize ≤ inbox.length ∧
    kAuthReplyFixedSize + read32Le inbox 5 ≤ inbox.length ∧
    (inbox.getD 4 0 = 4 ∨ inbox.getD 4 0 = 3) ∧ inbox.getD 1 0 = 1 ∧
    readChallenge (inbox.getD 4 0)
      ((inbox.drop kAuthReplyFixedSize).take (read32Le inbox 5)) = none

/-- What the client waits on for ever. -/
def Stuck (inbox : Bytes) : Prop := OverLong inbox ∨ MalformedChallenge inbox

/-- The first thing `drainInbox` did was to take a frame off the inbox. -/
def Client.ConsumesFirst (c d : Client) : Prop :=
  ∃ frame es, d.out = c.out ++ .consumed c.socketId c.state frame :: es

/-- A complete first frame is taken or fails the session, and a challenge or
a length the parser refuses fails it. -/
structure FramesProcessed (env : Env) (c : Client) : Prop where
  complete : FrameComplete c.state c.inbox →
    c.ConsumesFirst (c.drainInbox env) ∨ (c.drainInbox env).state = .failed
  overLong : OverLong c.inbox → (c.drainInbox env).state = .failed
  malformed : MalformedChallenge c.inbox →
    (c.drainInbox env).state = .failed

/-! ## The history only grows -/

namespace Client

/-- Nothing that happened is taken back. -/
def Grows (c d : Client) : Prop := c.out <+: d.out

theorem Grows.refl (c : Client) : c.Grows c := List.prefix_refl _

theorem Grows.trans {c d e : Client} (h₁ : c.Grows d) (h₂ : d.Grows e) :
    c.Grows e :=
  List.IsPrefix.trans h₁ h₂

theorem Grows.emit (c : Client) (e : Effect) : c.Grows (c.emit e) :=
  List.prefix_append _ _

theorem Grows.setState (c : Client) (s : State) : c.Grows (c.setState s) := by
  rw [Client.setState]
  split
  · exact .refl c
  · exact Grows.emit _ _

theorem Grows.fail (c : Client) (error : String) : c.Grows (c.fail error) := by
  have hset := Grows.setState
    { c with
      lastError := error
      socket := c.socket.map fun k => { k with isOpen := false } } .failed
  exact hset.trans (Grows.emit _ _)

theorem Grows.socketWrite (env : Env) (frame : Frame) (c : Client) :
    c.Grows (c.socketWrite env frame).1 := by
  rw [Client.socketWrite]
  split
  · exact .refl c
  · exact Grows.emit _ _

theorem Grows.writeThen (env : Env) (frame : Frame) (next : State)
    (c : Client) : c.Grows (c.writeThen env frame next).1 := by
  rw [Client.writeThen]
  have hw := Grows.socketWrite env frame c
  simp only []
  split
  · exact hw.trans (Grows.fail _ _)
  · exact hw.trans (Grows.setState _ _)

theorem Grows.consume (n : Nat) (frame : Received) (c : Client) :
    c.Grows (c.consume n frame) :=
  Grows.emit _ _

theorem Grows.handOver (leftover : Bytes) (c : Client) :
    c.Grows (c.handOver leftover) := by
  have hset := (Grows.setState c .authenticated).trans
    (Grows.emit _ .authenticated)
  rw [Client.handOver]
  split
  · exact hset
  · exact hset.trans (Grows.emit _ _)

theorem Grows.onStartSession (env : Env) (r : StartSessionReply)
    (c : Client) : c.Grows (c.onStartSession env r).1 := by
  rw [Client.onStartSession]
  simp only []
  split
  · exact Grows.fail { c with startStatus := r.status, oemData := r.oemData } _
  · have hopen : c.Grows ((({ c with
        startStatus := r.status, oemData := r.oemData }).emit
          .sessionOpened).setState .sessionOpened) :=
      (Grows.emit { c with startStatus := r.status, oemData := r.oemData }
        .sessionOpened).trans (Grows.setState _ _)
    split
    · exact hopen
    · exact hopen.trans (Grows.writeThen _ _ _ _)

theorem Grows.onAuthReply (env : Env) (r : AuthReply) (c : Client) :
    c.Grows (c.onAuthReply env r).1 := by
  unfold Client.onAuthReply
  split
  · split
    · exact Grows.fail _ _
    · exact Grows.writeThen _ _ _ _
  · split
    · exact Grows.fail _ _
    · exact Grows.writeThen _ _ _ _
  · split
    · exact Grows.fail _ _
    · split
      · exact Grows.writeThen _ _ _ _
      · exact Grows.handOver c.inbox { c with inbox := [] }
  · exact Grows.fail _ _

theorem Grows.drainStep (env : Env) (c : Client) :
    c.Grows (c.drainStep env).1 := by
  unfold Client.drainStep
  simp only []
  split
  · split
    · exact .refl c
    · exact (Grows.consume _ _ c).trans (Grows.handOver _ _)
  · split
    · split
      · exact .refl c
      · exact (Grows.consume _ _ c).trans (Grows.onStartSession _ _ _)
    · split
      · split
        · exact .refl c
        · exact (Grows.consume _ _ c).trans (Grows.onAuthReply _ _ _)
      · exact Grows.fail c _

theorem Grows.drainLoop (env : Env) (fuel : Nat) (c : Client) :
    c.Grows (c.drainLoop env fuel) := by
  induction fuel generalizing c with
  | zero => exact .refl c
  | succ fuel ih =>
      rw [Client.drainLoop]
      split
      · exact .refl c
      · have hstep := Grows.drainStep env c
        split
        next c' h =>
          rw [h] at hstep
          exact hstep.trans (ih c')
        next c' h =>
          rw [h] at hstep
          exact hstep

theorem Grows.consumesFirst {c d : Client} {n : Nat} {frame : Received}
    (h : (c.consume n frame).Grows d) : c.ConsumesFirst d := by
  obtain ⟨es, hes⟩ := h
  exact ⟨frame, es, by rw [← hes, Client.consume, Client.emit]; simp⟩

end Client

/-! ## The two parsers on a frame that is all there -/

theorem tryParseStartSessionReply_complete {b : Bytes}
    (htag : byteAt b 0 = 0x11) (hfix : kStartReplyFixedSize ≤ b.length)
    (hlen : kStartReplyFixedSize + byteAt b 12 ≤ b.length) :
    ∃ x, tryParseStartSessionReply b = some x := by
  have hpos : kStartReplyFixedSize = 13 := rfl
  rw [tryParseStartSessionReply, if_neg (by omega), if_neg (by omega),
    if_neg (by omega)]
  simp only []
  rw [if_neg (by omega)]
  exact ⟨_, rfl⟩

theorem tryParseAuthReply_complete {b : Bytes} (htag : byteAt b 0 = 0x14)
    (hfix : kAuthReplyFixedSize ≤ b.length)
    (hlen : kAuthReplyFixedSize + read32Le b 5 ≤ b.length)
    (hstuck : ¬ Stuck b) : ∃ x, tryParseAuthReply b = some x := by
  have hpos : kAuthReplyFixedSize = 9 := rfl
  have hmax : ¬ read32Le b 5 > kAuthReplyMaxData :=
    fun h => hstuck (.inl ⟨htag, hfix, h⟩)
  rw [tryParseAuthReply, if_neg (by omega), if_neg (by omega),
    if_neg (by omega)]
  simp only []
  rw [if_neg hmax, if_neg (by omega)]
  split
  · exact ⟨_, rfl⟩
  · split
    next hdigest =>
      split
      next hbody =>
        exact absurd (Or.inr ⟨htag, hfix, hlen, hdigest.1, hdigest.2, hbody⟩)
          hstuck
      next => exact ⟨_, rfl⟩
    next => exact ⟨_, rfl⟩

theorem Stuck.tag {b : Bytes} (h : Stuck b) : byteAt b 0 = 0x14 := by
  cases h with
  | inl h => exact h.1
  | inr h => exact h.1

theorem Stuck.unparsed {b : Bytes} (h : Stuck b) :
    tryParseAuthReply b = none := by
  have hpos : kAuthReplyFixedSize = 9 := rfl
  rw [tryParseAuthReply]
  split
  · rfl
  split
  · rfl
  split
  · rfl
  simp only []
  rcases h with ⟨-, -, hmax⟩ | ⟨-, -, hlen, htype, hstatus, hbody⟩
  · exact if_pos hmax
  · split
    · rfl
    split
    · rfl
    have hnot : ¬ b.getD 4 0 = 0 := by
      rcases htype with h | h <;> rw [h] <;> decide
    rw [if_neg hnot, if_pos ⟨htype, hstatus⟩, hbody]

namespace Client

/-! ## The first round of the loop -/

theorem drainInbox_first (env : Env) {c : Client} (hne : c.inbox ≠ []) :
    (c.drainStep env).1.Grows (c.drainInbox env) ∧
      ((c.drainStep env).2 = false →
        c.drainInbox env = (c.drainStep env).1) := by
  obtain ⟨n, hn⟩ : ∃ n, c.inbox.length = n + 1 :=
    Nat.exists_eq_succ_of_ne_zero fun h => hne (List.length_eq_zero_iff.mp h)
  rw [drainInbox, hn, drainLoop, if_neg (by simpa using hne)]
  split
  next c' h =>
    rw [h]
    exact ⟨Grows.drainLoop env n c', Bool.noConfusion⟩
  next c' h =>
    rw [h]
    exact ⟨Grows.refl c', fun _ => rfl⟩

/-- A frame that is stuck stays, and so does the client. -/
theorem drainInbox_stuck (env : Env) {c : Client} (h : Stuck c.inbox) :
    c.drainInbox env = c := by
  have hstep : c.drainStep env = (c, false) := by
    have hnot : ¬ (c.state = .kvmStarting ∧ byteAt c.inbox 0 = 0x41) := by
      rw [h.tag]
      exact fun h => absurd h.2 (by decide)
    have hnot' : ¬ byteAt c.inbox 0 = 0x11 := by
      rw [h.tag]
      decide
    rw [drainStep]
    simp only []
    rw [if_neg hnot, if_neg hnot', if_pos h.tag, h.unparsed]
  rw [drainInbox]
  cases c.inbox.length with
  | zero => rfl
  | succ n =>
      rw [drainLoop]
      split
      · rfl
      · rw [hstep]

theorem drainStep_complete (env : Env) {c : Client}
    (h : FrameComplete c.state c.inbox) (hstuck : ¬ Stuck c.inbox) :
    (∃ n frame, (c.consume n frame).Grows (c.drainStep env).1) ∨
      ((c.drainStep env).1.state = .failed ∧ (c.drainStep env).2 = false) := by
  obtain ⟨n, hn, hlen⟩ := h
  rw [frameSize] at hn
  split at hn
  · cases hn
  unfold drainStep
  simp only []
  split at hn
  next hkvm =>
    cases hn
    rw [if_pos hkvm, if_neg (by omega)]
    exact .inl ⟨_, _, Grows.handOver _ _⟩
  next hkvm =>
    rw [if_neg hkvm]
    split at hn
    next htag =>
      rw [if_pos htag]
      split at hn
      · cases hn
      next hfix =>
        cases hn
        obtain ⟨x, hx⟩ :=
          tryParseStartSessionReply_complete htag (Nat.not_lt.mp hfix) hlen
        rw [hx]
        exact .inl ⟨_, _, Grows.onStartSession _ _ _⟩
    next htag =>
      rw [if_neg htag]
      split at hn
      next htag =>
        rw [if_pos htag]
        split at hn
        · cases hn
        next hfix =>
          cases hn
          obtain ⟨x, hx⟩ :=
            tryParseAuthReply_complete htag (Nat.not_lt.mp hfix) hlen hstuck
          rw [hx]
          exact .inl ⟨_, _, Grows.onAuthReply _ _ _⟩
      next htag =>
        rw [if_neg htag]
        exact .inr ⟨state_fail _ _, rfl⟩

end Client

theorem FrameComplete.nonempty {s : State} {b : Bytes}
    (h : FrameComplete s b) : b ≠ [] := by
  rintro rfl
  obtain ⟨n, hn, -⟩ := h
  cases hn

theorem MalformedChallenge.complete {s : State} {b : Bytes}
    (h : MalformedChallenge b) : FrameComplete s b := by
  obtain ⟨htag, hfix, hlen, -⟩ := h
  have hpos : kAuthReplyFixedSize = 9 := rfl
  refine ⟨_, ?_, hlen⟩
  have hne : ¬ b.isEmpty = true := by
    rw [List.isEmpty_iff_length_eq_zero]
    omega
  rw [frameSize, if_neg hne, if_neg (by rw [htag]; simp), if_neg (by omega),
    if_pos htag, if_neg (by omega)]

/-- In every state a session can be in, exactly the frames that are stuck are
neither taken nor refused. -/
theorem frames_processed (env : Env) (c : Client) (hs : c.state ≠ .failed) :
    FramesProcessed env c ↔ ¬ Stuck c.inbox := by
  refine ⟨fun h hstuck => ?_, fun hstuck => ⟨fun h => ?_, fun h => ?_, fun h => ?_⟩⟩
  · have hsame := Client.drainInbox_stuck env hstuck
    rcases hstuck with hlong | hbad
    · exact hs (hsame ▸ h.overLong hlong)
    · exact hs (hsame ▸ h.malformed hbad)
  · obtain ⟨hgrows, hlast⟩ := Client.drainInbox_first env h.nonempty
    rcases Client.drainStep_complete env h hstuck with
      ⟨n, frame, hstep⟩ | ⟨hfailed, hstop⟩
    · exact .inl (hstep.trans hgrows).consumesFirst
    · rw [hlast hstop]
      exact .inr hfailed
  · exact absurd (.inl h) hstuck
  · exact absurd (.inr h) hstuck

/-- A challenge cut short after its realm: its header and both bytes of its
body are there. -/
def cutChallenge : Bytes := [0x14, 1, 0, 0, 4, 2, 0, 0, 0, 1, 0x72]

def cutChallengeRun : List Event :=
  [.setCredentials [0x61] [0x70], .connectTo "amt" 16994, .connected,
    .readyRead sessionStarted, .readyRead digestOffered,
    .readyRead cutChallenge]

theorem frames_processed_stalls :
    (run (Client.handle .plain) {} cutChallengeRun).state = .authChallenging ∧
      (run (Client.handle .plain) {} cutChallengeRun).inbox = cutChallenge ∧
      ¬ FramesProcessed .plain
        (run (Client.handle .plain) {} cutChallengeRun) := by
  refine ⟨by decide, by decide, fun h => ?_⟩
  have hbad : MalformedChallenge
      (run (Client.handle .plain) {} cutChallengeRun).inbox := by
    unfold MalformedChallenge
    decide
  exact absurd (h.malformed hbad) (by decide)

/-- A whole challenge is taken. -/
theorem frames_processed_challenge :
    FramesProcessed .plain { state := .authChallenging
                             inbox := digestChallenge } :=
  (frames_processed .plain _ (by decide)).mpr
    (by unfold Stuck OverLong MalformedChallenge; decide)

end QuMesh.Redir
