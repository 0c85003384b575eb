import QuMesh.Proofs.ResizeRepaint

/-!
# The frame loop asks for the next update

A server sends an update when it was asked for one, so a session that has no
request out gets no more pictures and no error. The session asks where the
count of pending rectangles reaches zero, inside the branch that takes a
rectangle; an update that announces no rectangles never gets there. It is
taken off the inbox, it is complete, and nothing is asked for.

A turn writes no request or one, `turn_asks`: the end of the handshake, a
refresh, and the last rectangle of an update are the turns that write one. So
in the frame loop the requests stay ahead of the updates that are complete, and
every complete update is followed by one, exactly in the runs in which no
update is empty, `never_idle_iff`.
-/

namespace QuMesh.Kvm

open QuMesh.Lib

variable {z : Zlib}

namespace Session

/-- `FramebufferUpdateRequest` frames written. -/
def requests (s : Session z) : Nat := s.frames.countP Frame.isRequest

/-- The next message is a `FramebufferUpdate` of no rectangles. -/
def emptyUpdateNext (s : Session z) : Bool :=
  s.state == .frameLoop && s.pendingRects == 0 &&
    (tryParseFrameUpdate s.inbox).any (·.1 == 0)

/-- The turn consumes what was left of a `FramebufferUpdate`: its last
rectangle, or a header that announces none. -/
def completes (s : Session z) (t : Turn) : Bool :=
  t == .round && s.state == .frameLoop && (s.step .open).2 &&
    (s.pendingRects == 1 || s.emptyUpdateNext)

end Session

/-- The updates of a run whose rectangles have all been consumed. -/
def completedUpdates (past : List (Session z × Turn)) : Nat :=
  past.countP fun x => x.1.completes x.2

/-- The frame loop never goes idle: between two updates it has written more
requests than updates are complete, and a turn that completes an update writes
a new one. -/
structure NeverIdle (z : Zlib) (ts : List Turn) : Prop where
  ahead : ∀ early, early <+: ts →
    (run (Session.turn .open) ({} : Session z) early).state = .frameLoop →
    (run (Session.turn .open) ({} : Session z) early).pendingRects = 0 →
    completedUpdates (trail (Session.turn .open) ({} : Session z) early) <
      (run (Session.turn .open) ({} : Session z) early).requests
  followed : ∀ x ∈ trail (Session.turn .open) ({} : Session z) ts,
    x.1.completes x.2 = true →
      x.1.requests < (x.1.turn .open x.2).requests

/-! ## What a turn asks for -/

namespace Session

variable {s t u : Session z}

/-- From `s` to `t` no request was written, and the frame loop not entered. -/
structure Quiet (s t : Session z) : Prop where
  requests : t.requests = s.requests
  state : t.state = .frameLoop → s.state = .frameLoop

theorem Quiet.refl (s : Session z) : s.Quiet s := ⟨rfl, id⟩

theorem Quiet.trans (h : s.Quiet t) (h' : t.Quiet u) : s.Quiet u where
  requests := h'.requests.trans h.requests
  state := fun hu => h.state (h'.state hu)

theorem Quiet.of_prepared (h : s.Prepared t) : s.Quiet t where
  requests := by
    obtain ⟨fs, hfs, hno⟩ := h.frames
    have hnone : fs.countP Frame.isRequest = 0 := by
      rw [List.countP_eq_zero]
      intro f hf
      simp [hno f hf]
    rw [Session.requests, hfs, List.countP_append, hnone, Nat.add_zero]
    rfl
  state := by
    intro ht
    rcases h.state with hs | hs
    · rw [← hs]
      exact ht
    · rw [hs] at ht
      cases ht

/-- What the frames and the state are not in. -/
theorem Quiet.of_same (hout : t.out = s.out) (hstate : t.state = s.state) :
    s.Quiet t where
  requests := by rw [Session.requests, Session.requests, frames, frames, hout]
  state := fun ht => by rw [← hstate, ht]

theorem Quiet.setState (s : Session z) {st : State} (hst : st ≠ .frameLoop) :
    s.Quiet (s.setState st) where
  requests := by
    rw [Session.setState]
    split
    · rfl
    · exact congrArg (List.countP Frame.isRequest)
        (frames_emit ({ s with state := st } : Session z) rfl)
  state := by
    intro ht
    rw [state_setState] at ht
    exact absurd ht hst

theorem Quiet.handOut (s : Session z) {frame : Frame}
    (hframe : frame.isRequest = false) : s.Quiet (s.handOut frame) :=
  .of_prepared (.writeFrame .open s hframe)

theorem requests_handOut (s : Session z) {frame : Frame}
    (hframe : frame.isRequest = true) :
    (s.handOut frame).requests = s.requests + 1 := by
  rw [requests, frames_handOut, List.countP_append, List.countP_singleton,
    if_pos hframe]
  rfl

/-- The end of the handshake writes a request. -/
theorem requests_configure (s : Session z) :
    (s.configure .open).requests = s.requests + 1 := by
  have hloop (v : Session z) : (v.setState .frameLoop).requests = v.requests := by
    rw [Session.setState]
    split
    · rfl
    · exact congrArg (List.countP Frame.isRequest)
        (frames_emit ({ v with state := .frameLoop } : Session z) rfl)
  have hencodings : s.Quiet (s.writeFrame .open .setEncodings) := .handOut s rfl
  have hcommand : s.Quiet ((s.writeFrame .open .setEncodings).writeFrame .open
      (.kvmExtCmd 4 (if (s.writeFrame .open .setEncodings).compressionEnabled
        then 1 else 0))) :=
    hencodings.trans (.handOut _ rfl)
  rw [configure, hloop, requestFull]
  exact (requests_handOut _ rfl).trans (congrArg (· + 1) hcommand.requests)

/-- From `s` to `t` one request was written; or none was, which is not so where
the condition holds. -/
def Asks (s : Session z) (must : Prop) (t : Session z) : Prop :=
  s.Quiet t ∧ ¬must ∨ t.requests = s.requests + 1

/-- One rectangle off an update that has some left. -/
theorem takeRect_asks (h : s.Quiet t) (hp : t.pendingRects = s.pendingRects)
    (n : Nat) (incremental : Bool) (w h' : Nat) :
    s.Asks (s.pendingRects = 1)
      (if (t.takeRect n).pendingRects = 0 then
        (t.takeRect n).handOut
          (.framebufferUpdateRequest incremental 0 0 w h')
      else t.takeRect n) := by
  have htake : s.Quiet (t.takeRect n) := h.trans (.of_same rfl rfl)
  split
  · right
    rw [requests_handOut _ rfl, htake.requests]
  · next hmore =>
      have hleft : t.pendingRects - 1 ≠ 0 := hmore
      exact .inl ⟨htake, by omega⟩

theorem Quiet.resize (w h : Nat) (s : Session z) : s.Quiet (s.resize w h) where
  requests := congrArg (List.countP Frame.isRequest)
    (frames_emit ({ s with width := w, height := h } : Session z) rfl)
  state := id

theorem Quiet.showTile (rect : RectHeader) (image : Option Image)
    (s : Session z) : s.Quiet (s.showTile rect image) := by
  cases image with
  | none => exact .refl s
  | some image =>
      exact ⟨congrArg (List.countP Frame.isRequest)
        (frames_emit ({ s with decoded := s.decoded ++ [(rect, s.format)] } :
          Session z) rfl), id⟩

theorem applyRect_asks (rect : RectHeader) (n : Nat) (dr : DecodedRect)
    (s : Session z) :
    s.Asks ((s.applyRect .open rect n dr).2 = true ∧ s.pendingRects = 1)
      (s.applyRect .open rect n dr).1 := by
  rw [applyRect]
  split
  · have hprep := Prepared.negotiate .open rect.w rect.h
      (s.resize rect.w rect.h)
    have hquiet := (Quiet.resize rect.w rect.h s).trans (.of_prepared hprep)
    split
    · next t ht =>
        rw [ht] at hquiet
        exact .inl ⟨hquiet, fun h => by cases h.1⟩
    · next t ht =>
        rw [ht] at hquiet hprep
        rcases takeRect_asks hquiet hprep.pendingRects n false
          (t.takeRect n).width (t.takeRect n).height with ⟨h, hmore⟩ | h
        · exact .inl ⟨h, fun hlast => hmore hlast.2⟩
        · exact .inr h
  · have hp : (s.showTile rect dr.image).pendingRects = s.pendingRects := by
      cases dr.image <;> rfl
    rcases takeRect_asks (Quiet.showTile rect dr.image s) hp n true
      ((s.showTile rect dr.image).takeRect n).width
      ((s.showTile rect dr.image).takeRect n).height with ⟨h, hmore⟩ | h
    · exact .inl ⟨h, fun hlast => hmore hlast.2⟩
    · exact .inr h

theorem stepRect_asks (s : Session z) :
    s.Asks ((s.stepRect .open).2 = true ∧ s.pendingRects = 1)
      (s.stepRect .open).1 := by
  rw [stepRect]
  split
  · exact .inl ⟨.refl s, fun h => by cases h.1⟩
  · next rect n _ =>
      generalize tryDecodeRect (s.inbox.drop n) rect (some s.inflate)
        s.format = d
      have hset : s.Quiet { s with inflate := d.inflate.getD s.inflate } :=
        .of_same rfl rfl
      have hfail (reason : Reason) :=
        hset.trans (.of_prepared (.fail _ reason))
      rw [onDecoding]
      split
      · exact .inl ⟨hset, fun h => by cases h.1⟩
      · exact .inl ⟨hfail _, fun h => by cases h.1⟩
      · exact .inl ⟨hfail _, fun h => by cases h.1⟩
      · exact .inl ⟨hfail _, fun h => by cases h.1⟩
      · rcases applyRect_asks rect (n + d.consumed) d.rect
          ({ s with inflate := d.inflate.getD s.inflate } : Session z) with
          ⟨h, hmore⟩ | h
        · exact .inl ⟨hset.trans h, hmore⟩
        · right
          rw [h, hset.requests]

/-- Between two updates nothing is asked for. -/
theorem stepMessage_quiet (s : Session z) : s.Quiet s.stepMessage.1 := by
  simp only [stepMessage]
  split
  · split
    · exact .refl s
    · exact .of_same rfl rfl
  · split
    · exact ⟨congrArg (List.countP Frame.isRequest)
        (frames_emit (s.remove 1) rfl), id⟩
    · split
      · split
        · exact .refl s
        · split
          · exact .of_prepared (.fail s _)
          · split
            · exact .refl s
            · exact .of_same rfl rfl
      · exact .of_prepared (.fail s _)

/-- A message of the handshake that is answered with a frame. -/
theorem Quiet.answer (s : Session z) (n : Nat) {frame : Frame}
    (hframe : frame.isRequest = false) {st : State} (hst : st ≠ .frameLoop) :
    s.Quiet (((s.remove n).writeFrame .open frame).setState st) :=
  ((Quiet.of_same rfl rfl : s.Quiet (s.remove n)).trans (.handOut _ hframe)).trans
    (.setState _ hst)

theorem stepHandshake_asks (s : Session z) :
    s.Asks False (s.stepHandshake .open).1 := by
  rw [stepHandshake]
  split
  · split
    · exact .inl ⟨.refl s, id⟩
    · exact .inl ⟨.answer s 12 rfl (by simp), id⟩
  · dsimp only
    split
    · exact .inl ⟨.refl s, id⟩
    · exact .inl ⟨.answer s _ rfl (by simp), id⟩
  · split
    split
    · exact .inl ⟨.refl s, id⟩
    · split
      · exact .inl ⟨.of_prepared (.fail s _), id⟩
      · exact .inl ⟨.answer s _ rfl (by simp), id⟩
  · split
    · exact .inl ⟨.refl s, id⟩
    · next info n _ =>
        have hquiet := ((Quiet.of_same rfl rfl : s.Quiet (s.remove n)).trans
          (.resize info.width info.height _)).trans
          (.of_prepared (.negotiate .open info.width info.height _))
        dsimp only
        split
        · next t ht =>
            rw [ht] at hquiet
            exact .inl ⟨hquiet, id⟩
        · next t ht =>
            rw [ht] at hquiet
            right
            rw [requests_configure, hquiet.requests]
  · exact .inl ⟨.refl s, id⟩

/-- A round over an empty update is past it. -/
theorem step_empty (h : s.emptyUpdateNext = true) :
    s.Quiet (s.step .open).1 ∧ (s.step .open).2 = true := by
  simp only [emptyUpdateNext, Bool.and_eq_true, beq_iff_eq] at h
  obtain ⟨⟨hs, hp⟩, hnext⟩ := h
  cases hparse : tryParseFrameUpdate s.inbox with
  | none =>
      rw [hparse] at hnext
      cases hnext
  | some p =>
      have htag : byteAt s.inbox 0 = 0 := by
        rw [tryParseFrameUpdate] at hparse
        split at hparse
        · cases hparse
        · split at hparse
          · cases hparse
          · next htag => exact Decidable.not_not.mp htag
      have hsome : s.inbox.isEmpty = false := by
        cases hin : s.inbox with
        | nil => rw [hin] at hparse; cases hparse
        | cons b rest => rfl
      have hstep : s.step .open = s.stepMessage := by
        simp only [step, hs, stepFrameLoop, hp, hsome]
        rfl
      rw [hstep]
      refine ⟨stepMessage_quiet s, ?_⟩
      rw [stepMessage]
      simp only [htag, hparse, if_true]

/-- A turn writes one request or none. It writes one where it completes an
update that is not empty. -/
theorem turn_asks (s : Session z) (t : Turn) :
    s.Asks (s.completes t = true ∧ ¬(t = .round ∧ s.emptyUpdateNext = true))
      (s.turn .open t) := by
  have hround (hne : t ≠ .round) : ¬(s.completes t = true ∧
      ¬(t = .round ∧ s.emptyUpdateNext = true)) := by
    have hno : (t == .round) = false := beq_false_of_ne hne
    simp [completes, hno]
  have hsend (frame : Frame) (hframe : frame.isRequest = false) :
      s.Quiet (if s.state ≠ .frameLoop then s
        else s.writeFrame .open frame) := by
    split
    · exact .refl s
    · exact .handOut s hframe
  cases t with
  | round =>
      rw [turn]
      by_cases hempty : s.emptyUpdateNext = true
      · exact .inl ⟨(step_empty hempty).1, fun h => h.2 ⟨rfl, hempty⟩⟩
      · have hmust : s.completes .round = true →
            s.state = .frameLoop ∧ (s.step .open).2 = true ∧
              s.pendingRects = 1 := by
          intro h
          simpa [completes, hempty, and_assoc] using h
        by_cases hs : s.state = .frameLoop
        · by_cases hp : s.pendingRects > 0
          · have hstep : s.step .open = s.stepRect .open := by
              simp only [step, hs, stepFrameLoop, if_pos hp]
            have hasks := stepRect_asks s
            rw [← hstep] at hasks
            rcases hasks with ⟨h, hmore⟩ | h
            · exact .inl ⟨h, fun hlast => hmore (hmust hlast.1).2⟩
            · exact .inr h
          · refine .inl ⟨?_, fun h => hp ?_⟩
            · simp only [step, hs, stepFrameLoop, if_neg hp]
              split
              · exact .refl s
              · exact stepMessage_quiet s
            · rw [(hmust h.1).2.2]
              exact Nat.one_pos
        · have hno : ¬(s.completes .round = true ∧
              ¬(Turn.round = .round ∧ s.emptyUpdateNext = true)) :=
            fun h => hs (hmust h.1).1
          have hhandshake := stepHandshake_asks s
          rw [step]
          split
          · exact hhandshake.imp (fun h => ⟨h.1, hno⟩) id
          · exact hhandshake.imp (fun h => ⟨h.1, hno⟩) id
          · exact hhandshake.imp (fun h => ⟨h.1, hno⟩) id
          · exact hhandshake.imp (fun h => ⟨h.1, hno⟩) id
          · next hloop => exact absurd hloop hs
          · exact .inl ⟨.refl s, hno⟩
          · exact .inl ⟨.refl s, hno⟩
  | feed chunk =>
      exact .inl ⟨.of_same rfl rfl, hround (fun h => by cases h)⟩
  | start authenticated compression =>
      refine .inl ⟨?_, hround (fun h => by cases h)⟩
      have hstarted : s.Quiet (s.emit .started) := .of_prepared (.emit s rfl)
      rw [turn, start]
      split
      · exact hstarted.trans (.of_prepared (.fail _ _))
      · have hreset : s.Quiet ({ s.emit .started with
            inflate := (s.emit .started).inflate.reset
            format := .rgb565
            compressionEnabled := compression } : Session z) :=
          hstarted.trans (.of_same rfl rfl)
        exact hreset.trans (.setState _ (by simp))
  | clientFailed reason =>
      exact .inl ⟨.of_prepared (.fail s _), hround (fun h => by cases h)⟩
  | setPreferredPixelFormat f =>
      exact .inl ⟨.of_same rfl rfl, hround (fun h => by cases h)⟩
  | sendKey keysym down =>
      exact .inl ⟨hsend _ rfl, hround (fun h => by cases h)⟩
  | sendPointer buttonMask x y =>
      exact .inl ⟨hsend _ rfl, hround (fun h => by cases h)⟩
  | requestFullRefresh =>
      rw [turn, requestFullRefresh]
      split
      · exact .inl ⟨.refl s, hround (fun h => by cases h)⟩
      · exact .inr (requests_handOut s rfl)

end Session

/-! ## Runs -/

/-- Where no update was empty, the requests are as many as the updates that are
complete, and one more in the frame loop. -/
theorem completed_lt_requests (ts : List Turn)
    (h : ∀ x ∈ trail (Session.turn .open) ({} : Session z) ts,
      ¬(x.2 = .round ∧ x.1.emptyUpdateNext = true)) :
    completedUpdates (trail (Session.turn .open) ({} : Session z) ts) +
        (if (run (Session.turn .open) ({} : Session z) ts).state = .frameLoop
          then 1 else 0) ≤
      (run (Session.turn .open) ({} : Session z) ts).requests := by
  refine history (fun past s => (∀ x ∈ past,
      ¬(x.2 = .round ∧ x.1.emptyUpdateNext = true)) →
    completedUpdates past + (if s.state = .frameLoop then 1 else 0) ≤
      s.requests) (fun past s t hinv hgood => ?_) ts
    (fun _ => Nat.zero_le _) h
  have hbefore := hinv fun x hx => hgood x (List.mem_append_left _ hx)
  have hfull : ¬(t = .round ∧ s.emptyUpdateNext = true) :=
    hgood (s, t) (List.mem_append_right _ (List.mem_singleton.mpr rfl))
  have hcount : completedUpdates (past ++ [(s, t)]) =
      completedUpdates past + if s.completes t = true then 1 else 0 := by
    rw [completedUpdates, List.countP_append, List.countP_singleton]
    rfl
  rw [hcount]
  rcases s.turn_asks t with ⟨hquiet, hnot⟩ | hone
  · rw [if_neg fun hdone => hnot ⟨hdone, hfull⟩, hquiet.requests]
    have hloop : (if (s.turn .open t).state = .frameLoop then 1 else 0) ≤
        if s.state = .frameLoop then 1 else 0 := by
      split
      · next hin => exact Nat.le_of_eq (if_pos (hquiet.state hin)).symm
      · exact Nat.zero_le _
    omega
  · rw [hone]
    by_cases hdone : s.completes t = true
    · have hs : s.state = .frameLoop := by
        simp only [Session.completes, Bool.and_eq_true, beq_iff_eq] at hdone
        exact hdone.1.1.2
      rw [if_pos hs] at hbefore
      split <;> split <;> omega
    · rw [if_neg hdone]
      split <;> split at hbefore <;> omega

/-- The frame loop never goes idle in exactly the runs in which it meets no
update of no rectangles. -/
theorem never_idle_iff (z : Zlib) (ts : List Turn) :
    NeverIdle z ts ↔
      ∀ x ∈ trail (Session.turn .open) ({} : Session z) ts,
        ¬(x.2 = .round ∧ x.1.emptyUpdateNext = true) := by
  constructor
  · rintro h ⟨s, t⟩ hx ⟨hround, hempty⟩
    dsimp only at hround hempty
    subst hround
    obtain ⟨hquiet, hwent⟩ := s.step_empty hempty
    have hdone : s.completes .round = true := by
      have hs : s.state = .frameLoop := by
        simp only [Session.emptyUpdateNext, Bool.and_eq_true, beq_iff_eq]
          at hempty
        exact hempty.1.1
      simp [Session.completes, hs, hwent, hempty]
    have hmore := h.followed (s, .round) hx hdone
    rw [Session.turn, hquiet.requests] at hmore
    exact Nat.lt_irrefl _ hmore
  · intro h
    refine ⟨fun early hearly hs _ => ?_, fun x hx hdone => ?_⟩
    · have hpast := completed_lt_requests (z := z) early fun x hx => by
        obtain ⟨late, rfl⟩ := hearly
        rw [trail_append] at h
        exact h x (List.mem_append_left _ hx)
      rw [if_pos hs] at hpast
      omega
    · rcases x.1.turn_asks x.2 with ⟨-, hnot⟩ | hone
      · exact absurd ⟨hdone, h x hx⟩ hnot
      · omega

/-- The handshake for an 8 by 8 desktop. -/
def handshakeTurns : List Turn :=
  [.start true true, .feed (List.replicate 14 1), .feed [0, 0, 0, 0],
    .feed ([0, 8, 0, 8] ++ List.replicate 20 0)] ++ List.replicate 4 .round

/-- The update that announces no rectangles is complete, and the request of
the handshake was the last. -/
theorem empty_update_idles :
    ¬NeverIdle .stored (handshakeTurns ++ [.feed [0, 0, 0, 0], .round]) :=
  fun h => absurd (h.ahead _ List.prefix_rfl (by decide) (by decide))
    (by decide)

/-- A refresh, and an update of one empty rectangle. -/
theorem never_idle_one :
    NeverIdle .stored (handshakeTurns ++ [.requestFullRefresh,
      .feed ([0, 0, 0, 1] ++ List.replicate 12 0), .round, .round]) :=
  (never_idle_iff .stored _).mpr (by decide)

end QuMesh.Kvm
