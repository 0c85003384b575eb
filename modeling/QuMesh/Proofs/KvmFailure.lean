import QuMesh.Lib.Run
import QuMesh.Proofs.KvmSteps

/-!
# Failure is final

`fail` puts a session into `Failed` and announces `closed`, and every entry
point looks at the state first, so nothing should follow. But `writeFrame` can
fail inside a round, and the round does not look: a handshake round assigns
the next state over `Failed` and writes the rest of its frames, and a resize
that ends an update asks for pixels after its `SetPixelFormat` was refused.
The client's own failure is passed on without a look at the state too.

`failure_is_final` is about the runs that stay clear of these: in a handshake
round the link takes every frame, in a round of the frame loop every frame but
the last, and the client does not fail under a session that has. There, the
first `closed` after a `start` is the last thing a session does.
-/

namespace QuMesh.Kvm

open QuMesh.Lib

variable {z : Zlib}

/-- What a failed session must not do any more. -/
def Effect.disturbs : Effect → Bool
  | .wrote _ | .tileUpdated .. | .closed _ | .stateChanged _ => true
  | _ => false

/-- The history since the last call of `start`. -/
def sinceStart (out : List Effect) : List Effect :=
  out.foldl (fun seen e => if e = .started then [] else seen ++ [e]) []

/-- Whatever came after a `closed` of this session disturbs nothing, and the
session is still in `Failed`. -/
def Session.FailureFinal (s : Session z) : Prop :=
  ∀ pre reason post, sinceStart s.out = pre ++ .closed reason :: post →
    s.state = .failed ∧ ∀ e ∈ post, e.disturbs = false

/-! ## The condition -/

namespace Session

/-- How many frames a round hands over, to a link that takes them. -/
def roundWrites (s : Session z) : Nat := (s.step .open).1.writes - s.writes

/-- The link takes the frames of a round: all of them in the handshake, all
but the last in the frame loop. -/
def Taken (link : Link) (s : Session z) : Prop :=
  ∀ i, (if s.state = .frameLoop then i + 1 else i) < s.roundWrites →
    link (s.writes + i) = none

instance (link : Link) (s : Session z) : Decidable (s.Taken link) :=
  decidable_of_iff (∀ i, i < s.roundWrites →
      (if s.state = .frameLoop then i + 1 else i) < s.roundWrites →
      link (s.writes + i) = none)
    ⟨fun h i hi => h i (by split at hi <;> omega) hi, fun h i _ hi => h i hi⟩

end Session

/-- The condition, event by event. -/
def LinkTakes (link : Link) (_past : List (Loop z × Event)) (l : Loop z) :
    Event → Prop
  | .rawBytes chunk => ∀ s ∈ Session.roundHeads link Session.kMaxStepsPerCall
      (l.session.feed chunk), s.Taken link
  | .continuation => l.queued ≠ 0 →
      ∀ s ∈ Session.roundHeads link Session.kMaxStepsPerCall l.session,
        s.Taken link
  | .clientFailed _ => l.session.state ≠ .failed
  | _ => True

instance (link : Link) (past : List (Loop z × Event)) (l : Loop z)
    (e : Event) : Decidable (LinkTakes link past l e) :=
  match e with
  | .rawBytes _ => inferInstanceAs (Decidable (∀ _ ∈ _, _))
  | .continuation => inferInstanceAs (Decidable (_ → ∀ _ ∈ _, _))
  | .clientFailed _ => inferInstanceAs (Decidable (_ ≠ _))
  | .setPreferredPixelFormat _ | .start .. | .sendKey .. | .sendPointer ..
  | .sendCtrlAltDel | .requestFullRefresh => .isTrue trivial

/-! ## A session that has failed once, or not at all -/

/-- No `closed` yet, and not in `Failed`. -/
structure Live (s : Session z) : Prop where
  open' : ∀ reason, Effect.closed reason ∉ sinceStart s.out
  state : s.state ≠ .failed

/-- One `closed`, with nothing after it that disturbs. -/
structure Dead (s : Session z) : Prop where
  once : ∃ pre reason post, sinceStart s.out = pre ++ .closed reason :: post ∧
    (∀ r, Effect.closed r ∉ pre) ∧ ∀ e ∈ post, e.disturbs = false
  state : s.state = .failed

/-- A list with one `closed` in it can be split at one only in one way. -/
theorem closed_split {pre post pre' post' : List Effect} {r r' : Reason}
    (h : pre ++ .closed r :: post = pre' ++ .closed r' :: post')
    (hpre : ∀ x, Effect.closed x ∉ pre)
    (hpost : ∀ e ∈ post, e.disturbs = false) : post' = post := by
  induction pre generalizing pre' with
  | nil =>
      cases pre' with
      | nil =>
          rw [List.nil_append, List.nil_append] at h
          exact (List.cons.inj h).2.symm
      | cons x xs =>
          rw [List.nil_append, List.cons_append] at h
          have hmem : Effect.closed r' ∈ post := by
            rw [(List.cons.inj h).2]
            exact List.mem_append_right _ List.mem_cons_self
          exact absurd (hpost _ hmem) (by simp [Effect.disturbs])
  | cons x xs ih =>
      cases pre' with
      | nil =>
          rw [List.cons_append, List.nil_append] at h
          refine absurd ?_ (hpre r')
          rw [(List.cons.inj h).1]
          exact List.mem_cons_self
      | cons y ys =>
          rw [List.cons_append, List.cons_append] at h
          exact ih (List.cons.inj h).2 fun a ha =>
            hpre a (List.mem_cons_of_mem _ ha)

theorem Dead.final {s : Session z} (h : Dead s) : s.FailureFinal := by
  obtain ⟨pre, r, post, hsplit, hpre, hpost⟩ := h.once
  intro pre' r' post' h'
  rw [hsplit] at h'
  rw [closed_split h' hpre hpost]
  exact ⟨h.state, hpost⟩

theorem Live.final {s : Session z} (h : Live s) : s.FailureFinal := by
  intro pre r post hsplit
  refine absurd ?_ (h.open' r)
  rw [hsplit]
  exact List.mem_append_right _ List.mem_cons_self

/-! ## What the calls do to either -/

theorem sinceStart_append (out : List Effect) {e : Effect}
    (he : e ≠ .started) : sinceStart (out ++ [e]) = sinceStart out ++ [e] := by
  rw [sinceStart, List.foldl_append]
  simp only [List.foldl_cons, List.foldl_nil, if_neg he]
  rfl

theorem sinceStart_started (out : List Effect) :
    sinceStart (out ++ [.started]) = [] := by
  rw [sinceStart, List.foldl_append]
  rfl

/-- `fail` where nothing was closed yet. -/
theorem Dead.first_closed {s : Session z}
    (h : ∀ r, Effect.closed r ∉ sinceStart s.out) (reason : Reason) :
    Dead (s.fail reason) := by
  have hset : ∀ r, Effect.closed r ∉ sinceStart
      (({ s with lastError := some reason } : Session z).setState .failed).out := by
    rw [Session.setState]
    split
    · exact h
    · intro r hmem
      rw [Session.emit, sinceStart_append _ (by simp)] at hmem
      rcases List.mem_append.mp hmem with hmem | hmem
      · exact h r hmem
      · simp at hmem
  refine ⟨⟨_, reason, [], ?_, hset, by simp⟩, by simp⟩
  rw [Session.fail, Session.emit, sinceStart_append _ (by simp)]

namespace Live

variable {s : Session z}

/-- A change that history does not see. -/
theorem congr {t : Session z} (h : Live s) (hout : t.out = s.out)
    (hst : t.state = s.state) : Live t :=
  ⟨by rw [hout]; exact h.open', by rw [hst]; exact h.state⟩

theorem emit (h : Live s) {e : Effect} (he : e ≠ .started)
    (hc : ∀ r, e ≠ .closed r) : Live (s.emit e) := by
  refine ⟨fun r => ?_, h.state⟩
  rw [Session.emit, sinceStart_append _ he]
  intro hmem
  rcases List.mem_append.mp hmem with hmem | hmem
  · exact h.open' r hmem
  · exact hc r (List.mem_singleton.mp hmem).symm

theorem setState (h : Live s) {st : State} (hst : st ≠ .failed) :
    Live (s.setState st) := by
  rw [Session.setState]
  split
  · exact h
  · have hset : Live (s.emit (.stateChanged st)) := h.emit (by simp) (by simp)
    exact ⟨hset.open', hst⟩

/-- `fail` on a live session is the one `closed` it gets. -/
theorem fail (h : Live s) (reason : Reason) : Dead (s.fail reason) :=
  .first_closed h.open' reason

theorem handOut (h : Live s) (frame : Frame) : Live (s.handOut frame) :=
  (h.emit (by simp) (by simp)).congr rfl rfl

theorem writeFrame (h : Live s) (link : Link) (frame : Frame) :
    Live (s.writeFrame link frame) ∨ Dead (s.writeFrame link frame) := by
  rw [Session.writeFrame]
  split
  · exact Or.inl (h.handOut frame)
  · exact Or.inr ((h.handOut frame).fail _)

theorem resize (h : Live s) (w h' : Nat) : Live (s.resize w h') :=
  (h.emit (by simp) (by simp)).congr rfl rfl

theorem showTile (h : Live s) (rect : RectHeader) (image : Option Image) :
    Live (s.showTile rect image) := by
  cases image with
  | none => exact h
  | some image => exact (h.emit (by simp) (by simp)).congr rfl rfl

end Live

theorem Dead.congr {s t : Session z} (h : Dead s) (hout : t.out = s.out)
    (hst : t.state = s.state) : Dead t :=
  ⟨by rw [hout]; exact h.once, by rw [hst]; exact h.state⟩

/-- An effect that disturbs nothing may still follow. -/
theorem Dead.emit {s : Session z} (h : Dead s) {e : Effect}
    (he : e ≠ .started) (hd : e.disturbs = false) : Dead (s.emit e) := by
  obtain ⟨pre, r, post, hsplit, hpre, hpost⟩ := h.once
  refine ⟨⟨pre, r, post ++ [e], ?_, hpre, ?_⟩, h.state⟩
  · rw [Session.emit, sinceStart_append _ he, hsplit]
    simp
  · intro x hx
    rcases List.mem_append.mp hx with hx | hx
    · exact hpost x hx
    · rw [List.mem_singleton.mp hx]
      exact hd

/-- A pinned format: with the frame refused, the session is dead and says no
more than that its format changed. -/
theorem Live.pinFormat {s : Session z} (h : Live s) (link : Link)
    (f : PixelFormat) :
    Live (s.pinFormat link f) ∨ Dead (s.pinFormat link f) := by
  have hset : Live ({ s with format := f } : Session z) := h.congr rfl rfl
  have hw := hset.writeFrame link (.setPixelFormat f)
  simp only [Session.pinFormat]
  split
  · rcases hw with hw | hw
    · exact Or.inl (hw.emit (by simp) (by simp))
    · exact Or.inr (hw.emit (by simp) rfl)
  · exact hw

/-- Neither more nor less than a session that may go on or is at its end. -/
def Settled (s : Session z) : Prop := Live s ∨ Dead s

/-! ## A round whose frames are taken -/

namespace Session

variable {s : Session z} {link : Link}

@[simp] theorem writes_emit (s : Session z) (e : Effect) :
    (s.emit e).writes = s.writes := rfl

@[simp] theorem writes_setState (s : Session z) (st : State) :
    (s.setState st).writes = s.writes := by
  rw [setState]
  split <;> rfl

@[simp] theorem writes_fail (s : Session z) (reason : Reason) :
    (s.fail reason).writes = s.writes :=
  writes_setState _ _

@[simp] theorem writes_writeFrame (link : Link) (frame : Frame)
    (s : Session z) : (s.writeFrame link frame).writes = s.writes + 1 := by
  rw [writeFrame]
  split
  · rfl
  · exact writes_fail _ _

@[simp] theorem writes_pinFormat (link : Link) (f : PixelFormat)
    (s : Session z) : (s.pinFormat link f).writes = s.writes + 1 := by
  simp only [pinFormat]
  split
  · rw [writes_emit, writes_writeFrame]
  · rw [writes_writeFrame]

@[simp] theorem writes_takeRect (n : Nat) (s : Session z) :
    (s.takeRect n).writes = s.writes := rfl

@[simp] theorem writes_configure (link : Link) (s : Session z) :
    (s.configure link).writes = s.writes + 3 := by
  simp [configure, requestFull]

@[simp] theorem pendingRects_setState (s : Session z) (st : State) :
    (s.setState st).pendingRects = s.pendingRects := by
  rw [setState]
  split <;> rfl

@[simp] theorem pendingRects_writeFrame (link : Link) (frame : Frame)
    (s : Session z) : (s.writeFrame link frame).pendingRects = s.pendingRects := by
  rw [writeFrame]
  split
  · rfl
  · exact pendingRects_setState _ _

@[simp] theorem pendingRects_pinFormat (link : Link) (f : PixelFormat)
    (s : Session z) : (s.pinFormat link f).pendingRects = s.pendingRects := by
  simp only [pinFormat]
  split
  · exact pendingRects_writeFrame _ _ _
  · exact pendingRects_writeFrame _ _ _

@[simp] theorem pendingRects_takeRect (n : Nat) (s : Session z) :
    (s.takeRect n).pendingRects = s.pendingRects - 1 := rfl

theorem writeFrame_taken (hl : link s.writes = none) (frame : Frame) :
    s.writeFrame link frame = s.writeFrame .open frame := by
  rw [writeFrame, writeFrame, hl]
  rfl

theorem pinFormat_taken (hl : link s.writes = none) (f : PixelFormat) :
    s.pinFormat link f = s.pinFormat .open f := by
  have hw := writeFrame_taken (s := { s with format := f }) hl
    (.setPixelFormat f)
  simp only [pinFormat, hw]

theorem configure_taken (hl : ∀ i, i < 3 → link (s.writes + i) = none) :
    s.configure link = s.configure .open := by
  have h0 := writeFrame_taken (hl 0 (by omega)) .setEncodings
  simp only [configure, requestFull, h0]
  generalize ht : s.writeFrame .open .setEncodings = t
  have htw : t.writes = s.writes + 1 := by rw [← ht, writes_writeFrame]
  have h1 := hl 1 (by omega)
  rw [← htw] at h1
  rw [writeFrame_taken h1]
  generalize hu : t.writeFrame .open _ = u
  have huw : u.writes = s.writes + 2 := by rw [← hu, writes_writeFrame, htw]
  have h2 := hl 2 (by omega)
  rw [← huw] at h2
  rw [writeFrame_taken h2]

/-- With its frame taken, a negotiation is the one on an open link. -/
theorem negotiate_taken {w h : Nat}
    (hl : (s.negotiatePixelFormat .open w h).1.writes = s.writes + 1 →
      link s.writes = none) :
    s.negotiatePixelFormat link w h = s.negotiatePixelFormat .open w h := by
  rcases s.negotiate_cases w h with hn | ⟨r, hn⟩ | ⟨f, hn⟩
  · rw [hn, hn]
  · rw [hn, hn]
  · rw [hn] at hl
    rw [hn, hn, pinFormat_taken (hl (writes_pinFormat _ _ _))]

theorem negotiate_writes (link : Link) (w h : Nat) (s : Session z) :
    s.writes ≤ (s.negotiatePixelFormat link w h).1.writes ∧
      (s.negotiatePixelFormat link w h).1.writes ≤ s.writes + 1 := by
  rcases s.negotiate_cases w h with hn | ⟨r, hn⟩ | ⟨f, hn⟩ <;> simp [hn]

/-- What a round of the handshake writes is what decides it: nothing else asks
the link. -/
theorem stepHandshake_taken
    (hl : ∀ i, i < (s.stepHandshake .open).1.writes - s.writes →
      link (s.writes + i) = none) :
    s.stepHandshake link = s.stepHandshake .open := by
  rw [stepHandshake] at hl
  rw [stepHandshake, stepHandshake]
  split
  · next hs =>
      simp only [hs] at hl
      split
      · rfl
      · next hlen =>
          simp only [if_neg hlen] at hl
          rw [writeFrame_taken (s := s.remove 12) (hl 0 (by simp [remove]))]
  · next hs =>
      simp only [hs] at hl
      dsimp only at hl ⊢
      split
      · rfl
      · next hlen =>
          simp only [if_neg hlen] at hl
          rw [writeFrame_taken (s := s.remove _) (hl 0 (by simp [remove]))]
  · next hs =>
      simp only [hs] at hl
      generalize tryParseSecurityResult s.inbox = r at hl ⊢
      obtain ⟨ok, n⟩ := r
      dsimp only at hl ⊢
      split
      · rfl
      · next hlen =>
          simp only [if_neg hlen] at hl
          split
          · rfl
          · next hok =>
              simp only [if_neg hok] at hl
              rw [writeFrame_taken (s := s.remove n) (hl 0 (by simp [remove]))]
  · next hs =>
      simp only [hs] at hl
      split
      · rfl
      · next info n hinfo =>
          simp only [hinfo] at hl
          dsimp only
          generalize ht : (s.remove n).resize info.width info.height = t
            at hl ⊢
          have htw : t.writes = s.writes := by rw [← ht]; rfl
          have hw := negotiate_writes .open info.width info.height t
          have hpin := @negotiate_taken z t link info.width info.height
          generalize t.negotiatePixelFormat .open info.width info.height = r
            at hl hw hpin ⊢
          obtain ⟨u, fits⟩ := r
          simp only [htw] at hw hpin
          rw [hpin fun hone => hl 0 (by cases fits <;> simp <;> omega)]
          cases fits with
          | false => rfl
          | true =>
              simp only [writes_configure] at hl ⊢
              rw [configure_taken fun i hi => ?_]
              have hlast := hl (u.writes - s.writes + i) (by omega)
              rwa [show s.writes + (u.writes - s.writes + i) =
                u.writes + i by omega] at hlast
  · rfl

end Session

/-! ## A round keeps a session settled -/

namespace Live

variable {s : Session z}

theorem handOut_open (h : Live s) (frame : Frame) :
    Live (s.writeFrame .open frame) := h.handOut frame

theorem pinFormat_open (h : Live s) (f : PixelFormat) :
    Live (s.pinFormat .open f) := by
  have hset : Live ({ s with format := f } : Session z) := h.congr rfl rfl
  have hw := hset.handOut_open (.setPixelFormat f)
  simp only [Session.pinFormat]
  split
  · exact hw.emit (by simp) (by simp)
  · exact hw

theorem configure_open (h : Live s) : Live (s.configure .open) := by
  have hreq := ((h.handOut_open .setEncodings).handOut_open
    (.kvmExtCmd 4 (if s.compressionEnabled then 1 else 0))).handOut_open
    (.framebufferUpdateRequest false 0 0 s.width s.height)
  exact hreq.setState (by simp)

theorem stepHandshake_open (h : Live s) : Settled (s.stepHandshake .open).1 := by
  have hrm : ∀ n, Live (s.remove n) := fun n => h.congr rfl rfl
  rw [Session.stepHandshake]
  split
  · split
    · exact Or.inl h
    · exact Or.inl (((hrm _).handOut_open _).setState (by simp))
  · dsimp only
    split
    · exact Or.inl h
    · exact Or.inl (((hrm _).handOut_open _).setState (by simp))
  · split
    split
    · exact Or.inl h
    · split
      · exact Or.inr (h.fail _)
      · exact Or.inl (((hrm _).handOut_open _).setState (by simp))
  · split
    · exact Or.inl h
    · next info n _ =>
        have hres := (hrm n).resize info.width info.height
        rcases ((s.remove n).resize info.width info.height).negotiate_cases
          info.width info.height with hn | ⟨r, hn⟩ | ⟨f, hn⟩
        · simp only [hn]
          exact Or.inl hres.configure_open
        · simp only [hn]
          exact Or.inr (hres.fail r)
        · simp only [hn]
          exact Or.inl (hres.pinFormat_open f).configure_open
  · exact Or.inl h

/-- A rectangle off the update, and the request if it was the last: that one
may be refused, there is nothing after it. -/
theorem request (h : Live s) (link : Link) (n : Nat) (frame : Frame) :
    Settled (if (s.takeRect n).pendingRects = 0 then
      (s.takeRect n).writeFrame link frame else s.takeRect n) := by
  have htake : Live (s.takeRect n) := h.congr rfl rfl
  split
  · exact htake.writeFrame link frame
  · exact Or.inl htake

theorem applyRect (h : Live s) (link : Link) (rect : RectHeader) (n : Nat)
    (dr : DecodedRect)
    (hl : ∀ i, i + 1 < (s.applyRect .open rect n dr).1.writes - s.writes →
      link (s.writes + i) = none) :
    Settled (s.applyRect link rect n dr).1 := by
  rw [Session.applyRect] at hl ⊢
  split
  · next hsize =>
      rw [if_pos hsize] at hl
      have hres := h.resize rect.w rect.h
      generalize hu : s.resize rect.w rect.h = u at hl hres ⊢
      have huw : u.writes = s.writes := by rw [← hu]; rfl
      rcases u.negotiate_cases rect.w rect.h with hn | ⟨r, hn⟩ | ⟨f, hn⟩
      · simp only [hn]
        exact hres.request link n _
      · simp only [hn]
        exact Or.inr (hres.fail r)
      · simp only [hn] at hl ⊢
        by_cases hlast : ((u.pinFormat link f).takeRect n).pendingRects = 0
        · have hlast' : ((u.pinFormat .open f).takeRect n).pendingRects = 0 := by
            simpa using hlast
          have htaken : link u.writes = none := by
            rw [huw]
            refine hl 0 ?_
            rw [if_pos hlast', Session.requestFull, Session.writes_writeFrame,
              Session.writes_takeRect, Session.writes_pinFormat, huw]
            omega
          rw [Session.pinFormat_taken htaken]
          exact (hres.pinFormat_open f).request link n _
        · rw [if_neg hlast]
          rcases hres.pinFormat link f with ht | ht
          · exact Or.inl (ht.congr rfl rfl)
          · exact Or.inr (ht.congr rfl rfl)
  · exact (h.showTile rect dr.image).request link n _

theorem stepRect (h : Live s) (link : Link)
    (hl : ∀ i, i + 1 < (s.stepRect .open).1.writes - s.writes →
      link (s.writes + i) = none) :
    Settled (s.stepRect link).1 := by
  rw [Session.stepRect] at hl ⊢
  split
  · exact Or.inl h
  · next rect rc hrect =>
      simp only [hrect] at hl
      generalize tryDecodeRect (s.inbox.drop rc) rect (some s.inflate)
        s.format = d at hl ⊢
      have hset : Live ({ s with inflate := d.inflate.getD s.inflate } :
          Session z) := h.congr rfl rfl
      rw [Session.onDecoding] at hl ⊢
      split
      · exact Or.inl hset
      · exact Or.inr (hset.fail _)
      · exact Or.inr (hset.fail _)
      · exact Or.inr (hset.fail _)
      · next hok =>
          simp only [hok] at hl
          exact hset.applyRect link rect _ _ hl

theorem stepMessage (h : Live s) : Settled s.stepMessage.1 := by
  have hrm : ∀ n, Live (s.remove n) := fun n => h.congr rfl rfl
  simp only [Session.stepMessage]
  split
  · split
    · exact Or.inl h
    · exact Or.inl (h.congr rfl rfl)
  · split
    · exact Or.inl ((hrm 1).emit (by simp) (by simp))
    · split
      · split
        · exact Or.inl h
        · split
          · exact Or.inr (h.fail _)
          · split
            · exact Or.inl h
            · exact Or.inl (hrm _)
      · exact Or.inr (h.fail _)

theorem step (h : Live s) {link : Link} (hl : s.Taken link) :
    Settled (s.step link).1 := by
  have hshake (hs : s.state ≠ .frameLoop)
      (hopen : s.step .open = s.stepHandshake .open) :
      Settled (s.stepHandshake link).1 := by
    have heq : s.stepHandshake link = s.stepHandshake .open :=
      s.stepHandshake_taken fun i hi => hl i (by rw [if_neg hs, Session.roundWrites, hopen]; exact hi)
    rw [heq]
    exact h.stepHandshake_open
  rw [Session.step]
  split
  · next hs => exact hshake (by simp [hs]) (by rw [Session.step, hs])
  · next hs => exact hshake (by simp [hs]) (by rw [Session.step, hs])
  · next hs => exact hshake (by simp [hs]) (by rw [Session.step, hs])
  · next hs => exact hshake (by simp [hs]) (by rw [Session.step, hs])
  · next hs =>
      rw [Session.stepFrameLoop]
      split
      · next hp =>
          refine h.stepRect link fun i hi => hl i ?_
          rw [if_pos hs, Session.roundWrites, Session.step, hs,
            Session.stepFrameLoop, if_pos hp]
          exact hi
      · split
        · exact Or.inl h
        · exact h.stepMessage
  · exact Or.inl h
  · exact Or.inl h

end Live

/-- A failed session's drain does nothing. -/
theorem Dead.step {s : Session z} (h : Dead s) (link : Link) :
    s.step link = (s, false) := by
  rw [Session.step, h.state]

theorem Settled.drainSteps {s : Session z} (h : Settled s) {link : Link}
    {n : Nat} (hl : ∀ t ∈ Session.roundHeads link n s, t.Taken link) :
    Settled (s.drainSteps link n).1 := by
  induction n generalizing s with
  | zero => exact h
  | succ n ih =>
      rw [Session.drainSteps]
      rw [Session.roundHeads] at hl
      rcases h with h | h
      · have hstep := h.step (hl s List.mem_cons_self)
        split
        · next t ht =>
            rw [ht] at hstep
            refine ih hstep fun u hu => hl u (List.mem_cons_of_mem _ ?_)
            rw [ht]
            exact hu
        · next t ht =>
            rw [ht] at hstep
            exact hstep
      · rw [h.step]
        exact Or.inr h

theorem Settled.drainInbox {s : Session z} (h : Settled s) {link : Link}
    (hl : ∀ t ∈ Session.roundHeads link Session.kMaxStepsPerCall s,
      t.Taken link) : Settled (s.drainInbox link).1 := by
  have hdrain := h.drainSteps hl
  rw [Session.drainInbox]
  split <;> next hd => rw [hd] at hdrain; exact hdrain

theorem Settled.congr {s t : Session z} (h : Settled s) (hout : t.out = s.out)
    (hst : t.state = s.state) : Settled t := by
  rcases h with h | h
  · exact Or.inl (h.congr hout hst)
  · exact Or.inr (h.congr hout hst)

/-- What the controller sends goes out in `FrameLoop` only, so from a live
session. -/
theorem Settled.send {s : Session z} (h : Settled s) (link : Link)
    (frame : Frame) {t : Session z}
    (ht : t = if s.state ≠ .frameLoop then s else s.writeFrame link frame) :
    Settled t := by
  rw [ht]
  split
  · exact h
  · next hs =>
      rcases h with h | h
      · exact h.writeFrame link frame
      · rw [h.state] at hs
        simp at hs

/-- A start forgets whatever was before. -/
theorem settled_start (authenticated compression : Bool) (s : Session z) :
    Settled (s.start authenticated compression) := by
  have hnew : sinceStart (s.emit .started).out = [] := sinceStart_started _
  have hnone : ∀ r, Effect.closed r ∉ sinceStart (s.emit .started).out := by
    rw [hnew]
    simp
  simp only [Session.start]
  split
  · exact Or.inr (.first_closed hnone _)
  · refine Or.inl ⟨fun r hmem => ?_, by simp⟩
    rw [Session.setState] at hmem
    split at hmem
    · exact hnone r hmem
    · rw [Session.emit, sinceStart_append _ (by simp)] at hmem
      rcases List.mem_append.mp hmem with hmem | hmem
      · exact hnone r hmem
      · simp at hmem

open Session in
/-- One event. -/
theorem Loop.handle_settled {link : Link} {l : Loop z}
    {past : List (Loop z × Event)} (e : Event) (h : Settled l.session)
    (hl : LinkTakes link past l e) : Settled (l.handle link e).session := by
  cases e with
  | rawBytes chunk => 
      have hfeed : Settled (l.session.feed chunk) := h.congr rfl rfl
      exact hfeed.drainInbox hl
  | continuation =>
      simp only [Loop.handle]
      split
      · exact h
      · next hq => exact h.drainInbox (hl hq)
  | setPreferredPixelFormat f => exact h.congr rfl rfl
  | start authenticated compression => exact settled_start _ _ _
  | clientFailed reason =>
      rcases h with h | h
      · exact Or.inr (h.fail _)
      · exact absurd h.state hl
  | sendKey keysym down => exact h.send link _ rfl
  | sendPointer buttonMask x y => exact h.send link _ rfl
  | sendCtrlAltDel =>
      have hkeys := @sendCtrlAltDel_keeps z link Settled
        (fun _ _ _ hs => hs.send link _ rfl) _ h
      simp only [Loop.handle]
      exact hkeys
  | requestFullRefresh => exact h.send link _ rfl

/-- In every run in which the link takes the frames of the handshake rounds,
and of the rounds of the frame loop all but the last, and the client does not
fail under a failed session: whatever came after a `closed` disturbs nothing,
and the session is in `Failed` until the next `start`. -/
theorem failure_is_final (link : Link) (es : List Event)
    (hg : Guarded (Loop.handle link) (LinkTakes link) ({} : Loop z) es) :
    (run (Loop.handle link) ({} : Loop z) es).session.FailureFinal := by
  have hsettled : Settled (run (Loop.handle link) ({} : Loop z) es).session :=
    hg.invariant (fun l => Settled l.session)
      (fun _ _ e h hl => Loop.handle_settled e h hl)
      (Or.inl ⟨fun _ => by simp [sinceStart], by simp⟩)
  rcases hsettled with h | h
  · exact h.final
  · exact h.final

/-- The frame `lost` is refused, every other taken. -/
def Link.losing (lost : Nat) : Link := fun n =>
  if n = lost then some "Connection reset by peer" else none

/-- The answer to the server's version is refused: the session is closed, and
goes on in `Security`. -/
theorem failure_is_overwritten :
    ¬ (run (Loop.handle (.losing 0)) ({} : Loop .stored)
      [.start true true, .rawBytes (List.replicate 12 1)]).session.FailureFinal := by
  intro h
  have hout : sinceStart (run (Loop.handle (.losing 0)) ({} : Loop .stored)
      [.start true true, .rawBytes (List.replicate 12 1)]).session.out =
      [.stateChanged .version, .wrote .versionResponse, .stateChanged .failed] ++
        .closed (.writeFailed "Connection reset by peer") ::
          [.stateChanged .security] := by
    decide
  exact absurd (h _ _ _ hout).1 (by decide)

/-- In the frame loop the refused answer to an update is the end, with the
bell behind it left unread. -/
theorem failure_is_final_lost_request :
    (run (Loop.handle (.losing 7)) ({} : Loop .stored)
      [.start true true, .rawBytes (List.replicate 14 1),
        .rawBytes [0, 0, 0, 0],
        .rawBytes ([0, 8, 0, 8] ++ List.replicate 20 0),
        .rawBytes ([0, 0, 0, 1] ++ List.replicate 12 0 ++ [2])]).session.FailureFinal :=
  failure_is_final (.losing 7) _ (by decide)

end QuMesh.Kvm
