import QuMesh.Proofs.FormatAgreement

/-!
# The repaint that a resize needs

Behind an update in which the desktop changed its size the session needs the
whole picture again. Which request goes out is decided in the branch that takes
the last rectangle of the update: a `DesktopSize` there asks for everything, and
any other rectangle for what changed since. A resize further to the front is
forgotten by then.

What an update consisted of is not in the session. `Progress` keeps it beside
the session: the rectangles taken since the update began. The rounds of a drain
are turns of their own here, because one drain may end an update and begin the
next; `handle_turns` takes the events apart into them.
-/

namespace QuMesh.Kvm

open QuMesh.Lib

variable {z : Zlib}

/-- What the event loop has a session do, with the rounds of its drains. -/
inductive Turn
  | round
  | feed (chunk : Bytes)
  | start (authenticated compression : Bool)
  | clientFailed (reason : String)
  | setPreferredPixelFormat (f : Option PixelFormat)
  | sendKey (keysym : UInt32) (down : Bool)
  | sendPointer (buttonMask : UInt8) (x y : UInt16)
  | requestFullRefresh
  deriving DecidableEq, Repr

namespace Session

def turn (link : Link) (s : Session z) : Turn → Session z
  | .round => (s.step link).1
  | .feed chunk => s.feed chunk
  | .start authenticated compression => s.start authenticated compression
  | .clientFailed reason => s.fail (.client reason)
  | .setPreferredPixelFormat f => { s with preferredFormat := f }
  | .sendKey keysym down => s.sendKey link keysym down
  | .sendPointer buttonMask x y => s.sendPointer link buttonMask x y
  | .requestFullRefresh => s.requestFullRefresh link

theorem drainSteps_turns (link : Link) (n : Nat) (s : Session z) :
    ∃ ts, (s.drainSteps link n).1 = run (turn link) s ts := by
  induction n generalizing s with
  | zero => exact ⟨[], rfl⟩
  | succ n ih =>
      have hround : s.turn link .round = (s.step link).1 := rfl
      rw [drainSteps]
      split
      next t ht =>
        obtain ⟨ts, hts⟩ := ih t
        refine ⟨.round :: ts, ?_⟩
        rw [run_cons, hround, ht, hts]
      next t ht =>
        refine ⟨[.round], ?_⟩
        rw [run_cons, hround, ht, run_nil]

theorem drainInbox_turns (link : Link) (s : Session z) :
    ∃ ts, (s.drainInbox link).1 = run (turn link) s ts := by
  obtain ⟨ts, hts⟩ := drainSteps_turns link kMaxStepsPerCall s
  refine ⟨ts, ?_⟩
  rw [← hts, drainInbox]
  split
  next t ht => rw [ht]
  next t ht => rw [ht]

end Session

/-- An event is turns of its session. -/
theorem Loop.handle_turns (link : Link) (l : Loop z) (e : Event) :
    ∃ ts, (l.handle link e).session = run (Session.turn link) l.session ts := by
  cases e with
  | rawBytes chunk =>
      obtain ⟨ts, hts⟩ := (l.session.feed chunk).drainInbox_turns link
      exact ⟨.feed chunk :: ts, hts⟩
  | continuation =>
      rw [Loop.handle]
      split
      · exact ⟨[], rfl⟩
      · exact l.session.drainInbox_turns link
  | setPreferredPixelFormat f => exact ⟨[.setPreferredPixelFormat f], rfl⟩
  | start authenticated compression =>
      exact ⟨[.start authenticated compression], rfl⟩
  | clientFailed reason => exact ⟨[.clientFailed reason], rfl⟩
  | sendKey keysym down => exact ⟨[.sendKey keysym down], rfl⟩
  | sendPointer buttonMask x y => exact ⟨[.sendPointer buttonMask x y], rfl⟩
  | sendCtrlAltDel =>
      have hkeys := @Session.sendCtrlAltDel_keeps z link
        (fun s => ∃ ts, s = run (Session.turn link) l.session ts)
        (fun s keysym down hs => by
          obtain ⟨ts, rfl⟩ := hs
          refine ⟨ts ++ [.sendKey keysym down], ?_⟩
          rw [run_append]
          rfl) l.session ⟨[], rfl⟩
      simp only [Loop.handle]
      exact hkeys
  | requestFullRefresh => exact ⟨[.requestFullRefresh], rfl⟩

/-! ## The rectangles of an update -/

def RectHeader.resizes (r : RectHeader) : Bool := r.encoding == encDesktopSize

/-- The size that was announced last. -/
def announced (rects : List RectHeader) : Option (Nat × Nat) :=
  (rects.filter RectHeader.resizes).getLast?.map fun r => (r.w, r.h)

theorem announced_append (rects : List RectHeader) (r : RectHeader) :
    announced (rects ++ [r]) =
      if r.resizes then some (r.w, r.h) else announced rects := by
  unfold announced
  rw [List.filter_append]
  by_cases hr : r.resizes = true
  · simp [hr]
  · simp [hr]

namespace Session

/-- The rectangle the next round takes. -/
def nextRect (link : Link) (s : Session z) : Option RectHeader :=
  if s.state = .frameLoop ∧ 0 < s.pendingRects ∧ (s.step link).2 = true then
    (tryParseRectHeader s.inbox).map Prod.fst
  else none

end Session

/-- A session and the rectangles taken of the update it is in. -/
structure Progress (z : Zlib) where
  session : Session z := {}
  rects : List RectHeader := []

namespace Progress

def turn (link : Link) (p : Progress z) (t : Turn) : Progress z :=
  { session := p.session.turn link t
    rects :=
      match t with
      | .round =>
          if p.session.pendingRects = 0 then []
          else p.rects ++ (p.session.nextRect link).toList
      | .start .. => []
      | _ => p.rects }

end Progress

/-! ## One rectangle -/

def Frame.isRequest : Frame → Bool
  | .framebufferUpdateRequest .. => true
  | _ => false

theorem tryDecodeRect_resizes (payload : Bytes) (rect : RectHeader)
    (inflate : Option (InflateStream z)) (format : PixelFormat) :
    (tryDecodeRect payload rect inflate format).rect.isDesktopSize =
      rect.resizes := by
  have htile (argb : Option (List UInt32)) (n : Nat)
      (stream : Option (InflateStream z)) :
      (tileDecoding argb rect n stream).rect.isDesktopSize = false := by
    cases argb <;> rfl
  unfold tryDecodeRect RectHeader.resizes
  split
  next henc => simp [henc]
  next henc =>
    have hno : (rect.encoding == encDesktopSize) = false := by simpa using henc
    rw [hno]
    repeat' first | rfl | split
    unfold decodeRle
    dsimp only
    repeat' first | rfl | exact htile _ _ _ | split

namespace Session

/-- From `s` to `t` only frames were written, none of them a request, and the
session may have failed. -/
structure Prepared (s t : Session z) : Prop where
  width : t.width = s.width
  height : t.height = s.height
  pendingRects : t.pendingRects = s.pendingRects
  state : t.state = s.state ∨ t.state = .failed
  frames : ∃ fs, t.frames = s.frames ++ fs ∧
    ∀ f ∈ fs, f.isRequest = false

variable {s t u : Session z}

theorem Prepared.refl (s : Session z) : s.Prepared s where
  width := rfl
  height := rfl
  pendingRects := rfl
  state := .inl rfl
  frames := ⟨[], by simp, by simp⟩

theorem Prepared.trans (h : s.Prepared t) (h' : t.Prepared u) :
    s.Prepared u where
  width := h'.width.trans h.width
  height := h'.height.trans h.height
  pendingRects := h'.pendingRects.trans h.pendingRects
  state := by
    rcases h'.state with hu | hu
    · rw [hu]
      exact h.state
    · exact .inr hu
  frames := by
    obtain ⟨fs, hfs, hno⟩ := h.frames
    obtain ⟨gs, hgs, hno'⟩ := h'.frames
    refine ⟨fs ++ gs, by rw [hgs, hfs, List.append_assoc], fun f hf => ?_⟩
    rcases List.mem_append.mp hf with hf | hf
    · exact hno f hf
    · exact hno' f hf

theorem Prepared.emit (s : Session z) {e : Effect} (he : e.frame = none) :
    s.Prepared (s.emit e) where
  width := rfl
  height := rfl
  pendingRects := rfl
  state := .inl rfl
  frames := ⟨[], by rw [frames_emit s he, List.append_nil], by simp⟩

theorem frames_fail (reason : Reason) (s : Session z) :
    (s.fail reason).frames = s.frames := by
  rw [Session.fail, frames_emit _ rfl, Session.setState]
  split
  · rfl
  · exact frames_emit ({ s with lastError := some reason, state := .failed } :
      Session z) rfl

theorem desktop_setState (st : State) (s : Session z) :
    (s.setState st).width = s.width ∧ (s.setState st).height = s.height ∧
      (s.setState st).pendingRects = s.pendingRects := by
  rw [Session.setState]
  split <;> exact ⟨rfl, rfl, rfl⟩

theorem Prepared.fail (s : Session z) (reason : Reason) :
    s.Prepared (s.fail reason) := by
  obtain ⟨hw, hh, hp⟩ := desktop_setState .failed
    ({ s with lastError := some reason } : Session z)
  exact ⟨hw, hh, hp, .inr (by simp), [],
    by rw [frames_fail, List.append_nil], by simp⟩

theorem frames_handOut (frame : Frame) (s : Session z) :
    (s.handOut frame).frames = s.frames ++ [frame] := by
  simp [frames, handOut, Session.emit, Effect.frame]

/-- A frame that is not a request. -/
theorem Prepared.writeFrame (link : Link) {frame : Frame} (s : Session z)
    (hframe : frame.isRequest = false) :
    s.Prepared (s.writeFrame link frame) := by
  have hout : s.Prepared (s.handOut frame) :=
    ⟨rfl, rfl, rfl, .inl rfl, [frame], frames_handOut frame s,
      by simpa using hframe⟩
  rw [Session.writeFrame]
  split
  · exact hout
  · exact hout.trans (.fail _ _)

theorem Prepared.pinFormat (link : Link) (f : PixelFormat) (s : Session z) :
    s.Prepared (s.pinFormat link f) := by
  have h := @Prepared.writeFrame z link (.setPixelFormat f)
    ({ s with format := f } : Session z) rfl
  have h : s.Prepared (({ s with format := f } : Session z).writeFrame link
      (.setPixelFormat f)) :=
    ⟨h.width, h.height, h.pendingRects, h.state, h.frames⟩
  rw [Session.pinFormat]
  split
  · exact h.trans (Prepared.emit _ rfl)
  · exact h

theorem Prepared.negotiate (link : Link) (w h : Nat) (s : Session z) :
    s.Prepared (s.negotiatePixelFormat link w h).1 := by
  rcases s.negotiate_cases w h with hneg | ⟨reason, hneg⟩ | ⟨f, hneg⟩
  · rw [hneg]
    exact .refl s
  · rw [hneg]
    exact .fail s reason
  · rw [hneg]
    exact .pinFormat link f s

/-- The first request among the frames written on the way from `s` to `t`. -/
def firstRequest (s t : Session z) : Option Frame :=
  (t.frames.drop s.frames.length).find? Frame.isRequest

theorem frames_writeFrame (link : Link) (frame : Frame) (s : Session z) :
    (s.writeFrame link frame).frames = s.frames ++ [frame] := by
  rw [Session.writeFrame]
  split
  · exact frames_handOut frame s
  · rw [frames_fail, frames_handOut]

theorem firstRequest_writeFrame (h : ∃ fs, t.frames = s.frames ++ fs ∧
      ∀ f ∈ fs, f.isRequest = false) (link : Link) (incremental : Bool)
    (w h' : Nat) :
    firstRequest s
        (t.writeFrame link (.framebufferUpdateRequest incremental 0 0 w h')) =
      some (.framebufferUpdateRequest incremental 0 0 w h') := by
  obtain ⟨fs, hfs, hno⟩ := h
  have hnone : fs.find? Frame.isRequest = none := by
    rw [List.find?_eq_none]
    intro f hf
    simp [hno f hf]
  unfold firstRequest
  rw [frames_writeFrame, hfs, List.append_assoc, List.drop_left,
    List.find?_append, hnone]
  rfl

/-- The desktop's size and the rectangles left are not the link's. -/
theorem writeFrame_desktop (link : Link) (frame : Frame) (s : Session z) :
    (s.writeFrame link frame).width = s.width ∧
      (s.writeFrame link frame).height = s.height ∧
      (s.writeFrame link frame).pendingRects = s.pendingRects := by
  rw [Session.writeFrame]
  split
  · exact ⟨rfl, rfl, rfl⟩
  next error _ =>
    have h := Prepared.fail (s.handOut frame) (.writeFailed error)
    exact ⟨h.width, h.height, h.pendingRects⟩

theorem state_writeFrame (link : Link) (frame : Frame) (s : Session z) :
    (s.writeFrame link frame).state = s.state ∨
      (s.writeFrame link frame).state = .failed := by
  rw [Session.writeFrame]
  split
  · exact .inl rfl
  · exact .inr (by simp)

/-- A rectangle is taken, and the desktop has this size. If it was the last one
a request goes out. -/
structure RectTaken (s : Session z) (desktop : Nat × Nat) (incremental : Bool)
    (t : Session z) : Prop where
  pendingRects : t.pendingRects = s.pendingRects - 1
  state : t.state = s.state ∨ t.state = .failed
  size : (t.width, t.height) = desktop
  request : s.pendingRects = 1 → firstRequest s t =
    some (.framebufferUpdateRequest incremental 0 0 desktop.1 desktop.2)

theorem Prepared.takeRect (h : s.Prepared t) (link : Link) (n : Nat)
    (incremental : Bool) :
    s.RectTaken (s.width, s.height) incremental
      (if (t.takeRect n).pendingRects = 0 then
        (t.takeRect n).writeFrame link (.framebufferUpdateRequest incremental 0 0
          (t.takeRect n).width (t.takeRect n).height)
      else t.takeRect n) := by
  have hw : (t.takeRect n).width = s.width := h.width
  have hh : (t.takeRect n).height = s.height := h.height
  have hp : (t.takeRect n).pendingRects = s.pendingRects - 1 :=
    congrArg (· - 1) h.pendingRects
  rw [hw, hh, hp]
  split
  next hlast =>
    obtain ⟨hw', hh', hp'⟩ := writeFrame_desktop link
      (.framebufferUpdateRequest incremental 0 0 s.width s.height) (t.takeRect n)
    refine ⟨hp'.trans hp, ?_, by rw [hw', hh', hw, hh], fun _ => ?_⟩
    · rcases (t.takeRect n).state_writeFrame link
        (.framebufferUpdateRequest incremental 0 0 s.width s.height) with hst | hst
      · rw [hst]
        exact h.state
      · exact .inr hst
    · exact firstRequest_writeFrame (t := t.takeRect n) h.frames link
        incremental s.width s.height
  next hmore =>
    exact ⟨hp, h.state, by rw [hw, hh], fun hone => by omega⟩

theorem applyRect_taken {link : Link} {rect : RectHeader} {n : Nat}
    {dr : DecodedRect} (h : s.applyRect link rect n dr = (t, true)) :
    s.RectTaken (if dr.isDesktopSize then (rect.w, rect.h)
      else (s.width, s.height)) (!dr.isDesktopSize) t := by
  rw [applyRect] at h
  split at h
  next hresize =>
    have hprep := Prepared.negotiate link rect.w rect.h (s.resize rect.w rect.h)
    have hframes : (s.resize rect.w rect.h).frames = s.frames :=
      frames_emit ({ s with width := rect.w, height := rect.h } : Session z) rfl
    split at h
    · cases h
    next v hv =>
      rw [hv] at hprep
      cases h
      have htaken := hprep.takeRect link n false
      rw [if_pos hresize, hresize]
      refine ⟨htaken.pendingRects, htaken.state, htaken.size, fun hone => ?_⟩
      have hreq := htaken.request hone
      unfold firstRequest at hreq ⊢
      rw [hframes] at hreq
      exact hreq
  next hpicture =>
    cases h
    have hprep : s.Prepared (s.showTile rect dr.image) := by
      cases dr.image with
      | none => exact .refl s
      | some image =>
          have he := Prepared.emit ({ s with
            decoded := s.decoded ++ [(rect, s.format)] } : Session z)
            (e := .tileUpdated rect.x rect.y image) rfl
          exact ⟨he.width, he.height, he.pendingRects, he.state, he.frames⟩
    have hno : dr.isDesktopSize = false := by simpa using hpicture
    rw [if_neg hpicture, hno]
    exact hprep.takeRect link n true

theorem applyRect_false {link : Link} {rect : RectHeader} {n : Nat}
    {dr : DecodedRect} (h : s.applyRect link rect n dr = (t, false)) :
    t.state = .failed := by
  rw [applyRect] at h
  split at h
  · split at h
    next v hv =>
      cases h
      exact negotiate_false hv
    · cases h
  · cases h

/-- What a round inside an update does: it takes a rectangle, or it leaves the
desktop and the rectangles as they are, or it fails. -/
theorem stepRect_cases (link : Link) (s : Session z) :
    (∃ rect n, tryParseRectHeader s.inbox = some (rect, n) ∧
      (s.stepRect link).2 = true ∧
      s.RectTaken (if rect.resizes then (rect.w, rect.h)
        else (s.width, s.height)) (!rect.resizes) (s.stepRect link).1) ∨
    ((s.stepRect link).2 = false ∧ ((s.stepRect link).1.state = .failed ∨
      s.Prepared (s.stepRect link).1)) := by
  rw [stepRect]
  cases hparse : tryParseRectHeader s.inbox with
  | none => exact .inr ⟨rfl, .inr (.refl s)⟩
  | some p =>
      obtain ⟨rect, n⟩ := p
      dsimp only
      have hresizes := tryDecodeRect_resizes (s.inbox.drop n) rect
        (some s.inflate) s.format
      generalize tryDecodeRect (s.inbox.drop n) rect (some s.inflate)
        s.format = d at hresizes
      have hfailed (v : Session z) (reason : Reason) :
          (v.fail reason).state = .failed := by simp
      cases hstatus : d.status with
      | needMore =>
          simp only [onDecoding, hstatus]
          exact .inr ⟨trivial, .inr ⟨rfl, rfl, rfl, .inl rfl, [],
            by simp [frames], by simp⟩⟩
      | ok =>
          simp only [onDecoding, hstatus]
          cases happly : ({ s with inflate := d.inflate.getD s.inflate } :
              Session z).applyRect link rect (n + d.consumed) d.rect with
          | mk t went =>
              cases went with
              | false => exact .inr ⟨rfl, .inl (applyRect_false happly)⟩
              | true =>
                  have htaken := applyRect_taken happly
                  rw [hresizes] at htaken
                  exact .inl ⟨rect, n, rfl, rfl, htaken.pendingRects,
                    htaken.state, htaken.size, htaken.request⟩
      | _ =>
          simp only [onDecoding, hstatus]
          exact .inr ⟨trivial, .inl (hfailed _ _)⟩

end Session

/-! ## A run -/

namespace Progress

/-- In the frame loop the desktop has the size that was announced last. Before
that no rectangle is taken. -/
structure Kept (p : Progress z) : Prop where
  sized : p.session.state = .frameLoop → ∀ size, announced p.rects = some size →
    (p.session.width, p.session.height) = size
  handshake : p.session.state ≠ .frameLoop → p.session.state ≠ .failed →
    p.rects = []

variable {p : Progress z}

theorem kept_nil (s : Session z) : Kept { session := s, rects := [] } where
  sized := by
    intro _ size h
    cases h
  handshake := fun _ _ => rfl

theorem kept_failed {s : Session z} (hs : s.state = .failed)
    (rects : List RectHeader) : Kept { session := s, rects } where
  sized := by
    intro h
    rw [hs] at h
    cases h
  handshake := fun _ h => absurd hs h

/-- What leaves the state and the desktop keeps. -/
theorem Kept.same (h : p.Kept) {s : Session z} (hs : s.state = p.session.state)
    (hw : s.width = p.session.width) (hh : s.height = p.session.height) :
    Kept { session := s, rects := p.rects } where
  sized := by
    intro hst size hsize
    have := h.sized (hs.symm.trans hst) size hsize
    rw [← this, ← hw, ← hh]
  handshake := fun hst hf => h.handshake (hs ▸ hst) (hs ▸ hf)

theorem Kept.writeFrame (h : p.Kept) (link : Link) (frame : Frame) :
    Kept { session := p.session.writeFrame link frame, rects := p.rects } := by
  obtain ⟨hw, hh, -⟩ := p.session.writeFrame_desktop link frame
  rcases p.session.state_writeFrame link frame with hs | hs
  · exact h.same hs hw hh
  · exact kept_failed hs p.rects

theorem nextRect_out {link : Link} {s : Session z} (hs : s.state ≠ .frameLoop) :
    s.nextRect link = none :=
  if_neg fun h => hs h.1

/-- A round inside an update. -/
theorem step_inside {s : Session z} (hs : s.state = .frameLoop)
    (hp : 0 < s.pendingRects) (link : Link) : s.step link = s.stepRect link := by
  rw [Session.step, hs]
  exact if_pos hp

/-- A rectangle that is taken goes to the end of the update's. -/
theorem nextRect_taken {link : Link} {s : Session z} {rect : RectHeader}
    {n : Nat} (hs : s.state = .frameLoop) (hp : 0 < s.pendingRects)
    (hparse : tryParseRectHeader s.inbox = some (rect, n))
    (hwent : (s.stepRect link).2 = true) : s.nextRect link = some rect := by
  unfold Session.nextRect
  rw [step_inside hs hp, if_pos ⟨hs, hp, hwent⟩, hparse]
  rfl

theorem Kept.round (h : p.Kept) (link : Link) : (p.turn link .round).Kept := by
  by_cases hnone : p.session.pendingRects = 0
  · have hrects : (p.turn link .round).rects = [] := if_pos hnone
    have hkept := kept_nil (p.turn link .round).session
    rw [← hrects] at hkept
    exact hkept
  have hp : 0 < p.session.pendingRects := by omega
  have hrects : (p.turn link .round).rects =
      p.rects ++ (p.session.nextRect link).toList := if_neg hnone
  have hsession : (p.turn link .round).session = (p.session.step link).1 := rfl
  by_cases hs : p.session.state = .frameLoop
  · rw [step_inside hs hp] at hsession
    rcases p.session.stepRect_cases link with
      ⟨rect, n, hparse, hwent, htaken⟩ | ⟨hwent, hfailed | hprep⟩
    · rw [nextRect_taken hs hp hparse hwent, Option.toList_some] at hrects
      have hsize := htaken.size
      refine ⟨fun _ size hsize' => ?_, fun hst hf => ?_⟩
      · rw [hrects, announced_append] at hsize'
        rw [hsession, hsize]
        split
        next hresizes =>
          rw [if_pos hresizes] at hsize'
          exact Option.some.inj hsize'
        next hstays =>
          rw [if_neg hstays] at hsize'
          exact h.sized hs size hsize'
      · rw [hsession] at hst hf
        rcases htaken.state with hstate | hstate
        · exact absurd (hstate.trans hs) hst
        · exact absurd hstate hf
    · rw [← hsession] at hfailed
      exact kept_failed hfailed _
    · have hnext : p.session.nextRect link = none := by
        unfold Session.nextRect
        rw [step_inside hs hp, hwent]
        simp
      rw [hnext, Option.toList_none, List.append_nil] at hrects
      rw [← hsession] at hprep
      rcases hprep.state with hstate | hstate
      · have hsame := h.same hstate hprep.width hprep.height
        rw [← hrects] at hsame
        exact hsame
      · exact kept_failed hstate _
  · rw [nextRect_out hs, Option.toList_none, List.append_nil] at hrects
    by_cases hf : p.session.state = .failed
    · rw [Session.step_failed link hf] at hsession
      have hsame := h.same (congrArg Session.state hsession)
        (congrArg Session.width hsession) (congrArg Session.height hsession)
      rw [← hrects] at hsame
      exact hsame
    · have hkept := kept_nil (p.turn link .round).session
      rw [← h.handshake hs hf, ← hrects] at hkept
      exact hkept

theorem Kept.turn (h : p.Kept) (link : Link) (t : Turn) :
    (p.turn link t).Kept := by
  cases t with
  | round => exact h.round link
  | feed chunk => exact h.same rfl rfl rfl
  | start authenticated compression => exact kept_nil _
  | clientFailed reason => exact kept_failed (by simp [Session.turn]) _
  | setPreferredPixelFormat f => exact h.same rfl rfl rfl
  | sendKey keysym down =>
      simp only [Progress.turn, Session.turn, Session.sendKey]
      split
      · exact h
      · exact h.writeFrame link _
  | sendPointer buttonMask x y =>
      simp only [Progress.turn, Session.turn, Session.sendPointer]
      split
      · exact h
      · exact h.writeFrame link _
  | requestFullRefresh =>
      simp only [Progress.turn, Session.turn, Session.requestFullRefresh]
      split
      · exact h
      · exact h.writeFrame link _

/-- The next round takes the last rectangle of an update, and the session does
not fail. -/
def Completes (link : Link) (p : Progress z) : Prop :=
  p.session.state = .frameLoop ∧ p.session.pendingRects = 1 ∧
    (p.session.step link).2 = true ∧ (p.session.step link).1.state ≠ .failed

instance Completes.decidable (link : Link) (p : Progress z) :
    Decidable (p.Completes link) :=
  inferInstanceAs (Decidable (_ ∧ _ ∧ _ ∧ _))

/-- If the update changed the desktop's size, the first request behind it is for
all of the desktop, at the last size that was announced. -/
def Repaints (link : Link) (p : Progress z) : Prop :=
  ∀ w h, announced (p.turn link .round).rects = some (w, h) →
    p.session.firstRequest (p.turn link .round).session =
      some (.framebufferUpdateRequest false 0 0 w h)

/-- An update that changes the size does so in its last rectangle. -/
def ResizesLast (rects : List RectHeader) : Prop :=
  (∃ r ∈ rects, r.resizes = true) → ∃ r, rects.getLast? = some r ∧
    r.resizes = true

theorem announced_isSome {rects : List RectHeader}
    (h : ∃ r ∈ rects, r.resizes = true) :
    ∃ w h, announced rects = some (w, h) := by
  obtain ⟨r, hr, hresizes⟩ := h
  have hne : rects.filter RectHeader.resizes ≠ [] :=
    List.ne_nil_of_mem (List.mem_filter.mpr ⟨hr, hresizes⟩)
  unfold announced
  rw [List.getLast?_eq_some_getLast hne]
  exact ⟨_, _, rfl⟩

theorem resizes_of_announced {rects : List RectHeader} {size : Nat × Nat}
    (h : announced rects = some size) : ∃ r ∈ rects, r.resizes = true := by
  unfold announced at h
  obtain ⟨r, hr, -⟩ := Option.map_eq_some_iff.mp h
  have hmem := List.mem_filter.mp (List.mem_of_getLast? hr)
  exact ⟨r, hmem.1, hmem.2⟩

/-- The request behind an update covers the size that was announced last, and
its last rectangle decides whether it is for all of it. -/
theorem Kept.firstRequest (h : p.Kept) {link : Link} (hdone : p.Completes link)
    {w h' : Nat} (hsize : announced (p.turn link .round).rects = some (w, h')) :
    ∃ r, (p.turn link .round).rects.getLast? = some r ∧
      p.session.firstRequest (p.turn link .round).session =
        some (.framebufferUpdateRequest (!r.resizes) 0 0 w h') := by
  obtain ⟨hs, hone, hwent, halive⟩ := hdone
  have hp : 0 < p.session.pendingRects := by omega
  have hstep := step_inside hs hp link
  have hround := (h.round link).sized
  have hsession : (p.turn link .round).session = (p.session.step link).1 := rfl
  rw [hstep] at hwent hsession halive
  rcases p.session.stepRect_cases link with
    ⟨rect, n, hparse, -, htaken⟩ | ⟨hno, -⟩
  · have hrects : (p.turn link .round).rects = p.rects ++ [rect] := by
      have hround : (p.turn link .round).rects =
          p.rects ++ (p.session.nextRect link).toList := if_neg (by omega)
      rw [hround, nextRect_taken hs hp hparse hwent]
      rfl
    have hstate : (p.turn link .round).session.state = .frameLoop := by
      rw [hsession]
      rcases htaken.state with hst | hst
      · exact hst.trans hs
      · exact absurd hst halive
    have hdesktop := hround hstate (w, h') hsize
    rw [hsession, htaken.size] at hdesktop
    have hrequest := htaken.request hone
    rw [hdesktop] at hrequest
    refine ⟨rect, ?_, ?_⟩
    · rw [hrects, List.getLast?_append]
      rfl
    · rw [hsession]
      exact hrequest
  · rw [hno] at hwent
    cases hwent

theorem kept_run (link : Link) (ts : List Turn) :
    (run (turn link) ({} : Progress z) ts).Kept :=
  history (fun _ p => Kept p) (fun _ _ t hp => hp.turn link t) ts (kept_nil {})

/-- In every run of a session, and for every update that ends in it: if the
update changed the desktop's size, the request behind it is for all of the
desktop just if the last rectangle is one that changed it. -/
theorem repaints_iff (link : Link) (ts : List Turn)
    (hdone : (run (turn link) ({} : Progress z) ts).Completes link) :
    (run (turn link) ({} : Progress z) ts).Repaints link ↔
      ResizesLast ((run (turn link) ({} : Progress z) ts).turn link
        .round).rects := by
  have hkept := kept_run (z := z) link ts
  generalize run (turn link) ({} : Progress z) ts = p at hdone hkept ⊢
  constructor
  · intro hrepaints hresizes
    obtain ⟨w, h, hsize⟩ := announced_isSome hresizes
    obtain ⟨r, hlast, hrequest⟩ := hkept.firstRequest hdone hsize
    rw [hrepaints w h hsize] at hrequest
    refine ⟨r, hlast, ?_⟩
    simpa using hrequest
  · intro hlast w h hsize
    obtain ⟨r, hr, hresizes⟩ := hlast (resizes_of_announced hsize)
    obtain ⟨r', hr', hrequest⟩ := hkept.firstRequest hdone hsize
    rw [hr] at hr'
    cases hr'
    rw [hrequest, hresizes]
    rfl

/-- The handshake for an 8 by 8 desktop, and an update of two rectangles. -/
def openedTurns : List Turn :=
  [.start true true, .feed (List.replicate 14 1), .feed [0, 0, 0, 0],
    .feed ([0, 8, 0, 8] ++ List.replicate 20 0)] ++ List.replicate 4 .round ++
  [.feed [0, 0, 0, 2], .round]

/-- The desktop is 16 by 16 now. -/
def resizeTurn : Turn := .feed [0, 0, 0, 0, 0, 16, 0, 16, 0xFF, 0xFF, 0xFF, 0x21]

/-- A rectangle without pixels. -/
def emptyTurn : Turn := .feed (List.replicate 12 0)

theorem repaints_last :
    (run (turn .open) ({} : Progress .stored)
      (openedTurns ++ [emptyTurn, .round, resizeTurn])).Repaints .open :=
  (repaints_iff .open (openedTurns ++ [emptyTurn, .round, resizeTurn])
    (by decide)).mpr fun _ => ⟨_, rfl, rfl⟩

/-- A resize and then a rectangle: the request is for what changed since. -/
theorem repaints_not :
    (run (turn .open) ({} : Progress .stored)
        (openedTurns ++ [resizeTurn, .round, emptyTurn])).Completes .open ∧
      ¬(run (turn .open) ({} : Progress .stored)
        (openedTurns ++ [resizeTurn, .round, emptyTurn])).Repaints .open := by
  refine ⟨by decide, fun hrepaints => ?_⟩
  have hrequest := hrepaints 16 16 rfl
  revert hrequest
  decide

end Progress

end QuMesh.Kvm
