import QuMesh.Kvm.Server
import QuMesh.Lib.Run
import QuMesh.Proofs.KvmChunks

/-!
# The two ends agree on the pixel format

The format fixes the width of every pixel on the wire, so a rectangle read in
another format than it was written in is not only a wrong picture: what
follows is read from the wrong byte on. The session switches at the moment it
writes `SetPixelFormat`, the server at the moment it receives it, and whatever
the server sent in between comes in the old format. `formats_disagree` is a
resize with one pixel behind it.

`formats_agree` is about the runs in which no rectangle of pixels and no change
of the format cross on the way. Between the two ends lies a stream of whole
messages, `Ahead`, and a round of the session either waits or is past exactly
one of them, `Session.took_step`. The pixels among them were all encoded in the
format the session has: that is what a rectangle finds when it is sent, and
what a change of the format has to leave alone.
-/

namespace QuMesh.Kvm

open QuMesh.Lib

variable {z : Zlib}

/-- The format in force after some frames. -/
def formatAfter (format : PixelFormat) (frames : List Frame) : PixelFormat :=
  frames.foldl (fun f frame =>
    match frame with
    | .setPixelFormat g => g
    | _ => f) format

theorem formatAfter_append (format : PixelFormat) (xs ys : List Frame) :
    formatAfter format (xs ++ ys) = formatAfter (formatAfter format xs) ys :=
  List.foldl_append

def Frame.setsPixelFormat : Frame → Bool
  | .setPixelFormat _ => true
  | _ => false

/-- Frames of other kinds leave the format. -/
theorem formatAfter_none {frames : List Frame}
    (h : frames.any Frame.setsPixelFormat = false) (f : PixelFormat) :
    formatAfter f frames = f := by
  induction frames generalizing f with
  | nil => rfl
  | cons frame frames ih =>
      rw [List.any_cons, Bool.or_eq_false_iff] at h
      cases frame with
      | setPixelFormat g => cases h.1
      | _ => exact ih h.2 f

/-- After a `SetPixelFormat` it is no matter what was in force before. -/
theorem formatAfter_any {frames : List Frame}
    (h : frames.any Frame.setsPixelFormat = true) (f g : PixelFormat) :
    formatAfter f frames = formatAfter g frames := by
  induction frames generalizing f g with
  | nil => cases h
  | cons frame frames ih =>
      cases frame with
      | setPixelFormat h => rfl
      | _ => exact ih (by simpa [Frame.setsPixelFormat] using h) f g

namespace Session

variable {s t u : Session z}

/-- Frames written on the way from one session to another, and the format
with them. -/
def Wrote (s t : Session z) : Prop :=
  ∃ fs, t.frames = s.frames ++ fs ∧ t.format = formatAfter s.format fs

theorem Wrote.refl (s : Session z) : s.Wrote s := ⟨[], by simp, rfl⟩

theorem Wrote.trans (h : s.Wrote t) (h' : t.Wrote u) : s.Wrote u := by
  obtain ⟨fs, hf, hfmt⟩ := h
  obtain ⟨gs, hg, hgmt⟩ := h'
  exact ⟨fs ++ gs, by rw [hg, hf, List.append_assoc],
    by rw [hgmt, hfmt, formatAfter_append]⟩

theorem Wrote.of_same (hf : t.frames = s.frames) (hfmt : t.format = s.format) :
    s.Wrote t :=
  ⟨[], by simp [hf], hfmt⟩

theorem frames_emit (s : Session z) {e : Effect} (he : e.frame = none) :
    (s.emit e).frames = s.frames := by
  simp [frames, emit, List.filterMap_append, he]

theorem Wrote.emit (s : Session z) {e : Effect} (he : e.frame = none) :
    s.Wrote (s.emit e) :=
  .of_same (frames_emit s he) rfl

theorem Wrote.setState (s : Session z) (st : State) :
    s.Wrote (s.setState st) := by
  rw [Session.setState]
  split
  · exact .refl s
  · exact Wrote.emit ({ s with state := st } : Session z) rfl

theorem Wrote.fail (s : Session z) (reason : Reason) : s.Wrote (s.fail reason) :=
  .trans (Wrote.setState ({ s with lastError := some reason } : Session z) .failed)
    (Wrote.emit _ rfl)

/-- A frame that is not a `SetPixelFormat` leaves the format in force. -/
theorem Wrote.handOut (s : Session z) {frame : Frame}
    (hf : ∀ f, formatAfter f [frame] = f) : s.Wrote (s.handOut frame) := by
  refine ⟨[frame], ?_, (hf _).symm⟩
  simp [frames, Session.handOut, Session.emit, Effect.frame]

theorem Wrote.pinFormat (s : Session z) (f : PixelFormat) :
    s.Wrote (s.pinFormat .open f) := by
  have hw : s.Wrote (({ s with format := f } : Session z).handOut
      (.setPixelFormat f)) := by
    refine ⟨[.setPixelFormat f], ?_, rfl⟩
    simp [frames, Session.handOut, Session.emit, Effect.frame]
  simp only [Session.pinFormat, writeFrame_open]
  split
  · exact hw.trans (Wrote.emit _ rfl)
  · exact hw

theorem Wrote.configure (s : Session z) : s.Wrote (s.configure .open) := by
  simp only [Session.configure, requestFull, writeFrame_open]
  exact ((Wrote.handOut s fun _ => rfl).trans (Wrote.handOut _ fun _ => rfl)).trans
    ((Wrote.handOut _ fun _ => rfl).trans (Wrote.setState _ _))

/-- What the reader of a stream of messages knows of the session. -/
def reader (s : Session z) : Reader z :=
  { state := s.state, pendingRects := s.pendingRects, inflate := s.inflate }

@[simp] theorem reader_remove (n : Nat) (s : Session z) :
    (s.remove n).reader = s.reader := rfl

@[simp] theorem decoded_remove (n : Nat) (s : Session z) :
    (s.remove n).decoded = s.decoded := rfl

@[simp] theorem reader_resize (w h : Nat) (s : Session z) :
    (s.resize w h).reader = s.reader := rfl

@[simp] theorem decoded_resize (w h : Nat) (s : Session z) :
    (s.resize w h).decoded = s.decoded := rfl

@[simp] theorem reader_setState (s : Session z) (st : State) :
    (s.setState st).reader = { s.reader with state := st } := by
  rw [Session.setState]
  split
  · next h => rw [h]; rfl
  · rfl

@[simp] theorem decoded_setState (s : Session z) (st : State) :
    (s.setState st).decoded = s.decoded := by
  rw [Session.setState]
  split <;> rfl

@[simp] theorem decoded_fail (s : Session z) (reason : Reason) :
    (s.fail reason).decoded = s.decoded :=
  decoded_setState _ _

@[simp] theorem reader_handOut (frame : Frame) (s : Session z) :
    (s.handOut frame).reader = s.reader := rfl

@[simp] theorem decoded_handOut (frame : Frame) (s : Session z) :
    (s.handOut frame).decoded = s.decoded := rfl

@[simp] theorem reader_pinFormat_open (f : PixelFormat) (s : Session z) :
    (s.pinFormat .open f).reader = s.reader := by
  simp only [Session.pinFormat, writeFrame_open]
  split <;> rfl

@[simp] theorem decoded_pinFormat_open (f : PixelFormat) (s : Session z) :
    (s.pinFormat .open f).decoded = s.decoded := by
  simp only [Session.pinFormat, writeFrame_open]
  split <;> rfl

@[simp] theorem reader_configure_open (s : Session z) :
    (s.configure .open).reader = { s.reader with state := .frameLoop } := by
  simp [Session.configure, requestFull, writeFrame_open]

@[simp] theorem decoded_configure_open (s : Session z) :
    (s.configure .open).decoded = s.decoded := by
  simp [Session.configure, requestFull, writeFrame_open]

/-- What a round makes of a whole message: it fails without having decoded
anything, or it is past the message. -/
structure Took (s t : Session z) (tail : Bytes) (r : Reader z)
    (rect : Option RectHeader) : Prop where
  wrote : s.Wrote t
  outcome : t.state = .failed ∧ t.decoded = s.decoded ∨
    t.inbox = tail ∧ t.reader = r ∧
      t.decoded = s.decoded ++ rect.toList.map fun rect => (rect, s.format)

namespace Took

/-- A message that goes by without pixels. -/
theorem past {tail : Bytes} {r : Reader z} (hw : s.Wrote t)
    (hin : t.inbox = tail) (hr : t.reader = r) (hd : t.decoded = s.decoded) :
    Took s t tail r none :=
  ⟨hw, Or.inr ⟨hin, hr, by simp [hd]⟩⟩

theorem failed {tail : Bytes} {r : Reader z} {rect : Option RectHeader}
    (hw : s.Wrote t) (hst : t.state = .failed) (hd : t.decoded = s.decoded) :
    Took s t tail r rect :=
  ⟨hw, Or.inl ⟨hst, hd⟩⟩

end Took

theorem drop_bytes {bytes tail : Bytes} {s : Session z} {n : Nat}
    (hin : s.inbox = bytes ++ tail) (hn : n = bytes.length) :
    s.inbox.drop n = tail := by
  rw [hin, hn, List.drop_left]

theorem Wrote.resize (w h : Nat) (s : Session z) : s.Wrote (s.resize w h) :=
  Wrote.emit ({ s with width := w, height := h } : Session z) rfl

/-- A message of the handshake that is answered with one frame. -/
theorem took_answer {bytes tail : Bytes} {n : Nat} (frame : Frame)
    (hf : ∀ f, formatAfter f [frame] = f) (st : State)
    (hin : s.inbox = bytes ++ tail) (hn : n = bytes.length) :
    Took s (((s.remove n).writeFrame .open frame).setState st) tail
      { s.reader with state := st } none := by
  rw [writeFrame_open]
  refine .past ((Wrote.handOut (s.remove n) hf).trans (Wrote.setState _ _))
    ?_ (by simp) (by simp)
  rw [inbox_setState]
  exact drop_bytes hin hn

/-! ## A round over a whole message -/

section

variable {bytes tail : Bytes} {r : Reader z} {rect : Option RectHeader}

theorem took_version (hst : s.state = .version)
    (hin : s.inbox = bytes ++ tail)
    (hr : s.reader.take s.format (.version bytes) = some (r, rect)) :
    Took s (s.step .open).1 tail r rect := by
  have hstate : s.reader.state = .version := hst
  simp only [Reader.take, hstate] at hr
  split at hr
  · next hlen =>
      cases hr
      have hshort : ¬ s.inbox.length < 12 := by
        rw [hin, List.length_append]
        omega
      simp only [step, hst, stepHandshake, if_neg hshort]
      exact took_answer _ (fun _ => rfl) _ hin hlen.symm
  · cases hr

theorem took_securityTypes (hst : s.state = .security)
    (hin : s.inbox = bytes ++ tail)
    (hr : s.reader.take s.format (.securityTypes bytes) = some (r, rect)) :
    Took s (s.step .open).1 tail r rect := by
  have hstate : s.reader.state = .security := hst
  simp only [Reader.take, hstate] at hr
  split at hr
  · next hwhole =>
      cases hr
      have hpos := List.length_eq_zero_iff.not.mpr hwhole.1
      have hn : tryParseSecurityTypes s.inbox = bytes.length := by
        rw [hin]
        exact (tryParseSecurityTypes_append hwhole.2 hpos tail).1
      simp only [step, hst, stepHandshake, hn, if_neg hpos]
      exact took_answer _ (fun _ => rfl) _ hin rfl
  · cases hr

theorem took_securityResult (hst : s.state = .authResult)
    (hin : s.inbox = bytes ++ tail)
    (hr : s.reader.take s.format (.securityResult bytes) = some (r, rect)) :
    Took s (s.step .open).1 tail r rect := by
  have hstate : s.reader.state = .authResult := hst
  simp only [Reader.take, hstate] at hr
  split at hr
  · next hwhole =>
      cases hr
      have hpos := List.length_eq_zero_iff.not.mpr hwhole.1
      have hn : tryParseSecurityResult s.inbox = (true, bytes.length) := by
        rw [hin]
        exact (tryParseSecurityResult_append hwhole.2 hpos tail).1
      simp only [step, hst, stepHandshake, hn, if_neg hpos]
      exact took_answer _ (fun _ => rfl) _ hin rfl
  · cases hr

theorem took_serverInit (hst : s.state = .serverInit)
    (hin : s.inbox = bytes ++ tail)
    (hr : s.reader.take s.format (.serverInit bytes) = some (r, rect)) :
    Took s (s.step .open).1 tail r rect := by
  have hstate : s.reader.state = .serverInit := hst
  simp only [Reader.take, hstate] at hr
  split at hr
  · next hwhole =>
      cases hr
      obtain ⟨⟨info, n⟩, hwhole, hn⟩ := Option.map_eq_some_iff.mp hwhole
      have hdrop := drop_bytes hin hn
      have hinit : tryParseServerInit s.inbox = some (info, n) := by
        rw [hin]
        exact (tryParseServerInit_append hwhole tail).1
      have hres := (Wrote.of_same rfl rfl : s.Wrote (s.remove n)).trans
        (Wrote.resize info.width info.height (s.remove n))
      simp only [step, hst, stepHandshake, hinit]
      rcases ((s.remove n).resize info.width info.height).negotiate_cases
        info.width info.height with hneg | ⟨reason, hneg⟩ | ⟨f, hneg⟩
      · simp only [hneg]
        exact .past (hres.trans (Wrote.configure _)) (by simpa using hdrop)
          (by simp) (by simp)
      · simp only [hneg]
        exact .failed (hres.trans (Wrote.fail _ _)) (by simp) (by simp)
      · simp only [hneg]
        exact .past ((hres.trans (Wrote.pinFormat _ _)).trans (Wrote.configure _))
          (by simpa using hdrop) (by simp) (by simp)
  · cases hr

/-- Between two updates. -/
theorem took_message {m : Message} (hst : s.state = .frameLoop)
    (hp : ¬ s.pendingRects > 0) (hin : s.inbox = m.bytes ++ tail)
    (hr : s.reader.take s.format m = some (r, rect)) :
    Took s (s.step .open).1 tail r rect := by
  have hstate : s.reader.state = .frameLoop := hst
  have hpend : ¬ s.reader.pendingRects > 0 := hp
  have hpast (n : Nat) (hn : n = m.bytes.length) :
      Took s (s.remove n) tail s.reader none :=
    .past (.of_same rfl rfl) (drop_bytes hin hn) rfl rfl
  simp only [Reader.take, hstate, if_neg hpend] at hr
  have hloop (hne : m.bytes ≠ []) : s.step .open = s.stepMessage := by
    simp only [step, hst, stepFrameLoop, if_neg hp]
    rw [if_neg (by rw [hin]; simp [hne])]
  cases m with
  | frameUpdate bytes =>
      dsimp only at hr
      split at hr
      · cases hr
      · next k n hparse =>
          obtain ⟨hall, hn4, hlen⟩ := tryParseFrameUpdate_append hparse tail
          split at hr
          · next hn =>
              cases hr
              have hne : bytes ≠ [] := List.length_pos_iff.mp (by omega)
              have hparse : tryParseFrameUpdate s.inbox = some (k, n) := by
                rw [hin]
                exact hall
              have htag : byteAt s.inbox 0 = 0 := by
                have hhead := hparse
                rw [tryParseFrameUpdate] at hhead
                split at hhead
                · cases hhead
                · split at hhead
                  · cases hhead
                  · next h0 => simpa using h0
              rw [hloop hne, stepMessage]
              simp only [htag, if_true, hparse]
              exact .past (.of_same rfl rfl) (drop_bytes hin hn)
                (by rw [← hst]; rfl) rfl
          · cases hr
  | bell =>
      cases hr
      have htag : byteAt s.inbox 0 = 2 := by
        rw [hin]
        rfl
      rw [hloop (by simp [Message.bytes]), stepMessage]
      simp only [htag]
      have hrm := hpast 1 rfl
      exact ⟨hrm.wrote.trans (Wrote.emit _ rfl), hrm.outcome⟩
  | cutText bytes =>
      dsimp only at hr
      split at hr
      · next hwhole =>
          cases hr
          obtain ⟨h8, h3, hmax, hlen⟩ := hwhole
          have hne : bytes ≠ [] := List.length_pos_iff.mp (by omega)
          have hin : s.inbox = bytes ++ tail := hin
          have htag : byteAt s.inbox 0 = 3 := by
            rw [hin, byteAt_append (by omega)]
            exact h3
          have htext : read32Be s.inbox 4 = read32Be bytes 4 := by
            rw [hin, read32Be_append (by omega)]
          have hall : s.inbox.length = bytes.length + tail.length := by
            rw [hin, List.length_append]
          rw [hloop hne, stepMessage]
          simp only [htag, htext]
          simp only [show ¬ (3 = 0) by decide, show ¬ (3 = 2) by decide,
            if_false, if_true]
          rw [if_neg (by omega), if_neg (Nat.not_lt.mpr hmax),
            if_neg (by omega)]
          exact hpast _ hlen.symm
      · cases hr
  | version bytes => cases hr
  | securityTypes bytes => cases hr
  | securityResult bytes => cases hr
  | serverInit bytes => cases hr
  | rect bytes => cases hr

/-- A decoded rectangle: off the inbox and off the update, its picture noted
with the session's format. -/
theorem took_applyRect (header : RectHeader) {n : Nat} (dr : DecodedRect)
    (hin : s.inbox = bytes ++ tail) (hn : n = bytes.length) :
    Took s (s.applyRect .open header n dr).1 tail
      { s.reader with pendingRects := s.pendingRects - 1 }
      (if dr.isDesktopSize then none else dr.image.map fun _ => header) := by
  have hdrop := drop_bytes hin hn
  -- Whether the update ends here or not, the request changes nothing of this.
  have hreq (v : Session z) (frame : Frame)
      (hf : ∀ f, formatAfter f [frame] = f) :
      v.Wrote (if v.pendingRects = 0 then v.writeFrame .open frame else v) ∧
        (if v.pendingRects = 0 then v.writeFrame .open frame else v).inbox =
          v.inbox ∧
        (if v.pendingRects = 0 then v.writeFrame .open frame else v).reader =
          v.reader ∧
        (if v.pendingRects = 0 then v.writeFrame .open frame else v).decoded =
          v.decoded := by
    rw [writeFrame_open]
    split
    · exact ⟨Wrote.handOut v hf, rfl, rfl, rfl⟩
    · exact ⟨.refl v, rfl, rfl, rfl⟩
  have htake (v : Session z) : v.Wrote (v.takeRect n) := .of_same rfl rfl
  rw [applyRect]
  split
  · have hres := Wrote.resize header.w header.h s
    rcases (s.resize header.w header.h).negotiate_cases header.w header.h with
      hneg | ⟨reason, hneg⟩ | ⟨f, hneg⟩
    · simp only [hneg]
      obtain ⟨hw, hi, hr, hd⟩ := hreq ((s.resize header.w header.h).takeRect n)
        (.framebufferUpdateRequest false 0 0 header.w header.h) fun _ => rfl
      exact .past ((hres.trans (htake _)).trans hw) (hi.trans hdrop) hr hd
    · simp only [hneg]
      exact .failed (hres.trans (Wrote.fail _ _)) (by simp) (by simp)
    · simp only [hneg]
      generalize hv : (s.resize header.w header.h).pinFormat .open f = v
      have hw := (hres.trans (Wrote.pinFormat _ f)).trans
        (htake ((s.resize header.w header.h).pinFormat .open f))
      have hvi : v.inbox = s.inbox := by rw [← hv, inbox_pinFormat]; rfl
      have hvr : v.reader = s.reader := by rw [← hv, reader_pinFormat_open]; rfl
      have hvd : v.decoded = s.decoded := by
        rw [← hv, decoded_pinFormat_open]; rfl
      rw [hv] at hw
      obtain ⟨hw', hi, hr, hd⟩ := hreq (v.takeRect n)
        (.framebufferUpdateRequest false 0 0 v.width v.height) fun _ => rfl
      refine .past (hw.trans hw') (hi.trans ?_) (hr.trans ?_) (hd.trans hvd)
      · rw [inbox_takeRect, hvi, hdrop]
      · rw [show (v.takeRect n).reader = { v.reader with
          pendingRects := v.reader.pendingRects - 1 } from rfl, hvr]
        rfl
  · generalize hv : s.showTile header dr.image = v
    have hw : s.Wrote v := by
      rw [← hv]
      cases dr.image with
      | none => exact .refl s
      | some image =>
          exact Wrote.emit ({ s with
            decoded := s.decoded ++ [(header, s.format)] } : Session z) rfl
    have hvi : v.inbox = s.inbox := by rw [← hv, inbox_showTile]
    have hvr : v.reader = s.reader := by rw [← hv]; cases dr.image <;> rfl
    have hvd : v.decoded = s.decoded ++ (dr.image.map fun _ =>
        header).toList.map fun rect => (rect, s.format) := by
      rw [← hv]
      cases dr.image <;> simp [showTile, emit]
    obtain ⟨hw', hi, hr, hd⟩ := hreq (v.takeRect n)
      (.framebufferUpdateRequest true 0 0 v.width v.height) fun _ => rfl
    refine ⟨(hw.trans (htake v)).trans hw', Or.inr ⟨hi.trans ?_, hr.trans ?_,
      hd.trans hvd⟩⟩
    · rw [inbox_takeRect, hvi, hdrop]
    · rw [show (v.takeRect n).reader = { v.reader with
        pendingRects := v.reader.pendingRects - 1 } from rfl, hvr]
      rfl

/-- Inside an update. -/
theorem took_rect (hst : s.state = .frameLoop)
    (hp : s.pendingRects > 0) (hin : s.inbox = bytes ++ tail)
    (hr : s.reader.takeRect s.format bytes = some (r, rect)) :
    Took s (s.step .open).1 tail r rect := by
  rw [Reader.takeRect] at hr
  split at hr
  · cases hr
  · next header rc hparse =>
      obtain ⟨hall, hrc, hlen⟩ := tryParseRectHeader_append hparse tail
      have hview : s.inbox.drop rc = bytes.drop rc ++ tail := by
        rw [hin, List.drop_append_of_le_length (by omega)]
      have hinfl : s.reader.inflate = s.inflate := rfl
      rw [hinfl] at hr
      generalize hd : tryDecodeRect (bytes.drop rc) header (some s.inflate)
        s.format = d at hr
      dsimp only at hr
      split at hr
      · next hok =>
          cases hr
          have hmore : (tryDecodeRect (bytes.drop rc) header (some s.inflate)
              s.format).status ≠ .needMore := by
            rw [hd, hok.1]
            simp
          have hsame := (tryDecodeRect_append hmore tail).trans hd
          have hparse : tryParseRectHeader s.inbox = some (header, rc) := by
            rw [hin]
            exact hall
          have hstep : s.step .open = ({ s with
              inflate := d.inflate.getD s.inflate } : Session z).applyRect .open
                header (rc + d.consumed) d.rect := by
            simp only [step, hst, stepFrameLoop, if_pos hp, stepRect, hparse,
              hview, hsame, onDecoding, hok.1]
          have htook := took_applyRect (s := { s with
            inflate := d.inflate.getD s.inflate }) header d.rect hin hok.2
          rw [hstep]
          exact ⟨htook.wrote, htook.outcome⟩
      · cases hr

/-- A whole message at the front of the inbox. -/
theorem took_step {m : Message} (hin : s.inbox = m.bytes ++ tail)
    (hr : s.reader.take s.format m = some (r, rect)) :
    Took s (s.step .open).1 tail r rect := by
  have hstate : s.reader.state = s.state := rfl
  cases hst : s.state with
  | version =>
      cases m <;> first | exact took_version hst hin hr | skip
      all_goals simp [Reader.take, hstate, hst] at hr
  | security =>
      cases m <;> first | exact took_securityTypes hst hin hr | skip
      all_goals simp [Reader.take, hstate, hst] at hr
  | authResult =>
      cases m <;> first | exact took_securityResult hst hin hr | skip
      all_goals simp [Reader.take, hstate, hst] at hr
  | serverInit =>
      cases m <;> first | exact took_serverInit hst hin hr | skip
      all_goals simp [Reader.take, hstate, hst] at hr
  | frameLoop =>
      by_cases hp : s.pendingRects > 0
      · have hpend : s.reader.pendingRects > 0 := hp
        cases m with
        | rect bytes =>
            simp only [Reader.take, hstate, hst, if_pos hpend] at hr
            exact took_rect hst hp hin hr
        | _ => simp [Reader.take, hstate, hst, if_pos hpend] at hr
      · exact took_message hst hp hin hr
  | idle =>
      rw [Reader.take_stopped (.inl (hstate.trans hst))] at hr
      cases hr
  | failed =>
      rw [Reader.take_stopped (.inr (hstate.trans hst))] at hr
      cases hr

end

end Session

/-! ## A stream of messages -/

theorem tileDecoding_pictured {argb : Option (List UInt32)} {rect : RectHeader}
    {n : Nat} {inflate : Option (InflateStream z)}
    (hok : (tileDecoding argb rect n inflate).status = .ok) :
    ((tileDecoding argb rect n inflate).rect.isDesktopSize = false →
      (tileDecoding argb rect n inflate).rect.image = none) → False := by
  cases argb with
  | none => cases hok
  | some argb =>
      intro h
      cases h rfl

/-- An RLE rectangle that decodes has a picture. -/
theorem decodeRle_pictured {b : Bytes} {rect : RectHeader}
    {inflate : Option (InflateStream z)} {f : PixelFormat}
    (hok : (decodeRle b rect inflate f).status = .ok) :
    ((decodeRle b rect inflate f).rect.isDesktopSize = false →
      (decodeRle b rect inflate f).rect.image = none) → False := by
  have hbad {d : Decoding z} (hd : d.status ≠ .ok) (h : d.status = .ok) :
      (d.rect.isDesktopSize = false → d.rect.image = none) → False :=
    absurd h hd
  revert hok
  simp only [decodeRle]
  split
  · exact hbad (by simp)
  · split
    · exact hbad (by simp)
    · split
      · exact hbad (by simp)
      · split
        · exact hbad (by simp)
        · split
          · exact tileDecoding_pictured
          · split
            · exact hbad (by simp)
            · split
              · exact hbad (by simp)
              · exact hbad (by simp)
              · exact tileDecoding_pictured

/-- A rectangle without pixels is the same in every format. -/
theorem tryDecodeRect_plain {b : Bytes} {rect : RectHeader}
    {inflate : Option (InflateStream z)} {f : PixelFormat} (g : PixelFormat)
    (hok : (tryDecodeRect b rect inflate f).status = .ok)
    (hplain : (tryDecodeRect b rect inflate f).rect.isDesktopSize = false →
      (tryDecodeRect b rect inflate f).rect.image = none) :
    tryDecodeRect b rect inflate g = tryDecodeRect b rect inflate f := by
  rw [tryDecodeRect] at hok hplain
  rw [tryDecodeRect, tryDecodeRect]
  split
  · rfl
  · next hsize =>
      rw [if_neg hsize] at hok hplain
      split
      · rfl
      · next hzero =>
          rw [if_neg hzero] at hok hplain
          exfalso
          split at hok
          · cases hok
          · next hlarge =>
              rw [if_neg hlarge] at hplain
              split at hok
              · next hraw =>
                  rw [if_pos hraw] at hplain
                  split at hok
                  · cases hok
                  · next image n hdec =>
                      rw [hdec] at hplain
                      cases hplain rfl
              · next hraw =>
                  rw [if_neg hraw] at hplain
                  split at hok
                  · next hrle =>
                      rw [if_pos hrle] at hplain
                      exact decodeRle_pictured hok hplain
                  · cases hok

namespace Reader

theorem takeRect_reformat {f : PixelFormat} (g : PixelFormat) {bytes : Bytes}
    {r r' : Reader z} (h : r.takeRect f bytes = some (r', none)) :
    r.takeRect g bytes = some (r', none) := by
  rw [takeRect] at h ⊢
  split at h
  · cases h
  · next header rc hparse =>
      simp only at h ⊢
      split at h
      · next hok =>
          have hnone := congrArg Prod.snd (Option.some.inj h)
          dsimp only at hnone
          rw [tryDecodeRect_plain g hok.1 ?_, if_pos hok]
          · exact h
          · intro hplain
            simpa [hplain] using hnone
      · cases h

/-- A message without pixels reads the same in every format. -/
theorem take_reformat {f : PixelFormat} (g : PixelFormat) {m : Message}
    {r r' : Reader z} (h : r.take f m = some (r', none)) :
    r.take g m = some (r', none) := by
  cases m with
  | rect bytes =>
      cases hst : r.state with
      | frameLoop =>
          simp only [take, hst] at h ⊢
          split at h
          · next hp =>
              rw [if_pos hp]
              exact takeRect_reformat g h
          · cases h
      | _ => simp [take, hst] at h
  | _ => cases hst : r.state <;> simpa only [take, hst] using h

/-- A stream of messages, and the rectangles it brings pixels of. -/
def takeAll (format : PixelFormat) : List Message → Reader z →
    Option (Reader z × List RectHeader)
  | [], r => some (r, [])
  | m :: ms, r =>
      match r.take format m with
      | none => none
      | some (r, rect) =>
          (takeAll format ms r).map fun p => (p.1, rect.toList ++ p.2)

theorem takeAll_append {format : PixelFormat} {ms ns : List Message}
    {r : Reader z} :
    takeAll format (ms ++ ns) r =
      (takeAll format ms r).bind fun p =>
        (takeAll format ns p.1).map fun q => (q.1, p.2 ++ q.2) := by
  induction ms generalizing r with
  | nil =>
      rw [List.nil_append, takeAll, Option.bind_some]
      cases takeAll format ns r <;> simp
  | cons m ms ih =>
      rw [List.cons_append, takeAll, takeAll]
      cases r.take format m with
      | none => rfl
      | some p =>
          dsimp only
          rw [ih]
          cases takeAll format ms p.1 with
          | none => rfl
          | some q =>
              cases hns : takeAll format ns q.1 with
              | none => simp [hns]
              | some o => simp [hns]

/-- One more message at the end. -/
theorem takeAll_snoc {format : PixelFormat} {ms : List Message} {m : Message}
    {r r' r'' : Reader z} {rects : List RectHeader} {rect : Option RectHeader}
    (h : takeAll format ms r = some (r', rects))
    (hm : r'.take format m = some (r'', rect)) :
    takeAll format (ms ++ [m]) r = some (r'', rects ++ rect.toList) := by
  rw [takeAll_append, h]
  simp [takeAll, hm]

/-- A stream without pixels reads the same in every format. -/
theorem takeAll_reformat {f : PixelFormat} (g : PixelFormat)
    {ms : List Message} {r r' : Reader z}
    (h : takeAll f ms r = some (r', [])) : takeAll g ms r = some (r', []) := by
  induction ms generalizing r with
  | nil => exact h
  | cons m ms ih =>
      rw [takeAll] at h ⊢
      split at h
      · cases h
      · next r₁ rect hm =>
          obtain ⟨⟨r₂, rects⟩, hms, heq⟩ := Option.map_eq_some_iff.mp h
          cases rect with
          | some rect => simp at heq
          | none =>
              obtain ⟨rfl, hnil⟩ : r₂ = r' ∧ rects = [] := by simpa using heq
              rw [take_reformat g hm]
              dsimp only
              rw [ih (by rw [hms, hnil])]
              rfl

end Reader

/-! ## Both ends -/

/-- The channel from the session to the server: what the server has of it is
a part of what was written, and each end's format is the last in its part. -/
structure Told (own : PixelFormat) (server : Server z) (received : Nat)
    (s : Session z) : Prop where
  mine : s.format = formatAfter .rgb565 s.frames
  within : received ≤ s.frames.length
  theirs : server.format = formatAfter own (s.frames.take received)
  told : server.told = (s.frames.take received).any Frame.setsPixelFormat

/-- The channel to the session: messages, read from where the session stands
to where the server does in the session's format, with the pixels that are
still to come. -/
def Ahead (server : Server z) (down : Bytes) (s : Session z) : Prop :=
  ∃ ms rects, s.inbox ++ down = ms.flatMap Message.bytes ∧
    s.reader.takeAll s.format ms = some (server.reader, rects) ∧
    server.sent = s.decoded ++ rects.map fun rect => (rect, s.format)

structure Agreed (own : PixelFormat) (server : Server z) (received : Nat)
    (down : Bytes) (s : Session z) : Prop where
  told : Told own server received s
  ahead : s.state ≠ .failed → Ahead server down s
  agreed : s.decoded <+: server.sent

section

variable {own : PixelFormat} {server : Server z} {received : Nat}
  {down : Bytes} {s t : Session z}

/-- Frames at the end of what was written reach the server later. -/
theorem Told.wrote (h : Told own server received s) (hw : s.Wrote t) :
    Told own server received t := by
  obtain ⟨fs, hf, hfmt⟩ := hw
  have htake : t.frames.take received = s.frames.take received := by
    rw [hf, List.take_append_of_le_length h.within]
  refine ⟨?_, ?_, by rw [htake]; exact h.theirs, by rw [htake]; exact h.told⟩
  · rw [hfmt, hf, formatAfter_append, ← h.mine]
  · rw [hf, List.length_append]
    exact Nat.le_add_right_of_le h.within

/-- Bytes on the way are the same in the inbox. -/
theorem Ahead.feed (h : Ahead server down s) (n : Nat) :
    Ahead server (down.drop n) (s.feed (down.take n)) := by
  obtain ⟨ms, rects, hbytes, htake, hsent⟩ := h
  refine ⟨ms, rects, ?_, htake, hsent⟩
  rw [Session.feed_inbox, List.append_assoc, List.take_append_drop]
  exact hbytes

/-- What is decoded is a part of what was sent. -/
theorem Ahead.decoded (h : Ahead server down s) : s.decoded <+: server.sent := by
  obtain ⟨ms, rects, -, -, hsent⟩ := h
  exact ⟨_, hsent.symm⟩

/-- A round of the session. A change of its format must find no pixels on the
way: they would be read in the new one. -/
theorem Ahead.step (h : Ahead server down s) (hs : s.state ≠ .failed)
    (hclear : (s.step .open).1.format ≠ s.format →
      s.decoded.length = server.sent.length) :
    s.Wrote (s.step .open).1 ∧
      (s.step .open).1.decoded <+: server.sent ∧
      ((s.step .open).1.state ≠ .failed →
        Ahead server down (s.step .open).1) := by
  obtain ⟨ms, rects, hbytes, htake, hsent⟩ := id h
  have hsound := Session.step_sound .open hs
  by_cases hact : Session.Acted (s.step .open)
  · cases ms with
    | nil =>
        -- Nothing on the way, and so nothing to act on.
        have hempty : s.inbox = [] := (List.append_eq_nil_iff.mp hbytes).1
        have hquiet : s.advance .open = none :=
          Session.quiet_of_empty .open hempty
        rw [Session.advance, if_pos ⟨hs, hact⟩] at hquiet
        cases hquiet
    | cons m ms =>
        rw [Reader.takeAll] at htake
        split at htake
        · cases htake
        · next r rect hm =>
            obtain ⟨⟨r', rest⟩, hms, heq⟩ := Option.map_eq_some_iff.mp htake
            obtain ⟨rfl, rfl⟩ := Prod.mk.inj heq
            -- The round has done what it would with all that is on the way.
            have hin : (s.feed down).inbox =
                m.bytes ++ ms.flatMap Message.bytes := by
              rw [Session.feed_inbox, hbytes, List.flatMap_cons]
            have hwhole := Session.took_step hin hm
            rw [hsound.feed hact] at hwhole
            refine ⟨hwhole.wrote, ?_⟩
            rcases hwhole.outcome with ⟨hfail, hdec⟩ | ⟨hin, hreader, hdec⟩
            · have hdec : (s.step .open).1.decoded = s.decoded := hdec
              rw [hdec]
              exact ⟨h.decoded, fun hlive => absurd hfail hlive⟩
            · have hdec : (s.step .open).1.decoded =
                s.decoded ++ rect.toList.map fun rect => (rect, s.format) := hdec
              have hnow : Ahead server down (s.step .open).1 := by
                by_cases hfmt : (s.step .open).1.format = s.format
                · refine ⟨ms, rest, hin, ?_, ?_⟩
                  · rw [hfmt, show (s.step .open).1.reader = r from hreader]
                    exact hms
                  · rw [hsent, hdec, hfmt]
                    simp
                · have hnone : rect.toList ++ rest = [] := by
                    have hlen := congrArg List.length hsent
                    rw [← hclear hfmt, List.length_append, List.length_map] at hlen
                    dsimp only at hlen
                    exact List.length_eq_zero_iff.mp (by omega)
                  obtain ⟨hrect, rfl⟩ := List.append_eq_nil_iff.mp hnone
                  refine ⟨ms, [], hin, ?_, ?_⟩
                  · rw [show (s.step .open).1.reader = r from hreader]
                    exact Reader.takeAll_reformat _ hms
                  · rw [hsent, hdec]
                    simp [hrect]
              exact ⟨hnow.decoded, fun _ => hnow⟩
  · have hwait := hsound.waits hact
    rw [hwait]
    exact ⟨.refl s, h.decoded, fun _ => h⟩

/-- The round changes the session's format. -/
def Session.Switches (s : Session z) : Prop :=
  (s.step .open).1.format ≠ s.format

instance (s : Session z) : Decidable s.Switches :=
  inferInstanceAs (Decidable (_ ≠ _))

theorem Agreed.step (h : Agreed own server received down s)
    (hclear : s.Switches → s.decoded.length = server.sent.length) :
    Agreed own server received down (s.step .open).1 := by
  by_cases hs : s.state = .failed
  · rw [Session.step_failed .open hs]
    exact h
  · obtain ⟨hw, hdec, hahead⟩ := (h.ahead hs).step hs hclear
    exact ⟨h.told.wrote hw, hahead, hdec⟩

theorem Agreed.drainInbox (h : Agreed own server received down s)
    (hclear : ∀ u ∈ Session.roundHeads .open Session.kMaxStepsPerCall s,
      u.Switches → u.decoded.length = server.sent.length) :
    Agreed own server received down (s.drainInbox .open).1 := by
  have hdrain : ∀ (n : Nat) (s : Session z), Agreed own server received down s →
      (∀ u ∈ Session.roundHeads .open n s,
        u.Switches → u.decoded.length = server.sent.length) →
      Agreed own server received down (s.drainSteps .open n).1 := by
    intro n
    induction n with
    | zero => exact fun s h _ => h
    | succ n ih =>
        intro s h hclear
        rw [Session.roundHeads] at hclear
        have hstep := h.step (hclear s List.mem_cons_self)
        rw [Session.drainSteps]
        split
        · next t ht =>
            rw [ht] at hstep
            refine ih t hstep fun u hu => hclear u (List.mem_cons_of_mem _ ?_)
            rw [ht]
            exact hu
        · next t ht =>
            rw [ht] at hstep
            exact hstep
  have hall := hdrain Session.kMaxStepsPerCall s h hclear
  rw [Session.drainInbox]
  split <;> next hd => rw [hd] at hall; exact hall

/-- A call that only writes. -/
theorem Agreed.writes (h : Agreed own server received down s)
    (hw : s.Wrote t) (hin : t.inbox = s.inbox) (hr : t.reader = s.reader)
    (hd : t.decoded = s.decoded) (hf : t.format = s.format) :
    Agreed own server received down t := by
  refine ⟨h.told.wrote hw, fun ht => ?_, by rw [hd]; exact h.agreed⟩
  have hs : s.state ≠ .failed := by
    rw [show s.state = s.reader.state from rfl, ← hr]
    exact ht
  obtain ⟨ms, rects, hbytes, htake, hsent⟩ := h.ahead hs
  exact ⟨ms, rects, by rw [hin]; exact hbytes, by rw [hr, hf]; exact htake,
    by rw [hd, hf]; exact hsent⟩

theorem Agreed.handOut (h : Agreed own server received down s) {frame : Frame}
    (hf : ∀ f, formatAfter f [frame] = f) :
    Agreed own server received down (s.handOut frame) :=
  h.writes (.handOut s hf) rfl rfl rfl rfl

theorem Agreed.fail (h : Agreed own server received down s) (reason : Reason) :
    Agreed own server received down (s.fail reason) :=
  ⟨h.told.wrote (.fail s reason), fun hst => absurd (by simp) hst, by
    rw [Session.decoded_fail]
    exact h.agreed⟩

end

namespace World

/-- Nothing between the two ends that another format would change: every
`SetPixelFormat` on the way asks for the format in force, and if none was ever
received it is the one a session starts in. -/
def InForce (w : World z) : Prop :=
  (∀ frame ∈ w.up, frame.setsPixelFormat = true →
      frame = .setPixelFormat w.server.format) ∧
    (w.server.told = false → w.server.format = .rgb565)

instance (w : World z) : Decidable w.InForce :=
  inferInstanceAs (Decidable (_ ∧ _))

/-- The server has the message to send, and it brings pixels. -/
def SendsPixels (w : World z) (m : Message) : Prop :=
  (w.server.reader.take w.server.format m).any (fun r => r.2.isSome) = true

instance (w : World z) (m : Message) : Decidable (w.SendsPixels m) :=
  inferInstanceAs (Decidable (_ = _))

/-- No rectangle of pixels and no change of the format cross on the way. -/
def Uncrossed (_past : List (World z × Move)) (w : World z) : Move → Prop
  | .deliver n =>
      ∀ s ∈ Session.roundHeads .open Session.kMaxStepsPerCall
        (w.client.session.feed (w.down.take n)),
        s.Switches → s.decoded.length = w.server.sent.length
  | .call .continuation => w.client.queued ≠ 0 →
      ∀ s ∈ Session.roundHeads .open Session.kMaxStepsPerCall w.client.session,
        s.Switches → s.decoded.length = w.server.sent.length
  | .send m => w.SendsPixels m → w.InForce
  | _ => True

instance (past : List (World z × Move)) (w : World z) (m : Move) :
    Decidable (Uncrossed past w m) :=
  match m with
  | .deliver _ => inferInstanceAs (Decidable (∀ _ ∈ _, _ → _))
  | .send _ => inferInstanceAs (Decidable (_ → _))
  | .call .continuation => inferInstanceAs (Decidable (_ → ∀ _ ∈ _, _ → _))
  | .receive | .call (.rawBytes _) | .call (.start ..) | .call (.sendKey ..)
  | .call (.setPreferredPixelFormat _) | .call (.clientFailed _)
  | .call (.sendPointer ..) | .call .sendCtrlAltDel
  | .call .requestFullRefresh => .isTrue trivial

def Agreed (own : PixelFormat) (w : World z) : Prop :=
  Kvm.Agreed own w.server w.received w.down w.client.session

variable {own : PixelFormat} {w : World z}

theorem Agreed.receive (h : w.Agreed own) : (w.step .receive).Agreed own := by
  rw [World.step]
  split
  · exact h
  · next frame rest hup =>
      have hup : w.client.session.frames.drop w.received = frame :: rest := hup
      have hmore : w.received < w.client.session.frames.length := by
        have := congrArg List.length hup
        simp only [List.length_drop, List.length_cons] at this
        omega
      have hhead : w.client.session.frames[w.received] = frame := by
        have := List.drop_eq_getElem_cons hmore
        rw [hup] at this
        exact (List.cons.inj this).1.symm
      have htake : w.client.session.frames.take (w.received + 1) =
          w.client.session.frames.take w.received ++ [frame] := by
        rw [List.take_add_one, List.getElem?_eq_getElem hmore, hhead]
        rfl
      have hreader : (w.server.receive frame).reader = w.server.reader := by
        cases frame <;> rfl
      have hsent : (w.server.receive frame).sent = w.server.sent := by
        cases frame <;> rfl
      refine ⟨⟨h.told.mine, hmore, ?_, ?_⟩, fun hs => ?_, ?_⟩
      · rw [htake, formatAfter_append, ← h.told.theirs]
        cases frame <;> rfl
      · rw [htake, List.any_append, ← h.told.told]
        cases frame <;> simp [Server.receive, Frame.setsPixelFormat]
      · obtain ⟨ms, rects, hbytes, hms, hsent'⟩ := h.ahead hs
        exact ⟨ms, rects, hbytes, by rw [hreader]; exact hms,
          by rw [hsent]; exact hsent'⟩
      · rw [hsent]
        exact h.agreed

/-- With nothing on the way that another format would change, both ends have
the same. -/
theorem Agreed.same (h : w.Agreed own) (hf : w.InForce) :
    w.client.session.format = w.server.format := by
  have hmine := h.told.mine
  rw [← List.take_append_drop w.received w.client.session.frames,
    formatAfter_append] at hmine
  have hrest : ∀ (frames : List Frame) (g : PixelFormat),
      (∀ frame ∈ frames, frame.setsPixelFormat = true →
        frame = .setPixelFormat w.server.format) →
      g = w.server.format → formatAfter g frames = w.server.format := by
    intro frames
    induction frames with
    | nil => exact fun g _ hg => hg
    | cons frame frames ih =>
        intro g hall hg
        refine ih _ (fun f hmem => hall f (List.mem_cons_of_mem _ hmem)) ?_
        cases frame with
        | setPixelFormat f =>
            exact (Frame.setPixelFormat.inj (hall _ List.mem_cons_self rfl))
        | _ => exact hg
  rw [hmine]
  refine hrest _ _ hf.1 ?_
  have htold := h.told.told
  cases hany : (w.client.session.frames.take w.received).any
      Frame.setsPixelFormat with
  | false =>
      rw [hany] at htold
      rw [formatAfter_none hany, hf.2 htold]
  | true => rw [formatAfter_any hany .rgb565 own, ← h.told.theirs]

theorem Agreed.send (h : w.Agreed own) {m : Message}
    (hm : w.SendsPixels m → w.InForce) : (w.step (.send m)).Agreed own := by
  rw [World.step]
  split
  · exact h
  · next server hsend =>
      obtain ⟨⟨r, rect⟩, htake, hserver⟩ := Option.map_eq_some_iff.mp hsend
      subst hserver
      refine ⟨⟨h.told.mine, h.told.within, h.told.theirs, h.told.told⟩,
        fun hs => ?_, h.agreed.trans (List.prefix_append _ _)⟩
      obtain ⟨ms, rects, hbytes, hms, hsent⟩ := h.ahead hs
      have hread : w.server.reader.take w.client.session.format m =
          some (r, rect) ∧ ∀ x ∈ rect, w.client.session.format =
            w.server.format := by
        cases rect with
        | none => exact ⟨Reader.take_reformat _ htake, by simp⟩
        | some rect =>
            have hsame := h.same (hm (by rw [SendsPixels, htake]; rfl))
            exact ⟨by rw [hsame]; exact htake, fun _ _ => hsame⟩
      refine ⟨ms ++ [m], rects ++ rect.toList, ?_,
        Reader.takeAll_snoc hms hread.1, ?_⟩
      · rw [← List.append_assoc, hbytes, List.flatMap_append]
        simp
      · cases rect with
        | none => simpa using hsent
        | some rect =>
            rw [hsent, ← hread.2 rect rfl]
            simp

theorem Agreed.call (h : w.Agreed own) {past : List (World z × Move)} {e : Event}
    (he : Uncrossed past w (.call e)) : (w.call e).Agreed own := by
  have hsend {s : Session z} (hs : Kvm.Agreed own w.server w.received w.down s)
      {frame : Frame} (hf : ∀ f, formatAfter f [frame] = f) :
      Kvm.Agreed own w.server w.received w.down
        (if s.state ≠ .frameLoop then s else s.writeFrame .open frame) := by
    split
    · exact hs
    · exact hs.handOut hf
  cases e with
  | rawBytes chunk => exact h
  | start authenticated compression => exact h
  | continuation =>
      simp only [World.call, Loop.handle]
      split
      · exact h
      · next hq => exact Kvm.Agreed.drainInbox h (he hq)
  | setPreferredPixelFormat f => exact h.writes (.of_same rfl rfl) rfl rfl rfl rfl
  | clientFailed reason => exact Kvm.Agreed.fail h _
  | sendKey keysym down => exact hsend h fun _ => rfl
  | sendPointer buttonMask x y => exact hsend h fun _ => rfl
  | sendCtrlAltDel =>
      have hkeys := @Session.sendCtrlAltDel_keeps z .open
        (Kvm.Agreed own w.server w.received w.down)
        (fun _ _ _ hs => hsend hs fun _ => rfl) _ h
      simp only [World.Agreed, World.call, Loop.handle]
      exact hkeys
  | requestFullRefresh => exact hsend h fun _ => rfl

theorem Agreed.step (h : w.Agreed own) {past : List (World z × Move)}
    (m : Move) (hm : Uncrossed past w m) : (w.step m).Agreed own := by
  cases m with
  | deliver n =>
      have hfeed : Kvm.Agreed own w.server w.received (w.down.drop n)
          (w.client.session.feed (w.down.take n)) :=
        ⟨h.told.wrote (.of_same rfl rfl), fun hs => (h.ahead hs).feed n, h.agreed⟩
      exact hfeed.drainInbox hm
  | receive => exact h.receive
  | send m => exact h.send hm
  | call e => exact h.call hm

theorem begin_agreed (preferred : Option PixelFormat) (compression : Bool)
    (own : PixelFormat) :
    (World.begin preferred compression own : World z).Agreed own :=
  ⟨⟨rfl, Nat.zero_le _, rfl, rfl⟩, fun _ => ⟨[], [], rfl, rfl, rfl⟩,
    List.prefix_refl _⟩

end World

/-- As long as no rectangle of pixels and no change of the format cross on the
way, whatever the order of deliveries: the pictures the session decoded are
the first of those the server sent, each in the format it was encoded in. -/
theorem formats_agree (preferred : Option PixelFormat) (compression : Bool)
    (own : PixelFormat) (es : List Move)
    (hg : Guarded World.step World.Uncrossed
      (World.begin preferred compression own : World z) es) :
    (run World.step (World.begin preferred compression own : World z)
        es).client.session.decoded <+:
      (run World.step (World.begin preferred compression own : World z)
        es).server.sent := by
  have hrun := hg.invariant (World.Agreed own)
    (fun _ _ m h hm => h.step m hm)
    (World.begin_agreed preferred compression own)
  exact hrun.agreed

/-- The handshake for an 8 by 8 desktop, with all its frames received. -/
def settledRun : List Move :=
  [.send (.version (List.replicate 12 0)), .send (.securityTypes [1, 1]),
    .send (.securityResult [0, 0, 0, 0]),
    .send (.serverInit ([0, 8, 0, 8] ++ List.replicate 20 0)), .deliver 42] ++
  List.replicate 7 .receive

/-- The desktop is 3000 by 2000 now. -/
def resizedRect : Message :=
  .rect [0, 0, 0, 0, 0x0B, 0xB8, 0x07, 0xD0, 0xFF, 0xFF, 0xFF, 0x21]

/-- One raw pixel. -/
def pixelRect (pixel : Bytes) : Message :=
  .rect ([0, 0, 0, 0, 0, 1, 0, 1, 0, 0, 0, 0] ++ pixel)

/-- A resize and a pixel in one update: the pixel was encoded in 16 bits, and
the session is at 8 when it gets to it. -/
theorem formats_disagree :
    ¬ (run World.step (World.begin none true .rgb565 : World .stored)
        (settledRun ++ [.send (.frameUpdate [0, 0, 0, 2]), .send resizedRect,
          .send (pixelRect [0x12, 0x34]), .deliver 30])).client.session.decoded <+:
      (run World.step (World.begin none true .rgb565 : World .stored)
        (settledRun ++ [.send (.frameUpdate [0, 0, 0, 2]), .send resizedRect,
          .send (pixelRect [0x12, 0x34]), .deliver 30])).server.sent := by
  decide

/-- The same resize in an update of its own, and the pixel after the server
has the new format. -/
theorem formats_agree_resized :
    (run World.step (World.begin none true .rgb565 : World .stored)
        (settledRun ++ [.send (.frameUpdate [0, 0, 0, 1]), .send resizedRect,
          .deliver 16, .receive, .receive, .send (.frameUpdate [0, 0, 0, 1]),
          .send (pixelRect [0x12]), .deliver 17])).client.session.decoded <+:
      (run World.step (World.begin none true .rgb565 : World .stored)
        (settledRun ++ [.send (.frameUpdate [0, 0, 0, 1]), .send resizedRect,
          .deliver 16, .receive, .receive, .send (.frameUpdate [0, 0, 0, 1]),
          .send (pixelRect [0x12]), .deliver 17])).server.sent :=
  formats_agree none true .rgb565 _ (by decide)

end QuMesh.Kvm
