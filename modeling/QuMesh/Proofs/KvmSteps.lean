import QuMesh.Proofs.KvmStable

/-!
# The rounds of the drain, from the outside

Three facts about one round are enough for everything that is said about whole
streams. A round that stops the loop without failing has changed nothing. A
round that goes on has taken bytes off the inbox. And a round that did either
of these, go on or fail, would have done exactly the same with more bytes
behind the ones it saw, `step_feed`.
-/

namespace QuMesh.Kvm

open QuMesh.Lib

namespace Session

variable {z : Zlib}

/-- More bytes at the end of the inbox. -/
def feed (s : Session z) (xs : Bytes) : Session z :=
  { s with inbox := s.inbox ++ xs }

@[simp] theorem feed_state (s : Session z) (xs : Bytes) :
    (s.feed xs).state = s.state := rfl

@[simp] theorem feed_inbox (s : Session z) (xs : Bytes) :
    (s.feed xs).inbox = s.inbox ++ xs := rfl

@[simp] theorem feed_pendingRects (s : Session z) (xs : Bytes) :
    (s.feed xs).pendingRects = s.pendingRects := rfl

theorem feed_nil (s : Session z) : s.feed [] = s := by
  simp [feed]

theorem feed_feed (s : Session z) (xs ys : Bytes) :
    (s.feed xs).feed ys = s.feed (xs ++ ys) := by
  simp [feed]

theorem feed_emit (s : Session z) (e : Effect) (xs : Bytes) :
    (s.feed xs).emit e = (s.emit e).feed xs := rfl

theorem feed_resize (s : Session z) (w h : Nat) (xs : Bytes) :
    (s.feed xs).resize w h = (s.resize w h).feed xs := rfl

theorem feed_setState (s : Session z) (st : State) (xs : Bytes) :
    (s.feed xs).setState st = (s.setState st).feed xs := by
  by_cases h : st = s.state
  · rw [setState, setState, if_pos h, if_pos (by exact h)]
  · rw [setState, setState, if_neg h, if_neg (by exact h)]
    rfl

theorem feed_fail (s : Session z) (reason : Reason) (xs : Bytes) :
    (s.feed xs).fail reason = (s.fail reason).feed xs := by
  have h := feed_setState ({ s with lastError := some reason } : Session z)
    .failed xs
  have h' := congrArg (emit (.closed reason)) h
  exact h'

theorem feed_writeFrame (link : Link) (frame : Frame) (s : Session z)
    (xs : Bytes) :
    (s.feed xs).writeFrame link frame = (s.writeFrame link frame).feed xs := by
  have hw : (s.feed xs).writes = s.writes := rfl
  rw [writeFrame, writeFrame, hw]
  cases link s.writes with
  | none => rfl
  | some error => exact feed_fail (s.handOut frame) _ xs

theorem feed_pinFormat (link : Link) (f : PixelFormat) (s : Session z)
    (xs : Bytes) :
    (s.feed xs).pinFormat link f = (s.pinFormat link f).feed xs := by
  have hw := feed_writeFrame link (.setPixelFormat f)
    ({ s with format := f } : Session z) xs
  have hf : (s.feed xs).format = s.format := rfl
  by_cases h : f = s.format
  · simp only [pinFormat, hf, h, ne_eq, not_true, decide_false,
      Bool.false_eq_true, if_false]
    rw [h] at hw
    exact hw
  · simp only [pinFormat, hf, h, ne_eq, not_false_eq_true, decide_true, if_true]
    exact congrArg (emit (.pixelFormatChanged f)) hw

/-- What a negotiation comes to, whatever the link says: nothing to size, a
desktop that does not fit, or a pinned format. -/
theorem negotiate_cases (w h : Nat) (s : Session z) :
    (∀ link, s.negotiatePixelFormat link w h = (s, true)) ∨
    (∃ reason, ∀ link,
      s.negotiatePixelFormat link w h = (s.fail reason, false)) ∨
    ∃ f, ∀ link,
      s.negotiatePixelFormat link w h = (s.pinFormat link f, true) := by
  by_cases hsize : w = 0 ∨ h = 0
  · exact Or.inl fun link => if_pos hsize
  · by_cases hneed : displayBufferBytes (s.wantedFormat w h) w h >
      kMaxDisplayBufferBytes
    · exact Or.inr (Or.inl ⟨_, fun link => by
        rw [negotiatePixelFormat, if_neg hsize]
        exact if_pos hneed⟩)
    · exact Or.inr (Or.inr ⟨_, fun link => by
        rw [negotiatePixelFormat, if_neg hsize]
        exact if_neg hneed⟩)

theorem feed_negotiate (link : Link) (w h : Nat) (s : Session z)
    (xs : Bytes) :
    (s.feed xs).negotiatePixelFormat link w h =
      ((s.negotiatePixelFormat link w h).1.feed xs,
        (s.negotiatePixelFormat link w h).2) := by
  have hp : (s.feed xs).wantedFormat w h = s.wantedFormat w h := rfl
  have hf : (s.feed xs).preferredFormat = s.preferredFormat := rfl
  rw [negotiatePixelFormat, negotiatePixelFormat, hp, hf]
  split
  · rfl
  · dsimp only
    split
    · rw [feed_fail]
    · rw [feed_pinFormat]

theorem feed_configure (link : Link) (s : Session z) (xs : Bytes) :
    (s.feed xs).configure link = (s.configure link).feed xs := by
  rw [configure, feed_writeFrame]
  exact (congrArg (setState .frameLoop) ((congrArg (requestFull link)
    (feed_writeFrame link _ _ xs)).trans (feed_writeFrame link _ _ xs))).trans
    (feed_setState _ _ xs)

theorem feed_showTile (rect : RectHeader) (image : Option Image)
    (s : Session z) (xs : Bytes) :
    (s.feed xs).showTile rect image = (s.showTile rect image).feed xs := by
  cases image <;> rfl

section

variable {s : Session z} {n : Nat}

/-- Bytes taken off the front, with more behind. -/
theorem feed_remove (h : n ≤ s.inbox.length) (xs : Bytes) :
    (s.feed xs).remove n = (s.remove n).feed xs := by
  simp only [remove, feed, List.drop_append_of_le_length h]

theorem feed_takeRect (h : n ≤ s.inbox.length) (xs : Bytes) :
    (s.feed xs).takeRect n = (s.takeRect n).feed xs := by
  rw [takeRect, feed_remove h]
  rfl

theorem feed_beginUpdate (numRects : Nat) (h : n ≤ s.inbox.length)
    (xs : Bytes) :
    (s.feed xs).beginUpdate numRects n = (s.beginUpdate numRects n).feed xs := by
  rw [beginUpdate, feed_remove h]
  rfl

end

/-! ## What the calls do to the inbox and the state -/

@[simp] theorem state_emit (s : Session z) (e : Effect) :
    (s.emit e).state = s.state := rfl

@[simp] theorem state_setState (s : Session z) (st : State) :
    (s.setState st).state = st := by
  rw [setState]
  split
  · next h => exact h.symm
  · rfl

@[simp] theorem state_fail (s : Session z) (reason : Reason) :
    (s.fail reason).state = .failed :=
  state_setState _ _

@[simp] theorem inbox_emit (s : Session z) (e : Effect) :
    (s.emit e).inbox = s.inbox := rfl

@[simp] theorem inbox_setState (s : Session z) (st : State) :
    (s.setState st).inbox = s.inbox := by
  rw [setState]
  split <;> rfl

@[simp] theorem inbox_fail (s : Session z) (reason : Reason) :
    (s.fail reason).inbox = s.inbox :=
  inbox_setState _ _

@[simp] theorem inbox_writeFrame (link : Link) (frame : Frame)
    (s : Session z) : (s.writeFrame link frame).inbox = s.inbox := by
  rw [writeFrame]
  split
  · rfl
  · exact inbox_fail _ _

@[simp] theorem inbox_pinFormat (link : Link) (f : PixelFormat)
    (s : Session z) : (s.pinFormat link f).inbox = s.inbox := by
  simp only [pinFormat]
  split
  · rw [inbox_emit, inbox_writeFrame]
  · rw [inbox_writeFrame]

@[simp] theorem inbox_negotiate (link : Link) (w h : Nat) (s : Session z) :
    (s.negotiatePixelFormat link w h).1.inbox = s.inbox := by
  rw [negotiatePixelFormat]
  split
  · rfl
  · dsimp only
    split <;> simp

@[simp] theorem inbox_configure (link : Link) (s : Session z) :
    (s.configure link).inbox = s.inbox := by
  simp [configure, requestFull]

@[simp] theorem inbox_resize (w h : Nat) (s : Session z) :
    (s.resize w h).inbox = s.inbox := rfl

@[simp] theorem inbox_showTile (rect : RectHeader) (image : Option Image)
    (s : Session z) : (s.showTile rect image).inbox = s.inbox := by
  cases image <;> rfl

@[simp] theorem inbox_remove (n : Nat) (s : Session z) :
    (s.remove n).inbox = s.inbox.drop n := rfl

@[simp] theorem inbox_takeRect (n : Nat) (s : Session z) :
    (s.takeRect n).inbox = s.inbox.drop n := rfl

@[simp] theorem inbox_beginUpdate (numRects n : Nat) (s : Session z) :
    (s.beginUpdate numRects n).inbox = s.inbox.drop n := rfl

/-- A negotiation that is turned down has failed. -/
theorem negotiate_false {link : Link} {w h : Nat} {s t : Session z}
    (hn : s.negotiatePixelFormat link w h = (t, false)) :
    t.state = .failed := by
  rw [negotiatePixelFormat] at hn
  split at hn
  · cases hn
  · dsimp only at hn
    split at hn
    · cases hn
      simp
    · cases hn

theorem writeFrame_open (frame : Frame) (s : Session z) :
    s.writeFrame .open frame = s.handOut frame := rfl

theorem state_handOut (frame : Frame) (s : Session z) :
    (s.handOut frame).state = s.state := rfl

/-! ## One round -/

/-- The round went on, or it failed. -/
def Acted (r : Session z × Bool) : Prop := r.2 = true ∨ r.1.state = .failed

/-- What a round says of itself: that it acted, within the inbox and as it
would have with more behind it, or that it left the session as it was. -/
structure Sound (f : Session z → Session z × Bool) (s : Session z) : Prop where
  feed : Acted (f s) → ∀ xs, f (s.feed xs) = ((f s).1.feed xs, (f s).2)
  waits : ¬ Acted (f s) → f s = (s, false)
  shrinks : (f s).2 = true → (f s).1.inbox.length < s.inbox.length
  shorter : (f s).1.inbox.length ≤ s.inbox.length

namespace Sound

variable {f : Session z → Session z × Bool} {s : Session z}

/-- A round that waits in a session that has not failed. -/
theorem wait (hs : s.state ≠ .failed) (h : f s = (s, false)) : Sound f s where
  feed := by
    rw [h]
    rintro (ha | ha)
    · cases ha
    · exact absurd ha hs
  waits := fun _ => h
  shrinks := by
    rw [h]
    intro hb
    cases hb
  shorter := Nat.le_of_eq (by rw [h])

/-- A round that takes `n` bytes and goes on. -/
theorem goOn {t : Session z} {n : Nat} (h : f s = (t, true))
    (hfeed : ∀ xs, f (s.feed xs) = (t.feed xs, true))
    (hn : 0 < n) (hle : n ≤ s.inbox.length) (ht : t.inbox = s.inbox.drop n) :
    Sound f s where
  feed := by
    rw [h]
    exact fun _ => hfeed
  waits := by
    rw [h]
    exact fun ha => absurd (Or.inl rfl) ha
  shrinks := by
    rw [h, ht, List.length_drop]
    omega
  shorter := by
    rw [h, ht, List.length_drop]
    omega

/-- A round that fails. -/
theorem fails {t : Session z} (h : f s = (t, false))
    (hfeed : ∀ xs, f (s.feed xs) = (t.feed xs, false))
    (hst : t.state = .failed) (hle : t.inbox.length ≤ s.inbox.length) :
    Sound f s where
  feed := by
    rw [h]
    exact fun _ => hfeed
  waits := by
    rw [h]
    exact fun ha => absurd (Or.inr hst) ha
  shrinks := by
    rw [h]
    intro hb
    cases hb
  shorter := by
    rw [h]
    exact hle

end Sound

theorem stepHandshake_sound (link : Link) {s : Session z}
    (hs : s.state ≠ .failed) : Sound (stepHandshake link) s := by
  cases hst : s.state with
  | version =>
      by_cases hlen : s.inbox.length < 12
      · refine Sound.wait hs ?_
        simp only [stepHandshake, hst, if_pos hlen]
      · have hrun {t : Session z} (ht : t.state = .version)
            (hl : ¬ t.inbox.length < 12) : t.stepHandshake link =
            (((t.remove 12).writeFrame link .versionResponse).setState .security,
              true) := by
          simp only [stepHandshake, ht, if_neg hl]
        refine Sound.goOn (hrun hst hlen) (fun xs => ?_) (n := 12) (by omega)
          (by omega) (by simp)
        rw [hrun (t := s.feed xs) hst
            (by rw [feed_inbox, List.length_append]; omega),
          feed_remove (by omega), feed_writeFrame, feed_setState]
  | security =>
      by_cases hn : tryParseSecurityTypes s.inbox = 0
      · refine Sound.wait hs ?_
        simp only [stepHandshake, hst, if_pos hn]
      · have hrun {t : Session z} (ht : t.state = .security)
            (hl : tryParseSecurityTypes t.inbox ≠ 0) : t.stepHandshake link =
            (((t.remove (tryParseSecurityTypes t.inbox)).writeFrame link
              .securityChoice).setState .authResult, true) := by
          simp only [stepHandshake, ht, if_neg hl]
        obtain ⟨-, hle⟩ := tryParseSecurityTypes_append rfl hn []
        refine Sound.goOn (hrun hst hn) (fun xs => ?_)
          (n := tryParseSecurityTypes s.inbox) (by omega) hle (by simp)
        obtain ⟨hsame, -⟩ := tryParseSecurityTypes_append rfl hn xs
        rw [hrun (t := s.feed xs) hst (by rw [feed_inbox, hsame]; exact hn),
          feed_inbox, hsame,
          feed_remove hle, feed_writeFrame, feed_setState]
  | authResult =>
      cases hp : tryParseSecurityResult s.inbox with
      | mk ok n =>
          by_cases hn : n = 0
          · refine Sound.wait hs ?_
            simp only [stepHandshake, hst, hp, if_pos hn]
          · obtain ⟨-, hle⟩ := tryParseSecurityResult_append hp hn []
            have hfed (xs : Bytes) :=
              (tryParseSecurityResult_append hp hn xs).1
            cases ok with
            | false =>
                have hrun {t : Session z} (ht : t.state = .authResult)
                    (hl : tryParseSecurityResult t.inbox = (false, n)) :
                    t.stepHandshake link = (t.fail .authResult, false) := by
                  simp [stepHandshake, ht, hl, if_neg hn]
                refine Sound.fails (hrun hst hp) (fun xs => ?_) (by simp)
                  (by simp)
                rw [hrun (t := s.feed xs) hst (hfed xs), feed_fail]
            | true =>
                have hrun {t : Session z} (ht : t.state = .authResult)
                    (hl : tryParseSecurityResult t.inbox = (true, n)) :
                    t.stepHandshake link = (((t.remove n).writeFrame link
                      .clientInit).setState .serverInit, true) := by
                  simp [stepHandshake, ht, hl, if_neg hn]
                refine Sound.goOn (hrun hst hp) (fun xs => ?_) (n := n)
                  (by omega) hle (by simp)
                rw [hrun (t := s.feed xs) hst (hfed xs), feed_remove hle, feed_writeFrame,
                  feed_setState]
  | serverInit =>
      cases hp : tryParseServerInit s.inbox with
      | none =>
          refine Sound.wait hs ?_
          simp only [stepHandshake, hst, hp]
      | some p =>
          obtain ⟨info, n⟩ := p
          obtain ⟨-, hpos, hle⟩ := tryParseServerInit_append hp []
          have hfed (xs : Bytes) := (tryParseServerInit_append hp xs).1
          have hsize : kServerInitFixedSize = 24 := rfl
          have hneg (xs : Bytes) : ((s.feed xs).remove n).resize info.width
              info.height = ((s.remove n).resize info.width info.height).feed
                xs := by
            rw [feed_remove hle, feed_resize]
          cases hnp : ((s.remove n).resize info.width
              info.height).negotiatePixelFormat link info.width info.height with
          | mk t b =>
              have ht : t.inbox = s.inbox.drop n := by
                have := inbox_negotiate link info.width info.height
                  ((s.remove n).resize info.width info.height)
                rw [hnp] at this
                exact this
              cases b with
              | false =>
                  refine Sound.fails (t := t) ?_ (fun xs => ?_)
                    (negotiate_false hnp) (by rw [ht, List.length_drop]; omega)
                  · simp only [stepHandshake, hst, hp, hnp]
                  · simp only [stepHandshake, feed_state, hst, feed_inbox, hfed,
                      hneg, feed_negotiate, hnp]
              | true =>
                  refine Sound.goOn (t := t.configure link) ?_ (fun xs => ?_)
                    (n := n) (by omega) hle (by rw [inbox_configure, ht])
                  · simp only [stepHandshake, hst, hp, hnp]
                  · simp only [stepHandshake, feed_state, hst, feed_inbox, hfed,
                      hneg, feed_negotiate, hnp, feed_configure]
  | idle | frameLoop =>
      refine Sound.wait hs ?_
      simp only [stepHandshake, hst]
  | failed => exact absurd hst hs

theorem applyRect_sound (link : Link) (rect : RectHeader) {n : Nat}
    (dr : DecodedRect) {s : Session z} (hn : 0 < n) (hle : n ≤ s.inbox.length) :
    Sound (applyRect link rect n dr) s := by
  cases hd : dr.isDesktopSize with
  | true =>
      cases hnp : (s.resize rect.w rect.h).negotiatePixelFormat link rect.w
          rect.h with
      | mk t b =>
          have ht : t.inbox = s.inbox := by
            have := inbox_negotiate link rect.w rect.h (s.resize rect.w rect.h)
            rw [hnp] at this
            exact this
          have hfed (xs : Bytes) : ((s.feed xs).resize rect.w
              rect.h).negotiatePixelFormat link rect.w rect.h =
              (t.feed xs, b) := by
            rw [feed_resize, feed_negotiate, hnp]
          cases b with
          | false =>
              refine Sound.fails (t := t) ?_ (fun xs => ?_)
                (negotiate_false hnp) (Nat.le_of_eq (by rw [ht]))
              · simp only [applyRect, hd, if_true, hnp]
              · simp only [applyRect, hd, if_true, hfed]
          | true =>
              have hlet : n ≤ t.inbox.length := by rw [ht]; exact hle
              by_cases hp : (t.takeRect n).pendingRects = 0
              · refine Sound.goOn (t := (t.takeRect n).requestFull link) ?_
                  (fun xs => ?_) hn hle (by simp [requestFull, ht])
                · simp only [applyRect, hd, if_true, hnp, if_pos hp]
                · simp only [applyRect, hd, if_true, hfed, feed_takeRect hlet,
                    feed_pendingRects, if_pos hp]
                  exact congrArg (·, true) (feed_writeFrame link _ _ xs)
              · refine Sound.goOn (t := t.takeRect n) ?_ (fun xs => ?_) hn hle
                  (by simp [ht])
                · simp only [applyRect, hd, if_true, hnp, if_neg hp]
                · simp only [applyRect, hd, if_true, hfed, feed_takeRect hlet,
                    feed_pendingRects, if_neg hp]
  | false =>
      have hlet : n ≤ (s.showTile rect dr.image).inbox.length := by
        rw [inbox_showTile]
        exact hle
      by_cases hp : ((s.showTile rect dr.image).takeRect n).pendingRects = 0
      · refine Sound.goOn
          (t := ((s.showTile rect dr.image).takeRect n).requestIncremental link)
          ?_ (fun xs => ?_) hn hle (by simp [requestIncremental])
        · simp only [applyRect, hd, Bool.false_eq_true, if_false, if_pos hp]
        · simp only [applyRect, hd, Bool.false_eq_true, if_false, feed_showTile,
            feed_takeRect hlet, feed_pendingRects, if_pos hp]
          exact congrArg (·, true) (feed_writeFrame link _ _ xs)
      · refine Sound.goOn (t := (s.showTile rect dr.image).takeRect n) ?_
          (fun xs => ?_) hn hle (by simp)
        · simp only [applyRect, hd, Bool.false_eq_true, if_false, if_neg hp]
        · simp only [applyRect, hd, Bool.false_eq_true, if_false, feed_showTile,
            feed_takeRect hlet, feed_pendingRects, if_neg hp]

/-- A decoded rectangle never waits. -/
theorem applyRect_acted (link : Link) (rect : RectHeader) (n : Nat)
    (dr : DecodedRect) (s : Session z) :
    Acted (s.applyRect link rect n dr) := by
  rw [applyRect]
  split
  · split
    · next hnp => exact Or.inr (negotiate_false hnp)
    · exact Or.inl rfl
  · exact Or.inl rfl

theorem onDecoding_sound (link : Link) (rect : RectHeader) (rc : Nat)
    (d : Decoding z) {s : Session z} (hs : s.state ≠ .failed)
    (hstay : d.status = .needMore → d.inflate = some s.inflate)
    (hrc : 0 < rc) (hle : d.status ≠ .needMore →
      rc + d.consumed ≤ s.inbox.length) :
    Sound (onDecoding link rect rc d) s := by
  obtain ⟨status, dr, consumed, inflate⟩ := d
  have hfail (r : Reason) : Sound (fun t : Session z =>
      (({ t with inflate := inflate.getD t.inflate } : Session z).fail r,
        false)) s := by
    refine Sound.fails rfl (fun xs => ?_) (by simp) (by simp)
    exact congrArg (·, false)
      (feed_fail ({ s with inflate := inflate.getD s.inflate } : Session z) r xs)
  cases status with
  | needMore =>
      have hkeep : inflate = some s.inflate := hstay rfl
      refine Sound.wait hs ?_
      rw [onDecoding, hkeep]
      rfl
  | unsupportedEncoding => exact hfail _
  | unsupportedSubencoding => exact hfail _
  | malformed => exact hfail _
  | ok =>
      let s' : Session z := { s with inflate := inflate.getD s.inflate }
      have hok := applyRect_sound link rect (n := rc + consumed) dr (s := s')
        (by omega) (hle (by simp))
      refine ⟨fun ha xs => hok.feed ha xs, fun ha => ?_, hok.shrinks,
        hok.shorter⟩
      exact absurd (applyRect_acted link rect _ dr s') ha

theorem stepRect_sound (link : Link) {s : Session z}
    (hs : s.state ≠ .failed) : Sound (stepRect link) s := by
  cases hp : tryParseRectHeader s.inbox with
  | none =>
      refine Sound.wait hs ?_
      simp only [stepRect, hp]
  | some p =>
      obtain ⟨rect, rc⟩ := p
      obtain ⟨-, hrc, hlen⟩ := tryParseRectHeader_append hp []
      have hsize : kRectHeaderSize = 12 := rfl
      have hself : s.stepRect link = s.onDecoding link rect rc
          (tryDecodeRect (s.inbox.drop rc) rect (some s.inflate) s.format) := by
        simp only [stepRect, hp]
      have hd := onDecoding_sound link rect rc
        (tryDecodeRect (s.inbox.drop rc) rect (some s.inflate) s.format) hs
        tryDecodeRect_needMore (by omega) (fun hmore => by
          have := tryDecodeRect_consumed hmore
          rw [List.length_drop] at this
          omega)
      refine ⟨fun ha xs => ?_, fun ha => ?_, ?_, ?_⟩
      · rw [hself] at ha ⊢
        have hparse : tryParseRectHeader (s.feed xs).inbox = some (rect, rc) :=
          (tryParseRectHeader_append hp xs).1
        have hview : (s.feed xs).inbox.drop rc = s.inbox.drop rc ++ xs :=
          List.drop_append_of_le_length (by omega)
        -- The rectangle did not have to wait, so more bytes are no matter.
        have hmore : (tryDecodeRect (s.inbox.drop rc) rect (some s.inflate)
            s.format).status ≠ .needMore := by
          intro hmore
          rcases ha with ha | ha <;> simp only [onDecoding, hmore] at ha
          · cases ha
          · exact hs ha
        simp only [stepRect, hparse, hview]
        rw [show (s.feed xs).inflate = s.inflate from rfl,
          show (s.feed xs).format = s.format from rfl,
          tryDecodeRect_append hmore xs]
        exact hd.feed ha xs
      · rw [hself] at ha ⊢
        exact hd.waits ha
      · rw [hself]
        exact hd.shrinks
      · rw [hself]
        exact hd.shorter

theorem stepMessage_sound {s : Session z} (hs : s.state ≠ .failed)
    (hne : s.inbox ≠ []) : Sound stepMessage s := by
  have hpos : 0 < s.inbox.length := List.length_pos_iff.mpr hne
  have htag (xs : Bytes) : byteAt (s.feed xs).inbox 0 = byteAt s.inbox 0 := by
    rw [feed_inbox, byteAt_append hpos]
  by_cases h0 : byteAt s.inbox 0 = 0
  · cases hp : tryParseFrameUpdate s.inbox with
    | none =>
        refine Sound.wait hs ?_
        simp only [stepMessage, if_pos h0, hp]
    | some p =>
        obtain ⟨k, n⟩ := p
        obtain ⟨-, hn, hlen⟩ := tryParseFrameUpdate_append hp []
        have hle : n ≤ s.inbox.length := by omega
        refine Sound.goOn (t := s.beginUpdate k n) ?_ (fun xs => ?_) (n := n)
          (by omega) hle rfl
        · simp only [stepMessage, if_pos h0, hp]
        · have hpx : tryParseFrameUpdate (s.feed xs).inbox = some (k, n) :=
            (tryParseFrameUpdate_append hp xs).1
          simp only [stepMessage, htag, if_pos h0, hpx, feed_beginUpdate k hle]
  · by_cases h2 : byteAt s.inbox 0 = 2
    · refine Sound.goOn (t := (s.remove 1).emit .bell) ?_ (fun xs => ?_)
        (n := 1) (by omega) hpos rfl
      · simp only [stepMessage, if_neg h0, if_pos h2]
      · simp only [stepMessage, htag, if_neg h0, if_pos h2,
          feed_remove (show 1 ≤ s.inbox.length from hpos), feed_emit]
    · by_cases h3 : byteAt s.inbox 0 = 3
      · by_cases h8 : s.inbox.length < 8
        · refine Sound.wait hs ?_
          simp only [stepMessage, if_neg h0, if_neg h2, if_pos h3, if_pos h8]
        · have h8x (xs : Bytes) : ¬ (s.feed xs).inbox.length < 8 := by
            rw [feed_inbox, List.length_append]
            omega
          have hlen (xs : Bytes) : read32Be (s.feed xs).inbox 4 =
              read32Be s.inbox 4 := by
            rw [feed_inbox, read32Be_append (by omega)]
          by_cases hmax : read32Be s.inbox 4 > kServerCutTextMax
          · refine Sound.fails (t := s.fail (.cutTextTooLarge
              (read32Be s.inbox 4))) ?_ (fun xs => ?_) (by simp) (by simp)
            · simp only [stepMessage, if_neg h0, if_neg h2, if_pos h3,
                if_neg h8, if_pos hmax]
            · simp only [stepMessage, htag, if_neg h0, if_neg h2, if_pos h3,
                if_neg (h8x xs), hlen, if_pos hmax, feed_fail]
          · by_cases hall : s.inbox.length < 8 + read32Be s.inbox 4
            · refine Sound.wait hs ?_
              simp only [stepMessage, if_neg h0, if_neg h2, if_pos h3,
                if_neg h8, if_neg hmax, if_pos hall]
            · have hallx (xs : Bytes) : ¬ (s.feed xs).inbox.length <
                  8 + read32Be s.inbox 4 := by
                rw [feed_inbox, List.length_append]
                omega
              have hle : 8 + read32Be s.inbox 4 ≤ s.inbox.length := by omega
              refine Sound.goOn (t := s.remove (8 + read32Be s.inbox 4)) ?_
                (fun xs => ?_) (n := 8 + read32Be s.inbox 4) (by omega) hle rfl
              · simp only [stepMessage, if_neg h0, if_neg h2, if_pos h3,
                  if_neg h8, if_neg hmax, if_neg hall]
              · simp only [stepMessage, htag, if_neg h0, if_neg h2, if_pos h3,
                  if_neg (h8x xs), hlen, if_neg hmax, if_neg (hallx xs),
                  feed_remove hle]
      · refine Sound.fails (t := s.fail (.unknownMessage (byteAt s.inbox 0)))
          ?_ (fun xs => ?_) (by simp) (by simp)
        · simp only [stepMessage, if_neg h0, if_neg h2, if_neg h3]
        · simp only [stepMessage, htag, if_neg h0, if_neg h2, if_neg h3,
            feed_fail]

theorem stepFrameLoop_sound (link : Link) {s : Session z}
    (hs : s.state ≠ .failed) : Sound (stepFrameLoop link) s := by
  by_cases hp : s.pendingRects > 0
  · have hsame (t : Session z) (ht : t.pendingRects = s.pendingRects) :
        t.stepFrameLoop link = t.stepRect link := by
      rw [stepFrameLoop, if_pos (by rw [ht]; exact hp)]
    have h := stepRect_sound link hs
    refine ⟨fun ha xs => ?_, fun ha => ?_, ?_, ?_⟩
    · rw [hsame s rfl] at ha ⊢
      rw [hsame (s.feed xs) rfl]
      exact h.feed ha xs
    · rw [hsame s rfl] at ha ⊢
      exact h.waits ha
    · rw [hsame s rfl]
      exact h.shrinks
    · rw [hsame s rfl]
      exact h.shorter
  · by_cases he : s.inbox = []
    · refine Sound.wait hs ?_
      rw [stepFrameLoop, if_neg hp, if_pos (by rw [he]; rfl)]
    · have hsame (xs : Bytes) : (s.feed xs).stepFrameLoop link =
          (s.feed xs).stepMessage := by
        rw [stepFrameLoop, feed_pendingRects, if_neg hp, if_neg (by simp [he])]
      have hself : s.stepFrameLoop link = s.stepMessage := by
        rw [stepFrameLoop, if_neg hp, if_neg (by simp [he])]
      have h := stepMessage_sound hs he
      refine ⟨fun ha xs => ?_, fun ha => ?_, ?_, ?_⟩
      · rw [hself] at ha ⊢
        rw [hsame]
        exact h.feed ha xs
      · rw [hself] at ha ⊢
        exact h.waits ha
      · rw [hself]
        exact h.shrinks
      · rw [hself]
        exact h.shorter

/-- In a session that has not failed. -/
theorem step_sound (link : Link) {s : Session z} (hs : s.state ≠ .failed) :
    Sound (step link) s := by
  have transfer {f : Session z → Session z × Bool} (h : Sound f s)
      (hf : ∀ t : Session z, t.state = s.state → t.step link = f t) :
      Sound (step link) s := by
    refine ⟨fun ha xs => ?_, fun ha => ?_, ?_, ?_⟩
    · rw [hf s rfl] at ha ⊢
      rw [hf (s.feed xs) rfl]
      exact h.feed ha xs
    · rw [hf s rfl] at ha ⊢
      exact h.waits ha
    · rw [hf s rfl]
      exact h.shrinks
    · rw [hf s rfl]
      exact h.shorter
  cases hst : s.state with
  | version | security | authResult | serverInit =>
      refine transfer (stepHandshake_sound link hs) fun t ht => ?_
      rw [step, ht, hst]
  | frameLoop =>
      refine transfer (stepFrameLoop_sound link hs) fun t ht => ?_
      rw [step, ht, hst]
  | idle =>
      refine Sound.wait hs ?_
      rw [step, hst]
  | failed => exact absurd hst hs

theorem step_failed (link : Link) {s : Session z} (hs : s.state = .failed) :
    s.step link = (s, false) := by
  rw [step, hs]

/-- Six keys, one after the other. -/
theorem sendCtrlAltDel_keeps {link : Link} {P : Session z → Prop}
    (hkey : ∀ s keysym down, P s → P (s.sendKey link keysym down))
    {s : Session z} (h : P s) : P (s.sendCtrlAltDel link) := by
  rw [sendCtrlAltDel]
  generalize [((0xFFE3 : UInt32), true), (0xFFE9, true), (0xFFFF, true),
    (0xFFFF, false), (0xFFE9, false), (0xFFE3, false)] = keys
  induction keys generalizing s with
  | nil => exact h
  | cons key keys ih => exact ih (hkey s key.1 key.2 h)

/-- The sessions the loop of a drain finds at the head of its rounds. -/
def roundHeads (link : Link) : Nat → Session z → List (Session z)
  | 0, _ => []
  | n + 1, s =>
      s :: match s.step link with
        | (t, true) => roundHeads link n t
        | (_, false) => []

end Session

end QuMesh.Kvm
