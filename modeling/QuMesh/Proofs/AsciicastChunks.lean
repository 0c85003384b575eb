import QuMesh.App.AsciicastRecorder
import QuMesh.Proofs.Utf8Resync

/-!
# Recordings do not depend on the reads

The bytes of a session come in reads that end anywhere, in the middle of a
character too, and each event is to be text. So the end of a read is looked at,
and what may go on is held back.

The work is in the cut: where the bytes are the front of well-formed text, what
is in front of the cut is well formed, and behind it is less than a character.
Looking back over the continuation bytes ends at a lead byte, which announces
more bytes than there are exactly if the character is not complete; three bytes
are enough, as a fourth one can only be the lead byte of a character that is
there as a whole.

From there on it is an invariant: what was recorded and what is held back are
the bytes that were read. What is held back at the end is then well formed
itself, and so nothing is there to be replaced.
-/

namespace QuMesh.App

open QuMesh.Lib QuMesh.Terminal

/-! ## Fronts of well-formed text -/

/-- Less than one character. -/
def Partial (t : Bytes) : Prop :=
  ∃ c, sequenceLength c = some c.length ∧ t <+: c ∧ t.length < c.length

theorem partial_nil : Partial [] :=
  ⟨[0x41], by decide, List.nil_prefix, by decide⟩

/-- Behind well-formed text in well-formed text is well-formed text. -/
theorem wellFormed_cancel {a b : Bytes} (ha : WellFormed a)
    (hab : WellFormed (a ++ b)) : WellFormed b := by
  induction ha with
  | nil => exact hab
  | @cons c rest hc _ ih =>
      apply ih
      rw [List.append_assoc] at hab
      generalize hall : c ++ (rest ++ b) = all at hab
      cases hab with
      | nil =>
          have hpos := (sequenceLength_some hc).1
          rw [(List.append_eq_nil_iff.mp hall).1] at hpos
          exact absurd hpos (Nat.lt_irrefl 0)
      | @cons d tail hd htail =>
          have hlen : c.length = d.length := by
            have hfront := sequenceLength_append hc (rest ++ b)
            rw [hall, sequenceLength_append hd] at hfront
            exact (Option.some.inj hfront).symm
          obtain ⟨-, rfl⟩ := List.append_inj hall hlen
          exact htail

/-- The front of well-formed text is well formed up to less than one
character. -/
theorem front_split {s front : Bytes} (hs : WellFormed s) (h : front <+: s) :
    ∃ w t, front = w ++ t ∧ WellFormed w ∧ Partial t := by
  induction hs generalizing front with
  | nil => exact ⟨[], [], by simpa using h, .nil, partial_nil⟩
  | @cons c rest hc hrest ih =>
      by_cases hlen : c.length ≤ front.length
      · obtain ⟨more, rfl⟩ : c <+: front :=
          List.prefix_of_prefix_length_le (List.prefix_append c rest) h hlen
        have hmore : more <+: rest := (List.prefix_append_right_inj c).mp h
        obtain ⟨w, t, rfl, hw, ht⟩ := ih hmore
        exact ⟨c ++ w, t, (List.append_assoc ..).symm, .cons hc hw, ht⟩
      · have hlt : front.length < c.length := by omega
        have hfront : front <+: c :=
          List.prefix_of_prefix_length_le h (List.prefix_append c rest)
            (Nat.le_of_lt hlt)
        exact ⟨[], front, rfl, .nil, c, hc, hfront, hlt⟩

/-- Well-formed text is empty, or a character is at its end. -/
theorem wellFormed_last {w : Bytes} (hw : WellFormed w) :
    w = [] ∨ ∃ before c, w = before ++ c ∧ sequenceLength c = some c.length := by
  induction hw with
  | nil => exact .inl rfl
  | @cons c rest hc _ ih =>
      right
      rcases ih with rfl | ⟨before, d, rfl, hd⟩
      · exact ⟨[], c, List.append_nil c, hc⟩
      · exact ⟨c ++ before, d, (List.append_assoc ..).symm, hd⟩

/-! ## Looking back -/

theorem lookBack_ascii {b : UInt8} (hb : b < 0x80) (back : Nat)
    (before : Bytes) : lookBack back (b :: before) = 0 := by
  have hall : ∀ n < 128, UInt8.ofNat n &&& 0x80 = 0 := by decide
  have hzero := hall b.toNat hb
  rw [UInt8.ofNat_toNat] at hzero
  rw [lookBack, if_pos hzero]

set_option maxRecDepth 10000 in
theorem lookBack_continuation {cs : Bytes}
    (hcs : ∀ c ∈ cs, isContinuation c = true) (back : Nat) (before : Bytes) :
    lookBack back (cs ++ before) = lookBack (back + cs.length) before := by
  have hall : ∀ n < 256, isContinuation (UInt8.ofNat n) = true →
      UInt8.ofNat n &&& 0x80 ≠ 0 ∧ UInt8.ofNat n &&& 0xC0 = 0x80 := by
    decide
  induction cs generalizing back with
  | nil => rfl
  | cons c cs ih =>
      rw [List.forall_mem_cons] at hcs
      have hc := hall c.toNat c.toNat_lt
      rw [UInt8.ofNat_toNat] at hc
      obtain ⟨hhigh, hbits⟩ := hc hcs.1
      rw [List.cons_append, lookBack, if_neg hhigh, if_pos hbits, ih hcs.2,
        List.length_cons]
      congr 1
      omega

set_option maxRecDepth 10000 in
/-- A lead byte is the front of a character or all of it. -/
theorem lookBack_lead {lead : UInt8} (hlead : ¬lead < 0xC2)
    (hann : announced lead ≠ 0) (back : Nat) (before : Bytes) :
    lookBack back (lead :: before) =
      if back ≤ announced lead then back else 0 := by
  have hall : ∀ n < 256, ¬UInt8.ofNat n < 0xC2 → announced (UInt8.ofNat n) ≠ 0 →
      UInt8.ofNat n &&& 0x80 ≠ 0 ∧ UInt8.ofNat n &&& 0xC0 ≠ 0x80 ∧
        neededBytes (UInt8.ofNat n) = some (announced (UInt8.ofNat n) + 1) := by
    decide
  have hbits := hall lead.toNat lead.toNat_lt
  rw [UInt8.ofNat_toNat] at hbits
  obtain ⟨hhigh, hcont, hneeded⟩ := hbits hlead hann
  rw [lookBack, if_neg hhigh, if_neg hcont, hneeded]
  simp only [Nat.lt_succ_iff]

/-- Nothing is held back of a character that is complete. -/
theorem incompleteUtf8TailLen_complete {before c : Bytes}
    (hc : sequenceLength c = some c.length) :
    incompleteUtf8TailLen (before ++ c) = 0 := by
  unfold incompleteUtf8TailLen
  rw [List.reverse_append]
  by_cases hone : c.length = 1
  · obtain ⟨b, rfl⟩ := List.length_eq_one_iff.mp hone
    exact lookBack_ascii (sequenceLength_single hc) 1 _
  obtain ⟨lead, tail, rfl, hlead, hann, hne, hcont⟩ := sequence_lead hc hone
  have hpos := List.length_pos_iff.mpr hne
  have hfour := sequenceLength_le hc
  have hback : ∀ x ∈ tail.reverse, isContinuation x = true := by
    simpa using hcont
  rw [List.length_cons] at hfour
  rw [List.reverse_cons, List.append_assoc, List.take_append,
    List.length_reverse]
  by_cases hthree : tail.length = 3
  · rw [hthree, Nat.sub_self, List.take_zero, List.append_nil,
      List.take_of_length_le (by rw [List.length_reverse]; omega),
      ← List.append_nil tail.reverse, lookBack_continuation hback]
    rfl
  · have hlook : 3 - tail.length = (2 - tail.length) + 1 := by omega
    rw [List.take_of_length_le (by rw [List.length_reverse]; omega),
      lookBack_continuation hback, hlook, List.singleton_append,
      List.take_succ_cons, lookBack_lead hlead (by omega),
      List.length_reverse, if_neg (by omega)]

/-- All there is of a character that is not complete is held back. -/
theorem incompleteUtf8TailLen_cut {before t : Bytes} (ht : Partial t)
    (hne : t ≠ []) : incompleteUtf8TailLen (before ++ t) = t.length := by
  obtain ⟨c, hc, hfront, hlt⟩ := ht
  have hpos := List.length_pos_iff.mpr hne
  have hfour := sequenceLength_le hc
  obtain ⟨lead, tail, rfl, hlead, hann, -, hcont⟩ :=
    sequence_lead hc (by omega)
  obtain ⟨first, some, rfl⟩ := List.exists_cons_of_ne_nil hne
  obtain ⟨rfl, hsome⟩ := List.cons_prefix_cons.mp hfront
  rw [List.length_cons, List.length_cons] at hlt
  rw [List.length_cons] at hfour
  have hback : ∀ x ∈ some.reverse, isContinuation x = true := by
    intro x hx
    exact hcont x (hsome.subset (List.mem_reverse.mp hx))
  have hlook : 3 - some.length = (2 - some.length) + 1 := by omega
  unfold incompleteUtf8TailLen
  rw [List.reverse_append, List.reverse_cons, List.append_assoc,
    List.take_append, List.length_reverse,
    List.take_of_length_le (by rw [List.length_reverse]; omega),
    lookBack_continuation hback, hlook, List.singleton_append,
    List.take_succ_cons, lookBack_lead hlead (by omega), List.length_reverse,
    if_pos (by omega), List.length_cons]
  omega

/-- The cut: what is in front of it is well formed. -/
theorem wellFormed_cut {s front : Bytes} (hs : WellFormed s) (h : front <+: s) :
    WellFormed (front.take (front.length - incompleteUtf8TailLen front)) := by
  obtain ⟨w, t, rfl, hw, ht⟩ := front_split hs h
  by_cases hne : t = []
  · subst hne
    rw [List.append_nil]
    have hzero : incompleteUtf8TailLen w = 0 := by
      rcases wellFormed_last hw with rfl | ⟨before, c, rfl, hc⟩
      · rfl
      · exact incompleteUtf8TailLen_complete hc
    rw [hzero, Nat.sub_zero, List.take_length]
    exact hw
  · rw [incompleteUtf8TailLen_cut ht hne, List.length_append,
      Nat.add_sub_cancel, List.take_left]
    exact hw

/-! ## What is recorded -/

namespace AsciicastRecorder

variable {r : AsciicastRecorder}

theorem recordedText_line (lines : List Json) (line : Json) :
    recordedText (lines ++ [line]) = recordedText lines ++ outputText line :=
  List.foldl_append

theorem outputText_event (elapsed : Json) (text : Text) :
    outputText (event elapsed text) = text := by
  rw [event, outputText, if_pos rfl]

@[simp] theorem disk_writeLine (path : Text) (line : Json) :
    (r.writeLine path line).disk path = r.disk path ++ [line] :=
  if_pos rfl

/-- The text that is recorded and the bytes that are held back are what was
read. -/
structure Recorded (r : AsciicastRecorder) (path : Text) (got : Bytes) :
    Prop where
  file : r.file = some path
  bytes : (recordedText (r.disk path)).utf8 ++ r.tail = got

/-- A text that is written is recorded behind the others. -/
theorem utf8_written (path : Text) (elapsed : Json) (text : Text) :
    (recordedText ((r.writeLine path (event elapsed text)).disk path)).utf8 =
      (recordedText (r.disk path)).utf8 ++ text.utf8 := by
  rw [disk_writeLine, recordedText_line, outputText_event]
  rfl

/-- One read, of a session that is valid whatever comes behind it. -/
theorem Recorded.pushBytes {path : Text} {got more : Bytes}
    (hr : r.Recorded path got) (elapsed : Json) (bytes : Bytes)
    (hs : WellFormed (got ++ bytes ++ more))
    (hmark : ¬byteOrderMark <:+: got ++ bytes ++ more) :
    (r.pushBytes elapsed bytes).Recorded path (got ++ bytes) := by
  obtain ⟨hfile, rfl⟩ := hr
  have hrest : WellFormed (r.tail ++ bytes ++ more) := by
    apply wellFormed_cancel (recordedText (r.disk path)).valid
    simpa only [List.append_assoc] using hs
  unfold AsciicastRecorder.pushBytes
  rw [hfile]
  dsimp only
  split
  next hempty =>
    obtain rfl := List.isEmpty_iff.mp hempty
    exact ⟨hfile, (List.append_nil _).symm⟩
  generalize hbuf : r.tail ++ bytes = buf at hrest ⊢
  generalize hcut : buf.length - incompleteUtf8TailLen buf = cut
  have hwf : WellFormed (buf.take cut) := by
    rw [← hcut]
    exact wellFormed_cut hrest (List.prefix_append buf more)
  have hjoin : buf.take cut ++ buf.drop cut = r.tail ++ bytes := by
    rw [List.take_append_drop, hbuf]
  split
  next hnone =>
    rw [List.isEmpty_iff.mp hnone, List.nil_append] at hjoin
    refine ⟨rfl, ?_⟩
    show _ ++ buf.drop cut = _
    rw [hjoin, List.append_assoc]
  next =>
    have hplain : ¬byteOrderMark <+: buf.take cut := by
      intro hfront
      apply hmark
      have hbefore : buf.take cut <:+: r.tail ++ bytes :=
        ⟨[], buf.drop cut, by rw [List.nil_append, hjoin]⟩
      refine (hfront.isInfix.trans hbefore).trans ?_
      exact ⟨(recordedText (r.disk path)).utf8, more, by simp⟩
    have htext : (Text.ofUtf8 (buf.take cut)).utf8 = buf.take cut :=
      hwf.fromUtf8 hplain
    refine ⟨rfl, ?_⟩
    rw [utf8_written, htext]
    show _ ++ _ ++ buf.drop cut = _
    rw [List.append_assoc, hjoin, List.append_assoc]

/-- What is held back at the end is text. -/
theorem Recorded.stop {path : Text} {got : Bytes} (hr : r.Recorded path got)
    (elapsed : Json) (hs : WellFormed got) (hmark : ¬byteOrderMark <:+: got) :
    (recordedText ((r.stop elapsed).disk path)).utf8 = got := by
  obtain ⟨hfile, rfl⟩ := hr
  have htail : WellFormed r.tail :=
    wellFormed_cancel (recordedText (r.disk path)).valid hs
  have hplain : ¬byteOrderMark <+: r.tail := by
    intro hfront
    exact hmark (hfront.isInfix.trans (List.suffix_append _ _).isInfix)
  unfold AsciicastRecorder.stop
  rw [hfile]
  dsimp only
  split
  next hempty =>
    rw [List.isEmpty_iff.mp hempty, List.append_nil]
  next =>
    have htext : (Text.ofUtf8 r.tail).utf8 = r.tail := htail.fromUtf8 hplain
    show (recordedText ((r.writeLine path _).disk path)).utf8 = _
    rw [utf8_written, htext]

/-- A recording begins with nothing in it. -/
theorem recorded_start {o : Opening} {path title : Text} {cols rows : Int}
    (h : (r.start o path cols rows title).1 = true) :
    (r.start o path cols rows title).2.Recorded path [] := by
  revert h
  unfold AsciicastRecorder.start
  dsimp only
  intro h
  split at h
  · cases h
  next hsize =>
  split at h
  · cases h
  next hopen =>
  split at h
  · cases h
  next hheader =>
  rw [if_neg hsize, if_neg hopen, if_neg hheader]
  refine ⟨rfl, ?_⟩
  simp only [List.append_nil, disk_writeLine, if_true]
  rfl

def pushAll (r : AsciicastRecorder) (pushes : List (Json × Bytes)) :
    AsciicastRecorder :=
  pushes.foldl (fun r p => r.pushBytes p.1 p.2) r

theorem Recorded.pushAll {path : Text} {got s : Bytes} (hr : r.Recorded path got)
    {pushes : List (Json × Bytes)} (hs : got ++ (pushes.map Prod.snd).flatten = s)
    (hwf : WellFormed s) (hmark : ¬byteOrderMark <:+: s) :
    (r.pushAll pushes).Recorded path s := by
  induction pushes generalizing r got with
  | nil =>
      rw [← hs, List.map_nil, List.flatten_nil, List.append_nil]
      exact hr
  | cons p pushes ih =>
      rw [List.map_cons, List.flatten_cons, ← List.append_assoc] at hs
      have hone : (r.pushBytes p.1 p.2).Recorded path (got ++ p.2) := by
        rw [← hs] at hwf hmark
        exact hr.pushBytes p.1 p.2 hwf hmark
      exact ih hone hs

/-- Whatever the reads are, the recording has the text of the session. -/
theorem recording_is_session {o : Opening} {path title : Text} {cols rows : Int}
    (hstart : (r.start o path cols rows title).1 = true) {s : Bytes}
    (hwf : WellFormed s) (hmark : ¬byteOrderMark <:+: s)
    {pushes : List (Json × Bytes)} (hs : (pushes.map Prod.snd).flatten = s)
    (elapsed : Json) :
    let stopped := ((r.start o path cols rows title).2.pushAll pushes).stop elapsed
    recordedText (stopped.disk path) = .ofUtf8 s := by
  intro stopped
  have hpushed := (recorded_start hstart).pushAll hs hwf hmark
  have hbytes : (recordedText (stopped.disk path)).utf8 = s :=
    hpushed.stop elapsed hwf hmark
  have hplain : ¬byteOrderMark <+: (recordedText (stopped.disk path)).utf8 := by
    rw [hbytes]
    exact fun hfront => hmark hfront.isInfix
  calc recordedText (stopped.disk path)
      = .ofUtf8 (recordedText (stopped.disk path)).utf8 :=
        (Text.ofUtf8_utf8 hplain).symm
    _ = .ofUtf8 s := by rw [hbytes]

/-- The euro sign and a face, by the byte. -/
theorem recording_is_session_byByte :
    let r : AsciicastRecorder := { disk := fun _ => [] }
    let o : Opening := ⟨.int 0, 1700000000, true, true⟩
    let path := Text.lit "a.cast"
    let s : Bytes := [0xE2, 0x82, 0xAC, 0xF0, 0x9F, 0x98, 0x80]
    let pushes := s.map fun b => (Json.fraction, [b])
    let stopped :=
      ((r.start o path 80 24 (.lit "sol")).2.pushAll pushes).stop .fraction
    recordedText (stopped.disk path) = .ofUtf8 s :=
  recording_is_session (by decide) (by decide)
    (by decide) rfl .fraction

end AsciicastRecorder

end QuMesh.App
