import QuMesh.Terminal.Parser

/-!
# What an escape sequence finds

A sequence is to have its effect whatever the parser was in the middle of. From
the ground it has, and from inside an OSC string as well, since both take ESC
for the beginning of a sequence and nothing is held there that it would find.
The other two states have no rule for ESC. After an ESC it is one more sequence
the parser does not know, and drops the ESC; inside a CSI it is a byte of the
body, and the bracket behind it is a final byte. The rest is then printed.

`resyncs_iff` says that it is just these two. That printing differs from any
sequence is seen on the shortest one that leaves the screen alone.
-/

namespace QuMesh.Terminal

open QuMesh.Lib

/-- A digit or a semicolon. -/
def isCsiParam (b : UInt8) : Bool := (0x30 ≤ b && b ≤ 0x39) || b = 0x3B

def csiSequence (params : Bytes) (final : UInt8) : Bytes :=
  [0x1B, 0x5B] ++ params ++ [final]

namespace TerminalScreen

/-- What the law asks for: a sequence has the effect that it has from the
ground, and leaves the parser there. -/
def Resyncs (s : TerminalScreen) : Prop :=
  ∀ params final, (∀ b ∈ params, isCsiParam b = true) →
    params.length < csiMaxBytes → isCsiFinal final = true →
      s.feed (csiSequence params final) =
          s.toGround.feed (csiSequence params final) ∧
        ∀ t, s.feed (csiSequence params final) = .ok t →
          t.parser.state = .ground

variable {s t u : TerminalScreen}

/-! ## What leaves the parser alone -/

/-- An operation of the screen, which is none of the parser's. -/
def KeepsParser (s : TerminalScreen) (m : Except Fault TerminalScreen) : Prop :=
  ∀ t, m = .ok t → t.parser = s.parser

namespace KeepsParser

theorem ok (h : t.parser = s.parser) : KeepsParser s (.ok t) := by
  intro u hu
  cases hu
  exact h

theorem bind {α : Type} {m : Except Fault α}
    {f : α → Except Fault TerminalScreen} (h : ∀ a, KeepsParser s (f a)) :
    KeepsParser s (m >>= f) := by
  intro t ht
  obtain ⟨a, -, ha⟩ := bind_ok ht
  exact h a t ha

theorem trans {m : Except Fault TerminalScreen}
    {f : TerminalScreen → Except Fault TerminalScreen} (h : KeepsParser s m)
    (hf : ∀ t, KeepsParser t (f t)) : KeepsParser s (m >>= f) := by
  intro u hu
  obtain ⟨t, ht, hft⟩ := bind_ok hu
  exact (hf t u hft).trans (h t ht)

theorem forInt {body : Int → TerminalScreen → Except Fault TerminalScreen}
    (hbody : ∀ i t, KeepsParser t (body i t)) (n : Nat) (i : Int)
    (s : TerminalScreen) : KeepsParser s (forInt body n i s) := by
  induction n generalizing i s with
  | zero => exact ok rfl
  | succ n ih => exact (hbody i s).trans (ih (i + 1))

end KeepsParser

theorem setCell_parses (row column : Int) (cell : Cell) (s : TerminalScreen) :
    KeepsParser s (s.setCell row column cell) :=
  .bind fun _ => .bind fun _ => .ok rfl

theorem clearCells_parses (row lo hi : Int) (s : TerminalScreen) :
    KeepsParser s (s.clearCells row lo hi) :=
  .forInt (fun c t => setCell_parses row c {} t) _ _ s

theorem putCellAtCursor_parses (fragment : List UInt16) (s : TerminalScreen) :
    KeepsParser s (s.putCellAtCursor fragment) := by
  cases fragment with
  | nil => exact .ok rfl
  | cons first rest => exact (setCell_parses _ _ _ s).trans fun t => .ok rfl

theorem scrollUp_parses (s : TerminalScreen) : KeepsParser s s.scrollUp := by
  refine KeepsParser.trans (.forInt (fun r t => ?_) _ _ s) fun t =>
    clearCells_parses _ _ _ t
  refine .forInt (fun c u => ?_) _ _ t
  exact .bind fun _ => .bind fun _ => .bind fun _ => setCell_parses _ _ _ u

theorem lineFeed_parses (s : TerminalScreen) : KeepsParser s s.lineFeed := by
  refine .bind fun next => ?_
  split
  · exact (scrollUp_parses s).trans fun t => .ok rfl
  · exact .ok rfl

theorem handleC0_parses (b : UInt8) (s : TerminalScreen) :
    KeepsParser s (s.handleC0 b) := by
  unfold handleC0
  split
  · exact .ok rfl
  split
  · unfold backspace
    split <;> exact .ok rfl
  split
  · exact .bind fun _ => .ok rfl
  split
  · exact lineFeed_parses s
  split <;> exact .ok rfl

theorem resize_parses (newRows newColumns : Int) (s : TerminalScreen) :
    KeepsParser s (s.resize newRows newColumns) := by
  unfold resize
  split
  · exact .ok rfl
  split
  · exact .ok rfl
  exact .bind fun _ => .bind fun _ => .ok rfl

/-! ## What is held outside of a sequence -/

/-- A sequence is held inside a CSI only. -/
def Cleared (s : TerminalScreen) : Prop :=
  s.parser.state ≠ .csi → s.parser.seq = [] ∧ s.parser.csiPrivate = false

theorem Cleared.of_parses (h : s.Cleared) (hparser : t.parser = s.parser) :
    t.Cleared := by
  intro hstate
  rw [hparser] at hstate ⊢
  exact h hstate

theorem consumeUtf8_seq (b : UInt8) (p : Vt100Parser) :
    (p.consumeUtf8 b).2.state = p.state ∧ (p.consumeUtf8 b).2.seq = p.seq ∧
      (p.consumeUtf8 b).2.csiPrivate = p.csiPrivate := by
  unfold Vt100Parser.consumeUtf8
  dsimp only
  repeat' split
  all_goals exact ⟨rfl, rfl, rfl⟩

theorem feedByte_cleared (h : s.Cleared) {b : UInt8}
    (ht : s.feedByte b = .ok t) : t.Cleared := by
  unfold feedByte at ht
  cases hstate : s.parser.state with
  | ground =>
      simp only [hstate] at ht
      split at ht
      · cases ht
        exact fun _ => ⟨rfl, rfl⟩
      split at ht
      · exact h.of_parses (handleC0_parses b s t ht)
      split at ht
      · exact h.of_parses (putCellAtCursor_parses _ s t ht)
      · obtain ⟨hst, hseq, hprivate⟩ := consumeUtf8_seq b s.parser
        intro hne
        have hparser := putCellAtCursor_parses _ _ t ht
        rw [hparser]
        show (s.parser.consumeUtf8 b).2.seq = [] ∧
          (s.parser.consumeUtf8 b).2.csiPrivate = false
        rw [hseq, hprivate]
        exact h (by rw [hstate]; simp)
  | escape =>
      obtain ⟨hseq, hprivate⟩ := h (by rw [hstate]; simp)
      simp only [hstate] at ht
      split at ht
      · cases ht
        exact fun hne => absurd rfl hne
      repeat' split at ht
      all_goals
        cases ht
        exact fun _ => ⟨hseq, hprivate⟩
  | csi =>
      simp only [hstate] at ht
      split at ht
      · cases ht
        exact fun hne => absurd rfl hne
      split at ht
      · cases ht
        exact fun _ => ⟨rfl, rfl⟩
      split at ht
      · obtain ⟨u, -, hu⟩ := bind_ok ht
        cases hu
        exact fun _ => ⟨rfl, rfl⟩
      · cases ht
        exact fun hne => absurd rfl hne
  | osc =>
      obtain ⟨hseq, hprivate⟩ := h (by rw [hstate]; simp)
      simp only [hstate] at ht
      repeat' split at ht
      all_goals
        cases ht
        exact fun _ => ⟨hseq, hprivate⟩

theorem foldlM_cleared (bytes : Bytes) (h : s.Cleared)
    (ht : bytes.foldlM feedByte s = .ok t) : t.Cleared := by
  induction bytes generalizing s with
  | nil =>
      cases ht
      exact h
  | cons b bytes ih =>
      obtain ⟨u, hu, htail⟩ := bind_ok ht
      exact ih (feedByte_cleared h hu) htail

theorem call_cleared (h : s.Cleared) {call : Call} (ht : s.call call = .ok t) :
    t.Cleared := by
  cases call with
  | feed bytes =>
      obtain ⟨u, hu, htouch⟩ := bind_ok ht
      cases htouch
      exact (foldlM_cleared bytes h hu).of_parses rfl
  | resize newRows newColumns =>
      exact h.of_parses (resize_parses newRows newColumns s t ht)
  | clear =>
      cases ht
      exact h.of_parses rfl

theorem calls_cleared (calls : List Call) (h : s.Cleared)
    (ht : calls.foldlM call s = .ok t) : t.Cleared := by
  induction calls generalizing s with
  | nil =>
      cases ht
      exact h
  | cons c calls ih =>
      obtain ⟨u, hu, htail⟩ := bind_ok ht
      exact ih (call_cleared h hu) htail

/-! ## A sequence that is taken as one -/

theorem csiParam_ne {b : UInt8} (h : isCsiParam b = true) :
    b ≠ 0x3F ∧ isCsiFinal b = false := by
  simp only [isCsiParam, Bool.or_eq_true, Bool.and_eq_true, decide_eq_true_eq,
    UInt8.le_iff_toNat_le, ← UInt8.toNat_inj] at h
  simp only [ne_eq, isCsiFinal, Bool.and_eq_false_iff, decide_eq_false_iff_not,
    UInt8.le_iff_toNat_le, ← UInt8.toNat_inj]
  simp only [UInt8.reduceToNat] at h ⊢
  omega

/-- A byte inside a CSI, unless it is the mark of a private one. -/
theorem feedByte_csi (hstate : s.parser.state = .csi) {b : UInt8}
    (hne : ¬(s.parser.seq = [] ∧ b = 0x3F)) :
    s.feedByte b =
      if s.parser.seq.length ≥ csiMaxBytes then .ok s.dropSeq
      else
        let t := s.withParser { s.parser with seq := s.parser.seq ++ [b] }
        if isCsiFinal b then t.handleCsi >>= fun t => .ok t.dropSeq
        else .ok t := by
  unfold feedByte
  simp only [hstate]
  exact if_neg hne

/-- Inside a CSI the parameters are held as they come. -/
theorem feed_params {params : Bytes} (hparams : ∀ b ∈ params, isCsiParam b = true)
    {p : Vt100Parser} (hstate : p.state = .csi)
    (hroom : p.seq.length + params.length ≤ csiMaxBytes) :
    params.foldlM feedByte (s.withParser p) =
      .ok (s.withParser { p with seq := p.seq ++ params }) := by
  induction params generalizing p with
  | nil =>
      rw [List.append_nil]
      rfl
  | cons b params ih =>
      rw [List.forall_mem_cons] at hparams
      rw [List.length_cons] at hroom
      obtain ⟨hne, hfinal⟩ := csiParam_ne hparams.1
      have hbyte : (s.withParser p).feedByte b =
          .ok (s.withParser { p with seq := p.seq ++ [b] }) := by
        have hheld : ¬p.seq.length ≥ csiMaxBytes := by omega
        rw [feedByte_csi hstate fun h => hne h.2]
        refine (if_neg hheld).trans (if_neg ?_)
        simp [hfinal]
      have hlen : (p.seq ++ [b]).length + params.length ≤ csiMaxBytes := by
        rw [List.length_append, List.length_singleton]
        omega
      rw [List.foldlM_cons, hbyte, ok_bind,
        ih (p := { p with seq := p.seq ++ [b] }) hparams.2 hstate hlen]
      simp only [List.append_assoc, List.singleton_append]

/-- Inside a CSI with nothing held, the rest of a sequence leads to the
ground. -/
theorem csi_to_ground {params : Bytes} {final : UInt8}
    (hparams : ∀ b ∈ params, isCsiParam b = true)
    (hroom : params.length < csiMaxBytes) (hfinal : isCsiFinal final = true)
    {p : Vt100Parser} (hstate : p.state = .csi) (hseq : p.seq = [])
    (ht : (params ++ [final]).foldlM feedByte (s.withParser p) = .ok t) :
    t.parser.state = .ground := by
  rw [List.foldlM_append, feed_params hparams hstate (by rw [hseq]; simp; omega),
    ok_bind, List.foldlM_cons] at ht
  obtain ⟨u, hu, hlast⟩ := bind_ok ht
  cases hlast
  have hne : final ≠ 0x3F := by
    rintro rfl
    cases hfinal
  have hheld : ¬(p.seq ++ params).length ≥ csiMaxBytes := by
    rw [hseq, List.nil_append]
    omega
  rw [feedByte_csi hstate fun h => hne h.2] at hu
  obtain ⟨v, -, hv⟩ := bind_ok
    ((((if_neg hheld).trans (if_pos hfinal)).symm.trans hu))
  cases hv
  rfl

/-- Where ESC and the bracket are taken for what they are. -/
def Opens (s : TerminalScreen) : Prop :=
  s.parser.state = .ground ∨ s.parser.state = .osc

theorem feed_opening (h : s.Cleared) (hopens : s.Opens) :
    [0x1B, 0x5B].foldlM feedByte s =
      .ok (s.withParser { s.parser with
        state := .csi, seq := [], csiPrivate := false }) := by
  rcases hopens with hstate | hstate
  · have hfirst : s.feedByte 0x1B = .ok (s.withParser { s.parser with
        state := .escape, seq := [], csiPrivate := false }) := by
      unfold feedByte
      simp only [hstate]
      rfl
    rw [List.foldlM_cons, hfirst]
    rfl
  · obtain ⟨hseq, hprivate⟩ := h (by rw [hstate]; simp)
    have hfirst : s.feedByte 0x1B = .ok (s.withParser { s.parser with
        state := .escape, seq := [], csiPrivate := false }) := by
      unfold feedByte
      simp only [hstate, ← hseq, ← hprivate]
      rfl
    rw [List.foldlM_cons, hfirst]
    rfl

theorem opens_resyncs (h : s.Cleared) (hopens : s.Opens) : s.Resyncs := by
  intro params final hparams hroom hfinal
  have hseq : csiSequence params final = [0x1B, 0x5B] ++ (params ++ [final]) :=
    List.append_assoc _ _ _
  have hground : [0x1B, 0x5B].foldlM feedByte s.toGround =
      .ok (s.withParser { s.parser with
        state := .csi, seq := [], csiPrivate := false }) := rfl
  rw [hseq, feed, feed, List.foldlM_append, List.foldlM_append,
    feed_opening h hopens, hground]
  refine ⟨rfl, fun t ht => ?_⟩
  rw [ok_bind] at ht
  obtain ⟨u, hu, htouch⟩ := bind_ok ht
  cases htouch
  show u.parser.state = .ground
  exact csi_to_ground hparams hroom hfinal rfl rfl hu

/-! ## A sequence that is printed -/

theorem putCellAtCursor_out {fragment : List UInt16} (hne : fragment ≠ [])
    (ht : s.putCellAtCursor fragment = .ok t) :
    t.out = s.out ++ [.cursorMoved] := by
  cases fragment with
  | nil => exact absurd rfl hne
  | cons first rest =>
      obtain ⟨u, hu, hlast⟩ := bind_ok ht
      obtain ⟨i, -, hi⟩ := bind_ok hu
      obtain ⟨cells, -, hcells⟩ := bind_ok hi
      cases hcells
      cases hlast
      rfl

/-- The final byte of the sequence that is looked at, where it is printed. -/
theorem feedByte_printed (hstate : s.parser.state = .ground) {b : UInt8}
    (hb : ¬(b = 0x1B)) (hlo : ¬b < 0x20) (hhi : b < 0x80)
    (ht : s.feedByte b = .ok t) :
    t.parser = s.parser ∧ t.out = s.out ++ [.cursorMoved] := by
  unfold feedByte at ht
  simp only [hstate] at ht
  rw [if_neg hb, if_neg hlo, if_pos hhi] at ht
  exact ⟨putCellAtCursor_parses _ s t ht,
    putCellAtCursor_out (List.cons_ne_nil _ _) ht⟩

/-- A bracket as a final byte does nothing. -/
theorem handleCsi_bracket (hlast : s.parser.seq.getLast? = some 0x5B)
    (ht : s.handleCsi = .ok t) : t = s := by
  unfold handleCsi at ht
  simp only [hlast] at ht
  obtain ⟨params, -, hparams⟩ := bind_ok ht
  split at hparams
  · cases hparams
    rfl
  · have hnone : s.handleFinal 0x5B params = .ok s := rfl
    rw [hnone] at hparams
    cases hparams
    rfl

/-- Where ESC and the bracket are not taken for what they are, the parser is
back on the ground behind them, and nothing is taken back that was signalled. -/
theorem feed_not_opening (hopens : ¬s.Opens)
    (ht : [0x1B, 0x5B].foldlM feedByte s = .ok t) :
    t.parser.state = .ground ∧ s.out.length ≤ t.out.length := by
  obtain ⟨u, hu, htail⟩ := bind_ok ht
  obtain ⟨v, hv, hdone⟩ := bind_ok htail
  cases hdone
  cases hstate : s.parser.state with
  | ground => exact absurd (.inl hstate) hopens
  | osc => exact absurd (.inr hstate) hopens
  | escape =>
      unfold feedByte at hu
      simp only [hstate] at hu
      cases hu
      obtain ⟨hparser, hout⟩ := feedByte_printed (s := s.toGround) rfl
        (by decide) (by decide) (by decide) hv
      rw [hparser, hout]
      exact ⟨rfl, by simp [toGround, withParser]⟩
  | csi =>
      rw [feedByte_csi hstate fun h => absurd h.2 (by decide)] at hu
      split at hu
      · cases hu
        obtain ⟨hparser, hout⟩ := feedByte_printed (s := s.dropSeq) rfl
          (by decide) (by decide) (by decide) hv
        rw [hparser, hout]
        exact ⟨rfl, by simp [dropSeq, withParser]⟩
      · cases hu
        rw [feedByte_csi (b := 0x5B) (s := s.withParser { s.parser with
          seq := s.parser.seq ++ [0x1B] }) hstate
            fun h => absurd h.2 (by decide)] at hv
        split at hv
        · cases hv
          exact ⟨rfl, Nat.le_refl _⟩
        · obtain ⟨w, hw, hlast⟩ := bind_ok hv
          cases hlast
          rw [handleCsi_bracket (by simp [withParser]) hw]
          exact ⟨rfl, Nat.le_refl _⟩

/-- The shortest sequence, which resets the attributes. -/
theorem not_opens_resyncs (hopens : ¬s.Opens) : ¬s.Resyncs := by
  intro hresyncs
  obtain ⟨hsame, -⟩ := hresyncs [] 0x6D (by simp) (by decide) (by decide)
  have hground : s.toGround.feed (csiSequence [] 0x6D) =
      .ok (s.dropSeq.resetAttributes).touch := rfl
  rw [hground] at hsame
  obtain ⟨t, ht, htouch⟩ := bind_ok hsame
  have hseq : csiSequence [] 0x6D = [0x1B, 0x5B] ++ [0x6D] := rfl
  rw [hseq, List.foldlM_append] at ht
  obtain ⟨u, hu, hlast⟩ := bind_ok ht
  obtain ⟨v, hv, hdone⟩ := bind_ok hlast
  cases hdone
  obtain ⟨hstate, hle⟩ := feed_not_opening hopens hu
  obtain ⟨-, hout⟩ := feedByte_printed hstate (by decide) (by decide)
    (by decide) hv
  have hlen : t.touch.out.length = s.dropSeq.resetAttributes.touch.out.length :=
    congrArg (fun s : TerminalScreen => s.out.length) (Except.ok.inj htouch)
  have hleft : t.touch.out.length = u.out.length + 2 := by
    show (t.out ++ [_]).length = _
    rw [hout]
    simp
  have hright : s.dropSeq.resetAttributes.touch.out.length = s.out.length + 1 :=
    List.length_append
  omega

/-- Where a run of calls from a new screen on leads, a sequence has its effect
just if the parser is on the ground or inside an OSC string. -/
theorem resyncs_iff {calls : List Call}
    (hcalls : calls.foldlM call {} = .ok s) :
    s.Resyncs ↔ s.parser.state = .ground ∨ s.parser.state = .osc := by
  have hcleared : s.Cleared := calls_cleared calls (fun _ => ⟨rfl, rfl⟩) hcalls
  constructor
  · intro hresyncs
    by_contra hopens
    exact not_opens_resyncs hopens hresyncs
  · exact opens_resyncs hcleared

/-- In the middle of a title. -/
theorem resyncs_title :
    (({} : TerminalScreen).withParser { state := .osc }).touch.Resyncs := by
  have hcalls : [Call.feed [0x1B, 0x5D, 0x30]].foldlM call {} =
      .ok (({} : TerminalScreen).withParser { state := .osc }).touch := rfl
  exact (resyncs_iff hcalls).mpr (.inr rfl)

/-- In the middle of a CSI: the sequence that resets the attributes is printed
from its third byte on. -/
theorem not_resyncs_csi :
    ∃ s, ({} : TerminalScreen).call (.feed [0x1B, 0x5B, 0x33]) = .ok s ∧
      ¬s.Resyncs := by
  refine ⟨_, rfl, not_opens_resyncs ?_⟩
  rintro (hground | hosc)
  · cases hground
  · cases hosc

end TerminalScreen

end QuMesh.Terminal
