import QuMesh.Proofs.EscapeResync
import QuMesh.Proofs.TerminalGrid

/-!
# Sequences with other bytes in them

A body is held as it comes, and its parameters are read up to the first byte
that is none of theirs. What the byte is nobody asks: but for a question mark in
front, the sequence is the plain command with the parameters before it. So such
a sequence is ignored just if it is marked private, or too long to be executed,
or a command that does nothing with these parameters.

That a command does something is seen on two screens, which differ in where the
cursor is and in every part of the pen. A cursor that is set leaves one of the
two, and an attribute that is set is the same on both then.
-/

namespace QuMesh.Terminal

open QuMesh.Lib

namespace TerminalScreen

def responses (s : TerminalScreen) : List Bytes :=
  s.out.filterMap fun
    | .respond bytes => some bytes
    | _ => none

/-- What a sequence that is ignored leaves alone. -/
structure SameShown (s t : TerminalScreen) : Prop where
  rows : t.rows = s.rows
  columns : t.columns = s.columns
  cells : t.cells = s.cells
  cursor : t.cursorRow = s.cursorRow ∧ t.cursorColumn = s.cursorColumn
  saved : t.savedRow = s.savedRow ∧ t.savedColumn = s.savedColumn
  pen : t.pen = s.pen
  responses : t.responses = s.responses

/-- The operation ends, and leaves what is shown alone. -/
def Keeps (s : TerminalScreen) (m : Except Fault TerminalScreen) : Prop :=
  ∃ t, m = .ok t ∧ SameShown s t

/-- The sequence is ignored. -/
def Ignores (s : TerminalScreen) (body : Bytes) (final : UInt8) : Prop :=
  s.Keeps (s.feed (csiSequence body final))

/-! ## Commands that do nothing -/

/-- A code that sets none of the attributes. -/
def sgrCodeIdle (code : Int) : Bool :=
  !(code = 0 ∨ code = 1 ∨ code = 4 ∨ code = 7 ∨ code = 22 ∨ code = 24 ∨
    code = 27 ∨ (30 ≤ code ∧ code ≤ 37) ∨ code = 39 ∨
    (40 ≤ code ∧ code ≤ 47) ∨ code = 49 ∨ (90 ≤ code ∧ code ≤ 97) ∨
    (100 ≤ code ∧ code ≤ 107))

/-- Codes that set none. Behind a `38` or a `48` stands a color, if it is all
there. -/
def sgrIdle : List Int → Bool
  | [] => true
  | code :: params =>
      if code = 38 ∨ code = 48 then
        match params with
        | [] => true
        | mode :: rest =>
            if mode = 5 then rest = []
            else if mode = 2 then rest.length < 3
            else sgrIdle rest
      else sgrCodeIdle code && sgrIdle params

/-- The command does nothing with these parameters, on any screen. -/
def idleCommand (final : UInt8) (params : List Int) : Bool :=
  match Char.ofNat final.toNat with
  | 'A' | 'B' | 'C' | 'D' | 'E' | 'F' | 'G' | 'H' | 'f' | 'J' | 's' | 'u' =>
      false
  | 'K' => 2 < params.getD 0 0
  | 'm' => sgrIdle params
  | 't' =>
      params.getD 0 0 ≠ 14 ∧ params.getD 0 0 ≠ 18 ∧ params.getD 0 0 ≠ 19
  | _ => true

/-- The condition: the sequence is marked private, or too long to be executed,
or the command does nothing with the parameters that stand before the first
byte that belongs to none. -/
def Harmless (body : Bytes) (final : UInt8) : Prop :=
  body.head? = some 0x3F ∨ body.length = csiMaxBytes ∨
    ∃ params, parseParams body = .ok params ∧ idleCommand final params = true

variable {s t u : TerminalScreen}

theorem SameShown.refl (s : TerminalScreen) : SameShown s s :=
  ⟨rfl, rfl, rfl, ⟨rfl, rfl⟩, ⟨rfl, rfl⟩, rfl, rfl⟩

theorem SameShown.trans (h : SameShown s t) (h' : SameShown t u) :
    SameShown s u :=
  ⟨h'.rows.trans h.rows, h'.columns.trans h.columns, h'.cells.trans h.cells,
    ⟨h'.cursor.1.trans h.cursor.1, h'.cursor.2.trans h.cursor.2⟩,
    ⟨h'.saved.1.trans h.saved.1, h'.saved.2.trans h.saved.2⟩,
    h'.pen.trans h.pen, h'.responses.trans h.responses⟩

theorem SameShown.symm (h : SameShown s t) : SameShown t s :=
  ⟨h.rows.symm, h.columns.symm, h.cells.symm,
    ⟨h.cursor.1.symm, h.cursor.2.symm⟩, ⟨h.saved.1.symm, h.saved.2.symm⟩,
    h.pen.symm, h.responses.symm⟩

theorem sameShown_withParser (s : TerminalScreen) (p : Vt100Parser) :
    SameShown s (s.withParser p) :=
  ⟨rfl, rfl, rfl, ⟨rfl, rfl⟩, ⟨rfl, rfl⟩, rfl, rfl⟩

theorem sameShown_touch (s : TerminalScreen) : SameShown s s.touch := by
  refine ⟨rfl, rfl, rfl, ⟨rfl, rfl⟩, ⟨rfl, rfl⟩, rfl, ?_⟩
  simp [responses, touch, emit]

theorem Keeps.parser {p : Vt100Parser} {m : Except Fault TerminalScreen} :
    (s.withParser p).Keeps m ↔ s.Keeps m :=
  ⟨fun ⟨t, ht, h⟩ => ⟨t, ht, (sameShown_withParser s p).trans h⟩,
    fun ⟨t, ht, h⟩ => ⟨t, ht, (sameShown_withParser s p).symm.trans h⟩⟩

/-! ## The body -/

/-- The bytes of a body are held as they come, but for question marks in
front. -/
theorem feed_body {body : Bytes} (hbody : ∀ b ∈ body, isCsiFinal b = false)
    {p : Vt100Parser} (hstate : p.state = .csi)
    (hroom : p.seq.length + body.length ≤ csiMaxBytes) :
    ∃ q, body.foldlM feedByte (s.withParser p) = .ok (s.withParser q) ∧
      q.state = .csi ∧ (p.csiPrivate = true → q.csiPrivate = true) ∧
      (p.seq = [] ∧ body.head? = some 0x3F → q.csiPrivate = true) ∧
      (¬(p.seq = [] ∧ body.head? = some 0x3F) →
        q = { p with seq := p.seq ++ body }) := by
  induction body generalizing p with
  | nil =>
      refine ⟨p, rfl, hstate, id, (fun h => nomatch h.2), fun _ => ?_⟩
      rw [List.append_nil]
  | cons b body ih =>
      rw [List.forall_mem_cons] at hbody
      rw [List.length_cons] at hroom
      rw [List.foldlM_cons]
      by_cases hmark : p.seq = [] ∧ b = 0x3F
      · have hbyte : (s.withParser p).feedByte b =
            .ok (s.withParser { p with csiPrivate := true }) := by
          unfold feedByte
          simp only [withParser, hstate]
          exact if_pos hmark
        have hless : p.seq.length + body.length ≤ csiMaxBytes := by omega
        obtain ⟨q, hq, hqstate, hkept, -, -⟩ :=
          @ih hbody.2 { p with csiPrivate := true } hstate hless
        rw [hbyte, ok_bind]
        refine ⟨q, hq, hqstate, fun _ => hkept rfl, fun _ => hkept rfl,
          fun hno => absurd ⟨hmark.1, ?_⟩ hno⟩
        rw [hmark.2]
        rfl
      · have hheld : ¬p.seq.length ≥ csiMaxBytes := by omega
        have hbyte : (s.withParser p).feedByte b =
            .ok (s.withParser { p with seq := p.seq ++ [b] }) := by
          rw [feedByte_csi hstate hmark]
          refine (if_neg hheld).trans (if_neg ?_)
          rw [hbody.1]
          decide
        have hlen : (p.seq ++ [b]).length + body.length ≤ csiMaxBytes := by
          rw [List.length_append, List.length_singleton]
          omega
        obtain ⟨q, hq, hqstate, hkept, -, happend⟩ :=
          @ih hbody.2 { p with seq := p.seq ++ [b] } hstate hlen
        have hne : ¬((p.seq ++ [b]) = [] ∧ body.head? = some 0x3F) := by
          simp
        rw [hbyte, ok_bind]
        refine ⟨q, hq, hqstate, hkept, ?_, fun _ => ?_⟩
        · rintro ⟨hseq, hhead⟩
          exact absurd ⟨hseq, Option.some.inj hhead⟩ hmark
        · rw [happend hne, List.append_assoc]
          rfl

theorem handleCsi_held {body : Bytes} {final : UInt8}
    (hseq : s.parser.seq = body ++ [final]) :
    s.handleCsi = parseParams body >>= fun params =>
      if s.parser.csiPrivate then .ok s else s.handleFinal final params := by
  rw [handleCsi, hseq, List.getLast?_append, List.dropLast_concat]
  rfl

/-- With a whole sequence held. -/
def holding (s : TerminalScreen) (body : Bytes) (final : UInt8) :
    TerminalScreen :=
  s.withParser { s.parser with
    state := .csi, seq := body ++ [final], csiPrivate := false }

/-- A sequence that is not marked private, and that is held, is the plain
command with the parameters before the first byte that belongs to none. -/
theorem ignores_iff (h : s.Cleared) (hopens : s.Opens) {body : Bytes}
    {final : UInt8} (hbody : ∀ b ∈ body, isCsiFinal b = false)
    (hfinal : isCsiFinal final = true) (hroom : body.length ≤ csiMaxBytes) :
    s.Ignores body final ↔ body.head? = some 0x3F ∨
      body.length = csiMaxBytes ∨ ∃ params, parseParams body = .ok params ∧
        s.Keeps ((s.holding body final).handleFinal final params) := by
  have hbytes : csiSequence body final = [0x1B, 0x5B] ++ (body ++ [final]) :=
    List.append_assoc _ _ _
  obtain ⟨q, hq, hstate, -, hprivate, hseq⟩ := @feed_body s body hbody
    { s.parser with state := .csi, seq := [], csiPrivate := false } rfl
    (by simpa using hroom)
  have hne : ¬(q.seq = [] ∧ final = 0x3F) := by
    rintro ⟨-, rfl⟩
    cases hfinal
  have hfeed : s.feed (csiSequence body final) =
      (s.withParser q).feedByte final >>= fun t => .ok t.touch := by
    rw [hbytes, feed, List.foldlM_append, feed_opening h hopens, ok_bind,
      List.foldlM_append, hq, ok_bind, List.foldlM_cons]
    cases (s.withParser q).feedByte final <;> rfl
  -- behind the command the sequence is let go, and the screen is drawn
  have hlast : ∀ m : Except Fault TerminalScreen,
      (s.Keeps ((m >>= fun t => .ok t.dropSeq) >>= fun t => .ok t.touch) ↔
        s.Keeps m) := by
    intro m
    cases m with
    | error e =>
        constructor
        · rintro ⟨t, ht, -⟩
          cases ht
        · rintro ⟨t, ht, -⟩
          cases ht
    | ok t =>
        have hend : SameShown t t.dropSeq.touch :=
          (sameShown_withParser t _).trans (sameShown_touch _)
        constructor
        · rintro ⟨_, hu, hkept⟩
          cases hu
          exact ⟨t, rfl, hkept.trans hend.symm⟩
        · rintro ⟨_, hu, hkept⟩
          cases hu
          exact ⟨t.dropSeq.touch, rfl, hkept.trans hend⟩
  rw [Ignores, hfeed, feedByte_csi (s := s.withParser q) hstate hne]
  have hdropped : s.Keeps ((Except.ok (s.withParser q).dropSeq :
      Except Fault TerminalScreen) >>= fun t => .ok t.touch) :=
    (hlast (.ok (s.withParser q))).mpr ⟨_, rfl, sameShown_withParser s q⟩
  -- a sequence that is held is executed with its final byte
  have hexec : ¬q.seq.length ≥ csiMaxBytes → ∀ params,
      parseParams q.seq = .ok params →
      (s.Keeps ((if (s.withParser q).parser.seq.length ≥ csiMaxBytes then
          .ok (s.withParser q).dropSeq
        else
          let t := (s.withParser q).withParser { (s.withParser q).parser with
            seq := (s.withParser q).parser.seq ++ [final] }
          if isCsiFinal final then t.handleCsi >>= fun t => .ok t.dropSeq
          else .ok t) >>= fun t => .ok t.touch) ↔
        s.Keeps (if q.csiPrivate then
            .ok (s.withParser { q with seq := q.seq ++ [final] })
          else
            (s.withParser { q with seq := q.seq ++ [final] }).handleFinal final
              params)) := by
    intro hheld params hparams
    rw [if_neg (show ¬(s.withParser q).parser.seq.length ≥ csiMaxBytes from hheld)]
    simp only [hfinal, if_true]
    rw [hlast]
    have hcsi := handleCsi_held
      (s := s.withParser { q with seq := q.seq ++ [final] })
      (show _ = q.seq ++ [final] from rfl)
    rw [hparams] at hcsi
    exact Eq.to_iff (congrArg (Keeps s) hcsi)
  by_cases hmark : body.head? = some 0x3F
  · refine iff_of_true ?_ (.inl hmark)
    by_cases hheld : q.seq.length ≥ csiMaxBytes
    · rw [if_pos (show (s.withParser q).parser.seq.length ≥ csiMaxBytes from hheld)]
      exact hdropped
    · obtain ⟨params, hparams, -⟩ := parseParams_safe q.seq
      rw [hexec hheld params hparams, hprivate ⟨rfl, hmark⟩, if_pos rfl]
      exact ⟨_, rfl, sameShown_withParser s _⟩
  · have hq' := hseq fun hno => hmark hno.2
    rw [List.nil_append] at hq'
    have hbodyq : q.seq = body := by rw [hq']
    have hpublic : q.csiPrivate = false := by rw [hq']
    by_cases hfull : body.length = csiMaxBytes
    · refine iff_of_true ?_ (.inr (.inl hfull))
      have hheld : (s.withParser q).parser.seq.length ≥ csiMaxBytes := by
        show q.seq.length ≥ csiMaxBytes
        rw [hbodyq]
        omega
      rw [if_pos hheld]
      exact hdropped
    · have hheld : ¬q.seq.length ≥ csiMaxBytes := by
        rw [hbodyq]
        omega
      obtain ⟨params, hparams, -⟩ := parseParams_safe body
      have hrun := hexec hheld params (hbodyq ▸ hparams)
      rw [hpublic, if_neg Bool.false_ne_true, hq'] at hrun
      rw [hq', hrun, hparams]
      simp only [hmark, hfull, false_or]
      constructor
      · intro hkept
        exact ⟨params, rfl, hkept⟩
      · rintro ⟨params', hsame, hkept⟩
        cases hsame
        exact hkept

/-! ## Attributes -/

theorem handleSgrCode_idle {code : Int} (h : sgrCodeIdle code = true)
    (s : TerminalScreen) : s.handleSgrCode code = s := by
  simp only [sgrCodeIdle, Bool.not_eq_true', decide_eq_false_iff_not,
    not_or] at h
  obtain ⟨h₀, h₁, h₂, h₃, h₄, h₅, h₆, h₇, h₈, h₉, h₁₀, h₁₁, h₁₂⟩ := h
  rw [handleSgrCode, if_neg h₀, if_neg h₁, if_neg h₂, if_neg h₃, if_neg h₄,
    if_neg h₅, if_neg h₆, if_neg h₇, if_neg h₈, if_neg h₉, if_neg h₁₀,
    if_neg h₁₁, if_neg h₁₂]

/-- Where a color is not all there nothing is set, and the codes behind it set
nothing either. -/
theorem consumeExtendedColor_idle {code : Int} (hcode : code = 38 ∨ code = 48)
    {params : List Int} (h : sgrIdle (code :: params) = true) :
    ∃ rest, consumeExtendedColor params = .ok (none, rest) ∧
      sgrIdle rest = true := by
  cases params with
  | nil => exact ⟨[], rfl, rfl⟩
  | cons mode rest =>
      unfold sgrIdle at h
      simp only [hcode, if_true] at h
      unfold consumeExtendedColor
      dsimp only
      by_cases hfive : mode = 5
      · rw [if_pos hfive] at h ⊢
        cases of_decide_eq_true h
        exact ⟨[], rfl, rfl⟩
      · rw [if_neg hfive] at h ⊢
        by_cases htwo : mode = 2
        · rw [if_pos htwo] at h ⊢
          have hshort := of_decide_eq_true h
          refine ⟨[], ?_, rfl⟩
          match rest with
          | [] => rfl
          | [_] => rfl
          | [_, _] => rfl
          | _ :: _ :: _ :: _ =>
              simp only [List.length_cons] at hshort
              omega
        · rw [if_neg htwo] at h ⊢
          exact ⟨rest, rfl, h⟩

/-- Codes that set none of the attributes do nothing. -/
theorem handleSgrLoop_idle (fuel : Nat) {params : List Int}
    (h : sgrIdle params = true) (s : TerminalScreen) :
    handleSgrLoop fuel params s = .ok s := by
  induction fuel generalizing params with
  | zero => rfl
  | succ fuel ih =>
      cases params with
      | nil => rfl
      | cons code params =>
          have hcolor : (code = 38 ∨ code = 48) →
              ∀ f : UInt8 → TerminalScreen → TerminalScreen,
              (consumeExtendedColor params >>= fun p =>
                handleSgrLoop fuel p.2 (p.1.elim s (f · s))) = .ok s := by
            intro hcode f
            obtain ⟨rest, hrest, hidle⟩ := consumeExtendedColor_idle hcode h
            rw [hrest, ok_bind]
            exact ih hidle
          rw [handleSgrLoop]
          by_cases h38 : code = 38
          · rw [if_pos h38]
            exact hcolor (.inl h38) setFg
          · rw [if_neg h38]
            by_cases h48 : code = 48
            · rw [if_pos h48]
              exact hcolor (.inr h48) setBg
            · unfold sgrIdle at h
              rw [if_neg (not_or.mpr ⟨h38, h48⟩), Bool.and_eq_true] at h
              rw [if_neg h48, handleSgrCode_idle h.1]
              exact ih h.2

/-- Two pens that have a color or an attribute in common. -/
def Meet (p q : Cell) : Prop :=
  p.fg = q.fg ∨ p.bg = q.bg ∨ p.attrs &&& attrBold = q.attrs &&& attrBold ∨
    p.attrs &&& attrUnderline = q.attrs &&& attrUnderline ∨
    p.attrs &&& attrReverse = q.attrs &&& attrReverse

theorem setBit_and (a bit : UInt8) : (a ||| bit) &&& bit = bit := by
  refine UInt8.toBitVec_inj.mp (BitVec.eq_of_getLsbD_eq fun i hi => ?_)
  simp only [UInt8.toBitVec_and, UInt8.toBitVec_or, BitVec.getLsbD_and,
    BitVec.getLsbD_or]
  cases bit.toBitVec.getLsbD i <;> simp

theorem clearBit_and (a bit : UInt8) : (a &&& ~~~bit) &&& bit = 0 := by
  rw [UInt8.and_assoc, UInt8.not_and_self, UInt8.and_zero]

/-- An attribute that is set on two pens is the same on both. -/
theorem setAttr_and (bit : UInt8) (on : Bool) (s t : TerminalScreen) :
    (s.setAttr bit on).pen.attrs &&& bit =
      (t.setAttr bit on).pen.attrs &&& bit := by
  cases on with
  | true => exact (setBit_and _ bit).trans (setBit_and _ bit).symm
  | false => exact (clearBit_and _ bit).trans (clearBit_and _ bit).symm

/-- A code that sets something sets it on both. -/
theorem handleSgrCode_meet (code : Int) (s t : TerminalScreen)
    (h : sgrCodeIdle code = false ∨ Meet s.pen t.pen) :
    Meet (s.handleSgrCode code).pen (t.handleSgrCode code).pen := by
  have hbold := fun on => setAttr_and attrBold on s t
  have hunderline := fun on => setAttr_and attrUnderline on s t
  have hreverse := fun on => setAttr_and attrReverse on s t
  by_cases hidle : sgrCodeIdle code = true
  · rw [handleSgrCode_idle hidle, handleSgrCode_idle hidle]
    exact h.resolve_left (by rw [hidle]; decide)
  · simp only [sgrCodeIdle, Bool.not_eq_true', decide_eq_false_iff_not,
      not_not] at hidle
    have hite {p : Prop} [Decidable p] {u u' v v' : TerminalScreen}
        (hu : p → Meet u.pen u'.pen) (hv : ¬p → Meet v.pen v'.pen) :
        Meet (if p then u else v).pen (if p then u' else v').pen := by
      by_cases hp : p
      · rw [if_pos hp, if_pos hp]
        exact hu hp
      · rw [if_neg hp, if_neg hp]
        exact hv hp
    unfold handleSgrCode
    refine hite (fun _ => .inl rfl) fun h₀ => ?_
    refine hite (fun _ => .inr (.inr (.inl (hbold true)))) fun h₁ => ?_
    refine hite (fun _ => .inr (.inr (.inr (.inl (hunderline true)))))
      fun h₂ => ?_
    refine hite (fun _ => .inr (.inr (.inr (.inr (hreverse true)))))
      fun h₃ => ?_
    refine hite (fun _ => .inr (.inr (.inl (hbold false)))) fun h₄ => ?_
    refine hite (fun _ => .inr (.inr (.inr (.inl (hunderline false)))))
      fun h₅ => ?_
    refine hite (fun _ => .inr (.inr (.inr (.inr (hreverse false)))))
      fun h₆ => ?_
    refine hite (fun _ => .inl rfl) fun h₇ => ?_
    refine hite (fun _ => .inl rfl) fun h₈ => ?_
    refine hite (fun _ => .inr (.inl rfl)) fun h₉ => ?_
    refine hite (fun _ => .inr (.inl rfl)) fun h₁₀ => ?_
    refine hite (fun _ => .inl rfl) fun h₁₁ => ?_
    refine hite (fun _ => .inr (.inl rfl)) fun h₁₂ => ?_
    simp only [h₀, h₁, h₂, h₃, h₄, h₅, h₆, h₇, h₈, h₉, h₁₀, h₁₁, h₁₂,
      or_self] at hidle

/-- Where no color is consumed, what is left is idle if the whole was. -/
theorem consumeExtendedColor_ok {code : Int} (hcode : code = 38 ∨ code = 48)
    {params rest : List Int} {idx : Option UInt8}
    (h : consumeExtendedColor params = .ok (idx, rest)) :
    rest.length ≤ params.length ∧
      (idx = none → sgrIdle (code :: params) = sgrIdle rest) := by
  cases params with
  | nil =>
      cases h
      refine ⟨Nat.le_refl 0, fun _ => ?_⟩
      unfold sgrIdle
      rw [if_pos hcode]
  | cons mode tail =>
      unfold sgrIdle
      rw [if_pos hcode]
      unfold consumeExtendedColor at h
      dsimp only at h ⊢
      by_cases hfive : mode = 5
      · rw [if_pos hfive] at h ⊢
        cases tail with
        | nil =>
            cases h
            exact ⟨Nat.zero_le _, fun _ => rfl⟩
        | cons index tail =>
            cases h
            exact ⟨by simp only [List.length_cons]; omega, fun hnone => nomatch hnone⟩
      · rw [if_neg hfive] at h ⊢
        by_cases htwo : mode = 2
        · rw [if_pos htwo] at h ⊢
          match tail, h with
          | [], h | [_], h | [_, _], h =>
              cases h
              exact ⟨Nat.zero_le _, fun _ => rfl⟩
          | r :: g :: b :: tail, h =>
              obtain ⟨color, -, hcolor⟩ := bind_ok h
              cases hcolor
              exact ⟨by simp only [List.length_cons]; omega, fun hnone => nomatch hnone⟩
        · rw [if_neg htwo] at h ⊢
          cases h
          exact ⟨Nat.le_succ _, fun _ => sgrIdle.eq_def rest⟩

/-- Codes that set something set it on both. -/
theorem handleSgrLoop_meet {fuel : Nat} {params : List Int}
    (hfuel : params.length ≤ fuel) {s t s' t' : TerminalScreen}
    (h : sgrIdle params = false ∨ Meet s.pen t.pen)
    (hs : handleSgrLoop fuel params s = .ok s')
    (ht : handleSgrLoop fuel params t = .ok t') : Meet s'.pen t'.pen := by
  induction fuel generalizing params s t with
  | zero =>
      cases List.length_eq_zero_iff.mp (Nat.le_zero.mp hfuel)
      cases hs
      cases ht
      exact h.resolve_left (by decide)
  | succ fuel ih =>
      cases params with
      | nil =>
          cases hs
          cases ht
          exact h.resolve_left (by decide)
      | cons code params =>
          rw [List.length_cons] at hfuel
          have hcolor : (code = 38 ∨ code = 48) →
              ∀ f : UInt8 → TerminalScreen → TerminalScreen,
              (∀ idx, Meet (f idx s).pen (f idx t).pen) →
              (consumeExtendedColor params >>= fun p =>
                handleSgrLoop fuel p.2 (p.1.elim s (f · s))) = .ok s' →
              (consumeExtendedColor params >>= fun p =>
                handleSgrLoop fuel p.2 (p.1.elim t (f · t))) = .ok t' →
              Meet s'.pen t'.pen := by
            intro hcode f hmeet hs ht
            obtain ⟨⟨idx, rest⟩, hconsume, hs⟩ := bind_ok hs
            rw [hconsume, ok_bind] at ht
            obtain ⟨hlen, hnone⟩ := consumeExtendedColor_ok hcode hconsume
            refine ih (Nat.le_trans hlen (by omega)) ?_ hs ht
            cases idx with
            | some color => exact .inr (hmeet color)
            | none =>
                rw [hnone rfl] at h
                exact h
          rw [handleSgrLoop] at hs ht
          by_cases h38 : code = 38
          · rw [if_pos h38] at hs ht
            exact hcolor (.inl h38) setFg (fun _ => .inl rfl) hs ht
          · rw [if_neg h38] at hs ht
            by_cases h48 : code = 48
            · rw [if_pos h48] at hs ht
              exact hcolor (.inr h48) setBg (fun _ => .inr (.inl rfl)) hs ht
            · rw [if_neg h48] at hs ht
              unfold sgrIdle at h
              rw [if_neg (not_or.mpr ⟨h38, h48⟩), Bool.and_eq_false_iff] at h
              refine ih (by omega) ?_ hs ht
              rcases h with (hcode | hrest) | hmeet
              · exact .inr (handleSgrCode_meet code s t (.inl hcode))
              · exact .inl hrest
              · exact .inr (handleSgrCode_meet code s t (.inr hmeet))

/-! ## Two screens -/

/-- The cursor at home, on the only cell that is written. -/
def homeScreen : TerminalScreen :=
  { rows := 2
    columns := 2
    cells := #[{ ch := 0x78 }, {}, {}, {}]
    out := [.geometryChanged, .cursorMoved, .screenUpdated, .cursorMoved,
      .cursorMoved, .screenUpdated] }

/-- The cursor in the last place, and every part of the pen another one. -/
def farScreen : TerminalScreen :=
  { rows := 2
    columns := 2
    cursorRow := 1
    cursorColumn := 1
    pen := { fg := 1, bg := 1, attrs := 7 }
    cells := #[{}, {}, {}, {}]
    out := [.geometryChanged, .cursorMoved, .screenUpdated, .cursorMoved,
      .cursorMoved, .screenUpdated] }

def homeCalls : List Call := [.resize 2 2, .feed [0x78, 0x0D]]

/-- A line feed, a tab, and the codes 31, 41, 1, 4 and 7. -/
def farCalls : List Call :=
  [.resize 2 2, .feed [0x0A, 0x09, 0x1B, 0x5B, 0x33, 0x31, 0x3B, 0x34, 0x31,
    0x3B, 0x31, 0x3B, 0x34, 0x3B, 0x37, 0x6D]]

theorem of_toOption {m : Except Fault TerminalScreen}
    (h : m.toOption = some s) : m = .ok s := by
  cases m with
  | error e => cases h
  | ok t =>
      cases h
      rfl

set_option maxRecDepth 8000 in
theorem homeScreen_reached : homeCalls.foldlM call {} = .ok homeScreen :=
  of_toOption rfl

set_option maxRecDepth 8000 in
theorem farScreen_reached : farCalls.foldlM call {} = .ok farScreen :=
  of_toOption rfl

/-- Where a cursor is set and nothing changes, it was there. -/
theorem setCursor_keeps {p : Vt100Parser} {row column : Int}
    (h : s.Keeps (.ok ((s.withParser p).setCursor row column))) :
    clamp row 0 (s.rows - 1) = s.cursorRow ∧
      clamp column 0 (s.columns - 1) = s.cursorColumn := by
  obtain ⟨_, ht, hkept⟩ := h
  cases ht
  exact hkept.cursor

theorem int32_value {n m : Int} (h : int32 n = .ok m) : m = n := by
  unfold int32 at h
  split at h
  · cases h
    rfl
  · cases h

theorem moveCursor_keeps {p : Vt100Parser} {rowDelta columnDelta : Int}
    (h : s.Keeps ((s.withParser p).moveCursor rowDelta columnDelta)) :
    clamp (s.cursorRow + rowDelta) 0 (s.rows - 1) = s.cursorRow ∧
      clamp (s.cursorColumn + columnDelta) 0 (s.columns - 1) =
        s.cursorColumn := by
  obtain ⟨t, ht, hkept⟩ := h
  obtain ⟨row, hrow, ht⟩ := bind_ok ht
  obtain ⟨column, hcolumn, ht⟩ := bind_ok ht
  cases int32_value hrow
  cases int32_value hcolumn
  exact setCursor_keeps ⟨t, ht, hkept⟩

/-- What writes on the only cell that is written changes it. -/
theorem not_keeps_blank {m : Except Fault TerminalScreen}
    (hm : m.toOption.map (fun t => t.cells[0]?) = some (some ({} : Cell))) :
    ¬homeScreen.Keeps m := by
  rintro ⟨t, rfl, hkept⟩
  have hcell : t.cells[0]? = some ({} : Cell) := Option.some.inj hm
  rw [hkept.cells] at hcell
  exact absurd hcell (by decide)

theorem not_keeps_response {m : Except Fault TerminalScreen}
    (hm : m.toOption.map (fun t => t.responses.length) = some 1) :
    ¬homeScreen.Keeps m := by
  rintro ⟨t, rfl, hkept⟩
  have hlen : t.responses.length = 1 := Option.some.inj hm
  rw [hkept.responses] at hlen
  exact absurd hlen (by decide)

/-- A cursor that is set to one place leaves one of the two screens. -/
theorem position_keeps {p p' : Vt100Parser} {row column : Int}
    (hhome : homeScreen.Keeps (int32 row >>= fun row =>
      int32 column >>= fun column =>
        pure ((homeScreen.withParser p).setCursor row column)))
    (hfar : farScreen.Keeps (int32 row >>= fun row =>
      int32 column >>= fun column =>
        pure ((farScreen.withParser p').setCursor row column))) : False := by
  obtain ⟨t, ht, hkept⟩ := hhome
  obtain ⟨row₁, hrow, ht⟩ := bind_ok ht
  obtain ⟨column₁, -, ht⟩ := bind_ok ht
  obtain ⟨t', ht', hkept'⟩ := hfar
  obtain ⟨row₂, hrow', ht'⟩ := bind_ok ht'
  obtain ⟨column₂, -, ht'⟩ := bind_ok ht'
  cases int32_value hrow
  cases int32_value hrow'
  have hhome : clamp row 0 1 = 0 := (setCursor_keeps ⟨t, ht, hkept⟩).1
  have hfar : clamp row 0 1 = 1 := (setCursor_keeps ⟨t', ht', hkept'⟩).1
  omega

/-- A command that does something changes one of the two screens. -/
theorem idle_of_keeps {final : UInt8} {params : List Int}
    (hparams : Plausible params) (hne : params ≠ []) {p p' : Vt100Parser}
    (hhome : homeScreen.Keeps
      ((homeScreen.withParser p).handleFinal final params))
    (hfar : farScreen.Keeps
      ((farScreen.withParser p').handleFinal final params)) :
    idleCommand final params = true := by
  have hn := (param_bounds hparams 0).1
  have hclamp : ∀ v : Int, clamp v 0 1 = if v < 1 then 0 else 1 := by
    intro v
    unfold clamp
    split
    · rw [if_pos (by omega)]
    · split
      · rw [if_neg (by omega)]
      · split <;> omega
  unfold idleCommand
  unfold handleFinal at hhome hfar
  dsimp only at hhome hfar
  split
  · next hchar =>
    simp only [hchar] at hfar
    have hrow : clamp (1 + -param params 0 1) 0 1 = 1 := (moveCursor_keeps hfar).1
    rw [hclamp, if_pos (by omega)] at hrow
    cases hrow
  · next hchar =>
    simp only [hchar] at hhome
    have hrow : clamp (0 + param params 0 1) 0 1 = 0 := (moveCursor_keeps hhome).1
    rw [hclamp, if_neg (by omega)] at hrow
    cases hrow
  · next hchar =>
    simp only [hchar] at hhome
    have hcolumn : clamp (0 + param params 0 1) 0 1 = 0 :=
      (moveCursor_keeps hhome).2
    rw [hclamp, if_neg (by omega)] at hcolumn
    cases hcolumn
  · next hchar =>
    simp only [hchar] at hfar
    have hcolumn : clamp (1 + -param params 0 1) 0 1 = 1 :=
      (moveCursor_keeps hfar).2
    rw [hclamp, if_pos (by omega)] at hcolumn
    cases hcolumn
  · next hchar =>
    simp only [hchar] at hhome
    obtain ⟨t, ht, hkept⟩ := hhome
    obtain ⟨row, hrow, ht⟩ := bind_ok ht
    cases int32_value hrow
    have hrow : clamp (0 + param params 0 1) 0 1 = 0 :=
      (setCursor_keeps ⟨t, ht, hkept⟩).1
    rw [hclamp, if_neg (by omega)] at hrow
    cases hrow
  · next hchar =>
    simp only [hchar] at hfar
    obtain ⟨t, ht, hkept⟩ := hfar
    obtain ⟨row, hrow, ht⟩ := bind_ok ht
    cases int32_value hrow
    have hrow : clamp (1 - param params 0 1) 0 1 = 1 :=
      (setCursor_keeps ⟨t, ht, hkept⟩).1
    rw [hclamp, if_pos (by omega)] at hrow
    cases hrow
  · next hchar =>
    simp only [hchar] at hhome hfar
    obtain ⟨t, ht, hkept⟩ := hhome
    obtain ⟨column, hcolumn, ht⟩ := bind_ok ht
    obtain ⟨t', ht', hkept'⟩ := hfar
    obtain ⟨column', hcolumn', ht'⟩ := bind_ok ht'
    cases int32_value hcolumn
    cases int32_value hcolumn'
    have hhome : clamp (param params 0 1 - 1) 0 1 = 0 :=
      (setCursor_keeps ⟨t, ht, hkept⟩).2
    have hfar : clamp (param params 0 1 - 1) 0 1 = 1 :=
      (setCursor_keeps ⟨t', ht', hkept'⟩).2
    omega
  · next hchar =>
    simp only [hchar] at hhome hfar
    exact (position_keeps hhome hfar).elim
  · next hchar =>
    simp only [hchar] at hhome hfar
    exact (position_keeps hhome hfar).elim
  · next hchar =>
    simp only [hchar] at hhome
    refine absurd hhome (not_keeps_blank ?_)
    unfold eraseInDisplay
    by_cases h₀ : params.getD 0 0 = 0
    · rw [if_pos h₀]
      rfl
    · by_cases h₁ : params.getD 0 0 = 1
      · rw [if_neg h₀, if_pos h₁]
        rfl
      · rw [if_neg h₀, if_neg h₁]
        rfl
  · next hchar =>
    simp only [hchar] at hfar
    obtain ⟨t, ht, hkept⟩ := hfar
    cases ht
    exact absurd (show (1 : Int) = 0 from hkept.saved.1) (by decide)
  · next hchar =>
    simp only [hchar] at hfar
    have hrow : clamp 0 0 1 = 1 := (setCursor_keeps hfar).1
    exact absurd hrow (by decide)
  · next hchar =>
    simp only [hchar] at hhome
    have hmode : 0 ≤ params.getD 0 0 := by
      cases params with
      | nil => exact absurd rfl hne
      | cons n params => exact (hparams n List.mem_cons_self).1
    refine decide_eq_true ?_
    by_contra hle
    refine absurd hhome (not_keeps_blank ?_)
    unfold eraseInLine
    by_cases h₀ : params.getD 0 0 = 0
    · rw [if_pos h₀]
      rfl
    · by_cases h₁ : params.getD 0 0 = 1
      · rw [if_neg h₀, if_pos h₁]
        rfl
      · rw [if_neg h₀, if_neg h₁, if_pos (by omega)]
        rfl
  · next hchar =>
    simp only [hchar, handleSgr, if_neg hne] at hhome hfar
    obtain ⟨t, ht, hkept⟩ := hhome
    obtain ⟨t', ht', hkept'⟩ := hfar
    by_contra hidle
    have hmeet := handleSgrLoop_meet (Nat.le_refl _)
      (.inl (Bool.of_not_eq_true hidle)) ht ht'
    rw [hkept.pen, hkept'.pen] at hmeet
    exact absurd hmeet (by unfold Meet; decide)
  · next hchar =>
    simp only [hchar] at hhome
    refine decide_eq_true ⟨fun hop => ?_, fun hop => ?_, fun hop => ?_⟩
    all_goals
      refine absurd hhome (not_keeps_response ?_)
      unfold handleWindowOps
      simp only [hop]
      rfl
  · rfl

theorem keeps_of_idle {final : UInt8} {params : List Int} (hne : params ≠ [])
    (h : idleCommand final params = true) (s : TerminalScreen) :
    s.handleFinal final params = .ok s := by
  unfold idleCommand at h
  unfold handleFinal
  dsimp only
  split at h
  case h_13 hchar =>
    simp only [hchar]
    have hmode := of_decide_eq_true h
    unfold eraseInLine
    rw [if_neg (by omega), if_neg (by omega), if_neg (by omega)]
  case h_14 hchar =>
    simp only [hchar]
    unfold handleSgr
    rw [if_neg hne]
    exact handleSgrLoop_idle _ h s
  case h_15 hchar =>
    simp only [hchar]
    obtain ⟨h₁, h₂, h₃⟩ := of_decide_eq_true h
    unfold handleWindowOps
    dsimp only
    rw [if_neg h₁, if_neg h₂, if_neg h₃]
  case h_16 =>
    split
    all_goals first
      | rfl
      | next hchar => exact absurd hchar (by assumption)
  all_goals cases h

theorem parseParams_ne_nil {body : Bytes} {params : List Int}
    (h : parseParams body = .ok params) : params ≠ [] := by
  obtain ⟨p, -, hp⟩ := bind_ok h
  cases hp
  simp

/-- Whenever ESC and the bracket are taken for what they are, a sequence is
ignored just if it is harmless. -/
theorem always_ignored_iff {body : Bytes} {final : UInt8}
    (hbody : ∀ b ∈ body, isCsiFinal b = false)
    (hfinal : isCsiFinal final = true) (hroom : body.length ≤ csiMaxBytes) :
    (∀ (calls : List Call) (s : TerminalScreen),
        calls.foldlM call {} = .ok s → s.Opens → s.Ignores body final) ↔
      Harmless body final := by
  have hiff (calls : List Call) (s : TerminalScreen)
      (hcalls : calls.foldlM call {} = .ok s) (hopens : s.Opens) :=
    ignores_iff (calls_cleared calls (fun _ => ⟨rfl, rfl⟩) hcalls) hopens hbody
      hfinal hroom
  constructor
  · intro h
    have hhome := h homeCalls homeScreen homeScreen_reached (.inl rfl)
    have hfar := h farCalls farScreen farScreen_reached (.inl rfl)
    rw [hiff homeCalls homeScreen homeScreen_reached (.inl rfl)] at hhome
    rw [hiff farCalls farScreen farScreen_reached (.inl rfl)] at hfar
    rcases hhome with hmark | hfull | ⟨params, hparams, hhome⟩
    · exact .inl hmark
    · exact .inr (.inl hfull)
    · rcases hfar with hmark | hfull | ⟨params', hparams', hfar⟩
      · exact .inl hmark
      · exact .inr (.inl hfull)
      · have hsame := hparams.symm.trans hparams'
        cases hsame
        refine .inr (.inr ⟨params, hparams, ?_⟩)
        exact idle_of_keeps ((parseParams_safe body).of_eq hparams)
          (parseParams_ne_nil hparams) hhome hfar
  · rintro h calls s hcalls hopens
    rw [hiff calls s hcalls hopens]
    rcases h with hmark | hfull | ⟨params, hparams, hidle⟩
    · exact .inl hmark
    · exact .inr (.inl hfull)
    · refine .inr (.inr ⟨params, hparams, ?_⟩)
      rw [keeps_of_idle (parseParams_ne_nil hparams) hidle]
      exact ⟨_, rfl, sameShown_withParser s _⟩

/-- The law: a sequence with a byte in its body that is no digit and no
semicolon is ignored, on every screen that calls lead to. -/
def ForeignIgnored (body : Bytes) (final : UInt8) : Prop :=
  (∃ b ∈ body, isCsiParam b = false) →
    ∀ (calls : List Call) (s : TerminalScreen),
      calls.foldlM call {} = .ok s → s.Opens → s.Ignores body final

/-- The sequences that the law holds of. -/
theorem foreign_ignored_iff {body : Bytes} {final : UInt8}
    (hbody : ∀ b ∈ body, isCsiFinal b = false)
    (hfinal : isCsiFinal final = true) (hroom : body.length ≤ csiMaxBytes) :
    ForeignIgnored body final ↔
      (∀ b ∈ body, isCsiParam b = true) ∨ Harmless body final := by
  rw [← always_ignored_iff hbody hfinal hroom]
  constructor
  · intro h
    by_cases hplain : ∀ b ∈ body, isCsiParam b = true
    · exact .inl hplain
    · simp only [not_forall, Bool.not_eq_true] at hplain
      obtain ⟨b, hb, hforeign⟩ := hplain
      exact .inr (h ⟨b, hb, hforeign⟩)
  · rintro (hplain | h) ⟨b, hb, hforeign⟩
    · rw [hplain b hb] at hforeign
      cases hforeign
    · exact h

/-- `CSI ? 2 5 h`, which hides the cursor. -/
theorem foreign_ignored_private : ForeignIgnored [0x3F, 0x32, 0x35] 0x68 :=
  (foreign_ignored_iff (by simp [isCsiFinal]) (by decide) (by decide)).mpr
    (.inr (.inl rfl))

/-- `CSI 2 SP A`, which scrolls to the right elsewhere, is executed as a move of
the cursor up. -/
theorem foreign_executed : ¬∀ body final,
    (∀ b ∈ body, isCsiFinal b = false) → isCsiFinal final = true →
      body.length ≤ csiMaxBytes → ForeignIgnored body final := by
  intro h
  have hbody : ∀ b ∈ [0x32, 0x20], isCsiFinal b = false := by simp [isCsiFinal]
  have hlaw := h [0x32, 0x20] 0x41 hbody (by decide) (by decide)
    ⟨0x20, by decide, by decide⟩
  rcases (always_ignored_iff hbody (by decide) (by decide)).mp hlaw with
    hmark | hfull | ⟨params, -, hidle⟩
  · exact absurd hmark (by decide)
  · exact absurd hfull (by decide)
  · cases hidle

end TerminalScreen

end QuMesh.Terminal
