import QuMesh.Proofs.CellLook
import QuMesh.Proofs.TerminalGrid

/-!
# A row as rich text

What a row shows is read back with a reader of its own, which knows the tags and
entities that `lineHtml` writes and refuses every other use of `<`, `>` and `&`.
It is fed unit by unit, so what it makes of two texts is what it makes of the
one and then of the other. The styles it comes upon are read to looks in the
end, and a cell must have the look of its own colors and attributes.

No device byte becomes markup because of what a cell can hold: the second unit
of a cell is the second half of a pair, and the first one is escaped. The runs
come out right because the loop always has the text of the cells before the open
run, and the cells of the open run look the same.
-/

namespace QuMesh.Terminal

open QuMesh.Lib

/-! ## A reader -/

/-- Between tags, in a tag, or in an entity; and the style that is open. -/
inductive Reading where
  | text (style : List UInt16)
  | tag (style name : List UInt16)
  | entity (style name : List UInt16)
  deriving DecidableEq, Repr

/-- What was read so far: units, each with its style. -/
structure HtmlReader where
  reading : Reading := .text []
  shown : List (List UInt16 × UInt16) := []
  deriving DecidableEq, Repr

namespace HtmlReader

def entities : List (List UInt16 × UInt16) :=
  [(units "lt", 0x3C), (units "gt", 0x3E), (units "amp", 0x26),
    (units "nbsp", 0x20)]

/-- A tag opens a span where none is open, or closes one. -/
def tagEnd (style name : List UInt16) : Option (List UInt16) :=
  if name = units "/span" then
    if style = [] then none else some []
  else if style = [] ∧ name.take 12 = units "span style=\"" ∧
      (name.drop 12).getLast? = some 0x22 ∧
      0x22 ∉ (name.drop 12).dropLast then
    some (name.drop 12).dropLast
  else none

def isMarkup (u : UInt16) : Bool := u = 0x3C || u = 0x3E || u = 0x26

def step (r : HtmlReader) (u : UInt16) : Option HtmlReader :=
  match r.reading with
  | .text style =>
      if u = 0x3C then some { r with reading := .tag style [] }
      else if u = 0x26 then some { r with reading := .entity style [] }
      else if u = 0x3E then none
      else some { r with shown := r.shown ++ [(style, u)] }
  | .tag style name =>
      if u = 0x3E then
        (tagEnd style name).map fun style => { r with reading := .text style }
      else if isMarkup u then none
      else some { r with reading := .tag style (name ++ [u]) }
  | .entity style name =>
      if u = 0x3B then
        (entities.lookup name).map fun v =>
          { reading := .text style, shown := r.shown ++ [(style, v)] }
      else if isMarkup u then none
      else some { r with reading := .entity style (name ++ [u]) }

def read (r : HtmlReader) (html : List UInt16) : Option HtmlReader :=
  html.foldlM step r

end HtmlReader

/-- The units of a text under their styles, if its tags and entities are
known. -/
def styledBy (html : List UInt16) : Option (List (List UInt16 × UInt16)) :=
  match ({} : HtmlReader).read html with
  | some { reading := .text [], shown } => some shown
  | _ => none

/-- A unit with the look that its style gives. -/
def looking : List UInt16 × UInt16 → Option (Look × UInt16)
  | (style, u) => (readLook style).map fun look => (look, u)

/-- What a text shows: its units with their looks, if the styles are known. -/
def shownBy (html : List UInt16) : Option (List (Look × UInt16)) :=
  (styledBy html).bind fun styled => styled.mapM looking

/-- The units of a cell. -/
def Cell.units (c : Cell) : List UInt16 :=
  if c.lowSurrogate ≠ 0 then [c.ch, c.lowSurrogate] else [c.ch]

/-- The units of a cell, each under the style that is written for the cell. -/
def Cell.styled (c : Cell) : List (List UInt16 × UInt16) :=
  c.units.map fun u => (c.styles, u)

/-- What a cell shows: its units, each with the look of the cell. -/
def Cell.shown (c : Cell) : List (Look × UInt16) :=
  c.units.map fun u => (c.look, u)

namespace HtmlReader

/-- Under a style, a text shows these units, and leaves no tag open. -/
def Shows (style html : List UInt16)
    (units : List (List UInt16 × UInt16)) : Prop :=
  ∀ shown, read ⟨.text style, shown⟩ html = some ⟨.text style, shown ++ units⟩

theorem read_append (r : HtmlReader) (a b : List UInt16) :
    r.read (a ++ b) = (r.read a).bind fun r => r.read b :=
  List.foldlM_append

theorem Shows.nil (style : List UInt16) : Shows style [] [] := by
  intro shown
  rw [List.append_nil]
  rfl

theorem Shows.append {style a b : List UInt16}
    {us us' : List (List UInt16 × UInt16)} (ha : Shows style a us)
    (hb : Shows style b us') : Shows style (a ++ b) (us ++ us') := by
  intro shown
  rw [read_append, ha, Option.bind_some, hb, List.append_assoc]

/-- A unit that is no markup stands for itself. -/
theorem Shows.unit (style : List UInt16) {u : UInt16} (h : isMarkup u = false) :
    Shows style [u] [(style, u)] := by
  intro shown
  simp only [isMarkup, Bool.or_eq_false_iff, decide_eq_false_iff_not] at h
  obtain ⟨⟨hlt, hgt⟩, hamp⟩ := h
  have hstep : step ⟨.text style, shown⟩ u =
      some ⟨.text style, shown ++ [(style, u)]⟩ := by
    unfold step
    dsimp only
    rw [if_neg hlt, if_neg hamp, if_neg hgt]
  exact (List.foldlM_cons ..).trans (by rw [hstep]; rfl)

/-- Units that stand in a name. -/
def Named (name : List UInt16) : Prop := ∀ u ∈ name, isMarkup u = false

instance (name : List UInt16) : Decidable (Named name) :=
  List.decidableBAll (fun u => isMarkup u = false) name

theorem Named.append {a b : List UInt16} (ha : Named a) (hb : Named b) :
    Named (a ++ b) := by
  intro u hu
  rcases List.mem_append.mp hu with hu | hu
  · exact ha u hu
  · exact hb u hu

theorem read_cons {r r' : HtmlReader} {u : UInt16} (html : List UInt16)
    (h : r.step u = some r') : r.read (u :: html) = r'.read html := by
  rw [read, List.foldlM_cons, h]
  rfl

theorem read_one {r r' : HtmlReader} {u : UInt16} (h : r.step u = some r') :
    r.read [u] = some r' :=
  read_cons [] h

variable {style name : List UInt16} {shown : List (List UInt16 × UInt16)}

theorem read_entityName (hname : Named name) (hend : 0x3B ∉ name)
    (acc : List UInt16) :
    read ⟨.entity style acc, shown⟩ name =
      some ⟨.entity style (acc ++ name), shown⟩ := by
  induction name generalizing acc with
  | nil =>
      rw [List.append_nil]
      rfl
  | cons u name ih =>
      have hu : u ≠ 0x3B := fun h => hend (h ▸ List.mem_cons_self)
      have hmarkup : isMarkup u = false := hname u List.mem_cons_self
      have hstep : step ⟨.entity style acc, shown⟩ u =
          some ⟨.entity style (acc ++ [u]), shown⟩ := by
        simp only [step, hu, hmarkup, if_false, Bool.false_eq_true]
      have hrest := ih (fun v hv => hname v (List.mem_cons_of_mem _ hv))
        (fun h => hend (List.mem_cons_of_mem _ h)) (acc ++ [u])
      rw [read_cons name hstep, hrest, List.append_assoc, List.singleton_append]

theorem read_tagName (hname : Named name) (acc : List UInt16) :
    read ⟨.tag style acc, shown⟩ name =
      some ⟨.tag style (acc ++ name), shown⟩ := by
  induction name generalizing acc with
  | nil =>
      rw [List.append_nil]
      rfl
  | cons u name ih =>
      have hmarkup : isMarkup u = false := hname u List.mem_cons_self
      have hu : u ≠ 0x3E := by
        rintro rfl
        cases hmarkup
      have hstep : step ⟨.tag style acc, shown⟩ u =
          some ⟨.tag style (acc ++ [u]), shown⟩ := by
        simp only [step, hu, hmarkup, if_false, Bool.false_eq_true]
      have hrest := ih (fun v hv => hname v (List.mem_cons_of_mem _ hv))
        (acc ++ [u])
      rw [read_cons name hstep, hrest, List.append_assoc, List.singleton_append]

/-- An entity. -/
theorem Shows.entity {v : UInt16} (h : entities.lookup name = some v)
    (hname : Named name) (hend : 0x3B ∉ name) :
    Shows style ([0x26] ++ name ++ [0x3B]) [(style, v)] := by
  intro shown
  have hopen : step ⟨.text style, shown⟩ 0x26 =
      some ⟨.entity style [], shown⟩ := rfl
  have hclose : step ⟨.entity style name, shown⟩ 0x3B =
      some ⟨.text style, shown ++ [(style, v)]⟩ := by
    simp only [step, if_true, h, Option.map_some]
  rw [read_append, read_append, read_one hopen, Option.bind_some,
    read_entityName hname hend, Option.bind_some, List.nil_append,
    read_one hclose]

/-- A tag. -/
theorem read_tag {style' : List UInt16} (h : tagEnd style name = some style')
    (hname : Named name) :
    read ⟨.text style, shown⟩ ([0x3C] ++ name ++ [0x3E]) =
      some ⟨.text style', shown⟩ := by
  have hopen : step ⟨.text style, shown⟩ 0x3C =
      some ⟨.tag style [], shown⟩ := rfl
  have hclose : step ⟨.tag style name, shown⟩ 0x3E =
      some ⟨.text style', shown⟩ := by
    simp only [step, if_true, h, Option.map_some]
  rw [read_append, read_append, read_one hopen, Option.bind_some,
    read_tagName hname, Option.bind_some, List.nil_append, read_one hclose]

/-- The tag that opens a style. -/
theorem read_open (hname : Named style) (hquote : 0x22 ∉ style) :
    read ⟨.text [], shown⟩ (units "<span style=\"" ++ style ++ units "\">") =
      some ⟨.text style, shown⟩ := by
  have hopen : units "<span style=\"" = [0x3C] ++ units "span style=\"" := by
    decide
  have hclose : units "\">" = [0x22] ++ [0x3E] := by decide
  have hlength : (units "span style=\"").length = 12 := by decide
  have htag : tagEnd [] (units "span style=\"" ++ style ++ [0x22]) =
      some style := by
    have htake : (units "span style=\"" ++ style ++ [0x22]).take 12 =
        units "span style=\"" := by
      have hle := Nat.le_of_eq hlength.symm
      rw [List.append_assoc, List.take_append_of_le_length hle, ← hlength,
        List.take_length]
    have hdrop : (units "span style=\"" ++ style ++ [0x22]).drop 12 =
        style ++ [0x22] := by
      rw [List.append_assoc, ← hlength, List.drop_left]
    have hne : units "span style=\"" ++ style ++ [0x22] ≠ units "/span" := by
      intro h
      have hlength' := congrArg List.length h
      rw [List.length_append, List.length_append, hlength] at hlength'
      have hshort : (units "/span").length = 5 := by decide
      omega
    rw [tagEnd, if_neg hne, hdrop, htake]
    simp [hquote]
  have hnamed : Named (units "span style=\"" ++ style ++ [0x22]) := by
    have hspan : Named (units "span style=\"") := by decide
    exact (hspan.append hname).append (by decide)
  rw [← read_tag htag hnamed, hopen, hclose]
  simp only [List.append_assoc]

/-- The tag that closes a style. -/
theorem read_close (h : style ≠ []) :
    read ⟨.text style, shown⟩ (units "</span>") = some ⟨.text [], shown⟩ := by
  have hclose : units "</span>" = [0x3C] ++ units "/span" ++ [0x3E] := by
    decide
  have htag : tagEnd style (units "/span") = some [] := by
    rw [tagEnd, if_pos rfl, if_neg h]
  rw [hclose, read_tag htag (by decide)]

end HtmlReader

/-! ## What a cell holds -/

/-- The second unit of a cell is the second half of a pair. -/
def Cell.Paired (c : Cell) : Prop :=
  c.lowSurrogate ≠ 0 →
    isHighSurrogate c.ch = true ∧ isLowSurrogate c.lowSurrogate = true

namespace TerminalScreen

def Paired (s : TerminalScreen) : Prop := ∀ c ∈ s.cells, c.Paired

/-- The operation leaves such cells. -/
def KeepsPaired (s : TerminalScreen) (m : Except Fault TerminalScreen) : Prop :=
  s.Paired → ∀ t, m = .ok t → t.Paired

variable {s t u : TerminalScreen}

theorem paired_blank : ({} : Cell).Paired := fun h => absurd rfl h

namespace KeepsPaired

theorem ok (h : t.cells = s.cells) : KeepsPaired s (.ok t) := by
  intro hs u hu
  cases hu
  intro c hc
  rw [h] at hc
  exact hs c hc

theorem bind {α : Type} {m : Except Fault α}
    {f : α → Except Fault TerminalScreen}
    (h : ∀ a, m = .ok a → KeepsPaired s (f a)) : KeepsPaired s (m >>= f) := by
  intro hs t ht
  obtain ⟨a, hm, ha⟩ := bind_ok ht
  exact h a hm hs t ha

theorem trans {m : Except Fault TerminalScreen}
    {f : TerminalScreen → Except Fault TerminalScreen} (h : KeepsPaired s m)
    (hf : ∀ t, KeepsPaired t (f t)) : KeepsPaired s (m >>= f) := by
  intro hs u hu
  obtain ⟨t, ht, hft⟩ := bind_ok hu
  exact hf t (h hs t ht) u hft

theorem forInt {body : Int → TerminalScreen → Except Fault TerminalScreen}
    (hbody : ∀ i t, KeepsPaired t (body i t)) (n : Nat) (i : Int)
    (s : TerminalScreen) : KeepsPaired s (forInt body n i s) := by
  induction n generalizing i s with
  | zero => exact ok rfl
  | succ n ih => exact (hbody i s).trans (ih (i + 1))

end KeepsPaired

theorem writeAt_cells {cells cells' : Array Cell} {i : Int} {cell : Cell}
    (hcells : ∀ c ∈ cells, c.Paired) (hcell : cell.Paired)
    (h : writeAt cells i cell = .ok cells') : ∀ c ∈ cells', c.Paired := by
  unfold writeAt at h
  split at h
  · cases h
    intro c hc
    rcases Array.mem_or_eq_of_mem_setIfInBounds hc with hold | rfl
    · exact hcells c hold
    · exact hcell
  · cases h

theorem setCell_paired {cell : Cell} (hcell : cell.Paired) (row column : Int)
    (s : TerminalScreen) : KeepsPaired s (s.setCell row column cell) := by
  intro hs t ht
  obtain ⟨i, -, ht⟩ := bind_ok ht
  obtain ⟨cells, hcells, ht⟩ := bind_ok ht
  cases ht
  exact writeAt_cells hs hcell hcells

theorem clearCells_paired (row lo hi : Int) (s : TerminalScreen) :
    KeepsPaired s (s.clearCells row lo hi) :=
  .forInt (fun c t => setCell_paired paired_blank row c t) _ _ s

theorem clearRows_paired (lo hi : Int) (s : TerminalScreen) :
    KeepsPaired s (s.clearRows lo hi) :=
  .forInt (fun r t => clearCells_paired r 0 t.columns t) _ _ s

theorem readAt_paired (hs : s.Paired) {i : Int} {c : Cell}
    (h : readAt s.cells i = .ok c) : c.Paired := by
  unfold readAt at h
  split at h
  · cases h
    exact hs _ (Array.getElem_mem _)
  · cases h

theorem scrollUp_paired (s : TerminalScreen) : KeepsPaired s s.scrollUp := by
  refine KeepsPaired.trans (.forInt (fun r t => ?_) _ _ s) fun t =>
    clearCells_paired _ _ _ t
  refine .forInt (fun c u => ?_) _ _ t
  refine .bind fun below _ => .bind fun i _ => .bind fun cell hcell => ?_
  intro hu
  exact setCell_paired (readAt_paired hu hcell) r c u hu

theorem putCellAtCursor_paired (fragment : List UInt16) (s : TerminalScreen) :
    KeepsPaired s (s.putCellAtCursor fragment) := by
  cases fragment with
  | nil => exact .ok rfl
  | cons first rest =>
      refine KeepsPaired.trans (setCell_paired ?_ _ _ s) fun t => .ok rfl
      intro hlow
      cases rest with
      | nil => exact absurd rfl hlow
      | cons second rest =>
          dsimp only at hlow ⊢
          split at hlow
          · next hpair =>
            rw [if_pos hpair]
            exact (Bool.and_eq_true _ _).mp hpair
          · exact absurd rfl hlow

theorem lineFeed_paired (s : TerminalScreen) : KeepsPaired s s.lineFeed := by
  refine .bind fun next _ => ?_
  split
  · exact (scrollUp_paired s).trans fun t => .ok rfl
  · exact .ok rfl

theorem handleC0_paired (b : UInt8) (s : TerminalScreen) :
    KeepsPaired s (s.handleC0 b) := by
  unfold handleC0
  split
  · exact .ok rfl
  split
  · unfold backspace
    split <;> exact .ok rfl
  split
  · exact .bind fun _ _ => .ok rfl
  split
  · exact lineFeed_paired s
  split <;> exact .ok rfl

theorem handleSgrCode_cells (code : Int) (s : TerminalScreen) :
    (s.handleSgrCode code).cells = s.cells := by
  have hite {p : Prop} [Decidable p] {t u : TerminalScreen}
      (ht : t.cells = s.cells) (hu : u.cells = s.cells) :
      (if p then t else u).cells = s.cells := by
    split
    · exact ht
    · exact hu
  unfold handleSgrCode
  repeat' first
    | rfl
    | apply hite

theorem handleSgrLoop_paired (fuel : Nat) (params : List Int)
    (s : TerminalScreen) : KeepsPaired s (handleSgrLoop fuel params s) := by
  induction fuel generalizing params s with
  | zero => exact .ok rfl
  | succ fuel ih =>
      cases params with
      | nil => exact .ok rfl
      | cons code params =>
          have hcolor {f : UInt8 → TerminalScreen → TerminalScreen}
              (hf : ∀ idx, (f idx s).cells = s.cells) :
              KeepsPaired s (consumeExtendedColor params >>= fun p =>
                handleSgrLoop fuel p.2 (p.1.elim s (f · s))) := by
            refine .bind fun p _ hs => ?_
            cases p.1 with
            | none => exact ih p.2 s hs
            | some idx =>
                refine ih p.2 (f idx s) fun c hc => ?_
                rw [hf idx] at hc
                exact hs c hc
          rw [handleSgrLoop]
          split
          · exact hcolor fun _ => rfl
          · split
            · exact hcolor fun _ => rfl
            · intro hs
              refine ih params _ fun c hc => ?_
              rw [handleSgrCode_cells] at hc
              exact hs c hc

theorem handleFinal_paired (final : UInt8) (params : List Int)
    (s : TerminalScreen) : KeepsPaired s (s.handleFinal final params) := by
  have hmove : ∀ row column, KeepsPaired s (s.moveCursor row column) :=
    fun row column => .bind fun _ _ => .bind fun _ _ => .ok rfl
  unfold handleFinal
  dsimp only
  split
  · exact hmove _ _
  · exact hmove _ _
  · exact hmove _ _
  · exact hmove _ _
  · exact .bind fun _ _ => .ok rfl
  · exact .bind fun _ _ => .ok rfl
  · exact .bind fun _ _ => .ok rfl
  · exact .bind fun _ _ => .bind fun _ _ => .ok rfl
  · exact .bind fun _ _ => .bind fun _ _ => .ok rfl
  · unfold eraseInDisplay
    split
    · exact (clearCells_paired _ _ _ s).trans fun t =>
        .bind fun _ _ => clearRows_paired _ _ t
    · split
      · exact (clearRows_paired _ _ s).trans fun t => clearCells_paired _ _ _ t
      · exact clearRows_paired _ _ s
  · unfold eraseInLine
    split
    · exact clearCells_paired _ _ _ s
    · split
      · exact clearCells_paired _ _ _ s
      · split
        · exact clearCells_paired _ _ _ s
        · exact .ok rfl
  · unfold handleSgr
    split
    · exact .ok rfl
    · exact handleSgrLoop_paired _ _ s
  · exact .ok rfl
  · have hrespond : ∀ bytes, (s.emitResponse bytes).cells = s.cells := by
      intro bytes
      unfold emitResponse
      split <;> rfl
    unfold handleWindowOps
    dsimp only
    split
    · exact .bind fun _ _ => .bind fun _ _ => .ok (hrespond _)
    · split
      · exact .ok (hrespond _)
      · split
        · exact .ok (hrespond _)
        · exact .ok rfl
  · exact .ok rfl
  · exact .ok rfl

theorem handleCsi_paired (s : TerminalScreen) : KeepsPaired s s.handleCsi := by
  unfold handleCsi
  split
  · exact .ok rfl
  · refine .bind fun params _ => ?_
    split
    · exact .ok rfl
    · exact handleFinal_paired _ params s

theorem clear_paired (s : TerminalScreen) : s.clear.Paired := by
  intro c hc
  obtain ⟨c', -, rfl⟩ := Array.mem_map.mp hc
  exact paired_blank

theorem feedByte_paired (b : UInt8) (s : TerminalScreen) :
    KeepsPaired s (s.feedByte b) := by
  unfold feedByte
  dsimp only
  split
  · split
    · exact .ok rfl
    split
    · exact handleC0_paired b s
    split
    · exact putCellAtCursor_paired _ s
    · exact fun hs => putCellAtCursor_paired _ (s.withParser _) hs
  · split
    · exact .ok rfl
    split
    · exact .ok rfl
    split
    · intro _ t ht
      cases ht
      exact clear_paired s
    split
    · exact .ok rfl
    split <;> exact .ok rfl
  · split
    · exact .ok rfl
    split
    · exact .ok rfl
    split
    · exact fun hs => (handleCsi_paired (s.withParser _)).trans
        (fun t => .ok rfl) hs
    · exact .ok rfl
  · split
    · exact .ok rfl
    split <;> exact .ok rfl

theorem foldlM_paired (bytes : Bytes) (s : TerminalScreen) :
    KeepsPaired s (bytes.foldlM feedByte s) := by
  induction bytes generalizing s with
  | nil => exact .ok rfl
  | cons b bytes ih =>
      rw [List.foldlM_cons]
      exact (feedByte_paired b s).trans ih

/-- A loop that writes cells into an array of its own. -/
theorem forInt_cells {body : Int → Array Cell → Except Fault (Array Cell)}
    (hbody : ∀ i next next', (∀ c ∈ next, c.Paired) →
      body i next = .ok next' → ∀ c ∈ next', c.Paired) (n : Nat) (i : Int)
    {next next' : Array Cell} (hnext : ∀ c ∈ next, c.Paired)
    (h : forInt body n i next = .ok next') : ∀ c ∈ next', c.Paired := by
  induction n generalizing i next with
  | zero =>
      cases h
      exact hnext
  | succ n ih =>
      obtain ⟨mid, hmid, h⟩ := bind_ok h
      exact ih (i + 1) (hbody i next mid hnext hmid) h

theorem resize_paired (newRows newColumns : Int) (s : TerminalScreen) :
    KeepsPaired s (s.resize newRows newColumns) := by
  unfold resize
  split
  · exact .ok rfl
  split
  · exact .ok rfl
  refine .bind fun size _ => .bind fun cells hcells => ?_
  intro hs t ht
  cases ht
  refine forInt_cells (fun r next next' hnext h => ?_) _ _ ?_ hcells
  · refine forInt_cells (fun c next next' hnext h => ?_) _ _ hnext h
    obtain ⟨i, -, h⟩ := bind_ok h
    obtain ⟨cell, hcell, h⟩ := bind_ok h
    obtain ⟨j, -, h⟩ := bind_ok h
    exact writeAt_cells hnext (readAt_paired hs hcell) h
  · intro c hc
    rw [(Array.mem_replicate.mp hc).2]
    exact paired_blank

theorem call_paired (call : Call) (s : TerminalScreen) :
    KeepsPaired s (s.call call) := by
  cases call with
  | feed bytes => exact (foldlM_paired bytes s).trans fun t => .ok rfl
  | resize newRows newColumns => exact resize_paired newRows newColumns s
  | clear =>
      intro _ t ht
      cases ht
      exact clear_paired s

theorem calls_paired (calls : List Call) (s : TerminalScreen) :
    KeepsPaired s (calls.foldlM call s) := by
  induction calls generalizing s with
  | nil => exact .ok rfl
  | cons c calls ih =>
      rw [List.foldlM_cons]
      exact (call_paired c s).trans ih

/-- What calls lead to is a grid. -/
theorem calls_inGrid (calls : List Call) (h : s.InGrid)
    (ht : calls.foldlM call s = .ok t) : t.InGrid := by
  induction calls generalizing s with
  | nil =>
      cases ht
      exact h
  | cons c calls ih =>
      obtain ⟨u, hu, ht⟩ := bind_ok ht
      refine ih ?_ ht
      by_cases hfits : Fits c
      · exact ((call_safe_iff h c hfits).of_eq hu).2
      · cases c with
        | feed bytes => exact absurd trivial hfits
        | clear => exact absurd trivial hfits
        | resize newRows newColumns =>
            simp only [Fits, not_forall, Int.not_le] at hfits
            obtain ⟨hrows, hcolumns, hlarge⟩ := hfits
            unfold call resize at hu
            dsimp only at hu
            rw [if_neg (by omega)] at hu
            split at hu
            · cases hu
              exact h
            · rw [int32_overflow hlarge] at hu
              cases hu

/-! ## The cells of a row -/

/-- The cells of a row. -/
def rowCells (s : TerminalScreen) (row : Int) : List Cell :=
  (s.cells.toList.drop (row * s.columns).toNat).take s.columns.toNat

theorem rowCells_length (h : s.InGrid) {row : Int} (hlo : 0 ≤ row)
    (hhi : row < s.rows) : (s.rowCells row).length = s.columns.toNat := by
  have hcells := h.cells
  have hcolumns := h.columns
  obtain ⟨-, hpos, hbound⟩ := cellIndex_eq row (s.columns - 1) h.fits ⟨hlo, hhi⟩
    ⟨by omega, by omega⟩
  rw [rowCells, List.length_take, List.length_drop, Array.length_toList]
  have hmul : 0 ≤ row * s.columns := Int.mul_nonneg hlo (by omega)
  omega

theorem cellAt_row (h : s.InGrid) {row : Int} (hlo : 0 ≤ row)
    (hhi : row < s.rows) {i : Nat} {c : Cell}
    (hc : (s.rowCells row)[i]? = some c) : s.cellAt row i = .ok c := by
  obtain ⟨hi, -⟩ := List.getElem?_eq_some_iff.mp hc
  rw [rowCells_length h hlo hhi] at hi
  obtain ⟨hindex, hpos, hbound⟩ := cellIndex_eq row i h.fits ⟨hlo, hhi⟩
    ⟨by omega, by omega⟩
  have hcells := h.cells
  have hcolumns := h.columns
  have hmul : 0 ≤ row * s.columns := Int.mul_nonneg hlo (by omega)
  have hnat : (row * s.columns + i).toNat = (row * s.columns).toNat + i := by
    omega
  rw [cellAt, hindex, ok_bind, readAt, dif_pos ⟨hpos, by omega⟩]
  rw [rowCells, List.getElem?_take_of_lt hi, List.getElem?_drop,
    ← hnat] at hc
  obtain ⟨hsize, hget⟩ := List.getElem?_eq_some_iff.mp hc
  rw [← hget]
  exact congrArg Except.ok (Array.getElem_toList _).symm

/-- The cells of a range, one after the other. -/
theorem escape_cells (h : s.InGrid) {row : Int} (hlo : 0 ≤ row)
    (hhi : row < s.rows) (k : Nat) {a : Nat}
    (hk : a + k ≤ (s.rowCells row).length) (out : List UInt16) :
    forInt (fun i out => do
        return out ++ escapeHtml (← s.cellAt row i)) k a out =
      .ok (out ++ (((s.rowCells row).drop a).take k).flatMap escapeHtml) := by
  induction k generalizing a out with
  | zero =>
      rw [List.take_zero, List.flatMap_nil, List.append_nil]
      rfl
  | succ k ih =>
      have ha : a < (s.rowCells row).length := by omega
      have hcell := cellAt_row h hlo hhi (List.getElem?_eq_getElem ha)
      have hnext : (a : Int) + 1 = (a + 1 : Nat) := rfl
      rw [forInt, hcell, ok_bind]
      show forInt _ k ((a : Int) + 1) _ = _
      rw [hnext, ih (by omega), List.drop_eq_getElem_cons ha,
        List.take_succ_cons, List.flatMap_cons, List.append_assoc]

end TerminalScreen

/-! ## What a run shows -/

open HtmlReader

/-- Units that may stand between the quotes of a style. -/
def Quotable (style : List UInt16) : Prop := Named style ∧ 0x22 ∉ style

theorem Quotable.append {a b : List UInt16} (ha : Quotable a)
    (hb : Quotable b) : Quotable (a ++ b) := by
  refine ⟨ha.1.append hb.1, fun h => ?_⟩
  rcases List.mem_append.mp h with h | h
  · exact ha.2 h
  · exact hb.2 h

theorem quotable_if {p : Prop} [Decidable p] {a : List UInt16}
    (h : Quotable a) : Quotable (if p then a else []) := by
  split
  · exact h
  · exact ⟨fun _ hu => absurd hu List.not_mem_nil, List.not_mem_nil⟩

instance (style : List UInt16) : Decidable (Quotable style) :=
  inferInstanceAs (Decidable (Named style ∧ 0x22 ∉ style))

theorem paletteEntry_quotable (idx : UInt8) :
    Quotable (units (paletteEntry idx)) := by
  refine ⟨fun u hu => ?_, not_mem_palette (by decide) (by decide) idx⟩
  by_contra hmarkup
  simp only [isMarkup, Bool.not_eq_false, Bool.or_eq_true,
    decide_eq_true_eq] at hmarkup
  rcases hmarkup with (rfl | rfl) | rfl
  all_goals exact not_mem_palette (by decide) (by decide) idx hu

theorem styles_quotable (c : Cell) : Quotable c.styles := by
  have hcolor (label : String) (h : Quotable (units label)) (idx : UInt8) :
      Quotable (units label ++ units (paletteEntry idx) ++ units ";") :=
    (h.append (paletteEntry_quotable idx)).append (by decide)
  unfold Cell.styles
  refine .append (.append (.append ?_ ?_) ?_) ?_
  · exact quotable_if (hcolor "color:" (by decide) _)
  · exact quotable_if (hcolor "background-color:" (by decide) _)
  · exact quotable_if (by decide)
  · exact quotable_if (by decide)

/-- A half of a pair is no markup. -/
theorem surrogate_plain {u : UInt16}
    (h : isHighSurrogate u = true ∨ isLowSurrogate u = true) :
    isMarkup u = false := by
  by_contra hmarkup
  simp only [isMarkup, Bool.not_eq_false, Bool.or_eq_true,
    decide_eq_true_eq] at hmarkup
  rcases hmarkup with (rfl | rfl) | rfl <;> revert h <;> decide

/-- The text of a cell shows the cell. -/
theorem escapeHtml_shows {c : Cell} (hc : c.Paired) (style : List UInt16) :
    Shows style (escapeHtml c) (c.units.map fun u => (style, u)) := by
  unfold escapeHtml Cell.units
  split
  · next hlow =>
    obtain ⟨hhigh, hlow⟩ := hc hlow
    exact (Shows.unit style (surrogate_plain (.inl hhigh))).append
      (Shows.unit style (surrogate_plain (.inr hlow)))
  have hentity {name : List UInt16} {v : UInt16} {text : String}
      (htext : units text = [0x26] ++ name ++ [0x3B])
      (hname : entities.lookup name = some v ∧ Named name ∧ 0x3B ∉ name) :
      Shows style (units text) [(style, v)] := by
    rw [htext]
    exact .entity hname.1 hname.2.1 hname.2.2
  have hknown : ∀ entity ∈ entities, entities.lookup entity.1 = some entity.2 ∧
      Named entity.1 ∧ 0x3B ∉ entity.1 := by
    decide
  split
  · next h =>
    rw [h]
    exact hentity (by decide)
      (hknown (units "lt", 0x3C) (by decide))
  split
  · next h =>
    rw [h]
    exact hentity (by decide)
      (hknown (units "gt", 0x3E) (by decide))
  split
  · next h =>
    rw [h]
    exact hentity (by decide)
      (hknown (units "amp", 0x26) (by decide))
  split
  · next h =>
    rw [h]
    exact hentity (by decide)
      (hknown (units "nbsp", 0x20) (by decide))
  · next hlt hgt hamp _ =>
    refine Shows.unit style ?_
    simp only [isMarkup, hlt, hgt, hamp, decide_false, Bool.or_self]

/-- Cells that look the same show under the style of any of them. -/
theorem escapeHtml_run {cells : List Cell} {style : List UInt16}
    (h : ∀ c ∈ cells, c.Paired ∧ c.styles = style) :
    Shows style (cells.flatMap escapeHtml) (cells.flatMap Cell.styled) := by
  induction cells with
  | nil => exact Shows.nil style
  | cons c cells ih =>
      rw [List.forall_mem_cons] at h
      obtain ⟨⟨hpaired, rfl⟩, hrest⟩ := h
      rw [List.flatMap_cons, List.flatMap_cons]
      exact (escapeHtml_shows hpaired c.styles).append (ih hrest)

/-- Each unit gets the look of its cell. -/
theorem looking_styled (cells : List Cell) :
    (cells.flatMap Cell.styled).mapM looking =
      some (cells.flatMap Cell.shown) := by
  have hcell (c : Cell) (us : List UInt16) :
      (us.map fun u => (c.styles, u)).mapM looking =
        some (us.map fun u => (c.look, u)) := by
    induction us with
    | nil => rfl
    | cons u us ih =>
        have hlooking : looking (c.styles, u) = some (c.look, u) := by
          rw [looking, readLook_styles, Option.map_some]
        rw [List.map_cons, List.mapM_cons, hlooking, ih]
        rfl
  induction cells with
  | nil => rfl
  | cons c cells ih =>
      rw [List.flatMap_cons, List.mapM_append, Cell.styled, hcell, ih]
      rfl

/-- Cells whose colors and attributes are the same. -/
def Cell.Alike (c d : Cell) : Prop :=
  c.fg = d.fg ∧ c.bg = d.bg ∧ c.attrs = d.attrs

theorem Cell.Alike.styles {c d : Cell} (h : c.Alike d) :
    c.styles = d.styles := by
  obtain ⟨hfg, hbg, hattrs⟩ := h
  unfold Cell.styles
  rw [hfg, hbg, hattrs]

namespace TerminalScreen

variable {s : TerminalScreen} {row : Int}

/-- The cells of a range look like its first one. -/
def RunOf (cells : List Cell) (a b : Nat) : Prop :=
  ∀ c ∈ cells[a]?, ∀ d ∈ (cells.drop a).take (b - a), c.Alike d

theorem flushRun_shows (h : s.InGrid) (hs : s.Paired) (hlo : 0 ≤ row)
    (hhi : row < s.rows) {a b : Nat} (hab : a < b)
    (hb : b ≤ (s.rowCells row).length) (hrun : RunOf (s.rowCells row) a b)
    (out : List UInt16) :
    ∃ text, s.flushRun row a b out = .ok (out ++ text) ∧
      Shows [] text
        (((s.rowCells row).drop a).take (b - a) |>.flatMap Cell.styled) := by
  have ha : a < (s.rowCells row).length := by omega
  have hfirst := List.getElem?_eq_getElem ha
  generalize (s.rowCells row)[a] = c₀ at hfirst
  let run := ((s.rowCells row).drop a).take (b - a)
  have hcells : ∀ c ∈ run, c.Paired ∧ c.styles = c₀.styles := by
    intro c hc
    refine ⟨hs c ?_, (hrun c₀ hfirst c hc).styles.symm⟩
    exact Array.mem_toList_iff.mp (List.mem_of_mem_drop (List.mem_of_mem_take
      (List.mem_of_mem_drop (List.mem_of_mem_take hc))))
  have hshows := escapeHtml_run hcells
  have hcount : ((b : Int) - a).toNat = b - a := by omega
  have hloop (out : List UInt16) : forRange a b (fun i out => do
      return out ++ escapeHtml (← s.cellAt row i)) out =
        .ok (out ++ run.flatMap escapeHtml) := by
    rw [forRange, hcount]
    exact escape_cells h hlo hhi (b - a) (by omega) out
  rw [flushRun, if_neg (by omega), cellAt_row h hlo hhi hfirst, ok_bind]
  dsimp only
  rw [hloop, ok_bind]
  by_cases hstyle : c₀.styles = []
  · rw [if_neg (fun hne => hne hstyle), if_neg (fun hne => hne hstyle)]
    rw [hstyle] at hshows
    exact ⟨_, rfl, hshows⟩
  · rw [if_pos hstyle, if_pos hstyle]
    refine ⟨units "<span style=\"" ++ c₀.styles ++ units "\">" ++
      run.flatMap escapeHtml ++ units "</span>", ?_, ?_⟩
    · simp only [List.append_assoc]
      rfl
    · intro shown
      obtain ⟨hnamed, hquote⟩ := styles_quotable c₀
      rw [read_append, read_append, read_open hnamed hquote, Option.bind_some,
        hshows, Option.bind_some, read_close hstyle]

theorem sameRun_eq (h : s.InGrid) (hlo : 0 ≤ row) (hhi : row < s.rows)
    {a b : Nat} {c d : Cell} (hc : (s.rowCells row)[a]? = some c)
    (hd : (s.rowCells row)[b]? = some d) :
    ∃ same, s.sameRun row a b = .ok same ∧ (same = true ↔ c.Alike d) := by
  refine ⟨c.fg = d.fg && c.bg = d.bg && c.attrs = d.attrs, ?_, ?_⟩
  · rw [sameRun, cellAt_row h hlo hhi hc, ok_bind, cellAt_row h hlo hhi hd,
      ok_bind]
    rfl
  · simp only [Cell.Alike, Bool.and_eq_true, decide_eq_true_eq, and_assoc]

/-- Before cell `i`: the text has the cells before the open run, and the cells
of the open run look the same. -/
def Coalesced (cells : List Cell) (i : Int) (run : Int × List UInt16) : Prop :=
  ∃ a b : Nat, run.1 = a ∧ i = b ∧ a < b ∧ RunOf cells a b ∧
    Shows [] run.2 ((cells.take a).flatMap Cell.styled)

theorem RunOf.one (cells : List Cell) (a : Nat) : RunOf cells a (a + 1) := by
  intro c hc d hd
  have hone : a + 1 - a = 1 := by omega
  rw [hone] at hd
  cases hdrop : cells.drop a with
  | nil =>
      rw [hdrop] at hd
      cases hd
  | cons e rest =>
      have he : cells[a]? = some e := by
        rw [← List.head?_drop, hdrop, List.head?_cons]
      rw [hdrop, List.take_succ_cons, List.take_zero, List.mem_singleton] at hd
      cases hd
      rw [he] at hc
      cases hc
      exact ⟨rfl, rfl, rfl⟩

theorem RunOf.snoc {cells : List Cell} {a b : Nat} {c d : Cell}
    (h : RunOf cells a b) (hab : a < b) (hc : cells[a]? = some c)
    (hd : cells[b]? = some d) (halike : c.Alike d) :
    RunOf cells a (b + 1) := by
  intro c' hc' e he
  have hsucc : b + 1 - a = (b - a) + 1 := by omega
  have hget : (cells.drop a)[b - a]? = some d := by
    rw [List.getElem?_drop, ← hd]
    congr 1
    omega
  rw [hc] at hc'
  cases hc'
  rw [hsucc, List.take_add_one, hget, List.mem_append] at he
  rcases he with he | he
  · exact h c hc e he
  · cases List.mem_singleton.mp he
    exact halike

theorem lineRound_coalesced (h : s.InGrid) (hs : s.Paired) (hlo : 0 ≤ row)
    (hhi : row < s.rows) {i : Int} {run : Int × List UInt16}
    (hi : i < s.columns) (hrun : Coalesced (s.rowCells row) i run) :
    Safe (s.lineRound row i run) (Coalesced (s.rowCells row) (i + 1)) := by
  obtain ⟨start, out⟩ := run
  obtain ⟨a, b, rfl, rfl, hab, hrun, hout⟩ := hrun
  have hlength := rowCells_length h hlo hhi
  have hb : b < (s.rowCells row).length := by omega
  have hc := List.getElem?_eq_getElem (Nat.lt_trans hab hb)
  have hd := List.getElem?_eq_getElem hb
  obtain ⟨same, hsame, halike⟩ := sameRun_eq h hlo hhi hc hd
  unfold lineRound
  rw [hsame, ok_bind]
  cases same with
  | true =>
      refine .ok ⟨a, b + 1, rfl, rfl, by omega, ?_, hout⟩
      exact hrun.snoc hab hc hd (halike.mp rfl)
  | false =>
      obtain ⟨text, hflush, htext⟩ :=
        flushRun_shows h hs hlo hhi hab (Nat.le_of_lt hb) hrun out
      rw [if_neg Bool.false_ne_true, hflush, ok_bind]
      refine .ok ⟨b, b + 1, rfl, rfl, by omega, .one _ b, ?_⟩
      have htake : (s.rowCells row).take b = (s.rowCells row).take a ++
          ((s.rowCells row).drop a).take (b - a) := by
        rw [← List.take_add]
        congr 1
        omega
      rw [htake, List.flatMap_append]
      exact hout.append htext

/-- The text of a row of a grid. -/
theorem lineHtml_shows (h : s.InGrid) (hs : s.Paired) (hlo : 0 ≤ row)
    (hhi : row < s.rows) :
    ∃ html, s.lineHtml row = .ok html ∧
      styledBy html = some ((s.rowCells row).flatMap Cell.styled) := by
  have hcolumns := h.columns
  have hlength := rowCells_length h hlo hhi
  have hstart : Coalesced (s.rowCells row) 1 (0, []) :=
    ⟨0, 1, rfl, rfl, by omega, .one _ 0, Shows.nil []⟩
  have hcount : 1 + ((s.columns - 1).toNat : Int) = s.columns := by omega
  have hloop : Safe (forRange 1 s.columns (s.lineRound row) (0, []))
      (Coalesced (s.rowCells row) s.columns) := by
    have hloop := forInt_counted (n := (s.columns - 1).toNat)
      (fun i run hlo' hi hrun =>
        lineRound_coalesced h hs hlo hhi (i := i) (by omega) hrun) hstart
    rwa [hcount] at hloop
  obtain ⟨⟨start, out⟩, hout, a, b, rfl, hb, hab, hrun, hshown⟩ := hloop
  have hbLength : b = (s.rowCells row).length := by omega
  obtain ⟨text, hflush, htext⟩ :=
    flushRun_shows h hs hlo hhi hab (Nat.le_of_eq hbLength) hrun out
  refine ⟨out ++ text, ?_, ?_⟩
  · rw [lineHtml, if_neg (by omega), hout, ok_bind, hb]
    exact hflush
  · have hread := hshown.append htext []
    rw [← List.flatMap_append, List.nil_append] at hread
    have hall : (s.rowCells row).take a ++
        ((s.rowCells row).drop a).take (b - a) = s.rowCells row := by
      rw [hbLength, ← List.length_drop, List.take_length, List.take_append_drop]
    rw [hall] at hread
    rw [styledBy, hread]

/-- What a row shows is what its cells show, whatever was fed. -/
theorem lineHtml_shows_row (calls : List Call) (s : TerminalScreen)
    (hcalls : calls.foldlM call {} = .ok s) (row : Int) (hlo : 0 ≤ row)
    (hhi : row < s.rows) :
    ∃ html, s.lineHtml row = .ok html ∧
      shownBy html = some ((s.rowCells row).flatMap Cell.shown) := by
  have hpaired : ({} : TerminalScreen).Paired := by
    intro c hc
    rw [(Array.mem_replicate.mp hc).2]
    exact paired_blank
  obtain ⟨html, hhtml, hstyled⟩ := lineHtml_shows
    (calls_inGrid calls inGrid_fresh hcalls)
    (calls_paired calls {} hpaired s hcalls) hlo hhi
  refine ⟨html, hhtml, ?_⟩
  rw [shownBy, hstyled, Option.bind_some, looking_styled]

/-- `<&` in bold, red put behind it by the reverse: `ESC [1;7;31m<&`. -/
def boldMarkup : List Call :=
  [.feed [0x1B, 0x5B, 0x31, 0x3B, 0x37, 0x3B, 0x33, 0x31, 0x6D, 0x3C, 0x26]]

def boldOnRed : Look := { bg := some ⟨0xE2, 0x55, 0x55⟩, bold := true }

set_option maxRecDepth 10000 in
theorem lineHtml_shows_bold :
    ∃ s, boldMarkup.foldlM call {} = .ok s ∧
      ∃ html, s.lineHtml 0 = .ok html ∧
        shownBy html = some ((s.rowCells 0).flatMap Cell.shown) ∧
        ((s.rowCells 0).flatMap Cell.shown).take 2 =
          [(boldOnRed, 0x3C), (boldOnRed, 0x26)] := by
  have hok : (boldMarkup.foldlM call {}).toOption.any fun s =>
      0 < s.rows && ((s.rowCells 0).flatMap Cell.shown).take 2 =
        [(boldOnRed, 0x3C), (boldOnRed, 0x26)] := by
    decide +kernel
  cases hs : boldMarkup.foldlM call {} with
  | error e =>
      rw [hs] at hok
      cases hok
  | ok s =>
      rw [hs] at hok
      obtain ⟨hrows, hfirst⟩ := (Bool.and_eq_true _ _).mp hok
      obtain ⟨html, hhtml, hshown⟩ := lineHtml_shows_row _ s hs 0 (Int.le_refl 0)
        (of_decide_eq_true hrows)
      exact ⟨s, rfl, html, hhtml, hshown, of_decide_eq_true hfirst⟩

end TerminalScreen

end QuMesh.Terminal
