import QuMesh.Terminal.Parser

/-!
# The terminal's grid

The grid has as many cells as it has rows times columns, and the cursor is on
it, or one past the last column of its row. Every operation of the screen is
safe on such a grid and leaves one: the loops because what they index is
between the cursor and the bounds, and the cursor because whatever moves it
clamps it. What is not safe is the sum that is clamped. The parser bounds a
parameter, but nothing bounds the cursor it is added to but the size of the
grid, and a grid may be nearly as large as an `int`.
-/

namespace QuMesh.Terminal

open QuMesh.Lib

namespace TerminalScreen

variable {s t : TerminalScreen}

structure InGrid (s : TerminalScreen) : Prop where
  rows : 1 ≤ s.rows
  columns : 1 ≤ s.columns
  fits : s.rows * s.columns ≤ intMax
  cells : (s.cells.size : Int) = s.rows * s.columns
  row : 0 ≤ s.cursorRow ∧ s.cursorRow < s.rows
  column : 0 ≤ s.cursorColumn ∧ s.cursorColumn ≤ s.columns

/-- What writing cells leaves alone. -/
structure SameGrid (s t : TerminalScreen) : Prop where
  rows : t.rows = s.rows
  columns : t.columns = s.columns
  cells : t.cells.size = s.cells.size
  row : t.cursorRow = s.cursorRow
  column : t.cursorColumn = s.cursorColumn

theorem SameGrid.refl (s : TerminalScreen) : SameGrid s s :=
  ⟨rfl, rfl, rfl, rfl, rfl⟩

theorem SameGrid.trans {u : TerminalScreen} (h : SameGrid s t)
    (h' : SameGrid t u) : SameGrid s u :=
  ⟨h'.rows.trans h.rows, h'.columns.trans h.columns, h'.cells.trans h.cells,
    h'.row.trans h.row, h'.column.trans h.column⟩

theorem SameGrid.inGrid (h : SameGrid s t) (hs : s.InGrid) : t.InGrid := by
  obtain ⟨hrows, hcolumns, hcells, hrow, hcolumn⟩ := h
  obtain ⟨h₁, h₂, h₃, h₄, h₅, h₆⟩ := hs
  constructor
  all_goals simp only [hrows, hcolumns, hcells, hrow, hcolumn]
  all_goals assumption

/-! ## Indices -/

theorem InGrid.rows_le (h : s.InGrid) : s.rows ≤ intMax := by
  have hle := Int.mul_le_mul_of_nonneg_left h.columns
    (show 0 ≤ s.rows by have := h.rows; omega)
  have := h.fits
  omega

theorem InGrid.columns_le (h : s.InGrid) : s.columns ≤ intMax := by
  have hle := Int.mul_le_mul_of_nonneg_right h.rows
    (show 0 ≤ s.columns by have := h.columns; omega)
  have := h.fits
  omega

/-- A row and a column of a grid give an index into its cells. -/
theorem cellIndex_eq {rows columns : Int} (row column : Int)
    (hfits : rows * columns ≤ intMax) (hrow : 0 ≤ row ∧ row < rows)
    (hcolumn : 0 ≤ column ∧ column < columns) :
    cellIndex columns row column = .ok (row * columns + column) ∧
      0 ≤ row * columns + column ∧
        row * columns + column < rows * columns := by
  have hpos : 0 ≤ row * columns := Int.mul_nonneg hrow.1 (by omega)
  have hnext : (row + 1) * columns ≤ rows * columns :=
    Int.mul_le_mul_of_nonneg_right (by omega) (by omega)
  have hsucc : (row + 1) * columns = row * columns + columns := by
    rw [Int.add_mul, Int.one_mul]
  have hmin : intMin ≤ 0 := by decide
  refine ⟨?_, by omega, by omega⟩
  rw [cellIndex, int32_eq (by omega) (by omega)]
  exact int32_eq (by omega) (by omega)

theorem setCell_safe (h : s.InGrid) {row column : Int} (cell : Cell)
    (hrow : 0 ≤ row ∧ row < s.rows)
    (hcolumn : 0 ≤ column ∧ column < s.columns) :
    Safe (s.setCell row column cell) (SameGrid s) := by
  obtain ⟨hindex, hlo, hhi⟩ := cellIndex_eq row column h.fits hrow hcolumn
  have hcells := h.cells
  unfold setCell
  rw [hindex, ok_bind]
  refine .bind (writeAt_safe cell hlo (by omega)) fun cells hsize => ?_
  exact .ok ⟨rfl, rfl, hsize, rfl, rfl⟩

/-! ## Erasing and scrolling -/

theorem clearCells_safe (h : s.InGrid) {row lo hi : Int}
    (hrow : 0 ≤ row ∧ row < s.rows) (hlo : 0 ≤ lo) (hhi : hi ≤ s.columns) :
    Safe (s.clearCells row lo hi) (SameGrid s) := by
  refine forRange_safe (fun c t hc hc' ht => ?_) (.refl s)
  have hrows := ht.rows
  have hcolumns := ht.columns
  refine (setCell_safe (ht.inGrid h) {} ?_ ?_).mono fun u hu => ht.trans hu
  · omega
  · omega

theorem clearRows_safe (h : s.InGrid) {lo hi : Int} (hlo : 0 ≤ lo)
    (hhi : hi ≤ s.rows) : Safe (s.clearRows lo hi) (SameGrid s) := by
  refine forRange_safe (fun r t hr hr' ht => ?_) (.refl s)
  have hrows := ht.rows
  refine (clearCells_safe (ht.inGrid h) ?_ (Int.le_refl 0)
    (Int.le_refl _)).mono fun u hu => ht.trans hu
  omega

theorem scrollUp_safe (h : s.InGrid) : Safe s.scrollUp (SameGrid s) := by
  have hpos := h.rows
  have hle := h.rows_le
  unfold scrollUp
  refine .bind (P := SameGrid s) ?_ fun t ht => ?_
  · refine forRange_safe (fun r t hr hr' ht => ?_) (.refl s)
    refine forRange_safe (fun c u hc hc' hu => ?_) ht
    have hu' := hu.inGrid h
    have hrows := hu.rows
    have hcolumns := hu.columns
    have htcolumns := ht.columns
    have hmin : intMin ≤ 0 := by decide
    obtain ⟨hindex, hlo, hhi⟩ := cellIndex_eq (r + 1) c hu'.fits
      (by omega) (by omega)
    have hcells := hu'.cells
    rw [int32_eq (by omega) (by omega), ok_bind, hindex, ok_bind]
    refine .bind (readAt_safe hlo (by omega)) fun cell _ => ?_
    refine (setCell_safe hu' cell ?_ ?_).mono fun v hv => hu.trans hv
    · omega
    · omega
  · have hrows := ht.rows
    have hcolumns := ht.columns
    refine (clearCells_safe (ht.inGrid h) ?_ (Int.le_refl 0) ?_).mono
      fun u hu => ht.trans hu
    · omega
    · omega

/-! ## Moving the cursor -/

/-- The cursor may go anywhere on the grid. -/
theorem InGrid.withCursor (h : s.InGrid) {row column : Int}
    (hrow : 0 ≤ row ∧ row < s.rows)
    (hcolumn : 0 ≤ column ∧ column ≤ s.columns) :
    (s.withCursor row column).InGrid :=
  ⟨h.rows, h.columns, h.fits, h.cells, hrow, hcolumn⟩

/-- What has nothing to do with the grid may change. -/
theorem InGrid.of_eq (h : s.InGrid) (hrows : t.rows = s.rows)
    (hcolumns : t.columns = s.columns) (hcells : t.cells.size = s.cells.size)
    (hrow : t.cursorRow = s.cursorRow)
    (hcolumn : t.cursorColumn = s.cursorColumn) : t.InGrid :=
  SameGrid.inGrid ⟨hrows, hcolumns, hcells, hrow, hcolumn⟩ h

theorem InGrid.emit (h : s.InGrid) (e : Signal) : (s.emit e).InGrid :=
  h.of_eq rfl rfl rfl rfl rfl

theorem clamp_bounds (v : Int) {n : Int} (hn : 1 ≤ n) :
    0 ≤ clamp v 0 (n - 1) ∧ clamp v 0 (n - 1) < n := by
  unfold clamp
  split
  · omega
  · split <;> omega

theorem setCursor_inGrid (h : s.InGrid) (row column : Int) :
    (s.setCursor row column).InGrid := by
  have hrow := clamp_bounds row h.rows
  have hcolumn := clamp_bounds column h.columns
  refine (h.withCursor hrow ?_).emit _
  omega

theorem carriageReturn_inGrid (h : s.InGrid) : s.carriageReturn.InGrid := by
  have hcolumns := h.columns
  refine (h.withCursor h.row ?_).emit _
  omega

theorem backspace_inGrid (h : s.InGrid) : s.backspace.InGrid := by
  have hcolumn := h.column
  unfold backspace
  split
  · refine (h.withCursor h.row ?_).emit _
    omega
  · exact h

theorem clear_inGrid (h : s.InGrid) : s.clear.InGrid := by
  have hrows := h.rows
  have hcolumns := h.columns
  constructor
  · exact h.rows
  · exact h.columns
  · exact h.fits
  · show ((s.cells.map fun _ => ({} : Cell)).size : Int) = _
    rw [Array.size_map]
    exact h.cells
  · show 0 ≤ (0 : Int) ∧ (0 : Int) < s.rows
    omega
  · show 0 ≤ (0 : Int) ∧ (0 : Int) ≤ s.columns
    omega

theorem putCellAtCursor_safe (h : s.InGrid) (fragment : List UInt16) :
    Safe (s.putCellAtCursor fragment) InGrid := by
  have hrow := h.row
  have hcolumn := h.column
  have hcolumns := h.columns
  unfold putCellAtCursor
  split
  · exact .ok h
  · simp only []
    generalize hc : (if s.cursorColumn ≥ s.columns then s.columns - 1
      else s.cursorColumn) = column
    have hon : 0 ≤ column ∧ column < s.columns := by
      split at hc <;> omega
    refine .bind (setCell_safe h _ hrow hon) fun t ht => .ok ?_
    have htrow := ht.row
    have htrows := ht.rows
    have htcolumns := ht.columns
    refine ((ht.inGrid h).withCursor ?_ ?_).emit _
    · omega
    · split <;> omega

theorem lineFeed_safe (h : s.InGrid) : Safe s.lineFeed InGrid := by
  have hrow := h.row
  have hle := h.rows_le
  have hmin : intMin ≤ 0 := by decide
  unfold lineFeed
  rw [int32_eq (by omega) (by omega), ok_bind]
  split
  · exact .bind (scrollUp_safe h) fun t ht => .ok ((ht.inGrid h).emit _)
  · refine .ok ((h.withCursor ?_ h.column).emit _)
    omega

/-- A cursor that moves is clamped, if the sums fit an `int`. -/
theorem moveCursor_safe (h : s.InGrid) {rowDelta columnDelta : Int}
    (hrow : -999999 ≤ rowDelta ∧ s.cursorRow + rowDelta ≤ intMax)
    (hcolumn : -999999 ≤ columnDelta ∧
      s.cursorColumn + columnDelta ≤ intMax) :
    Safe (s.moveCursor rowDelta columnDelta) InGrid := by
  have hr := h.row
  have hc := h.column
  have hmin : intMin ≤ -999999 := by decide
  unfold moveCursor
  rw [int32_eq (by omega) (by omega), ok_bind,
    int32_eq (by omega) (by omega), ok_bind]
  exact .ok (setCursor_inGrid h _ _)

theorem tab_safe_iff (h : s.InGrid) :
    SafeIff s.tab InGrid (s.cursorColumn < 2147483640) := by
  have hc := h.column
  have hcolumns := h.columns
  unfold tab
  by_cases hfits : s.cursorColumn < 2147483640
  · refine .of_safe ?_ hfits
    have hmin : intMin ≤ 0 := by decide
    have hmax : intMax = 2147483647 := rfl
    rw [int32_eq (by omega) (by omega), ok_bind]
    refine .ok ((h.withCursor h.row ?_).emit _)
    split <;> omega
  · refine .of_fault (bind_error (int32_overflow ?_)) hfits
    have hmax : intMax = 2147483647 := rfl
    omega

/-! ## Erasing -/

theorem eraseInLine_safe (h : s.InGrid) (mode : Int) :
    Safe (s.eraseInLine mode) InGrid := by
  have hc := h.column
  have hback {m : Except Fault TerminalScreen} (hm : Safe m (SameGrid s)) :
      Safe m InGrid := hm.mono fun t ht => ht.inGrid h
  unfold eraseInLine
  split
  · exact hback (clearCells_safe h h.row hc.1 (Int.le_refl _))
  · split
    · exact hback (clearCells_safe h h.row (Int.le_refl 0) (by omega))
    · split
      · exact hback (clearCells_safe h h.row (Int.le_refl 0) (Int.le_refl _))
      · exact .ok h

theorem eraseInDisplay_safe (h : s.InGrid) (mode : Int) :
    Safe (s.eraseInDisplay mode) InGrid := by
  have hr := h.row
  have hc := h.column
  have hle := h.rows_le
  have hmin : intMin ≤ 0 := by decide
  unfold eraseInDisplay
  split
  · refine .bind (clearCells_safe h h.row hc.1 (Int.le_refl _)) fun t ht => ?_
    have ht' := ht.inGrid h
    have hrow := ht.row
    rw [int32_eq (by omega) (by omega), ok_bind]
    exact (clearRows_safe ht' (by omega) (Int.le_refl _)).mono fun u hu =>
      hu.inGrid ht'
  · split
    · refine .bind (clearRows_safe h (Int.le_refl 0) (by omega)) fun t ht => ?_
      have ht' := ht.inGrid h
      exact (clearCells_safe ht' ht'.row (Int.le_refl 0) (by omega)).mono
        fun u hu => hu.inGrid ht'
    · exact (clearRows_safe h (Int.le_refl 0) (Int.le_refl _)).mono fun t ht =>
        ht.inGrid h

/-! ## Resizing -/

/-- Any size whose product is an `int`; one that is not positive is ignored. -/
theorem resize_safe (h : s.InGrid) {newRows newColumns : Int}
    (hfits : 0 < newRows → 0 < newColumns → newRows * newColumns ≤ intMax) :
    Safe (s.resize newRows newColumns) InGrid := by
  unfold resize
  split
  · exact .ok h
  · next hpos =>
      have hrows : 1 ≤ newRows := by omega
      have hcolumns : 1 ≤ newColumns := by omega
      have hsize := hfits hrows hcolumns
      have hnonneg : 0 ≤ newRows * newColumns :=
        Int.mul_nonneg (by omega) (by omega)
      have hmin : intMin ≤ 0 := by decide
      split
      · exact .ok h
      · rw [int32_eq (by omega) hsize, ok_bind]
        -- the new cells keep their number while the old ones are copied
        refine .bind (P := fun cells =>
          (cells.size : Int) = newRows * newColumns) ?_ fun cells hcells => ?_
        · refine forRange_safe (fun r next hr hr' hnext => ?_) ?_
          · refine forRange_safe (fun c next hc hc' hnext => ?_) hnext
            obtain ⟨hold, holdLo, holdHi⟩ := cellIndex_eq r c h.fits
              (by omega) (by omega)
            obtain ⟨hnew, hnewLo, hnewHi⟩ := cellIndex_eq r c hsize
              (by omega) (by omega)
            have hcells := h.cells
            rw [hold, ok_bind]
            refine .bind (readAt_safe holdLo (by omega)) fun cell _ => ?_
            rw [hnew, ok_bind]
            refine (writeAt_safe cell hnewLo (by omega)).mono fun u hu => ?_
            omega
          · simp only [Array.size_replicate]
            omega
        · have hr := clamp_bounds s.cursorRow hrows
          have hc := clamp_bounds s.cursorColumn hcolumns
          exact .ok ⟨hrows, hcolumns, hsize, hcells, hr, hc.1, Int.le_of_lt hc.2⟩

/-! ## Parameters -/

/-- No parameter is beyond the value its digits stop at. -/
def Plausible (params : List Int) : Prop := ∀ n ∈ params, 0 ≤ n ∧ n ≤ 999999

theorem parseParamsLoop_safe (body : Bytes) {n : Int} {out : List Int}
    (hn : -1 ≤ n ∧ n ≤ 999999) (hout : Plausible out) :
    Safe (parseParamsLoop body n out) fun p =>
      Plausible p.1 ∧ -1 ≤ p.2 ∧ p.2 ≤ 999999 := by
  have hsnoc {n : Int} (hn : -1 ≤ n ∧ n ≤ 999999) {out : List Int}
      (hout : Plausible out) : Plausible (out ++ [if n < 0 then 0 else n]) := by
    intro v hv
    rcases List.mem_append.mp hv with hv | hv
    · exact hout v hv
    · rw [List.mem_singleton.mp hv]
      split <;> omega
  induction body generalizing n out with
  | nil => exact .ok ⟨hout, hn⟩
  | cons b body ih =>
      rw [parseParamsLoop]
      split
      · exact ih (by omega) (hsnoc hn hout)
      · split
        · next hdigit =>
            have hlo : (0x30 : UInt8).toNat ≤ b.toNat :=
              UInt8.le_iff_toNat_le.mp hdigit.1
            have hhi : b.toNat ≤ (0x39 : UInt8).toNat :=
              UInt8.le_iff_toNat_le.mp hdigit.2
            simp only [UInt8.toNat_ofNat] at hlo hhi
            simp only []
            generalize hm : (if n < 0 then 0 else n) = m
            have hm' : 0 ≤ m ∧ m ≤ 999999 := by
              split at hm <;> omega
            split
            · exact ih (by omega) hout
            · have hmin : intMin ≤ 0 := by decide
              have hmax : intMax = 2147483647 := rfl
              rw [int32_eq (by omega) (by omega), ok_bind,
                int32_eq (by omega) (by omega), ok_bind]
              exact ih (by omega) hout
        · exact .ok ⟨hout, hn⟩

theorem parseParams_safe (body : Bytes) : Safe (parseParams body) Plausible := by
  unfold parseParams
  refine .bind (parseParamsLoop_safe body (by omega)
    (List.forall_mem_nil _)) fun p hp => .ok fun v hv => ?_
  obtain ⟨hout, hn⟩ := hp
  rcases List.mem_append.mp hv with hv | hv
  · exact hout v hv
  · rw [List.mem_singleton.mp hv]
    split <;> omega

theorem param_bounds {params : List Int} (h : Plausible params) (idx : Nat) :
    1 ≤ param params idx 1 ∧ param params idx 1 ≤ 999999 := by
  unfold param
  split
  · next v hv =>
      have hv' := h v (List.mem_of_getElem? hv)
      split <;> omega
  · omega

/-! ## Colors and window operations -/

theorem cubeStep_safe {v : Int} (h : 0 ≤ v ∧ v ≤ 999999) :
    Safe (cubeStep v) fun _ => True := by
  have hmin : intMin ≤ 0 := by decide
  have hmax : intMax = 2147483647 := rfl
  unfold cubeStep
  split
  · exact .ok trivial
  · split
    · exact .ok trivial
    · rw [int32_eq (by omega) (by omega), ok_bind]
      exact .ok trivial

theorem quantizeRgbTo256_safe {r g b : Int} (hr : 0 ≤ r ∧ r ≤ 999999)
    (hg : 0 ≤ g ∧ g ≤ 999999) (hb : 0 ≤ b ∧ b ≤ 999999) :
    Safe (quantizeRgbTo256 r g b) fun _ => True := by
  have hmin : intMin ≤ 0 := by decide
  have hmax : intMax = 2147483647 := rfl
  unfold quantizeRgbTo256
  refine .bind (cubeStep_safe hr) fun ri _ => ?_
  refine .bind (cubeStep_safe hg) fun gi _ => ?_
  refine .bind (cubeStep_safe hb) fun bi _ => ?_
  have hri := clamp_bounds ri (show (1 : Int) ≤ 6 by omega)
  have hgi := clamp_bounds gi (show (1 : Int) ≤ 6 by omega)
  have hbi := clamp_bounds bi (show (1 : Int) ≤ 6 by omega)
  rw [show (6 : Int) - 1 = 5 from rfl] at hri hgi hbi
  simp only []
  rw [int32_eq (by omega) (by omega), ok_bind]
  exact .ok trivial

theorem consumeExtendedColor_safe {params : List Int} (h : Plausible params) :
    Safe (consumeExtendedColor params) fun p => Plausible p.2 := by
  have htail {n : Int} {ps : List Int} (h : Plausible (n :: ps)) :
      Plausible ps := fun v hv => h v (List.mem_cons_of_mem n hv)
  have hhead {n : Int} {ps : List Int} (h : Plausible (n :: ps)) :
      0 ≤ n ∧ n ≤ 999999 := h n List.mem_cons_self
  have hnone : Plausible [] := List.forall_mem_nil _
  unfold consumeExtendedColor
  split
  · exact .ok hnone
  · have hrest := htail h
    split
    · split
      · exact .ok (htail hrest)
      · exact .ok hnone
    · split
      · split
        · have hg := htail hrest
          have hb := htail hg
          refine .bind (quantizeRgbTo256_safe (hhead hrest) (hhead hg)
            (hhead hb)) fun idx _ => .ok ?_
          exact htail hb
        · exact .ok hnone
      · exact .ok hrest

theorem handleSgrCode_sameGrid (code : Int) (s : TerminalScreen) :
    SameGrid s (s.handleSgrCode code) := by
  have hpen (pen : Cell) : SameGrid s { s with pen } :=
    ⟨rfl, rfl, rfl, rfl, rfl⟩
  have hite {p : Prop} [Decidable p] {t u : TerminalScreen}
      (ht : SameGrid s t) (hu : SameGrid s u) :
      SameGrid s (if p then t else u) := by
    split
    · exact ht
    · exact hu
  unfold handleSgrCode
  repeat' first
    | exact hpen _
    | exact .refl s
    | apply hite

theorem handleSgrLoop_safe (fuel : Nat) {params : List Int}
    (h : Plausible params) (hs : s.InGrid) :
    Safe (handleSgrLoop fuel params s) InGrid := by
  induction fuel generalizing params s with
  | zero => exact .ok hs
  | succ fuel ih =>
      cases params with
      | nil => exact .ok hs
      | cons code params =>
          have htail : Plausible params :=
            fun v hv => h v (List.mem_cons_of_mem code hv)
          have hcolor {f : UInt8 → TerminalScreen → TerminalScreen}
              (hf : ∀ idx, SameGrid s (f idx s)) :
              Safe (consumeExtendedColor params >>= fun p =>
                handleSgrLoop fuel p.2 (p.1.elim s (f · s))) InGrid := by
            refine .bind (consumeExtendedColor_safe htail) fun p hp => ih hp ?_
            cases p.1 with
            | none => exact hs
            | some idx => exact (hf idx).inGrid hs
          rw [handleSgrLoop]
          split
          · exact hcolor fun _ => ⟨rfl, rfl, rfl, rfl, rfl⟩
          · split
            · exact hcolor fun _ => ⟨rfl, rfl, rfl, rfl, rfl⟩
            · exact ih htail ((handleSgrCode_sameGrid code s).inGrid hs)

theorem handleSgr_safe {params : List Int} (h : Plausible params)
    (hs : s.InGrid) : Safe (s.handleSgr params) InGrid := by
  unfold handleSgr
  split
  · exact .ok (hs.of_eq rfl rfl rfl rfl rfl)
  · exact handleSgrLoop_safe _ h hs

theorem InGrid.emitResponse (h : s.InGrid) (bytes : Bytes) :
    (s.emitResponse bytes).InGrid := by
  unfold TerminalScreen.emitResponse
  split
  · exact h
  · exact h.emit _

/-- Only the pixel size is more than the size itself. -/
theorem handleWindowOps_safe_iff (h : s.InGrid) (params : List Int) :
    SafeIff (s.handleWindowOps params) InGrid
      (params.getD 0 0 = 14 → s.rows < 134217728 ∧ s.columns < 268435456) := by
  have hrows := h.rows
  have hcolumns := h.columns
  have hmin : intMin ≤ 0 := by decide
  have hmax : intMax = 2147483647 := rfl
  unfold handleWindowOps
  simp only []
  split
  · next hop =>
      rw [imp_iff_right hop]
      by_cases hheight : s.rows < 134217728
      · rw [int32_eq (by omega) (by omega), ok_bind]
        by_cases hwidth : s.columns < 268435456
        · rw [int32_eq (by omega) (by omega), ok_bind]
          exact .of_safe (.ok (h.emitResponse _)) ⟨hheight, hwidth⟩
        · exact .of_fault (bind_error (int32_overflow (by omega)))
            fun hw => hwidth hw.2
      · exact .of_fault (bind_error (int32_overflow (by omega)))
          fun hh => hheight hh.1
  · next hop =>
      refine .of_safe ?_ fun h14 => absurd h14 hop
      split
      · exact .ok (h.emitResponse _)
      · split
        · exact .ok (h.emitResponse _)
        · exact .ok h

/-! ## Sequences -/

/-- What a sequence computes of its parameters and the screen is an `int`. -/
def finalRoom (s : TerminalScreen) (final : UInt8) (params : List Int) : Bool :=
  match Char.ofNat final.toNat with
  | 'B' | 'E' => s.cursorRow ≤ intMax - param params 0 1
  | 'C' => s.cursorColumn ≤ intMax - param params 0 1
  | 't' => params.getD 0 0 ≠ 14 ∨ s.rows < 134217728 ∧ s.columns < 268435456
  | _ => true

theorem handleFinal_safe_iff (h : s.InGrid) (final : UInt8) {params : List Int}
    (hp : Plausible params) :
    SafeIff (s.handleFinal final params) InGrid
      (s.finalRoom final params = true) := by
  have hp₀ := param_bounds hp 0
  have hp₁ := param_bounds hp 1
  have hr := h.row
  have hc := h.column
  have hrle := h.rows_le
  have hcle := h.columns_le
  have hmin : intMin ≤ -999999 := by decide
  have hmax : intMax = 2147483647 := rfl
  have hok {m : Except Fault TerminalScreen} {p : Prop} (hm : Safe m InGrid)
      (ht : p) : SafeIff m InGrid p := .of_safe hm ht
  unfold handleFinal finalRoom
  simp only []
  generalize Char.ofNat final.toNat = c
  split
  · exact hok (moveCursor_safe h (by omega) (by omega)) rfl
  · show SafeIff _ _ (decide _ = true)
    rw [decide_eq_true_iff]
    by_cases hroom : s.cursorRow ≤ intMax - param params 0 1
    · exact hok (moveCursor_safe h (by omega) (by omega)) hroom
    · refine .of_fault (bind_error (int32_overflow ?_)) hroom
      omega
  · show SafeIff _ _ (decide _ = true)
    rw [decide_eq_true_iff]
    by_cases hroom : s.cursorColumn ≤ intMax - param params 0 1
    · exact hok (moveCursor_safe h (by omega) (by omega)) hroom
    · have hfault : s.moveCursor 0 (param params 0 1) = .error .overflow := by
        rw [moveCursor, int32_eq (by omega) (by omega), ok_bind]
        exact bind_error (int32_overflow (by omega))
      exact .of_fault hfault hroom
  · exact hok (moveCursor_safe h (by omega) (by omega)) rfl
  · show SafeIff _ _ (decide _ = true)
    rw [decide_eq_true_iff]
    by_cases hroom : s.cursorRow ≤ intMax - param params 0 1
    · rw [int32_eq (by omega) (by omega), ok_bind]
      exact hok (.ok (setCursor_inGrid h _ _)) hroom
    · refine .of_fault (bind_error (int32_overflow ?_)) hroom
      omega
  · rw [int32_eq (by omega) (by omega), ok_bind]
    exact hok (.ok (setCursor_inGrid h _ _)) rfl
  · rw [int32_eq (by omega) (by omega), ok_bind]
    exact hok (.ok (setCursor_inGrid h _ _)) rfl
  · rw [int32_eq (by omega) (by omega), ok_bind,
      int32_eq (by omega) (by omega), ok_bind]
    exact hok (.ok (setCursor_inGrid h _ _)) rfl
  · rw [int32_eq (by omega) (by omega), ok_bind,
      int32_eq (by omega) (by omega), ok_bind]
    exact hok (.ok (setCursor_inGrid h _ _)) rfl
  · exact hok (eraseInDisplay_safe h _) rfl
  · exact hok (eraseInLine_safe h _) rfl
  · exact hok (handleSgr_safe hp h) rfl
  · exact hok (.ok (h.of_eq rfl rfl rfl rfl rfl)) rfl
  · show SafeIff _ _ (decide _ = true)
    rw [decide_eq_true_iff, ne_eq, ← imp_iff_not_or]
    exact handleWindowOps_safe_iff h params
  · exact hok (.ok (setCursor_inGrid h _ _)) rfl
  · refine hok (.ok h) ?_
    split
    all_goals first
      | rfl
      | contradiction

/-! ## Bytes -/

/-- The byte, and the sequence it may complete, compute nothing on the screen
that is not an `int`. -/
def room (s : TerminalScreen) (b : UInt8) : Bool :=
  match s.parser.state with
  | .ground => b ≠ 0x09 ∨ s.cursorColumn < 2147483640
  | .csi =>
      if s.parser.seq.length < csiMaxBytes ∧ s.parser.csiPrivate = false ∧
          isCsiFinal b = true then
        match parseParams s.parser.seq with
        | .ok params => s.finalRoom b params
        | .error _ => true
      else true
  | _ => true

theorem InGrid.withParser (h : s.InGrid) (parser : Vt100Parser) :
    (s.withParser parser).InGrid :=
  h.of_eq rfl rfl rfl rfl rfl

theorem handleC0_safe_iff (h : s.InGrid) (b : UInt8) :
    SafeIff (s.handleC0 b) InGrid
      (b ≠ 0x09 ∨ s.cursorColumn < 2147483640) := by
  have hok {m : Except Fault TerminalScreen} (hm : Safe m InGrid)
      (hb : b ≠ 0x09) :
      SafeIff m InGrid (b ≠ 0x09 ∨ s.cursorColumn < 2147483640) :=
    .of_safe hm (.inl hb)
  unfold handleC0
  split
  · next hb => exact hok (.ok (h.emit _)) (by rw [hb]; decide)
  · split
    · next hb => exact hok (.ok (backspace_inGrid h)) (by rw [hb]; decide)
    · split
      · next hb =>
          exact (tab_safe_iff h).congr (or_iff_right (not_not.mpr hb)).symm
      · next hb =>
          split
          · exact hok (lineFeed_safe h) hb
          · split
            · exact hok (.ok (carriageReturn_inGrid h)) hb
            · exact hok (.ok h) hb

/-- A sequence that a byte completes. -/
theorem handleCsi_safe_iff (h : s.InGrid) (b : UInt8) {params : List Int}
    (hparams : parseParams s.parser.seq = .ok params) (hp : Plausible params) :
    SafeIff
      (s.withParser { s.parser with seq := s.parser.seq ++ [b] }).handleCsi
      InGrid (s.parser.csiPrivate = true ∨ s.finalRoom b params = true) := by
  generalize hs : s.withParser { s.parser with seq := s.parser.seq ++ [b] } = s'
  have hs' : s'.InGrid := hs ▸ h.withParser _
  have hlast : s'.parser.seq.getLast? = some b := by
    rw [← hs]
    exact List.getLast?_concat
  have hbody : s'.parser.seq.dropLast = s.parser.seq := by
    rw [← hs]
    exact List.dropLast_concat
  have hprivacy : s'.parser.csiPrivate = s.parser.csiPrivate := by
    rw [← hs]
    rfl
  have hroom : s'.finalRoom b params = s.finalRoom b params := by
    rw [← hs]
    rfl
  unfold handleCsi
  rw [hlast]
  simp only []
  rw [hbody, hparams, ok_bind, hprivacy]
  split
  · next hprivate => exact .of_safe (.ok hs') (.inl hprivate)
  · next hprivate =>
      rw [or_iff_right hprivate, ← hroom]
      exact handleFinal_safe_iff hs' b hp

theorem feedByte_safe_iff (h : s.InGrid) (b : UInt8) :
    SafeIff (s.feedByte b) InGrid (s.room b = true) := by
  have hok {t : TerminalScreen} (ht : t.InGrid) {p : Prop} (hp : p) :
      SafeIff (.ok t : Except Fault _) InGrid p := .of_safe (.ok ht) hp
  unfold feedByte room
  simp only []
  cases hstate : s.parser.state with
  | ground =>
      simp only [decide_eq_true_iff]
      have hplain {m : Except Fault TerminalScreen} (hm : Safe m InGrid)
          (hb : b ≠ 0x09) :
          SafeIff m InGrid (b ≠ 0x09 ∨ s.cursorColumn < 2147483640) :=
        .of_safe hm (.inl hb)
      split
      · next hb => exact hplain (.ok (h.withParser _)) (by rw [hb]; decide)
      · split
        · exact handleC0_safe_iff h b
        · next hb =>
            have htab : b ≠ 0x09 := fun h9 => hb (by rw [h9]; decide)
            split
            · exact hplain (putCellAtCursor_safe h _) htab
            · exact hplain (putCellAtCursor_safe (h.withParser _) _) htab
  | escape =>
      simp only []
      split
      · exact hok (h.withParser _) trivial
      · split
        · exact hok (h.withParser _) trivial
        · split
          · exact hok ((clear_inGrid h).withParser _) trivial
          · split
            · have hsave : s.saveCursor.InGrid := h.of_eq rfl rfl rfl rfl rfl
              exact hok (hsave.withParser _) trivial
            · split
              · exact hok ((setCursor_inGrid h _ _).withParser _) trivial
              · exact hok (h.withParser _) trivial
  | csi =>
      simp only []
      split
      · next hquestion =>
          have hb : isCsiFinal b = false := by rw [hquestion.2]; decide
          refine hok (h.withParser _) ?_
          rw [if_neg]
          rintro ⟨-, -, hfinal⟩
          rw [hb] at hfinal
          cases hfinal
      · split
        · next hfull =>
            refine hok (h.withParser _) ?_
            rw [if_neg]
            omega
        · next hroom =>
            have hlength : s.parser.seq.length < csiMaxBytes := by omega
            split
            · next hfinal =>
                obtain ⟨params, hparams, hp⟩ := parseParams_safe s.parser.seq
                have hcsi := handleCsi_safe_iff h b hparams hp
                simp only [hstate] at hcsi
                refine .map ((hcsi.mono fun t ht =>
                  ht.withParser _).congr ?_)
                rw [hparams]
                split
                · next hopen =>
                    refine or_iff_right ?_
                    rw [hopen.2.1]
                    decide
                · next hclosed =>
                    refine iff_of_true (.inl ?_) rfl
                    by_contra hprivate
                    exact hclosed ⟨hlength, eq_false_of_ne_true hprivate, hfinal⟩
            · next hfinal =>
                refine hok (h.withParser _) ?_
                rw [if_neg]
                rintro ⟨-, -, hfinal'⟩
                exact hfinal hfinal'
  | osc =>
      simp only []
      split
      · exact hok (h.withParser _) trivial
      · split
        · exact hok (h.withParser _) trivial
        · exact hok h trivial

/-! ## Calls -/

/-- Every byte of a call has room where it lands. -/
def CallRoom (s : TerminalScreen) : Call → Prop
  | .feed bytes => MeetsAll (fun s b => s.room b = true) feedByte s bytes
  | .resize _ _ => True
  | .clear => True

instance (s : TerminalScreen) : ∀ call, Decidable (s.CallRoom call)
  | .feed _ => MeetsAll.decidable _ _
  | .resize _ _ => .isTrue trivial
  | .clear => .isTrue trivial

/-- The product of the sizes is an `int`, where they are any. -/
def Fits : Call → Prop
  | .resize newRows newColumns =>
      0 < newRows → 0 < newColumns → newRows * newColumns ≤ intMax
  | _ => True

instance : ∀ call, Decidable (Fits call)
  | .resize _ _ => inferInstanceAs (Decidable (_ → _ → _ ≤ _))
  | .feed _ => .isTrue trivial
  | .clear => .isTrue trivial

theorem inGrid_fresh : ({} : TerminalScreen).InGrid where
  rows := by decide
  columns := by decide
  fits := by decide
  cells := by
    show ((Array.replicate 1920 ({} : Cell)).size : Int) = 24 * 80
    rw [Array.size_replicate]
    rfl
  row := by decide
  column := by decide

theorem call_safe_iff (h : s.InGrid) (call : Call) (hfits : Fits call) :
    SafeIff (s.call call) InGrid (s.CallRoom call) := by
  cases call with
  | feed bytes =>
      have hbyte (t : TerminalScreen) (b : UInt8) (ht : t.InGrid) (_ : True) :
          SafeIff (t.feedByte b) InGrid (t.room b = true) :=
        feedByte_safe_iff ht b
      have hbytes := foldlM_safeIff hbyte (fun _ (_ : _ ∈ bytes) => trivial) h
      exact .map (hbytes.mono fun t ht => ht.emit _)
  | resize newRows newColumns => exact .of_safe (resize_safe h hfits) trivial
  | clear => exact .of_safe (.ok (clear_inGrid h)) trivial

/-- From the first screen on, and for all sizes whose product is an `int`, the
grid is kept in just the runs whose bytes have room. -/
theorem grid_kept (calls : List Call) (hfits : ∀ c ∈ calls, Fits c) :
    Safe (calls.foldlM call {}) InGrid ↔ MeetsAll CallRoom call {} calls :=
  (foldlM_safeIff (fun _ c hs hc => call_safe_iff hs c hc) hfits
    inGrid_fresh).iff

set_option maxRecDepth 10000 in
/-- A screen of one cell, on which everything is past the last column. -/
theorem grid_kept_single :
    Safe ([.resize 1 1, .feed [0x61, 0x0A, 0x1B, 0x5B, 0x37, 0x42, 0x09, 0x62],
      .resize 2 3, .clear].foldlM call {}) InGrid :=
  (grid_kept _ (by decide)).mpr (by decide)

/-! ### A grid of one column, as high as it can be -/

private def nines : Bytes := [0x39, 0x39, 0x39, 0x39, 0x39, 0x39]

/-- `CSI 999999 B` -/
private def down : Call := .feed ([0x1B, 0x5B] ++ nines ++ [0x42])

/-- The cursor is on row `k`. -/
private structure Tall (k : Int) (s : TerminalScreen) : Prop where
  state : s.parser.state = .ground
  rows : s.rows = 2147483647
  columns : s.columns = 1
  row : s.cursorRow = k
  column : s.cursorColumn = 0

private theorem feed_nines (hstate : s.parser.state = .ground) :
    ([0x1B, 0x5B] ++ nines).foldlM feedByte s =
      .ok (s.withParser { s.parser with
        state := .csi, seq := nines, csiPrivate := false }) := by
  obtain ⟨rows, columns, row, column, savedRow, savedColumn, pen, cells, parser,
    out⟩ := s
  obtain ⟨state, seq, utf8, utf8Remaining, csiPrivate⟩ := parser
  have hground : state = .ground := hstate
  subst hground
  rfl

private theorem call_down (hstate : s.parser.state = .ground) :
    s.call down = (s.withParser { s.parser with
      state := .csi, seq := nines ++ [0x42], csiPrivate := false }).moveCursor
        999999 0 >>= fun t => .ok t.dropSeq.touch := by
  have hlast : (s.withParser { s.parser with
      state := .csi, seq := nines, csiPrivate := false }).feedByte 0x42 =
        (s.withParser { s.parser with
          state := .csi, seq := nines ++ [0x42],
          csiPrivate := false }).moveCursor 999999 0 >>= fun t =>
            pure t.dropSeq := by
    obtain ⟨rows, columns, row, column, savedRow, savedColumn, pen, cells, parser,
      out⟩ := s
    rfl
  show ([0x1B, 0x5B] ++ nines ++ [0x42]).foldlM feedByte s >>= _ = _
  rw [List.foldlM_append, feed_nines hstate, ok_bind, List.foldlM_cons, hlast]
  cases moveCursor 999999 0 _ <;> rfl

private theorem tall_down {k : Int} (h : Tall k s) (hk : 0 ≤ k)
    (hfits : k + 999999 ≤ 2147483646) :
    ∃ t, s.call down = .ok t ∧ Tall (k + 999999) t := by
  obtain ⟨hstate, hrows, hcolumns, hrow, hcolumn⟩ := h
  have hmin : intMin ≤ 0 := by decide
  have hmax : intMax = 2147483647 := rfl
  rw [call_down hstate, moveCursor]
  simp only [withParser, hrow, hcolumn]
  rw [int32_eq (by omega) (by omega), ok_bind, int32_eq (by omega) (by omega),
    ok_bind]
  refine ⟨_, rfl, rfl, hrows, hcolumns, ?_, ?_⟩
  · show clamp (k + 999999) 0 (s.rows - 1) = k + 999999
    unfold clamp
    rw [if_neg (by omega), if_neg (by omega)]
  · show clamp (0 + 0) 0 (s.columns - 1) = 0
    rw [hcolumns]
    rfl

private theorem tall_downs (n : Nat) {k : Int} (h : Tall k s) (hk : 0 ≤ k)
    (hfits : k + n * 999999 ≤ 2147483646) :
    ∃ t, (List.replicate n down).foldlM call s = .ok t ∧
      Tall (k + n * 999999) t := by
  induction n generalizing k s with
  | zero => exact ⟨s, rfl, by simpa using h⟩
  | succ n ih =>
      obtain ⟨t, ht, htall⟩ := tall_down h hk (by omega)
      obtain ⟨u, hu, hutall⟩ := ih htall (by omega) (by omega)
      refine ⟨u, ?_, ?_⟩
      · rw [List.replicate_succ, List.foldlM_cons, ht, ok_bind, hu]
      · have hsum : k + (n + 1 : Nat) * 999999 = k + 999999 + n * 999999 := by
          omega
        rw [hsum]
        exact hutall

/-- A screen of a new size has that size, and its cursor where it fits. -/
private theorem resize_new {newRows newColumns : Int}
    (h : s.resize newRows newColumns = .ok t)
    (hpos : ¬(newRows ≤ 0 ∨ newColumns ≤ 0))
    (hnew : ¬(newRows = s.rows ∧ newColumns = s.columns)) :
    t.parser = s.parser ∧ t.rows = newRows ∧ t.columns = newColumns ∧
      t.cursorRow = clamp s.cursorRow 0 (newRows - 1) ∧
      t.cursorColumn = clamp s.cursorColumn 0 (newColumns - 1) := by
  unfold resize at h
  rw [if_neg hpos, if_neg hnew] at h
  obtain ⟨size, -, hsize⟩ := bind_ok h
  obtain ⟨cells, -, hcells⟩ := bind_ok hsize
  cases hcells
  exact ⟨rfl, rfl, rfl, rfl, rfl⟩

private theorem resize_tall :
    ∃ t, ({} : TerminalScreen).call (.resize 2147483647 1) = .ok t ∧
      Tall 0 t := by
  obtain ⟨t, ht, -⟩ := resize_safe inGrid_fresh
    (fun _ _ => by decide : 0 < (2147483647 : Int) → 0 < (1 : Int) → _)
  obtain ⟨hparser, hrows, hcolumns, hrow, hcolumn⟩ :=
    resize_new ht (by decide) (by decide)
  exact ⟨t, ht, congrArg Vt100Parser.state hparser, hrows, hcolumns, hrow,
    hcolumn⟩

private theorem down_overflow {k : Int} (h : Tall k s) (hk : 2146483649 ≤ k) :
    s.call down = .error .overflow := by
  rw [call_down h.state, moveCursor]
  refine bind_error (bind_error (int32_overflow ?_))
  have hrow := h.row
  have hmax : intMax = 2147483647 := rfl
  show intMax < s.cursorRow + 999999
  omega

/-- The cursor comes within a parameter of the largest `int`, and the next
move down overflows. -/
theorem grid_kept_tall :
    ¬∀ calls : List Call, (∀ c ∈ calls, Fits c) →
      Safe (calls.foldlM call {}) InGrid := by
  intro h
  have hrun := h (.resize 2147483647 1 ::
    (List.replicate 2147 down ++ [down])) ?_
  · obtain ⟨s, hs, hs₀⟩ := resize_tall
    obtain ⟨t, ht, htall⟩ := tall_downs 2147 hs₀ (by decide) (by decide)
    rw [List.foldlM_cons, hs, ok_bind, List.foldlM_append, ht, ok_bind,
      List.foldlM_cons, down_overflow htall (by decide)] at hrun
    obtain ⟨u, hu, -⟩ := hrun
    cases hu
  · intro c hc
    rcases List.mem_cons.mp hc with rfl | hc
    · intro _ _
      decide
    · rcases List.mem_append.mp hc with hc | hc
      · rw [List.eq_of_mem_replicate hc]
        trivial
      · rw [List.mem_singleton.mp hc]
        trivial

end TerminalScreen

end QuMesh.Terminal
