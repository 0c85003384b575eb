import QuMesh.Terminal.Screen

/-!
# `lineHtml`

A row of the screen as rich text. Cells that look the same are put under one
`span`, and a cell's text is escaped. The space that is set aside for the result
in advance is left out.
-/

namespace QuMesh.Terminal

open QuMesh.Lib

/-- A literal of the source: the code units of its characters. -/
def units (s : String) : List UInt16 :=
  s.toList.map fun c => UInt16.ofNat c.toNat

/-! ## Colors -/

/-- `kBase` -/
def paletteBase : List String :=
  ["#0E0F12", "#E25555", "#5EE08A", "#E0C46C",
    "#5BB1F0", "#C58CF0", "#5EE0D8", "#C8CBD1",
    "#3A3D45", "#FF7878", "#7CF4A8", "#FFD888",
    "#7DC8FF", "#D9A8FF", "#7CFFF4", "#FFFFFF"]

/-- `kSteps` -/
def paletteSteps : List Nat := [0, 95, 135, 175, 215, 255]

/-- `%02X` -/
def hexDigits (v : Nat) : List Char :=
  [v / 16, v % 16].map fun n => (Nat.digitChar n).toUpper

/-- `"#%02X%02X%02X"` -/
def hexColor (r g b : Nat) : String :=
  String.ofList ('#' :: (hexDigits r ++ hexDigits g ++ hexDigits b))

/-- `palette().entries`: the base colors, the cube, and the ramp of grays. -/
def paletteEntry (idx : UInt8) : String :=
  let i := idx.toNat
  if i < 16 then paletteBase.getD i ""
  else if i < 232 then
    let step (n : Nat) : Nat := paletteSteps.getD n 0
    hexColor (step ((i - 16) / 36)) (step ((i - 16) / 6 % 6))
      (step ((i - 16) % 6))
  else
    let v := 8 + (i - 232) * 10
    hexColor v v v

/-! ## Cells -/

def escapeHtml (cell : Cell) : List UInt16 :=
  if cell.lowSurrogate ≠ 0 then [cell.ch, cell.lowSurrogate]
  else if cell.ch = 0x3C then units "&lt;"
  else if cell.ch = 0x3E then units "&gt;"
  else if cell.ch = 0x26 then units "&amp;"
  else if cell.ch = 0x20 then units "&nbsp;"
  else [cell.ch]

/-- The style of a run, which is that of its first cell. -/
def Cell.styles (c0 : Cell) : List UInt16 :=
  let reverse := c0.attrs &&& attrReverse ≠ 0
  let fgIdx := if reverse then c0.bg else c0.fg
  let bgIdx := if reverse then c0.fg else c0.bg
  (if fgIdx ≠ 0xFF then
      units "color:" ++ units (paletteEntry fgIdx) ++ units ";" else []) ++
    (if bgIdx ≠ 0xFF then
      units "background-color:" ++ units (paletteEntry bgIdx) ++ units ";"
      else []) ++
    (if c0.attrs &&& attrBold ≠ 0 then units "font-weight:bold;" else []) ++
    if c0.attrs &&& attrUnderline ≠ 0 then units "text-decoration:underline;"
    else []

namespace TerminalScreen

def cellAt (s : TerminalScreen) (row column : Int) : Except Fault Cell := do
  readAt s.cells (← cellIndex s.columns row column)

def flushRun (s : TerminalScreen) (row runStart endExclusive : Int)
    (out : List UInt16) : Except Fault (List UInt16) := do
  if endExclusive ≤ runStart then return out
  let c0 ← s.cellAt row runStart
  let styles := c0.styles
  let out :=
    if styles ≠ [] then out ++ units "<span style=\"" ++ styles ++ units "\">"
    else out
  let out ← forRange runStart endExclusive (fun i out => do
    return out ++ escapeHtml (← s.cellAt row i)) out
  return if styles ≠ [] then out ++ units "</span>" else out

def sameRun (s : TerminalScreen) (row a b : Int) : Except Fault Bool := do
  let x ← s.cellAt row a
  let y ← s.cellAt row b
  return x.fg = y.fg && x.bg = y.bg && x.attrs = y.attrs

/-- One round of the loop over the row: the run that is open, and the text. -/
def lineRound (s : TerminalScreen) (row i : Int) (run : Int × List UInt16) :
    Except Fault (Int × List UInt16) := do
  if ← s.sameRun row run.1 i then return run
  else return (i, ← s.flushRun row run.1 i run.2)

def lineHtml (s : TerminalScreen) (row : Int) : Except Fault (List UInt16) := do
  if row < 0 ∨ row ≥ s.rows then return []
  let (runStart, out) ← forRange 1 s.columns (s.lineRound row) (0, [])
  s.flushRun row runStart s.columns out

end TerminalScreen

end QuMesh.Terminal
