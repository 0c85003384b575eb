import QuMesh.Lib.Bytes
import QuMesh.Lib.Checked

/-!
# `TerminalScreen`

The character grid a serial session is shown on, and the operations the parser
drives it by. An `int` is an `Int` that every sum and product goes through
`int32` for, and a cell is found by its index in the row-major array, so an
operation stops with a fault where the source would overflow or leave the
array. A `QChar` is a UTF-16 code unit.
-/

namespace QuMesh.Terminal

open QuMesh.Lib

/-! ## Cells -/

/-- `AttrBold`, `AttrUnderline`, `AttrReverse` -/
def attrBold : UInt8 := 0x01
def attrUnderline : UInt8 := 0x02
def attrReverse : UInt8 := 0x04

structure Cell where
  ch : UInt16 := 0x20
  lowSurrogate : UInt16 := 0
  fg : UInt8 := 0xFF
  bg : UInt8 := 0xFF
  attrs : UInt8 := 0
  deriving DecidableEq, Repr

def isHighSurrogate (c : UInt16) : Bool := 0xD800 ≤ c && c < 0xDC00

def isLowSurrogate (c : UInt16) : Bool := 0xDC00 ≤ c && c < 0xE000

/-! ## The parser's own state -/

inductive ParserState where
  | ground
  | escape
  | csi
  | osc
  deriving DecidableEq, Repr

structure Vt100Parser where
  state : ParserState := .ground
  seq : Bytes := []
  utf8 : Bytes := []
  utf8Remaining : Nat := 0
  csiPrivate : Bool := false
  deriving DecidableEq, Repr

/-! ## The screen -/

inductive Signal where
  | geometryChanged
  | cursorMoved
  | screenUpdated
  | bell
  | respond (bytes : Bytes)
  deriving DecidableEq, Repr

structure TerminalScreen where
  rows : Int := 24
  columns : Int := 80
  cursorRow : Int := 0
  cursorColumn : Int := 0
  savedRow : Int := 0
  savedColumn : Int := 0
  pen : Cell := {}
  cells : Array Cell := Array.replicate 1920 {}
  parser : Vt100Parser := {}
  out : List Signal := []
  deriving DecidableEq, Repr

/-- `std::clamp` -/
def clamp (v lo hi : Int) : Int := if v < lo then lo else if hi < v then hi else v

/-- `row * columns + column` -/
def cellIndex (columns row column : Int) : Except Fault Int := do
  int32 ((← int32 (row * columns)) + column)

namespace TerminalScreen

def emit (e : Signal) (s : TerminalScreen) : TerminalScreen :=
  { s with out := s.out ++ [e] }

def touch (s : TerminalScreen) : TerminalScreen := s.emit .screenUpdated

def withCursor (row column : Int) (s : TerminalScreen) : TerminalScreen :=
  { s with cursorRow := row, cursorColumn := column }

/-- An assignment through `cellMut`. -/
def setCell (row column : Int) (cell : Cell) (s : TerminalScreen) :
    Except Fault TerminalScreen := do
  let cells ← writeAt s.cells (← cellIndex s.columns row column) cell
  return { s with cells }

def resize (newRows newColumns : Int) (s : TerminalScreen) :
    Except Fault TerminalScreen := do
  if newRows ≤ 0 ∨ newColumns ≤ 0 then return s
  if newRows = s.rows ∧ newColumns = s.columns then return s
  let size ← int32 (newRows * newColumns)
  let next : Array Cell := Array.replicate size.toNat {}
  let copyRows := min s.rows newRows
  let copyCols := min s.columns newColumns
  let cells ← forRange 0 copyRows (fun r next =>
    forRange 0 copyCols (fun c next => do
      let cell ← readAt s.cells (← cellIndex s.columns r c)
      writeAt next (← cellIndex newColumns r c) cell) next) next
  let s := { s with rows := newRows, columns := newColumns, cells }
  let s := s.withCursor (clamp s.cursorRow 0 (newRows - 1))
    (clamp s.cursorColumn 0 (newColumns - 1))
  return ((s.emit .geometryChanged).emit .cursorMoved).touch

def clear (s : TerminalScreen) : TerminalScreen :=
  let s := { s with cells := s.cells.map fun _ => {}, pen := {} }
  ((s.withCursor 0 0).emit .cursorMoved).touch

/-! ## What the parser calls -/

def putCellAtCursor (fragment : List UInt16) (s : TerminalScreen) :
    Except Fault TerminalScreen :=
  match fragment with
  | [] => .ok s
  | first :: rest => do
      -- stay on the last column until an explicit move
      let column :=
        if s.cursorColumn ≥ s.columns then s.columns - 1 else s.cursorColumn
      let low :=
        match rest with
        | second :: _ =>
            if isHighSurrogate first && isLowSurrogate second then second else 0
        | [] => 0
      let s ← s.setCell s.cursorRow column
        { s.pen with ch := first, lowSurrogate := low }
      -- one past the last column says that the next write is to be clamped
      let column := if column < s.columns - 1 then column + 1 else s.columns
      return (s.withCursor s.cursorRow column).emit .cursorMoved

def setCursor (row column : Int) (s : TerminalScreen) : TerminalScreen :=
  (s.withCursor (clamp row 0 (s.rows - 1))
    (clamp column 0 (s.columns - 1))).emit .cursorMoved

def moveCursor (rowDelta columnDelta : Int) (s : TerminalScreen) :
    Except Fault TerminalScreen := do
  let row ← int32 (s.cursorRow + rowDelta)
  let column ← int32 (s.cursorColumn + columnDelta)
  return s.setCursor row column

def carriageReturn (s : TerminalScreen) : TerminalScreen :=
  (s.withCursor s.cursorRow 0).emit .cursorMoved

/-- `cellMut(row, c) = Cell{}` for the columns of a range. -/
def clearCells (row lo hi : Int) (s : TerminalScreen) :
    Except Fault TerminalScreen :=
  forRange lo hi (fun c s => s.setCell row c {}) s

def scrollUp (s : TerminalScreen) : Except Fault TerminalScreen := do
  let s ← forRange 0 (s.rows - 1) (fun r s =>
    forRange 0 s.columns (fun c s => do
      let below ← int32 (r + 1)
      let cell ← readAt s.cells (← cellIndex s.columns below c)
      s.setCell r c cell) s) s
  s.clearCells (s.rows - 1) 0 s.columns

def lineFeed (s : TerminalScreen) : Except Fault TerminalScreen := do
  let next ← int32 (s.cursorRow + 1)
  if next ≥ s.rows then
    let s ← s.scrollUp
    return s.emit .cursorMoved
  else return (s.withCursor next s.cursorColumn).emit .cursorMoved

def backspace (s : TerminalScreen) : TerminalScreen :=
  if s.cursorColumn > 0 then
    (s.withCursor s.cursorRow (s.cursorColumn - 1)).emit .cursorMoved
  else s

def tab (s : TerminalScreen) : Except Fault TerminalScreen := do
  -- 8-column stops
  let next ← int32 ((s.cursorColumn / 8 + 1) * 8)
  let next := if next ≥ s.columns then s.columns - 1 else next
  return (s.withCursor s.cursorRow next).emit .cursorMoved

def eraseInLine (mode : Int) (s : TerminalScreen) :
    Except Fault TerminalScreen :=
  if mode = 0 then s.clearCells s.cursorRow s.cursorColumn s.columns
  else if mode = 1 then
    -- while c <= cursorColumn && c < columns
    s.clearCells s.cursorRow 0 (min (s.cursorColumn + 1) s.columns)
  else if mode = 2 then s.clearCells s.cursorRow 0 s.columns
  else .ok s

/-- `clearRow`, for the rows of a range. -/
def clearRows (lo hi : Int) (s : TerminalScreen) :
    Except Fault TerminalScreen :=
  forRange lo hi (fun r s => s.clearCells r 0 s.columns) s

def eraseInDisplay (mode : Int) (s : TerminalScreen) :
    Except Fault TerminalScreen :=
  if mode = 0 then do
    let s ← s.clearCells s.cursorRow s.cursorColumn s.columns
    s.clearRows (← int32 (s.cursorRow + 1)) s.rows
  else if mode = 1 then do
    let s ← s.clearRows 0 s.cursorRow
    s.clearCells s.cursorRow 0 (min (s.cursorColumn + 1) s.columns)
  else s.clearRows 0 s.rows

def resetAttributes (s : TerminalScreen) : TerminalScreen :=
  { s with pen := {} }

def setFg (idx : UInt8) (s : TerminalScreen) : TerminalScreen :=
  { s with pen := { s.pen with fg := idx } }

def setBg (idx : UInt8) (s : TerminalScreen) : TerminalScreen :=
  { s with pen := { s.pen with bg := idx } }

def setAttr (bit : UInt8) (on : Bool) (s : TerminalScreen) : TerminalScreen :=
  let attrs := if on then s.pen.attrs ||| bit else s.pen.attrs &&& ~~~bit
  { s with pen := { s.pen with attrs } }

def saveCursor (s : TerminalScreen) : TerminalScreen :=
  { s with savedRow := s.cursorRow, savedColumn := s.cursorColumn }

def restoreCursor (s : TerminalScreen) : TerminalScreen :=
  s.setCursor s.savedRow s.savedColumn

def emitResponse (bytes : Bytes) (s : TerminalScreen) : TerminalScreen :=
  if bytes = [] then s else s.emit (.respond bytes)

end TerminalScreen

end QuMesh.Terminal
