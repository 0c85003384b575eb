import QuMesh.Lib.Utf8
import QuMesh.Terminal.Screen

/-!
# `Vt100Parser`

The parser of a serial session's bytes. It holds a sequence while that comes
in, and drives the screen it is a part of. A parameter is an `int` that was
read off decimal digits, and every sum and product on the way from the digits
to the screen goes through `int32`.
-/

namespace QuMesh.Terminal

open QuMesh.Lib

/-- `kCsiMaxBytes` -/
def csiMaxBytes : Nat := 4096

def isCsiFinal (b : UInt8) : Bool := 0x40 ≤ b && b ≤ 0x7E

/-! ## Parameters -/

/-- The loop over the body; `n` is negative where no digit has come yet. -/
def parseParamsLoop : Bytes → Int → List Int → Except Fault (List Int × Int)
  | [], n, out => .ok (out, n)
  | b :: body, n, out =>
      if b = 0x3B then parseParamsLoop body (-1) (out ++ [if n < 0 then 0 else n])
      else if 0x30 ≤ b ∧ b ≤ 0x39 then
        let n := if n < 0 then 0 else n
        -- digits beyond any plausible value are dropped
        if n ≥ 100000 then parseParamsLoop body n out
        else do
          let tens ← int32 (n * 10)
          parseParamsLoop body (← int32 (tens + (b.toNat - 0x30))) out
      else .ok (out, n)

/-- Its callers do not ask where the parameters end. -/
def parseParams (body : Bytes) : Except Fault (List Int) := do
  let (out, n) ← parseParamsLoop body (-1) []
  return out ++ [if n < 0 then 0 else n]

/-- `handleCsi`, `p`: a parameter, where it is there and not zero. -/
def param (params : List Int) (idx : Nat) (defaultVal : Int) : Int :=
  match params[idx]? with
  | some v => if v > 0 then v else defaultVal
  | none => defaultVal

/-! ## Colors -/

/-- The anchor of the color cube that is closest to an intensity. -/
def cubeStep (v : Int) : Except Fault Int :=
  if v < 48 then .ok 0
  else if v < 115 then .ok 1
  else do
    let offset ← int32 (v - 35)
    return offset.tdiv 40

def quantizeRgbTo256 (r g b : Int) : Except Fault UInt8 := do
  let ri := clamp (← cubeStep r) 0 5
  let gi := clamp (← cubeStep g) 0 5
  let bi := clamp (← cubeStep b) 0 5
  let idx ← int32 (16 + 36 * ri + 6 * gi + bi)
  return UInt8.ofNat idx.toNat

/-- What stands behind a `38` or a `48`: the color, where there is one, and
the parameters the loop goes on with. -/
def consumeExtendedColor : List Int → Except Fault (Option UInt8 × List Int)
  | [] => .ok (none, [])
  | mode :: rest =>
      if mode = 5 then
        match rest with
        | idx :: rest => .ok (some (UInt8.ofNat (clamp idx 0 255).toNat), rest)
        | [] => .ok (none, [])
      else if mode = 2 then
        match rest with
        | r :: g :: b :: rest => do
            let idx ← quantizeRgbTo256 r g b
            return (some idx, rest)
        | _ => .ok (none, [])
      else .ok (none, rest)

namespace TerminalScreen

/-- The codes that take no further parameters. -/
def handleSgrCode (code : Int) (s : TerminalScreen) : TerminalScreen :=
  if code = 0 then s.resetAttributes
  else if code = 1 then s.setAttr attrBold true
  else if code = 4 then s.setAttr attrUnderline true
  else if code = 7 then s.setAttr attrReverse true
  else if code = 22 then s.setAttr attrBold false
  else if code = 24 then s.setAttr attrUnderline false
  else if code = 27 then s.setAttr attrReverse false
  else if 30 ≤ code ∧ code ≤ 37 then s.setFg (UInt8.ofNat (code - 30).toNat)
  else if code = 39 then s.setFg 0xFF
  else if 40 ≤ code ∧ code ≤ 47 then s.setBg (UInt8.ofNat (code - 40).toNat)
  else if code = 49 then s.setBg 0xFF
  else if 90 ≤ code ∧ code ≤ 97 then s.setFg (UInt8.ofNat (code - 90 + 8).toNat)
  else if 100 ≤ code ∧ code ≤ 107 then
    s.setBg (UInt8.ofNat (code - 100 + 8).toNat)
  else s

/-- The loop over the parameters. A color takes some of them along, so their
number is fuel enough. -/
def handleSgrLoop : Nat → List Int → TerminalScreen →
    Except Fault TerminalScreen
  | 0, _, s => .ok s
  | _ + 1, [], s => .ok s
  | fuel + 1, code :: params, s =>
      if code = 38 then do
        let (idx, params) ← consumeExtendedColor params
        handleSgrLoop fuel params (idx.elim s (setFg · s))
      else if code = 48 then do
        let (idx, params) ← consumeExtendedColor params
        handleSgrLoop fuel params (idx.elim s (setBg · s))
      else handleSgrLoop fuel params (s.handleSgrCode code)

def handleSgr (params : List Int) (s : TerminalScreen) :
    Except Fault TerminalScreen :=
  if params = [] then .ok s.resetAttributes
  else handleSgrLoop params.length params s

/-- `QByteArray::number` -/
def decimal (n : Int) : Bytes :=
  (toString n).toUTF8.data.toList

/-- The reply of a size query. -/
def sizeReply (kind rows cols : Int) : Bytes :=
  [0x1B, 0x5B] ++ decimal kind ++ [0x3B] ++ decimal rows ++ [0x3B] ++
    decimal cols ++ [0x74]

def handleWindowOps (params : List Int) (s : TerminalScreen) :
    Except Fault TerminalScreen :=
  let op := params.getD 0 0
  if op = 14 then do
    let height ← int32 (s.rows * 16)
    let width ← int32 (s.columns * 8)
    return s.emitResponse (sizeReply 4 height width)
  else if op = 18 then .ok (s.emitResponse (sizeReply 8 s.rows s.columns))
  else if op = 19 then .ok (s.emitResponse (sizeReply 9 s.rows s.columns))
  else .ok s

/-! ## Sequences -/

/-- The switch of `handleCsi`. -/
def handleFinal (final : UInt8) (params : List Int) (s : TerminalScreen) :
    Except Fault TerminalScreen :=
  let p := param params
  match Char.ofNat final.toNat with
  | 'A' => s.moveCursor (-p 0 1) 0
  | 'B' => s.moveCursor (p 0 1) 0
  | 'C' => s.moveCursor 0 (p 0 1)
  | 'D' => s.moveCursor 0 (-p 0 1)
  | 'E' => do return s.setCursor (← int32 (s.cursorRow + p 0 1)) 0
  | 'F' => do return s.setCursor (← int32 (s.cursorRow - p 0 1)) 0
  | 'G' => do return s.setCursor s.cursorRow (← int32 (p 0 1 - 1))
  | 'H' | 'f' => do
      let row ← int32 (p 0 1 - 1)
      return s.setCursor row (← int32 (p 1 1 - 1))
  | 'J' => s.eraseInDisplay (params.getD 0 0)
  | 'K' => s.eraseInLine (params.getD 0 0)
  | 'm' => s.handleSgr params
  | 's' => .ok s.saveCursor
  | 't' => s.handleWindowOps params
  | 'u' => .ok s.restoreCursor
  | _ => .ok s

def handleCsi (s : TerminalScreen) : Except Fault TerminalScreen :=
  match s.parser.seq.getLast? with
  | none => .ok s
  | some final => do
      let params ← parseParams s.parser.seq.dropLast
      if s.parser.csiPrivate then .ok s else s.handleFinal final params

def handleC0 (b : UInt8) (s : TerminalScreen) : Except Fault TerminalScreen :=
  if b = 0x07 then .ok (s.emit .bell)
  else if b = 0x08 then .ok s.backspace
  else if b = 0x09 then s.tab
  else if b = 0x0A ∨ b = 0x0B ∨ b = 0x0C then s.lineFeed
  else if b = 0x0D then .ok s.carriageReturn
  else .ok s

def withParser (parser : Vt100Parser) (s : TerminalScreen) : TerminalScreen :=
  { s with parser }

/-- Back to the ground, with no sequence held. -/
def toGround (s : TerminalScreen) : TerminalScreen :=
  s.withParser { s.parser with state := .ground }

def dropSeq (s : TerminalScreen) : TerminalScreen :=
  s.withParser { s.parser with seq := [], csiPrivate := false, state := .ground }

end TerminalScreen

/-- The text of a byte that completes a sequence, and of one that begins
none. -/
def Vt100Parser.consumeUtf8 (b : UInt8) (p : Vt100Parser) :
    List UInt16 × Vt100Parser :=
  let question : List UInt16 := [0x3F]
  if p.utf8Remaining = 0 then
    if b &&& 0xE0 = 0xC0 then ([], { p with utf8 := [b], utf8Remaining := 1 })
    else if b &&& 0xF0 = 0xE0 then
      ([], { p with utf8 := [b], utf8Remaining := 2 })
    else if b &&& 0xF8 = 0xF0 then
      ([], { p with utf8 := [b], utf8Remaining := 3 })
    else (question, p)
  else
    let utf8 := p.utf8 ++ [b]
    let remaining := p.utf8Remaining - 1
    if remaining = 0 then
      let s := utf16 (fromUtf8 utf8)
      (if s = [] then question else s, { p with utf8 := [], utf8Remaining := 0 })
    else ([], { p with utf8, utf8Remaining := remaining })

namespace TerminalScreen

/-- One byte of `feed`. -/
def feedByte (s : TerminalScreen) (b : UInt8) : Except Fault TerminalScreen :=
  let p := s.parser
  match p.state with
  | .ground =>
      if b = 0x1B then
        .ok (s.withParser { p with state := .escape, seq := [], csiPrivate := false })
      else if b < 0x20 then s.handleC0 b
      else if b < 0x80 then s.putCellAtCursor [b.toUInt16]
      else
        let (text, p) := p.consumeUtf8 b
        (s.withParser p).putCellAtCursor text
  | .escape =>
      if b = 0x5B then .ok (s.withParser { p with state := .csi })
      else if b = 0x5D then .ok (s.withParser { p with state := .osc })
      else if b = 0x63 then .ok s.clear.toGround
      else if b = 0x37 then .ok s.saveCursor.toGround
      else if b = 0x38 then .ok s.restoreCursor.toGround
      else .ok s.toGround
  | .csi =>
      if p.seq = [] ∧ b = 0x3F then
        .ok (s.withParser { p with csiPrivate := true })
      else if p.seq.length ≥ csiMaxBytes then .ok s.dropSeq
      else
        let s := s.withParser { p with seq := p.seq ++ [b] }
        if isCsiFinal b then do
          let s ← s.handleCsi
          return s.dropSeq
        else .ok s
  | .osc =>
      if b = 0x07 then .ok s.toGround
      else if b = 0x1B then .ok (s.withParser { p with state := .escape })
      else .ok s

def feed (bytes : Bytes) (s : TerminalScreen) : Except Fault TerminalScreen := do
  let s ← bytes.foldlM feedByte s
  return s.touch

end TerminalScreen

/-- What the session and the panel call. -/
inductive Call where
  | feed (bytes : Bytes)
  | resize (newRows newColumns : Int)
  | clear
  deriving DecidableEq, Repr

def TerminalScreen.call (s : TerminalScreen) :
    Call → Except Fault TerminalScreen
  | .feed bytes => s.feed bytes
  | .resize newRows newColumns => s.resize newRows newColumns
  | .clear => .ok s.clear

end QuMesh.Terminal
