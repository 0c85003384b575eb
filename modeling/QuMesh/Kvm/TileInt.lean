import QuMesh.Kvm.Codec
import QuMesh.Lib.Checked

/-!
# The tile body with its `int`s and its vectors

`decodeRleInner` as it computes: the index of a pixel and the length of a run
are `int`s, and the pixels and the palette are vectors that are indexed without
a check. A sum that does not fit is a fault here, and so is an index outside of
a vector. The decoder returns its verdict, and the tile as far as it is painted.
`positions` is not in the code: the values the index has had.
-/

namespace QuMesh.Kvm

open QuMesh.Lib

structure Canvas where
  argb : Array UInt32
  i : Int := 0
  positions : List Int := [0]
  deriving Repr

namespace Canvas

def moveTo (i : Int) (t : Canvas) : Canvas :=
  { t with i, positions := t.positions ++ [i] }

/-- `(*argb)[i++] = c` -/
def paintOne (c : UInt32) (t : Canvas) : Except Fault Canvas := do
  let argb ← writeAt t.argb t.i c
  return { t with argb }.moveTo (← int32 (t.i + 1))

/-- The pixels of a run, and `i += run`. -/
def paintRun (c : UInt32) (run : Int) (t : Canvas) : Except Fault Canvas := do
  let argb ← forRange 0 run
    (fun k argb => do writeAt argb (← int32 (t.i + k)) c) t.argb
  return { t with argb }.moveTo (← int32 (t.i + run))

end Canvas

/-- What the run loops leave: the length, and the data behind it. -/
def readRunInt : Int → Bytes → Except Fault (Option (Int × Bytes))
  | _, [] => .ok none
  | run, delta :: rest => do
      let run ← int32 (run + delta.toNat)
      if delta = 0xFF then readRunInt run rest else return some (run, rest)

/-- `if (i + run > s) run = s - i` -/
def clipRun (s i run : Int) : Except Fault Int := do
  if (← int32 (i + run)) > s then int32 (s - i) else return run

/-- Subencoding 0. -/
def paintRaw (format : PixelFormat) : Nat → Bytes → Canvas →
    Except Fault (Bool × Canvas)
  | 0, _, t => .ok (true, t)
  | n + 1, data, t =>
      match pullPixel format data with
      | none => .ok (false, t)
      | some (c, rest) => do paintRaw format n rest (← t.paintOne c)

/-- The indices of one byte, as long as there are pixels left. -/
def paintIndices (palette : Array UInt32) (s : Int) : List Nat → Canvas →
    Except Fault Canvas
  | [], t => .ok t
  | index :: row, t =>
      if t.i < s then do
        let c ← readAt palette index
        paintIndices palette s row (← t.paintOne c)
      else .ok t

def paintPacked (br : Nat) (palette : Array UInt32) (s : Int) : Bytes → Canvas →
    Except Fault Canvas
  | [], t => .ok t
  | v :: rest, t =>
      if t.i < s then do
        paintPacked br palette s rest
          (← paintIndices palette s (unpackByte br v) t)
      else .ok t

/-- Subencoding 128. A round paints one pixel at least, so as many rounds as
there are pixels are enough. -/
def paintRuns (format : PixelFormat) (s : Int) : Nat → Bytes → Canvas →
    Except Fault (Bool × Canvas)
  | 0, _, t => .ok (decide (s ≤ t.i), t)
  | rounds + 1, data, t =>
      if t.i < s then
        match pullPixel format data with
        | none => .ok (false, t)
        | some (c, rest) => do
            match ← readRunInt 1 rest with
            | none => return (false, t)
            | some (run, rest) =>
                let run ← clipRun s t.i run
                paintRuns format s rounds rest (← t.paintRun c run)
      else .ok (true, t)

/-- The run of an index, if its high bit says that there is one. -/
def readIndexRun (index : UInt8) (rest : Bytes) :
    Except Fault (Option (Int × Bytes)) :=
  if index &&& 0x80 = 0 then .ok (some (1, rest)) else readRunInt 1 rest

/-- Subencodings from 130 on. -/
def paintPaletteRuns (palette : Array UInt32) (s : Int) : Nat → Bytes → Canvas →
    Except Fault (Bool × Canvas)
  | 0, _, t => .ok (decide (s ≤ t.i), t)
  | _ + 1, [], t => .ok (decide (s ≤ t.i), t)
  | rounds + 1, index :: rest, t =>
      if t.i < s then
        if (index &&& 0x7F).toNat ≥ palette.size then .ok (false, t)
        else do
          let c ← readAt palette (index &&& 0x7F).toNat
          match ← readIndexRun index rest with
          | none => return (false, t)
          | some (run, rest) =>
              let run ← clipRun s t.i run
              paintPaletteRuns palette s rounds rest (← t.paintRun c run)
      else .ok (decide (s ≤ t.i), t)

/-- `decodeRleInner` -/
def decodeRleInnerInt (data : Bytes) (subenc : Nat) (rect : RectHeader)
    (format : PixelFormat) : Except Fault (Bool × Canvas) := do
  let s ← int32 (rect.w * rect.h)
  let t : Canvas := { argb := Array.replicate s.toNat 0 }
  if subenc = 0 then
    if (data.length : Int) < (← int32 (s * bytesPerPixel format)) then
      return (false, t)
    paintRaw format s.toNat data t
  else if subenc = 1 then
    match pullPixel format data with
    | none => return (false, t)
    | some (c, _) => return (true, ← t.paintRun c s)
  else if 2 ≤ subenc ∧ subenc ≤ 16 then
    match pullPixels format subenc data with
    | none => return (false, t)
    | some (palette, rest) =>
        let t ← paintPacked (packedBits subenc) palette.toArray s rest t
        return (decide (s ≤ t.i), t)
  else if subenc = 128 then paintRuns format s s.toNat data t
  else if subenc ≥ 130 then
    match pullPixels format (subenc - 128) data with
    | none => return (false, t)
    | some (palette, rest) =>
        paintPaletteRuns palette.toArray s s.toNat rest t
  else return (false, t)

end QuMesh.Kvm
