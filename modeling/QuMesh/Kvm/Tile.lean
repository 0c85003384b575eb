import QuMesh.Kvm.Codec

/-!
# What an honest server puts into an RLE block

The grammar of a tile body: the five forms `decodeRleInner` knows, as syntax,
with the bytes of each and the pixels it stands for. A pixel is what travels,
16 bits or 8. The bytes of a run are those of its length less one, 255 as long
as there is more; a packed row is one byte of indices, the first in the high
bits, and the last one may hold a few more than there are pixels.
-/

namespace QuMesh.Kvm

open QuMesh.Lib

/-- A pixel on the wire. -/
abbrev Wire : PixelFormat → Type
  | .rgb565 => UInt16
  | .rgb332 => UInt8

def wireBytes : (f : PixelFormat) → Wire f → Bytes
  | .rgb565, v => pack16Le (UInt16.toNat v)
  | .rgb332, v => [v]

def wireArgb : (f : PixelFormat) → Wire f → UInt32
  | .rgb565, v => rgb565ToArgb v
  | .rgb332, v => rgb332ToArgb v

/-- The bytes of a run of `extra + 1` pixels. -/
def runLength (extra : Nat) : Bytes :=
  List.replicate (extra / 255) 0xFF ++ [UInt8.ofNat (extra % 255)]

/-- A row of indices in one byte. -/
def packByte (br : Nat) (row : List Nat) : UInt8 :=
  UInt8.ofNat (row.foldl (fun v i => v * 2 ^ br + i) 0)

/-- An entry of the palette, for one pixel or for a run. -/
structure PaletteRun where
  index : Nat
  extra : Option Nat
  deriving DecidableEq, Repr

namespace PaletteRun

def bytes (r : PaletteRun) : Bytes :=
  match r.extra with
  | none => [UInt8.ofNat r.index]
  | some extra => UInt8.ofNat (r.index + 128) :: runLength extra

/-- How many pixels it paints. -/
def count (r : PaletteRun) : Nat := r.extra.getD 0 + 1

end PaletteRun

inductive Tile (f : PixelFormat)
  /-- Subencoding 0: every pixel. -/
  | raw (pixels : List (Wire f))
  /-- Subencoding 1: one pixel for all. -/
  | solid (pixel : Wire f)
  /-- Subencodings 2 to 16: a palette and packed indices. -/
  | packed (palette : List (Wire f)) (rows : List (List Nat))
  /-- Subencoding 128: runs of a pixel. -/
  | runs (rs : List (Wire f × Nat))
  /-- Subencodings from 130 on: a palette and runs of its entries. -/
  | paletteRuns (palette : List (Wire f)) (rs : List PaletteRun)

namespace Tile

variable {f : PixelFormat}

def subencoding : Tile f → Nat
  | .raw _ => 0
  | .solid _ => 1
  | .packed palette _ => palette.length
  | .runs _ => 128
  | .paletteRuns palette _ => palette.length + 128

/-- The body after its subencoding byte. -/
def inner : Tile f → Bytes
  | .raw pixels => pixels.flatMap (wireBytes f)
  | .solid pixel => wireBytes f pixel
  | .packed palette rows =>
      palette.flatMap (wireBytes f) ++
        rows.map (packByte (packedBits palette.length))
  | .runs rs => rs.flatMap fun r => wireBytes f r.1 ++ runLength r.2
  | .paletteRuns palette rs =>
      palette.flatMap (wireBytes f) ++ rs.flatMap PaletteRun.bytes

def bytes (t : Tile f) : Bytes := UInt8.ofNat t.subencoding :: t.inner

/-- The body is well formed and stands for these pixels. -/
def Encodes (px : List (Wire f)) : Tile f → Prop
  | .raw pixels => pixels = px
  | .solid pixel => px = List.replicate px.length pixel
  | .packed palette rows =>
      (2 ≤ palette.length ∧ palette.length ≤ 16) ∧
      (∀ row ∈ rows, row.length = 8 / packedBits palette.length ∧
        ∀ i ∈ row, i < 2 ^ packedBits palette.length) ∧
      rows.flatten.length < px.length + 8 / packedBits palette.length ∧
      (rows.flatten.take px.length).map (palette[·]?) = px.map some
  | .runs rs => px = rs.flatMap fun r => List.replicate (r.2 + 1) r.1
  | .paletteRuns palette rs =>
      (2 ≤ palette.length ∧ palette.length ≤ 127) ∧
      rs.flatMap (fun r => List.replicate r.count palette[r.index]?) =
        px.map some

end Tile

/-- A body behind the marker: a stored block's header, with a length of 16
bits. -/
def markerBlock (a b : UInt8) (body : Bytes) : Bytes :=
  0 :: pack16Le body.length ++ a :: b :: body

section

variable {z : Zlib}

/-- A block whose body reaches the tile decoder: behind the marker, or from
the inflate stream. In the second case the block must not look like the first,
and must keep to the ceiling that a length is checked against. -/
inductive Framed (f : PixelFormat) (rect : RectHeader) (body : Bytes) :
    Option (InflateStream z) → Bytes → Option (InflateStream z) → Prop
  | marker (a b : UInt8) (stream : Option (InflateStream z)) :
      Framed f rect body stream (markerBlock a b body) stream
  | inflated {stream stream' : InflateStream z} {block : Bytes}
      (yields : stream.inflate block = (stream', some body))
      (plain : uncompressedMarker block = false) (some_bytes : block ≠ [])
      (within : block.length ≤ maxBlock f rect) :
      Framed f rect body (some stream) block (some stream')

end

end QuMesh.Kvm
