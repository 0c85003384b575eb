import QuMesh.Lib.Boxes

/-!
# `MjpegMovRecorder`

The Motion-JPEG recorder of `mjpeg_mov_recorder.cpp`: `start` writes `ftyp` and
the header of an `mdat` box of unknown size, `pushFrame` appends the JPEG of a
frame, and `stop` patches the size, builds `moov` in memory and writes it.

The file takes of a write as much as the environment says, up to nothing, and
says how much that was; what it took is in the file. Seeking does not fail.
Scaling, converting and encoding pictures is the environment's too.
-/

namespace QuMesh.App

open QuMesh.Lib

/-! ## The file -/

/-- A `QFile` that is open for reading and writing, or was. -/
structure MovFile where
  isOpen : Bool := false
  bytes : Bytes := []
  pos : Nat := 0
  /-- How many opens and writes there were. -/
  calls : Nat := 0
  deriving DecidableEq, Repr

/-- The surroundings: what the calls of a file come to, and the pictures. -/
structure MovEnv (Image : Type) where
  opens : Nat → Bool
  /-- How many bytes the `n`-th call takes; a write that fails takes none. -/
  takes : Nat → Bytes → Option Nat
  isNull : Image → Bool
  size : Image → Int × Int
  scaled : Int → Int → Image → Image
  isRgb888 : Image → Bool
  convertToRgb888 : Image → Image
  /-- `QImage::save` as JPEG, in a quality. -/
  saveJpeg : Int → Image → Option Bytes

namespace MovFile

variable {Image : Type} (env : MovEnv Image)

/-- Bytes put over those at the position, or behind them. -/
def overwrite (bytes : Bytes) (pos : Nat) (part : Bytes) : Bytes :=
  bytes.take pos ++ List.replicate (pos - bytes.length) 0 ++ part ++
    bytes.drop (pos + part.length)

/-- `open(ReadWrite | Truncate)` -/
def openTruncate (f : MovFile) : MovFile × Bool :=
  if env.opens f.calls then
    ({ isOpen := true, bytes := [], pos := 0, calls := f.calls + 1 }, true)
  else ({ f with calls := f.calls + 1 }, false)

def write (data : Bytes) (f : MovFile) : MovFile × Int :=
  match env.takes f.calls data with
  | none => ({ f with calls := f.calls + 1 }, -1)
  | some n =>
      let part := data.take n
      ({ f with bytes := overwrite f.bytes f.pos part,
                pos := f.pos + part.length,
                calls := f.calls + 1 }, part.length)

def seek (pos : Nat) (f : MovFile) : MovFile := { f with pos }

def close (f : MovFile) : MovFile := { f with isOpen := false }

def writeU32 (v : Nat) (f : MovFile) : MovFile := (f.write env (pack32Be v)).1

def patchU32At (offset v : Nat) (f : MovFile) : MovFile :=
  let here := f.pos
  ((f.seek offset).writeU32 env v).seek here

end MovFile

/-! ## Atoms -/

namespace Mov

def fourCC (a b c d : Char) : Bytes :=
  [a, b, c, d].map fun x => UInt8.ofNat x.toNat

def ftyp : Bytes := fourCC 'f' 't' 'y' 'p'
def mdat : Bytes := fourCC 'm' 'd' 'a' 't'
def moov : Bytes := fourCC 'm' 'o' 'o' 'v'
def mvhd : Bytes := fourCC 'm' 'v' 'h' 'd'
def trak : Bytes := fourCC 't' 'r' 'a' 'k'
def tkhd : Bytes := fourCC 't' 'k' 'h' 'd'
def mdia : Bytes := fourCC 'm' 'd' 'i' 'a'
def mdhd : Bytes := fourCC 'm' 'd' 'h' 'd'
def hdlr : Bytes := fourCC 'h' 'd' 'l' 'r'
def minf : Bytes := fourCC 'm' 'i' 'n' 'f'
def vmhd : Bytes := fourCC 'v' 'm' 'h' 'd'
def dinf : Bytes := fourCC 'd' 'i' 'n' 'f'
def dref : Bytes := fourCC 'd' 'r' 'e' 'f'
def url : Bytes := fourCC 'u' 'r' 'l' ' '
def stbl : Bytes := fourCC 's' 't' 'b' 'l'
def stsd : Bytes := fourCC 's' 't' 's' 'd'
def jpeg : Bytes := fourCC 'j' 'p' 'e' 'g'
def stts : Bytes := fourCC 's' 't' 't' 's'
def stsc : Bytes := fourCC 's' 't' 's' 'c'
def stsz : Bytes := fourCC 's' 't' 's' 'z'
def stco : Bytes := fourCC 's' 't' 'c' 'o'

/-- A payload behind its size and fourcc. -/
def atom (fourcc payload : Bytes) : Bytes :=
  pack32Be (8 + payload.length) ++ fourcc ++ payload

def zeros (n : Nat) : Bytes := List.replicate n 0

def ascii (s : List Char) : Bytes := s.map fun x => UInt8.ofNat x.toNat

def buildFtypPayload : Bytes :=
  fourCC 'q' 't' ' ' ' ' ++ pack32Be 0x00000200 ++ fourCC 'q' 't' ' ' ' '

/-- The identity: 16.16 fixed, the last column 2.30. -/
def matrix : Bytes :=
  [0x00010000, 0, 0, 0, 0x00010000, 0, 0, 0, 0x40000000].flatMap pack32Be

def buildMvhdPayload (timescale duration : Nat) : Bytes :=
  pack32Be 0 ++ pack32Be 0 ++ pack32Be 0 ++ pack32Be timescale ++
    pack32Be duration ++ pack32Be 0x00010000 ++ pack16Be 0x0100 ++ zeros 10 ++
    matrix ++ zeros 24 ++ pack32Be 2

def buildTkhdPayload (trackId duration width height : Nat) : Bytes :=
  pack32Be 0x00000007 ++ pack32Be 0 ++ pack32Be 0 ++ pack32Be trackId ++
    pack32Be 0 ++ pack32Be duration ++ zeros 8 ++ pack16Be 0 ++ pack16Be 0 ++
    pack16Be 0 ++ pack16Be 0 ++ matrix ++ pack32Be (width * 2 ^ 16) ++
    pack32Be (height * 2 ^ 16)

def buildMdhdPayload (timescale duration : Nat) : Bytes :=
  pack32Be 0 ++ pack32Be 0 ++ pack32Be 0 ++ pack32Be timescale ++
    pack32Be duration ++ pack16Be 0x55C4 ++ pack16Be 0

/-- The name ends in a NUL. -/
def buildHdlrPayload : Bytes :=
  pack32Be 0 ++ pack32Be 0 ++ fourCC 'v' 'i' 'd' 'e' ++ zeros 12 ++
    ascii ['V', 'i', 'd', 'e', 'o', 'H', 'a', 'n', 'd', 'l', 'e', 'r'] ++ [0]

def buildVmhdPayload : Bytes :=
  pack32Be 0x00000001 ++ pack16Be 0 ++ pack16Be 0 ++ pack16Be 0 ++ pack16Be 0

def buildDrefPayload : Bytes :=
  pack32Be 0 ++ pack32Be 1 ++ atom url (pack32Be 0x00000001)

/-- A Pascal string in 32 bytes. -/
def compressorname : Bytes :=
  [11] ++ ascii ['M', 'o', 't', 'i', 'o', 'n', ' ', 'J', 'P', 'E', 'G'] ++
    zeros 20

def buildJpegEntry (width height : Nat) : Bytes :=
  pack32Be 0 ++ pack16Be 0 ++ pack16Be 1 ++ pack16Be 0 ++ pack16Be 0 ++
    pack32Be 0 ++ pack32Be 0 ++ pack32Be 0 ++ pack16Be width ++
    pack16Be height ++ pack32Be 0x00480000 ++ pack32Be 0x00480000 ++
    pack32Be 0 ++ pack16Be 1 ++ compressorname ++ pack16Be 24 ++
    pack16Be 0xFFFF

def buildStsdPayloadJpeg (width height : Nat) : Bytes :=
  pack32Be 0 ++ pack32Be 1 ++ atom jpeg (buildJpegEntry width height)

def buildSttsPayload (sampleCount : Nat) : Bytes :=
  pack32Be 0 ++ pack32Be 1 ++ pack32Be sampleCount ++ pack32Be 1

def buildStscPayload (sampleCount : Nat) : Bytes :=
  pack32Be 0 ++ pack32Be 1 ++ pack32Be 1 ++ pack32Be sampleCount ++ pack32Be 1

def buildStszPayload (sampleSizes : List Nat) : Bytes :=
  pack32Be 0 ++ pack32Be 0 ++ pack32Be sampleSizes.length ++
    sampleSizes.flatMap pack32Be

def buildStcoPayload (chunkOffset : Nat) : Bytes :=
  pack32Be 0 ++ pack32Be 1 ++ pack32Be chunkOffset

/-- A frame in the file, in numbers of 32 bits. -/
structure Sample where
  size : Nat
  offset : Nat
  deriving DecidableEq, Repr

end Mov

open Mov

/-! ## The recorder -/

structure MjpegMovRecorder where
  file : MovFile := {}
  width : Int := 0
  height : Int := 0
  fps : Int := 5
  mdatSizeOffset : Nat := 0
  mdatPayloadStart : Nat := 0
  frames : List Sample := []
  deriving DecidableEq, Repr

namespace MjpegMovRecorder

variable {Image : Type} (env : MovEnv Image)

/-- What `writeMoov` puts together, from the inside. -/
def moovBox (r : MjpegMovRecorder) : Bytes :=
  let nSamples := r.frames.length
  let timescale := r.fps.toNat
  let duration := nSamples
  let width := r.width.toNat
  let height := r.height.toNat
  let sampleSizes := r.frames.map Sample.size
  let stblPayload := atom stsd (buildStsdPayloadJpeg width height) ++
    atom stts (buildSttsPayload nSamples) ++
    atom stsc (buildStscPayload nSamples) ++
    atom stsz (buildStszPayload sampleSizes) ++
    atom stco (buildStcoPayload
      (if nSamples = 0 then 0 else r.mdatPayloadStart))
  let dinfPayload := atom dref buildDrefPayload
  let minfPayload := atom vmhd buildVmhdPayload ++ atom dinf dinfPayload ++
    atom stbl stblPayload
  let mdiaPayload := atom mdhd (buildMdhdPayload timescale duration) ++
    atom hdlr buildHdlrPayload ++ atom minf minfPayload
  let trakPayload := atom tkhd (buildTkhdPayload 1 duration width height) ++
    atom mdia mdiaPayload
  atom moov (atom mvhd (buildMvhdPayload timescale duration) ++
    atom trak trakPayload)

def writeMoov (r : MjpegMovRecorder) : MjpegMovRecorder :=
  { r with file := (r.file.write env r.moovBox).1 }

def stop (r : MjpegMovRecorder) : MjpegMovRecorder :=
  if !r.file.isOpen then r
  else
    let mdatEnd := r.file.pos
    let file := r.file.patchU32At env r.mdatSizeOffset
      (mdatEnd - r.mdatSizeOffset)
    let r := writeMoov env { r with file }
    { r with file := r.file.close, frames := [] }

def writeFtyp (r : MjpegMovRecorder) : MjpegMovRecorder × Bool :=
  let ftypBox := atom ftyp buildFtypPayload
  match r.file.write env ftypBox with
  | (file, written) => ({ r with file }, written = ftypBox.length)

/-- The results of the two writes are not looked at. -/
def beginMdat (r : MjpegMovRecorder) : MjpegMovRecorder × Bool :=
  let mdatSizeOffset := r.file.pos
  let file := r.file.writeU32 env 0
  let file := (file.write env mdat).1
  ({ r with file, mdatSizeOffset, mdatPayloadStart := file.pos }, true)

def start (path : String) (width height fps : Int) (r : MjpegMovRecorder) :
    MjpegMovRecorder × Bool :=
  let r := if r.file.isOpen then r.stop env else r
  if path = "" ∨ width ≤ 0 ∨ height ≤ 0 ∨ fps ≤ 0 then (r, false)
  else
    match r.file.openTruncate env with
    | (file, false) => ({ r with file }, false)
    | (file, true) =>
        match writeFtyp env { r with file, width, height, fps, frames := [] } with
        | (r, false) => ({ r with file := r.file.close }, false)
        | (r, true) =>
            match r.beginMdat env with
            | (r, false) => ({ r with file := r.file.close }, false)
            | (r, true) => (r, true)

/-- The JPEG of a frame, in the size the recording was started in. -/
def encodeFrame (image : Image) (quality : Int) (r : MjpegMovRecorder) :
    Option Bytes :=
  let frame :=
    if env.size image ≠ (r.width, r.height) then
      env.scaled r.width r.height image
    else image
  let frame := if env.isRgb888 frame then frame else env.convertToRgb888 frame
  env.saveJpeg quality frame

def pushFrame (image : Image) (quality : Int) (r : MjpegMovRecorder) :
    MjpegMovRecorder × Bool :=
  if !r.file.isOpen || env.isNull image then (r, false)
  else
    match r.encodeFrame env image quality with
    | none => (r, false)
    | some data =>
        let s : Sample :=
          { size := data.length % 2 ^ 32, offset := r.file.pos % 2 ^ 32 }
        match r.file.write env data with
        | (file, written) =>
            if written ≠ data.length then ({ r with file }, false)
            else ({ r with file, frames := r.frames ++ [s] }, true)

end MjpegMovRecorder

end QuMesh.App
