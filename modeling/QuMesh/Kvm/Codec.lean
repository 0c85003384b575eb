import QuMesh.Kvm.Inflate
import QuMesh.Lib.Utf8

/-!
# The RFB frames of a KVM session

`kvm_codec.cpp`: what the client writes, and the parsers of what the server
sends. A parser that returns `false` and leaves `consumed` at zero is an
option. Lengths are `int`s that come off the wire as 32-bit patterns, so they
are read with `signed32`; rectangle coordinates are 16-bit patterns and stay
natural numbers.

The decoders of a tile walk a pointer through the block and an index through
the pixels. Here the pointer is the list that is left and the index is the
number of pixels left, so a loop that stops at either end is a recursion that
stops at either end.
-/

namespace QuMesh.Kvm

open QuMesh.Lib

inductive PixelFormat
  | rgb565
  | rgb332
  deriving DecidableEq, Repr

def bytesPerPixel : PixelFormat → Nat
  | .rgb565 => 2
  | .rgb332 => 1

def kMaxDisplayBufferBytes : Nat := 9216000

def displayBufferBytes (f : PixelFormat) (w h : Nat) : Nat :=
  bytesPerPixel f * w * h

def chooseFormatFor (w h : Nat) : PixelFormat :=
  if displayBufferBytes .rgb565 w h ≤ kMaxDisplayBufferBytes then .rgb565
  else .rgb332

/-! ## What the client writes -/

inductive Frame
  | versionResponse
  | securityChoice
  | clientInit
  | setPixelFormat (f : PixelFormat)
  | setEncodings
  | kvmExtCmd (cmd value : UInt8)
  | framebufferUpdateRequest (incremental : Bool) (x y w h : Nat)
  | keyEvent (keysym : UInt32) (down : Bool)
  | pointerEvent (buttonMask : UInt8) (x y : UInt16)
  deriving DecidableEq, Repr

/-- "RFB 003.008\n" -/
def buildVersionResponse : Bytes :=
  [0x52, 0x46, 0x42, 0x20, 0x30, 0x30, 0x33, 0x2E, 0x30, 0x30, 0x38, 0x0A]

def buildSecurityChoice : Bytes := [0x01]

def buildClientInit : Bytes := [0x01]

def buildSetPixelFormat (f : PixelFormat) : Bytes :=
  let wide : Bool := f = .rgb565
  [0, 0, 0, 0, if wide then 16 else 8, if wide then 16 else 8, 0, 1] ++
    pack16Be (if wide then 31 else 7) ++ pack16Be (if wide then 63 else 7) ++
    pack16Be (if wide then 31 else 3) ++
    [if wide then 11 else 5, if wide then 5 else 2, 0, 0, 0, 0]

def encRaw : Int := 0

def encRle : Int := 16

/-- `0xFFFFFF21`. -/
def encDesktopSize : Int := -223

def buildSetEncodings : Bytes :=
  [2, 0] ++ pack16Be 3 ++ pack32Be 16 ++ pack32Be 0 ++ pack32Be 0xFFFFFF21

/-- A `ClientCutText` with the tag "\0KvmExtCmd\0". -/
def buildKvmExtCmd (cmd value : UInt8) : Bytes :=
  let kTag : Bytes :=
    [0x00, 0x4B, 0x76, 0x6D, 0x45, 0x78, 0x74, 0x43, 0x6D, 0x64, 0x00]
  [6, 0, 0, 0] ++ pack32Be (kTag.length + 2) ++ kTag ++ [cmd, value]

def buildFramebufferUpdateRequest (incremental : Bool) (x y w h : Nat) :
    Bytes :=
  [3, if incremental then 1 else 0] ++ pack16Be x ++ pack16Be y ++
    pack16Be w ++ pack16Be h

def buildKeyEvent (keysym : UInt32) (down : Bool) : Bytes :=
  [4, if down then 1 else 0, 0, 0] ++ pack32Be keysym.toNat

def buildPointerEvent (buttonMask : UInt8) (x y : UInt16) : Bytes :=
  [5, buttonMask] ++ pack16Be x.toNat ++ pack16Be y.toNat

def Frame.bytes : Frame → Bytes
  | .versionResponse => buildVersionResponse
  | .securityChoice => buildSecurityChoice
  | .clientInit => buildClientInit
  | .setPixelFormat f => buildSetPixelFormat f
  | .setEncodings => buildSetEncodings
  | .kvmExtCmd cmd value => buildKvmExtCmd cmd value
  | .framebufferUpdateRequest incremental x y w h =>
      buildFramebufferUpdateRequest incremental x y w h
  | .keyEvent keysym down => buildKeyEvent keysym down
  | .pointerEvent buttonMask x y => buildPointerEvent buttonMask x y

/-! ## The handshake's parsers -/

/-- Zero asks for more bytes. -/
def tryParseSecurityTypes (buffer : Bytes) : Nat :=
  if buffer.length < 1 then 0
  else
    let total := 1 + byteAt buffer 0
    if buffer.length < total then 0 else total

def kSecurityResultSize : Nat := 4

/-- The result, and how much of the buffer it took. -/
def tryParseSecurityResult (buffer : Bytes) : Bool × Nat :=
  if buffer.length < kSecurityResultSize then (false, 0)
  else (signed32 (read32Be buffer 0) == 0, kSecurityResultSize)

structure ServerInit where
  width : Nat
  height : Nat
  name : Bytes
  deriving DecidableEq, Repr

def kServerInitFixedSize : Nat := 24

def tryParseServerInit (buffer : Bytes) : Option (ServerInit × Nat) :=
  if buffer.length < kServerInitFixedSize then none
  else
    let namelen := signed32 (read32Be buffer 20)
    if namelen < 0 ∨ namelen > 1048576 then none
    else
      let namelen := namelen.toNat
      if buffer.length < kServerInitFixedSize + namelen then none
      else
        some (⟨read16Be buffer 0, read16Be buffer 2,
            fromUtf8 ((buffer.drop kServerInitFixedSize).take namelen)⟩,
          kServerInitFixedSize + namelen)

/-! ## Updates and their rectangles -/

/-- The number of rectangles, and the four bytes it took. -/
def tryParseFrameUpdate (buffer : Bytes) : Option (Nat × Nat) :=
  if buffer.length < 4 then none
  else if byteAt buffer 0 ≠ 0 then none
  else some (read16Be buffer 2, 4)

structure RectHeader where
  x : Nat
  y : Nat
  w : Nat
  h : Nat
  encoding : Int
  deriving DecidableEq, Repr

def kRectHeaderSize : Nat := 12

def tryParseRectHeader (buffer : Bytes) : Option (RectHeader × Nat) :=
  if buffer.length < kRectHeaderSize then none
  else
    some (⟨read16Be buffer 0, read16Be buffer 2, read16Be buffer 4,
      read16Be buffer 6, signed32 (read32Be buffer 8)⟩, kRectHeaderSize)

/-! ## Pixels -/

/-- A `QImage` of 32-bit pixels, row by row. -/
structure Image where
  w : Nat
  h : Nat
  argb : List UInt32
  deriving DecidableEq, Repr

def rgb565ToArgb (v : UInt16) : UInt32 :=
  let v := v.toUInt32
  let r := (v >>> 8) &&& 0xF8
  let g := (v >>> 3) &&& 0xFC
  let b := (v &&& 0x1F) <<< 3
  (0xFF000000 : UInt32) ||| (r <<< 16) ||| (g <<< 8) ||| b

def rgb332ToArgb (v : UInt8) : UInt32 :=
  let v := v.toUInt32
  let r := ((v >>> 5) &&& 0x07) * 255 / 7
  let g := ((v >>> 2) &&& 0x07) * 255 / 7
  let b := (v &&& 0x03) * 255 / 3
  (0xFF000000 : UInt32) ||| (r <<< 16) ||| (g <<< 8) ||| b

/-- One wire pixel, little-endian, and what follows it. -/
def pullPixel : PixelFormat → Bytes → Option (UInt32 × Bytes)
  | .rgb565, lo :: hi :: rest =>
      some (rgb565ToArgb (lo.toUInt16 ||| (hi.toUInt16 <<< 8)), rest)
  | .rgb332, b :: rest => some (rgb332ToArgb b, rest)
  | _, _ => none

/-- `n` wire pixels in a row. -/
def pullPixels (f : PixelFormat) : Nat → Bytes →
    Option (List UInt32 × Bytes)
  | 0, data => some ([], data)
  | n + 1, data =>
      match pullPixel f data with
      | none => none
      | some (c, rest) =>
          match pullPixels f n rest with
          | none => none
          | some (cs, rest) => some (c :: cs, rest)

inductive DecodeStatus
  | ok
  | needMore
  | unsupportedEncoding
  | unsupportedSubencoding
  | malformed
  deriving DecidableEq, Repr

/-- `decodeRaw`: the picture and the bytes it took, or too few of them. -/
def decodeRaw (payload : Bytes) (rect : RectHeader) (format : PixelFormat) :
    Option (Image × Nat) :=
  let pixels := rect.w * rect.h
  let needed := pixels * bytesPerPixel format
  if payload.length < needed then none
  else
    (pullPixels format pixels payload).map fun p =>
      (⟨rect.w, rect.h, p.1⟩, needed)

/-! ## The tile body -/

/-- Bits of one packed index. -/
def packedBits (subenc : Nat) : Nat :=
  if subenc = 2 then 1 else if subenc ≤ 4 then 2 else 4

/-- The indices one byte packs, the first in the high bits. -/
def unpackByte (br : Nat) (v : UInt8) : List Nat :=
  (List.range (8 / br)).map fun k =>
    v.toNat / 2 ^ (8 - br * (k + 1)) % 2 ^ br

/-- The packed loop, for the pixels left. An index past the palette is out of
the vector's bounds in the source; here it reads as zero. -/
def unpackIndices (br : Nat) (palette : List UInt32) : Nat → Bytes →
    List UInt32
  | _, [] => []
  | 0, _ :: _ => []
  | left + 1, v :: rest =>
      let row := ((unpackByte br v).map fun i => palette.getD i 0).take (left + 1)
      row ++ unpackIndices br palette (left + 1 - row.length) rest

/-- The bytes that extend a run: 255 continues it. The source sums in an
`int`. -/
def readRun : Nat → Bytes → Option (Nat × Bytes)
  | _, [] => none
  | run, delta :: rest =>
      if delta = 0xFF then readRun (run + 255) rest
      else some (run + delta.toNat, rest)

/-- Subencoding 128, for the pixels left; a run takes one at least, so as many
rounds are enough. -/
def decodeRuns (format : PixelFormat) : Nat → Nat → Bytes →
    Option (List UInt32)
  | _, 0, _ => some []
  | 0, _ + 1, _ => none
  | fuel + 1, left + 1, data =>
      match pullPixel format data with
      | none => none
      | some (c, rest) =>
          match readRun 1 rest with
          | none => none
          | some (run, rest) =>
              let run := min run (left + 1)
              (decodeRuns format fuel (left + 1 - run) rest).map
                (List.replicate run c ++ ·)

/-- One index of a palette run: the entry, the length of its run and what is
left. -/
def readIndex (palette : List UInt32) (index : UInt8) (rest : Bytes) :
    Option (UInt32 × Nat × Bytes) :=
  match palette[(index &&& 0x7F).toNat]? with
  | none => none
  | some c =>
      if index &&& 0x80 = 0 then some (c, 1, rest)
      else (readRun 1 rest).map fun p => (c, p.1, p.2)

/-- Subencodings from 130 on, for the pixels left. The loop also stops where
the data does, and the caller checks that every pixel was painted. -/
def decodePaletteRuns (palette : List UInt32) : Nat → Nat → Bytes →
    Option (List UInt32)
  | _, 0, _ => some []
  | 0, _ + 1, _ => none
  | _ + 1, _ + 1, [] => none
  | fuel + 1, left + 1, index :: rest =>
      match readIndex palette index rest with
      | none => none
      | some (c, run, rest) =>
          let run := min run (left + 1)
          (decodePaletteRuns palette fuel (left + 1 - run) rest).map
            (List.replicate run c ++ ·)

/-- `decodeRleInner`: the pixels of one tile, after its subencoding byte. -/
def decodeRleInner (data : Bytes) (subenc : Nat) (rect : RectHeader)
    (format : PixelFormat) : Option (List UInt32) :=
  let s := rect.w * rect.h
  if subenc = 0 then
    if data.length < s * bytesPerPixel format then none
    else (pullPixels format s data).map Prod.fst
  else if subenc = 1 then
    (pullPixel format data).map fun p => List.replicate s p.1
  else if 2 ≤ subenc ∧ subenc ≤ 16 then
    match pullPixels format subenc data with
    | none => none
    | some (palette, rest) =>
        let argb := unpackIndices (packedBits subenc) palette s rest
        if argb.length ≥ s then some argb else none
  else if subenc = 128 then decodeRuns format s s data
  else if subenc ≥ 130 then
    match pullPixels format (subenc - 128) data with
    | none => none
    | some (palette, rest) => decodePaletteRuns palette s s rest
  else none

/-! ## Blocks and rectangles -/

structure DecodedRect where
  image : Option Image := none
  isDesktopSize : Bool := false
  deriving DecidableEq, Repr

/-- What `tryDecodeRect` leaves in its arguments. -/
structure Decoding (z : Zlib) where
  status : DecodeStatus
  rect : DecodedRect := {}
  consumed : Nat := 0
  inflate : Option (InflateStream z)

section

variable {z : Zlib}

/-- The largest block an honest server sends for a rectangle. -/
def maxBlock (format : PixelFormat) (rect : RectHeader) : Nat :=
  let pixels := rect.w * rect.h
  let maxInner := 1 + pixels * (bytesPerPixel format + 1) + 127 * 2
  maxInner + maxInner / 1024 + 1024

/-- The marker of a block that is not compressed. -/
def uncompressedMarker (block : Bytes) : Bool :=
  decide (block.length ≥ 6) && byteAt block 0 == 0 &&
    read16Le block 1 == (block.length - 5) % 65536

/-- A decoded body as `decodeRle` reports it. -/
def tileDecoding (argb : Option (List UInt32)) (rect : RectHeader)
    (consumed : Nat) (inflate : Option (InflateStream z)) : Decoding z :=
  match argb with
  | none => { status := .unsupportedSubencoding, inflate }
  | some argb =>
      { status := .ok, rect := { image := some ⟨rect.w, rect.h, argb⟩ },
        consumed, inflate }

def decodeRle (payload : Bytes) (rect : RectHeader)
    (inflate : Option (InflateStream z)) (format : PixelFormat) :
    Decoding z :=
  if payload.length < 4 then { status := .needMore, inflate }
  else
    let dataLen := signed32 (read32Be payload 0)
    if dataLen < 1 then { status := .malformed, inflate }
    else if dataLen > maxBlock format rect then { status := .malformed, inflate }
    else
      let dataLen := dataLen.toNat
      if payload.length < 4 + dataLen then { status := .needMore, inflate }
      else
        let block := (payload.drop 4).take dataLen
        if uncompressedMarker block then
          tileDecoding
            (decodeRleInner (block.drop 6) (byteAt block 5) rect format) rect
            (4 + dataLen) inflate
        else
          match inflate with
          | none => { status := .unsupportedSubencoding, inflate := none }
          | some stream =>
              match stream.inflate block with
              | (stream, none) => { status := .malformed, inflate := some stream }
              | (stream, some []) =>
                  { status := .malformed, inflate := some stream }
              | (stream, some (sub :: inner)) =>
                  tileDecoding (decodeRleInner inner sub.toNat rect format) rect
                    (4 + dataLen) (some stream)

def tryDecodeRect (payload : Bytes) (rect : RectHeader)
    (inflate : Option (InflateStream z)) (format : PixelFormat) :
    Decoding z :=
  if rect.encoding = encDesktopSize then
    { status := .ok, rect := { isDesktopSize := true }, inflate }
  else if rect.w = 0 ∨ rect.h = 0 then { status := .ok, inflate }
  else if rect.w > 4096 ∨ rect.h > 4096 then { status := .malformed, inflate }
  else if rect.encoding = encRaw then
    match decodeRaw payload rect format with
    | none => { status := .needMore, inflate }
    | some (image, n) =>
        { status := .ok, rect := { image := some image }, consumed := n, inflate }
  else if rect.encoding = encRle then decodeRle payload rect inflate format
  else { status := .unsupportedEncoding, inflate }

end

end QuMesh.Kvm
