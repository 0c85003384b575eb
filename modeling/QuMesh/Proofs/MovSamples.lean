import Mathlib.Algebra.GroupWithZero.Nat
import QuMesh.App.MjpegMovRecorder
import QuMesh.Lib.Run

/-!
# Where the frames of a recording are

A player finds the frames by the sizes in `stsz`, one behind the other from the
one offset in `stco`. So they have to stand in `mdat` without a gap, and that is
what a frame breaks of which the file took a part: `pushFrame` says it failed
and keeps no sample for it, and the part stays. The frames behind it are read
from too early. The writes that make the boxes, the header of `mdat`, the patch
of its size, and `moov`, are not looked at.

The boxes of `moov` are rows of rows, and where the size of the whole is right
every size in it is. So the work is in `mdat`: `Recording` is what stands there
while the frames come in, with the part of failed frames at the end.
-/

namespace QuMesh.App

open QuMesh.Lib Mov

/-! ## A player -/

namespace Mov

/-- Which kinds hold boxes, behind how many bytes. -/
def heads (kind : Bytes) : Option Nat :=
  if [moov, trak, mdia, minf, dinf, stbl].contains kind then some 0
  else if [dref, stsd].contains kind then some 8
  else none

def readU32s : Nat → Bytes → List Nat
  | 0, _ => []
  | n + 1, b => read32Be b 0 :: readU32s n (b.drop 4)

/-- What stands from an offset on, by the sizes. -/
def cut (file : Bytes) : Nat → List Nat → List Bytes
  | _, [] => []
  | off, n :: ns => (file.drop off).take n :: cut file (off + n) ns

/-- The frames by the sample table: the sizes in `stsz`, as many as `stsc` puts
in the chunk, from the offset in `stco`. -/
def samples (file : Bytes) : Option (List Bytes) := do
  let table ← descend [moov, trak, mdia, minf, stbl] file
  let sizes ← child stsz table
  let chunks ← child stsc table
  let offsets ← child stco table
  let count := read32Be chunks 12
  pure (cut file (read32Be offsets 8)
    ((readU32s (read32Be sizes 8) (sizes.drop 12)).take count))

/-- The boxes tile the file, down to those in `stsd`, and the sample table
locates the frames. -/
structure Locates (file : Bytes) (frames : List Bytes) : Prop where
  tiles : tiled heads 8 file = true
  samples : samples file = some frames

instance (file : Bytes) (frames : List Bytes) : Decidable (Locates file frames) :=
  decidable_of_iff (tiled heads 8 file = true ∧ Mov.samples file = some frames)
    ⟨fun h => ⟨h.1, h.2⟩, fun h => ⟨h.tiles, h.samples⟩⟩

/-! ### What the tables say -/

theorem readU32s_flatMap {ns : List Nat} (h : ∀ n ∈ ns, n < 2 ^ 32) :
    readU32s ns.length (ns.flatMap pack32Be) = ns := by
  induction ns with
  | nil => rfl
  | cons n ns ih =>
      rw [List.forall_mem_cons] at h
      rw [List.flatMap_cons, List.length_cons, readU32s, read32Be_pack,
        Nat.mod_eq_of_lt h.1]
      have hfour : (pack32Be n).length = 4 := rfl
      rw [List.drop_left' hfour, ih h.2]

theorem flatMap_pack32Be_length (ns : List Nat) :
    (ns.flatMap pack32Be).length = 4 * ns.length := by
  induction ns with
  | nil => rfl
  | cons n ns ih =>
      have hfour : (pack32Be n).length = 4 := rfl
      rw [List.flatMap_cons, List.length_append, ih, List.length_cons, hfour]
      omega

theorem cut_flatten (before after : Bytes) (frames : List Bytes) :
    cut (before ++ frames.flatten ++ after) before.length
      (frames.map List.length) = frames := by
  induction frames generalizing before with
  | nil => rfl
  | cons frame frames ih =>
      have hrest : before ++ (frame :: frames).flatten ++ after =
          (before ++ frame) ++ frames.flatten ++ after := by
        simp [List.append_assoc]
      have hhere : ((before ++ (frame :: frames).flatten ++ after).drop
          before.length).take frame.length = frame := by
        rw [List.flatten_cons, List.append_assoc, List.drop_left,
          List.append_assoc, List.take_left]
      rw [List.map_cons, cut, hhere, hrest, ← List.length_append, ih]

end Mov

namespace MjpegMovRecorder

variable {Image : Type} {env : MovEnv Image} {r : MjpegMovRecorder}

/-! ## The boxes of `moov` -/

/-- The boxes of the sample table. -/
def table (r : MjpegMovRecorder) : List (Bytes × Bytes) :=
  [(stsd, buildStsdPayloadJpeg r.width.toNat r.height.toNat),
    (stts, buildSttsPayload r.frames.length),
    (stsc, buildStscPayload r.frames.length),
    (stsz, buildStszPayload (r.frames.map Sample.size)),
    (stco, buildStcoPayload
      (if r.frames.length = 0 then 0 else r.mdatPayloadStart))]

def minfRow (r : MjpegMovRecorder) : List (Bytes × Bytes) :=
  [(vmhd, buildVmhdPayload), (dinf, row [(dref, buildDrefPayload)]),
    (stbl, row r.table)]

def mdiaRow (r : MjpegMovRecorder) : List (Bytes × Bytes) :=
  [(mdhd, buildMdhdPayload r.fps.toNat r.frames.length),
    (hdlr, buildHdlrPayload), (minf, row r.minfRow)]

def trakRow (r : MjpegMovRecorder) : List (Bytes × Bytes) :=
  [(tkhd, buildTkhdPayload 1 r.frames.length r.width.toNat r.height.toNat),
    (mdia, row r.mdiaRow)]

def moovRow (r : MjpegMovRecorder) : List (Bytes × Bytes) :=
  [(mvhd, buildMvhdPayload r.fps.toNat r.frames.length),
    (trak, row r.trakRow)]

theorem moovBox_row (r : MjpegMovRecorder) :
    r.moovBox = box moov (row r.moovRow) := by
  have hatom : ∀ kind payload, atom kind payload = box kind payload :=
    fun _ _ => rfl
  simp only [moovBox, moovRow, trakRow, mdiaRow, minfRow, table, row,
    List.flatMap_cons, List.flatMap_nil, List.append_nil, hatom,
    List.append_assoc]

/-- A file of the recorder: `mdat` between `ftyp` and `moov`. -/
def fileRow (r : MjpegMovRecorder) (payload : Bytes) : List (Bytes × Bytes) :=
  [(ftyp, buildFtypPayload), (mdat, payload), (moov, row r.moovRow)]

theorem leaf_tiles {depth : Nat} {kind payload : Bytes}
    (hkind : kind.length = 4) (h : heads kind = none) :
    kind.length = 4 ∧ ∀ n, heads kind = some n →
      n ≤ payload.length ∧ Tiles heads depth (payload.drop n) := by
  refine ⟨hkind, fun n hn => ?_⟩
  rw [h] at hn
  cases hn

theorem node_tiles {depth n : Nat} {kind payload : Bytes}
    (hkind : kind.length = 4) (h : heads kind = some n)
    (hn : n ≤ payload.length) (htiles : Tiles heads depth (payload.drop n)) :
    kind.length = 4 ∧ ∀ n, heads kind = some n →
      n ≤ payload.length ∧ Tiles heads depth (payload.drop n) := by
  refine ⟨hkind, fun m hm => ?_⟩
  rw [h] at hm
  cases hm
  exact ⟨hn, htiles⟩

theorem table_tiles (r : MjpegMovRecorder) : Tiles heads 3 (row r.table) := by
  refine .row ?_
  simp only [table, List.forall_mem_cons]
  have hentry : (buildStsdPayloadJpeg r.width.toNat r.height.toNat).drop 8 =
      row [(jpeg, buildJpegEntry r.width.toNat r.height.toNat)] := by
    rw [row, List.flatMap_cons, List.flatMap_nil, List.append_nil]
    rfl
  refine ⟨node_tiles rfl rfl ?_ ?_, leaf_tiles rfl rfl, leaf_tiles rfl rfl,
    leaf_tiles rfl rfl, leaf_tiles rfl rfl, List.forall_mem_nil _⟩
  · simp only [buildStsdPayloadJpeg, List.length_append]
    exact Nat.le_add_right 8 _
  · rw [hentry]
    refine .row ?_
    rw [List.forall_mem_cons]
    exact ⟨leaf_tiles rfl rfl, List.forall_mem_nil _⟩

theorem dinf_tiles : Tiles heads 3 (row [(dref, buildDrefPayload)]) := by
  refine .row ?_
  rw [List.forall_mem_cons]
  refine ⟨node_tiles rfl rfl (by decide) ?_, List.forall_mem_nil _⟩
  have hentry : buildDrefPayload.drop 8 = row [(url, pack32Be 0x00000001)] := rfl
  rw [hentry]
  refine .row ?_
  rw [List.forall_mem_cons]
  exact ⟨leaf_tiles rfl rfl, List.forall_mem_nil _⟩

theorem file_tiles (r : MjpegMovRecorder) (payload : Bytes) :
    Tiles heads 8 (row (r.fileRow payload)) := by
  have hminf : Tiles heads 4 (row r.minfRow) := by
    refine .row ?_
    simp only [minfRow, List.forall_mem_cons]
    exact ⟨leaf_tiles rfl rfl, node_tiles rfl rfl (Nat.zero_le _) dinf_tiles,
      node_tiles rfl rfl (Nat.zero_le _) r.table_tiles, List.forall_mem_nil _⟩
  have hmdia : Tiles heads 5 (row r.mdiaRow) := by
    refine .row ?_
    simp only [mdiaRow, List.forall_mem_cons]
    exact ⟨leaf_tiles rfl rfl, leaf_tiles rfl rfl,
      node_tiles rfl rfl (Nat.zero_le _) hminf, List.forall_mem_nil _⟩
  have htrak : Tiles heads 6 (row r.trakRow) := by
    refine .row ?_
    simp only [trakRow, List.forall_mem_cons]
    exact ⟨leaf_tiles rfl rfl, node_tiles rfl rfl (Nat.zero_le _) hmdia,
      List.forall_mem_nil _⟩
  have hmoov : Tiles heads 7 (row r.moovRow) := by
    refine .row ?_
    simp only [moovRow, List.forall_mem_cons]
    exact ⟨leaf_tiles rfl rfl, node_tiles rfl rfl (Nat.zero_le _) htrak,
      List.forall_mem_nil _⟩
  refine .row ?_
  simp only [fileRow, List.forall_mem_cons]
  exact ⟨leaf_tiles rfl rfl, leaf_tiles rfl rfl,
    node_tiles rfl rfl (Nat.zero_le _) hmoov, List.forall_mem_nil _⟩

/-! ## The sample table -/

/-- The way to the sample table. -/
theorem descend_table {payload : Bytes}
    (hsize : (row (r.fileRow payload)).length < 2 ^ 32) :
    descend [moov, trak, mdia, minf, stbl] (row (r.fileRow payload)) =
      some (row r.table) ∧ (row r.table).length < 2 ^ 32 := by
  have hkinds : ∀ xs : List (Bytes × Bytes), xs.map (·.1.length) =
      List.replicate xs.length 4 → ∀ x ∈ xs, x.1.length = 4 := by
    intro xs h x hx
    have hmem : x.1.length ∈ xs.map (·.1.length) := List.mem_map_of_mem hx
    rw [h] at hmem
    exact (List.mem_replicate.mp hmem).2
  obtain ⟨hmoov, hsize⟩ := descend_row moov (hkinds (r.fileRow payload) rfl)
    hsize rfl [trak, mdia, minf, stbl]
  obtain ⟨htrak, hsize⟩ := descend_row trak (hkinds r.moovRow rfl)
    hsize rfl [mdia, minf, stbl]
  obtain ⟨hmdia, hsize⟩ := descend_row mdia (hkinds r.trakRow rfl)
    hsize rfl [minf, stbl]
  obtain ⟨hminf, hsize⟩ := descend_row minf (hkinds r.mdiaRow rfl)
    hsize rfl [stbl]
  obtain ⟨hstbl, hsize⟩ := descend_row stbl (hkinds r.minfRow rfl)
    hsize rfl []
  rw [hmoov, htrak, hmdia, hminf, hstbl]
  exact ⟨rfl, hsize⟩

/-- The player cuts `mdat` as the recorder counted. -/
theorem samples_row {payload : Bytes}
    (hsize : (row (r.fileRow payload)).length < 2 ^ 32)
    (hframes : ∀ n ∈ r.frames.map Sample.size, n < 2 ^ 32)
    (hstart : r.mdatPayloadStart < 2 ^ 32) :
    samples (row (r.fileRow payload)) =
      some (cut (row (r.fileRow payload))
        (if r.frames.length = 0 then 0 else r.mdatPayloadStart)
        (r.frames.map Sample.size)) := by
  obtain ⟨htable, hsmall⟩ := descend_table hsize
  have hkinds : ∀ x ∈ r.table, x.1.length = 4 := by
    simp only [table, List.forall_mem_cons]
    exact ⟨rfl, rfl, rfl, rfl, rfl, List.forall_mem_nil _⟩
  have hsizes : child stsz (row r.table) =
      some (buildStszPayload (r.frames.map Sample.size)) :=
    child_row hkinds hsmall stsz
  have hchunks : child stsc (row r.table) =
      some (buildStscPayload r.frames.length) := child_row hkinds hsmall stsc
  have hoffsets : child stco (row r.table) = some (buildStcoPayload
      (if r.frames.length = 0 then 0 else r.mdatPayloadStart)) :=
    child_row hkinds hsmall stco
  have hcount : r.frames.length < 2 ^ 32 := by
    have hle : (buildStszPayload (r.frames.map Sample.size)).length ≤
        (row r.table).length :=
      length_le_row (x := (stsz, buildStszPayload (r.frames.map Sample.size)))
        (by simp [table])
    rw [buildStszPayload, List.length_append, flatMap_pack32Be_length,
      List.length_map] at hle
    omega
  have hoffset : (if r.frames.length = 0 then 0 else r.mdatPayloadStart) <
      2 ^ 32 := by
    split
    · decide
    · exact hstart
  generalize hoff : (if r.frames.length = 0 then 0 else r.mdatPayloadStart) = off
    at hoffset hoffsets
  have hstco : read32Be (buildStcoPayload off) 8 = off := by
    have h := read32Be_behind (pack32Be 0 ++ pack32Be 1) hoffset []
    rw [List.append_nil] at h
    exact h
  have hstsc : read32Be (buildStscPayload r.frames.length) 12 =
      r.frames.length := by
    have h := read32Be_behind (pack32Be 0 ++ pack32Be 1 ++ pack32Be 1) hcount
      (pack32Be 1)
    rw [← List.append_assoc] at h
    exact h
  have hlength : (r.frames.map Sample.size).length = r.frames.length :=
    List.length_map ..
  have hstsz : read32Be (buildStszPayload (r.frames.map Sample.size)) 8 =
      (r.frames.map Sample.size).length := by
    have h := read32Be_behind (pack32Be 0 ++ pack32Be 0) (hlength.symm ▸ hcount)
      ((r.frames.map Sample.size).flatMap pack32Be)
    rw [← List.append_assoc] at h
    exact h
  have hdrop : (buildStszPayload (r.frames.map Sample.size)).drop 12 =
      (r.frames.map Sample.size).flatMap pack32Be := List.drop_left' rfl
  simp only [samples, htable, hsizes, hchunks, hoffsets, Option.bind_eq_bind,
    Option.bind_some, hstco, hstsc, hstsz, hdrop, readU32s_flatMap hframes]
  rw [List.take_of_length_le (Nat.le_of_eq hlength)]
  rfl

/-! ## What stands in `mdat` -/

/-- The header of `mdat`, behind `ftyp`. -/
def header (size : Nat) : Bytes :=
  atom ftyp buildFtypPayload ++ (pack32Be size ++ mdat)

/-- While the frames come in: the accepted ones stand behind the header, and
behind them a part of those that failed. -/
structure Recording (r : MjpegMovRecorder) (frames : List Bytes)
    (part : Bytes) : Prop where
  isOpen : r.file.isOpen = true
  bytes : r.file.bytes = header 0 ++ (frames.flatten ++ part)
  pos : r.file.pos = r.file.bytes.length
  sizeOffset : r.mdatSizeOffset = 20
  payloadStart : r.mdatPayloadStart = 28
  sizes : r.frames.map Sample.size = frames.map fun f => f.length % 2 ^ 32

/-- The samples fill `mdat` up to the position. -/
def Contiguous (r : MjpegMovRecorder) : Prop :=
  r.file.pos = r.mdatPayloadStart + (r.frames.map Sample.size).sum

instance (r : MjpegMovRecorder) : Decidable r.Contiguous :=
  inferInstanceAs (Decidable (_ = _))

/-- The `n`-th call takes all of it. -/
def Whole (env : MovEnv Image) (n : Nat) (data : Bytes) : Prop :=
  ∃ k, env.takes n data = some k ∧ data.length ≤ k

instance (n : Nat) (data : Bytes) : Decidable (Whole env n data) :=
  decidable_of_iff ((env.takes n data).any (data.length ≤ ·) = true) (by
    rw [Option.any_eq_true]
    exact exists_congr fun k => and_congr_right fun _ => decide_eq_true_iff)

theorem overwrite_end (bytes part : Bytes) :
    MovFile.overwrite bytes bytes.length part = bytes ++ part := by
  rw [MovFile.overwrite, List.take_length, Nat.sub_self, List.drop_eq_nil_of_le
    (Nat.le_add_right _ _), List.append_nil, List.replicate_zero, List.append_nil]

/-- A write at the end appends what it takes. -/
theorem write_end {f : MovFile} (hpos : f.pos = f.bytes.length) (data : Bytes) :
    ∃ part, (f.write env data).1 =
        { f with bytes := f.bytes ++ part, pos := (f.bytes ++ part).length,
                 calls := f.calls + 1 } ∧
      ((f.write env data).2 = data.length ↔ Whole env f.calls data) ∧
      (Whole env f.calls data → part = data) := by
  rw [MovFile.write]
  split
  · next hnone =>
    refine ⟨[], ?_, ?_, ?_⟩
    · rw [List.append_nil, ← hpos]
    · refine iff_of_false (by omega) ?_
      rintro ⟨k, hk, -⟩
      rw [hnone] at hk
      cases hk
    · rintro ⟨k, hk, -⟩
      rw [hnone] at hk
      cases hk
  · next k hsome =>
    dsimp only
    refine ⟨data.take k, ?_, ?_, ?_⟩
    · rw [hpos, overwrite_end, List.length_append]
    · rw [List.length_take]
      constructor
      · intro h
        exact ⟨k, hsome, by omega⟩
      · rintro ⟨m, hm, hle⟩
        cases hsome.symm.trans hm
        rw [Nat.min_eq_right hle]
    · rintro ⟨m, hm, hle⟩
      cases hsome.symm.trans hm
      exact List.take_of_length_le hle

/-- Nothing of a failed frame stands where the samples fill `mdat`. -/
theorem Recording.part_nil {frames : List Bytes} {part : Bytes}
    (h : Recording r frames part) (hcontiguous : r.Contiguous) : part = [] := by
  have hmod : ∀ fs : List Bytes,
      (fs.map fun f => f.length % 2 ^ 32).sum ≤ fs.flatten.length := by
    intro fs
    induction fs with
    | nil => exact Nat.le_refl 0
    | cons f fs ih =>
        have hle := Nat.mod_le f.length (2 ^ 32)
        rw [List.map_cons, List.sum_cons, List.flatten_cons, List.length_append]
        omega
  have hle := hmod frames
  have hheader : (header 0).length = 28 := rfl
  rw [Contiguous, h.pos, h.bytes, h.payloadStart, h.sizes, List.length_append,
    List.length_append, hheader] at hcontiguous
  exact List.length_eq_zero_iff.mp (by omega)

/-- A frame is written as a whole only where the samples fill `mdat`. -/
def Spared (env : MovEnv Image) (r : MjpegMovRecorder) (push : Image × Int) :
    Prop :=
  ∀ data, r.encodeFrame env push.1 push.2 = some data →
    Whole env r.file.calls data → r.Contiguous

instance (r : MjpegMovRecorder) (push : Image × Int) :
    Decidable (r.Spared env push) :=
  decidable_of_iff ((r.encodeFrame env push.1 push.2).all
      (fun data => decide (Whole env r.file.calls data → r.Contiguous)) = true)
    (by
      rw [Option.all_eq_true]
      exact forall_congr' fun _ => imp_congr_right fun _ => decide_eq_true_iff)

/-- The frames come in, and the JPEGs of those that are accepted are kept. -/
def pushFrames (env : MovEnv Image) :
    List (Image × Int) → MjpegMovRecorder → MjpegMovRecorder × List Bytes
  | [], r => (r, [])
  | (image, quality) :: pushes, r =>
      let (s, ok) := r.pushFrame env image quality
      let (t, frames) := pushFrames env pushes s
      (t, (if ok then (r.encodeFrame env image quality).toList else []) ++ frames)

theorem Recording.push {frames : List Bytes} {part : Bytes}
    (h : Recording r frames part) {push : Image × Int} (hok : r.Spared env push) :
    ∃ rest, Recording (r.pushFrame env push.1 push.2).1
      (frames ++ if (r.pushFrame env push.1 push.2).2 then
        (r.encodeFrame env push.1 push.2).toList else []) rest := by
  have hsame : Recording r (frames ++ []) part := by
    rw [List.append_nil]
    exact h
  rw [pushFrame]
  split
  · exact ⟨part, hsame⟩
  split
  · exact ⟨part, hsame⟩
  next data hdata =>
    obtain ⟨wrote, hfile, hwhole, hall⟩ := write_end h.pos data
    dsimp only
    split
    · next hshort =>
      dsimp only
      rw [hfile]
      refine ⟨part ++ wrote, h.isOpen, ?_, rfl, h.sizeOffset, h.payloadStart, ?_⟩
      · simp [h.bytes]
      · simp [h.sizes]
    · next hdone =>
      have htaken := hwhole.mp (not_not.mp hdone)
      obtain rfl := h.part_nil (hok data hdata htaken)
      obtain rfl := hall htaken
      dsimp only
      rw [hfile]
      refine ⟨[], h.isOpen, ?_, rfl, h.sizeOffset, h.payloadStart, ?_⟩
      · simp [h.bytes, hdata]
      · simp [h.sizes, hdata]

theorem Recording.pushes {pushes : List (Image × Int)} {frames : List Bytes}
    {part : Bytes} (h : Recording r frames part)
    (hok : ∀ x ∈ trail (fun r p => (pushFrame env p.1 p.2 r).1) r pushes,
      x.1.Spared env x.2) :
    ∃ rest, Recording (pushFrames env pushes r).1
      (frames ++ (pushFrames env pushes r).2) rest := by
  induction pushes generalizing r frames part with
  | nil =>
      rw [pushFrames, List.append_nil]
      exact ⟨part, h⟩
  | cons push pushes ih =>
      rw [trail_cons, List.forall_mem_cons] at hok
      obtain ⟨rest, hnext⟩ := h.push hok.1
      obtain ⟨left, hlast⟩ := ih hnext hok.2
      rw [List.append_assoc] at hlast
      exact ⟨left, hlast⟩

/-! ## From start to stop -/

/-- The size and the fourcc of `mdat` are written as a whole: the third and the
fourth call of `start`, behind `stop`. -/
def HeaderWhole (env : MovEnv Image) (r : MjpegMovRecorder) : Prop :=
  Whole env ((r.stop env).file.calls + 2) (pack32Be 0) ∧
    Whole env ((r.stop env).file.calls + 3) mdat

/-- The patch of the size and `moov` are. -/
def StopWhole (env : MovEnv Image) (r : MjpegMovRecorder) : Prop :=
  Whole env r.file.calls (pack32Be (r.file.pos - r.mdatSizeOffset)) ∧
    Whole env (r.file.calls + 1) r.moovBox

instance (r : MjpegMovRecorder) : Decidable (r.HeaderWhole env) :=
  inferInstanceAs (Decidable (_ ∧ _))

instance (r : MjpegMovRecorder) : Decidable (r.StopWhole env) :=
  inferInstanceAs (Decidable (_ ∧ _))

theorem write_whole {f : MovFile} {data : Bytes}
    (hwhole : Whole env f.calls data) :
    (f.write env data).1 =
      { f with bytes := MovFile.overwrite f.bytes f.pos data,
               pos := f.pos + data.length, calls := f.calls + 1 } := by
  obtain ⟨k, hk, hle⟩ := hwhole
  rw [MovFile.write, hk]
  dsimp only
  rw [List.take_of_length_le hle]

theorem write_end_whole {f : MovFile} {data : Bytes}
    (hpos : f.pos = f.bytes.length) (hwhole : Whole env f.calls data) :
    (f.write env data).1 =
      { f with bytes := f.bytes ++ data, pos := (f.bytes ++ data).length,
               calls := f.calls + 1 } := by
  rw [write_whole hwhole, hpos, overwrite_end, List.length_append]

theorem writeFtyp_whole {s : MjpegMovRecorder}
    (hpos : r.file.pos = r.file.bytes.length) (h : r.writeFtyp env = (s, true)) :
    s = { r with file := { r.file with
      bytes := r.file.bytes ++ atom ftyp buildFtypPayload
      pos := (r.file.bytes ++ atom ftyp buildFtypPayload).length
      calls := r.file.calls + 1 } } := by
  obtain ⟨part, hfile, hwhole, hall⟩ :=
    @write_end Image env r.file hpos (atom ftyp buildFtypPayload)
  rw [writeFtyp] at h
  dsimp only at h
  obtain ⟨hs, hwritten⟩ := Prod.mk.inj h
  rw [← hs, hfile, hall (hwhole.mp (of_decide_eq_true hwritten))]

theorem beginMdat_whole {s : MjpegMovRecorder} {ok : Bool}
    (hpos : r.file.pos = r.file.bytes.length)
    (hsize : Whole env r.file.calls (pack32Be 0))
    (hmdat : Whole env (r.file.calls + 1) mdat)
    (h : r.beginMdat env = (s, ok)) :
    s = { r with
      file := { r.file with
        bytes := r.file.bytes ++ pack32Be 0 ++ mdat
        pos := (r.file.bytes ++ pack32Be 0 ++ mdat).length
        calls := r.file.calls + 1 + 1 }
      mdatSizeOffset := r.file.bytes.length
      mdatPayloadStart := (r.file.bytes ++ pack32Be 0 ++ mdat).length } := by
  have hfirst := write_end_whole hpos hsize
  have hsecond := write_end_whole (f := { r.file with
    bytes := r.file.bytes ++ pack32Be 0
    pos := (r.file.bytes ++ pack32Be 0).length
    calls := r.file.calls + 1 }) rfl hmdat
  rw [beginMdat] at h
  dsimp only [MovFile.writeU32] at h
  rw [hfirst, hsecond, hpos] at h
  exact (Prod.mk.inj h).1.symm

theorem recording_start {path : String} {width height fps : Int}
    (hstart : (r.start env path width height fps).2 = true)
    (hheader : r.HeaderWhole env) :
    Recording (r.start env path width height fps).1 [] [] := by
  have hclosed : (if r.file.isOpen then r.stop env else r) = r.stop env := by
    rw [stop]
    cases r.file.isOpen with
    | true => rfl
    | false => rfl
  obtain ⟨hsize, hmdat⟩ := hheader
  rw [start, hclosed] at hstart ⊢
  generalize r.stop env = b at hstart hsize hmdat ⊢
  split at hstart
  · cases hstart
  next hargs =>
    rw [if_neg hargs]
    split at hstart
    · cases hstart
    next file hopen =>
      have hfile : file = { isOpen := true, calls := b.file.calls + 1 } := by
        rw [MovFile.openTruncate] at hopen
        split at hopen
        · exact (Prod.mk.inj hopen).1.symm
        · cases hopen
      subst hfile
      split at hstart
      · cases hstart
      next s hftyp =>
        have hs := writeFtyp_whole rfl hftyp
        have hcalls : s.file.calls = b.file.calls + 2 := by rw [hs]
        have hpos : s.file.pos = s.file.bytes.length := by rw [hs]
        split
        · next t hbegin => cases (congrArg Prod.snd hbegin)
        · next t hbegin =>
          have ht := beginMdat_whole hpos (hcalls ▸ hsize) (hcalls ▸ hmdat) hbegin
          subst hs ht
          exact ⟨rfl, rfl, rfl, rfl, rfl, rfl⟩

/-- A patch in the middle. -/
theorem overwrite_middle (a b c : Bytes) {part : Bytes}
    (h : part.length = b.length) :
    MovFile.overwrite (a ++ (b ++ c)) a.length part = a ++ (part ++ c) := by
  have hdrop : (a ++ (b ++ c)).drop (a.length + part.length) = c := by
    rw [← List.append_assoc]
    refine List.drop_left' ?_
    rw [List.length_append, h]
  have hin : a.length - (a ++ (b ++ c)).length = 0 := by
    rw [List.length_append]
    omega
  rw [MovFile.overwrite, hdrop, List.take_left, hin, List.replicate_zero,
    List.append_nil, List.append_assoc]

theorem patch_whole {f : MovFile} {v w : Nat} {after : Bytes}
    (hbytes : f.bytes = header v ++ after)
    (hwhole : Whole env f.calls (pack32Be w)) :
    f.patchU32At env 20 w =
      { f with bytes := header w ++ after, calls := f.calls + 1 } := by
  have hover : MovFile.overwrite (header v ++ after) 20 (pack32Be w) =
      header w ++ after := by
    have h : MovFile.overwrite (atom ftyp buildFtypPayload ++
        (pack32Be v ++ (mdat ++ after))) 20 (pack32Be w) =
        atom ftyp buildFtypPayload ++ (pack32Be w ++ (mdat ++ after)) :=
      overwrite_middle (atom ftyp buildFtypPayload) (pack32Be v)
        (mdat ++ after) rfl
    simp only [header, List.append_assoc]
    exact h
  have hwrite := write_whole (f := f.seek 20) hwhole
  rw [MovFile.patchU32At, MovFile.writeU32, hwrite]
  simp only [MovFile.seek, hbytes, hover]

theorem row_fileRow (r : MjpegMovRecorder) (payload : Bytes) :
    row (r.fileRow payload) = header (8 + payload.length) ++ payload ++
      box moov (row r.moovRow) := by
  simp only [fileRow, row, List.flatMap_cons, List.flatMap_nil, List.append_nil,
    List.append_assoc, header, box]
  rfl

/-- What `stop` leaves is a row of boxes. -/
theorem stop_row {payload : Bytes} (hopen : r.file.isOpen = true)
    (hbytes : r.file.bytes = header 0 ++ payload)
    (hpos : r.file.pos = r.file.bytes.length) (hoffset : r.mdatSizeOffset = 20)
    (hwhole : r.StopWhole env) :
    (r.stop env).file.bytes = row (r.fileRow payload) := by
  obtain ⟨hsize, hmoov⟩ := hwhole
  have hheader : ∀ size, (header size).length = 28 := fun _ => rfl
  have hend : r.file.pos = (header (8 + payload.length) ++ payload).length := by
    rw [hpos, hbytes, List.length_append, List.length_append, hheader, hheader]
  have height : r.file.pos - r.mdatSizeOffset = 8 + payload.length := by
    rw [hend, hoffset, List.length_append, hheader]
    omega
  rw [height] at hsize
  have hpatched : r.file.patchU32At env r.mdatSizeOffset
      (r.file.pos - r.mdatSizeOffset) = { r.file with
        bytes := header (8 + payload.length) ++ payload
        calls := r.file.calls + 1 } := by
    rw [height, hoffset, patch_whole hbytes hsize]
  have hwritten := write_end_whole (f := { r.file with
    bytes := header (8 + payload.length) ++ payload
    calls := r.file.calls + 1 }) hend hmoov
  have hbox : ∀ r' : MjpegMovRecorder, r' = { r with file := { r.file with
      bytes := header (8 + payload.length) ++ payload
      calls := r.file.calls + 1 } } → r'.moovBox = r.moovBox := by
    rintro r' rfl
    rfl
  have hmade : (writeMoov env { r with file := { r.file with
      bytes := header (8 + payload.length) ++ payload
      calls := r.file.calls + 1 } }).file.bytes =
      header (8 + payload.length) ++ payload ++ r.moovBox := by
    rw [writeMoov, hbox _ rfl]
    dsimp only
    rw [hwritten]
  rw [stop, if_neg (by rw [hopen]; decide)]
  dsimp only [MovFile.close]
  rw [hpatched, hmade, moovBox_row, row_fileRow]

/-- In a recording in which the boxes are written and no frame is written behind
a part of one, the player finds the frames that were accepted. -/
theorem frames_located (env : MovEnv Image) (r : MjpegMovRecorder) (path : String)
    (width height fps : Int) (pushes : List (Image × Int)) :
    let started := r.start env path width height fps
    let pushed := pushFrames env pushes started.1
    started.2 = true → r.HeaderWhole env →
    (∀ x ∈ trail (fun r p => (pushFrame env p.1 p.2 r).1) started.1 pushes,
      x.1.Spared env x.2) →
    pushed.1.StopWhole env → (pushed.1.stop env).file.bytes.length < 2 ^ 32 →
    Locates (pushed.1.stop env).file.bytes pushed.2 := by
  intro started pushed hstart hheader hpushes hstop hsmall
  obtain ⟨part, h⟩ := (recording_start hstart hheader).pushes hpushes
  rw [List.nil_append] at h
  have hrow : (pushed.1.stop env).file.bytes =
      row (pushed.1.fileRow (pushed.2.flatten ++ part)) :=
    stop_row h.isOpen h.bytes h.pos h.sizeOffset hstop
  rw [hrow] at hsmall ⊢
  have hpayload : (pushed.2.flatten ++ part).length ≤
      (row (pushed.1.fileRow (pushed.2.flatten ++ part))).length :=
    length_le_row (x := (mdat, _)) (by simp [fileRow])
  -- every frame is smaller than the file
  have hsizes : pushed.1.frames.map Sample.size = pushed.2.map List.length := by
    rw [h.sizes]
    refine List.map_congr_left fun f hf => Nat.mod_eq_of_lt ?_
    have hle : f.length ≤ pushed.2.flatten.length :=
      (List.sublist_flatten_of_mem hf).length_le
    rw [List.length_append] at hpayload
    omega
  have hless : ∀ n ∈ pushed.1.frames.map Sample.size, n < 2 ^ 32 := by
    rw [h.sizes]
    intro n hn
    obtain ⟨f, -, rfl⟩ := List.mem_map.mp hn
    exact Nat.mod_lt _ (by decide)
  have hstart : pushed.1.mdatPayloadStart < 2 ^ 32 := by
    rw [h.payloadStart]
    decide
  have hcut := cut_flatten (header (8 + (pushed.2.flatten ++ part).length))
    (part ++ box moov (row pushed.1.moovRow)) pushed.2
  refine ⟨file_tiles _ _ hsmall, ?_⟩
  rw [samples_row hsmall hless hstart, hsizes, h.payloadStart]
  split
  · next hnone =>
    have hnil : pushed.2 = [] := by
      have hlength := congrArg List.length hsizes
      rw [List.length_map, List.length_map, hnone] at hlength
      exact List.length_eq_zero_iff.mp hlength.symm
    rw [hnil]
    rfl
  · refine congrArg some (Eq.trans ?_ hcut)
    rw [row_fileRow]
    simp only [List.append_assoc]
    rfl

/-- A file that takes `k` bytes of its `n`-th call, and all of the others. The
calls of a recording are an open, three writes of `start`, the frames, and two
writes of `stop`. -/
private def faltering (n : Nat) (k : Option Nat) : MovEnv Bytes where
  opens _ := true
  takes m data := if m = n then k else some data.length
  isNull := List.isEmpty
  size _ := (2, 2)
  scaled _ _ := id
  isRgb888 _ := true
  convertToRgb888 := id
  saveJpeg _ := some

private def recorded (env : MovEnv Bytes) : MjpegMovRecorder × List Bytes :=
  pushFrames env [([0xFF, 0xD8, 0x01], 85), ([0xFF, 0xD8, 0x02], 85)]
    (({} : MjpegMovRecorder).start env "kvm.mov" 2 2 5).1

set_option maxRecDepth 10000 in
/-- The first frame is refused, and nothing of it taken. -/
theorem frames_located_refused :
    (recorded (faltering 4 none)).2 = [[0xFF, 0xD8, 0x02]] ∧
      Locates ((recorded (faltering 4 none)).1.stop
        (faltering 4 none)).file.bytes [[0xFF, 0xD8, 0x02]] :=
  ⟨by decide, frames_located (faltering 4 none) {} "kvm.mov" 2 2 5
    [([0xFF, 0xD8, 0x01], 85), ([0xFF, 0xD8, 0x02], 85)] (by decide)
    (by decide) (by decide) (by decide)
    (by decide)⟩

set_option maxRecDepth 10000 in
/-- One byte of the first frame is taken, and the player finds the second from
that byte on. And a short write of `moov` leaves a box that ends too early. -/
theorem frames_shifted :
    let env := faltering 4 (some 1)
    let short := faltering 7 (some 9)
    ((recorded env).2 = [[0xFF, 0xD8, 0x02]] ∧
      samples ((recorded env).1.stop env).file.bytes =
        some [[0xFF, 0xFF, 0xD8]] ∧
      ¬ Locates ((recorded env).1.stop env).file.bytes (recorded env).2) ∧
    ¬ Locates ((recorded short).1.stop short).file.bytes (recorded short).2 := by
  decide

end MjpegMovRecorder

end QuMesh.App
