import QuMesh.Kvm.Tile
import QuMesh.Proofs.KvmStable

/-!
# An honest tile is decoded, and to its pixels

`tile_exact` goes through the five forms of a body once, `decodeRleInner_tile`,
and then through the frame around it. Behind the marker two things have to
work out: the ceiling that a length is checked against is above every
well-formed body, `tile_within`, and the marker's 16 bits wrap for a large one
on the server's side as they do in the comparison, `marker_seen`.

Behind the inflate stream neither is a matter of the body. Empty stored blocks
make a block as long as one likes, and a block that goes on with a stored block
announced before it can have any bytes, the marker's too; `tile_rejected` is
one of each. `Framed` asks for a block that is neither.
-/

namespace QuMesh.Kvm

open QuMesh.Lib

variable {f : PixelFormat}

/-! ## Pixels -/

theorem length_wireBytes (p : Wire f) :
    (wireBytes f p).length = bytesPerPixel f := by
  cases f <;> rfl

theorem uint16_of_bytes (v : UInt16) :
    (UInt8.ofNat v.toNat).toUInt16 |||
      ((UInt8.ofNat (v.toNat / 2 ^ 8)).toUInt16 <<< 8) = v := by
  have hv : v.toNat < 2 ^ 16 := v.toNat_lt
  have hlo : v.toNat % 2 ^ 8 < 2 ^ 8 := Nat.mod_lt _ (by decide)
  have hshift : (v.toNat / 2 ^ 8) <<< ((8 : UInt16).toNat % 16) % 2 ^ 16 =
      (v.toNat / 2 ^ 8) <<< 8 := by
    rw [Nat.shiftLeft_eq, Nat.shiftLeft_eq]
    show v.toNat / 2 ^ 8 * 2 ^ 8 % 2 ^ 16 = v.toNat / 2 ^ 8 * 2 ^ 8
    omega
  apply UInt16.toNat_inj.mp
  rw [UInt16.toNat_or, UInt16.toNat_shiftLeft, UInt8.toNat_toUInt16,
    UInt8.toNat_toUInt16, UInt8.toNat_ofNat', UInt8.toNat_ofNat', Nat.or_comm,
    Nat.mod_eq_of_lt (show v.toNat / 2 ^ 8 < 2 ^ 8 by omega), hshift,
    ← Nat.shiftLeft_add_eq_or_of_lt hlo, Nat.shiftLeft_eq]
  omega

theorem pullPixel_wire (p : Wire f) (rest : Bytes) :
    pullPixel f (wireBytes f p ++ rest) = some (wireArgb f p, rest) := by
  cases f with
  | rgb565 =>
      have hv := uint16_of_bytes p
      simp only [wireBytes, pack16Le, List.cons_append, List.nil_append, pullPixel, hv]
      rfl
  | rgb332 => rfl

theorem pullPixels_wire (ps : List (Wire f)) (rest : Bytes) :
    pullPixels f ps.length (ps.flatMap (wireBytes f) ++ rest) =
      some (ps.map (wireArgb f), rest) := by
  induction ps with
  | nil => rfl
  | cons p ps ih =>
      rw [List.flatMap_cons, List.append_assoc, List.length_cons, pullPixels,
        pullPixel_wire]
      dsimp only
      rw [ih]
      rfl

theorem length_flatMap_wire (ps : List (Wire f)) :
    (ps.flatMap (wireBytes f)).length = ps.length * bytesPerPixel f := by
  induction ps with
  | nil => simp
  | cons p ps ih =>
      rw [List.flatMap_cons, List.length_append, length_wireBytes, ih,
        List.length_cons, Nat.succ_mul]
      omega

/-! ## Runs -/

theorem readRun_runLength (run extra : Nat) (rest : Bytes) :
    readRun run (runLength extra ++ rest) = some (run + extra, rest) := by
  have hblocks : ∀ (k run : Nat) (last : Bytes),
      readRun run (List.replicate k 0xFF ++ last) = readRun (run + 255 * k) last := by
    intro k
    induction k with
    | zero => exact fun run last => rfl
    | succ k ih =>
        intro run last
        rw [List.replicate_succ, List.cons_append, readRun, if_pos rfl, ih]
        congr 1
        omega
  have hlt : extra % 255 < 255 := Nat.mod_lt _ (by decide)
  have hlast : (UInt8.ofNat (extra % 255)).toNat = extra % 255 := by
    rw [UInt8.toNat_ofNat']
    omega
  have hne : UInt8.ofNat (extra % 255) ≠ 0xFF := by
    intro h
    have := congrArg UInt8.toNat h
    rw [hlast] at this
    have h255 : (0xFF : UInt8).toNat = 255 := rfl
    omega
  rw [runLength, List.append_assoc, hblocks, List.singleton_append, readRun,
    if_neg hne, hlast]
  congr 2
  omega

theorem length_runLength (extra : Nat) :
    (runLength extra).length = extra / 255 + 1 := by
  simp [runLength]

/-- Runs of a pixel, one after the other. -/
theorem decodeRuns_wire (rs : List (Wire f × Nat)) {fuel left : Nat}
    (hleft : (rs.flatMap fun r => List.replicate (r.2 + 1) r.1).length = left)
    (hfuel : left ≤ fuel) :
    decodeRuns f fuel left
        (rs.flatMap fun r => wireBytes f r.1 ++ runLength r.2) =
      some ((rs.flatMap fun r => List.replicate (r.2 + 1) r.1).map
        (wireArgb f)) := by
  induction rs generalizing fuel left with
  | nil =>
      rw [← hleft]
      cases fuel <;> rfl
  | cons r rs ih =>
      rw [List.flatMap_cons, List.length_append, List.length_replicate] at hleft
      obtain ⟨fuel, rfl⟩ : ∃ k, fuel = k + 1 := ⟨fuel - 1, by omega⟩
      obtain ⟨left, rfl⟩ : ∃ k, left = k + 1 := ⟨left - 1, by omega⟩
      rw [List.flatMap_cons, List.append_assoc, decodeRuns, pullPixel_wire]
      dsimp only
      rw [readRun_runLength]
      dsimp only
      rw [show min (1 + r.2) (left + 1) = r.2 + 1 by omega,
        @ih fuel (left + 1 - (r.2 + 1)) (by omega) (by omega)]
      rw [List.flatMap_cons, List.map_append, List.map_replicate]
      rfl

/-! ## Packed indices -/

theorem unpack_pack {br : Nat} (hbr : br = 1 ∨ br = 2 ∨ br = 4)
    {row : List Nat} (hlen : row.length = 8 / br)
    (h : ∀ i ∈ row, i < 2 ^ br) : unpackByte br (packByte br row) = row := by
  rcases hbr with rfl | rfl | rfl
  · match row, hlen with
    | [a, b, c, d, e, f, g, k], _ =>
        simp only [List.forall_mem_cons] at h
        simp [packByte, unpackByte, List.range, List.range.loop]
        omega
  · match row, hlen with
    | [a, b, c, d], _ =>
        simp only [List.forall_mem_cons] at h
        simp [packByte, unpackByte, List.range, List.range.loop]
        omega
  · match row, hlen with
    | [a, b], _ =>
        simp only [List.forall_mem_cons] at h
        simp [packByte, unpackByte, List.range, List.range.loop]
        omega

theorem unpackIndices_pack {br : Nat} (hbr : br = 1 ∨ br = 2 ∨ br = 4)
    (palette : List UInt32) {rows : List (List Nat)}
    (hrows : ∀ row ∈ rows, row.length = 8 / br ∧ ∀ i ∈ row, i < 2 ^ br)
    (left : Nat) :
    unpackIndices br palette left (rows.map (packByte br)) =
      (rows.flatten.take left).map fun i => palette.getD i 0 := by
  induction rows generalizing left with
  | nil => cases left <;> simp [unpackIndices]
  | cons row rows ih =>
      cases left with
      | zero => simp [unpackIndices]
      | succ left =>
          obtain ⟨hlen, hrow⟩ := hrows row List.mem_cons_self
          rw [List.map_cons, unpackIndices, unpack_pack hbr hlen hrow,
            ih (fun r hr => hrows r (List.mem_cons_of_mem _ hr)),
            List.flatten_cons, List.take_append, List.map_append,
            ← List.map_take, List.length_map, List.length_take]
          rw [show left + 1 - min (left + 1) row.length =
            left + 1 - row.length by omega]

/-! ## Runs of palette entries -/

theorem indexByte {index : Nat} (h : index < 128) :
    (UInt8.ofNat index &&& 0x80 = 0 ∧
      (UInt8.ofNat index &&& 0x7F).toNat = index) ∧
    UInt8.ofNat (index + 128) &&& 0x80 ≠ 0 ∧
      (UInt8.ofNat (index + 128) &&& 0x7F).toNat = index := by
  revert index
  decide

/-- One entry and its run. -/
theorem readIndex_bytes {palette : List UInt32} {r : PaletteRun} {c : UInt32}
    (hc : palette[r.index]? = some c) (hindex : r.index < 128) (rest : Bytes) :
    ∃ b tail, r.bytes ++ rest = b :: tail ∧
      readIndex palette b tail = some (c, r.count, rest) := by
  obtain ⟨⟨hone, hlow⟩, hrun, hlow'⟩ := indexByte hindex
  obtain ⟨index, extra⟩ := r
  cases extra with
  | none =>
      refine ⟨_, rest, rfl, ?_⟩
      simp only [readIndex, hlow, hc, if_pos hone]
      rfl
  | some extra =>
      refine ⟨_, runLength extra ++ rest, rfl, ?_⟩
      simp only [readIndex, hlow', hc, if_neg hrun, readRun_runLength]
      simp [PaletteRun.count, Nat.add_comm]

/-- A run of one entry is a run of its pixel. -/
theorem replicate_entry {o : Option (Wire f)} {n : Nat} {px : List (Wire f)}
    (hn : 0 < n) (h : px.map some = List.replicate n o) :
    ∃ c, o = some c ∧ px = List.replicate n c := by
  obtain ⟨hlen, hall⟩ := List.eq_replicate_iff.mp h
  rw [List.length_map] at hlen
  cases px with
  | nil =>
      rw [← hlen] at hn
      cases hn
  | cons c px =>
      have hc : some c = o := hall _ List.mem_cons_self
      refine ⟨c, hc.symm, List.eq_replicate_iff.mpr ⟨hlen, fun b hb => ?_⟩⟩
      have hb := hall (some b) (List.mem_map_of_mem hb)
      exact Option.some.inj (hb.trans hc.symm)

theorem decodePaletteRuns_bytes {palette : List (Wire f)}
    (hsize : palette.length ≤ 127) (rs : List PaletteRun)
    {px : List (Wire f)} {fuel left : Nat}
    (hpx : rs.flatMap (fun r => List.replicate r.count palette[r.index]?) =
      px.map some)
    (hleft : px.length = left) (hfuel : left ≤ fuel) :
    decodePaletteRuns (palette.map (wireArgb f)) fuel left
        (rs.flatMap PaletteRun.bytes) = some (px.map (wireArgb f)) := by
  induction rs generalizing px fuel left with
  | nil =>
      have hnil : px = [] := by simpa using hpx.symm
      subst hnil
      rw [← hleft]
      cases fuel <;> rfl
  | cons r rs ih =>
      rw [List.flatMap_cons] at hpx
      obtain ⟨row, rest, rfl, hrow, hrest⟩ := List.append_eq_map_iff.mp hpx
      have hcount : 0 < r.count := Nat.succ_pos _
      obtain ⟨c, hc, rfl⟩ := replicate_entry hcount hrow
      have hindex := (List.getElem?_eq_some_iff.mp hc).1
      have hmap : (palette.map (wireArgb f))[r.index]? = some (wireArgb f c) := by
        rw [List.getElem?_map, hc]
        rfl
      obtain ⟨b, tail, hbytes, hread⟩ := readIndex_bytes hmap (by omega)
        (rs.flatMap PaletteRun.bytes)
      rw [List.length_append, List.length_replicate] at hleft
      obtain ⟨fuel, rfl⟩ : ∃ k, fuel = k + 1 := ⟨fuel - 1, by omega⟩
      obtain ⟨left, rfl⟩ : ∃ k, left = k + 1 := ⟨left - 1, by omega⟩
      rw [List.flatMap_cons, hbytes, decodePaletteRuns, hread]
      dsimp only
      rw [show min r.count (left + 1) = r.count by omega,
        @ih rest fuel (left + 1 - r.count) hrest.symm (by omega) (by omega)]
      rw [List.map_append, List.map_replicate]
      rfl

/-! ## A tile -/

theorem packedBits_cases (n : Nat) :
    packedBits n = 1 ∨ packedBits n = 2 ∨ packedBits n = 4 := by
  rw [packedBits]
  split
  · exact Or.inl rfl
  · split
    · exact Or.inr (Or.inl rfl)
    · exact Or.inr (Or.inr rfl)

/-- `decodeRleInner` takes every well-formed body to its pixels. -/
theorem decodeRleInner_tile {t : Tile f} {px : List (Wire f)}
    {rect : RectHeader} (h : t.Encodes px) (hlen : px.length = rect.w * rect.h) :
    decodeRleInner t.inner t.subencoding rect f =
      some (px.map (wireArgb f)) := by
  cases t with
  | raw pixels =>
      have h : pixels = px := h
      subst h
      have hall := pullPixels_wire pixels []
      rw [List.append_nil] at hall
      simp only [decodeRleInner, Tile.inner, Tile.subencoding, if_true, ← hlen,
        length_flatMap_wire, Nat.lt_irrefl, if_false, hall]
      rfl
  | solid pixel =>
      have hone := pullPixel_wire pixel []
      rw [List.append_nil] at hone
      have h : px = List.replicate px.length pixel := h
      rw [h, List.map_replicate, hlen]
      simp [decodeRleInner, Tile.inner, Tile.subencoding, hone]
  | packed palette rows =>
      obtain ⟨⟨htwo, hsixteen⟩, hrows, -, hpx⟩ := h
      have hall := pullPixels_wire palette
        (rows.map (packByte (packedBits palette.length)))
      -- The palette looked up in colours is the pixels' colours.
      have hcolours : (rows.flatten.take px.length).map (fun i =>
          (palette.map (wireArgb f)).getD i 0) = px.map (wireArgb f) := by
        have := congrArg (List.map fun o : Option (Wire f) =>
          (o.map (wireArgb f)).getD 0) hpx
        simpa [Function.comp_def, List.getD_eq_getElem?_getD] using this
      have hindices := unpackIndices_pack (packedBits_cases _)
        (palette.map (wireArgb f)) hrows px.length
      rw [hcolours] at hindices
      show decodeRleInner (palette.flatMap (wireBytes f) ++
        rows.map (packByte (packedBits palette.length))) palette.length rect f = _
      simp only [decodeRleInner, hall, ← hlen, hindices]
      rw [if_neg (by omega), if_neg (by omega), if_pos ⟨htwo, hsixteen⟩,
        if_pos (by simp)]
  | runs rs =>
      have h : px = rs.flatMap fun r => List.replicate (r.2 + 1) r.1 := h
      subst h
      have hruns := decodeRuns_wire rs hlen (Nat.le_refl _)
      simpa [decodeRleInner, Tile.inner, Tile.subencoding] using hruns
  | paletteRuns palette rs =>
      obtain ⟨⟨htwo, hsize⟩, hpx⟩ := h
      have hall := pullPixels_wire palette (rs.flatMap PaletteRun.bytes)
      have hruns := decodePaletteRuns_bytes hsize rs hpx hlen (Nat.le_refl _)
      simp only [decodeRleInner, Tile.inner, Tile.subencoding,
        Nat.add_sub_cancel, hall]
      rw [if_neg (by omega), if_neg (by omega), if_neg (by omega),
        if_neg (by omega), if_pos (by omega)]
      exact hruns

/-! ## Its size -/

/-- Bytes for runs of pixels, at most `c` for each pixel. -/
theorem flatMap_length_le {α β : Type} (rs : List α) {body : α → Bytes}
    {count : α → Nat} {value : α → β} {c : Nat}
    (h : ∀ r, (body r).length ≤ count r * c) :
    (rs.flatMap body).length ≤
      (rs.flatMap fun r => List.replicate (count r) (value r)).length * c := by
  induction rs with
  | nil => simp
  | cons r rs ih =>
      have hr := h r
      rw [List.flatMap_cons, List.length_append, List.flatMap_cons,
        List.length_append, List.length_replicate, Nat.add_mul]
      omega

theorem length_flatten_rows {rows : List (List Nat)} {m : Nat}
    (h : ∀ row ∈ rows, row.length = m) :
    rows.flatten.length = rows.length * m := by
  induction rows with
  | nil => simp
  | cons row rows ih =>
      rw [List.flatten_cons, List.length_append, h row List.mem_cons_self,
        ih fun r hr => h r (List.mem_cons_of_mem _ hr), List.length_cons,
        Nat.succ_mul]
      omega

theorem bytesPerPixel_cases (f : PixelFormat) :
    bytesPerPixel f = 1 ∨ bytesPerPixel f = 2 := by
  cases f
  · exact Or.inr rfl
  · exact Or.inl rfl

/-- The ceiling's count is above every well-formed body of at least one
pixel. -/
theorem tile_within {t : Tile f} {px : List (Wire f)} (h : t.Encodes px)
    (hpos : 0 < px.length) :
    t.inner.length ≤ px.length * (bytesPerPixel f + 1) + 127 * 2 := by
  have hbpp := bytesPerPixel_cases f
  cases t with
  | raw pixels =>
      have h : pixels = px := h
      rw [Tile.inner, length_flatMap_wire, h, Nat.mul_succ]
      omega
  | solid pixel =>
      rw [Tile.inner, length_wireBytes]
      omega
  | packed palette rows =>
      obtain ⟨⟨-, hsixteen⟩, hrows, hshort, -⟩ := h
      rw [length_flatten_rows fun row hr => (hrows row hr).1] at hshort
      rw [Tile.inner, List.length_append, length_flatMap_wire, List.length_map]
      have hbits := packedBits_cases palette.length
      have hrowlen : rows.length ≤ px.length := by
        rcases hbits with hb | hb | hb <;> rw [hb] at hshort <;> omega
      have hpal : palette.length * bytesPerPixel f ≤ 16 * 2 :=
        Nat.mul_le_mul hsixteen (by omega)
      rw [Nat.mul_succ]
      omega
  | runs rs =>
      have h : px = rs.flatMap fun r => List.replicate (r.2 + 1) r.1 := h
      rw [h]
      refine Nat.le_add_right_of_le (flatMap_length_le rs fun r => ?_)
      rw [List.length_append, length_wireBytes, length_runLength]
      rcases hbpp with hb | hb <;> rw [hb] <;> omega
  | paletteRuns palette rs =>
      obtain ⟨⟨-, hsize⟩, hpx⟩ := h
      have hlen := congrArg List.length hpx
      rw [List.length_map] at hlen
      have hruns : (rs.flatMap PaletteRun.bytes).length ≤ px.length * 2 := by
        rw [← hlen]
        refine flatMap_length_le rs fun r => ?_
        obtain ⟨index, extra⟩ := r
        cases extra with
        | none => simp [PaletteRun.bytes, PaletteRun.count]
        | some extra =>
            simp only [PaletteRun.bytes, PaletteRun.count, List.length_cons,
              length_runLength, Option.getD_some]
            omega
      have hpal : palette.length * bytesPerPixel f ≤ 127 * 2 :=
        Nat.mul_le_mul hsize (by omega)
      rw [Tile.inner, List.length_append, length_flatMap_wire]
      have hpx : px.length * 2 ≤ px.length * (bytesPerPixel f + 1) :=
        Nat.mul_le_mul_left _ (by omega)
      omega

/-! ## The block around it -/

theorem read16Le_marker (a b : UInt8) (body : Bytes) :
    read16Le (markerBlock a b body) 1 = body.length % 65536 := by
  have h0 : byteAt (markerBlock a b body) 1 = body.length % 256 := by
    simp [byteAt, markerBlock, pack16Le]
  have h1 : byteAt (markerBlock a b body) 2 = body.length / 256 % 256 := by
    simp [byteAt, markerBlock, pack16Le]
  rw [read16Le, h0, h1]
  omega

theorem length_markerBlock (a b : UInt8) (body : Bytes) :
    (markerBlock a b body).length = body.length + 5 := by
  simp [markerBlock, pack16Le]

/-- The 16 bits of the marker wrap on both sides. -/
theorem marker_seen (a b : UInt8) {body : Bytes} (h : body ≠ []) :
    uncompressedMarker (markerBlock a b body) = true := by
  have hpos := List.length_pos_iff.mpr h
  have hzero : byteAt (markerBlock a b body) 0 = 0 := rfl
  simp only [uncompressedMarker, read16Le_marker, length_markerBlock, hzero]
  simp
  omega

theorem read32Be_pack32Be {n : Nat} (h : n < 2 ^ 32) (rest : Bytes) :
    read32Be (pack32Be n ++ rest) 0 = n := by
  have h0 : byteAt (pack32Be n ++ rest) 0 = n / 2 ^ 16 / 2 ^ 8 % 256 := by
    simp [byteAt, pack32Be, pack16Be]
  have h1 : byteAt (pack32Be n ++ rest) 1 = n / 2 ^ 16 % 256 := by
    simp [byteAt, pack32Be, pack16Be]
  have h2 : byteAt (pack32Be n ++ rest) 2 = n / 2 ^ 8 % 256 := by
    simp [byteAt, pack32Be, pack16Be]
  have h3 : byteAt (pack32Be n ++ rest) 3 = n % 256 := by
    simp [byteAt, pack32Be, pack16Be]
  rw [read32Be, read16Be, read16Be, h0, h1, h2, h3]
  omega

theorem subencoding_lt {t : Tile f} {px : List (Wire f)} (h : t.Encodes px) :
    t.subencoding < 256 := by
  cases t with
  | packed palette rows =>
      have := h.1.2
      simp only [Tile.subencoding]
      omega
  | paletteRuns palette rs =>
      have := h.1.2
      simp only [Tile.subencoding]
      omega
  | raw pixels => exact show 0 < 256 by decide
  | solid pixel => exact show 1 < 256 by decide
  | runs rs => exact show 128 < 256 by decide

section

variable {z : Zlib} {rect : RectHeader}

theorem maxBlock_lt (hw : rect.w ≤ 4096) (hh : rect.h ≤ 4096) :
    maxBlock f rect < 2 ^ 31 := by
  have hpixels : rect.w * rect.h ≤ 4096 * 4096 := Nat.mul_le_mul hw hh
  have hbpp := bytesPerPixel_cases f
  have hinner : rect.w * rect.h * (bytesPerPixel f + 1) ≤ 4096 * 4096 * 3 :=
    Nat.mul_le_mul hpixels (by omega)
  simp only [maxBlock]
  omega

/-- The length that a block is announced with, and the block behind it. -/
theorem payload_block {block : Bytes} (hlt : block.length < 2 ^ 31)
    (rest : Bytes) :
    signed32 (read32Be (pack32Be block.length ++ block ++ rest) 0) =
        block.length ∧
      ((pack32Be block.length ++ block ++ rest).drop 4).take block.length =
        block ∧
      (pack32Be block.length ++ block ++ rest).length =
        4 + block.length + rest.length := by
  have hfour : (pack32Be block.length).length = 4 := rfl
  refine ⟨?_, ?_, ?_⟩
  · rw [List.append_assoc, read32Be_pack32Be (by omega)]
    exact if_pos (by omega)
  · rw [List.append_assoc, ← hfour, List.drop_left, List.take_left]
  · rw [List.length_append, List.length_append, hfour]

section

variable {block : Bytes} (hpos : 0 < block.length)
  (hmax : block.length ≤ maxBlock f rect) (hlt : maxBlock f rect < 2 ^ 31)

include hpos hmax hlt

theorem decodeRle_marker (hmark : uncompressedMarker block = true)
    (stream : Option (InflateStream z)) (rest : Bytes) :
    decodeRle (pack32Be block.length ++ block ++ rest) rect stream f =
      tileDecoding (decodeRleInner (block.drop 6) (byteAt block 5) rect f) rect
        (4 + block.length) stream := by
  obtain ⟨hread, hview, hlength⟩ := payload_block (Nat.lt_of_le_of_lt hmax hlt) rest
  simp only [decodeRle, hread, Int.toNat_natCast, hview, hmark, if_true]
  rw [if_neg (by omega), if_neg (by omega), if_neg (by omega),
    if_neg (by omega)]

theorem decodeRle_inflated (hmark : uncompressedMarker block = false)
    {stream stream' : InflateStream z} {sub : UInt8} {inner : Bytes}
    (yields : stream.inflate block = (stream', some (sub :: inner)))
    (rest : Bytes) :
    decodeRle (pack32Be block.length ++ block ++ rest) rect (some stream) f =
      tileDecoding (decodeRleInner inner sub.toNat rect f) rect
        (4 + block.length) (some stream') := by
  obtain ⟨hread, hview, hlength⟩ := payload_block (Nat.lt_of_le_of_lt hmax hlt) rest
  simp only [decodeRle, hread, Int.toNat_natCast, hview, hmark, yields,
    Bool.false_eq_true, if_false]
  rw [if_neg (by omega), if_neg (by omega), if_neg (by omega),
    if_neg (by omega)]

end

theorem tryDecodeRect_rle (henc : rect.encoding = encRle)
    (hw : 1 ≤ rect.w ∧ rect.w ≤ 4096) (hh : 1 ≤ rect.h ∧ rect.h ≤ 4096)
    {payload : Bytes} {stream : Option (InflateStream z)} :
    tryDecodeRect payload rect stream f = decodeRle payload rect stream f := by
  rw [tryDecodeRect, if_neg (by rw [henc]; decide), if_neg (by omega),
    if_neg (by omega), if_neg (by rw [henc]; decide), if_pos henc]

/-- A well-formed tile in one of its framings. -/
theorem tryDecodeRect_tile (henc : rect.encoding = encRle)
    (hw : 1 ≤ rect.w ∧ rect.w ≤ 4096) (hh : 1 ≤ rect.h ∧ rect.h ≤ 4096)
    {px : List (Wire f)} (hlen : px.length = rect.w * rect.h) {t : Tile f}
    (ht : t.Encodes px) {stream stream' : Option (InflateStream z)}
    {block : Bytes} (hblock : Framed f rect t.bytes stream block stream')
    (rest : Bytes) :
    tryDecodeRect (pack32Be block.length ++ block ++ rest) rect stream f =
      { status := .ok
        rect := { image := some ⟨rect.w, rect.h, px.map (wireArgb f)⟩ }
        consumed := 4 + block.length
        inflate := stream' } := by
  have hinner := decodeRleInner_tile ht hlen
  have hsub : (UInt8.ofNat t.subencoding).toNat = t.subencoding := by
    rw [UInt8.toNat_ofNat']
    exact Nat.mod_eq_of_lt (subencoding_lt ht)
  have hlt := maxBlock_lt (f := f) hw.2 hh.2
  rw [tryDecodeRect_rle henc hw hh]
  cases hblock with
  | marker a b =>
      have hpos : 0 < px.length := by
        rw [hlen]
        exact Nat.mul_pos hw.1 hh.1
      have hbody : t.bytes.length = t.inner.length + 1 := rfl
      have hsize := tile_within ht hpos
      have hmax : (markerBlock a b t.bytes).length ≤ maxBlock f rect := by
        rw [length_markerBlock, maxBlock, ← hlen]
        omega
      rw [decodeRle_marker (by rw [length_markerBlock]; omega) hmax hlt
        (marker_seen a b (by simp [Tile.bytes]))]
      have hfive : byteAt (markerBlock a b t.bytes) 5 = t.subencoding := hsub
      have hsix : (markerBlock a b t.bytes).drop 6 = t.inner := rfl
      rw [hfive, hsix, hinner]
      rfl
  | inflated yields plain some_bytes within =>
      rw [decodeRle_inflated (List.length_pos_iff.mpr some_bytes) within hlt
        plain yields, hsub, hinner]
      rfl

/-- Every well-formed tile, in every framing: decoded, to exactly its pixels,
off the stream by its length and the block's. -/
theorem tile_exact (henc : rect.encoding = encRle)
    (hw : 1 ≤ rect.w ∧ rect.w ≤ 4096) (hh : 1 ≤ rect.h ∧ rect.h ≤ 4096)
    {px : List (Wire f)} (hlen : px.length = rect.w * rect.h) {t : Tile f}
    (ht : t.Encodes px) {stream stream' : Option (InflateStream z)}
    {block : Bytes} (hblock : Framed f rect t.bytes stream block stream')
    (rest : Bytes) :
    tryDecodeRect (pack32Be block.length ++ block ++ rest) rect stream f =
      { status := .ok
        rect := { image := some ⟨rect.w, rect.h, px.map (wireArgb f)⟩ }
        consumed := 4 + block.length
        inflate := stream' } :=
  tryDecodeRect_tile henc hw hh hlen ht hblock rest

end

/-! ## Two blocks outside, and two inside -/

/-- A block the stream takes in one call. -/
theorem inflate_once {z : Zlib} {s : InflateStream z} {block : Bytes}
    (hinit : z.initialized = true) (hrc : (z.inflate s.zs block).rc = .ok)
    (hleft : (z.inflate s.zs block).left = [])
    (hshort : (z.inflate s.zs block).produced.length < kChunk) :
    s.inflate block = (⟨(z.inflate s.zs block).zs⟩,
      some (z.inflate s.zs block).produced) := by
  rw [InflateStream.inflate, if_pos hinit, InflateStream.loop]
  rw [if_neg (by rw [hrc]; decide), dif_pos (Or.inl hrc),
    dif_pos ⟨hleft, hshort⟩, List.nil_append]

/-- Stored blocks without content say nothing. -/
theorem go_empty_blocks (n : Nat) (tail : Bytes) (room : Nat) :
    Stored.go .block
        ((List.replicate n [0, 0, 0, 0xFF, 0xFF]).flatten ++ tail) room =
      Stored.go .block tail room := by
  induction n with
  | zero => rfl
  | succ n ih =>
      rw [List.replicate_succ, List.flatten_cons, List.append_assoc]
      exact ih

/-- One pixel behind 256 empty stored blocks: 1290 bytes where the ceiling is
at 1282. -/
def paddedBlock : Bytes :=
  [0x78, 0x01] ++ ((List.replicate 256 [0, 0, 0, 0xFF, 0xFF]).flatten ++
    [0, 3, 0, 0xFC, 0xFF, 1, 0x34, 0x12])

/-- The content of a stored block that was announced before, and that looks
like the marker. -/
def markerLikeBlock : Bytes := [0, 1, 0, 0, 0, 0]

/-- A block above the ceiling is turned down before it is looked at. -/
theorem decodeRle_over {block : Bytes} (hlt : block.length < 2 ^ 31)
    {rect : RectHeader} (hover : maxBlock f rect < block.length) {z : Zlib}
    (stream : Option (InflateStream z)) (rest : Bytes) :
    (decodeRle (pack32Be block.length ++ block ++ rest) rect stream f).status =
      .malformed := by
  obtain ⟨hread, -, hlength⟩ := payload_block hlt rest
  simp only [decodeRle, hread]
  rw [if_neg (by omega), if_neg (by omega), if_pos (by omega)]

theorem length_paddedBlock : paddedBlock.length = 1290 := by
  rw [paddedBlock, List.length_append, List.length_append, List.length_flatten,
    List.map_replicate, List.sum_replicate_nat]
  rfl

theorem go_zlib_header (tail : Bytes) (room : Nat) :
    Stored.go .header ([0x78, 0x01] ++ tail) room =
      Stored.go .block tail room := rfl

theorem paddedBlock_go :
    Stored.go .header paddedBlock kChunk = (.block, [], [1, 0x34, 0x12]) := by
  rw [paddedBlock, go_zlib_header, go_empty_blocks]
  decide

/-- Both blocks yield a well-formed body, and neither is decoded. -/
theorem tile_rejected :
    ((({} : InflateStream .stored).inflate paddedBlock).2 =
        some (Tile.solid (f := .rgb565) 0x1234).bytes ∧
      (Tile.solid (f := .rgb565) 0x1234).Encodes [(0x1234 : UInt16)] ∧
      (tryDecodeRect (pack32Be paddedBlock.length ++ paddedBlock)
        ⟨0, 0, 1, 1, 16⟩ (some ({} : InflateStream .stored)) .rgb565).status =
          .malformed) ∧
    ((⟨.data 6⟩ : InflateStream .stored).inflate markerLikeBlock).2 =
        some (Tile.raw (f := .rgb332) [(1 : UInt8), 0, 0, 0, 0]).bytes ∧
      (Tile.raw (f := .rgb332) [(1 : UInt8), 0, 0, 0, 0]).Encodes
        [(1 : UInt8), 0, 0, 0, 0] ∧
      (tryDecodeRect (pack32Be markerLikeBlock.length ++ markerLikeBlock)
        ⟨0, 0, 5, 1, 16⟩ (some (⟨.data 6⟩ : InflateStream .stored))
        .rgb332).status = .unsupportedSubencoding := by
  refine ⟨⟨?_, rfl, ?_⟩, ?_, rfl, ?_⟩
  · have hgo : Zlib.stored.inflate .header paddedBlock =
        ⟨.block, [], [1, 0x34, 0x12], .ok⟩ := by
      simp only [Zlib.stored, paddedBlock_go]
      rfl
    have hzs : ({} : InflateStream .stored).zs = .header := rfl
    rw [inflate_once rfl (by rw [hzs, hgo]) (by rw [hzs, hgo])
      (by rw [hzs, hgo]; decide), hzs, hgo]
    rfl
  · have hlength := length_paddedBlock
    have hover := @decodeRle_over .rgb565 paddedBlock (by omega)
      ⟨0, 0, 1, 1, 16⟩ (by rw [hlength]; decide) .stored (some {}) []
    rw [List.append_nil] at hover
    rw [tryDecodeRect_rle rfl (by decide) (by decide)]
    exact hover
  · rw [inflate_once rfl (by decide) (by decide) (by decide)]
    decide
  · decide

/-- Three pixels as runs, behind the marker. -/
def runsTile : Tile .rgb332 := .runs [((7 : UInt8), 1), ((9 : UInt8), 0)]

/-- A zlib header and one pixel in a stored block. -/
def storedBlock : Bytes := [0x78, 0x01, 0, 3, 0, 0xFC, 0xFF, 1, 0x34, 0x12]

/-- One of each framing. -/
theorem tile_exact_framings :
    tryDecodeRect (pack32Be (markerBlock 0 0 runsTile.bytes).length ++
        markerBlock 0 0 runsTile.bytes ++ []) ⟨0, 0, 3, 1, 16⟩
        (some ({} : InflateStream .stored)) .rgb332 =
      { status := .ok
        rect := { image := some ⟨3, 1,
          [rgb332ToArgb 7, rgb332ToArgb 7, rgb332ToArgb 9]⟩ }
        consumed := 14
        inflate := some {} } ∧
    tryDecodeRect (pack32Be storedBlock.length ++ storedBlock ++ [])
        ⟨0, 0, 1, 1, 16⟩ (some ({} : InflateStream .stored)) .rgb565 =
      { status := .ok
        rect := { image := some ⟨1, 1, [rgb565ToArgb 0x1234]⟩ }
        consumed := 14
        inflate := some ⟨.block⟩ } := by
  have hyields : ({} : InflateStream .stored).inflate storedBlock =
      (⟨.block⟩, some (Tile.solid (f := .rgb565) 0x1234).bytes) := by
    rw [inflate_once rfl (by decide) (by decide) (by decide)]
    rfl
  refine ⟨?_, ?_⟩
  · exact @tile_exact .rgb332 .stored ⟨0, 0, 3, 1, 16⟩ rfl (by decide)
      (by decide) [(7 : UInt8), (7 : UInt8), (9 : UInt8)] rfl runsTile rfl _ _ _
      (.marker 0 0 (some {})) []
  · exact @tile_exact .rgb565 .stored ⟨0, 0, 1, 1, 16⟩ rfl (by decide)
      (by decide) [(0x1234 : UInt16)] rfl (.solid 0x1234) rfl _ _ _
      (.inflated hyields (by decide) (by decide) (by decide)) []

end QuMesh.Kvm
