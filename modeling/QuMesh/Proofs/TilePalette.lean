import QuMesh.Proofs.TileBounds

/-!
# The palette's entries

Two of the tile decoder's forms index a palette. Where the indices are runs the
decoder compares each with the size of the palette; where they are packed it
masks them to the bits they have, and a palette of three colors, or of five to
fifteen, is smaller than what the mask leaves.

`decodeRleInnerInt_refines` says that the decoder with its `int`s returns what
the one on lists does wherever it returns, and `palette_safe_iff` when it reads
no entry that is not there.
-/

namespace QuMesh.Kvm

open QuMesh.Lib

variable {s : Nat} {ps : List UInt32} {t : Canvas}

/-! ## Packed indices -/

theorem paintIndices_append (palette : Array UInt32) (a b : List Nat)
    (t : Canvas) :
    paintIndices palette s (a ++ b) t =
      paintIndices palette s a t >>= paintIndices palette s b := by
  induction a generalizing t with
  | nil => rfl
  | cons index a ih =>
      rw [List.cons_append, paintIndices, paintIndices]
      split
      next hlt =>
        cases readAt palette index with
        | error e => rfl
        | ok c =>
            cases hone : t.paintOne c with
            | error e => rw [ok_bind, ok_bind, hone]; rfl
            | ok t' => rw [ok_bind, ok_bind, hone, ok_bind, ok_bind, ih]
      next hfull =>
        rw [ok_bind]
        cases b with
        | nil => rfl
        | cons index b => exact (if_neg hfull).symm

/-- The bytes of a packed tile are its indices, one after the other. -/
theorem paintPacked_eq (br : Nat) (palette : Array UInt32) (data : Bytes)
    (t : Canvas) :
    paintPacked br palette s data t =
      paintIndices palette s (data.flatMap (unpackByte br)) t := by
  induction data generalizing t with
  | nil => rfl
  | cons v rest ih =>
      rw [List.flatMap_cons, paintIndices_append, paintPacked]
      split
      next hlt =>
        cases paintIndices palette s (unpackByte br v) t with
        | error e => rfl
        | ok t' => exact ih t'
      next hfull =>
        have hstop : ∀ l, paintIndices palette s l t = .ok t := by
          intro l
          cases l with
          | nil => rfl
          | cons index l => exact if_neg hfull
        rw [hstop, ok_bind, hstop]

theorem readAt_outside {palette : List UInt32} {index : Nat}
    (h : palette.length ≤ index) :
    readAt palette.toArray index = .error .outside := by
  unfold readAt
  exact dif_neg (by simpa using h)

/-- The indices that there are pixels for are read, and no others. -/
theorem paintIndices_safe (hs : (s : Int) ≤ intMax) (palette : List UInt32)
    (indices : List Nat) (h : Painted s ps t) :
    SafeElse .outside (paintIndices palette.toArray s indices t)
      (Painted s (ps ++ (indices.take (s - ps.length)).map (palette.getD · 0)))
      (∀ i ∈ indices.take (s - ps.length), i < palette.length) := by
  induction indices generalizing ps t with
  | nil =>
      refine .of_safe (.ok ?_) (by simp)
      rw [List.take_nil, List.map_nil, List.append_nil]
      exact h
  | cons index row ih =>
      have hindex := h.index
      rw [paintIndices]
      by_cases hlt : ps.length < s
      · obtain ⟨left, hleft⟩ : ∃ n, s - ps.length = n + 1 :=
          ⟨s - ps.length - 1, by omega⟩
        rw [if_pos (by omega), hleft, List.take_succ_cons, List.map_cons,
          List.forall_mem_cons]
        by_cases hin : index < palette.length
        · have hget : palette[index]? = some palette[index] :=
            List.getElem?_eq_getElem hin
          rw [readAt_entry hget, ok_bind, List.getD_eq_getElem?_getD, hget]
          refine .bind_safe (paintOne_safe hs h hlt palette[index]) fun t' ht' => ?_
          have htail := ih ht'
          rw [List.length_append, List.length_singleton,
            show s - (ps.length + 1) = left by omega, List.append_assoc] at htail
          exact htail.congr (and_iff_right hin).symm
        · rw [readAt_outside (by omega)]
          exact .of_fault rfl fun hall => hin hall.1
      · rw [if_neg (by omega), show s - ps.length = 0 by omega]
        refine .of_safe (.ok ?_) (by simp)
        rw [List.take_zero, List.map_nil, List.append_nil]
        exact h

theorem unpackIndices_eq (br : Nat) (palette : List UInt32) (left : Nat)
    (data : Bytes) :
    unpackIndices br palette left data =
      ((data.flatMap (unpackByte br)).take left).map (palette.getD · 0) := by
  induction data generalizing left with
  | nil => simp [unpackIndices]
  | cons v rest ih =>
      cases left with
      | zero => simp [unpackIndices]
      | succ left =>
          rw [unpackIndices, ih, List.flatMap_cons, List.take_append,
            List.map_append, List.length_take, List.length_map]
          have hrest : left + 1 - min (left + 1) (unpackByte br v).length =
              left + 1 - (unpackByte br v).length := by omega
          simp only [hrest, List.map_take]

/-! ## What the decoder returns -/

theorem paintRaw_safe (hs : (s : Int) ≤ intMax) (format : PixelFormat) {n : Nat}
    (hn : s = ps.length + n) (data : Bytes) (h : Painted s ps t) :
    Safe (paintRaw format n data t)
      (Decodes s ps ((pullPixels format n data).map Prod.fst)) := by
  induction n generalizing ps t data with
  | zero => exact .ok (decodes_done h (by omega))
  | succ n ih =>
      rw [paintRaw, pullPixels]
      cases pullPixel format data with
      | none => exact .ok (decodes_failed h)
      | some p =>
          obtain ⟨c, rest⟩ := p
          dsimp only
          refine .bind (paintOne_safe hs h (by omega) c) fun t' ht' => ?_
          have htail := ih (by rw [List.length_append, List.length_singleton]; omega)
            rest ht'
          refine htail.mono fun r hr => ?_
          cases hpull : pullPixels format n rest with
          | none =>
              rw [hpull] at hr
              exact hr
          | some q =>
              rw [hpull] at hr
              exact hr.before

theorem length_pullPixels {format : PixelFormat} {n : Nat} {data rest : Bytes}
    {palette : List UInt32} (h : pullPixels format n data = some (palette, rest)) :
    palette.length = n := by
  induction n generalizing data palette rest with
  | zero =>
      cases h
      rfl
  | succ n ih =>
      rw [pullPixels] at h
      split at h
      · cases h
      · split at h
        · cases h
        next htail =>
          cases h
          rw [List.length_cons, ih htail]

/-- The forms without a palette or a run. -/
theorem decodePlain_safe {rect : RectHeader}
    (hs : (rect.w * rect.h : Nat) ≤ intMax) {subenc : Nat}
    (hsub : subenc < 2 ∨ 16 < subenc) (hruns : ¬(subenc = 128 ∨ 130 ≤ subenc))
    (data : Bytes) (format : PixelFormat) :
    SafeElse .overflow (decodeRleInnerInt data subenc rect format)
      (Decodes (rect.w * rect.h) [] (decodeRleInner data subenc rect format))
      (subenc = 0 →
        (rect.w * rect.h * bytesPerPixel format : Nat) ≤ intMax) := by
  have hblank := painted_blank (rect.w * rect.h)
  have hmin : intMin ≤ 0 := by decide
  unfold decodeRleInnerInt decodeRleInner
  rw [int32_area hs, ok_bind]
  dsimp only
  by_cases h0 : subenc = 0
  · rw [if_pos h0, if_pos h0]
    have hbytes := int32_safeElse
      (n := ((rect.w * rect.h * bytesPerPixel format : Nat) : Int)) (by omega)
    rw [Int.natCast_mul] at hbytes
    refine (hbytes.bind (q := True) fun n hn => ?_).congr (by simp [h0])
    rw [hn, ← Int.natCast_mul]
    refine .of_safe ?_ trivial
    by_cases hshort : data.length < rect.w * rect.h * bytesPerPixel format
    · rw [if_pos (by omega), if_pos hshort]
      exact .ok (decodes_failed hblank)
    · rw [if_neg (by omega), if_neg hshort]
      rw [Int.toNat_natCast]
      exact paintRaw_safe hs format (Nat.zero_add _).symm data hblank
  · rw [if_neg h0, if_neg h0]
    by_cases h1 : subenc = 1
    · rw [if_pos h1, if_pos h1]
      refine .of_safe ?_ fun h => absurd h h0
      cases pullPixel format data with
      | none => exact .ok (decodes_failed hblank)
      | some p =>
          refine .bind (paintRun_safe hs hblank (by simp) p.1) fun t ht => ?_
          refine .ok ⟨rfl, ?_, by simp⟩
          exact ht
    · rw [if_neg h1, if_neg h1, if_neg (by omega), if_neg (by omega),
        if_neg (by omega), if_neg (by omega), if_neg (by omega), if_neg (by omega)]
      exact .of_safe (.ok (decodes_failed hblank)) fun h => absurd h h0

/-- The packed indices that there are pixels for. -/
def packedIndices (data : Bytes) (subenc : Nat) (rect : RectHeader)
    (format : PixelFormat) : List Nat :=
  match pullPixels format subenc data with
  | none => []
  | some (_, rest) =>
      (rest.flatMap (unpackByte (packedBits subenc))).take (rect.w * rect.h)

/-- The packed form: its indices are not compared with the palette. -/
theorem decodePacked_safe {rect : RectHeader}
    (hs : (rect.w * rect.h : Nat) ≤ intMax) {subenc : Nat}
    (hsub : 2 ≤ subenc ∧ subenc ≤ 16) (data : Bytes) (format : PixelFormat) :
    SafeElse .outside (decodeRleInnerInt data subenc rect format)
      (Decodes (rect.w * rect.h) [] (decodeRleInner data subenc rect format))
      (∀ i ∈ packedIndices data subenc rect format, i < subenc) := by
  have hblank := painted_blank (rect.w * rect.h)
  unfold decodeRleInnerInt decodeRleInner packedIndices
  rw [int32_area hs, ok_bind]
  dsimp only
  rw [if_neg (by omega), if_neg (by omega), if_pos hsub,
    if_neg (show ¬subenc = 0 by omega), if_neg (show ¬subenc = 1 by omega),
    if_pos hsub]
  cases hpull : pullPixels format subenc data with
  | none => exact .of_safe (.ok (decodes_failed hblank)) (by simp)
  | some p =>
      obtain ⟨palette, rest⟩ := p
      dsimp only
      rw [paintPacked_eq, unpackIndices_eq]
      have hindices := paintIndices_safe hs palette
        (rest.flatMap (unpackByte (packedBits subenc))) hblank
      rw [length_pullPixels hpull] at hindices
      refine (hindices.bind (q := True) fun t' ht' => ?_).congr (by simp)
      refine .of_safe (.ok ?_) trivial
      rw [ht'.index]
      rw [List.length_nil, Nat.sub_zero, List.nil_append] at ht' ⊢
      by_cases hfull : ((rest.flatMap (unpackByte (packedBits subenc))).take
          (rect.w * rect.h)).length ≥ rect.w * rect.h
      · rw [if_pos (by rwa [List.length_map])]
        refine ⟨decide_eq_true (by rw [List.length_map]; omega), ht', ?_⟩
        have := ht'.within
        rw [List.length_map] at this
        rw [List.nil_append, List.length_map]
        omega
      · rw [if_neg (by rwa [List.length_map])]
        exact ⟨decide_eq_false (by rw [List.length_map]; omega), _, ht'⟩

/-- Where the decoder returns, it returns what its list version does. -/
theorem decodeRleInnerInt_refines {data : Bytes} {subenc : Nat}
    {rect : RectHeader} {format : PixelFormat} {r : Bool × Canvas}
    (h : decodeRleInnerInt data subenc rect format = .ok r) :
    Decodes (rect.w * rect.h) [] (decodeRleInner data subenc rect format) r := by
  have hs : (rect.w * rect.h : Nat) ≤ intMax := by
    obtain ⟨n, hn, -⟩ := bind_ok h
    by_contra hover
    rw [int32_overflow (by rw [← Int.natCast_mul]; omega)] at hn
    cases hn
  by_cases hpacked : 2 ≤ subenc ∧ subenc ≤ 16
  · exact (decodePacked_safe hs hpacked data format).of_ok h
  by_cases hruns : subenc = 128 ∨ 130 ≤ subenc
  · exact (decodeRuns_safe hs hruns data format).of_ok h
  · exact (decodePlain_safe hs (by omega) hruns data format).of_ok h

/-! ## Indices that name no entry -/

/-- An index of the palette loop that names no entry is the last one it reads,
and every run before it fits. -/
theorem indexRuns_unnamed {palette : List UInt32} {rounds i : Nat}
    {data : Bytes} (hrounds : s - i ≤ rounds)
    (h : ∃ r ∈ indexRuns palette.length s rounds i data,
      palette.length ≤ r.entry) :
    Fit ((indexRuns palette.length s rounds i data).map IndexRun.run) ∧
      decodePaletteRuns palette rounds (s - i) data = none := by
  induction rounds generalizing i data with
  | zero =>
      obtain ⟨r, hr, -⟩ := h
      cases hr
  | succ rounds ih =>
      obtain ⟨r, hr, hout⟩ := h
      cases data with
      | nil => cases hr
      | cons index rest =>
          rw [indexRuns] at hr ⊢
          by_cases hlt : i < s
          · obtain ⟨left, hleft⟩ : ∃ n, s - i = n + 1 := ⟨s - i - 1, by omega⟩
            rw [if_pos hlt] at hr ⊢
            rw [hleft, decodePaletteRuns, ← hleft]
            cases hentry : palette[(index &&& 0x7F).toNat]? with
            | none =>
                have hnone := List.getElem?_eq_none_iff.mp hentry
                rw [if_pos hnone, readIndex, hentry]
                exact ⟨fit_zero, rfl⟩
            | some c =>
                have hin := (List.getElem?_eq_some_iff.mp hentry).1
                rw [if_neg (by omega)] at hr ⊢
                rw [readIndex_entry hentry]
                cases hrun : codedRun index rest with
                | none =>
                    rw [hrun, List.mem_singleton] at hr
                    rw [hr] at hout
                    exact absurd hout (by simpa using hin)
                | some p =>
                    obtain ⟨run, rest'⟩ := p
                    have hpos := (codedRun_length hrun).2
                    rw [hrun] at hr
                    rcases List.mem_cons.mp hr with rfl | hr
                    · exact absurd hout (by simpa using hin)
                    · split at hr
                      next hfits =>
                        have htail := ih (by omega) ⟨r, hr, hout⟩
                        refine ⟨?_, ?_⟩
                        · exact fit_indexRun.mpr ⟨hfits, htail.1⟩
                        · rw [Option.map_some]
                          simp only [Nat.sub_sub, htail.2]
                          rfl
                      next => cases hr
          · rw [if_neg hlt] at hr
            cases hr

/-- The indices of a body, of a pixel or of a run. -/
def indicesOf (data : Bytes) (subenc : Nat) (rect : RectHeader)
    (format : PixelFormat) : List Nat :=
  let s := rect.w * rect.h
  if intMax < s then []
  else if 2 ≤ subenc ∧ subenc ≤ 16 then packedIndices data subenc rect format
  else if 130 ≤ subenc then
    match pullPixels format (subenc - 128) data with
    | none => []
    | some (palette, rest) =>
        (indexRuns palette.length s s 0 rest).map IndexRun.entry
  else []

def entriesOf (subenc : Nat) : Nat :=
  if subenc ≤ 16 then subenc else subenc - 128

/-- An index names an entry the palette does not have. -/
def NamesNoEntry (data : Bytes) (subenc : Nat) (rect : RectHeader)
    (format : PixelFormat) : Prop :=
  ∃ i ∈ indicesOf data subenc rect format, entriesOf subenc ≤ i

theorem area_overflow {rect : RectHeader}
    (hs : intMax < (rect.w * rect.h : Nat)) (data : Bytes) (subenc : Nat)
    (format : PixelFormat) :
    decodeRleInnerInt data subenc rect format = .error .overflow := by
  unfold decodeRleInnerInt
  rw [int32_overflow (by rw [← Int.natCast_mul]; exact hs)]
  rfl

/-- A body of palette runs that names no entry is refused. -/
theorem unnamed_refused {rect : RectHeader}
    (hs : (rect.w * rect.h : Nat) ≤ intMax) {subenc : Nat} (hsub : 130 ≤ subenc)
    {data : Bytes} {format : PixelFormat}
    (h : NamesNoEntry data subenc rect format) :
    ∃ t, decodeRleInnerInt data subenc rect format = .ok (false, t) := by
  have hexact := decodeRuns_safe hs (.inr hsub) data format
  obtain ⟨i, hi, hout⟩ := h
  unfold indicesOf at hi
  unfold entriesOf at hout
  unfold runsOf decodeRleInner at hexact
  dsimp only at hi hexact
  rw [if_neg (by omega), if_neg (by omega), if_pos hsub] at hi
  rw [if_neg (by omega)] at hout
  rw [if_neg (show ¬subenc = 0 by omega), if_neg (show ¬subenc = 1 by omega),
    if_neg (show ¬(2 ≤ subenc ∧ subenc ≤ 16) by omega),
    if_neg (show ¬subenc = 128 by omega), if_neg (show ¬subenc = 128 by omega),
    if_pos (show subenc ≥ 130 from hsub)] at hexact
  cases hpull : pullPixels format (subenc - 128) data with
  | none =>
      rw [hpull] at hi
      cases hi
  | some p =>
      obtain ⟨palette, rest⟩ := p
      rw [hpull] at hi hexact
      dsimp only at hi hexact
      obtain ⟨r, hr, rfl⟩ := List.mem_map.mp hi
      have hlength := length_pullPixels hpull
      obtain ⟨hfit, hnone⟩ := indexRuns_unnamed 
        (Nat.sub_le _ 0) ⟨r, hr, by rw [hlength]; exact hout⟩
      rw [Nat.sub_zero] at hnone
      rw [hnone] at hexact
      obtain ⟨⟨b, t⟩, hok, hb, -⟩ := hexact.safe hfit
      exact ⟨t, by rw [hok, show b = false from hb]⟩

/-- No entry is read that is not there, and a body that names one is refused,
just if the indices that name none are indices of runs. -/
theorem palette_safe_iff (data : Bytes) (subenc : Nat) (rect : RectHeader)
    (format : PixelFormat) :
    (decodeRleInnerInt data subenc rect format ≠ .error .outside ∧
        (NamesNoEntry data subenc rect format →
          ∃ t, decodeRleInnerInt data subenc rect format = .ok (false, t))) ↔
      (NamesNoEntry data subenc rect format → 130 ≤ subenc) := by
  by_cases hs : intMax < (rect.w * rect.h : Nat)
  · have hnone : ¬NamesNoEntry data subenc rect format := by
      rintro ⟨i, hi, -⟩
      unfold indicesOf at hi
      rw [if_pos hs] at hi
      cases hi
    rw [area_overflow hs]
    simp [hnone]
  have hs : (rect.w * rect.h : Nat) ≤ intMax := by omega
  by_cases hpacked : 2 ≤ subenc ∧ subenc ≤ 16
  · have hexact := decodePacked_safe hs hpacked data format
    have hnames : NamesNoEntry data subenc rect format ↔
        ¬∀ i ∈ packedIndices data subenc rect format, i < subenc := by
      unfold NamesNoEntry indicesOf entriesOf
      dsimp only
      rw [if_neg (by omega), if_pos hpacked, if_pos hpacked.2]
      simp only [not_forall, exists_prop, Nat.not_lt]
    by_cases hall : ∀ i ∈ packedIndices data subenc rect format, i < subenc
    · obtain ⟨r, hr, -⟩ := hexact.safe hall
      have hnone : ¬NamesNoEntry data subenc rect format :=
        fun h => hnames.mp h hall
      rw [hr]
      simp [hnone]
    · rw [hexact.fault hall, hnames]
      constructor
      · exact fun h => absurd rfl h.1
      · exact fun h => absurd (h hall) (by omega)
  by_cases hruns : 130 ≤ subenc
  · refine ⟨fun _ _ => hruns, fun _ => ⟨?_, unnamed_refused hs hruns⟩⟩
    exact (decodeRuns_safe hs (.inr hruns) data format).ne_error (by decide)
  · have hnone : ¬NamesNoEntry data subenc rect format := by
      rintro ⟨i, hi, -⟩
      unfold indicesOf at hi
      rw [if_neg (by omega), if_neg hpacked, if_neg hruns] at hi
      cases hi
    refine ⟨fun _ h => absurd h hnone, fun _ => ⟨?_, fun h => absurd h hnone⟩⟩
    by_cases h128 : subenc = 128
    · exact (decodeRuns_safe hs (.inl h128) data format).ne_error (by decide)
    · exact (decodePlain_safe hs (by omega) (by omega) data format).ne_error
        (by decide)

/-- Three entries, and the fourth of four indices. -/
theorem packed_outside :
    decodeRleInnerInt [0x00, 0xE0, 0x1C, 0xC0] 3 ⟨0, 0, 1, 1, encRle⟩ .rgb332 =
      .error .outside :=
  rfl

/-- A packed index reads past a palette of three. -/
theorem palette_unsafe :
    ¬∀ (data : Bytes) (subenc : Nat) (rect : RectHeader) (format : PixelFormat),
      decodeRleInnerInt data subenc rect format ≠ .error .outside ∧
        (NamesNoEntry data subenc rect format →
          ∃ t, decodeRleInnerInt data subenc rect format = .ok (false, t)) :=
  fun hall => (hall [0x00, 0xE0, 0x1C, 0xC0] 3 ⟨0, 0, 1, 1, encRle⟩ .rgb332).1
    packed_outside

end QuMesh.Kvm
