import QuMesh.Kvm.TileInt
import QuMesh.Proofs.TileDecode

/-!
# Where the tile decoder leaves its vectors and its `int`s

Writing a pixel is safe: a run is cut to the pixels that are left before it is
painted. What is not safe is what the cut comes too late for, the length of a
run, which is summed up over as many bytes as the data has, and what is not
checked at all, an index into a packed palette whose size is no power of two.

Both are exact. `runs_fit_iff` says that the sums fit just if the runs that are
coded do, and `palette_safe_iff` that no entry is read that is not there just if
no packed index names one.
-/

namespace QuMesh.Kvm

open QuMesh.Lib

/-- The first pixels of a tile are painted. -/
structure Painted (s : Nat) (ps : List UInt32) (t : Canvas) : Prop where
  size : t.argb.size = s
  index : t.i = ps.length
  within : ps.length ≤ s
  pixels : t.argb.toList.take ps.length = ps
  positions : ∀ n ∈ t.positions, 0 ≤ n ∧ n ≤ s

variable {s : Nat} {ps : List UInt32} {t : Canvas}

theorem painted_blank (s : Nat) :
    Painted s [] { argb := Array.replicate s 0 } where
  size := Array.size_replicate
  index := rfl
  within := Nat.zero_le s
  pixels := rfl
  positions := by
    intro n hn
    rw [List.mem_singleton.mp hn]
    omega

/-- One more pixel. -/
theorem take_set {n : Nat} {c : UInt32} {l ps : List UInt32} (hn : n < l.length)
    (h : l.take n = ps) : (l.set n c).take (n + 1) = ps ++ [c] := by
  rw [List.take_add_one, List.take_set_of_le (Nat.le_refl n), h,
    List.getElem?_set_self hn]
  rfl

theorem Painted.moveTo (h : Painted s ps t) {argb : Array UInt32}
    {ps' : List UInt32} (hsize : argb.size = s) (hwithin : ps'.length ≤ s)
    (hpixels : argb.toList.take ps'.length = ps') {i : Int}
    (hi : i = ps'.length) : Painted s ps' ({ t with argb }.moveTo i) where
  size := hsize
  index := hi
  within := hwithin
  pixels := hpixels
  positions := by
    intro n hn
    rcases List.mem_append.mp hn with hn | hn
    · exact h.positions n hn
    · rw [List.mem_singleton.mp hn, hi]
      omega

/-- So many pixels of a run are painted. -/
def Filled (s : Nat) (ps : List UInt32) (c : UInt32) (k : Int)
    (argb : Array UInt32) : Prop :=
  argb.size = s ∧
    argb.toList.take (ps.length + k.toNat) = ps ++ List.replicate k.toNat c

theorem writeAt_at {α : Type} {xs : Array α} {n : Nat} (x : α)
    (hn : n < xs.size) : writeAt xs n x = .ok (xs.setIfInBounds n x) := by
  unfold writeAt
  rw [if_pos (by omega)]
  rfl

section

variable (hs : (s : Int) ≤ intMax)

include hs

theorem paintOne_safe (h : Painted s ps t) (hlt : ps.length < s) (c : UInt32) :
    Safe (t.paintOne c) (Painted s (ps ++ [c])) := by
  have hsize := h.size
  have hmin : intMin ≤ 0 := by decide
  unfold Canvas.paintOne
  rw [h.index, writeAt_at c (by omega), ok_bind,
    int32_eq (by omega) (by omega), ok_bind]
  refine .ok (h.moveTo ?_ ?_ ?_ ?_)
  · rw [Array.size_setIfInBounds, hsize]
  · rw [List.length_append, List.length_singleton]
    omega
  · rw [Array.toList_setIfInBounds, List.length_append, List.length_singleton]
    have hlen : t.argb.toList.length = s := hsize
    exact take_set (by omega) h.pixels
  · rw [List.length_append, List.length_singleton]
    rfl

theorem paintRun_safe (h : Painted s ps t) {run : Nat}
    (hrun : ps.length + run ≤ s) (c : UInt32) :
    Safe (t.paintRun c run) (Painted s (ps ++ List.replicate run c)) := by
  have hmin : intMin ≤ 0 := by decide
  have hloop : Safe (forInt (fun k argb => do
      writeAt argb (← int32 (t.i + k)) c) run 0 t.argb)
      (Filled s ps c (0 + run)) := by
    refine forInt_counted (fun k argb hlo hhi hfilled => ?_) ?_
    · obtain ⟨hsize, hpixels⟩ := hfilled
      have hk : t.i + k = (ps.length + k.toNat : Nat) := by
        rw [h.index]
        omega
      have hlen : argb.toList.length = s := hsize
      rw [hk, int32_eq (by omega) (by omega), ok_bind, writeAt_at c (by omega)]
      refine .ok ⟨by rw [Array.size_setIfInBounds, hsize], ?_⟩
      have hnext : (k + 1).toNat = k.toNat + 1 := by omega
      rw [hnext, ← Nat.add_assoc, Array.toList_setIfInBounds,
        List.replicate_succ', ← List.append_assoc]
      exact take_set (by omega) hpixels
    · refine ⟨h.size, ?_⟩
      simpa using h.pixels
  obtain ⟨argb, hargb, hsize, hpixels⟩ := hloop
  have hend : t.i + run = (ps.length + run : Nat) := by
    rw [h.index]
    omega
  have htoNat : (0 + (run : Int)).toNat = run := by omega
  have hrange : forRange 0 (run : Int)
      (fun k argb => do writeAt argb (← int32 (t.i + k)) c) t.argb = .ok argb := by
    unfold forRange
    rw [show ((run : Int) - 0).toNat = run by omega]
    exact hargb
  unfold Canvas.paintRun
  rw [hrange, ok_bind, hend, int32_eq (by omega) (by omega), ok_bind]
  rw [htoNat] at hpixels
  refine .ok (h.moveTo hsize ?_ ?_ ?_)
  · rw [List.length_append, List.length_replicate]
    omega
  · rw [List.length_append, List.length_replicate]
    exact hpixels
  · rw [List.length_append, List.length_replicate]

end

/-! ## The length of a run -/

/-- What the bytes behind a color or an index add to the length. -/
def runSum : Bytes → Nat
  | [] => 0
  | delta :: rest => if delta = 0xFF then 255 + runSum rest else delta.toNat

/-- A length is read just if all it adds up to fits. -/
theorem readRunInt_safe {run : Nat} (hrun : (run : Int) ≤ intMax)
    (data : Bytes) :
    SafeElse .overflow (readRunInt run data)
      (fun r => r = (readRun run data).map fun p => ((p.1 : Int), p.2))
      ((run : Int) + runSum data ≤ intMax) := by
  have hmin : intMin ≤ 0 := by decide
  induction data generalizing run with
  | nil => exact .of_safe (.ok rfl) (by simpa [runSum] using hrun)
  | cons delta rest ih =>
      rw [readRunInt, readRun, runSum]
      by_cases hmore : delta = 0xFF
      · have hdelta : delta.toNat = 255 := by rw [hmore]; rfl
        rw [if_pos hmore, if_pos hmore, hdelta]
        have hsum := int32_safeElse (n := (run : Int) + (255 : Nat)) (by omega)
        by_cases hfits : (run : Int) + (255 : Nat) ≤ intMax
        · obtain ⟨_, hok, rfl⟩ := hsum.safe hfits
          rw [hok, ok_bind, if_pos hmore]
          refine (@ih (run + 255) (by omega)).congr ?_
          omega
        · refine .of_fault ?_ (by omega)
          rw [hsum.fault hfits]
          rfl
      · rw [if_neg hmore, if_neg hmore]
        have hsum := int32_safeElse (n := (run : Int) + delta.toNat) (by omega)
        by_cases hfits : (run : Int) + delta.toNat ≤ intMax
        · obtain ⟨_, hok, rfl⟩ := hsum.safe hfits
          rw [hok, ok_bind, if_neg hmore]
          exact .of_safe (.ok rfl) hfits
        · refine .of_fault ?_ hfits
          rw [hsum.fault hfits]
          rfl

/-- The cut comes behind the sum. -/
theorem clipRun_safe {i run : Nat} (hi : i ≤ s) :
    SafeElse .overflow (clipRun s i run)
      (· = (min run (s - i) : Nat)) ((i : Int) + run ≤ intMax) := by
  have hmin : intMin ≤ 0 := by decide
  have hsum := int32_safeElse (n := (i : Int) + run) (by omega)
  unfold clipRun
  by_cases hfits : (i : Int) + run ≤ intMax
  · obtain ⟨_, hok, rfl⟩ := hsum.safe hfits
    rw [hok, ok_bind]
    split
    · rw [int32_eq (by omega) (by omega)]
      refine .of_safe (.ok ?_) hfits
      omega
    · refine .of_safe (.ok ?_) hfits
      omega
  · refine .of_fault ?_ hfits
    rw [hsum.fault hfits]
    rfl

theorem readRun_pos {run : Nat} {data rest : Bytes} {n : Nat}
    (h : readRun run data = some (n, rest)) : run ≤ n := by
  induction data generalizing run with
  | nil => cases h
  | cons delta data ih =>
      rw [readRun] at h
      split at h
      · have := ih h
        omega
      · cases h
        omega

/-! ## Subencoding 128 -/

/-- The runs that are coded, each with the pixel it begins at. A run whose
length the data breaks off is never placed. -/
def codedRuns (format : PixelFormat) (s : Nat) : Nat → Nat → Bytes →
    List (Nat × Nat)
  | 0, _, _ => []
  | rounds + 1, i, data =>
      if i < s then
        match pullPixel format data with
        | none => []
        | some (_, rest) =>
            match readRun 1 rest with
            | none => [(0, 1 + runSum rest)]
            | some (run, rest) =>
                (i, run) :: codedRuns format s rounds (i + min run (s - i)) rest
      else []

/-- What a decoder leaves: its verdict, and all pixels painted where that is
good. -/
def Decodes (s : Nat) (ps : List UInt32) (rest : Option (List UInt32))
    (r : Bool × Canvas) : Prop :=
  match rest with
  | none => r.1 = false ∧ ∃ qs, Painted s qs r.2
  | some qs => r.1 = true ∧ Painted s (ps ++ qs) r.2 ∧ (ps ++ qs).length = s

/-- All runs fit. -/
def Fit (runs : List (Nat × Nat)) : Prop :=
  ∀ r ∈ runs, ((r.1 : Int) + r.2) ≤ intMax

theorem readRun_runSum {run n : Nat} {data rest : Bytes}
    (h : readRun run data = some (n, rest)) : n = run + runSum data := by
  induction data generalizing run with
  | nil => cases h
  | cons delta data ih =>
      rw [readRun] at h
      rw [runSum]
      split at h
      next hmore =>
        rw [if_pos hmore, ih h]
        omega
      next hlast =>
        cases h
        rw [if_neg hlast]

theorem decodes_done (h : Painted s ps t) (hfull : ¬ps.length < s) :
    Decodes s ps (some []) (true, t) := by
  refine ⟨rfl, ?_, ?_⟩
  · rw [List.append_nil]
    exact h
  · rw [List.append_nil]
    exact Nat.le_antisymm h.within (by omega)

/-- A run that is read and cut is painted. -/
theorem run_safe (hs : (s : Int) ≤ intMax) (h : Painted s ps t) (c : UInt32)
    {run : Nat} {β : Type} {f : Canvas → Except Fault β} {Q : β → Prop}
    {p : Prop} (hf : ∀ t', Painted s (ps ++ List.replicate
      (min run (s - ps.length)) c) t' → SafeElse .overflow (f t') Q p) :
    SafeElse .overflow (do
      let run ← clipRun s t.i run
      f (← t.paintRun c run)) Q (((ps.length : Int) + run ≤ intMax) ∧ p) := by
  rw [h.index]
  refine .bind (clipRun_safe h.within) fun _ hclip => ?_
  have hwithin := h.within
  rw [hclip]
  exact .bind_safe (paintRun_safe hs h (by omega) c) hf

/-- What a run painted goes before what the rest paints. -/
theorem Decodes.before {qs : List UInt32} {rest : Option (List UInt32)}
    {r : Bool × Canvas} (h : Decodes s (ps ++ qs) rest r) :
    Decodes s ps (rest.map (qs ++ ·)) r := by
  cases rest with
  | none => exact h
  | some rest =>
      obtain ⟨hok, hpainted, hlength⟩ := h
      refine ⟨hok, ?_, ?_⟩
      · rw [← List.append_assoc]
        exact hpainted
      · rw [← List.append_assoc]
        exact hlength

theorem decodes_failed (h : Painted s ps t) : Decodes s ps none (false, t) :=
  ⟨rfl, ps, h⟩

instance Fit.decidable (runs : List (Nat × Nat)) : Decidable (Fit runs) :=
  inferInstanceAs (Decidable (∀ r ∈ runs, _))

theorem fit_nil : Fit [] := by
  intro r hr
  cases hr

theorem fit_zero : Fit [(0, 0)] := by
  intro r hr
  rw [List.mem_singleton.mp hr]
  decide

theorem fit_cons {r : Nat × Nat} {runs : List (Nat × Nat)} :
    Fit (r :: runs) ↔ ((r.1 : Int) + r.2 ≤ intMax) ∧ Fit runs :=
  List.forall_mem_cons

theorem clipped_length (hlt : ps.length < s) {run : Nat} (hrun : 1 ≤ run)
    (c : UInt32) {ps' : List UInt32}
    (hps' : ps' = ps ++ List.replicate (min run (s - ps.length)) c) :
    ps'.length = ps.length + min run (s - ps.length) ∧
      ps.length < ps'.length ∧ ps'.length ≤ s := by
  have hlen : ps'.length = ps.length + min run (s - ps.length) := by
    rw [hps', List.length_append, List.length_replicate]
  omega

/-- Subencoding 128 decodes what it stands for, just if its runs fit. -/
theorem paintRuns_safe (hs : (s : Int) ≤ intMax) (format : PixelFormat)
    {rounds : Nat} (hrounds : s - ps.length ≤ rounds) (data : Bytes)
    (h : Painted s ps t) :
    SafeElse .overflow (paintRuns format s rounds data t)
      (Decodes s ps (decodeRuns format rounds (s - ps.length) data))
      (Fit (codedRuns format s rounds ps.length data)) := by
  have hindex := h.index
  induction rounds generalizing ps t data with
  | zero =>
      have hleft : s - ps.length = 0 := by omega
      have hfull : ¬ps.length < s := by omega
      rw [hleft, paintRuns, decodeRuns, codedRuns, decide_eq_true (by omega)]
      exact .of_safe (.ok (decodes_done h hfull)) fit_nil
  | succ rounds ih =>
      rw [paintRuns, codedRuns]
      by_cases hlt : ps.length < s
      · have hleft : s - ps.length = (s - ps.length - 1) + 1 := by omega
        rw [if_pos (by omega), if_pos hlt, hleft, decodeRuns, ← hleft]
        cases hpull : pullPixel format data with
        | none => exact .of_safe (.ok (decodes_failed h)) fit_nil
        | some p =>
            obtain ⟨c, rest⟩ := p
            dsimp only
            have hread := @readRunInt_safe 1 (by decide) rest
            cases hrun : readRun 1 rest with
            | none =>
                rw [hrun] at hread
                refine (hread.bind (q := True) fun a ha => ?_).congr ?_
                · rw [ha]
                  exact .of_safe (.ok (decodes_failed h)) trivial
                · rw [fit_cons]
                  simp [fit_nil]
            | some r =>
                obtain ⟨run, rest'⟩ := r
                have hsum := readRun_runSum hrun
                rw [hrun] at hread
                dsimp only
                have hpos : 1 ≤ run := readRun_pos hrun
                obtain ⟨hlen, hmore, hwithin⟩ := clipped_length hlt hpos c rfl
                rw [fit_cons]
                refine (hread.bind (q := ps.length + run ≤ intMax ∧
                    Fit (codedRuns format s rounds
                      (ps.length + min run (s - ps.length)) rest'))
                    fun a ha => ?_).congr ?_
                · rw [ha, Option.map_some]
                  dsimp only
                  refine run_safe hs h c fun t' ht' => ?_
                  have htail := ih (by omega) rest' ht' ht'.index
                  rw [hlen, ← Nat.sub_sub] at htail
                  exact htail.mono fun r hr => hr.before
                · refine and_iff_right_of_imp fun hfit => ?_
                  have := hfit.1
                  omega
      · rw [if_neg (by omega), if_neg hlt, show s - ps.length = 0 by omega,
          decodeRuns]
        exact .of_safe (.ok (decodes_done h hlt)) fit_nil

/-! ## Subencodings from 130 on -/

/-- The run of an index. -/
def codedRun (index : UInt8) (rest : Bytes) : Option (Nat × Bytes) :=
  if index &&& 0x80 = 0 then some (1, rest) else readRun 1 rest

/-- What its length adds up to, whether or not the data breaks it off. -/
def codedLength (index : UInt8) (rest : Bytes) : Nat :=
  if index &&& 0x80 = 0 then 1 else 1 + runSum rest

theorem codedRun_length {index : UInt8} {rest rest' : Bytes} {run : Nat}
    (h : codedRun index rest = some (run, rest')) :
    run = codedLength index rest ∧ 1 ≤ run := by
  unfold codedRun at h
  unfold codedLength
  split at h
  next hsingle =>
    cases h
    rw [if_pos hsingle]
    exact ⟨rfl, Nat.le_refl 1⟩
  next hruns =>
    rw [if_neg hruns]
    exact ⟨readRun_runSum h, readRun_pos h⟩

theorem readIndexRun_safe (index : UInt8) (rest : Bytes) :
    SafeElse .overflow (readIndexRun index rest)
      (fun r => r = (codedRun index rest).map fun p => ((p.1 : Int), p.2))
      ((codedLength index rest : Int) ≤ intMax) := by
  unfold readIndexRun codedRun codedLength
  split
  · exact .of_safe (.ok rfl) (by decide)
  · exact (@readRunInt_safe 1 (by decide) rest).congr (by omega)

/-- An index that the loop reads, and its run. -/
structure IndexRun where
  entry : Nat
  position : Nat := 0
  length : Nat := 0
  deriving DecidableEq, Repr

/-- The indices the loop reads. It stops behind one that names no entry, and
behind a run that does not fit. -/
def indexRuns (entries s : Nat) : Nat → Nat → Bytes → List IndexRun
  | 0, _, _ => []
  | _ + 1, _, [] => []
  | rounds + 1, i, index :: rest =>
      let entry := (index &&& 0x7F).toNat
      if i < s then
        if entry ≥ entries then [{ entry }]
        else
          match codedRun index rest with
          | none => [{ entry, length := codedLength index rest }]
          | some (run, rest) =>
              { entry, position := i, length := run } ::
                if (i : Int) + run ≤ intMax then
                  indexRuns entries s rounds (i + min run (s - i)) rest
                else []
      else []

def IndexRun.run (r : IndexRun) : Nat × Nat := (r.position, r.length)

theorem fit_indexRun {r : IndexRun} {runs : List IndexRun} :
    Fit ((r :: if (r.position : Int) + r.length ≤ intMax then runs
      else []).map IndexRun.run) ↔
      ((r.position : Int) + r.length ≤ intMax) ∧ Fit (runs.map IndexRun.run) := by
  rw [List.map_cons, fit_cons]
  refine and_congr_right fun hfits => ?_
  rw [if_pos (show (r.position : Int) + r.length ≤ intMax from hfits)]

theorem readIndex_entry {palette : List UInt32} {index : UInt8} {c : UInt32}
    (h : palette[(index &&& 0x7F).toNat]? = some c) (rest : Bytes) :
    readIndex palette index rest =
      (codedRun index rest).map fun p => (c, p.1, p.2) := by
  unfold readIndex codedRun
  rw [h]
  dsimp only
  split <;> rfl

theorem readAt_entry {palette : List UInt32} {entry : Nat} {c : UInt32}
    (h : palette[entry]? = some c) : readAt palette.toArray entry = .ok c := by
  obtain ⟨hlt, hget⟩ := List.getElem?_eq_some_iff.mp h
  unfold readAt
  rw [dif_pos (by simpa using hlt)]
  simp [hget]

/-- The same of the subencodings from 130 on. -/
theorem paintPaletteRuns_safe (hs : (s : Int) ≤ intMax)
    (palette : List UInt32) {rounds : Nat} (hrounds : s - ps.length ≤ rounds)
    (data : Bytes) (h : Painted s ps t) :
    SafeElse .overflow (paintPaletteRuns palette.toArray s rounds data t)
      (Decodes s ps (decodePaletteRuns palette rounds (s - ps.length) data))
      (Fit ((indexRuns palette.length s rounds ps.length data).map
        IndexRun.run)) := by
  have hindex := h.index
  induction rounds generalizing ps t data with
  | zero =>
      have hleft : s - ps.length = 0 := by omega
      have hfull : ¬ps.length < s := by omega
      rw [hleft, paintPaletteRuns, decodePaletteRuns, decide_eq_true (by omega)]
      exact .of_safe (.ok (decodes_done h hfull)) fit_nil
  | succ rounds ih =>
      by_cases hlt : ps.length < s
      · obtain ⟨left, hleft⟩ : ∃ n, s - ps.length = n + 1 :=
          ⟨s - ps.length - 1, by omega⟩
        cases data with
        | nil =>
            rw [paintPaletteRuns, hleft, decodePaletteRuns,
              decide_eq_false (by omega)]
            exact .of_safe (.ok (decodes_failed h)) fit_nil
        | cons index rest =>
            rw [paintPaletteRuns, indexRuns, hleft, decodePaletteRuns, ← hleft]
            dsimp only
            rw [if_pos (by omega), if_pos hlt, List.size_toArray]
            cases hentry : palette[(index &&& 0x7F).toNat]? with
            | none =>
                have hout := List.getElem?_eq_none_iff.mp hentry
                rw [if_pos hout, if_pos hout, readIndex, hentry]
                exact .of_safe (.ok (decodes_failed h)) fit_zero
            | some c =>
                have hin := (List.getElem?_eq_some_iff.mp hentry).1
                rw [if_neg (by omega), if_neg (by omega), readAt_entry hentry,
                  ok_bind, readIndex_entry hentry]
                have hread := readIndexRun_safe index rest
                cases hrun : codedRun index rest with
                | none =>
                    rw [hrun] at hread
                    refine (hread.bind (q := True) fun a ha => ?_).congr ?_
                    · rw [ha]
                      exact .of_safe (.ok (decodes_failed h)) trivial
                    · simp [Fit, IndexRun.run]
                | some r =>
                    obtain ⟨run, rest'⟩ := r
                    obtain ⟨hlength, hpos⟩ := codedRun_length hrun
                    rw [hrun] at hread
                    obtain ⟨hlen, hmore, hwithin⟩ :=
                      clipped_length hlt hpos c rfl
                    refine (hread.bind (q := (ps.length : Int) + run ≤ intMax ∧
                        Fit ((indexRuns palette.length s rounds
                          (ps.length + min run (s - ps.length)) rest').map
                            IndexRun.run)) fun a ha => ?_).congr ?_
                    · rw [ha, Option.map_some, Option.map_some]
                      dsimp only
                      refine run_safe hs h c fun t' ht' => ?_
                      have htail := ih (by omega) rest' ht' ht'.index
                      rw [hlen, ← Nat.sub_sub] at htail
                      exact htail.mono fun r hr => hr.before
                    · dsimp only
                      rw [fit_indexRun]
                      refine and_iff_right_of_imp fun hfit => ?_
                      have := hfit.1
                      omega
      · have hnone : indexRuns palette.length s (rounds + 1) ps.length data = [] := by
          cases data with
          | nil => rfl
          | cons index rest => exact if_neg hlt
        have hdone : paintPaletteRuns palette.toArray s (rounds + 1) data t =
            .ok (true, t) := by
          have hfull : decide ((s : Int) ≤ t.i) = true := decide_eq_true (by omega)
          cases data with
          | nil => rw [paintPaletteRuns, hfull]
          | cons index rest => rw [paintPaletteRuns, if_neg (by omega), hfull]
        rw [show s - ps.length = 0 by omega, decodePaletteRuns, hnone, hdone]
        exact .of_safe (.ok (decodes_done h hlt)) fit_nil

/-! ## Which bodies fit -/

/-- The runs of a body. -/
def runsOf (data : Bytes) (subenc : Nat) (rect : RectHeader)
    (format : PixelFormat) : List (Nat × Nat) :=
  let s := rect.w * rect.h
  if subenc = 128 then codedRuns format s s 0 data
  else
    match pullPixels format (subenc - 128) data with
    | none => []
    | some (palette, rest) =>
        (indexRuns palette.length s s 0 rest).map IndexRun.run

theorem Decodes.positions {qs : List UInt32} {rest : Option (List UInt32)}
    {r : Bool × Canvas} (h : Decodes s qs rest r) :
    ∀ n ∈ r.2.positions, 0 ≤ n ∧ n ≤ (s : Int) := by
  cases rest with
  | none => exact h.2.choose_spec.positions
  | some rest => exact h.2.1.positions

theorem int32_area {rect : RectHeader} (hs : (rect.w * rect.h : Nat) ≤ intMax) :
    int32 (rect.w * rect.h) = .ok (rect.w * rect.h : Nat) := by
  have hmin : intMin ≤ 0 := by decide
  rw [← Int.natCast_mul]
  exact int32_eq (by omega) hs

/-- A body of runs decodes to what it stands for, just if its runs fit. -/
theorem decodeRuns_safe {rect : RectHeader}
    (hs : (rect.w * rect.h : Nat) ≤ intMax) {subenc : Nat}
    (hsub : subenc = 128 ∨ 130 ≤ subenc) (data : Bytes) (format : PixelFormat) :
    SafeElse .overflow (decodeRleInnerInt data subenc rect format)
      (Decodes (rect.w * rect.h) [] (decodeRleInner data subenc rect format))
      (Fit (runsOf data subenc rect format)) := by
  have hblank := painted_blank (rect.w * rect.h)
  unfold decodeRleInnerInt decodeRleInner runsOf
  rw [int32_area hs, ok_bind]
  dsimp only
  rw [if_neg (by omega), if_neg (by omega), if_neg (by omega),
    if_neg (show ¬subenc = 0 by omega), if_neg (show ¬subenc = 1 by omega),
    if_neg (show ¬(2 ≤ subenc ∧ subenc ≤ 16) by omega)]
  by_cases h128 : subenc = 128
  · rw [if_pos h128, if_pos h128, if_pos h128]
    exact paintRuns_safe hs format (Nat.le_refl _) data hblank
  · have hge : subenc ≥ 130 := by omega
    rw [if_neg h128, if_neg h128, if_neg h128, if_pos hge, if_pos hge]
    cases pullPixels format (subenc - 128) data with
    | none => exact .of_safe (.ok (decodes_failed hblank)) fit_nil
    | some p =>
        exact paintPaletteRuns_safe hs p.1 (Nat.le_refl _) p.2 hblank

/-- The sums fit, and the index of a pixel is one of the tile, just if the runs
that are coded fit. Nothing bounds those: a run goes on for as long as the data
does. -/
theorem runs_fit_iff {rect : RectHeader} (hw : rect.w ≤ 4096)
    (hh : rect.h ≤ 4096) {subenc : Nat} (hsub : subenc = 128 ∨ 130 ≤ subenc)
    (data : Bytes) (format : PixelFormat) :
    Safe (decodeRleInnerInt data subenc rect format)
        (fun r => ∀ n ∈ r.2.positions, 0 ≤ n ∧ n ≤ (rect.w * rect.h : Nat)) ↔
      Fit (runsOf data subenc rect format) := by
  have hs : (rect.w * rect.h : Nat) ≤ intMax := by
    have harea : rect.w * rect.h ≤ 4096 * 4096 := Nat.mul_le_mul hw hh
    unfold intMax
    omega
  exact ((decodeRuns_safe hs hsub data format).mono
    fun r hr => hr.positions).iff

/-- One run of four pixels. -/
theorem runs_fit_row :
    Safe (decodeRleInnerInt [0xE0, 3] 128 ⟨0, 0, 4, 1, encRle⟩ .rgb332)
      fun r => ∀ n ∈ r.2.positions, 0 ≤ n ∧ n ≤ ((4 * 1 : Nat) : Int) :=
  (@runs_fit_iff ⟨0, 0, 4, 1, encRle⟩ (by decide) (by decide) 128 (.inl rfl)
    [0xE0, 3] .rgb332).mpr (by decide)

theorem mem_codedRuns {data rest rest' : Bytes} {c : UInt32} {run : Nat}
    {format : PixelFormat} (hs : 0 < s)
    (hpull : pullPixel format data = some (c, rest))
    (hrun : readRun 1 rest = some (run, rest')) :
    (0, run) ∈ codedRuns format s s 0 data := by
  obtain ⟨n, rfl⟩ : ∃ n, s = n + 1 := ⟨s - 1, by omega⟩
  rw [codedRuns, if_pos hs, hpull]
  dsimp only
  rw [hrun]
  exact List.mem_cons_self

/-- A tile of full size. -/
def floodRect : RectHeader := ⟨0, 0, 4096, 4096, encRle⟩

/-- One pixel, and a run of so many bytes of 255. -/
def floodInner (n : Nat) : Bytes := 0 :: runLength (255 * n)

def floodBlock (n : Nat) : Bytes := markerBlock 0 0 (128 :: floodInner n)

theorem length_floodBlock (n : Nat) : (floodBlock n).length = n + 8 := by
  rw [floodBlock, length_markerBlock, List.length_cons, floodInner,
    List.length_cons, length_runLength]
  omega

theorem flood_unfit {n : Nat} (hn : intMax < 1 + 255 * n) :
    ¬Fit (runsOf (floodInner n) 128 floodRect .rgb332) := by
  intro hfit
  have hread := readRun_runLength 1 (255 * n) []
  rw [List.append_nil] at hread
  have hpull : pullPixel .rgb332 (floodInner n) =
      some (rgb332ToArgb 0, runLength (255 * n)) := rfl
  have hmem := mem_codedRuns (s := floodRect.w * floodRect.h) (by decide) hpull
    hread
  have := hfit _ hmem
  omega

theorem flood_overflow {n : Nat} (hn : intMax < 1 + 255 * n) :
    ¬Safe (decodeRleInnerInt ((floodBlock n).drop 6) (byteAt (floodBlock n) 5)
        floodRect .rgb332) fun r => ∀ i ∈ r.2.positions,
      0 ≤ i ∧ i ≤ (floodRect.w * floodRect.h : Nat) := by
  intro hsafe
  have harea : (floodRect.w * floodRect.h : Nat) ≤ intMax := by decide
  have hexact := decodeRuns_safe harea (.inl rfl) (floodInner n) .rgb332
  exact flood_unfit hn ((hexact.mono fun r hr => hr.positions).iff.mp hsafe)

/-- A block that keeps to the ceiling overflows the length of its run. -/
theorem runs_overflow :
    ¬∀ (rect : RectHeader) (format : PixelFormat) (block : Bytes),
      (1 ≤ rect.w ∧ rect.w ≤ 4096) → (1 ≤ rect.h ∧ rect.h ≤ 4096) →
      uncompressedMarker block = true →
      block.length ≤ maxBlock format rect →
      byteAt block 5 = 128 ∨ 130 ≤ byteAt block 5 →
      Safe (decodeRleInnerInt (block.drop 6) (byteAt block 5) rect format)
        fun r => ∀ i ∈ r.2.positions,
          0 ≤ i ∧ i ≤ (rect.w * rect.h : Nat) := by
  intro hall
  obtain ⟨n, hn, hlength⟩ : ∃ n : Nat, intMax < 1 + 255 * n ∧
      n + 8 ≤ maxBlock .rgb332 floodRect := ⟨8421505, by decide, by decide⟩
  refine flood_overflow hn (hall floodRect .rgb332 (floodBlock n) (by decide)
    (by decide) ?_ ?_ (.inl rfl))
  · exact marker_seen 0 0 (List.cons_ne_nil _ _)
  · rw [length_floodBlock]
    exact hlength

end QuMesh.Kvm
