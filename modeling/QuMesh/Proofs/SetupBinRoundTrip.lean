import Mathlib.Data.List.Nodup
import Mathlib.Data.List.Sort
import QuMesh.Proofs.SetupBinBody

/-!
# Saving a `setup.bin` and opening it again

What is written reads back field by field: a record gives back its flags and
what its body kept, and the header its version, its flags and its counters,
since the catalog has two modules and the header room for hundreds. So a file
comes back whole where every record's entries fit their body and the number
of records its counter, and that is all there is to it.

A file that was decoded is one of these. What was read off a body takes no
more than the body, and nothing else is ever written back. A file that was
validated need not be: no rule looks at what the entries of a record come to
together.
-/

namespace QuMesh.Wsman

open QuMesh.Lib

/-! ## Records -/

theorem descramble_scramble (body : Bytes) :
    descrambleSetupBinBody (scrambleSetupBinBody body) = body := by
  have hid : (fun b : UInt8 => b + 0xEF) ∘ (· + 0x11) = id := by
    funext b
    have : (0x11 : UInt8) + 0xEF = 0 := by decide
    rw [Function.comp, UInt8.add_assoc, this, UInt8.add_zero]
    rfl
  rw [descrambleSetupBinBody, scrambleSetupBinBody, List.map_map, hid,
    List.map_id]

theorem scramble_length (body : Bytes) :
    (scrambleSetupBinBody body).length = body.length := List.length_map _

/-- What the record is when its bytes are read again. -/
def reread (std : StdSort) (rec : SetupBinRecord) : SetupBinRecord :=
  { rec with vars := readVariables kRecordBodySize (encodeBody std rec.vars) }

theorem encodeRecord_length (std : StdSort) (k : Nat) (rec : SetupBinRecord) :
    (encodeRecord std k rec).length = kRecordSize := by
  have hbody := encodeBody_length std rec.vars
  rw [encodeRecord, List.length_append]
  split
  · rw [scramble_length, hbody]
    rfl
  · rw [hbody]
    rfl

/-- The header of a record. -/
def recordHeader (k : Nat) (rec : SetupBinRecord) : Bytes :=
  pack32Le 1 ++ pack32Le rec.flags.toNat ++ pack32Le 0 ++ pack32Le 0 ++
    pack16Le 1 ++ pack16Le kRecordHeaderSize ++ pack32Le k

theorem read_recordFlags (k : Nat) (rec : SetupBinRecord) (rest : Bytes) :
    read32Le (recordHeader k rec ++ rest) 4 = rec.flags.toNat := by
  have hread := read32Le_past (pack32Le 1) (pack32Le rec.flags.toNat ++
    (pack32Le 0 ++ pack32Le 0 ++ pack16Le 1 ++ pack16Le kRecordHeaderSize ++
      pack32Le k ++ rest)) 0
  rw [read32Le_pack, Nat.mod_eq_of_lt rec.flags.toNat_lt] at hread
  simp only [recordHeader, List.append_assoc] at hread ⊢
  exact hread

theorem readRecord_encodeRecord (std : StdSort) (k : Nat)
    (rec : SetupBinRecord) :
    readRecord (encodeRecord std k rec) = reread std rec := by
  have hrecord : encodeRecord std k rec = recordHeader k rec ++
      if isScrambled rec.flags
      then scrambleSetupBinBody (encodeBody std rec.vars)
      else encodeBody std rec.vars := rfl
  have hbody := encodeBody_length std rec.vars
  have hdrop (body : Bytes) :
      (recordHeader k rec ++ body).drop kRecordHeaderSize = body := rfl
  rw [hrecord, readRecord, read_recordFlags, UInt32.ofNat_toNat, hdrop, reread]
  by_cases hscrambled : isScrambled rec.flags = true
  · have hlen := hbody ▸ scramble_length (encodeBody std rec.vars)
    simp only [hscrambled, if_true, List.take_of_length_le (Nat.le_of_eq hlen),
      descramble_scramble, hbody]
  · simp only [hscrambled, if_false, List.take_of_length_le (Nat.le_of_eq hbody),
      hbody, Bool.false_eq_true]

theorem encodeRecords_length (std : StdSort) (k : Nat)
    (recs : List SetupBinRecord) :
    (encodeRecords std k recs).length = kRecordSize * recs.length := by
  induction recs generalizing k with
  | nil => rfl
  | cons rec recs ih =>
      rw [encodeRecords, List.length_append, encodeRecord_length, ih,
        List.length_cons, Nat.mul_succ, Nat.add_comm]

theorem readRecords_encodeRecords (std : StdSort) (k : Nat)
    (recs : List SetupBinRecord) {fuel : Nat} (hfuel : recs.length ≤ fuel) :
    readRecords fuel (encodeRecords std k recs) = recs.map (reread std) := by
  induction recs generalizing k fuel with
  | nil =>
      cases fuel with
      | zero => rfl
      | succ fuel => rfl
  | cons rec recs ih =>
      cases fuel with
      | zero => cases hfuel
      | succ fuel =>
          have hlen := encodeRecord_length std k rec
          have hroom : ¬(encodeRecord std k rec ++
              encodeRecords std (k + 1) recs).length < kRecordSize := by
            rw [List.length_append]
            omega
          rw [encodeRecords, readRecords, if_neg hroom, List.take_left' hlen,
            List.drop_left' hlen, readRecord_encodeRecord,
            ih (k + 1) (Nat.le_of_succ_le_succ hfuel), List.map_cons]

theorem readRecords_length (fuel : Nat) (rest : Bytes) :
    kRecordSize * (readRecords fuel rest).length ≤ rest.length := by
  induction fuel generalizing rest with
  | zero => exact Nat.zero_le _
  | succ fuel ih =>
      rw [readRecords]
      split
      · exact Nat.zero_le _
      · next hroom =>
          have hrest := ih (rest.drop kRecordSize)
          rw [List.length_drop] at hrest
          rw [List.length_cons, Nat.mul_succ]
          omega

/-- What was read off a record is of the catalog, and fits a body. -/
theorem readRecord_fit {record : Bytes} (h : record.length = kRecordSize) :
    (∀ v ∈ (readRecord record).vars, v.Known) ∧
      bodySize (readRecord record).vars ≤ kRecordBodySize := by
  have hbody : ((record.drop kRecordHeaderSize).take kRecordBodySize).length =
      kRecordBodySize := by
    rw [List.length_take, List.length_drop, h]
    rfl
  have hclear : (descrambleSetupBinBody
      ((record.drop kRecordHeaderSize).take kRecordBodySize)).length =
      kRecordBodySize := by rw [descrambleSetupBinBody, List.length_map, hbody]
  rw [readRecord]
  dsimp only
  split
  · have hbound := readVariables_bound (descrambleSetupBinBody
      ((record.drop kRecordHeaderSize).take kRecordBodySize)).length
      (by rw [hclear]; rfl)
    exact ⟨hbound.1, Nat.le_trans hbound.2 (Nat.le_of_eq hclear)⟩
  · have hbound := readVariables_bound
      ((record.drop kRecordHeaderSize).take kRecordBodySize).length
      (by rw [hbody]; rfl)
    exact ⟨hbound.1, Nat.le_trans hbound.2 (Nat.le_of_eq hbody)⟩

theorem readRecords_fit (fuel : Nat) (rest : Bytes) :
    ∀ rec ∈ readRecords fuel rest,
      (∀ v ∈ rec.vars, v.Known) ∧ bodySize rec.vars ≤ kRecordBodySize := by
  induction fuel generalizing rest with
  | zero => simp [readRecords]
  | succ fuel ih =>
      rw [readRecords]
      split
      · simp
      · next hroom =>
          intro rec hrec
          rcases List.mem_cons.mp hrec with rfl | hrec
          · refine readRecord_fit ?_
            rw [List.length_take]
            omega
          · exact ih (rest.drop kRecordSize) rec hrec

/-! ## The header -/

/-- The catalog has two modules. -/
theorem modulesInUse_length {file : SetupBinFile}
    (h : ∀ rec ∈ file.records, ∀ v ∈ rec.vars, v.Known) :
    (modulesInUse file).length ≤ 2 := by
  have hsub : modulesInUse file ⊆ [1, 2] ∧ (modulesInUse file).Nodup := by
    refine List.foldlRecOn (motive := fun modules : List Nat =>
      modules ⊆ [1, 2] ∧ modules.Nodup) _ _ ⟨List.nil_subset _, List.nodup_nil⟩ ?_
    rintro modules ⟨hsub, hnodup⟩ var hvar
    obtain ⟨rec, hrec, hvar⟩ := List.mem_flatMap.mp hvar
    obtain ⟨hmod, -⟩ := (h rec hrec var hvar).ids
    dsimp only
    split
    · exact ⟨hsub, hnodup⟩
    · next hnew =>
        rw [List.contains_iff_mem] at hnew
        refine ⟨List.append_subset.mpr ⟨hsub, ?_⟩, ?_⟩
        · rw [List.cons_subset, toU16]
          rcases (by omega : var.moduleId = 1 ∨ var.moduleId = 2) with
            hm | hm
          · rw [hm]
            exact ⟨by decide, List.nil_subset _⟩
          · rw [hm]
            exact ⟨by decide, List.nil_subset _⟩
        · exact List.nodup_append_comm.mp (List.nodup_cons.mpr ⟨hnew, hnodup⟩)
  exact (List.subperm_of_subset hsub.2 hsub.1).length_le

/-- The versions the encoder knows. -/
def SetupBinFile.Versioned (file : SetupBinFile) : Prop :=
  1 ≤ file.version ∧ file.version ≤ 4

/-- What is in front of the fields the decoder reads. -/
def headerPrefix (file : SetupBinFile) : Bytes :=
  kFileTypeGuids.getD (file.version - 1).toNat [] ++
    (pack16Le 0 ++ pack16Le (42 + (modulesInUse file).length * 2) ++
      pack32Le 0 ++ [UInt8.ofInt file.version, 0])

theorem fileTypeGuids_find : ∀ i < 4,
    (kFileTypeGuids.getD i []).length = 16 ∧
      kFileTypeGuids.findIdx? (· == kFileTypeGuids.getD i []) = some i := by
  decide

theorem headerPrefix_length {file : SetupBinFile} (h : file.Versioned) :
    (headerPrefix file).length = 26 := by
  obtain ⟨h₁, h₂⟩ := h
  rw [headerPrefix, List.length_append,
    (fileTypeGuids_find (file.version - 1).toNat (by omega)).1]
  rfl

/-- What is behind them. -/
def headerSuffix (file : SetupBinFile) : Bytes :=
  pack16Le 1 ++ (pack16Le 0 ++ (modulesInUse file).flatMap pack16Le)

theorem encodeHeader_eq (file : SetupBinFile) :
    encodeHeader file = padTo kHeaderSize (headerPrefix file ++
      (pack16Le file.flags.toNat ++ (pack32Le file.records.length ++
        (pack32Le file.dataRecordsConsumed.toNat ++ headerSuffix file)))) := by
  simp only [encodeHeader, headerPrefix, headerSuffix, List.append_assoc]

theorem flatMap_pack16Le_length (ns : List Nat) :
    (ns.flatMap pack16Le).length = 2 * ns.length := by
  induction ns with
  | nil => rfl
  | cons n ns ih =>
      rw [List.flatMap_cons, List.length_append, ih, List.length_cons,
        Nat.mul_succ, Nat.add_comm]
      rfl

theorem encodeHeader_length {file : SetupBinFile} (h : file.Versioned)
    (hknown : ∀ rec ∈ file.records, ∀ v ∈ rec.vars, v.Known) :
    (encodeHeader file).length = kHeaderSize := by
  have hmodules := modulesInUse_length hknown
  have hsuffix : (headerSuffix file).length =
      4 + 2 * (modulesInUse file).length := by
    rw [headerSuffix, ← List.append_assoc, List.length_append,
      flatMap_pack16Le_length]
    rfl
  have h16 (n : Nat) : (pack16Le n).length = 2 := rfl
  have h32 (n : Nat) : (pack32Le n).length = 4 := rfl
  rw [encodeHeader_eq, padTo_length, List.length_append, List.length_append,
    List.length_append, List.length_append, headerPrefix_length h, hsuffix,
    h16, h32, h32, kHeaderSize]
  omega

/-- The fields of the header, read off a file that starts with it. -/
theorem encodeHeader_reads {file : SetupBinFile} (h : file.Versioned)
    (rest : Bytes) :
    (encodeHeader file ++ rest).take 16 =
        kFileTypeGuids.getD (file.version - 1).toNat [] ∧
      read16Le (encodeHeader file ++ rest) 26 = file.flags.toNat ∧
      read32Le (encodeHeader file ++ rest) 28 =
        file.records.length % 2 ^ 32 ∧
      read32Le (encodeHeader file ++ rest) 32 =
        file.dataRecordsConsumed.toNat := by
  have hlen := headerPrefix_length h
  have hpast (body : Bytes) (off : Nat) :
      read16Le (headerPrefix file ++ body) (26 + off) = read16Le body off := by
    rw [← hlen, read16Le_past]
  have hpast' (body : Bytes) (off : Nat) :
      read32Le (headerPrefix file ++ body) (26 + off) = read32Le body off := by
    rw [← hlen, read32Le_past]
  have hguid := (fileTypeGuids_find (file.version - 1).toNat
    (by have := h.2; omega)).1
  rw [encodeHeader_eq, padTo]
  simp only [List.append_assoc]
  refine ⟨?_, ?_, ?_, ?_⟩
  · rw [headerPrefix, List.append_assoc, List.take_left' hguid]
  · rw [hpast _ 0, read16Le_pack, Nat.mod_eq_of_lt file.flags.toNat_lt]
  · rw [hpast' _ 2]
    exact read32Le_past (pack16Le file.flags.toNat) _ 0 |>.trans
      (read32Le_pack _ _)
  · rw [hpast' _ 6]
    exact (read32Le_past (pack16Le file.flags.toNat ++
      pack32Le file.records.length) _ 0).trans ((read32Le_pack _ _).trans
        (Nat.mod_eq_of_lt file.dataRecordsConsumed.toNat_lt))

/-! ## The file -/

theorem fileVersionForUuid_encodeHeader {file : SetupBinFile}
    (h : file.Versioned)
    (hknown : ∀ rec ∈ file.records, ∀ v ∈ rec.vars, v.Known) (rest : Bytes) :
    (fileVersionForUuid (encodeHeader file ++ rest) : Int) = file.version := by
  obtain ⟨hguid, -⟩ := encodeHeader_reads h rest
  have hlen : ¬(encodeHeader file ++ rest).length < kHeaderSize := by
    rw [List.length_append, encodeHeader_length h hknown]
    omega
  obtain ⟨h₁, h₂⟩ := h
  have hfind := (fileTypeGuids_find (file.version - 1).toNat (by omega)).2
  rw [fileVersionForUuid, if_neg hlen, hguid, hfind]
  dsimp only
  omega

/-- The longest file whose offsets an `int` can hold has this many records and
no more. -/
def maxRecords : Nat := 2 ^ 22 - 3

/-- What opening a saved file gives. -/
theorem decode_encode (std : StdSort) {file : SetupBinFile}
    (h : file.Versioned)
    (hknown : ∀ rec ∈ file.records, ∀ v ∈ rec.vars, v.Known) :
    decodeSetupBin (encodeSetupBin std file) =
      if file.records.length ≤ maxRecords then
        some { file with records := file.records.map (reread std) }
      else none := by
  obtain ⟨-, hflags, hdeclared, hconsumed⟩ :=
    encodeHeader_reads h (encodeRecords std 1 file.records)
  have hversion := fileVersionForUuid_encodeHeader h hknown
    (encodeRecords std 1 file.records)
  have hheader := encodeHeader_length h hknown
  have hlen : (encodeHeader file ++ encodeRecords std 1 file.records).length =
      kHeaderSize + kRecordSize * file.records.length := by
    rw [List.length_append, hheader, encodeRecords_length]
  have hrecords : readRecords
      (encodeHeader file ++ encodeRecords std 1 file.records).length
      ((encodeHeader file ++ encodeRecords std 1 file.records).drop
        kHeaderSize) = file.records.map (reread std) := by
    rw [List.drop_left' hheader]
    refine readRecords_encodeRecords std 1 file.records ?_
    rw [hlen, kHeaderSize, kRecordSize]
    omega
  have hencode : encodeSetupBin std file =
      encodeHeader file ++ encodeRecords std 1 file.records := by
    have hin : ¬(file.version < 1 ∨ file.version > kFileTypeGuids.length) := by
      have hguids : kFileTypeGuids.length = 4 := rfl
      have := h.1
      have := h.2
      omega
    rw [encodeSetupBin, if_neg hin]
  have hzero : fileVersionForUuid
      (encodeHeader file ++ encodeRecords std 1 file.records) ≠ 0 := by
    have := h.1
    omega
  have hsmall : ((kHeaderSize + kRecordSize * file.records.length) /
      kRecordSize + 1) * kRecordSize ≥ 2 ^ 31 ↔
      ¬file.records.length ≤ maxRecords := by
    rw [kHeaderSize, kRecordSize, maxRecords]
    omega
  rw [hlen] at hrecords
  rw [hencode, decodeSetupBin]
  simp only [hflags, hdeclared, hconsumed, hversion, hlen, hzero, hrecords,
    if_false, List.length_map, hsmall, UInt16.ofNat_toNat, UInt32.ofNat_toNat]
  by_cases hmax : file.records.length ≤ maxRecords
  · have hcount : signed32 (file.records.length % 2 ^ 32) =
        file.records.length := by
      rw [maxRecords] at hmax
      rw [Nat.mod_eq_of_lt (by omega), signed32, if_pos (by omega)]
    simp only [hmax, not_true, if_false, hcount, ne_eq, if_true]
  · simp only [hmax, not_false_eq_true, if_true, if_false]

/-- Same flags, and the same variables in the order of their ids. -/
structure SameRecord (a b : SetupBinRecord) : Prop where
  flags : b.flags = a.flags
  perm : b.vars.Perm a.vars
  sorted : b.vars.Pairwise fun v w => w.before v = false

/-- Nothing of `f` is lost in `g`. -/
structure Preserved (f g : SetupBinFile) : Prop where
  version : g.version = f.version
  flags : g.flags = f.flags
  dataRecordsConsumed : g.dataRecordsConsumed = f.dataRecordsConsumed
  records : List.Forall₂ SameRecord f.records g.records

/-- A record is reread as it was if its entries fit the body, and only then. -/
theorem sameRecord_reread (std : StdSort) {rec : SetupBinRecord}
    (h : ∀ v ∈ rec.vars, v.Known) :
    SameRecord rec (reread std rec) ↔ bodySize rec.vars ≤ kRecordBodySize := by
  constructor
  · rintro ⟨-, hperm, -⟩
    have hlen := encodeBody_length std rec.vars
    have hfour : (encodeBody std rec.vars).length % 4 = 0 := by rw [hlen]; rfl
    obtain ⟨-, hbound⟩ := readVariables_bound kRecordBodySize hfour
    rw [hlen] at hbound
    rw [← bodySize_perm hperm]
    exact hbound
  · intro hfit
    have hvars : (reread std rec).vars = std.sort rec.vars :=
      readVariables_encodeBody std h hfit
    exact ⟨rfl, hvars ▸ std.perm rec.vars, hvars ▸ std.sorted rec.vars⟩

/-- A file of variables of the catalog comes back whole exactly where its
records fit their bodies, and an `int` the file. -/
theorem preserved_iff (std : StdSort) {file : SetupBinFile}
    (h : file.Versioned)
    (hknown : ∀ rec ∈ file.records, ∀ v ∈ rec.vars, v.Known) :
    (∃ g, decodeSetupBin (encodeSetupBin std file) = some g ∧
        Preserved file g) ↔
      file.records.length ≤ maxRecords ∧
        ∀ rec ∈ file.records, bodySize rec.vars ≤ kRecordBodySize := by
  have hsame : List.Forall₂ SameRecord file.records
      (file.records.map (reread std)) ↔
      ∀ rec ∈ file.records, bodySize rec.vars ≤ kRecordBodySize := by
    rw [List.forall₂_map_right_iff, List.forall₂_same]
    exact forall₂_congr fun rec hrec => sameRecord_reread std (hknown rec hrec)
  rw [decode_encode std h hknown]
  split
  · next hmax =>
      constructor
      · rintro ⟨g, hg, hpreserved⟩
        cases hg
        exact ⟨hmax, hsame.mp hpreserved.records⟩
      · rintro ⟨-, hfit⟩
        exact ⟨_, rfl, rfl, rfl, rfl, hsame.mpr hfit⟩
  · next hmax =>
      constructor
      · rintro ⟨g, hg, -⟩
        cases hg
      · rintro ⟨hle, -⟩
        exact absurd hle hmax

/-! ## A sort -/

/-- The order `std::sort` leaves its elements in. -/
def SetupBinVariable.le (a b : SetupBinVariable) : Prop := b.before a = false

instance : DecidableRel SetupBinVariable.le := fun a b =>
  inferInstanceAs (Decidable (b.before a = false))

theorem SetupBinVariable.le_iff (a b : SetupBinVariable) :
    a.le b ↔ a.moduleId < b.moduleId ∨
      (a.moduleId = b.moduleId ∧ a.varId ≤ b.varId) := by
  rw [le, before]
  split
  · rw [decide_eq_false_iff_not]
    omega
  · rw [decide_eq_false_iff_not]
    omega

/-- One that `std::sort` may be: insertion, which keeps equal keys in order. -/
def StdSort.insertion : StdSort where
  sort := List.insertionSort SetupBinVariable.le
  perm := List.perm_insertionSort SetupBinVariable.le
  sorted := by
    have htotal : Std.Total SetupBinVariable.le := ⟨fun a b => by
      rw [SetupBinVariable.le_iff, SetupBinVariable.le_iff]
      omega⟩
    have htrans : IsTrans SetupBinVariable SetupBinVariable.le :=
      ⟨fun a b c => by
        rw [SetupBinVariable.le_iff, SetupBinVariable.le_iff,
          SetupBinVariable.le_iff]
        omega⟩
    exact List.pairwise_insertionSort SetupBinVariable.le

/-! ## What was decoded -/

theorem fileVersionForUuid_le (bytes : Bytes) :
    fileVersionForUuid bytes ≤ 4 := by
  rw [fileVersionForUuid]
  split
  · exact Nat.zero_le 4
  · split
    · next i hi =>
        obtain ⟨hlt, -⟩ := List.findIdx?_eq_some_iff_getElem.mp hi
        exact hlt
    · exact Nat.zero_le 4

/-- A decoded file is of its version, its variables of the catalog, and its
records and their entries have room. -/
theorem decodeSetupBin_fit {bytes : Bytes} {f : SetupBinFile}
    (h : decodeSetupBin bytes = some f) :
    f.Versioned ∧ f.records.length ≤ maxRecords ∧ ∀ rec ∈ f.records,
      (∀ v ∈ rec.vars, v.Known) ∧ bodySize rec.vars ≤ kRecordBodySize := by
  have hle := fileVersionForUuid_le bytes
  have hlen := readRecords_length bytes.length (bytes.drop kHeaderSize)
  rw [decodeSetupBin] at h
  dsimp only at h
  split at h
  · cases h
  · next hversion =>
      split at h
      · cases h
      · next hsmall =>
          split at h
          · cases h
          · cases h
            refine ⟨⟨?_, ?_⟩, ?_, ?_⟩
            · dsimp only
              omega
            · dsimp only
              omega
            · rw [List.length_drop, kRecordSize] at hlen
              rw [kRecordSize] at hsmall
              show (readRecords bytes.length (bytes.drop kHeaderSize)).length ≤
                maxRecords
              rw [maxRecords]
              have : kHeaderSize = 512 := rfl
              omega
            · exact readRecords_fit bytes.length (bytes.drop kHeaderSize)

/-- Re-saving an opened file loses nothing: whatever bytes the decoder takes,
it takes what the encoder makes of them, and reads the same version, flags and
counter off it, and in every record the same variables in the order of their
ids, scrambled or not. -/
theorem setup_bin_reencoded (std : StdSort) {bytes : Bytes} {f : SetupBinFile}
    (h : decodeSetupBin bytes = some f) :
    ∃ g, decodeSetupBin (encodeSetupBin std f) = some g ∧ Preserved f g := by
  obtain ⟨hversion, hmax, hrecords⟩ := decodeSetupBin_fit h
  have hknown : ∀ rec ∈ f.records, ∀ v ∈ rec.vars, v.Known :=
    fun rec hrec => (hrecords rec hrec).1
  exact (preserved_iff std hversion hknown).mpr
    ⟨hmax, fun rec hrec => (hrecords rec hrec).2⟩

/-- Two variables of the catalog, not in order, and one between them that is
not, in a scrambled body. -/
def scrambledFile : Bytes :=
  kFileTypeGuids.getD 2 [] ++ List.replicate 10 0 ++ pack16Le 1 ++
    pack32Le 1 ++ pack32Le 7 ++ List.replicate 476 0 ++
    pack32Le 1 ++ pack32Le 3 ++ List.replicate 16 0 ++
    scrambleSetupBinBody (padTo kRecordBodySize
      (encodeEntry ⟨2, 13, [5]⟩ ++ encodeEntry ⟨9, 9, [1, 2, 3]⟩ ++
        encodeEntry ⟨1, 2, [6, 7]⟩))

set_option maxRecDepth 10000 in
theorem setup_bin_reencoded_scrambled :
    ∃ g, decodeSetupBin (encodeSetupBin .insertion
        ⟨3, 1, 7, [⟨3, [⟨2, 13, [5]⟩, ⟨1, 2, [6, 7]⟩]⟩]⟩) = some g ∧
      Preserved ⟨3, 1, 7, [⟨3, [⟨2, 13, [5]⟩, ⟨1, 2, [6, 7]⟩]⟩]⟩ g := by
  have hdecode : decodeSetupBin scrambledFile =
      some ⟨3, 1, 7, [⟨3, [⟨2, 13, [5]⟩, ⟨1, 2, [6, 7]⟩]⟩]⟩ := by
    decide
  exact setup_bin_reencoded .insertion hdecode

/-! ## What was validated -/

/-- An answer that is an error has a text. -/
def Told {α : Type} (r : Except String α) : Prop :=
  ∀ message, r = .error message → message ≠ ""

theorem told_ok {α : Type} (a : α) : Told (Except.ok a) :=
  fun _ h => nomatch h

theorem Told.bind {α β : Type} {r : Except String α}
    {f : α → Except String β} (h : Told r) (hf : ∀ a, Told (f a)) :
    Told (r >>= f) := by
  cases r with
  | error message => exact fun m hm => h m (by cases hm; rfl)
  | ok a => exact hf a

theorem told_foldlM {α β : Type} {f : β → α → Except String β}
    (h : ∀ b a, Told (f b a)) (as : List α) (b : β) : Told (as.foldlM f b) := by
  induction as generalizing b with
  | nil => exact told_ok b
  | cons a as ih =>
      rw [List.foldlM_cons]
      exact (h b a).bind ih

theorem told_error {α : Type} {text : String} (h : text ≠ "") :
    Told (Except.error text : Except String α) := by
  rintro message ⟨⟩
  exact h

theorem told_checkValue (spec : SetupBinVarSpec) (var : SetupBinVariable) :
    Told (checkValue spec var) := by
  rw [checkValue]
  split
  · split
    · exact told_error (by simp [toString])
    · exact told_ok ()
  · dsimp only
    split
    · split
      · exact told_error (by simp [toString])
      · exact told_ok ()
    · exact told_ok ()

theorem told_scanVariable (recIdx : Nat) (scan : RecordScan)
    (var : SetupBinVariable) : Told (scanVariable recIdx scan var) := by
  rw [scanVariable]
  split
  · exact told_error (by simp [toString])
  · split
    · exact told_error (by simp [toString])
    · next spec _ =>
        exact (told_checkValue spec var).bind fun _ => told_ok _

theorem told_checkRecord (version : Int) (scan : RecordScan) :
    Told (checkRecord version scan) := by
  rw [checkRecord]
  split
  · exact told_error (by simp)
  · split
    · exact told_error (by simp)
    · split
      · exact told_error (by simp)
      · exact told_ok ()

theorem told_checkRecords (version : Int) (recIdx : Nat) (cert : CertConfig)
    (recs : List SetupBinRecord) :
    Told (checkRecords version recIdx cert recs) := by
  induction recs generalizing recIdx cert with
  | nil => exact told_ok ()
  | cons rec recs ih =>
      rw [checkRecords]
      exact (told_foldlM (told_scanVariable recIdx) rec.vars _).bind
        fun scan => (told_checkRecord version scan).bind
          fun _ => ih (recIdx + 1) scan.cert

theorem scanVariable_known {recIdx : Nat} {scan scan' : RecordScan}
    {var : SetupBinVariable} (h : scanVariable recIdx scan var = .ok scan') :
    var.Known := by
  rw [scanVariable] at h
  split at h
  · cases h
  · split at h
    · cases h
    · next spec hspec =>
        rw [SetupBinVariable.Known, hspec]
        rfl

theorem scanVariables_known {recIdx : Nat} {vars : List SetupBinVariable}
    {scan scan' : RecordScan}
    (h : vars.foldlM (scanVariable recIdx) scan = .ok scan') :
    ∀ v ∈ vars, v.Known := by
  induction vars generalizing scan with
  | nil => simp
  | cons w vars ih =>
      rw [List.foldlM_cons] at h
      cases hw : scanVariable recIdx scan w with
      | error message =>
          rw [hw] at h
          cases h
      | ok next =>
          rw [hw] at h
          intro v hv
          rcases List.mem_cons.mp hv with rfl | hv
          · exact scanVariable_known hw
          · exact ih h v hv

theorem checkRecords_known {version : Int} {recIdx : Nat} {cert : CertConfig}
    {recs : List SetupBinRecord}
    (h : checkRecords version recIdx cert recs = .ok ()) :
    ∀ rec ∈ recs, ∀ v ∈ rec.vars, v.Known := by
  induction recs generalizing recIdx cert with
  | nil => simp
  | cons r recs ih =>
      rw [checkRecords] at h
      cases hscan : r.vars.foldlM (scanVariable recIdx) { cert } with
      | error message =>
          rw [hscan] at h
          cases h
      | ok scan =>
          rw [hscan] at h
          cases hcheck : checkRecord version scan with
          | error message =>
              simp only [bind, Except.bind, hcheck] at h
              cases h
          | ok _ =>
              simp only [bind, Except.bind, hcheck] at h
              intro rec hrec
              rcases List.mem_cons.mp hrec with rfl | hrec
              · exact scanVariables_known hscan
              · exact ih h rec hrec

/-- A file that was validated is of a version, and its variables of the
catalog. -/
theorem validateSetupBin_known {file : SetupBinFile}
    (h : validateSetupBin file = "") :
    file.Versioned ∧ ∀ rec ∈ file.records, ∀ v ∈ rec.vars, v.Known := by
  rw [validateSetupBin] at h
  split at h
  · simp [toString] at h
  · next hversion =>
      have hguids : kFileTypeGuids.length = 4 := rfl
      have htold := told_checkRecords file.version 0 {} file.records
      split at h
      · next message herror => exact absurd h (htold message herror)
      · next hok =>
          exact ⟨⟨by omega, by omega⟩, checkRecords_known hok⟩

/-- Validation does not look at what the entries of a record come to
together. A file it accepts comes back whole from the encoder, with the
variables of each record in the order of their ids, exactly where the entries
of every record fit its body, and an `int` the file. -/
theorem setup_bin_accepted (std : StdSort) {file : SetupBinFile}
    (h : validateSetupBin file = "") :
    (∃ g, decodeSetupBin (encodeSetupBin std file) = some g ∧
        Preserved file g) ↔
      file.records.length ≤ maxRecords ∧
        ∀ rec ∈ file.records, bodySize rec.vars ≤ kRecordBodySize := by
  obtain ⟨hversion, hknown⟩ := validateSetupBin_known h
  exact preserved_iff std hversion hknown

/-- Two host names that fit, one in each of two records. -/
def namesApart : SetupBinFile where
  records := [{ vars := [⟨2, 4, List.replicate 255 0x62⟩] },
    { vars := [⟨2, 3, List.replicate 255 0x61⟩] }]

set_option maxRecDepth 10000 in
theorem setup_bin_accepted_apart :
    ∃ g, decodeSetupBin (encodeSetupBin .insertion namesApart) = some g ∧
      Preserved namesApart g :=
  (setup_bin_accepted .insertion (by decide)).mpr
    ⟨by decide, by decide⟩

/-- The same two: each within the longest the rules allow, and together more
than a body. -/
def bothNames : SetupBinRecord where
  vars := [⟨2, 4, List.replicate 255 0x62⟩, ⟨2, 3, List.replicate 255 0x61⟩]

def namesTogether : SetupBinFile where
  records := [bothNames]

set_option maxRecDepth 10000 in
theorem setup_bin_accepted_lost :
    validateSetupBin namesTogether = "" ∧
      ¬∃ g, decodeSetupBin (encodeSetupBin .insertion namesTogether) = some g ∧
        Preserved namesTogether g := by
  have hvalid : validateSetupBin namesTogether = "" := by decide
  obtain ⟨hversion, hknown⟩ := validateSetupBin_known hvalid
  refine ⟨hvalid, fun h => ?_⟩
  obtain ⟨-, hfit⟩ := (preserved_iff .insertion hversion hknown).mp h
  have hlong : ¬bodySize bothNames.vars ≤ kRecordBodySize := by decide
  exact hlong (hfit bothNames List.mem_cons_self)

end QuMesh.Wsman
