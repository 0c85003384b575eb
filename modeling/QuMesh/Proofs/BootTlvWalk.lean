import Mathlib.Data.List.Forall2
import Mathlib.Data.Nat.Bitwise
import QuMesh.Wsman.BootTlv

/-!
# Walking the boot parameters

Each builder is asked for a list of parameters, `BootTlv.params`, and writes one
entry for each. A reader takes as many entries as the builder reports and has to
be at the end then, with the parameters in its hands.

No builder refuses anything. What is too long for a length field is written with
the rest of its length, so the blob is walked exactly where the lengths fit: the
length of a path into 16 bits, which is a value of its own, and those of the
entries into 32. The entries in front of the first one that does not fit are
read as they should be; this one is not, as the value that is read has another
length.
-/

namespace QuMesh.Wsman

open QuMesh.Lib

/-! ## The reader -/

structure Tlv where
  vendor : Nat
  type : Nat
  value : Bytes
  deriving DecidableEq, Repr

/-- One entry and what stands behind it, if all of it is there. -/
def walkOne (blob : Bytes) : Option (Tlv × Bytes) :=
  let length := read32Le blob 4
  if 8 + length ≤ blob.length then
    some ({ vendor := read16Le blob 0
            type := read16Le blob 2
            value := (blob.drop 8).take length }, blob.drop (8 + length))
  else none

/-- So many entries, up to the end. -/
def walk : Nat → Bytes → Option (List Tlv)
  | 0, blob => if blob = [] then some [] else none
  | count + 1, blob =>
      match walkOne blob with
      | none => none
      | some (e, rest) => (walk count rest).map (e :: ·)

/-! ## What the builders are asked for -/

inductive ParamValue where
  | bytes (b : Bytes)
  | number16 (n : Nat)
  | number32 (n : Nat)
  deriving DecidableEq

structure Param where
  type : Nat
  value : ParamValue
  deriving DecidableEq

/-- What is read of a parameter. -/
def ParamValue.Read (b : Bytes) : ParamValue → Prop
  | .bytes v => b = v
  | .number16 n => b.length = 2 ∧ read16Le b 0 = n
  | .number32 n => b.length = 4 ∧ read32Le b 0 = n

/-- The field that the parameter needs is wide enough. -/
def ParamValue.Fits : ParamValue → Prop
  | .bytes b => b.length < 2 ^ 32
  | .number16 n => n < 2 ^ 16
  | .number32 n => n < 2 ^ 32

/-- The entry says the parameter. -/
def Param.Says (p : Param) (e : Tlv) : Prop :=
  e.vendor = kVendorIntel ∧ e.type = p.type ∧ p.value.Read e.value

inductive BootTlv where
  | httpsBootUrl (url : Text)
  | ocrPbaBoot (bootString : Text)
  | ocrHttpsBootPinned (p : HttpsBootPinned)
  | platformErase (flags : UInt32) (psid ssdPassword : Text)

namespace BootTlv

def build : BootTlv → TlvBlob
  | httpsBootUrl url => buildHttpsBootUrlTlv url
  | ocrPbaBoot bootString => buildOcrPbaBootTlv bootString
  | ocrHttpsBootPinned p => buildOcrHttpsBootPinnedTlv p
  | platformErase flags psid ssdPassword =>
      buildPlatformEraseTlv flags psid ssdPassword

/-- The pin of a hash, if there is one under an algorithm that is known. -/
def pin (sha256 sha384 sha512 : Nat) (alg : String) (hash : Bytes) :
    List Param :=
  if hash = [] then []
  else if alg.toLower = "sha256" then [⟨sha256, .bytes hash⟩]
  else if alg.toLower = "sha384" then [⟨sha384, .bytes hash⟩]
  else if alg.toLower = "sha512" then [⟨sha512, .bytes hash⟩]
  else []

def params : BootTlv → List Param
  | httpsBootUrl url =>
      [⟨1, .bytes url.utf8⟩, ⟨20, .bytes [1]⟩, ⟨30, .number16 0⟩]
  | ocrPbaBoot bootString =>
      [⟨2, .bytes bootString.utf8⟩, ⟨3, .number16 bootString.utf8.length⟩]
  | ocrHttpsBootPinned p =>
      [⟨1, .bytes p.url.utf8⟩] ++ pin 4 5 6 p.hashAlg p.imageHash ++
        [⟨20, .bytes [1]⟩] ++
        pin 23 24 25 p.pinnedServerCertHashAlg p.pinnedServerCertHash ++
        (if p.username.isEmpty then [] else [⟨40, .bytes p.username.utf8⟩]) ++
        if p.password.isEmpty then [] else [⟨41, .bytes p.password.utf8⟩]
  | platformErase flags psid ssdPassword =>
      [⟨1, .number32 flags.toNat⟩] ++
        (if flags.toNat.testBit 1 ∧ !psid.isEmpty then
          [⟨10, .bytes psid.utf8⟩] else []) ++
        if flags.toNat.testBit 2 ∧ !ssdPassword.isEmpty then
          [⟨20, .bytes ssdPassword.utf8⟩] else []

/-- The blob is walked to its end in as many entries as are reported, and they
say what the builder was asked for. -/
def Walks (t : BootTlv) : Prop :=
  ∃ es, walk t.build.count t.build.blob = some es ∧
    es.length = t.build.count ∧ List.Forall₂ Param.Says t.params es

end BootTlv

/-! ## What the builders write -/

def ParamValue.data : ParamValue → Bytes
  | .bytes b => b
  | .number16 n => pack16Le n
  | .number32 n => pack32Le n

/-- Entries for parameters, behind others. -/
def TlvBlob.addAll (t : TlvBlob) (ps : List Param) : TlvBlob :=
  ps.foldl (fun t p => t.add p.type p.value.data) t

theorem TlvBlob.addAll_append (t : TlvBlob) (ps qs : List Param) :
    t.addAll (ps ++ qs) = (t.addAll ps).addAll qs :=
  List.foldl_append ..

/-- A pin, as the builder writes it. -/
theorem addAll_pin (t : TlvBlob) (types : String → Nat)
    (sha256 sha384 sha512 : Nat) (hpos : sha256 ≠ 0 ∧ sha384 ≠ 0 ∧ sha512 ≠ 0)
    (htypes : ∀ alg, types alg =
      if alg.toLower = "sha256" then sha256
      else if alg.toLower = "sha384" then sha384
      else if alg.toLower = "sha512" then sha512
      else 0) (alg : String) (hash : Bytes) :
    (if alg ≠ "" ∧ hash ≠ [] then
      if types alg ≠ 0 then t.add (types alg) hash else t
    else t) = t.addAll (BootTlv.pin sha256 sha384 sha512 alg hash) := by
  obtain ⟨h256, h384, h512⟩ := hpos
  have hempty : "".toLower ≠ "sha256" ∧ "".toLower ≠ "sha384" ∧
      "".toLower ≠ "sha512" := by
    decide +kernel
  unfold BootTlv.pin
  rw [htypes]
  by_cases hhash : hash = []
  · simp [hhash, TlvBlob.addAll]
  · by_cases halg : alg = ""
    · simp [halg, hempty, TlvBlob.addAll]
    · rw [if_pos ⟨halg, hhash⟩, if_neg hhash]
      by_cases h₁ : alg.toLower = "sha256"
      · simp only [if_pos h₁, if_pos h256]
        rfl
      by_cases h₂ : alg.toLower = "sha384"
      · simp only [if_neg h₁, if_pos h₂, if_pos h384]
        rfl
      by_cases h₃ : alg.toLower = "sha512"
      · simp only [if_neg h₁, if_neg h₂, if_pos h₃, if_pos h512]
        rfl
      · simp only [if_neg h₁, if_neg h₂, if_neg h₃, ne_eq, not_true_eq_false,
          if_false]
        rfl

theorem testBit_flag (flags : UInt32) (i : Nat) (bit : UInt32)
    (hbit : bit.toNat = 2 ^ i) :
    flags &&& bit ≠ 0 ↔ flags.toNat.testBit i = true := by
  have hzero : flags &&& bit = 0 ↔ flags.toNat &&& 2 ^ i = 0 := by
    rw [← UInt32.toNat_inj, UInt32.toNat_and, hbit]
    exact Iff.rfl
  have hpos : 0 < 2 ^ i := Nat.two_pow_pos i
  rw [ne_eq, hzero, Nat.and_two_pow]
  cases flags.toNat.testBit i with
  | true => simp
  | false => simp

/-- An entry that is written if there is something to write. -/
theorem add_text (t : TlvBlob) {p : Prop} [Decidable p] (type : Nat)
    (text : Text) :
    (if p ∧ !text.isEmpty then t.add type text.utf8 else t) =
      t.addAll (if p ∧ !text.isEmpty then [⟨type, .bytes text.utf8⟩] else []) := by
  split <;> rfl

namespace BootTlv

/-- A builder writes the parameters that it is asked for. -/
theorem build_eq (t : BootTlv) : t.build = ({} : TlvBlob).addAll t.params := by
  cases t with
  | httpsBootUrl url => rfl
  | ocrPbaBoot bootString => rfl
  | ocrHttpsBootPinned p =>
      have himage := fun t => addAll_pin t ocrImageHashType 4 5 6 (by decide)
        (fun _ => rfl) p.hashAlg p.imageHash
      have hserver := fun t => addAll_pin t ocrServerCertHashType 23 24 25
        (by decide) (fun _ => rfl) p.pinnedServerCertHashAlg
        p.pinnedServerCertHash
      unfold build buildOcrHttpsBootPinnedTlv params
      dsimp only
      simp only [himage, hserver, TlvBlob.addAll_append]
      cases p.username.isEmpty <;> cases p.password.isEmpty <;> rfl
  | platformErase flags psid ssdPassword =>
      have hpyrite := testBit_flag flags 1 ((1 : UInt32) <<< 1) (by decide)
      have hssd := testBit_flag flags 2 ((1 : UInt32) <<< 2) (by decide)
      unfold build buildPlatformEraseTlv params
      simp only [hpyrite, hssd, add_text, TlvBlob.addAll_append]
      rfl

end BootTlv

/-- The entries, one after the other. -/
def encode (ps : List Param) : Bytes :=
  ps.flatMap fun p => appendTlv [] kVendorIntel p.type p.value.data

theorem addAll_eq (t : TlvBlob) (ps : List Param) :
    t.addAll ps = { blob := t.blob ++ encode ps, count := t.count + ps.length } := by
  induction ps generalizing t with
  | nil => simp [TlvBlob.addAll, encode]
  | cons p ps ih =>
      have hcons : t.addAll (p :: ps) = (t.add p.type p.value.data).addAll ps :=
        rfl
      rw [hcons, ih]
      simp only [TlvBlob.add, appendTlv, encode, List.flatMap_cons,
        List.append_assoc, List.nil_append, List.length_cons, TlvBlob.mk.injEq,
        true_and]
      omega

/-! ## What the reader finds -/

/-- An entry with the length that is written for it. -/
theorem walkOne_entry (type : Nat) (data rest : Bytes) :
    walkOne (appendTlv [] kVendorIntel type data ++ rest) =
      if data.length % 2 ^ 32 ≤ data.length + rest.length then
        some ({ vendor := kVendorIntel
                type := type % 2 ^ 16
                value := (data ++ rest).take (data.length % 2 ^ 32) },
          (data ++ rest).drop (data.length % 2 ^ 32))
      else none := by
  have hblob : appendTlv [] kVendorIntel type data ++ rest =
      pack16Le kVendorIntel ++ (pack16Le type ++ (pack32Le data.length ++
        (data ++ rest))) := by
    simp only [appendTlv, List.nil_append, List.append_assoc]
  have hlength : read32Le (appendTlv [] kVendorIntel type data ++ rest) 4 =
      data.length % 2 ^ 32 := by
    rw [hblob]
    have h := read32Le_past (pack16Le kVendorIntel ++ pack16Le type)
      (pack32Le data.length ++ (data ++ rest)) 0
    rw [List.append_assoc] at h
    exact h.trans (read32Le_pack _ _)
  have htype : read16Le (appendTlv [] kVendorIntel type data ++ rest) 2 =
      type % 2 ^ 16 := by
    rw [hblob]
    exact (read16Le_past (pack16Le kVendorIntel) _ 0).trans (read16Le_pack _ _)
  have hvendor : read16Le (appendTlv [] kVendorIntel type data ++ rest) 0 =
      kVendorIntel := by
    rw [hblob, read16Le_pack]
    rfl
  have hdrop : ∀ n, (appendTlv [] kVendorIntel type data ++ rest).drop (8 + n) =
      (data ++ rest).drop n := by
    intro n
    rw [hblob, ← List.drop_drop]
    rfl
  have hsize : (appendTlv [] kVendorIntel type data ++ rest).length =
      8 + (data.length + rest.length) := by
    rw [hblob]
    simp only [List.length_append]
    show 2 + (2 + (4 + _)) = _
    omega
  unfold walkOne
  dsimp only
  have hzero := hdrop 0
  rw [Nat.add_zero, List.drop_zero] at hzero
  rw [hlength, htype, hvendor, hsize, hzero, hdrop]
  simp only [Nat.add_le_add_iff_left]

/-- Where the lengths fit, the parameters are read. -/
theorem walk_encode {ps : List Param}
    (hps : ∀ p ∈ ps, p.value.Fits ∧ p.type < 2 ^ 16) :
    ∃ es, walk ps.length (encode ps) = some es ∧
      List.Forall₂ Param.Says ps es := by
  induction ps with
  | nil => exact ⟨[], rfl, .nil⟩
  | cons p ps ih =>
      rw [List.forall_mem_cons] at hps
      obtain ⟨⟨hfits, htype⟩, hrest⟩ := hps
      obtain ⟨es, hes, htold⟩ := ih hrest
      have hdata : p.value.data.length < 2 ^ 32 ∧
          p.value.Read p.value.data := by
        cases hvalue : p.value with
        | bytes b =>
            rw [hvalue] at hfits
            exact ⟨hfits, rfl⟩
        | number16 n =>
            rw [hvalue] at hfits
            refine ⟨by show 2 < 2 ^ 32; decide, rfl, ?_⟩
            have h := read16Le_pack n []
            rw [List.append_nil, Nat.mod_eq_of_lt hfits] at h
            exact h
        | number32 n =>
            rw [hvalue] at hfits
            refine ⟨by show 4 < 2 ^ 32; decide, rfl, ?_⟩
            have h := read32Le_pack n []
            rw [List.append_nil, Nat.mod_eq_of_lt hfits] at h
            exact h
      refine ⟨⟨kVendorIntel, p.type, p.value.data⟩ :: es, ?_,
        .cons ⟨rfl, rfl, hdata.2⟩ htold⟩
      have hcons : encode (p :: ps) =
          appendTlv [] kVendorIntel p.type p.value.data ++ encode ps :=
        List.flatMap_cons
      rw [hcons, List.length_cons, walk, walkOne_entry,
        Nat.mod_eq_of_lt hdata.1, if_pos (Nat.le_add_right _ _),
        Nat.mod_eq_of_lt htype, List.take_left, List.drop_left]
      dsimp only
      rw [hes]
      rfl

/-- Where the parameters are read, the lengths fit. -/
theorem fits_of_walk {ps : List Param} {es : List Tlv}
    (hwalk : walk ps.length (encode ps) = some es)
    (htold : List.Forall₂ Param.Says ps es) : ∀ p ∈ ps, p.value.Fits := by
  induction ps generalizing es with
  | nil => exact List.forall_mem_nil _
  | cons p ps ih =>
      have hcons : encode (p :: ps) =
          appendTlv [] kVendorIntel p.type p.value.data ++ encode ps :=
        List.flatMap_cons
      rw [hcons, List.length_cons, walk, walkOne_entry] at hwalk
      split at hwalk
      · cases hwalk
      · next e rest hone =>
        split at hone
        · next hle =>
          cases hone
          rw [Option.map_eq_some_iff] at hwalk
          obtain ⟨es', hes', rfl⟩ := hwalk
          cases htold with
          | cons hp hrest =>
              obtain ⟨-, -, hread⟩ := hp
              dsimp only at hread
              -- the value that is read is no longer than its length field says
              have hshort : ((p.value.data ++ encode ps).take
                  (p.value.data.length % 2 ^ 32)).length ≤
                    p.value.data.length % 2 ^ 32 :=
                List.length_take_le ..
              have hfits : p.value.data.length < 2 ^ 32 ∧ p.value.Fits := by
                cases hvalue : p.value with
                | bytes b =>
                    rw [hvalue] at hread hshort
                    have hb : b.length ≤ b.length % 2 ^ 32 := by
                      rw [hread] at hshort
                      exact hshort
                    have hlt : b.length < 2 ^ 32 := by
                      have := Nat.mod_lt b.length (Nat.two_pow_pos 32)
                      omega
                    exact ⟨hlt, hlt⟩
                | number16 n =>
                    rw [hvalue] at hread
                    have htake : (pack16Le n ++ encode ps).take
                        ((pack16Le n).length % 2 ^ 32) = pack16Le n := rfl
                    rw [ParamValue.data, htake] at hread
                    have h := read16Le_pack n []
                    rw [List.append_nil, hread.2] at h
                    refine ⟨by show 2 < 2 ^ 32; decide, ?_⟩
                    show n < 2 ^ 16
                    omega
                | number32 n =>
                    rw [hvalue] at hread
                    have htake : (pack32Le n ++ encode ps).take
                        ((pack32Le n).length % 2 ^ 32) = pack32Le n := rfl
                    rw [ParamValue.data, htake] at hread
                    have h := read32Le_pack n []
                    rw [List.append_nil, hread.2] at h
                    refine ⟨by show 4 < 2 ^ 32; decide, ?_⟩
                    show n < 2 ^ 32
                    omega
              rw [Nat.mod_eq_of_lt hfits.1, List.drop_left] at hes'
              exact List.forall_mem_cons.mpr ⟨hfits.2, ih hes' hrest⟩
        · cases hone

namespace BootTlv

theorem pin_types {sha256 sha384 sha512 : Nat}
    (h : sha256 < 2 ^ 16 ∧ sha384 < 2 ^ 16 ∧ sha512 < 2 ^ 16) (alg : String)
    (hash : Bytes) :
    ∀ p ∈ pin sha256 sha384 sha512 alg hash, p.type < 2 ^ 16 := by
  intro p hp
  unfold pin at hp
  split at hp
  · cases hp
  split at hp
  · rw [List.mem_singleton.mp hp]
    exact h.1
  split at hp
  · rw [List.mem_singleton.mp hp]
    exact h.2.1
  split at hp
  · rw [List.mem_singleton.mp hp]
    exact h.2.2
  · cases hp

theorem params_types (t : BootTlv) : ∀ p ∈ t.params, p.type < 2 ^ 16 := by
  have hif {c : Prop} [Decidable c] {ps qs : List Param}
      (hps : ∀ p ∈ ps, p.type < 2 ^ 16) (hqs : ∀ p ∈ qs, p.type < 2 ^ 16) :
      ∀ p ∈ if c then ps else qs, p.type < 2 ^ 16 := by
    split
    · exact hps
    · exact hqs
  have hone {type : Nat} (value : ParamValue) (h : type < 2 ^ 16) :
      ∀ p ∈ [(⟨type, value⟩ : Param)], p.type < 2 ^ 16 := by
    intro p hp
    rw [List.mem_singleton.mp hp]
    exact h
  cases t with
  | httpsBootUrl url =>
      simp [params]
  | ocrPbaBoot bootString =>
      simp [params]
  | ocrHttpsBootPinned p =>
      simp only [params, List.forall_mem_append]
      exact ⟨⟨⟨⟨⟨hone _ (by decide), pin_types (by decide) _ _⟩,
        hone _ (by decide)⟩, pin_types (by decide) _ _⟩,
        hif (List.forall_mem_nil _) (hone _ (by decide))⟩,
        hif (List.forall_mem_nil _) (hone _ (by decide))⟩
  | platformErase flags psid ssdPassword =>
      simp only [params, List.forall_mem_append]
      exact ⟨⟨hone _ (by decide), hif (hone _ (by decide))
        (List.forall_mem_nil _)⟩,
        hif (hone _ (by decide)) (List.forall_mem_nil _)⟩

/-- A blob is walked if and only if each parameter fits into its field. -/
theorem walks_iff (t : BootTlv) :
    t.Walks ↔ ∀ p ∈ t.params, p.value.Fits := by
  unfold Walks
  rw [build_eq, addAll_eq]
  simp only [List.nil_append, Nat.zero_add]
  constructor
  · rintro ⟨es, hwalk, -, htold⟩
    exact fits_of_walk hwalk htold
  · intro hfits
    obtain ⟨es, hwalk, htold⟩ :=
      walk_encode fun p hp => ⟨hfits p hp, params_types t p hp⟩
    exact ⟨es, hwalk, htold.length_eq.symm, htold⟩

end BootTlv

/-- A path of 65536 letters. -/
def longPath : Text := Text.ofLatin1 (List.replicate (2 ^ 16) 0x61)

theorem longPath_length : longPath.utf8.length = 2 ^ 16 := by
  have hutf8 : longPath.utf8 = List.replicate (2 ^ 16) 0x61 := by
    refine Text.ofLatin1_ascii fun x hx => ?_
    rw [List.eq_of_mem_replicate hx]
    decide
  rw [hutf8, List.length_replicate]

/-- Its length is written as 0. -/
theorem longPath_truncated :
    ¬(BootTlv.ocrPbaBoot longPath).Walks ∧
      pack16Le longPath.utf8.length = [0, 0] := by
  refine ⟨?_, by rw [longPath_length]; rfl⟩
  rintro ⟨es, hwalk, -, htold⟩
  rw [BootTlv.build_eq, addAll_eq, List.nil_append, Nat.zero_add] at hwalk
  have hfits := fits_of_walk hwalk htold
    ⟨3, .number16 longPath.utf8.length⟩ (by simp [BootTlv.params])
  have hlength : longPath.utf8.length < 2 ^ 16 := hfits
  rw [longPath_length] at hlength
  omega

end QuMesh.Wsman
