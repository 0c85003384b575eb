import QuMesh.App.OcrPrompt
import QuMesh.Lib.Hash
import QuMesh.Proofs.BootOrder
import QuMesh.Proofs.BootTlvWalk
import QuMesh.Proofs.WatchdogIds

/-!
# The pins of a recovery boot

A hash that is typed pins what is booted. It should either reach the device as
the digest it denotes, in one entry of the type of its algorithm, or keep the
boot from being asked for. `bootToOcrHttpsUrl` refuses neither a hash nor an
algorithm: what is no digit is passed over, a digit too few or too many makes
another value, and a hash without an algorithm that is known is left out of the
blob without a word. The prompt stands in front of it and looks at the digits,
but lets a hash of the server's certificate pass for which no algorithm is
chosen.

`pins_sent_iff` says that there is nothing else: the pins arrive if and only if
each hash that is typed denotes a digest of its algorithm, and what is written
beside them fits the 32 bits of its length.
-/

namespace QuMesh.Details

open QuMesh.Lib QuMesh.Wsman

/-! ## Digests -/

inductive Algorithm
  | sha256
  | sha384
  | sha512
  deriving DecidableEq, Repr

namespace Algorithm

def name : Algorithm → String
  | sha256 => "sha256"
  | sha384 => "sha384"
  | sha512 => "sha512"

/-- The bytes of a digest. -/
def size : Algorithm → Nat
  | sha256 => 32
  | sha384 => 48
  | sha512 => 64

def imageType : Algorithm → OcrTlvType
  | sha256 => .bootImageHashSha256
  | sha384 => .bootImageHashSha384
  | sha512 => .bootImageHashSha512

def serverType : Algorithm → OcrTlvType
  | sha256 => .httpsServerCertHashSha256
  | sha384 => .httpsServerCertHashSha384
  | sha512 => .httpsServerCertHashSha512

end Algorithm

/-- The algorithm goes by this name, in whichever case. -/
def Named (alg : String) (a : Algorithm) : Prop := alg.toLower = a.name

/-- The text is hex digits, two for each of so many bytes, apart from whitespace
and colons. -/
structure HexText (size : Nat) (s : Units) : Prop where
  digits : ∀ u ∈ hexTrimmed s, IsHexDigit u
  length : (hexTrimmed s).length = 2 * size

/-- The digest that a text denotes: its digits are the halves of the bytes. -/
structure Denotes (size : Nat) (s : Units) (digest : Bytes) : Prop where
  length : digest.length = size
  digits : (hexTrimmed s).map hexUnit =
    (digest.flatMap fun x => [x.toNat / 16, x.toNat % 16]).map some

/-- A hash and its algorithm go together. -/
def Pin (alg : String) (s : Units) : Prop :=
  ∃ a, Named alg a ∧ HexText a.size s

/-! ## What is read of a hash -/

theorem map_hexUnit {us : Units} (h : ∀ u ∈ us, IsHexDigit u) :
    us.map hexUnit = (us.filterMap hexUnit).map some := by
  induction us with
  | nil => rfl
  | cons u us ih =>
      rw [List.forall_mem_cons] at h
      obtain ⟨d, hd⟩ := Option.isSome_iff_exists.mp h.1
      rw [List.map_cons, List.filterMap_cons_some hd, List.map_cons, ih h.2, hd]

theorem denotes_iff {size : Nat} {s : Units} :
    HexText size s ↔ ∃ digest, Denotes size s digest := by
  constructor
  · rintro ⟨hdigits, hlength⟩
    obtain ⟨hlt, hcount, -⟩ := lower_digits hdigits
    obtain ⟨digest, hdigest⟩ := exists_bytes hlt (hcount.trans hlength)
    refine ⟨digest, ?_, by rw [map_hexUnit hdigits, hdigest]⟩
    have hhalves := length_halves digest
    rw [← hdigest] at hhalves
    omega
  · rintro ⟨digest, hsize, hdigits⟩
    refine ⟨fun u hu => ?_, ?_⟩
    · have hmem := List.mem_map_of_mem (f := hexUnit) hu
      rw [hdigits] at hmem
      obtain ⟨d, -, hd⟩ := List.mem_map.mp hmem
      rw [IsHexDigit, ← hd]
      rfl
    · have hlength := congrArg List.length hdigits
      rw [List.length_map, List.length_map, length_halves, hsize] at hlength
      exact hlength

set_option maxRecDepth 10000 in
theorem hexUnit_space {u : UInt16} (h : (isJsSpace u || u = 0x3A) = true) :
    hexUnit u = none := by
  by_cases hu : u < 0x80
  · obtain ⟨n, hn, rfl⟩ := ascii_ofNat hu
    have hall : ∀ n < 0x80, (isJsSpace (UInt16.ofNat n) ||
        UInt16.ofNat n = 0x3A) = true → hexUnit (UInt16.ofNat n) = none := by
      decide
    exact hall n hn h
  · exact hexUnit_other (UInt16.not_lt.mp hu)

/-- Whitespace and colons are passed over, as everything is that is no digit. -/
theorem filterMap_hexTrimmed (s : Units) :
    (hexTrimmed s).filterMap hexUnit = s.filterMap hexUnit := by
  rw [hexTrimmed, List.filterMap_filter]
  refine List.filterMap_congr fun u _ => ?_
  split
  · rfl
  · next hspace =>
    rw [Bool.not_eq_true', Bool.not_eq_false] at hspace
    exact (hexUnit_space hspace).symm

theorem filterMap_toLatin1 (s : Units) :
    (unitsToLatin1 s).filterMap hexValue = s.filterMap hexUnit := by
  rw [unitsToLatin1, List.filterMap_map]
  refine List.filterMap_congr fun u _ => ?_
  show hexValue (if u < 0x100 then u.toUInt8 else 0x3F) = _
  unfold hexUnit
  split <;> rfl

/-- A digest that is denoted is what is read. -/
theorem fromHex_denoted {size : Nat} {s : Units} {digest : Bytes}
    (h : Denotes size s digest) : fromHex (unitsToLatin1 s) = digest := by
  have hvalues : (hexTrimmed s).filterMap hexUnit =
      digest.flatMap fun x => [x.toNat / 16, x.toNat % 16] := by
    have hmap := congrArg (List.filterMap id) h.digits
    rw [List.filterMap_map, List.filterMap_map] at hmap
    exact hmap.trans (List.filterMap_some ..)
  have hpairs := pairDigits_append digest []
  rw [List.append_nil] at hpairs
  rw [fromHex, filterMap_toLatin1, ← filterMap_hexTrimmed, hvalues, hpairs,
    pairDigits, List.append_nil, List.reverse_reverse]

/-! ## What the blob is read as -/

/-- The values of the entries of a type. -/
def valuesOf (type : OcrTlvType) (es : List Tlv) : List Bytes :=
  (es.filter fun e => e.type = type.code).map Tlv.value

/-- The boot that was asked for is read: the address and the credentials as they
are, and each hash that is given as one entry with its digest. -/
structure Reads (b : OcrHttpsBoot) (es : List Tlv) : Prop where
  url : valuesOf .efiNetworkDevicePath es = [b.url.utf8]
  image : b.hashHex ≠ [] → ∃ a digest, Named b.hashAlg a ∧
    Denotes a.size b.hashHex digest ∧ valuesOf a.imageType es = [digest]
  server : b.pinnedServerCertHashHex ≠ [] → ∃ a digest,
    Named b.pinnedServerCertHashAlg a ∧
      Denotes a.size b.pinnedServerCertHashHex digest ∧
        valuesOf a.serverType es = [digest]
  username : valuesOf .httpsUserName es =
    if b.username.isEmpty then [] else [b.username.utf8]
  password : valuesOf .httpsPassword es =
    if b.password.isEmpty then [] else [b.password.utf8]

/-- The boot settings that are put carry a blob that is read so, to its end in
as many entries as are reported. -/
def Carries (b : OcrHttpsBoot) (props : TextTable) : Prop :=
  ∃ (blob : Bytes) (count : Nat) (es : List Tlv),
    props.value? "UefiBootParametersArray" =
      some (Strings.fromLatin1 (toBase64 blob)) ∧
    props.value? "UefiBootNumberOfParams" = some (number32 count) ∧
    walk count blob = some es ∧ Reads b es

/-- Each time the action puts the boot settings, they carry the boot. -/
def Sends (b : OcrHttpsBoot) (chain : BootChain) : Prop :=
  ∀ (replies : List Outcome),
    ∀ step ∈ (replies.foldl BootChain.reply chain).sent,
      ∀ props, step.request (replies.foldl BootChain.reply chain).p =
        .putBootSettingData props → Carries b props

namespace OcrHttpsBoot

/-- A hash is given. -/
def Pinned (b : OcrHttpsBoot) : Prop :=
  b.hashHex ≠ [] ∨ b.pinnedServerCertHashHex ≠ []

/-- What is written beside the hashes fits the lengths of the entries. -/
structure Fits (b : OcrHttpsBoot) : Prop where
  url : b.url.utf8.length < 2 ^ 32
  username : b.username.utf8.length < 2 ^ 32
  password : b.password.utf8.length < 2 ^ 32

/-- Each hash that is given goes together with its algorithm. -/
structure Sound (b : OcrHttpsBoot) : Prop extends Fits b where
  image : b.hashHex ≠ [] → Pin b.hashAlg b.hashHex
  server : b.pinnedServerCertHashHex ≠ [] →
    Pin b.pinnedServerCertHashAlg b.pinnedServerCertHashHex

/-- The boot is refused: there is no host, or the address is none of `https`. -/
def Refused (b : OcrHttpsBoot) (p : Panel) : Prop :=
  p.host.isEmpty = true ∨ startsWithFolded b.url.str "https://" = false

end OcrHttpsBoot

/-! ## What the builder is asked for -/

/-- The pin of a hash that is sound, if one is given. -/
theorem pin_sound (types : Algorithm → Nat) {alg : String} {s : Units}
    (h : s ≠ [] → Pin alg s) :
    (s = [] ∧ BootTlv.pin (types .sha256) (types .sha384) (types .sha512) alg
        (fromHex (unitsToLatin1 s)) = []) ∨
    ∃ a digest, Named alg a ∧ Denotes a.size s digest ∧
      BootTlv.pin (types .sha256) (types .sha384) (types .sha512) alg
        (fromHex (unitsToLatin1 s)) = [⟨types a, .bytes digest⟩] := by
  by_cases hs : s = []
  · subst hs
    exact .inl ⟨rfl, rfl⟩
  · obtain ⟨a, hname, htext⟩ := h hs
    obtain ⟨digest, hdigest⟩ := denotes_iff.mp htext
    refine .inr ⟨a, digest, hname, hdigest, ?_⟩
    rw [fromHex_denoted hdigest]
    have hne : digest ≠ [] := by
      rintro rfl
      have hsize := hdigest.length
      cases a <;> cases hsize
    unfold BootTlv.pin
    rw [if_neg hne]
    unfold Named at hname
    rw [hname]
    cases a <;> rfl

/-- No entry of a segment has a type beside those of the segment. -/
theorem filter_outside {ps : List Param} {lo hi : Nat}
    (hps : ∀ p ∈ ps, lo ≤ p.type ∧ p.type ≤ hi) {type : Nat}
    (htype : type < lo ∨ hi < type) :
    ps.filter (fun p => p.type = type) = [] := by
  rw [List.filter_eq_nil_iff]
  intro p hp heq
  have hrange := hps p hp
  rw [of_decide_eq_true heq] at hrange
  omega

/-- The values of a type are those that were written under it. -/
theorem valuesOf_told {ps : List Param} {es : List Tlv}
    (htold : List.Forall₂ Param.Says ps es)
    (hbytes : ∀ p ∈ ps, ∃ b, p.value = .bytes b) (type : OcrTlvType) :
    valuesOf type es =
      (ps.filter fun p => p.type = type.code).map fun p => p.value.data := by
  induction htold with
  | nil => rfl
  | @cons p e ps es hp _ ih =>
      rw [List.forall_mem_cons] at hbytes
      obtain ⟨⟨b, hb⟩, hrest⟩ := hbytes
      obtain ⟨-, htype, hread⟩ := hp
      have hvalue : e.value = p.value.data := by
        rw [hb] at hread ⊢
        exact hread
      have ih := ih hrest
      unfold valuesOf at ih ⊢
      rw [List.filter_cons, List.filter_cons, htype]
      split
      · rw [List.map_cons, List.map_cons, ih, hvalue]
      · exact ih

/-- A value that is read is no longer than a length can say. -/
theorem length_of_walk {count : Nat} {blob : Bytes} {es : List Tlv}
    (h : walk count blob = some es) : ∀ e ∈ es, e.value.length < 2 ^ 32 := by
  induction count generalizing blob es with
  | zero =>
      rw [walk] at h
      split at h
      · cases h
        exact List.forall_mem_nil _
      · cases h
  | succ count ih =>
      rw [walk] at h
      cases hone : walkOne blob with
      | none => rw [hone] at h; cases h
      | some r =>
          obtain ⟨e, rest⟩ := r
          rw [hone] at h
          obtain ⟨es', hes', rfl⟩ := Option.map_eq_some_iff.mp h
          refine List.forall_mem_cons.mpr ⟨?_, ih hes'⟩
          unfold walkOne at hone
          dsimp only at hone
          split at hone
          · cases hone
            have hle : ((blob.drop 8).take (read32Le blob 4)).length ≤
                read32Le blob 4 := List.length_take_le ..
            have hlt : read32Le blob 4 < 2 ^ 32 := read32Le_lt _ _
            exact Nat.lt_of_le_of_lt hle hlt
          · cases hone

theorem pin_range {lo hi : Nat} (alg : String) (hash : Bytes)
    (h : hi = lo + 2) : ∀ p ∈ BootTlv.pin lo (lo + 1) hi alg hash,
      lo ≤ p.type ∧ p.type ≤ hi := by
  intro p hp
  unfold BootTlv.pin at hp
  split at hp
  · cases hp
  split at hp
  · rw [List.mem_singleton.mp hp]
    exact ⟨Nat.le_refl _, by dsimp only; omega⟩
  split at hp
  · rw [List.mem_singleton.mp hp]
    exact ⟨by dsimp only; omega, by dsimp only; omega⟩
  split at hp
  · rw [List.mem_singleton.mp hp]
    exact ⟨by dsimp only; omega, Nat.le_refl _⟩
  · cases hp

/-- The entry of a text that may be left out. -/
def textParam (type : OcrTlvType) (t : Text) : List Param :=
  if t.isEmpty then [] else [⟨type.code, .bytes t.utf8⟩]

theorem single_range (type : Nat) (value : ParamValue) :
    ∀ p ∈ [(⟨type, value⟩ : Param)], type ≤ p.type ∧ p.type ≤ type := by
  intro p hp
  rw [List.mem_singleton.mp hp]
  exact ⟨Nat.le_refl _, Nat.le_refl _⟩

theorem text_range (type : OcrTlvType) (t : Text) :
    ∀ p ∈ textParam type t, type.code ≤ p.type ∧ p.type ≤ type.code := by
  unfold textParam
  split
  · exact List.forall_mem_nil _
  · exact single_range _ _

/-- All of a segment under one type is kept. -/
theorem filter_within {ps : List Param} {type : Nat}
    (hps : ∀ p ∈ ps, type ≤ p.type ∧ p.type ≤ type) :
    ps.filter (fun p => p.type = type) = ps := by
  rw [List.filter_eq_self]
  intro p hp
  have hrange := hps p hp
  exact decide_eq_true (by omega)

theorem text_values (type : OcrTlvType) (t : Text) :
    (textParam type t).map (fun p => p.value.data) =
      if t.isEmpty then [] else [t.utf8] := by
  unfold textParam
  split <;> rfl

namespace OcrHttpsBoot

def imagePin (b : OcrHttpsBoot) : List Param :=
  BootTlv.pin 4 5 6 b.hashAlg (fromHex (unitsToLatin1 b.hashHex))

def serverPin (b : OcrHttpsBoot) : List Param :=
  BootTlv.pin 23 24 25 b.pinnedServerCertHashAlg
    (fromHex (unitsToLatin1 b.pinnedServerCertHashHex))

/-- What the builder is asked for. -/
def asked (b : OcrHttpsBoot) : List Param :=
  [⟨1, .bytes b.url.utf8⟩] ++ b.imagePin ++ [⟨20, .bytes [1]⟩] ++
    b.serverPin ++ textParam .httpsUserName b.username ++
      textParam .httpsPassword b.password

theorem tlv_eq (b : OcrHttpsBoot) : b.tlv = ({} : TlvBlob).addAll b.asked :=
  BootTlv.build_eq (.ocrHttpsBootPinned b.pinned)

section Sound

variable {b : OcrHttpsBoot} (hsound : b.Sound)
include hsound

theorem imagePin_eq : (b.hashHex = [] ∧ b.imagePin = []) ∨
    ∃ a digest, Named b.hashAlg a ∧ Denotes a.size b.hashHex digest ∧
      b.imagePin = [⟨a.imageType.code, .bytes digest⟩] :=
  pin_sound (fun a => a.imageType.code) hsound.image

theorem serverPin_eq : (b.pinnedServerCertHashHex = [] ∧ b.serverPin = []) ∨
    ∃ a digest, Named b.pinnedServerCertHashAlg a ∧
      Denotes a.size b.pinnedServerCertHashHex digest ∧
        b.serverPin = [⟨a.serverType.code, .bytes digest⟩] :=
  pin_sound (fun a => a.serverType.code) hsound.server

/-- The parameters of a boot that is sound are bytes, and they fit. -/
theorem asked_bytes :
    ∀ p ∈ b.asked, ∃ v : Bytes, p.value = .bytes v ∧ v.length < 2 ^ 32 := by
  have hone (type : Nat) {v : Bytes} (hv : v.length < 2 ^ 32) :
      ∀ p ∈ [(⟨type, .bytes v⟩ : Param)],
        ∃ v : Bytes, p.value = .bytes v ∧ v.length < 2 ^ 32 := by
    intro p hp
    rw [List.mem_singleton.mp hp]
    exact ⟨v, rfl, hv⟩
  have htext (type : OcrTlvType) {t : Text} (ht : t.utf8.length < 2 ^ 32) :
      ∀ p ∈ textParam type t,
        ∃ v : Bytes, p.value = .bytes v ∧ v.length < 2 ^ 32 := by
    unfold textParam
    split
    · exact List.forall_mem_nil _
    · exact hone _ ht
  have hsize : ∀ a : Algorithm, a.size < 2 ^ 32 := by
    intro a
    cases a <;> decide
  have himage : ∀ p ∈ b.imagePin,
      ∃ v : Bytes, p.value = .bytes v ∧ v.length < 2 ^ 32 := by
    obtain ⟨-, hnil⟩ | ⟨a, digest, -, hdigest, heq⟩ := imagePin_eq hsound
    · rw [hnil]
      exact List.forall_mem_nil _
    · rw [heq]
      exact hone _ (hdigest.length ▸ hsize a)
  have hserver : ∀ p ∈ b.serverPin,
      ∃ v : Bytes, p.value = .bytes v ∧ v.length < 2 ^ 32 := by
    obtain ⟨-, hnil⟩ | ⟨a, digest, -, hdigest, heq⟩ := serverPin_eq hsound
    · rw [hnil]
      exact List.forall_mem_nil _
    · rw [heq]
      exact hone _ (hdigest.length ▸ hsize a)
  simp only [asked, List.forall_mem_append]
  exact ⟨⟨⟨⟨⟨hone _ hsound.url, himage⟩, hone _ (by decide)⟩, hserver⟩,
    htext _ hsound.username⟩, htext _ hsound.password⟩

/-- The entries of a boot that is sound, segment by segment. -/
theorem reads_of_told {es : List Tlv}
    (htold : List.Forall₂ Param.Says b.asked es) : Reads b es := by
  have hbytes : ∀ p ∈ b.asked, ∃ v, p.value = .bytes v := by
    intro p hp
    obtain ⟨v, hv, -⟩ := asked_bytes hsound p hp
    exact ⟨v, hv⟩
  have hurl := single_range 1 (.bytes b.url.utf8)
  have himage : ∀ p ∈ b.imagePin, 4 ≤ p.type ∧ p.type ≤ 6 :=
    pin_range _ _ rfl
  have hsync := single_range 20 (.bytes [1])
  have hserver : ∀ p ∈ b.serverPin, 23 ≤ p.type ∧ p.type ≤ 25 :=
    pin_range _ _ rfl
  have huser := text_range .httpsUserName b.username
  have hpass := text_range .httpsPassword b.password
  have hvalues (type : OcrTlvType) := valuesOf_told htold hbytes type
  simp only [asked, List.filter_append] at hvalues
  constructor
  · rw [hvalues, filter_outside himage (.inl (by decide)),
      filter_outside hsync (.inl (by decide)),
      filter_outside hserver (.inl (by decide)),
      filter_outside huser (.inl (by decide)),
      filter_outside hpass (.inl (by decide))]
    rfl
  · intro hgiven
    obtain ⟨hnil, -⟩ | ⟨a, digest, hname, hdigest, heq⟩ := imagePin_eq hsound
    · exact absurd hnil hgiven
    have hrange : 4 ≤ a.imageType.code ∧ a.imageType.code ≤ 6 := by
      cases a <;> decide
    refine ⟨a, digest, hname, hdigest, ?_⟩
    rw [hvalues, filter_outside hurl (.inr (by omega)),
      filter_outside hsync (.inl (by omega)),
      filter_outside hserver (.inl (by omega)),
      filter_outside huser (.inl (Nat.lt_of_le_of_lt hrange.2 (by decide))),
      filter_outside hpass (.inl (Nat.lt_of_le_of_lt hrange.2 (by decide))),
      heq, filter_within (single_range _ _)]
    rfl
  · intro hgiven
    obtain ⟨hnil, -⟩ | ⟨a, digest, hname, hdigest, heq⟩ := serverPin_eq hsound
    · exact absurd hnil hgiven
    have hrange : 23 ≤ a.serverType.code ∧ a.serverType.code ≤ 25 := by
      cases a <;> decide
    refine ⟨a, digest, hname, hdigest, ?_⟩
    rw [hvalues, filter_outside hurl (.inr (by omega)),
      filter_outside himage (.inr (by omega)),
      filter_outside hsync (.inr (by omega)),
      filter_outside huser (.inl (Nat.lt_of_le_of_lt hrange.2 (by decide))),
      filter_outside hpass (.inl (Nat.lt_of_le_of_lt hrange.2 (by decide))),
      heq, filter_within (single_range _ _)]
    rfl
  · rw [hvalues, filter_outside hurl (.inr (by decide)),
      filter_outside himage (.inr (by decide)),
      filter_outside hsync (.inr (by decide)),
      filter_outside hserver (.inr (by decide)),
      filter_within huser, filter_outside hpass (.inl (by decide)),
      List.append_nil]
    exact text_values _ _
  · rw [hvalues, filter_outside hurl (.inr (by decide)),
      filter_outside himage (.inr (by decide)),
      filter_outside hsync (.inr (by decide)),
      filter_outside hserver (.inr (by decide)),
      filter_outside huser (.inr (by decide)), filter_within hpass]
    exact text_values _ _

/-- A boot that is sound is read from its blob. -/
theorem walk_tlv :
    ∃ es, walk b.tlv.count b.tlv.blob = some es ∧ Reads b es := by
  have hfits : ∀ p ∈ b.asked, p.value.Fits ∧ p.type < 2 ^ 16 := by
    intro p hp
    obtain ⟨v, hv, hlength⟩ := asked_bytes hsound p hp
    rw [hv]
    exact ⟨hlength, BootTlv.params_types (.ocrHttpsBootPinned b.pinned) p hp⟩
  obtain ⟨es, hwalk, htold⟩ := walk_encode hfits
  refine ⟨es, ?_, reads_of_told hsound htold⟩
  rw [tlv_eq, addAll_eq]
  simpa using hwalk

end Sound

end OcrHttpsBoot

/-! ## What is sent -/

namespace OcrHttpsBoot

theorem tlv_ne_nil (b : OcrHttpsBoot) :
    Strings.fromLatin1 (toBase64 b.tlv.blob) ≠ "" := by
  intro hnil
  have hchars := congrArg String.toList hnil
  have hblob : 8 ≤ b.tlv.blob.length := by
    have hentry : (appendTlv [] kVendorIntel 1 b.url.utf8).length =
        8 + b.url.utf8.length := by
      simp [appendTlv, pack16Le, pack32Le]
      omega
    rw [tlv_eq, addAll_eq]
    simp only [asked, encode, List.cons_append, List.nil_append,
      List.flatMap_cons, List.length_append, ParamValue.data]
    omega
  have hle := le_length_toBase64 b.tlv.blob
  rw [Strings.fromLatin1, String.toList_ofList] at hchars
  have hzero := congrArg List.length hchars
  rw [List.length_map] at hzero
  have hempty : "".toList.length = 0 := rfl
  omega

/-- What is put beside the blob is under other names. -/
theorem bootSettingData_tlv (b : OcrHttpsBoot) :
    b.params.bootSettingData.value? "UefiBootParametersArray" =
        some (Strings.fromLatin1 (toBase64 b.tlv.blob)) ∧
      b.params.bootSettingData.value? "UefiBootNumberOfParams" =
        some (number32 b.tlv.count) := by
  have hput : ∃ props, b.params.bootSettingData =
      (BootActionParams.insertTlv (Strings.fromLatin1 (toBase64 b.tlv.blob))
        b.tlv.count props).insert "BootMediaIndex" "0" := by
    unfold BootActionParams.bootSettingData
    dsimp only
    rw [if_pos (by simp [params, b.tlv_ne_nil])]
    exact ⟨_, rfl⟩
  obtain ⟨props, hprops⟩ := hput
  rw [hprops, BootActionParams.insertTlv]
  simp only [Table.value?_insert]
  exact ⟨rfl, rfl⟩

/-- The boot settings carry the boot if and only if it is sound. -/
theorem carries_iff (b : OcrHttpsBoot) :
    Carries b b.params.bootSettingData ↔ b.Sound := by
  constructor
  · rintro ⟨blob, count, es, -, -, hwalk, hreads⟩
    have hlength := length_of_walk hwalk
    have hvalue : ∀ (type : OcrTlvType) (v : Bytes),
        valuesOf type es = [v] → v.length < 2 ^ 32 := by
      intro type v hv
      have hmem : v ∈ valuesOf type es := by rw [hv]; simp
      obtain ⟨e, he, rfl⟩ := List.mem_map.mp hmem
      exact hlength e (List.mem_of_mem_filter he)
    have htext : ∀ (type : OcrTlvType) (t : Text),
        valuesOf type es = (if t.isEmpty then [] else [t.utf8]) →
          t.utf8.length < 2 ^ 32 := by
      intro type t ht
      cases hempty : t.isEmpty with
      | true =>
          rw [List.isEmpty_iff.mp hempty]
          decide
      | false =>
          rw [hempty] at ht
          exact hvalue type _ ht
    refine ⟨⟨hvalue _ _ hreads.url, htext _ _ hreads.username,
      htext _ _ hreads.password⟩, fun hgiven => ?_, fun hgiven => ?_⟩
    · obtain ⟨a, digest, hname, hdigest, -⟩ := hreads.image hgiven
      exact ⟨a, hname, denotes_iff.mpr ⟨digest, hdigest⟩⟩
    · obtain ⟨a, digest, hname, hdigest, -⟩ := hreads.server hgiven
      exact ⟨a, hname, denotes_iff.mpr ⟨digest, hdigest⟩⟩
  · intro hsound
    obtain ⟨harray, hnumber⟩ := b.bootSettingData_tlv
    obtain ⟨es, hwalk, hreads⟩ := walk_tlv hsound
    exact ⟨_, _, es, harray, hnumber, hwalk, hreads⟩

end OcrHttpsBoot

theorem next_p (c : BootChain) (r : InvokeResult) (step : BootStep) :
    (c.next r step).p = c.p := by
  cases step with
  | setRole =>
      unfold BootChain.next BootChain.doSetSpecificBootSource
      dsimp only
      split <;> rfl
  | _ => rfl

theorem replies_p (c : BootChain) (replies : List Outcome) :
    (replies.foldl BootChain.reply c).p = c.p := by
  induction replies generalizing c with
  | nil => rfl
  | cons r replies ih =>
      have hone : (c.reply r).p = c.p := by
        unfold BootChain.reply
        split
        · rfl
        · dsimp only
          split
          · exact next_p _ _ _
          · rfl
      rw [List.foldl_cons, ih, hone]

/-- The boot settings are put where the first reply is a success. -/
theorem sends_iff (b : OcrHttpsBoot) :
    Sends b (performBootAction true b.params) ↔
      Carries b b.params.bootSettingData := by
  constructor
  · intro hsends
    have hput : BootStep.putBootSettingData ∈
        (bootRun b.params [doneReply]).sent := by
      have hsent : (bootRun b.params [doneReply]).sent =
          [.clearBootOrder, .putBootSettingData] := rfl
      rw [hsent]
      simp
    refine hsends [doneReply] _ hput _ ?_
    rw [replies_p]
    rfl
  · intro hcarries replies step _ props hrequest
    rw [replies_p] at hrequest
    cases step with
    | putBootSettingData =>
        cases hrequest
        exact hcarries
    | _ => cases hrequest

/-! ## The calls -/

/-- What is promised of a call with a hash: it is refused, or the pins are
sent. -/
def KeepsPins (p : Panel) (b : OcrHttpsBoot) : Prop :=
  b.Pinned → (p.bootToOcrHttpsUrl b).2 = none ∨
    ∃ chain, (p.bootToOcrHttpsUrl b).2 = some chain ∧ Sends b chain

/-- What is promised of the prompt: where there is a host, what it lets pass is
sent. -/
def SendsAccepted (p : Panel) (prompt : OcrPrompt) : Prop :=
  ∀ b, prompt.press = some (.https b) → b.Pinned → p.host.isEmpty = false →
    ∃ chain, (p.bootToOcrHttpsUrl b).2 = some chain ∧ Sends b chain

theorem bootToOcrHttpsUrl_refused {p : Panel} {b : OcrHttpsBoot}
    (h : b.Refused p) : (p.bootToOcrHttpsUrl b).2 = none := by
  unfold Panel.bootToOcrHttpsUrl
  split
  · rfl
  · next hhost =>
    obtain h | h := h
    · exact absurd h hhost
    · rw [h]
      rfl

theorem bootToOcrHttpsUrl_started {p : Panel} {b : OcrHttpsBoot}
    (h : ¬b.Refused p) :
    (p.bootToOcrHttpsUrl b).2 = some (performBootAction true b.params) := by
  have hhost : ¬p.host.isEmpty = true := fun hempty => h (.inl hempty)
  have hurl : startsWithFolded b.url.str "https://" = true := by
    cases hfolded : startsWithFolded b.url.str "https://" with
    | true => rfl
    | false => exact absurd (.inr hfolded) h
  unfold Panel.bootToOcrHttpsUrl
  rw [if_neg hhost, hurl]
  rfl

/-- A call that is not refused sends its pins just if it is sound. -/
theorem started_iff {p : Panel} {b : OcrHttpsBoot} (h : ¬b.Refused p) :
    (∃ chain, (p.bootToOcrHttpsUrl b).2 = some chain ∧ Sends b chain) ↔
      b.Sound := by
  rw [bootToOcrHttpsUrl_started h, ← b.carries_iff, ← sends_iff]
  constructor
  · rintro ⟨chain, hchain, hsends⟩
    cases hchain
    exact hsends
  · exact fun hsends => ⟨_, rfl, hsends⟩

theorem keepsPins_iff (p : Panel) (b : OcrHttpsBoot) :
    KeepsPins p b ↔ (b.Pinned → b.Refused p ∨ b.Sound) := by
  refine forall_congr' fun _ => ?_
  by_cases hrefused : b.Refused p
  · exact iff_of_true (.inl (bootToOcrHttpsUrl_refused hrefused))
      (.inl hrefused)
  · have hnone : (p.bootToOcrHttpsUrl b).2 ≠ none := by
      rw [bootToOcrHttpsUrl_started hrefused]
      exact Option.some_ne_none _
    rw [or_iff_right hnone, or_iff_right hrefused, started_iff hrefused]

/-! ## The prompt -/

/-- What the prompt asks of the controller. -/
def OcrPrompt.boot (prompt : OcrPrompt) : OcrHttpsBoot where
  reset := prompt.resetFlavour
  url := prompt.httpsUrl
  hashAlg := if !prompt.hashHex.isEmpty then prompt.hashAlg else ""
  hashHex := prompt.hashHex
  pinnedServerCertHashAlg := prompt.pinnedCertHashAlg
  pinnedServerCertHashHex := prompt.pinnedCertHashHex
  username := prompt.httpsUsername
  password := prompt.httpsPassword

/-- What the prompt has checked where it lets a boot pass. -/
structure OcrPrompt.Checked (prompt : OcrPrompt) (b : OcrHttpsBoot) : Prop where
  boot : b = prompt.boot
  url : prompt.httpsUrl.startsWith (Text.lit "https://").utf8 = true
  image : prompt.hashHex ≠ [] →
    OcrPrompt.looksLikeHex prompt.hashHex
      (OcrPrompt.hashBytesForAlg prompt.hashAlg) = true
  server : prompt.pinnedCertHashAlg ≠ "" → prompt.pinnedCertHashHex ≠ [] →
    OcrPrompt.looksLikeHex prompt.pinnedCertHashHex
      (OcrPrompt.hashBytesForAlg prompt.pinnedCertHashAlg) = true

theorem OcrPrompt.press_https {prompt : OcrPrompt} {b : OcrHttpsBoot}
    (h : prompt.press = some (.https b)) : prompt.Checked b := by
  unfold press at h
  split at h
  · next henabled =>
    unfold onClicked at h
    split at h
    · cases h
    split at h
    · cases h
    split at h
    · next hne0 hne1 heq2 =>
      cases h
      unfold enabled at henabled
      rw [if_neg hne0, if_neg hne1, if_pos heq2] at henabled
      split at henabled
      · cases henabled
      split at henabled
      · cases henabled
      split at henabled
      · cases henabled
      split at henabled
      · cases henabled
      next hurl himage hserver =>
      refine ⟨rfl, by simpa using hurl, fun hgiven => ?_, fun halg hgiven => ?_⟩
      · simpa [hgiven] using himage
      · simpa [hgiven, halg] using hserver
    · cases h
  · cases h

theorem toLower_name (a : Algorithm) : a.name.toLower = a.name := by
  have hlist : a.name.toList.map Char.toLower = a.name.toList := by
    cases a <;> decide
  rw [← String.toList_inj]
  exact String.toList_map.trans hlist

/-- No algorithm goes by the empty name. -/
theorem not_named_empty (a : Algorithm) : ¬Named "" a := by
  intro h
  have hempty : "".toLower = "" := by
    rw [← String.toList_inj]
    exact String.toList_map
  rw [Named, hempty] at h
  cases a <;> exact absurd h (by decide)

/-- A text that looks like a hash is one of an algorithm that is known. -/
theorem pin_of_looksLikeHex {alg : String} {s : Units}
    (h : OcrPrompt.looksLikeHex s (OcrPrompt.hashBytesForAlg alg) = true) :
    Pin alg s := by
  unfold OcrPrompt.looksLikeHex at h
  split at h
  · cases h
  dsimp only at h
  split at h
  · cases h
  next hlength =>
  rw [not_not] at hlength
  rw [Bool.and_eq_true, Bool.not_eq_true', List.all_eq_true] at h
  obtain ⟨hne, hdigits⟩ := h
  have hpos : OcrPrompt.hashBytesForAlg alg ≠ 0 := by
    intro hzero
    rw [hzero, Nat.zero_mul, List.length_eq_zero_iff] at hlength
    rw [hlength] at hne
    cases hne
  obtain ⟨a, halg, hsize⟩ : ∃ a : Algorithm,
      alg = a.name ∧ OcrPrompt.hashBytesForAlg alg = a.size := by
    unfold OcrPrompt.hashBytesForAlg at hpos ⊢
    split
    · next h256 => exact ⟨.sha256, h256, rfl⟩
    split
    · next h384 => exact ⟨.sha384, h384, rfl⟩
    split
    · next h512 => exact ⟨.sha512, h512, rfl⟩
    · next h256 h384 h512 =>
      rw [if_neg h256, if_neg h384, if_neg h512] at hpos
      exact absurd rfl hpos
  refine ⟨a, ?_, hdigits, by omega⟩
  rw [halg]
  exact toLower_name a

/-- An address that begins as the prompt wants it does so without regard to
case. -/
theorem startsWithFolded_lit {url : Text}
    (h : url.startsWith (Text.lit "https://").utf8 = true) :
    startsWithFolded url.str "https://" = true := by
  obtain ⟨rest, hrest⟩ := List.isPrefixOf_iff_prefix.mp h
  have hchars := Text.charsLoop_append (b := (Text.lit "https://").utf8)
    (by decide) rest rest.length
  have hfold : (((Text.lit "https://").utf8.map fun x => Char.ofNat x.toNat).map
      toCaseFolded) = "https://".toList := by
    decide
  have hstr : url.str.toList.map toCaseFolded =
      "https://".toList ++
        (Text.charsLoop rest.length rest).map toCaseFolded := by
    rw [Text.str, String.toList_ofList, ← hrest, List.length_append, hchars,
      List.map_append, hfold]
  rw [startsWithFolded, List.isPrefixOf_iff_prefix, hstr]
  exact List.prefix_append _ _

/-- The pins arrive in just these cases. Of the calls, where each hash that is
given goes together with its algorithm; of the prompt, where an algorithm is
chosen for the hash of a certificate. -/
theorem pins_sent_iff (p : Panel) :
    (∀ b, KeepsPins p b ↔ (b.Pinned → b.Refused p ∨ b.Sound)) ∧
    ∀ prompt, SendsAccepted p prompt ↔
      ∀ b, prompt.press = some (.https b) → b.Pinned →
        p.host.isEmpty = false →
          b.Fits ∧ (b.pinnedServerCertHashHex ≠ [] →
            b.pinnedServerCertHashAlg ≠ "") := by
  refine ⟨keepsPins_iff p, fun prompt => ?_⟩
  refine forall_congr' fun b => forall_congr' fun hpress =>
    forall_congr' fun hpinned => forall_congr' fun hhost => ?_
  obtain ⟨rfl, hurl, himage, hserver⟩ := OcrPrompt.press_https hpress
  have hrefused : ¬prompt.boot.Refused p := by
    rintro (hempty | hurl')
    · rw [hhost] at hempty
      cases hempty
    · rw [OcrPrompt.boot, startsWithFolded_lit hurl] at hurl'
      cases hurl'
  rw [started_iff hrefused]
  constructor
  · intro hsound
    refine ⟨hsound.toFits, fun hgiven hempty => ?_⟩
    obtain ⟨a, hname, -⟩ := hsound.server hgiven
    rw [hempty] at hname
    exact not_named_empty a hname
  · rintro ⟨hfits, hchosen⟩
    refine ⟨hfits, fun hgiven => ?_, fun hgiven => ?_⟩
    · have hpin := pin_of_looksLikeHex (himage hgiven)
      have halg : prompt.boot.hashAlg = prompt.hashAlg := by
        have hempty : prompt.hashHex.isEmpty = false :=
          List.isEmpty_eq_false_iff.mpr hgiven
        rw [OcrPrompt.boot, hempty]
        rfl
      rw [halg]
      exact hpin
    · exact pin_of_looksLikeHex (hserver (hchosen hgiven) hgiven)

/-- A hash of sixty-four digits was typed for the certificate, and no algorithm
is chosen any more. -/
def unchosen : OcrPrompt where
  variant := 2
  httpsUrl := Text.lit "https://b"
  pinnedCertHashHex := List.replicate 64 0x30

/-- The prompt lets it pass, and the boot goes out without a pin. -/
theorem pin_dropped :
    unchosen.press = some (.https unchosen.boot) ∧ unchosen.boot.Pinned ∧
      ¬KeepsPins { machine := { host := "amt" } } unchosen.boot ∧
        ¬SendsAccepted { machine := { host := "amt" } } unchosen := by
  have hpress : unchosen.press = some (.https unchosen.boot) := rfl
  have hpinned : unchosen.boot.Pinned := .inr (by decide)
  have hhost :
      ({ machine := { host := "amt" } } : Panel).host.isEmpty = false := by
    decide
  have hkeeps : ¬KeepsPins { machine := { host := "amt" } } unchosen.boot := by
    rw [keepsPins_iff]
    intro hkeeps
    obtain (hempty | hurl) | hsound := hkeeps hpinned
    · rw [hhost] at hempty
      cases hempty
    · rw [show startsWithFolded unchosen.boot.url.str "https://" = true from
        startsWithFolded_lit rfl] at hurl
      cases hurl
    · obtain ⟨a, hname, -⟩ := hsound.server (by decide)
      exact not_named_empty a hname
  exact ⟨hpress, hpinned, hkeeps, fun haccepted =>
    hkeeps fun _ => .inr (haccepted _ hpress hpinned hhost)⟩

end QuMesh.Details
