import QuMesh.App.Migrator
import QuMesh.App.SecretCodec

/-!
# Legacy envelopes

An envelope is hex throughout. Of a legacy one `decrypt` checks that, of one of
the second version it does not: its reader passes over what is no digit, and
only how many bytes come out of the key and of the counter block is compared.
Of digits that are not evenly many the reader makes a byte of the first one
alone, so one of them may be missing there, and of the ciphertext any of them.
Nor does the check of a legacy envelope count them. What is proved is which
strings are refused as they should be, and that what `encryptV2` writes is read.
-/

namespace QuMesh.Migrate

open QuMesh.Lib

/-- AES-256-CTR is its own inverse and keeps lengths, and MD5 makes 16 bytes. -/
structure OpenSsl.Works (ssl : OpenSsl) : Prop where
  crypt : ∀ key iv b : Bytes, key.length = kAesKeyLen → iv.length = kAesIvLen →
    ∃ out, ssl.aes256Ctr key iv b = .ok out ∧ out.length = b.length ∧
      ssl.aes256Ctr key iv out = .ok b
  md5 : ∀ b : Bytes, (ssl.md5 b).length = 16

/-- What the two formats are documented to be. -/
inductive Envelope : Bytes → Prop
  | v2 {hex : Bytes} (hhex : isHex hex = true)
      (hlength : kV2KeyHexLen + kV2IvHexLen ≤ hex.length)
      (heven : hex.length % 2 = 0) : Envelope (kV2Prefix ++ hex)
  | legacy {hex : Bytes} (hhex : isHex hex = true)
      (hlength : kLegacyPasswordHexLen < hex.length)
      (heven : hex.length % 2 = 0) : Envelope hex

def digitCount (b : Bytes) : Nat := b.countP fun c => (hexValue c).isSome

/-- What lets `decrypt` tell a damaged envelope: a digit or two too few in the
key or the counter block, or no damage at all; in a legacy one, that it is not
one digit that is missing. -/
def Caught (c : Bytes) : Prop :=
  if kV2Prefix.isPrefixOf c then
    let rest := c.drop kV2Prefix.length
    rest.length < kV2KeyHexLen + kV2IvHexLen ∨
      digitCount (rest.take kV2KeyHexLen) < kV2KeyHexLen - 1 ∨
      digitCount ((rest.drop kV2KeyHexLen).take kV2IvHexLen) < kV2IvHexLen - 1 ∨
      isHex rest = true ∧ rest.length % 2 = 0
  else c.length ≤ kLegacyPasswordHexLen ∨ isHex c = false ∨ c.length % 2 = 0

variable {ssl : OpenSsl}

/-! ## Hex -/

theorem length_digits (b : Bytes) :
    (b.filterMap hexValue).length = digitCount b := by
  rw [digitCount, List.length_filterMap_eq_countP]

theorem digitCount_le (b : Bytes) : digitCount b ≤ b.length :=
  List.countP_le_length

/-- Bytes out of twice as many places: one digit may be missing. -/
theorem length_fromHex_iff {b : Bytes} {n : Nat} (hn : 0 < n)
    (h : b.length = 2 * n) :
    (fromHex b).length = n ↔ ¬digitCount b < 2 * n - 1 := by
  have hle := digitCount_le b
  rw [length_fromHex, length_digits]
  omega

theorem isHex_take_drop (b : Bytes) (n : Nat) :
    isHex b = (isHex (b.take n) && isHex (b.drop n)) := by
  rw [← isHex_append, List.take_append_drop]

/-! ## The key of a legacy envelope -/

theorem length_deriveLoop (hmd5 : ∀ b : Bytes, (ssl.md5 b).length = 16)
    (password : Bytes) (want : Nat) {fuel : Nat} {out : Bytes}
    (hfuel : want ≤ out.length + fuel) (last : Bytes) :
    want ≤ (deriveLoop ssl password want fuel out last).length := by
  induction fuel generalizing out last with
  | zero => exact hfuel
  | succ fuel ih =>
      rw [deriveLoop]
      split
      · refine ih ?_ _
        rw [List.length_append, hmd5]
        omega
      · omega

theorem length_evpBytesToKeyMd5 (hssl : ssl.Works) (password : Bytes) :
    (evpBytesToKeyMd5 ssl password kAesKeyLen kAesIvLen).1.length = kAesKeyLen ∧
      (evpBytesToKeyMd5 ssl password kAesKeyLen kAesIvLen).2.length =
        kAesIvLen := by
  have hlong : kAesKeyLen + kAesIvLen ≤ (deriveLoop ssl password
      (kAesKeyLen + kAesIvLen) (kAesKeyLen + kAesIvLen) [] []).length :=
    length_deriveLoop hssl.md5 password _ (by simp) []
  unfold kAesKeyLen kAesIvLen at hlong ⊢
  rw [evpBytesToKeyMd5, List.length_take, List.length_take, List.length_drop]
  omega

/-! ## What is decrypted -/

theorem decrypt_v2 (hssl : ssl.Works) {c : Bytes}
    (hv2 : kV2Prefix.isPrefixOf c = true) :
    (∃ p, decrypt ssl c = .ok p) ↔
      ¬(c.drop kV2Prefix.length).length < kV2KeyHexLen + kV2IvHexLen ∧
        (fromHex ((c.drop kV2Prefix.length).take kV2KeyHexLen)).length =
          kAesKeyLen ∧
        (fromHex (((c.drop kV2Prefix.length).drop kV2KeyHexLen).take
          kV2IvHexLen)).length = kAesIvLen := by
  rw [decrypt, detectFormat, if_pos hv2]
  dsimp only
  split
  next hshort =>
    exact iff_of_false (fun ⟨p, hp⟩ => nomatch hp) fun h => h.1 hshort
  next hlong =>
    split
    next hbad =>
      refine iff_of_false (fun ⟨p, hp⟩ => nomatch hp) ?_
      rintro ⟨-, hkey, hiv⟩
      rcases hbad with hbad | hbad
      · exact hbad hkey
      · exact hbad hiv
    next hgood =>
      rw [not_or, not_not, not_not] at hgood
      obtain ⟨out, hout, -⟩ := hssl.crypt _ _
        (fromHex ((c.drop kV2Prefix.length).drop (kV2KeyHexLen + kV2IvHexLen)))
        hgood.1 hgood.2
      exact iff_of_true ⟨out, hout⟩ ⟨hlong, hgood⟩

theorem decrypt_other (hssl : ssl.Works) {c : Bytes}
    (hv2 : ¬kV2Prefix.isPrefixOf c = true) :
    (∃ p, decrypt ssl c = .ok p) ↔
      kLegacyPasswordHexLen < c.length ∧ isHex c = true := by
  rw [decrypt, detectFormat, if_neg hv2,
    isHex_take_drop c kLegacyPasswordHexLen]
  by_cases hlegacy : (c.length > kLegacyPasswordHexLen &&
      isHex (c.take kLegacyPasswordHexLen)) = true
  · rw [if_pos hlegacy]
    rw [Bool.and_eq_true, decide_eq_true_eq] at hlegacy
    dsimp only
    split
    next hbad =>
      rw [Bool.not_eq_true'] at hbad
      refine iff_of_false (fun ⟨p, hp⟩ => nomatch hp) ?_
      rintro ⟨-, hhex⟩
      rw [hbad, Bool.and_false] at hhex
      cases hhex
    next hgood =>
      rw [Bool.not_eq_true, Bool.not_eq_false'] at hgood
      obtain ⟨hkey, hiv⟩ :=
        length_evpBytesToKeyMd5 hssl (c.take kLegacyPasswordHexLen)
      obtain ⟨out, hout, -⟩ := hssl.crypt _ _
        (fromHex (c.drop kLegacyPasswordHexLen)) hkey hiv
      refine iff_of_true ⟨out, hout⟩ ⟨hlegacy.1, ?_⟩
      rw [hlegacy.2, hgood, Bool.and_self]
  · rw [if_neg hlegacy]
    refine iff_of_false (fun ⟨p, hp⟩ => nomatch hp) ?_
    rintro ⟨hlength, hhex⟩
    refine hlegacy ?_
    rw [Bool.and_eq_true] at hhex ⊢
    exact ⟨decide_eq_true hlength, hhex.1⟩

/-! ## What is refused -/

theorem envelope_v2_iff (rest : Bytes) :
    Envelope (kV2Prefix ++ rest) ↔ isHex rest = true ∧
      kV2KeyHexLen + kV2IvHexLen ≤ rest.length ∧ rest.length % 2 = 0 := by
  constructor
  · intro h
    generalize hc : kV2Prefix ++ rest = c at h
    cases h with
    | @v2 hex hhex hlength heven =>
        obtain rfl := List.append_cancel_left hc
        exact ⟨hhex, hlength, heven⟩
    | legacy hhex _ _ =>
        rw [← hc, isHex_append] at hhex
        cases hhex
  · rintro ⟨hhex, hlength, heven⟩
    exact .v2 hhex hlength heven

theorem envelope_other_iff {c : Bytes} (hv2 : ¬kV2Prefix.isPrefixOf c = true) :
    Envelope c ↔ isHex c = true ∧ kLegacyPasswordHexLen < c.length ∧
      c.length % 2 = 0 := by
  constructor
  · rintro (⟨-, -, -⟩ | ⟨hhex, hlength, heven⟩)
    · exact absurd (List.isPrefixOf_iff_prefix.mpr (List.prefix_append _ _)) hv2
    · exact ⟨hhex, hlength, heven⟩
  · rintro ⟨hhex, hlength, heven⟩
    exact .legacy hhex hlength heven

theorem caught_iff (hssl : ssl.Works) (c : Bytes) :
    ((∃ p, decrypt ssl c = .ok p) → Envelope c) ↔ Caught c := by
  by_cases hv2 : kV2Prefix.isPrefixOf c = true
  · obtain ⟨rest, rfl⟩ := List.isPrefixOf_iff_prefix.mp hv2
    rw [decrypt_v2 hssl hv2, envelope_v2_iff, Caught, if_pos hv2,
      List.drop_left]
    dsimp only
    by_cases hshort : rest.length < kV2KeyHexLen + kV2IvHexLen
    · exact iff_of_true (fun h => absurd hshort h.1) (.inl hshort)
    have hkey := length_fromHex_iff (b := rest.take kV2KeyHexLen)
      (n := kAesKeyLen) (by decide) (by
        rw [List.length_take_of_le (by omega)]
        rfl)
    have hiv := length_fromHex_iff
      (b := (rest.drop kV2KeyHexLen).take kV2IvHexLen) (n := kAesIvLen)
      (by decide) (by
        rw [List.length_take_of_le (by rw [List.length_drop]; omega)]
        rfl)
    rw [hkey, hiv]
    show _ ↔ _ ∨ digitCount (rest.take kV2KeyHexLen) < 2 * kAesKeyLen - 1 ∨
      digitCount ((rest.drop kV2KeyHexLen).take kV2IvHexLen) <
        2 * kAesIvLen - 1 ∨ _
    have hle := Nat.le_of_not_lt hshort
    tauto
  · rw [decrypt_other hssl hv2, envelope_other_iff hv2, Caught, if_neg hv2,
      ← Nat.not_lt, ← Bool.not_eq_true]
    tauto

/-! ## The way back -/

theorem decrypt_encryptV2 (hssl : ssl.Works) (key : Block kAesKeyLen)
    (iv : Block kAesIvLen) (p : Bytes) :
    decrypt ssl (encryptV2 ssl (some key) (some iv) p) = .ok p := by
  obtain ⟨ct, hct, hlength, hback⟩ :=
    hssl.crypt key iv p key.property iv.property
  have hkey : (toHex key.val).length = kV2KeyHexLen := by
    rw [length_toHex, key.property]
    rfl
  have hiv : (toHex iv.val).length = kV2IvHexLen := by
    rw [length_toHex, iv.property]
    rfl
  have hempty : (ct.isEmpty && !p.isEmpty) = false := by
    cases ct with
    | nil =>
        rw [List.length_eq_zero_iff.mp hlength.symm]
        rfl
    | cons x ct => rfl
  have henvelope : encryptV2 ssl (some key) (some iv) p =
      kV2Prefix ++ (toHex key.val ++ (toHex iv.val ++ toHex ct)) := by
    simp only [encryptV2, hct, Except.toOption, Option.getD_some, hempty,
      Bool.false_eq_true, if_false, List.append_assoc]
  have hv2 : kV2Prefix.isPrefixOf
      (kV2Prefix ++ (toHex key.val ++ (toHex iv.val ++ toHex ct))) = true :=
    List.isPrefixOf_iff_prefix.mpr (List.prefix_append _ _)
  have hlong : ¬(toHex key.val ++ (toHex iv.val ++ toHex ct)).length <
      kV2KeyHexLen + kV2IvHexLen := by
    rw [List.length_append, List.length_append, hkey, hiv]
    omega
  have hct' : (toHex key.val ++ (toHex iv.val ++ toHex ct)).drop
      (kV2KeyHexLen + kV2IvHexLen) = toHex ct := by
    rw [← List.append_assoc, ← hkey, ← hiv, ← List.length_append,
      List.drop_left]
  rw [henvelope, decrypt, detectFormat, if_pos hv2]
  dsimp only
  rw [List.drop_left, if_neg hlong, hct', ← hkey, List.take_left,
    List.drop_left, ← hiv, List.take_left, fromHex_toHex, fromHex_toHex,
    fromHex_toHex,
    if_neg (by simp [key.property, iv.property]), hback]

/-- What was encrypted is decrypted, and what is no envelope is refused exactly
where the damage can be told. -/
theorem legacy_envelopes (hssl : ssl.Works) :
    (∀ (key : Block kAesKeyLen) (iv : Block kAesIvLen) (p : Bytes),
      decrypt ssl (encryptV2 ssl (some key) (some iv) p) = .ok p) ∧
    ∀ c : Bytes, ((∃ p, decrypt ssl c = .ok p) → Envelope c) ↔ Caught c :=
  ⟨decrypt_encryptV2 hssl, caught_iff hssl⟩

/-! ### A key stream -/

/-- AES under an all-zero key and counter block, whichever are given. -/
def streamSsl : OpenSsl where
  aes256Ctr key iv b := .ok (App.SecretCodec.zeroStream.crypt key iv b)
  md5 _ := List.replicate 16 0

theorem streamSsl_works : streamSsl.Works where
  crypt key iv b _ _ :=
    ⟨_, rfl, App.SecretCodec.zeroStream.length_crypt key iv b,
      congrArg Except.ok (App.SecretCodec.zeroStream.crypt_crypt key iv b)⟩
  md5 _ := rfl

theorem legacy_envelopes_stream :
    (∀ (key : Block kAesKeyLen) (iv : Block kAesIvLen) (p : Bytes),
      decrypt streamSsl (encryptV2 streamSsl (some key) (some iv) p) = .ok p) ∧
    ∀ c : Bytes, ((∃ p, decrypt streamSsl c = .ok p) → Envelope c) ↔ Caught c :=
  legacy_envelopes streamSsl_works

/-- Zeros, and `x1` for a ciphertext. -/
def damagedEnvelope : Bytes :=
  kV2Prefix ++ (List.replicate 96 0x30 ++ [0x78, 0x31])

theorem damage_decrypted : ¬∀ (ssl : OpenSsl), ssl.Works → ∀ c : Bytes,
    (∃ p, decrypt ssl c = .ok p) → Envelope c := by
  intro h
  have henvelope := h streamSsl streamSsl_works damagedEnvelope
    ⟨[0xDD], by decide⟩
  exact absurd ((envelope_v2_iff _).mp henvelope).1 (by decide)

end QuMesh.Migrate
