import QuMesh.Lib.Hex

/-!
# `SecretCodec`

Secrets are stored in one of two envelopes. `v3:` is the initialization vector
and the ciphertext, under the master key that the key store of the platform
hands out; `v2:` carries its key along and is what is left where there is no
master key. Both are AES-256-CTR and hex. What the platform answers a call is
an argument of it: the master key, empty where the key store has none to give,
and the random bytes, missing where `RAND_bytes` fails.
-/

namespace QuMesh.App

open QuMesh.Lib

/-- AES-256-CTR. Encryption and decryption are one operation: the bytes under
the key stream of a key and a counter block. -/
structure AesCtr where
  crypt : Bytes → Bytes → Bytes → Bytes
  crypt_crypt (key iv b : Bytes) : crypt key iv (crypt key iv b) = b
  length_crypt (key iv b : Bytes) : (crypt key iv b).length = b.length

namespace SecretCodec

def kAesKeyLen : Nat := 32
def kAesIvLen : Nat := 16
def kIvHexLen : Nat := kAesIvLen * 2
def kV2KeyHexLen : Nat := kAesKeyLen * 2
def kV2IvHexLen : Nat := kAesIvLen * 2

/-- `v3:` and `v2:` -/
def kV3Prefix : Bytes := [0x76, 0x33, 0x3A]
def kV2Prefix : Bytes := [0x76, 0x32, 0x3A]

/-- Bytes of one length, as `RAND_bytes` fills them in. -/
abbrev Block (n : Nat) := { b : Bytes // b.length = n }

/-- What the platform answers one call. -/
structure Answers where
  masterKey : Bytes := []
  v3Iv : Option (Block kAesIvLen) := none
  v2Key : Option (Block kAesKeyLen) := none
  v2Iv : Option (Block kAesIvLen) := none

variable (aes : AesCtr)

def aes256CtrCrypt (key iv b : Bytes) : Bytes :=
  if key.length ≠ kAesKeyLen ∨ iv.length ≠ kAesIvLen then []
  else aes.crypt key iv b

def encryptV3 (a : Answers) (plaintext key : Bytes) : Text :=
  match a.v3Iv with
  | none => .empty
  | some iv =>
      let ct := aes256CtrCrypt aes key iv plaintext
      if ct.isEmpty && !plaintext.isEmpty then .empty
      else .ofLatin1 (kV3Prefix ++ toHex iv ++ toHex ct)

def decryptV3 (body key : Bytes) : Bytes :=
  if body.length < kIvHexLen then []
  else
    let ivHex := body.take kIvHexLen
    let ctHex := body.drop kIvHexLen
    if !isHex ivHex || !isHex ctHex then []
    else if (fromHex ivHex).length ≠ kAesIvLen then []
    else aes256CtrCrypt aes key (fromHex ivHex) (fromHex ctHex)

/-- `LegacyCrypto::encryptV2` -/
def encryptV2 (a : Answers) (plaintext : Bytes) : Bytes :=
  match a.v2Key, a.v2Iv with
  | some key, some iv =>
      let ct := aes256CtrCrypt aes key iv plaintext
      if ct.isEmpty && !plaintext.isEmpty then []
      else kV2Prefix ++ toHex key ++ toHex iv ++ toHex ct
  | _, _ => []

/-- `LegacyCrypto::decrypt` of an envelope that begins with `v2:`, and nothing
where it reports an error. -/
def decryptV2 (ciphertext : Bytes) : Option Bytes :=
  let rest := ciphertext.drop kV2Prefix.length
  if rest.length < kV2KeyHexLen + kV2IvHexLen then none
  else
    let key := fromHex (rest.take kV2KeyHexLen)
    let iv := fromHex ((rest.drop kV2KeyHexLen).take kV2IvHexLen)
    let ct := fromHex (rest.drop (kV2KeyHexLen + kV2IvHexLen))
    if key.length ≠ kAesKeyLen ∨ iv.length ≠ kAesIvLen then none
    else some (aes256CtrCrypt aes key iv ct)

def encode (a : Answers) (plaintext : Text) : Text :=
  if plaintext.isEmpty then .empty
  else
    let v3 :=
      if a.masterKey.length = kAesKeyLen then
        encryptV3 aes a plaintext.utf8 a.masterKey
      else .empty
    if !v3.isEmpty then v3
    else .ofLatin1 (encryptV2 aes a plaintext.utf8)

def decode (masterKey : Bytes) (stored : Text) : Text :=
  if stored.isEmpty then .empty
  else if stored.startsWith kV3Prefix then
    if masterKey.length ≠ kAesKeyLen then .empty
    else
      let body := Text.toLatin1 (stored.utf8.drop kV3Prefix.length)
      .ofUtf8 (decryptV3 aes body masterKey)
  else if stored.startsWith kV2Prefix then
    match decryptV2 aes (Text.toLatin1 stored.utf8) with
    | none => .empty
    | some plaintext => .ofUtf8 plaintext
  else stored

/-! ## Key streams -/

/-- Bytes under a key stream, as far as the stream goes. -/
def under : Bytes → Bytes → Bytes
  | s :: stream, x :: b => (x ^^^ s) :: under stream b
  | _, b => b

theorem under_under (stream b : Bytes) : under stream (under stream b) = b := by
  induction stream generalizing b with
  | nil => rfl
  | cons s stream ih =>
      cases b with
      | nil => rfl
      | cons x b =>
          rw [under, under, ih, UInt8.xor_assoc, UInt8.xor_self, UInt8.xor_zero]

theorem length_under (stream b : Bytes) :
    (under stream b).length = b.length := by
  induction stream generalizing b with
  | nil => rfl
  | cons s stream ih =>
      cases b with
      | nil => rfl
      | cons x b => simp [under, ih]

/-- What an all-zero key and counter block encipher the first 16 bytes with. -/
def zeroStream : AesCtr where
  crypt _ _ := under [0xDC, 0x95, 0xC0, 0x78, 0xA2, 0x40, 0x89, 0x89,
    0xAD, 0x48, 0xA2, 0x14, 0x92, 0x84, 0x20, 0x87]
  crypt_crypt _ _ b := under_under _ b
  length_crypt _ _ b := length_under _ b

end SecretCodec

end QuMesh.App
