import QuMesh.App.SecretCodec
import QuMesh.Lib.Base64
import QuMesh.Lib.Json

/-!
# `BackupCodec`

The encryption of a backup file. The file is a JSON object that names the key
derivation and the cipher and carries salt, initialization vector, tag and
ciphertext in base64; the plaintext is another JSON document. The reader checks
one thing after the other and says what it misses. OpenSSL and the text of JSON
are parameters.
-/

namespace QuMesh.App

open QuMesh.Lib

namespace BackupCodec

def kAesKeyLen : Nat := 32
def kGcmIvLen : Nat := 12
def kGcmTagLen : Nat := 16
def kSaltLen : Nat := 32
def kEnvelopeVersion : Int := 1
def kTypeMarker : Text := .lit "qumesh-backup"
def kEnvelopeTag : Text := .lit "v1"
def kKdfName : Text := .lit "pbkdf2-sha256"
def kCipherName : Text := .lit "aes-256-gcm"
def kSchema : Text := .lit "qumesh.computers/1"

def kPbkdf2Iterations : Nat := 600000
def kPbkdf2MaxIterations : Nat := 10000000
def kMaxFileBytes : Nat := 64 * 1024 * 1024
def kMaxPasswordChars : Nat := 1024

/-- `QString::size` -/
def textSize (t : Text) : Nat := (utf16 t.utf8).length

abbrev Block := SecretCodec.Block

/-- PBKDF2 with HMAC-SHA256 and AES-256-GCM. Nothing comes of a call that fails
in OpenSSL, and nothing of a ciphertext whose tag is another. -/
structure OpenSsl where
  pbkdf2 : Bytes → Bytes → Nat → Option (Block kAesKeyLen)
  encrypt : Bytes → Bytes → Bytes → Option (Bytes × Bytes)
  decrypt : Bytes → Bytes → Bytes → Bytes → Option Bytes
  encrypt_length {key iv pt ct tag : Bytes}
    (h : encrypt key iv pt = some (ct, tag)) :
    ct.length = pt.length ∧ tag.length = kGcmTagLen
  decrypt_encrypt {key iv pt ct tag : Bytes}
    (h : encrypt key iv pt = some (ct, tag)) : decrypt key iv ct tag = some pt

def b64 (raw : Bytes) : Text := .ofLatin1 (toBase64 raw)

def unb64 (s : Text) : Option Bytes := fromBase64 true (Text.toLatin1 s.utf8)

/-- `static_cast<int>` of a size. -/
def intSize (n : Nat) : Int :=
  let low : Int := (n % 2 ^ 32 : Nat)
  if low < 2 ^ 31 then low else low - 2 ^ 32

inductive GcmDecryptStatus where
  | ok (plaintext : Bytes)
  | tagFailed
  | openSslError

inductive FailReason where
  | badFormat
  | badPassword
  | corrupt
  | internal
  deriving DecidableEq

section

variable (ssl : OpenSsl)

def derivePbkdf2 (password : Text) (salt : Bytes) (iterations : Int) : Bytes :=
  if password.isEmpty ∨ salt.length ≠ kSaltLen ∨ iterations ≤ 0 then []
  else
    match ssl.pbkdf2 password.utf8 salt iterations.toNat with
    | some key => key
    | none => []

/-- The ciphertext and the tag, both empty on failure. A negative length is
refused by OpenSSL. -/
def gcmEncrypt (key iv plaintext : Bytes) : Bytes × Bytes :=
  if key.length ≠ kAesKeyLen ∨ iv.length ≠ kGcmIvLen then ([], [])
  else
    let n := intSize plaintext.length
    if n < 0 then ([], [])
    else (ssl.encrypt key iv (plaintext.take n.toNat)).getD ([], [])

def gcmDecrypt (key iv ciphertext tag : Bytes) : GcmDecryptStatus :=
  if key.length ≠ kAesKeyLen ∨ iv.length ≠ kGcmIvLen ∨
      tag.length ≠ kGcmTagLen then .openSslError
  else
    let n := intSize ciphertext.length
    if n < 0 then .openSslError
    else
      match ssl.decrypt key iv (ciphertext.take n.toNat) tag with
      | some plaintext => .ok plaintext
      | none => .tagFailed

variable (json : JsonText)

/-- What the platform answers `encode`: the random bytes, missing where
`RAND_bytes` fails, and the time. -/
structure Fresh where
  salt : Option (Block kSaltLen) := none
  iv : Option (Block kGcmIvLen) := none
  createdAt : Text := .empty

/-- The document that is encrypted. -/
def payload (computers : List Json) : Json :=
  .obj [("schema", .str kSchema), ("computers", .arr computers)]

def envelope (createdAt : Text) (salt iv tag ct : Bytes) :
    List (String × Json) :=
  [("type", .str kTypeMarker),
    ("version", .int kEnvelopeVersion),
    ("createdAt", .str createdAt),
    ("envelope", .str kEnvelopeTag),
    ("kdf", .obj [("name", .str kKdfName),
      ("iterations", .int kPbkdf2Iterations),
      ("salt", .str (b64 salt))]),
    ("cipher", .obj [("name", .str kCipherName),
      ("iv", .str (b64 iv)),
      ("tag", .str (b64 tag))]),
    ("ciphertext", .str (b64 ct))]

def encode (a : Fresh) (computers : List Json) (password : Text) :
    Except String Bytes :=
  if password.isEmpty then .error "password is required"
  else if kMaxPasswordChars < textSize password then
    .error "password is unreasonably long"
  else
    match a.salt, a.iv with
    | some salt, some iv =>
        let key := derivePbkdf2 ssl password salt kPbkdf2Iterations
        if key.length ≠ kAesKeyLen then .error "PBKDF2 derivation failed"
        else
          let plaintext := json.print true (payload computers)
          let sealed := gcmEncrypt ssl key iv plaintext
          if sealed.1.length ≠ plaintext.length ∨
              sealed.2.length ≠ kGcmTagLen then
            .error "AES-GCM encrypt failed"
          else
            .ok (json.print false
              (.obj (envelope a.createdAt salt iv sealed.2 sealed.1)))
    | _, _ => .error "openssl RAND_bytes failed"

/-- What the envelope holds, once it has been checked. -/
structure Sealed where
  iterations : Int
  salt : Bytes
  iv : Bytes
  tag : Bytes
  ct : Bytes

def readEnvelope (env : List (String × Json)) :
    Except (FailReason × String) Sealed :=
  let kdf := (field env "kdf").toObject
  let iterations := (field kdf "iterations").toInt 0
  let cipher := (field env "cipher").toObject
  if (field env "type").toText ≠ kTypeMarker then
    .error (.badFormat, "not a qumesh-backup file")
  else if (field env "version").toInt 0 ≠ kEnvelopeVersion then
    .error (.badFormat, "unsupported backup envelope version")
  else if (field env "envelope").toText ≠ kEnvelopeTag then
    .error (.badFormat, "unsupported envelope tag")
  else if (field kdf "name").toText ≠ kKdfName then
    .error (.badFormat, "unsupported KDF")
  else if iterations ≤ 0 then
    .error (.badFormat, "KDF iterations missing or invalid")
  else if kPbkdf2MaxIterations < iterations then
    .error (.badFormat, "KDF iteration count is unreasonable")
  else if (field cipher "name").toText ≠ kCipherName then
    .error (.badFormat, "unsupported cipher")
  else
    let malformed :=
      .error (.corrupt, "backup file is malformed (bad base64 or sizes)")
    match unb64 (field kdf "salt").toText, unb64 (field cipher "iv").toText,
        unb64 (field cipher "tag").toText,
        unb64 (field env "ciphertext").toText with
    | some salt, some iv, some tag, some ct =>
        if salt.length ≠ kSaltLen ∨ iv.length ≠ kGcmIvLen ∨
            tag.length ≠ kGcmTagLen then malformed
        else .ok { iterations, salt, iv, tag, ct }
    | _, _, _, _ => malformed

def readPayload (plaintext : Bytes) :
    Except (FailReason × String) (List Json) :=
  match json.parse plaintext with
  | .ok (.obj fields) =>
      if (field fields "schema").toText ≠ kSchema then
        .error (.badFormat, "unsupported payload schema")
      else .ok (field fields "computers").toArray
  | _ => .error (.corrupt, "decrypted payload is not JSON")

def decode (file : Bytes) (password : Text) :
    Except (FailReason × String) (List Json) :=
  if password.isEmpty then .error (.badPassword, "password is required")
  else if kMaxPasswordChars < textSize password then
    .error (.badPassword, "password is unreasonably long")
  else if kMaxFileBytes < file.length then
    .error (.badFormat, "backup file is too large to be a qumesh-backup")
  else
    match json.parse file with
    | .ok (.obj env) =>
        match readEnvelope env with
        | .error failure => .error failure
        | .ok s =>
            let key := derivePbkdf2 ssl password s.salt s.iterations
            if key.length ≠ kAesKeyLen then
              .error (.internal, "PBKDF2 derivation failed")
            else
              match gcmDecrypt ssl key s.iv s.ct s.tag with
              | .tagFailed =>
                  .error (.badPassword, "incorrect password or tampered file")
              | .openSslError => .error (.internal, "AES-GCM decrypt failed")
              | .ok plaintext => readPayload json plaintext
    | _ => .error (.badFormat, "file is not a JSON object")

end

end BackupCodec

end QuMesh.App
