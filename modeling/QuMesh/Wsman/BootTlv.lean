import QuMesh.Lib.Text

/-!
# Boot parameters

The blobs of `UefiBootParametersArray`, which are entries of a vendor, a type, a
length and a value, one after the other. A builder keeps the number of entries
beside the blob.
-/

namespace QuMesh.Wsman

open QuMesh.Lib

/-- `OcrTlvType`, the types that the builders use. -/
inductive OcrTlvType where
  | efiNetworkDevicePath
  | efiFileDevicePath
  | efiDevicePathLen
  | bootImageHashSha256
  | bootImageHashSha384
  | bootImageHashSha512
  | httpsCertSyncRootCa
  | httpsServerCertHashSha256
  | httpsServerCertHashSha384
  | httpsServerCertHashSha512
  | httpsUserName
  | httpsPassword
  deriving DecidableEq, Repr

def OcrTlvType.code : OcrTlvType → Nat
  | efiNetworkDevicePath => 1
  | efiFileDevicePath => 2
  | efiDevicePathLen => 3
  | bootImageHashSha256 => 4
  | bootImageHashSha384 => 5
  | bootImageHashSha512 => 6
  | httpsCertSyncRootCa => 20
  | httpsServerCertHashSha256 => 23
  | httpsServerCertHashSha384 => 24
  | httpsServerCertHashSha512 => 25
  | httpsUserName => 40
  | httpsPassword => 41

/-- The size goes into 32 bits. -/
def appendTlv (b : Bytes) (vendor type : Nat) (data : Bytes) : Bytes :=
  b ++ pack16Le vendor ++ pack16Le type ++ pack32Le data.length ++ data

def kVendorIntel : Nat := 0x8086

/-- A blob, and the number of its entries. -/
structure TlvBlob where
  blob : Bytes := []
  count : Nat := 0
  deriving DecidableEq, Repr

/-- `appendTlv`, and `++count`. -/
def TlvBlob.add (t : TlvBlob) (type : Nat) (data : Bytes) : TlvBlob where
  blob := appendTlv t.blob kVendorIntel type data
  count := t.count + 1

def buildHttpsBootUrlTlv (url : Text) : TlvBlob :=
  let t : TlvBlob := {}
  let t := t.add 1 url.utf8
  let t := t.add 20 [0x01]
  t.add 30 [0, 0]

def buildOcrPbaBootTlv (bootString : Text) : TlvBlob :=
  let t : TlvBlob := {}
  let bs := bootString.utf8
  let t := t.add OcrTlvType.efiFileDevicePath.code bs
  t.add OcrTlvType.efiDevicePathLen.code (pack16Le bs.length)

def ocrImageHashType (alg : String) : Nat :=
  let a := alg.toLower
  if a = "sha256" then OcrTlvType.bootImageHashSha256.code
  else if a = "sha384" then OcrTlvType.bootImageHashSha384.code
  else if a = "sha512" then OcrTlvType.bootImageHashSha512.code
  else 0

def ocrServerCertHashType (alg : String) : Nat :=
  let a := alg.toLower
  if a = "sha256" then OcrTlvType.httpsServerCertHashSha256.code
  else if a = "sha384" then OcrTlvType.httpsServerCertHashSha384.code
  else if a = "sha512" then OcrTlvType.httpsServerCertHashSha512.code
  else 0

structure HttpsBootPinned where
  url : Text
  hashAlg : String := ""
  imageHash : Bytes := []
  pinnedServerCertHashAlg : String := ""
  pinnedServerCertHash : Bytes := []
  username : Text := Text.empty
  password : Text := Text.empty
  deriving DecidableEq

def buildOcrHttpsBootPinnedTlv (p : HttpsBootPinned) : TlvBlob :=
  let t : TlvBlob := {}
  let t := t.add OcrTlvType.efiNetworkDevicePath.code p.url.utf8
  let t :=
    if p.hashAlg ≠ "" ∧ p.imageHash ≠ [] then
      let type := ocrImageHashType p.hashAlg
      if type ≠ 0 then t.add type p.imageHash else t
    else t
  let t := t.add OcrTlvType.httpsCertSyncRootCa.code [0x01]
  let t :=
    if p.pinnedServerCertHashAlg ≠ "" ∧ p.pinnedServerCertHash ≠ [] then
      let type := ocrServerCertHashType p.pinnedServerCertHashAlg
      if type ≠ 0 then t.add type p.pinnedServerCertHash else t
    else t
  let t :=
    if !p.username.isEmpty then
      t.add OcrTlvType.httpsUserName.code p.username.utf8
    else t
  if !p.password.isEmpty then
    t.add OcrTlvType.httpsPassword.code p.password.utf8
  else t

def buildPlatformEraseTlv (flags : UInt32) (psid ssdPassword : Text) :
    TlvBlob :=
  let t : TlvBlob := {}
  let t := t.add 1 (pack32Le flags.toNat)
  let t :=
    if flags &&& ((1 : UInt32) <<< 1) ≠ 0 ∧ !psid.isEmpty then
      t.add 10 psid.utf8
    else t
  if flags &&& ((1 : UInt32) <<< 2) ≠ 0 ∧ !ssdPassword.isEmpty then
    t.add 20 ssdPassword.utf8
  else t

end QuMesh.Wsman
