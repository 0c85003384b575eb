import QuMesh.Wsman.ParallelReads
import QuMesh.Wsman.RemoteAccess

/-!
# The certificates of a device

`getDeviceCertStore` enumerates certificates, key pairs, TLS settings and the
contexts that say which certificate is in use, side by side, and makes one
result of the four.
-/

namespace QuMesh.Wsman

open QuMesh.Lib QuMesh.Lib.Xml

/-- One part of a name, where it has an equals sign and something before it. -/
def splitRdn (out : Table String String) (raw : List Char) :
    Table String String :=
  if raw.contains '=' then
    let key := Strings.trimmed (String.ofList (raw.takeWhile (· ≠ '=')))
    let val := Strings.trimmed
      (String.ofList ((raw.dropWhile (· ≠ '=')).drop 1))
    if key.isEmpty then out else out.insert key val
  else out

def splitDn (dn : String) : Table String String :=
  (dn.toList.splitOn ',').foldl splitRdn .empty

structure DeviceCertificate where
  instanceId : String
  subjectCn : String := ""
  issuerCn : String := ""
  subjectRaw : String := ""
  issuerRaw : String := ""
  trustedRoot : Bool := false
  derSizeBytes : Nat := 0
  x509Base64 : String := ""

structure DeviceKeyPair where
  instanceId : String
  derSizeBytes : Nat := 0
  deriving DecidableEq, Repr

structure TlsSettingsRow where
  instanceId : String
  enabled : Bool := false
  mutualAuthentication : Bool := false
  acceptNonSecureConnections : Bool := false
  trustedCn : List String := []

structure DeviceCertResult where
  ok : Bool := false
  error : String := ""
  certificates : List DeviceCertificate := []
  keyPairs : List DeviceKeyPair := []
  tlsSettings : List TlsSettingsRow := []
  activeCertInstanceIds : List String := []

def commonName (dn : String) : String := ((splitDn dn).value? "CN").getD ""

/-- The firmware writes the name of the flag in two ways. -/
def parseCertItem (item : List Token) : DeviceCertificate where
  instanceId := findScalar item "InstanceID"
  subjectRaw := findScalar item "Subject"
  issuerRaw := findScalar item "Issuer"
  trustedRoot := findScalar item "TrustedRootCertficate" = "true" ||
    findScalar item "TrustedRootCertificate" = "true"
  x509Base64 := findScalar item "X509Certificate"
  derSizeBytes := (bytesOfBase64 (findScalar item "X509Certificate")).length
  subjectCn := commonName (findScalar item "Subject")
  issuerCn := commonName (findScalar item "Issuer")

def parseKeyPairItem (item : List Token) : DeviceKeyPair where
  instanceId := findScalar item "InstanceID"
  derSizeBytes := (bytesOfBase64 (findScalar item "DERKey")).length

def parseTlsRow (item : List Token) : TlsSettingsRow where
  instanceId := findScalar item "InstanceID"
  enabled := findScalar item "Enabled" = "true"
  mutualAuthentication := findScalar item "MutualAuthentication" = "true"
  acceptNonSecureConnections :=
    findScalar item "AcceptNonSecureConnections" = "true"
  trustedCn := (elementTexts item "TrustedCN").filter (· ≠ "")

/-- The value of the attribute `Name`. -/
def selectorName (attributes : List Attribute) : String :=
  match attributes.find? fun a => a.namespaceUri = "" && a.name = "Name" with
  | some a => a.value
  | none => ""

/-- The loop of `parseContextCertInstanceId`. What an end element closes is the
innermost of the names that are open. -/
def contextCertIn (opened : List String) (inElementInContext : Bool) :
    List Token → String
  | [] => ""
  | .startElement _ name attributes :: r =>
      if name = "ElementInContext" then contextCertIn (name :: opened) true r
      else if inElementInContext && name = "Selector" &&
          selectorName attributes = "InstanceID" then
        (readElementText r).1
      else contextCertIn (name :: opened) inElementInContext r
  | .characters _ :: r => contextCertIn opened inElementInContext r
  | .endElement :: r =>
      contextCertIn opened.tail
        (if opened.head? = some "ElementInContext" then false
        else inElementInContext) r

def parseContextCertInstanceId (item : List Token) : String :=
  contextCertIn [] false (readBack 0 item)

inductive CertKind
  | cert | keyPair | tls | ctx
  deriving DecidableEq

def certKinds : List CertKind := [.cert, .keyPair, .tls, .ctx]

/-- What the four callbacks share, and the calls of the callback. -/
structure CertStoreState where
  done : CertKind → Bool := fun _ => false
  items : CertKind → List (List Token) := fun _ => []
  errors : CertKind → String := fun _ => ""
  fired : Bool := false
  calls : List DeviceCertResult := []

namespace CertStoreState

/-- The first error there is, if there are neither certificates nor settings. -/
def result (st : CertStoreState) : DeviceCertResult :=
  let r : DeviceCertResult :=
    { certificates := (st.items .cert).map parseCertItem
      keyPairs := (st.items .keyPair).map parseKeyPairItem
      tlsSettings := (st.items .tls).map parseTlsRow
      activeCertInstanceIds :=
        ((st.items .ctx).map parseContextCertInstanceId).filter (· ≠ "") }
  match (certKinds.map st.errors).find? (· ≠ "") with
  | some e =>
      if r.certificates.isEmpty && r.tlsSettings.isEmpty then
        { r with error := e, ok := false }
      else { r with ok := true }
  | none => { r with ok := true }

def maybeFire (st : CertStoreState) : CertStoreState :=
  if st.fired then st
  else if certKinds.all st.done then
    { st with fired := true, calls := st.calls ++ [st.result] }
  else st

def store (k : CertKind) (items : List (List Token)) (error : String)
    (st : CertStoreState) : CertStoreState :=
  { st with
    items := Function.update st.items k items
    errors := Function.update st.errors k error
    done := Function.update st.done k true }

def onDone (k : CertKind) (items : List (List Token)) (error : String)
    (st : CertStoreState) : CertStoreState :=
  (st.store k items error).maybeFire

end CertStoreState

end QuMesh.Wsman
