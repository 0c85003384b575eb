import QuMesh.App.DetailsCommands
import QuMesh.Wsman.CertStore

/-!
# The certificate store on the panel

What `refreshDeviceCerts` makes of a result. A certificate is said to have a
private key when there is a key pair whose InstanceID ends with what follows the
last colon of the certificate's; the pairs that none has found are the orphans.
-/

namespace QuMesh.Details

open QuMesh.Lib QuMesh.Wsman

structure CertRow where
  instanceId : String
  subjectCn : String
  issuerCn : String
  subjectRaw : String
  issuerRaw : String
  trustedRoot : Bool
  derSizeBytes : Nat
  hasPrivateKey : Bool
  active : Bool

structure TlsRow where
  instanceId : String
  isLocal : Bool
  enabled : Bool
  mutualAuthentication : Bool
  acceptNonSecureConnections : Bool
  trustedCn : List String
  trustedCnLabel : String
  label : String

structure DeviceCertStore where
  certificates : List CertRow := []
  orphanKeys : List DeviceKeyPair := []
  tlsSettings : List TlsRow := []
  ok : Bool := false

/-- `instanceId.mid(colon + 1).trimmed()`, or nothing without a colon. -/
def idSuffix (instanceId : String) : String :=
  let cs := instanceId.toList
  if cs.contains ':' then
    Strings.trimmed (String.ofList (cs.reverse.takeWhile (· ≠ ':')).reverse)
  else ""

/-- The loop over the key pairs, for one certificate. -/
def matchedKey (keyPairs : List DeviceKeyPair) (c : DeviceCertificate) :
    Option DeviceKeyPair :=
  let suffix := idSuffix c.instanceId
  if suffix.isEmpty then none
  else
    keyPairs.find? fun k => suffix.toList.isSuffixOf k.instanceId.toList

def certRow (r : DeviceCertResult) (c : DeviceCertificate) : CertRow where
  instanceId := c.instanceId
  subjectCn := c.subjectCn
  issuerCn := c.issuerCn
  subjectRaw := c.subjectRaw
  issuerRaw := c.issuerRaw
  trustedRoot := c.trustedRoot
  derSizeBytes := c.derSizeBytes
  hasPrivateKey := (matchedKey r.keyPairs c).isSome
  active := r.activeCertInstanceIds.contains c.instanceId

def keysClaimedByCerts (r : DeviceCertResult) : List String :=
  ((r.certificates.filterMap (matchedKey r.keyPairs)).map
    DeviceKeyPair.instanceId).filter (· ≠ "")

def tlsLabel (t : TlsSettingsRow) : String :=
  if !t.enabled then "Disabled"
  else
    (if t.mutualAuthentication then "Mutual-auth TLS" else "Server-auth TLS") ++
      (if t.acceptNonSecureConnections then " + non-TLS" else "")

def tlsRow (t : TlsSettingsRow) : TlsRow where
  instanceId := t.instanceId
  isLocal := t.instanceId.toList.tails.any fun cs => "LMS".toList.isPrefixOf cs
  enabled := t.enabled
  mutualAuthentication := t.mutualAuthentication
  acceptNonSecureConnections := t.acceptNonSecureConnections
  trustedCn := t.trustedCn
  trustedCnLabel := ", ".intercalate t.trustedCn
  label := tlsLabel t

def deviceCertStore (r : DeviceCertResult) : DeviceCertStore where
  certificates := r.certificates.map (certRow r)
  orphanKeys := r.keyPairs.filter fun k =>
    !(keysClaimedByCerts r).contains k.instanceId
  tlsSettings := r.tlsSettings.map tlsRow
  ok := r.ok

structure CertPanel where
  panel : Panel := {}
  deviceCertStore : DeviceCertStore := {}

/-- The callback of `refreshDeviceCerts`. -/
def CertPanel.onDeviceCerts (r : DeviceCertResult) (p : CertPanel) :
    CertPanel :=
  let panel := p.panel.decInflight
  { panel :=
      if !r.ok && !r.error.isEmpty then
        panel.setLastError ("Device certs: " ++ r.error)
      else panel
    deviceCertStore := Details.deviceCertStore r }

end QuMesh.Details
