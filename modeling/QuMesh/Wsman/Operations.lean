import QuMesh.Lib.Hash

/-!
# The invocations of `operations.cpp`

What the operations that call a method of the device put into its envelope: the
resource, the method, the selectors and the parameters. Two builders write it.
`buildInvokeEnvelope` takes the parameters as a hash table and writes them as
the table brings them, `buildInvokeEnvelopeOrdered` writes a list as it stands.
The few envelopes that are written by hand, because a parameter of theirs is a
reference, have no table of parameters and are not here.
-/

namespace QuMesh.Wsman

open QuMesh.Lib

/-- A `QHash<QString, QString>`. -/
abbrev TextTable := Table String String

/-- And how this run of the program goes through them. -/
abbrev HashOrder := Order String String

inductive Parameters
  | unordered (table : TextTable)
  | ordered (list : List (String × String))

/-- The parameter elements, name and text, as they are written. -/
def Parameters.elements (order : HashOrder) :
    Parameters → List (String × String)
  | unordered table => order.iterate table
  | ordered list => list

structure Invoke where
  resourceUri : String
  methodName : String
  selectors : TextTable := .empty
  parameters : Parameters

def buildInvokeEnvelope (resourceUri methodName : String)
    (selectors parameters : TextTable) : Invoke :=
  { resourceUri, methodName, selectors, parameters := .unordered parameters }

def buildInvokeEnvelopeOrdered (resourceUri methodName : String)
    (selectors : TextTable) (parameters : List (String × String)) : Invoke :=
  { resourceUri, methodName, selectors, parameters := .ordered parameters }

/-! ## Resources -/

def cimSchema : String := "http://schemas.dmtf.org/wbem/wscim/1/cim-schema/2/"

def amtSchema : String := "http://intel.com/wbem/wscim/1/amt-schema/1/"

def ipsSchema : String := "http://intel.com/wbem/wscim/1/ips-schema/1/"

def kSystemPowerSchemeResource := amtSchema ++ "AMT_SystemPowerScheme"

def kTimeSyncResource := amtSchema ++ "AMT_TimeSynchronizationService"

def kIpsPowerServiceResource := ipsSchema ++ "IPS_PowerManagementService"

def kPowerServiceResource := cimSchema ++ "CIM_PowerManagementService"

def kMessageLogResource := amtSchema ++ "AMT_MessageLog"

def kAuthorizationServiceResource := amtSchema ++ "AMT_AuthorizationService"

def kOptInServiceResource := ipsSchema ++ "IPS_OptInService"

def kKvmRedirectionSapResource := cimSchema ++ "CIM_KVMRedirectionSAP"

def kAuditLogResource := amtSchema ++ "AMT_AuditLog"

def kPublicKeyManagementServiceResource :=
  amtSchema ++ "AMT_PublicKeyManagementService"

def kHttpProxyServiceResource := ipsSchema ++ "IPS_HTTPProxyService"

def kWiFiPortConfigServiceResource :=
  amtSchema ++ "AMT_WiFiPortConfigurationService"

def kWiFiPortResource := cimSchema ++ "CIM_WiFiPort"

def kUserInitiatedConnectionResource :=
  amtSchema ++ "AMT_UserInitiatedConnectionService"

def kRemoteAccessServiceResource := amtSchema ++ "AMT_RemoteAccessService"

/-! ## Parts -/

/-- `QString::number` of an `int`. -/
def number32 (n : Int) : String := toString n

/-- The four selectors of a service of which there is one. -/
def serviceSelectors (name creationClassName : String) : TextTable :=
  ((((Table.empty.insert "Name" name).insert "SystemCreationClassName"
    "CIM_ComputerSystem").insert "SystemName" "Intel(r) AMT").insert
      "CreationClassName" creationClassName)

def optInServiceSelectors : TextTable :=
  serviceSelectors "Intel(r) AMT OptIn Service" "IPS_OptInService"

def wifiPortSelectors : TextTable :=
  serviceSelectors "WiFi Port 0" "CIM_WiFiPort"

def single (name value : String) : TextTable := Table.empty.insert name value

def realmsAsRepeatedParams (realms : List Int) : List (String × String) :=
  realms.map fun r => ("Realms", number32 r)

structure UserAclEntryPatch where
  digestUsername : Option String := none
  digestPassword : Option String := none
  accessPermission : Option Int := none
  realms : Option (List Int) := none

structure MpServerInput where
  accessInfo : String := ""
  infoFormat : Int := 201
  port : Int := 4433
  authMethod : Int := 2
  username : String := ""
  password : String := ""
  commonName : String := ""
  mpsType : Int := 0

/-! ## Invocations -/

namespace Invoke

def setPowerScheme (instanceId : String) : Invoke :=
  buildInvokeEnvelope kSystemPowerSchemeResource "SetPowerScheme"
    (single "InstanceID" instanceId) .empty

def getTimeSettings : Invoke :=
  buildInvokeEnvelope kTimeSyncResource "GetLowAccuracyTimeSynch" .empty .empty

def setHighAccuracyTimeSync (ta0 tm1 tm2 : Int) : Invoke :=
  buildInvokeEnvelopeOrdered kTimeSyncResource "SetHighAccuracyTimeSynch" .empty
    [("Ta0", toString ta0), ("Tm1", toString tm1), ("Tm2", toString tm2)]

def requestOsPowerStateChange (osPowerState : Int) : Invoke :=
  buildInvokeEnvelope kIpsPowerServiceResource "RequestOSPowerSavingStateChange"
    (serviceSelectors "Intel(r) AMT Power Management Service"
      "IPS_PowerManagementService")
    (single "OSPowerSavingState" (number32 osPowerState))

def requestPowerStateChange (powerState : Int) : Invoke :=
  buildInvokeEnvelope kPowerServiceResource "RequestPowerStateChange"
    (serviceSelectors "Intel(r) AMT Power Management Service"
      "CIM_PowerManagementService")
    (single "PowerState" (number32 powerState))

/-- `getRecordsStep` of the event log; a batch is 390 records. -/
def getRecords (iterId : String) : Invoke :=
  buildInvokeEnvelopeOrdered kMessageLogResource "GetRecords" .empty
    [("IterationIdentifier", iterId), ("MaxReadRecords", number32 390)]

def positionToFirstRecord : Invoke :=
  buildInvokeEnvelope kMessageLogResource "PositionToFirstRecord" .empty .empty

def getAdminAclEntry : Invoke :=
  buildInvokeEnvelope kAuthorizationServiceResource "GetAdminAclEntry" .empty
    .empty

def enumerateUserAclEntries (startIndex : Int) : Invoke :=
  buildInvokeEnvelope kAuthorizationServiceResource "EnumerateUserAclEntries"
    .empty (single "StartIndex" (number32 startIndex))

def getUserAclEntryEx (handle : Int) : Invoke :=
  buildInvokeEnvelope kAuthorizationServiceResource "GetUserAclEntryEx" .empty
    (single "Handle" (number32 handle))

def getAclEnabledState (handle : Int) : Invoke :=
  buildInvokeEnvelope kAuthorizationServiceResource "GetAclEnabledState" .empty
    (single "Handle" (number32 handle))

def addUserAclEntryEx (digestUsername digestPassword : String)
    (accessPermission : Int) (realms : List Int) : Invoke :=
  buildInvokeEnvelopeOrdered kAuthorizationServiceResource "AddUserAclEntryEx"
    .empty
    ([("DigestUsername", digestUsername), ("DigestPassword", digestPassword),
      ("AccessPermission", number32 accessPermission)] ++
        realmsAsRepeatedParams realms)

def updateUserAclEntryEx (handle : Int) (patch : UserAclEntryPatch) : Invoke :=
  buildInvokeEnvelopeOrdered kAuthorizationServiceResource
    "UpdateUserAclEntryEx" .empty
    ([("Handle", number32 handle)] ++
      (patch.digestUsername.map fun v => ("DigestUsername", v)).toList ++
      (patch.digestPassword.map fun v => ("DigestPassword", v)).toList ++
      (patch.accessPermission.map fun v =>
        ("AccessPermission", number32 v)).toList ++
      (patch.realms.map realmsAsRepeatedParams).getD [])

def removeUserAclEntry (handle : Int) : Invoke :=
  buildInvokeEnvelope kAuthorizationServiceResource "RemoveUserAclEntry" .empty
    (single "Handle" (number32 handle))

def setAclEnabledState (handle : Int) (enabled : Bool) : Invoke :=
  buildInvokeEnvelope kAuthorizationServiceResource "SetAclEnabledState" .empty
    ((single "Handle" (number32 handle)).insert "Enabled"
      (if enabled then "true" else "false"))

def setAdminAclEntryEx (username digestPassword : String) : Invoke :=
  buildInvokeEnvelopeOrdered kAuthorizationServiceResource "SetAdminAclEntryEx"
    .empty [("Username", username), ("DigestPassword", digestPassword)]

def startOptIn : Invoke :=
  buildInvokeEnvelope kOptInServiceResource "StartOptIn" optInServiceSelectors
    .empty

def sendOptInCode (code : UInt32) : Invoke :=
  buildInvokeEnvelope kOptInServiceResource "SendOptInCode"
    optInServiceSelectors (single "OptInCode" (toString code.toNat))

def cancelOptIn : Invoke :=
  buildInvokeEnvelope kOptInServiceResource "CancelOptIn" optInServiceSelectors
    .empty

def setKvmRedirectionEnabled (enabled : Bool) : Invoke :=
  buildInvokeEnvelope kKvmRedirectionSapResource "RequestStateChange"
    (serviceSelectors "Intel(r) KVM Redirection SAP" "CIM_KVMRedirectionSAP")
    (single "RequestedState" (number32 (if enabled then 2 else 3)))

/-- `pullStep` of the audit log. -/
def readRecords (startIndex : Int) : Invoke :=
  buildInvokeEnvelope kAuditLogResource "ReadRecords" .empty
    (single "StartIndex" (number32 startIndex))

def addTrustedRootCertificate (certB64 : String) : Invoke :=
  buildInvokeEnvelope kPublicKeyManagementServiceResource
    "AddTrustedRootCertificate" .empty (single "CertificateBlob" certB64)

def addCertificate (certB64 : String) : Invoke :=
  buildInvokeEnvelope kPublicKeyManagementServiceResource "AddCertificate"
    .empty (single "CertificateBlob" certB64)

def generateKeyPair (keyAlgorithm keyLength : Int) : Invoke :=
  buildInvokeEnvelope kPublicKeyManagementServiceResource "GenerateKeyPair"
    .empty
    ((single "KeyAlgorithm" (number32 keyAlgorithm)).insert "KeyLength"
      (number32 keyLength))

def addHttpProxy (accessInfo : String) (infoFormat port : Int)
    (networkDnsSuffix : String) : Invoke :=
  buildInvokeEnvelope kHttpProxyServiceResource "AddProxyAccessPoint" .empty
    ((((single "AccessInfo" accessInfo).insert "InfoFormat"
      (number32 infoFormat)).insert "Port" (number32 port)).insert
        "NetworkDnsSuffix" networkDnsSuffix)

def deleteAllITWiFiProfiles : Invoke :=
  buildInvokeEnvelope kWiFiPortConfigServiceResource "DeleteAllITProfiles"
    .empty .empty

def deleteAllUserWiFiProfiles : Invoke :=
  buildInvokeEnvelope kWiFiPortConfigServiceResource "DeleteAllUserProfiles"
    .empty .empty

def setWiFiPortState (enabled : Bool) : Invoke :=
  buildInvokeEnvelope kWiFiPortResource "RequestStateChange" wifiPortSelectors
    (single "RequestedState" (number32 (if enabled then 32768 else 3)))

def setUserInitiatedConnectionState (requestedState : Int) : Invoke :=
  buildInvokeEnvelope kUserInitiatedConnectionResource "RequestStateChange"
    (serviceSelectors "Intel(r) AMT User Initiated Connection Service"
      "AMT_UserInitiatedConnectionService")
    (single "RequestedState" (number32 requestedState))

/-- The table that `addMpServer` fills. -/
def mpServerParams (input : MpServerInput) : TextTable :=
  let params := (((single "AccessInfo" input.accessInfo).insert "InfoFormat"
    (number32 input.infoFormat)).insert "Port" (number32 input.port)).insert
      "AuthMethod" (number32 input.authMethod)
  let params :=
    if input.authMethod ≠ 1 then
      (params.insert "Username" input.username).insert "Password" input.password
    else params
  (params.insert "CommonName" input.commonName).insert "MpsType"
    (number32 input.mpsType)

def addMpServer (input : MpServerInput) : Invoke :=
  buildInvokeEnvelope kRemoteAccessServiceResource "AddMpServer" .empty
    (mpServerParams input)

def clearAuditLog : Invoke :=
  buildInvokeEnvelope kAuditLogResource "ClearLog" .empty .empty

def clearEventLog : Invoke :=
  buildInvokeEnvelope kMessageLogResource "ClearLog" .empty .empty

end Invoke

/-- An operation that calls one of the builders, with its arguments. -/
inductive Operation
  | setPowerScheme (instanceId : String)
  | getTimeSettings
  | setHighAccuracyTimeSync (ta0 tm1 tm2 : Int)
  | requestOsPowerStateChange (osPowerState : Int)
  | requestPowerStateChange (powerState : Int)
  | getRecords (iterId : String)
  | positionToFirstRecord
  | getAdminAclEntry
  | enumerateUserAclEntries (startIndex : Int)
  | getUserAclEntryEx (handle : Int)
  | getAclEnabledState (handle : Int)
  | addUserAclEntryEx (digestUsername digestPassword : String)
      (accessPermission : Int) (realms : List Int)
  | updateUserAclEntryEx (handle : Int) (patch : UserAclEntryPatch)
  | removeUserAclEntry (handle : Int)
  | setAclEnabledState (handle : Int) (enabled : Bool)
  | setAdminAclEntryEx (username digestPassword : String)
  | startOptIn
  | sendOptInCode (code : UInt32)
  | cancelOptIn
  | setKvmRedirectionEnabled (enabled : Bool)
  | readRecords (startIndex : Int)
  | addTrustedRootCertificate (certB64 : String)
  | addCertificate (certB64 : String)
  | generateKeyPair (keyAlgorithm keyLength : Int)
  | addHttpProxy (accessInfo : String) (infoFormat port : Int)
      (networkDnsSuffix : String)
  | deleteAllITWiFiProfiles
  | deleteAllUserWiFiProfiles
  | setWiFiPortState (enabled : Bool)
  | setUserInitiatedConnectionState (requestedState : Int)
  | addMpServer (input : MpServerInput)
  | clearAuditLog
  | clearEventLog

def Operation.invoke : Operation → Invoke
  | setPowerScheme instanceId => .setPowerScheme instanceId
  | getTimeSettings => .getTimeSettings
  | setHighAccuracyTimeSync ta0 tm1 tm2 => .setHighAccuracyTimeSync ta0 tm1 tm2
  | requestOsPowerStateChange state => .requestOsPowerStateChange state
  | requestPowerStateChange state => .requestPowerStateChange state
  | getRecords iterId => .getRecords iterId
  | positionToFirstRecord => .positionToFirstRecord
  | getAdminAclEntry => .getAdminAclEntry
  | enumerateUserAclEntries startIndex => .enumerateUserAclEntries startIndex
  | getUserAclEntryEx handle => .getUserAclEntryEx handle
  | getAclEnabledState handle => .getAclEnabledState handle
  | addUserAclEntryEx name password permission realms =>
      .addUserAclEntryEx name password permission realms
  | updateUserAclEntryEx handle patch => .updateUserAclEntryEx handle patch
  | removeUserAclEntry handle => .removeUserAclEntry handle
  | setAclEnabledState handle enabled => .setAclEnabledState handle enabled
  | setAdminAclEntryEx name password => .setAdminAclEntryEx name password
  | startOptIn => .startOptIn
  | sendOptInCode code => .sendOptInCode code
  | cancelOptIn => .cancelOptIn
  | setKvmRedirectionEnabled enabled => .setKvmRedirectionEnabled enabled
  | readRecords startIndex => .readRecords startIndex
  | addTrustedRootCertificate certB64 => .addTrustedRootCertificate certB64
  | addCertificate certB64 => .addCertificate certB64
  | generateKeyPair algorithm length => .generateKeyPair algorithm length
  | addHttpProxy accessInfo infoFormat port suffix =>
      .addHttpProxy accessInfo infoFormat port suffix
  | deleteAllITWiFiProfiles => .deleteAllITWiFiProfiles
  | deleteAllUserWiFiProfiles => .deleteAllUserWiFiProfiles
  | setWiFiPortState enabled => .setWiFiPortState enabled
  | setUserInitiatedConnectionState state =>
      .setUserInitiatedConnectionState state
  | addMpServer input => .addMpServer input
  | clearAuditLog => .clearAuditLog
  | clearEventLog => .clearEventLog

end QuMesh.Wsman
