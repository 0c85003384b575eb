import QuMesh.App.DetailsRefresh
import QuMesh.Lib.Flows

/-!
# What `MachineDetailsController` counts

`m_inflight` goes up when a method starts a flow of WSMAN operations and down
when a callback ends it. Here stands, for every method that does either or
calls one that does, where it goes up and down, which operation's callback goes
on with the flow, and where the ways part; `Test` names what the method looks
at there. Tests in a row that all give up are one. What the methods do besides
is left out, and so is what a test looks at: which way it goes is left to the
run. A signal whose handler calls a method is that call.
-/

namespace QuMesh.Details

open QuMesh.Lib

namespace Flow

inductive Test
  /-- `deferIfSshConnecting` -/
  | sshConnecting
  | hostEmpty
  /-- What the method was given, or what it is to go with, will not do. -/
  | arguments
  | optInStatusInFlight
  | optInRoundActive
  | maxOptInFailures
  | awaitingTrust
  | pendingTrustResume (r : Refresh)
  | pendingRefresh (kind : PendingRefresh)
  /-- The row that is to be replaced has no key. -/
  | oldKeyEmpty
  | asTrustedRoot
  /-- `!r.ok` -/
  | notOk
  /-- `!r.ok && !r.error.isEmpty()` -/
  | failed
  | keyEmpty
  | csrEmpty
  /-- What the reply was asked for is not among what it lists. -/
  | notFound
  deriving DecidableEq, Repr

abbrev Body := Code Test

def incInflight (next : Body) : Body := .up next

def decInflight (next : Body) : Body := .down next

/-- An operation is the last thing a body does. -/
def operation (callback : Body) : Body := .request callback .done

/-- `if (t) return;` -/
def returnIf (t : Test) (next : Body) : Body := .test t .done next

/-- `if (t) { decInflight(); return; }` -/
def endIf (t : Test) (next : Body) : Body := .test t (decInflight .done) next

/-! ## The refreshes -/

/-- One operation, whose callback ends the flow. -/
def read (next : Body) : Body :=
  incInflight (.request (decInflight .done) next)

/-- How every refresh begins. -/
def deferred (next : Body) : Body :=
  returnIf .sshConnecting (returnIf .hostEmpty next)

def refreshSection : Body := deferred (read .done)

def refreshNetwork : Body := refreshSection
def refreshTime : Body := refreshSection
def refreshEventLog : Body := refreshSection
def refreshHardware : Body := refreshSection
def refreshWireless : Body := refreshSection
def refreshAgentPresence : Body := refreshSection
def refreshEventSubscriptions : Body := refreshSection
def refreshWakeAlarms : Body := refreshSection
def refreshSystemDefense : Body := refreshSection
def refreshRemoteAccess : Body := refreshSection
def refreshDeviceCerts : Body := refreshSection
def refreshActiveSessions : Body := refreshSection
def refreshUserAccounts : Body := refreshSection

/-- The state of the log and the log, each as a flow of its own. -/
def refreshAuditLog : Body := deferred (read (read .done))

def refreshOptInStatus : Body :=
  deferred (returnIf .optInStatusInFlight (read .done))

/-- Eight operations, from `identify` to `getBootCapabilities`. -/
def refreshOverview : Body :=
  deferred (Nat.repeat read 8 (.call refreshOptInStatus .done))

def refreshPowerSchemes : Body := deferred (read .done)

def refreshPower : Body := deferred (read (.call refreshPowerSchemes .done))

def refreshOf : PendingRefresh → Body
  | .overview => refreshOverview
  | .network => refreshNetwork
  | .time => refreshTime
  | .power => refreshPower
  | .eventLog => refreshEventLog
  | .userAccounts => refreshUserAccounts
  | .hardware => refreshHardware
  | .auditLog => refreshAuditLog
  | .deviceCerts => refreshDeviceCerts
  | .remoteAccess => refreshRemoteAccess
  | .wireless => refreshWireless
  | .agentPresence => refreshAgentPresence
  | .eventSubscriptions => refreshEventSubscriptions
  | .wakeAlarms => refreshWakeAlarms
  | .systemDefense => refreshSystemDefense
  | .activeSessions => refreshActiveSessions

def refresh : Refresh → Body
  | .whole kind => refreshOf kind
  | .optInStatus => refreshOptInStatus
  | .powerSchemes => refreshPowerSchemes

/-- The test of a bit goes along with the call it decides on. -/
def runPendingRefreshes : Body :=
  Machine.replayOrder.foldr (fun kind rest =>
    .call (.test (.pendingRefresh kind) (refreshOf kind) .done) rest) .done

/-- Every refresh leaves itself to be resumed. -/
def trustPendingCert : Body :=
  .test .awaitingTrust
    ((Machine.replayOrder.map Refresh.whole ++
        [Refresh.optInStatus, .powerSchemes]).foldr (fun r rest =>
      .test (.pendingTrustResume r) (.call (refresh r) .done) rest)
      (.call refreshOverview .done))
    .done

/-! ## The commands -/

/-- One operation, whose callback ends the flow and goes on to a refresh in any
case. -/
def anyhow (refresh : Body) : Body :=
  incInflight (operation (decInflight (.call refresh .done)))

/-- The same, if the operation went well. -/
def command (refresh : Body) : Body :=
  incInflight (operation
    (decInflight (returnIf .notOk (.call refresh .done))))

/-- A command that looks at its arguments first and then at the host. -/
def checked (refresh : Body) : Body :=
  returnIf .arguments (returnIf .hostEmpty (command refresh))

/-- A command with nothing to look at but the host. -/
def bare (refresh : Body) : Body := returnIf .hostEmpty (command refresh)

/-! ### Consent and the KVM -/

def setKvmOptInPolicyEnabled : Body := command refreshOptInStatus
def setKvmSettings : Body := anyhow refreshOptInStatus
def setKvmServiceEnabled : Body := anyhow refreshOverview

def startOptIn : Body :=
  returnIf .optInRoundActive (returnIf .maxOptInFailures (read .done))

def sendOptInCode : Body := read .done
def cancelOptIn : Body := read .done

/-! ### The clock -/

/-- Read, set, read again. -/
def syncDeviceTime : Body :=
  deferred (incInflight (operation
    (endIf .notOk (operation
      (endIf .failed (operation (decInflight .done)))))))

/-! ### Wireless -/

def addWiFiPskProfile : Body := checked refreshWireless
def updateWiFiPskProfile : Body := checked refreshWireless
def deleteWiFiProfile : Body := checked refreshWireless
def deleteAllITWiFiProfiles : Body := bare refreshWireless
def deleteAllUserWiFiProfiles : Body := bare refreshWireless
def setWifiPortEnabled : Body := bare refreshWireless
def setWifiSyncSettings : Body := bare refreshWireless
def setWiredEnterpriseProfile : Body := checked refreshWireless

/-! ### Watchdogs, subscriptions and alarms -/

/-- The old row is deleted and the new one added; without an old one the
command is the one that adds. -/
def replaceRow (add refresh : Body) : Body :=
  .test .oldKeyEmpty (.call add .done)
    (returnIf .arguments (returnIf .hostEmpty (incInflight (operation
      (endIf .notOk (operation
        (decInflight
          (.test .notOk (.call refresh .done) (.call refresh .done)))))))))

def addAgentPresenceWatchdog : Body := checked refreshAgentPresence
def deleteAgentPresenceWatchdog : Body := checked refreshAgentPresence
def replaceAgentPresenceWatchdog : Body :=
  replaceRow addAgentPresenceWatchdog refreshAgentPresence
def addWatchdogAction : Body := checked refreshAgentPresence
def deleteWatchdogAction : Body := checked refreshAgentPresence

def subscribeToEventFilter : Body := checked refreshEventSubscriptions
def unsubscribeFromEventFilter : Body := checked refreshEventSubscriptions

def addWakeAlarm : Body := checked refreshWakeAlarms
def deleteWakeAlarm : Body := checked refreshWakeAlarms
def replaceWakeAlarm : Body := replaceRow addWakeAlarm refreshWakeAlarms

/-! ### Browsing and system defense -/

def wsmanBrowse : Body := returnIf .hostEmpty (returnIf .arguments (read .done))

def refreshSystemDefenseStats : Body := returnIf .hostEmpty (read .done)
def deleteSystemDefensePolicy : Body := checked refreshSystemDefense
def deleteSystemDefenseHdrFilter : Body := checked refreshSystemDefense
def deleteSystemDefenseIpFilter : Body := checked refreshSystemDefense
def bindSystemDefensePolicy : Body := checked refreshSystemDefense
def unbindSystemDefensePolicy : Body := checked refreshSystemDefense
def addSystemDefensePolicyAction : Body := checked refreshSystemDefense
def addSystemDefenseIpFilter : Body := checked refreshSystemDefense
def addSystemDefenseHdrFilter : Body := checked refreshSystemDefense

/-! ### Certificates and keys -/

/-- Two operations take the one callback. -/
def addCertificateFromPem : Body :=
  let cb := decInflight (returnIf .notOk (.call refreshDeviceCerts .done))
  returnIf .arguments (returnIf .hostEmpty (incInflight
    (.test .asTrustedRoot (operation cb) (operation cb))))

def deleteDeviceCertificate : Body := checked refreshDeviceCerts
def deleteDeviceKeyPair : Body := checked refreshDeviceCerts
def setTlsSettingsForInstance : Body := checked refreshDeviceCerts

/-- `generateKeyPair`, `getPublicPrivateKeyPair`, `generatePkcs10Request` -/
def generateKeyPairAndCsr : Body :=
  returnIf .arguments (returnIf .hostEmpty (incInflight (operation
    (endIf .notOk (operation
      (endIf .keyEmpty (endIf .csrEmpty (operation
        (decInflight .done)))))))))

/-- `addCertificate`, `getDeviceCertStore`, `bindCertToTlsEndpoint` -/
def installSignedCertAndBindTls : Body :=
  returnIf .arguments (returnIf .hostEmpty (incInflight (operation
    (endIf .notOk (operation
      (endIf .notOk (endIf .notFound (operation
        (decInflight
          (returnIf .notOk (.call refreshDeviceCerts .done)))))))))))

/-! ### Remote access -/

def addHttpProxy : Body := checked refreshRemoteAccess
def deleteHttpProxy : Body := checked refreshRemoteAccess
def setEnvironmentDetection : Body := bare refreshRemoteAccess
def setUserInitiatedConnectionState : Body := checked refreshRemoteAccess
def addMpServer : Body := checked refreshRemoteAccess
def updateMpServer : Body := checked refreshRemoteAccess
def removeMpServer : Body := checked refreshRemoteAccess

/-- The host is looked at first. -/
def addCiraPolicyRule : Body :=
  returnIf .hostEmpty (returnIf .arguments (command refreshRemoteAccess))

def removeCiraPolicyRule : Body := checked refreshRemoteAccess

/-! ### User accounts -/

def addUserAccount : Body := checked refreshUserAccounts

/-- The handle is looked at before the host and the patch behind it. -/
def updateUserAccount : Body :=
  returnIf .arguments (returnIf .hostEmpty
    (returnIf .arguments (command refreshUserAccounts)))

def removeUserAccount : Body := checked refreshUserAccounts
def setAccountEnabled : Body := checked refreshUserAccounts
def setAdminPassword : Body := checked refreshUserAccounts

/-! ### Power and booting -/

def setPowerScheme : Body :=
  deferred (returnIf .arguments (anyhow refreshPowerSchemes))

def bootToBios : Body := bare refreshPower
def bootToPxe : Body := bare refreshPower
def bootToIderCdrom : Body := bare refreshPower
def bootToIderFloppy : Body := bare refreshPower
def osWakeFromSleep : Body := bare refreshPower
def osPutToSleep : Body := bare refreshPower
def bootToSecureErase : Body := bare refreshPower
def changePowerState : Body := bare refreshPower

/-- A boot that looks at the host first and then at its arguments. -/
def bootChecked : Body :=
  returnIf .hostEmpty (returnIf .arguments (command refreshPower))

def bootToPlatformErase : Body := bootChecked
def bootToHttpsBootUrl : Body := bootChecked
def bootToOcrHttpsUrl : Body := bootChecked

/-- The boot sources are listed and one of them is booted. -/
def bootToSource : Body :=
  incInflight (operation
    (endIf .notOk (endIf .notFound (operation
      (decInflight (returnIf .notOk (.call refreshPower .done)))))))

def bootToWinRE : Body := returnIf .hostEmpty bootToSource
def bootToLocalPBA : Body :=
  returnIf .hostEmpty (returnIf .arguments bootToSource)

end Flow

/-! ## The methods -/

inductive Method
  | refresh (r : Refresh)
  | runPendingRefreshes
  | trustPendingCert
  | setKvmOptInPolicyEnabled
  | setKvmSettings
  | setKvmServiceEnabled
  | startOptIn
  | sendOptInCode
  | cancelOptIn
  | syncDeviceTime
  | addWiFiPskProfile
  | updateWiFiPskProfile
  | deleteWiFiProfile
  | deleteAllITWiFiProfiles
  | deleteAllUserWiFiProfiles
  | setWifiPortEnabled
  | setWifiSyncSettings
  | setWiredEnterpriseProfile
  | addAgentPresenceWatchdog
  | deleteAgentPresenceWatchdog
  | replaceAgentPresenceWatchdog
  | addWatchdogAction
  | deleteWatchdogAction
  | subscribeToEventFilter
  | unsubscribeFromEventFilter
  | addWakeAlarm
  | deleteWakeAlarm
  | replaceWakeAlarm
  | wsmanBrowse
  | refreshSystemDefenseStats
  | deleteSystemDefensePolicy
  | deleteSystemDefenseHdrFilter
  | deleteSystemDefenseIpFilter
  | bindSystemDefensePolicy
  | unbindSystemDefensePolicy
  | addSystemDefensePolicyAction
  | addSystemDefenseIpFilter
  | addSystemDefenseHdrFilter
  | addCertificateFromPem
  | deleteDeviceCertificate
  | deleteDeviceKeyPair
  | setTlsSettingsForInstance
  | generateKeyPairAndCsr
  | installSignedCertAndBindTls
  | addHttpProxy
  | deleteHttpProxy
  | setEnvironmentDetection
  | setUserInitiatedConnectionState
  | addMpServer
  | updateMpServer
  | removeMpServer
  | addCiraPolicyRule
  | removeCiraPolicyRule
  | addUserAccount
  | updateUserAccount
  | removeUserAccount
  | setAccountEnabled
  | setAdminPassword
  | setPowerScheme
  | bootToBios
  | bootToPxe
  | bootToIderCdrom
  | bootToIderFloppy
  | osWakeFromSleep
  | osPutToSleep
  | bootToSecureErase
  | bootToPlatformErase
  | bootToHttpsBootUrl
  | changePowerState
  | bootToWinRE
  | bootToLocalPBA
  | bootToOcrHttpsUrl
  deriving DecidableEq, Repr

def Method.body : Method → Flow.Body
  | refresh r => Flow.refresh r
  | runPendingRefreshes => Flow.runPendingRefreshes
  | trustPendingCert => Flow.trustPendingCert
  | setKvmOptInPolicyEnabled => Flow.setKvmOptInPolicyEnabled
  | setKvmSettings => Flow.setKvmSettings
  | setKvmServiceEnabled => Flow.setKvmServiceEnabled
  | startOptIn => Flow.startOptIn
  | sendOptInCode => Flow.sendOptInCode
  | cancelOptIn => Flow.cancelOptIn
  | syncDeviceTime => Flow.syncDeviceTime
  | addWiFiPskProfile => Flow.addWiFiPskProfile
  | updateWiFiPskProfile => Flow.updateWiFiPskProfile
  | deleteWiFiProfile => Flow.deleteWiFiProfile
  | deleteAllITWiFiProfiles => Flow.deleteAllITWiFiProfiles
  | deleteAllUserWiFiProfiles => Flow.deleteAllUserWiFiProfiles
  | setWifiPortEnabled => Flow.setWifiPortEnabled
  | setWifiSyncSettings => Flow.setWifiSyncSettings
  | setWiredEnterpriseProfile => Flow.setWiredEnterpriseProfile
  | addAgentPresenceWatchdog => Flow.addAgentPresenceWatchdog
  | deleteAgentPresenceWatchdog => Flow.deleteAgentPresenceWatchdog
  | replaceAgentPresenceWatchdog => Flow.replaceAgentPresenceWatchdog
  | addWatchdogAction => Flow.addWatchdogAction
  | deleteWatchdogAction => Flow.deleteWatchdogAction
  | subscribeToEventFilter => Flow.subscribeToEventFilter
  | unsubscribeFromEventFilter => Flow.unsubscribeFromEventFilter
  | addWakeAlarm => Flow.addWakeAlarm
  | deleteWakeAlarm => Flow.deleteWakeAlarm
  | replaceWakeAlarm => Flow.replaceWakeAlarm
  | wsmanBrowse => Flow.wsmanBrowse
  | refreshSystemDefenseStats => Flow.refreshSystemDefenseStats
  | deleteSystemDefensePolicy => Flow.deleteSystemDefensePolicy
  | deleteSystemDefenseHdrFilter => Flow.deleteSystemDefenseHdrFilter
  | deleteSystemDefenseIpFilter => Flow.deleteSystemDefenseIpFilter
  | bindSystemDefensePolicy => Flow.bindSystemDefensePolicy
  | unbindSystemDefensePolicy => Flow.unbindSystemDefensePolicy
  | addSystemDefensePolicyAction => Flow.addSystemDefensePolicyAction
  | addSystemDefenseIpFilter => Flow.addSystemDefenseIpFilter
  | addSystemDefenseHdrFilter => Flow.addSystemDefenseHdrFilter
  | addCertificateFromPem => Flow.addCertificateFromPem
  | deleteDeviceCertificate => Flow.deleteDeviceCertificate
  | deleteDeviceKeyPair => Flow.deleteDeviceKeyPair
  | setTlsSettingsForInstance => Flow.setTlsSettingsForInstance
  | generateKeyPairAndCsr => Flow.generateKeyPairAndCsr
  | installSignedCertAndBindTls => Flow.installSignedCertAndBindTls
  | addHttpProxy => Flow.addHttpProxy
  | deleteHttpProxy => Flow.deleteHttpProxy
  | setEnvironmentDetection => Flow.setEnvironmentDetection
  | setUserInitiatedConnectionState => Flow.setUserInitiatedConnectionState
  | addMpServer => Flow.addMpServer
  | updateMpServer => Flow.updateMpServer
  | removeMpServer => Flow.removeMpServer
  | addCiraPolicyRule => Flow.addCiraPolicyRule
  | removeCiraPolicyRule => Flow.removeCiraPolicyRule
  | addUserAccount => Flow.addUserAccount
  | updateUserAccount => Flow.updateUserAccount
  | removeUserAccount => Flow.removeUserAccount
  | setAccountEnabled => Flow.setAccountEnabled
  | setAdminPassword => Flow.setAdminPassword
  | setPowerScheme => Flow.setPowerScheme
  | bootToBios => Flow.bootToBios
  | bootToPxe => Flow.bootToPxe
  | bootToIderCdrom => Flow.bootToIderCdrom
  | bootToIderFloppy => Flow.bootToIderFloppy
  | osWakeFromSleep => Flow.osWakeFromSleep
  | osPutToSleep => Flow.osPutToSleep
  | bootToSecureErase => Flow.bootToSecureErase
  | bootToPlatformErase => Flow.bootToPlatformErase
  | bootToHttpsBootUrl => Flow.bootToHttpsBootUrl
  | changePowerState => Flow.changePowerState
  | bootToWinRE => Flow.bootToWinRE
  | bootToLocalPBA => Flow.bootToLocalPBA
  | bootToOcrHttpsUrl => Flow.bootToOcrHttpsUrl

/-- What the controller counts, and what it waits for. -/
abbrev Inflight := Flows Flow.Test

namespace Inflight

def step : Inflight → Flows.Turn Method → Inflight := Flows.step Method.body

def busy (s : Inflight) : Bool := 0 < s.counter

end Inflight

end QuMesh.Details
