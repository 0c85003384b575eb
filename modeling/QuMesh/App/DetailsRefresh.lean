import QuMesh.Lib.Run

/-!
# The refreshes of `MachineDetailsController`

A refresh reads one section of the device's settings. While the SSH tunnel
comes up it is put off, as a bit for its section, and so are the two commands
that share the bits of a section; when a certificate is not trusted yet its
requests are refused, and the refresh that was called last is the one that is
resumed. Both mechanisms are here, with the requests that are on their way; what
a section reads is not.

Requests are numbered in the order they are sent. `beforeTrust`, `trusted` and
`deferred` are not in the code: whether the certificate was pinned when a
request was sent, whether it is now, and which calls were put off.
-/

namespace QuMesh.Details

open QuMesh.Lib

/-- `PendingRefresh` -/
inductive PendingRefresh
  | overview
  | network
  | time
  | power
  | eventLog
  | userAccounts
  | hardware
  | auditLog
  | deviceCerts
  | remoteAccess
  | wireless
  | agentPresence
  | eventSubscriptions
  | wakeAlarms
  | systemDefense
  | activeSessions
  deriving DecidableEq, Repr

/-- The refreshes: one for each section, and two that share the bit of one. -/
inductive Refresh
  | whole (kind : PendingRefresh)
  | optInStatus
  | powerSchemes
  deriving DecidableEq, Repr

/-- What can be put off. -/
inductive Operation
  | refresh (r : Refresh)
  | syncDeviceTime
  | setPowerScheme (instanceId : String)
  deriving DecidableEq, Repr

/-- The WSMAN operations. -/
inductive Call
  | identify
  | getPowerState
  | getGeneralSettings
  | getMeVersion
  | getSetupAndConfiguration
  | getRedirectionStatus
  | getComputerSystem
  | getBootCapabilities
  | getOptInStatus
  | getEthernetSettings
  | getTimeSettings
  | enumerateEventLog
  | getHardwareInventory
  | getWireless
  | getAgentPresence
  | getEventSubscriptions
  | getWakeAlarms
  | getSystemDefense
  | getRemoteAccess
  | getDeviceCertStore
  | getActiveSessions
  | getAuditLogState
  | enumerateAuditLog
  | enumerateUserAccounts
  | getPowerSchemes
  | syncRead
  | setHighAccuracyTimeSync
  | syncReread
  | setPowerScheme (instanceId : String)
  deriving DecidableEq, Repr

/-- What an error of an operation is introduced with, unless it is soft. -/
def Call.errorLabel : Call → Option String
  | .identify => some "Identify"
  | .getPowerState => some "Power"
  | .getGeneralSettings => some "GeneralSettings"
  | .getRedirectionStatus => some "Redirection"
  | .getComputerSystem => some "ComputerSystem"
  | .getBootCapabilities => some "BootCapabilities"
  | .getEthernetSettings => some "Ethernet"
  | .getTimeSettings => some "Time"
  | .enumerateEventLog => some "Event log"
  | .getHardwareInventory => some "Hardware"
  | .getWireless => some "Wireless"
  | .getAgentPresence => some "Agent presence"
  | .getEventSubscriptions => some "Event subscriptions"
  | .getWakeAlarms => some "Wake alarms"
  | .getSystemDefense => some "System Defense"
  | .getRemoteAccess => some "Remote access"
  | .getDeviceCertStore => some "Device certs"
  | .getActiveSessions => some "Active sessions"
  | .enumerateAuditLog => some "Audit log"
  | .enumerateUserAccounts => some "User accounts"
  | .syncRead => some "Time sync (read)"
  | .setHighAccuracyTimeSync => some "Time sync (set)"
  | .setPowerScheme _ => some "Set power scheme"
  | .getMeVersion | .getSetupAndConfiguration | .getOptInStatus
  | .getAuditLogState | .getPowerSchemes | .syncReread => none

structure Request where
  id : Nat
  call : Call
  op : Operation
  beforeTrust : Bool
  deriving DecidableEq, Repr

/-- `SshSession::State`, with the error of one that failed. -/
inductive SessionState
  | connecting
  | authenticating
  | needsHostKeyTrust
  | connected
  | failed (error : String)
  | disconnected
  deriving DecidableEq, Repr

inductive Effect
  /-- An operation got past the tunnel and past its own guards. -/
  | ran (op : Operation) (trusted : Bool)
  | sent (id : Nat) (call : Call)
  /-- `trustPromptRequired`, for a request of this operation. -/
  | refused (op : Operation)
  deriving DecidableEq, Repr

structure Machine where
  host : String := ""
  -- the tunnel
  sshEnabled : Bool := false
  hasSession : Bool := false
  sshConnecting : Bool := false
  sshTunnelStatus : String := ""
  pendingRefreshes : List PendingRefresh := []
  -- the certificate
  awaitingTrust : Bool := false
  pendingTrustResume : Option Refresh := none
  -- the requests
  optInStatusInFlight : Bool := false
  lastError : String := ""
  flight : List Request := []
  nextRequest : Nat := 0
  out : List Effect := []
  trusted : Bool := false
  deferred : List Operation := []

/-- `QString::contains` -/
def contains (s part : String) : Bool :=
  (List.range (s.length + 1)).any fun n =>
    part.toList.isPrefixOf (s.toList.drop n)

namespace Machine

def emit (e : Effect) (s : Machine) : Machine := { s with out := s.out ++ [e] }

def ran (op : Operation) (s : Machine) : Machine := s.emit (.ran op s.trusted)

def send (op : Operation) (call : Call) (s : Machine) : Machine :=
  ({ s with
    flight := s.flight ++
      [({ id := s.nextRequest, call, op, beforeTrust := !s.trusted } : Request)]
    nextRequest := s.nextRequest + 1 }).emit (.sent s.nextRequest call)

def sendAll (op : Operation) (calls : List Call) (s : Machine) : Machine :=
  calls.foldl (fun s call => s.send op call) s

def setLastError (e : String) (s : Machine) : Machine :=
  let filtered := if s.awaitingTrust && contains e "SSL" then "" else e
  { s with lastError := filtered }

/-- `deferIfSshConnecting`: what is put off is the bit, and nothing else. -/
def deferIfSshConnecting (kind : PendingRefresh) (op : Operation)
    (s : Machine) : Option Machine :=
  if s.sshConnecting then
    some { s with
      pendingRefreshes :=
        if kind ∈ s.pendingRefreshes then s.pendingRefreshes
        else kind :: s.pendingRefreshes
      deferred := s.deferred ++ [op] }
  else none

def hostEmpty : String := "Host is empty — cannot refresh."

/-- A refresh of one section; `first` is run before its requests go out. -/
def refreshSection (kind : PendingRefresh) (first : Machine → Machine)
    (calls : List Call) (s : Machine) : Machine :=
  match s.deferIfSshConnecting kind (.refresh (.whole kind)) with
  | some s => s
  | none =>
      if s.host.isEmpty then s.setLastError hostEmpty
      else
        (({ first s with
          pendingTrustResume := some (.whole kind) }).ran
            (.refresh (.whole kind))).sendAll (.refresh (.whole kind)) calls

def refreshNetwork : Machine → Machine :=
  refreshSection .network id [.getEthernetSettings]
def refreshTime : Machine → Machine :=
  refreshSection .time id [.getTimeSettings]
def refreshEventLog : Machine → Machine :=
  refreshSection .eventLog id [.enumerateEventLog]
def refreshHardware : Machine → Machine :=
  refreshSection .hardware id [.getHardwareInventory]
def refreshWireless : Machine → Machine :=
  refreshSection .wireless id [.getWireless]
def refreshAgentPresence : Machine → Machine :=
  refreshSection .agentPresence id [.getAgentPresence]
def refreshEventSubscriptions : Machine → Machine :=
  refreshSection .eventSubscriptions id [.getEventSubscriptions]
def refreshWakeAlarms : Machine → Machine :=
  refreshSection .wakeAlarms id [.getWakeAlarms]
def refreshSystemDefense : Machine → Machine :=
  refreshSection .systemDefense id [.getSystemDefense]
def refreshRemoteAccess : Machine → Machine :=
  refreshSection .remoteAccess id [.getRemoteAccess]
def refreshDeviceCerts : Machine → Machine :=
  refreshSection .deviceCerts id [.getDeviceCertStore]
def refreshActiveSessions : Machine → Machine :=
  refreshSection .activeSessions id [.getActiveSessions]
def refreshAuditLog : Machine → Machine :=
  refreshSection .auditLog id [.getAuditLogState, .enumerateAuditLog]
def refreshUserAccounts : Machine → Machine :=
  refreshSection .userAccounts id [.enumerateUserAccounts]

/-- The status is not read twice at a time. -/
def refreshOptInStatus (s : Machine) : Machine :=
  match s.deferIfSshConnecting .overview (.refresh .optInStatus) with
  | some s => s
  | none =>
      if s.host.isEmpty then s
      else if s.optInStatusInFlight then s
      else
        (({ s with
          optInStatusInFlight := true
          pendingTrustResume := some .optInStatus }).ran
            (.refresh .optInStatus)).send (.refresh .optInStatus) .getOptInStatus

def refreshPowerSchemes (s : Machine) : Machine :=
  match s.deferIfSshConnecting .power (.refresh .powerSchemes) with
  | some s => s
  | none =>
      if s.host.isEmpty then s
      else
        (({ s with
          pendingTrustResume := some .powerSchemes }).ran
            (.refresh .powerSchemes)).send (.refresh .powerSchemes)
              .getPowerSchemes

/-- What a refresh that was not put off goes on to. -/
def andThen (next : Machine → Machine) (s s' : Machine) : Machine :=
  if s.sshConnecting || s.host.isEmpty then s' else next s'

def refreshOverview (s : Machine) : Machine :=
  s.andThen refreshOptInStatus (s.refreshSection .overview (setLastError "")
    [.identify, .getPowerState, .getGeneralSettings, .getMeVersion,
      .getSetupAndConfiguration, .getRedirectionStatus, .getComputerSystem,
      .getBootCapabilities])

def refreshPower (s : Machine) : Machine :=
  s.andThen refreshPowerSchemes (s.refreshSection .power id [.getPowerState])

def refreshOf : PendingRefresh → Machine → Machine
  | .overview => refreshOverview
  | .network => refreshNetwork
  | .time => refreshTime
  | .power => refreshPower
  | .eventLog => refreshEventLog
  | .userAccounts => refreshUserAccounts
  | .hardware => refreshHardware
  | .auditLog => refreshAuditLog
  | .deviceCerts => refreshDeviceCerts
  | .remoteAccess => refreshRemoteAccess
  | .wireless => refreshWireless
  | .agentPresence => refreshAgentPresence
  | .eventSubscriptions => refreshEventSubscriptions
  | .wakeAlarms => refreshWakeAlarms
  | .systemDefense => refreshSystemDefense
  | .activeSessions => refreshActiveSessions

def refresh : Refresh → Machine → Machine
  | .whole kind => refreshOf kind
  | .optInStatus => refreshOptInStatus
  | .powerSchemes => refreshPowerSchemes

/-! ## The two commands -/

def syncDeviceTime (s : Machine) : Machine :=
  match s.deferIfSshConnecting .time .syncDeviceTime with
  | some s => s
  | none =>
      if s.host.isEmpty then s.setLastError "Host is empty — cannot sync."
      else (s.ran .syncDeviceTime).send .syncDeviceTime .syncRead

def setPowerScheme (instanceId : String) (s : Machine) : Machine :=
  match s.deferIfSshConnecting .power (.setPowerScheme instanceId) with
  | some s => s
  | none =>
      if s.host.isEmpty || instanceId.isEmpty then s
      else
        (s.ran (.setPowerScheme instanceId)).send (.setPowerScheme instanceId)
          (.setPowerScheme instanceId)

/-! ## The tunnel -/

/-- The order in which the bits are looked at. -/
def replayOrder : List PendingRefresh :=
  [.overview, .power, .network, .time, .eventLog, .userAccounts, .hardware,
    .auditLog, .activeSessions, .deviceCerts, .remoteAccess, .wireless,
    .agentPresence, .eventSubscriptions, .wakeAlarms, .systemDefense]

def runPendingRefreshes (s : Machine) : Machine :=
  let p := s.pendingRefreshes
  (replayOrder.filter (· ∈ p)).foldl (fun s kind => s.refreshOf kind)
    { s with pendingRefreshes := [], deferred := [] }

def setSshConfig (enabled : Bool) (s : Machine) : Machine :=
  if !enabled then
    { s with sshEnabled := false, hasSession := false, sshTunnelStatus := "" }
  else
    { s with sshEnabled := true, sshConnecting := true, hasSession := true }

/-- The slot on `stateChanged`, which goes away with the session. -/
def onSessionState (st : SessionState) (s : Machine) : Machine :=
  if !s.hasSession then s
  else
    match st with
    | .connecting => { s with sshTunnelStatus := "Connecting…" }
    | .authenticating => { s with sshTunnelStatus := "Authenticating…" }
    | .needsHostKeyTrust =>
        { s with sshTunnelStatus := "Awaiting host-key trust" }
    | .connected =>
        ({ s with
          sshTunnelStatus := "via SSH"
          sshConnecting := false }).runPendingRefreshes
    | .failed error =>
        { s with
          sshTunnelStatus := s!"SSH failed: {error}"
          sshConnecting := false
          pendingRefreshes := []
          deferred := [] }
    | .disconnected =>
        { s with
          sshTunnelStatus := ""
          sshConnecting := false
          pendingRefreshes := []
          deferred := [] }

/-! ## The certificate -/

def onTrustPromptRequired (s : Machine) : Machine :=
  { s with awaitingTrust := true, lastError := "" }

def trustPendingCert (s : Machine) : Machine :=
  if !s.awaitingTrust then s
  else
    let s := { s with trusted := true, awaitingTrust := false }
    match s.pendingTrustResume with
    | some r => ({ s with pendingTrustResume := none }).refresh r
    | none => s.refreshOverview

/-! ## The replies -/

def labelled (call : Call) (result : Except String Unit) (s : Machine) :
    Machine :=
  match call.errorLabel, result with
  | some label, .error error =>
      if error.isEmpty then s else s.setLastError (label ++ ": " ++ error)
  | _, _ => s

def callback (q : Request) (result : Except String Unit) (s : Machine) :
    Machine :=
  match q.call with
  | .getOptInStatus => { s with optInStatusInFlight := false }
  | .syncRead =>
      match result with
      | .ok () => s.send q.op .setHighAccuracyTimeSync
      | .error _ => s.labelled q.call result
  | .setHighAccuracyTimeSync =>
      match result with
      | .ok () | .error "" => s.send q.op .syncReread
      | .error _ => s.labelled q.call result
  | .setPowerScheme _ => (s.labelled q.call result).refreshPowerSchemes
  | call => s.labelled call result

def request (id : Nat) (s : Machine) : Option Request :=
  s.flight.find? fun q => q.id = id

def onReply (id : Nat) (result : Except String Unit) (s : Machine) : Machine :=
  match s.request id with
  | none => s
  | some q =>
      ({ s with flight := s.flight.filter fun q => q.id ≠ id }).callback q result

/-- A connection that was opened without the pin is refused. -/
def onRefused (id : Nat) (s : Machine) : Machine :=
  match s.request id with
  | none => s
  | some q =>
      if q.beforeTrust then (s.emit (.refused q.op)).onTrustPromptRequired else s

end Machine

/-! ## The event loop -/

inductive Event
  | setHost (host : String)
  | refresh (r : Refresh)
  | syncDeviceTime
  | setPowerScheme (instanceId : String)
  | setSshConfig (enabled : Bool)
  | sessionState (st : SessionState)
  | refused (id : Nat)
  | reply (id : Nat) (result : Except String Unit)
  | trustPendingCert

namespace Machine

def step (s : Machine) : Event → Machine
  | .setHost host => { s with host }
  | .refresh r => s.refresh r
  | .syncDeviceTime => s.syncDeviceTime
  | .setPowerScheme instanceId => s.setPowerScheme instanceId
  | .setSshConfig enabled => s.setSshConfig enabled
  | .sessionState st => s.onSessionState st
  | .refused id => s.onRefused id
  | .reply id result => s.onReply id result
  | .trustPendingCert => s.trustPendingCert

end Machine

end QuMesh.Details
