import QuMesh.Lib.Base64
import QuMesh.Lib.Hash
import QuMesh.Lib.Strings

/-!
# Policies of remote access

What `getRemoteAccess` makes of the policy rules, of the servers and of the rows
that link them, and the request that adds a rule. An item is here as the texts
that `findScalar` finds in it. The policies are kept in a hash table, and those
under other names than the three that are documented come in its order.
-/

namespace QuMesh.Wsman

open QuMesh.Lib

/-- An item of `AMT_RemoteAccessPolicyRule`. -/
structure PolicyItem where
  policyRuleName : String
  trigger : String
  tunnelLifeTime : String
  extendedData : String

/-- What `parseLinkRow` finds in an item of
`AMT_RemoteAccessPolicyAppliesToMPS`. -/
structure LinkRow where
  policyName : String
  mpsName : String

/-- An item of `AMT_ManagementPresenceRemoteSAP`. -/
structure MpsItem where
  name : String
  mpsType : String

structure RemoteAccessPolicy where
  name : String
  trigger : Int := -1
  tunnelLifeTime : Int := 0
  periodicInterval : Bool := false
  periodicSeconds : Int := 0
  periodicTimeOfDay : Bool := false
  periodicHour : Int := 0
  periodicMinute : Int := 0
  mpsNames : List String := []

structure MpsServer where
  name : String
  mpsType : Int := 0

structure RemoteAccessResult where
  policies : List RemoteAccessPolicy := []
  servers : List MpsServer := []

/-- `QByteArray::fromBase64` of the Latin-1 of a text. -/
def bytesOfBase64 (b64 : String) : Bytes :=
  (fromBase64 false (Strings.toLatin1 b64)).getD []

def decodeExtendedData (b64 : String) (p : RemoteAccessPolicy) :
    RemoteAccessPolicy :=
  let raw := bytesOfBase64 b64
  if raw.length < 8 then p
  else
    let type := read32Be raw 0
    if type = 0 then
      { p with
        periodicInterval := true
        periodicSeconds := signed32 (read32Be raw 4) }
    else if type = 1 ∧ raw.length ≥ 12 then
      { p with
        periodicTimeOfDay := true
        periodicHour := signed32 (read32Be raw 4)
        periodicMinute := signed32 (read32Be raw 8) }
    else p

/-- A number that is not below 0 as an unsigned one. -/
def unsigned32 (v : Int) : Nat := if v < 0 then 0 else v.toNat

def buildExtendedData (intervalMode : Bool) (intervalSeconds hour minute : Int) :
    String :=
  let raw :=
    if intervalMode then pack32Be 0 ++ pack32Be (unsigned32 intervalSeconds)
    else pack32Be 1 ++ pack32Be (unsigned32 hour) ++ pack32Be (unsigned32 minute)
  Strings.fromLatin1 (toBase64 raw)

def readPolicy (item : PolicyItem) : RemoteAccessPolicy :=
  let p : RemoteAccessPolicy :=
    { name := item.policyRuleName
      trigger := (Strings.toInt item.trigger).getD (-1)
      tunnelLifeTime := (Strings.toInt item.tunnelLifeTime).getD 0 }
  if !item.extendedData.isEmpty then decodeExtendedData item.extendedData p
  else p

def readServer (item : MpsItem) : MpsServer where
  name := item.name
  mpsType := (Strings.toInt item.mpsType).getD 0

abbrev PolicyTable : Type := Table String RemoteAccessPolicy

/-- `policyByName[pn].mpsNames.append(mn)`, if there is such a policy. -/
def bindServer (policyByName : PolicyTable) (row : LinkRow) : PolicyTable :=
  if row.policyName.isEmpty || row.mpsName.isEmpty then policyByName
  else
    match policyByName.value? row.policyName with
    | none => policyByName
    | some p =>
        policyByName.insert row.policyName
          { p with mpsNames := p.mpsNames ++ [row.mpsName] }

def policyByName (rules : List PolicyItem) (links : List LinkRow) :
    PolicyTable :=
  links.foldl bindServer (rules.foldl (fun t item =>
    t.insert item.policyRuleName (readPolicy item)) .empty)

def policyOrder : List String := ["User Initiated", "Alert", "Periodic"]

def getRemoteAccess (σ : Order String RemoteAccessPolicy)
    (rules : List PolicyItem) (links : List LinkRow) (servers : List MpsItem) :
    RemoteAccessResult :=
  let table := policyByName rules links
  { policies := policyOrder.filterMap table.value? ++
      ((σ.iterate table).filter fun e => !policyOrder.contains e.1).map Prod.snd
    servers := servers.map readServer }

/-! ## Adding a rule -/

structure CiraPolicyInput where
  trigger : Int := 0
  tunnelLifeTime : Int := 0
  periodicInterval : Bool := false
  periodicSeconds : Int := 0
  periodicTimeOfDay : Bool := false
  periodicHour : Int := 0
  periodicMinute : Int := 0
  ciraMpsNames : List String := []
  cilaMpsNames : List String := []

/-- The elements of `AddRemoteAccessPolicyRule_INPUT`: the numbers go out in
decimal, and each server as an `MpServer` or an `InternalMpServer`. -/
structure PolicyRuleRequest where
  trigger : Int
  tunnelLifeTime : Int
  extendedData : String
  mpServers : List String
  internalMpServers : List String
  deriving DecidableEq, Repr

def addRemoteAccessPolicyRule (policy : CiraPolicyInput) : PolicyRuleRequest where
  trigger := policy.trigger
  tunnelLifeTime := policy.tunnelLifeTime
  extendedData :=
    if policy.trigger = 2 then
      if policy.periodicInterval then
        buildExtendedData true policy.periodicSeconds 0 0
      else if policy.periodicTimeOfDay then
        buildExtendedData false 0 policy.periodicHour policy.periodicMinute
      else ""
    else ""
  mpServers := policy.ciraMpsNames
  internalMpServers := policy.cilaMpsNames

end QuMesh.Wsman
