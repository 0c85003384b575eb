import QuMesh.App.ConfigStore
import QuMesh.App.SecretCodec

/-!
# `ComputerModel`

The list of computers and the ways to change it. Every mutation is made in
memory first, then the whole list is written out, and where that fails the
mutation is taken back. A call is a function of the model and of what the
platform answers it; it gives back whether it reports success, and the model.
-/

namespace QuMesh.App

open QuMesh.Lib

def kDefaultSshPort : Nat := 22
def kMaxTcpPort : Nat := 65535

/-- A TCP port; zero is none. -/
structure Port where
  number : Nat
  inRange : 0 < number ∧ number ≤ kMaxTcpPort
  deriving DecidableEq

def defaultPort : Port := ⟨kDefaultSshPort, by decide⟩

def clampSshPort (port : Int) : Port :=
  if h : 0 < port ∧ port ≤ kMaxTcpPort then
    ⟨port.toNat, by omega, by omega⟩
  else defaultPort

inductive SshAuthMode where
  | password
  | key
  deriving DecidableEq

def SshAuthMode.toInt : SshAuthMode → Int
  | .password => 0
  | .key => 1

def SshAuthMode.ofInt (mode : Int) : SshAuthMode :=
  if mode = SshAuthMode.key.toInt then .key else .password

structure Computer where
  id : Text := .empty
  name : Text := .empty
  host : Text := .empty
  user : Text := .empty
  pass : Text := .empty
  tls : Bool := false
  digestRealm : Text := .empty
  trustedFingerprints : List Text := []
  sshTunnelEnabled : Bool := false
  sshHost : Text := .empty
  sshPort : Port := defaultPort
  sshUser : Text := .empty
  sshAuthMode : SshAuthMode := .password
  sshPassword : Text := .empty
  sshKeyPath : Text := .empty
  sshKeyPassphrase : Text := .empty
  sshTrustedHostKeyFingerprints : List Text := []
  sshCompression : Bool := false
  deriving DecidableEq

/-- The fields that are secrets. -/
inductive Secret where
  | pass
  | sshPassword
  | sshKeyPassphrase
  deriving DecidableEq

/-- The strings of an array; what is no string is passed over. -/
def strings (v : Json) : List Text :=
  v.toArray.filterMap fun v => if v.isString then some v.toText else none

/-- `fresh` is the uuid an entry without an id is given. -/
def parseComputer (fresh : Text) (unwrap : Secret → Text → Text)
    (obj : List (String × Json)) : Computer where
  id :=
    let id := (field obj "id").toText
    if id.isEmpty then fresh else id
  name := (field obj "name").toText
  host := (field obj "host").toText
  user := (field obj "user").toText
  pass := unwrap .pass (field obj "pass").toText
  tls := (field obj "tls").toBool
  digestRealm := (field obj "digestrealm").toText
  trustedFingerprints := strings (field obj "trustedFingerprints")
  sshTunnelEnabled := (field obj "sshTunnelEnabled").toBool
  sshHost := (field obj "sshHost").toText
  sshPort := clampSshPort ((field obj "sshPort").toInt kDefaultSshPort)
  sshUser := (field obj "sshUser").toText
  sshAuthMode := .ofInt ((field obj "sshAuthMode").toInt 0)
  sshPassword := unwrap .sshPassword (field obj "sshPassword").toText
  sshKeyPath := (field obj "sshKeyPath").toText
  sshKeyPassphrase :=
    unwrap .sshKeyPassphrase (field obj "sshKeyPassphrase").toText
  sshTrustedHostKeyFingerprints :=
    strings (field obj "sshTrustedHostKeyFingerprints")
  sshCompression := (field obj "sshCompression").toBool

def buildComputerJson (wrap : Secret → Text → Text) (c : Computer) :
    List (String × Json) :=
  [("id", .str c.id),
    ("name", .str c.name),
    ("host", .str c.host),
    ("user", .str c.user),
    ("pass", .str (wrap .pass c.pass)),
    ("tls", .bool c.tls),
    ("digestrealm", .str c.digestRealm),
    ("trustedFingerprints", .arr (c.trustedFingerprints.map .str)),
    ("sshTunnelEnabled", .bool c.sshTunnelEnabled),
    ("sshHost", .str c.sshHost),
    ("sshPort", .int c.sshPort.number),
    ("sshUser", .str c.sshUser),
    ("sshAuthMode", .int c.sshAuthMode.toInt),
    ("sshPassword", .str (wrap .sshPassword c.sshPassword)),
    ("sshKeyPath", .str c.sshKeyPath),
    ("sshKeyPassphrase", .str (wrap .sshKeyPassphrase c.sshKeyPassphrase)),
    ("sshTrustedHostKeyFingerprints",
      .arr (c.sshTrustedHostKeyFingerprints.map .str)),
    ("sshCompression", .bool c.sshCompression)]

def Computer.toPortableJson (c : Computer) : List (String × Json) :=
  buildComputerJson (fun _ s => s) c

def Computer.fromPortableJson (fresh : Text) (obj : List (String × Json)) :
    Computer :=
  parseComputer fresh (fun _ s => s) obj

/-- What a `QVariant` reads as. -/
structure Variant where
  toText : Text := .empty
  toBool : Bool := false
  toInt : Int := 0

/-- `cfg.value(key, default)` -/
def value (cfg : List (String × Variant)) (key : String)
    (default : Variant := {}) : Variant :=
  (cfg.lookup key).getD default

inductive Role where
  | id
  | display
  | name
  | host
  | user
  | pass
  | tls
  | digestRealm
  | trustedFingerprints
  | other (role : Int)
  deriving DecidableEq

inductive ImportMatch where
  | importNew
  | importUpdate
  deriving DecidableEq

structure ImportPlanEntry where
  incoming : Computer
  existingId : Text := .empty
  matched : ImportMatch := .importNew

/-- What the platform answers one call: the secrets one by one, by the row and
the field, and a new uuid for each row or entry that needs one. -/
structure Platform where
  reading : Reading := .data none
  writing : Writing := .done
  fresh : Nat → Text := fun _ => .empty
  secrets : Nat → Secret → SecretCodec.Answers := fun _ _ => {}

section

variable (aes : AesCtr)

def Computer.toJson (a : Secret → SecretCodec.Answers) (c : Computer) :
    List (String × Json) :=
  buildComputerJson (fun s => SecretCodec.encode aes (a s)) c

def Computer.fromJson (fresh : Text) (a : Secret → SecretCodec.Answers)
    (obj : List (String × Json)) : Computer :=
  parseComputer fresh (fun s => SecretCodec.decode aes (a s).masterKey) obj

end

/-- `attached` is `m_store != nullptr`. -/
structure ComputerModel where
  store : ConfigStore := {}
  attached : Bool := false
  computers : List Computer := []
  lastError : String := ""

namespace ComputerModel

/-- The place of a row, if it is one. -/
def rowOf (rows : List Computer) (row : Int) : Option Nat :=
  if 0 ≤ row ∧ row < rows.length then some row.toNat else none

section

variable (json : JsonText) (aes : AesCtr)

def loadRow (a : Platform) (i : Nat) : Json → Option Computer
  | .obj fields => some (.fromJson aes (a.fresh i) (a.secrets i) fields)
  | _ => none

def setStore (a : Platform) (present : Bool) (m : ComputerModel) :
    ComputerModel :=
  let m := { m with attached := present, computers := [] }
  if m.attached then
    let (arr, store) := m.store.loadComputers json a.reading
    { m with
      store
      computers := (arr.mapIdx (loadRow aes a)).filterMap id }
  else m

/-- The array that is written out. -/
def toJsonArray (a : Platform) (computers : List Computer) : List Json :=
  computers.mapIdx fun i c => .obj (c.toJson aes (a.secrets i))

def persist (a : Platform) (m : ComputerModel) : Bool × ComputerModel :=
  if !m.attached then (true, m)
  else
    match m.store.saveComputers json (toJsonArray aes a m.computers)
        a.writing with
    | (false, store) =>
        (false, { m with store, lastError := store.lastError })
    | (true, store) => (true, { m with store, lastError := "" })

/-- A change of the list, and what takes it back where the list cannot be
written out. -/
def mutate (a : Platform) (change undo : List Computer → List Computer)
    (m : ComputerModel) : Bool × ComputerModel :=
  let m := { m with computers := change m.computers }
  match m.persist json aes a with
  | (true, m) => (true, m)
  | (false, m) => (false, { m with computers := undo m.computers })

/-- An edit of the computer in a row, and the snapshot put back. -/
def editRow (a : Platform) (i : Nat) (edit : Computer → Computer)
    (m : ComputerModel) : Bool × ComputerModel :=
  match m.computers[i]? with
  | none => (false, m)
  | some c => m.mutate json aes a (·.modify i edit) (·.set i c)

/-- What a role changes, if it can be edited. -/
def roleEdit (value : Variant) : Role → Option (Computer → Computer)
  | .name => some fun c => { c with name := value.toText }
  | .host => some fun c => { c with host := value.toText }
  | .user => some fun c => { c with user := value.toText }
  | .pass => some fun c => { c with pass := value.toText }
  | .tls => some fun c => { c with tls := value.toBool }
  | .digestRealm => some fun c => { c with digestRealm := value.toText }
  | _ => none

def setData (a : Platform) (row : Int) (value : Variant) (role : Role)
    (m : ComputerModel) : Bool × ComputerModel :=
  match rowOf m.computers row with
  | none => (false, m)
  | some i =>
      match roleEdit value role with
      | none => (false, m)
      | some edit => m.editRow json aes a i edit

def addTrustedFingerprint (a : Platform) (row : Int) (fingerprint : Text)
    (m : ComputerModel) : Bool × ComputerModel :=
  match rowOf m.computers row with
  | none => (false, m)
  | some i =>
      if (m.computers[i]?).any (·.trustedFingerprints.contains fingerprint) then
        (true, m)
      else
        m.editRow json aes a i fun c => { c with
          trustedFingerprints := c.trustedFingerprints ++ [fingerprint] }

/-- What `setSshConfig` makes of a computer. -/
def sshEdit (cfg : List (String × Variant)) (c : Computer) : Computer :=
  { c with
    sshTunnelEnabled := (value cfg "enabled").toBool
    sshHost := (value cfg "host").toText
    sshPort := clampSshPort
      (value cfg "port" { toInt := kDefaultSshPort }).toInt
    sshUser := (value cfg "user").toText
    sshAuthMode := .ofInt (value cfg "authMode").toInt
    sshPassword := (value cfg "password").toText
    sshKeyPath := (value cfg "keyPath").toText
    sshKeyPassphrase := (value cfg "keyPassphrase").toText
    sshCompression := (value cfg "compression").toBool }

def setSshConfig (a : Platform) (row : Int) (cfg : List (String × Variant))
    (m : ComputerModel) : Bool × ComputerModel :=
  match rowOf m.computers row with
  | none => (false, m)
  | some i => m.editRow json aes a i (sshEdit cfg)

def addTrustedSshHostKey (a : Platform) (row : Int) (fingerprint : Text)
    (m : ComputerModel) : Bool × ComputerModel :=
  match rowOf m.computers row with
  | none => (false, m)
  | some i =>
      if (m.computers[i]?).any
          (·.sshTrustedHostKeyFingerprints.contains fingerprint) then
        (true, m)
      else
        m.editRow json aes a i fun c => { c with
          sshTrustedHostKeyFingerprints :=
            c.sshTrustedHostKeyFingerprints ++ [fingerprint] }

/-- The new row, or -1. -/
def addComputer (a : Platform) (name host user pass : Text) (tls : Bool)
    (m : ComputerModel) : Int × ComputerModel :=
  let row := m.computers.length
  let c : Computer := { id := a.fresh 0, name, host, user, pass, tls }
  match m.mutate json aes a (· ++ [c]) List.dropLast with
  | (false, m) => (-1, m)
  | (true, m) => (row, m)

def removeAt (a : Platform) (row : Int) (m : ComputerModel) :
    Bool × ComputerModel :=
  match rowOf m.computers row with
  | none => (false, m)
  | some i =>
      match m.computers[i]? with
      | none => (false, m)
      | some c => m.mutate json aes a (·.eraseIdx i) (·.insertIdx i c)

end

/-- `at`, the default for a row that is none. -/
def computerAt (m : ComputerModel) (row : Int) : Computer :=
  ((rowOf m.computers row).bind fun i => m.computers[i]?).getD {}

/-! ## Import -/

/-- The first row that is not claimed and satisfies a condition. -/
def findRow (rows : List Computer) (claimed : List Nat)
    (ok : Computer → Bool) : Option Nat :=
  (List.range rows.length).find? fun i =>
    !claimed.contains i && (rows[i]?).any ok

/-- The row an incoming computer stands for: by the id, else by the host and
the name. `fold` maps names that differ in case only to one. -/
def findHit (fold : Text → Text) (rows : List Computer) (claimed : List Nat)
    (c : Computer) : Option Nat :=
  let byId :=
    if c.id.isEmpty then none
    else findRow rows claimed fun x => x.id = c.id
  match byId with
  | some i => some i
  | none =>
      findRow rows claimed fun x => x.host = c.host ∧ fold x.name = fold c.name

/-- One round of the loop: the entry, and the rows claimed after it. -/
def planEntry (fold : Text → Text) (rows : List Computer) (claimed : List Nat)
    (c : Computer) : ImportPlanEntry × List Nat :=
  match findHit fold rows claimed c with
  | some hit =>
      ({ incoming := c, existingId := (rows[hit]?.getD {}).id,
         matched := .importUpdate }, hit :: claimed)
  | none => ({ incoming := c, matched := .importNew }, claimed)

def planLoop (fold : Text → Text) (rows : List Computer) (claimed : List Nat) :
    List Computer → List ImportPlanEntry
  | [] => []
  | c :: rest =>
      let entry := planEntry fold rows claimed c
      entry.1 :: planLoop fold rows entry.2 rest

def planImport (fold : Text → Text) (m : ComputerModel)
    (incoming : List Computer) : List ImportPlanEntry :=
  planLoop fold m.computers [] incoming

/-- The row an entry is applied to, by the id at this time. -/
def targetOf (rows : List Computer) (e : ImportPlanEntry) : Option Nat :=
  if e.matched = .importUpdate ∧ !e.existingId.isEmpty then
    rows.findIdx? fun x => x.id = e.existingId
  else none

def applyEntry (fresh : Text) (rows : List Computer) (e : ImportPlanEntry) :
    List Computer :=
  match targetOf rows e with
  | some target =>
      rows.set target { e.incoming with id := (rows[target]?.getD {}).id }
  | none =>
      rows ++ [if e.incoming.id.isEmpty then { e.incoming with id := fresh }
        else e.incoming]

/-- The entries one after the other; the uuids are numbered by them. -/
def applyEntries (fresh : Nat → Text) :
    Nat → List Computer → List ImportPlanEntry → List Computer
  | _, rows, [] => rows
  | n, rows, e :: plan =>
      applyEntries fresh (n + 1) (applyEntry (fresh n) rows e) plan

variable (json : JsonText) (aes : AesCtr)

def applyImport (a : Platform) (plan : List ImportPlanEntry)
    (m : ComputerModel) : Bool × ComputerModel :=
  let snapshot := m.computers
  m.mutate json aes a (fun rows => applyEntries a.fresh 0 rows plan)
    fun _ => snapshot

/-! ## Calls -/

inductive Call where
  | setData (row : Int) (value : Variant) (role : Role)
  | addTrustedFingerprint (row : Int) (fingerprint : Text)
  | setSshConfig (row : Int) (cfg : List (String × Variant))
  | addTrustedSshHostKey (row : Int) (fingerprint : Text)
  | addComputer (name host user pass : Text) (tls : Bool)
  | removeAt (row : Int)
  | applyImport (plan : List ImportPlanEntry)

/-- A call: whether it reports success, and the model after it. -/
def call (c : Call) (a : Platform) (m : ComputerModel) : Bool × ComputerModel :=
  match c with
  | .setData row value role => m.setData json aes a row value role
  | .addTrustedFingerprint row fingerprint =>
      m.addTrustedFingerprint json aes a row fingerprint
  | .setSshConfig row cfg => m.setSshConfig json aes a row cfg
  | .addTrustedSshHostKey row fingerprint =>
      m.addTrustedSshHostKey json aes a row fingerprint
  | .addComputer name host user pass tls =>
      let (row, m) := m.addComputer json aes a name host user pass tls
      (row ≠ -1, m)
  | .removeAt row => m.removeAt json aes a row
  | .applyImport plan => m.applyImport json aes a plan

inductive Event where
  | setStore (present : Bool)
  | call (c : Call)

def handle (m : ComputerModel) (e : Event × Platform) : ComputerModel :=
  match e with
  | (.setStore present, a) => m.setStore json aes a present
  | (.call c, a) => (m.call json aes c a).2

end ComputerModel

end QuMesh.App
