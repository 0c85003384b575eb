import Mathlib.Data.List.Sort
import QuMesh.Lib.Base64
import QuMesh.Lib.Run
import QuMesh.Lib.Strings
import QuMesh.Wsman.Operations

/-!
# The accounts of a device

The part of `MachineDetailsController` that adds and changes accounts, and the
dialog that makes the patches. The device is there too. It keeps a name and a
digest for each handle, serves a write at some time after it was sent, and what
it answered, or an error of the transport, reaches the callback at some time
after that, in any order. A list is read in many requests, each of which finds
the device as it is then, so what the controller shows may never have been the
state of the device at any one time.

`made` of a request and `set` of the session are not in the code: the name and
the password that a digest was made from, and for each account what the digest
was made from that an accepted write has put there last.
-/

namespace QuMesh.Accounts

open QuMesh.Lib QuMesh.Lib.Strings QuMesh.Wsman

/-- `computeDigestPassword`, over whatever MD5. -/
def computeDigestPassword (md5 : Bytes → Bytes)
    (username realm plaintext : String) : String :=
  fromLatin1 (toBase64 (md5 (toUtf8 username ++ toUtf8 ":" ++ toUtf8 realm ++
    toUtf8 ":" ++ toUtf8 plaintext)))

/-! ## Data -/

/-- A row of `userAccounts`, as far as the dialog and the controller read it. -/
structure UserAccount where
  handle : Int
  digestUsername : String := ""
  accessPermission : Int := -1
  realms : List Int := []
  deriving DecidableEq, Repr

/-- An account as the device keeps it. -/
structure Entry where
  name : String
  digest : String
  accessPermission : Int
  realms : List Int
  deriving DecidableEq, Repr

/-- What a digest is made from, beside the realm. -/
structure Credential where
  name : String
  password : String
  deriving DecidableEq, Repr

inductive Write
  | addUserAclEntryEx (digestUsername digestPassword : String)
      (accessPermission : Int) (realms : List Int)
  | updateUserAclEntryEx (handle : Int) (patch : UserAclEntryPatch)
  | setAdminAclEntryEx (username digestPassword : String)

def Write.invoke : Write → Invoke
  | addUserAclEntryEx u d a rs => Invoke.addUserAclEntryEx u d a rs
  | updateUserAclEntryEx h p => Invoke.updateUserAclEntryEx h p
  | setAdminAclEntryEx u d => Invoke.setAdminAclEntryEx u d

/-- How the callback of a write begins its messages. -/
def Write.what : Write → String
  | addUserAclEntryEx .. => "Add user"
  | updateUserAclEntryEx .. => "Update user"
  | setAdminAclEntryEx .. => "Admin"

/-- `served` is the value that the device has returned. -/
structure Request where
  id : Nat
  write : Write
  made : Option Credential
  served : Option Nat := none
  answered : Bool := false

/-- A read of the list that is on its way, with the rows it has so far. -/
structure Read where
  id : Nat
  rows : List UserAccount := []

/-- The handle -1 makes it the dialog for a new account. The fields of the form
come with the event that submits it. -/
structure Dialog where
  handle : Int := -1
  initialUsername : String := ""
  initialAccessPermission : Int := 2
  initialRealms : List Int := []

def Dialog.isAdd (d : Dialog) : Bool := d.handle = -1

/-- What the user has put into the form. `realms` are the boxes that are
checked. -/
structure Draft where
  username : String
  password : String
  passwordConfirm : String
  accessPermission : Int
  realms : List Int

/-- The argument of `updateUserAccount`. -/
structure Patch where
  digestUsername : Option String := none
  password : Option String := none
  accessPermission : Option Int := none
  realms : Option (List Int) := none
  deriving DecidableEq

/-- The controller, its dialog and its device. -/
structure Session where
  -- the controller
  hasHost : Bool := true
  sshConnecting : Bool := false
  pendingUserAccounts : Bool := false
  digestRealm : String := ""
  userAccounts : List UserAccount := []
  lastError : String := ""
  -- the window
  dialog : Option Dialog := none
  -- the device, and what is on its way
  realm : String
  accounts : Int → Option Entry
  writes : List Request := []
  reads : List Read := []
  nextId : Nat := 0
  set : Int → Option Credential := fun _ => none

/-! ## The dialog -/

/-- `realmsArray` takes every box once. -/
def Draft.realmsArray (d : Draft) : List Int := d.realms.dedup

def Draft.passwordsAgree (d : Draft) : Bool :=
  d.password ≠ "" && d.password = d.passwordConfirm

def Dialog.realmsChanged (root : Dialog) (d : Draft) : Bool :=
  !(d.realms.all (root.initialRealms.contains ·) &&
    root.initialRealms.all (d.realms.contains ·))

/-- The patch that `commit` builds from what differs. -/
def Dialog.patch (root : Dialog) (d : Draft) : Patch where
  digestUsername :=
    if d.username ≠ root.initialUsername then some d.username else none
  password := if d.password ≠ "" then some d.password else none
  accessPermission :=
    if d.accessPermission ≠ root.initialAccessPermission then
      some d.accessPermission
    else none
  realms := if root.realmsChanged d then some d.realmsArray else none

/-- What lets `submitIfReady` through. -/
def Dialog.ready (root : Dialog) (d : Draft) : Bool :=
  d.username ≠ "" &&
    if root.isAdd then d.passwordsAgree
    else d.password = "" || d.passwordsAgree

namespace Session

def setLastError (text : String) (s : Session) : Session :=
  { s with lastError := text }

def openForAdd (s : Session) : Session := { s with dialog := some {} }

def openForEdit (account : UserAccount) (s : Session) : Session :=
  let root : Dialog :=
    { handle := account.handle
      initialUsername := account.digestUsername
      initialAccessPermission := account.accessPermission
      initialRealms := account.realms }
  { s with dialog := some root }

/-! ## The controller -/

def send (write : Write) (made : Option Credential) (s : Session) : Session :=
  { s with
    writes := s.writes ++ [({ id := s.nextId, write, made } : Request)]
    nextId := s.nextId + 1 }

def refreshUserAccounts (s : Session) : Session :=
  if s.sshConnecting then { s with pendingUserAccounts := true }
  else if !s.hasHost then s.setLastError "Host is empty — cannot refresh."
  else
    { s with
      reads := s.reads ++ [({ id := s.nextId } : Read)]
      nextId := s.nextId + 1 }

variable (md5 : Bytes → Bytes)

def addUserAccount (digestUsername password : String) (accessPermission : Int)
    (realms : List Int) (s : Session) : Session :=
  let s := s.setLastError ""
  let username := trimmed digestUsername
  if username = "" then s.setLastError "Add user: username is empty."
  else if password = "" then s.setLastError "Add user: password is empty."
  else if s.digestRealm = "" then
    s.setLastError
      "Add user: digest realm unknown — refresh General Settings first."
  else if !s.hasHost then s.setLastError "Add user: host is empty."
  else
    s.send (.addUserAclEntryEx username
      (computeDigestPassword md5 username s.digestRealm password)
      accessPermission realms) (some ⟨username, password⟩)

/-- The name of the account in the list that the controller has. -/
def cachedName (handle : Int) (s : Session) : String :=
  match s.userAccounts.find? fun m => m.handle = handle with
  | some m => m.digestUsername
  | none => ""

/-- The name that a new digest is made for. -/
def digestName (handle : Int) (patch : Patch) (s : Session) : String :=
  match patch.digestUsername with
  | some u => if u = "" then s.cachedName handle else u
  | none => s.cachedName handle

def updateUserAccount (handle : Int) (patch : Patch) (s : Session) : Session :=
  let s := s.setLastError ""
  if handle < 0 then
    s.setLastError
      "Update user: admin entry must be rotated via setAdminPassword."
  else if !s.hasHost then s.setLastError "Update user: host is empty."
  else
    let p : UserAclEntryPatch :=
      { digestUsername := patch.digestUsername
        accessPermission := patch.accessPermission
        realms := patch.realms }
    match patch.password with
    | none => s.send (.updateUserAclEntryEx handle p) none
    | some password =>
        if s.digestRealm = "" then
          s.setLastError "Update user: digest realm unknown — refresh first."
        else
          let u := s.digestName handle patch
          if u = "" then
            s.setLastError
              "Update user: cannot resolve current username for digest."
          else
            s.send (.updateUserAclEntryEx handle { p with
              digestPassword :=
                some (computeDigestPassword md5 u s.digestRealm password) })
              (some ⟨u, password⟩)

def setAdminPassword (username newPassword : String) (s : Session) : Session :=
  let s := s.setLastError ""
  let u := trimmed username
  if u = "" then s.setLastError "Admin: username is empty."
  else if newPassword = "" then s.setLastError "Admin: password is empty."
  else if s.digestRealm = "" then
    s.setLastError
      "Admin: digest realm unknown — refresh General Settings first."
  else if !s.hasHost then s.setLastError "Admin: host is empty."
  else
    s.send (.setAdminAclEntryEx u
      (computeDigestPassword md5 u s.digestRealm newPassword))
      (some ⟨u, newPassword⟩)

def commit (root : Dialog) (d : Draft) (s : Session) : Session :=
  if root.isAdd then
    { s.addUserAccount md5 d.username d.password d.accessPermission
        d.realmsArray with dialog := none }
  else if root.patch d = {} then { s with dialog := none }
  else
    { s.updateUserAccount md5 root.handle (root.patch d) with dialog := none }

def submitIfReady (d : Draft) (s : Session) : Session :=
  match s.dialog with
  | none => s
  | some root => if root.ready d then s.commit md5 root d else s

/-- The callback of a write. -/
def written (q : Request) (reply : Except String Unit) (s : Session) :
    Session :=
  match reply with
  | .ok () => s.refreshUserAccounts
  | .error error =>
      s.setLastError
        (q.write.what ++ ": " ++ if error = "" then "failed." else error)

/-- The callback of a read: the rows by handle, the administrator first. -/
def accountsRead (reply : Except String (List UserAccount)) (s : Session) :
    Session :=
  match reply with
  | .ok rows => { s with userAccounts := rows }
  | .error error =>
      if error = "" then s else s.setLastError ("User accounts: " ++ error)

end Session

/-! ## The device -/

def Entry.patched (p : UserAclEntryPatch) (e : Entry) : Entry where
  name := p.digestUsername.getD e.name
  digest := p.digestPassword.getD e.digest
  accessPermission := p.accessPermission.getD e.accessPermission
  realms := p.realms.getD e.realms

/-- The account that an accepted write is for, as it is then. A new one gets a
handle of the device's choosing. -/
def Write.target (newHandle : Int) (accounts : Int → Option Entry) :
    Write → Option (Int × Entry)
  | addUserAclEntryEx u d a rs =>
      if 0 ≤ newHandle ∧ accounts newHandle = none then
        some (newHandle,
          { name := u, digest := d, accessPermission := a, realms := rs })
      else none
  | updateUserAclEntryEx h p =>
      (accounts h).map fun e => (h, e.patched p)
  | setAdminAclEntryEx u d =>
      (accounts (-1)).map fun e => (-1, { e with name := u, digest := d })

namespace Session

def request (id : Nat) (s : Session) : Option Request :=
  s.writes.find? fun q => q.id = id

def alter (id : Nat) (f : Request → Request) (s : Session) : Session :=
  { s with writes := s.writes.map fun q => if q.id = id then f q else q }

/-- The device takes a write: the account gets what was sent. -/
def apply (q : Request) (h : Int) (e : Entry) (s : Session) : Session :=
  { s with
    accounts := Function.update s.accounts h (some e)
    set := match q.made with
      | some c => Function.update s.set h (some c)
      | none => s.set }

/-- The device serves a write with this return value. It does not return 0
where it has no such account. -/
def serve (id returnValue : Nat) (newHandle : Int) (s : Session) : Session :=
  match s.request id with
  | none => s
  | some q =>
      if q.served.isSome then s
      else if returnValue = 0 then
        match q.write.target newHandle s.accounts with
        | none => s
        | some (h, e) =>
            (s.alter id fun q => { q with served := some 0 }).apply q h e
      else s.alter id fun q => { q with served := some returnValue }

/-- A reply reaches the callback of a write: what the device returned, or an
error. A write may be served after its callback has run. -/
def deliver (id : Nat) (lost : Option String) (s : Session) : Session :=
  match s.request id with
  | none => s
  | some q =>
      if q.answered then s
      else
        let done := s.alter id fun q => { q with answered := true }
        match lost, q.served with
        | some error, _ => done.written q (.error error)
        | none, some 0 => done.written q (.ok ())
        | none, some rv =>
            done.written q
              (.error (q.write.invoke.methodName ++ " returned " ++ toString rv))
        | none, none => s

/-- What the two requests for a handle read. `missed` when they fail: the row
is left as it was put in. -/
def row (handle : Int) (missed : Bool) (s : Session) : UserAccount :=
  match missed, s.accounts handle with
  | false, some e =>
      if handle = -1 then
        { handle, digestUsername := e.name, accessPermission := 999 }
      else
        { handle
          digestUsername := e.name
          accessPermission := e.accessPermission
          realms := e.realms }
  | _, _ => { handle }

/-- A row is read, for a read of the list that is on its way. -/
def readRow (id : Nat) (handle : Int) (missed : Bool) (s : Session) : Session :=
  let insert (rows : List UserAccount) :=
    List.orderedInsert (·.handle ≤ ·.handle) (s.row handle missed)
      (rows.filter fun u => u.handle ≠ handle)
  { s with reads := s.reads.map fun r =>
      if r.id = id then { r with rows := insert r.rows } else r }

def listed (id : Nat) (lost : Option String) (s : Session) : Session :=
  match s.reads.find? fun r => r.id = id with
  | none => s
  | some r =>
      let done := { s with reads := s.reads.filter fun r => r.id ≠ id }
      match lost with
      | some error => done.accountsRead (.error error)
      | none => done.accountsRead (.ok r.rows)

end Session

/-! ## The event loop -/

inductive Event
  | openForAdd
  /-- The edit button of a row of the list. -/
  | openForEdit (row : Nat)
  | rejected
  | submitIfReady (draft : Draft)
  | setAdminPassword (username newPassword : String)
  | refreshUserAccounts
  /-- General Settings were read. -/
  | generalSettings
  | setHost (present : Bool)
  | sshConnecting
  | sshConnected
  | sshDown
  | serve (id returnValue : Nat) (newHandle : Int)
  | deliver (id : Nat) (lost : Option String)
  | readRow (id : Nat) (handle : Int) (missed : Bool)
  | listed (id : Nat) (lost : Option String)

namespace Session

variable (md5 : Bytes → Bytes)

def step (s : Session) : Event → Session
  | .openForAdd => s.openForAdd
  | .openForEdit row =>
      match s.userAccounts[row]? with
      | some account =>
          if account.handle = -1 then s else s.openForEdit account
      | none => s
  | .rejected => { s with dialog := none }
  | .submitIfReady draft => s.submitIfReady md5 draft
  | .setAdminPassword username newPassword =>
      s.setAdminPassword md5 username newPassword
  | .refreshUserAccounts => s.refreshUserAccounts
  | .generalSettings => { s with digestRealm := s.realm }
  | .setHost present => { s with hasHost := present }
  | .sshConnecting => { s with sshConnecting := true }
  | .sshConnected =>
      let pending := s.pendingUserAccounts
      let s := { s with sshConnecting := false, pendingUserAccounts := false }
      if pending then s.refreshUserAccounts else s
  | .sshDown => { s with sshConnecting := false, pendingUserAccounts := false }
  | .serve id returnValue newHandle => s.serve id returnValue newHandle
  | .deliver id lost => s.deliver id lost
  | .readRow id handle missed => s.readRow id handle missed
  | .listed id lost => s.listed id lost

end Session

end QuMesh.Accounts
