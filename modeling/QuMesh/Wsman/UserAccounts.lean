import Mathlib.Data.Multiset.AddSub
import QuMesh.Wsman.ParallelReads

/-!
# The user accounts

`enumerateUserAccounts` asks for the entry of the administrator and for the
handles of the users, page by page, side by side, and for each handle on a page
it asks for two things more. What the replies share counts those that are still
to come. A request carries the place that its handle has on its page, so that
two requests for one handle can be told apart.
-/

namespace QuMesh.Wsman

open QuMesh.Lib QuMesh.Lib.Xml

inductive AclRequest
  | getAdminAclEntry
  | enumerateUserAclEntries (startIndex : Nat)
  | getUserAclEntryEx (startIndex place : Nat) (handle : Int)
  | getAclEnabledState (startIndex place : Nat) (handle : Int)
  deriving DecidableEq

structure UserAccount where
  handle : Int := 0
  digestUsername : String := ""
  kerberosUserSidB64 : String := ""
  name : String := ""
  accessPermission : Int := -1
  realms : List Int := []
  enabled : Bool := true
  hidden : Bool := false
  deriving DecidableEq

structure UserAccountsResult where
  ok : Bool := false
  error : String := ""
  accounts : List UserAccount := []
  deriving DecidableEq

def parseAclHandles (bodyXml : List Token) : List Int :=
  (elementTexts bodyXml "Handles").filterMap Strings.toInt

def parseUserRealms (bodyXml : List Token) : List Int :=
  (elementTexts bodyXml "Realms").filterMap Strings.toInt

/-- The rows by their handles. The hash of the source is read once, by its
sorted keys. -/
abbrev Rows := Std.ExtTreeMap Int UserAccount

/-- What the replies share, the requests that are out, and the calls of the
callback. -/
structure AccountsRead where
  byHandle : Rows := ∅
  pendingPerHandle : Int := 0
  adminDone : Bool := false
  enumDone : Bool := false
  fired : Bool := false
  error : String := ""
  outstanding : Multiset AclRequest :=
    {.getAdminAclEntry, .enumerateUserAclEntries 1}
  calls : List UserAccountsResult := []

namespace AccountsRead

def result (acc : AccountsRead) : UserAccountsResult :=
  { ok := acc.error = "", error := acc.error, accounts := acc.byHandle.values }

def maybeFire (acc : AccountsRead) : AccountsRead :=
  if acc.fired then acc
  else if !acc.adminDone || !acc.enumDone then acc
  else if acc.pendingPerHandle > 0 then acc
  else { acc with fired := true, calls := acc.calls ++ [acc.result] }

/-- The row of the administrator. -/
def adminAccount (u : String) : UserAccount :=
  { handle := -1
    digestUsername := u
    name := u
    accessPermission := 999
    enabled := true
    hidden := u.startsWith "$$" }

def adminRow (bodyXml : List Token) (rows : Rows) : Rows :=
  let u := findScalar bodyXml "Username"
  if u = "" then rows else rows.insert (-1) (adminAccount u)

def entryRow (bodyXml : List Token) (u : UserAccount) : UserAccount :=
  let u :=
    { u with
      digestUsername := findScalar bodyXml "DigestUsername"
      kerberosUserSidB64 := findScalar bodyXml "KerberosUserSid" }
  let u :=
    match Strings.toInt (findScalar bodyXml "AccessPermission") with
    | some ap => { u with accessPermission := ap }
    | none => u
  let u := { u with realms := parseUserRealms bodyXml }
  if u.digestUsername ≠ "" then
    { u with
      name := u.digestUsername
      hidden := u.digestUsername.startsWith "$$" }
  else { u with name := "(Kerberos)" }

def enabledRow (bodyXml : List Token) (u : UserAccount) : UserAccount :=
  { u with enabled := findScalar bodyXml "Enabled" = "true" }

/-- A row with nothing in it for a handle, and two requests to fill it. -/
def kick (startIndex : Nat) (acc : AccountsRead) (handle : Int × Nat) :
    AccountsRead :=
  let (h, place) := handle
  { acc with
    pendingPerHandle := acc.pendingPerHandle + 2
    byHandle := acc.byHandle.insert h { handle := h }
    outstanding := acc.outstanding +
      {.getUserAclEntryEx startIndex place h,
        .getAclEnabledState startIndex place h} }

def adminReply (r : Outcome) (acc : AccountsRead) : AccountsRead :=
  let acc :=
    match r.response with
    | .error _ => acc
    | .ok soap => { acc with byHandle := adminRow soap.bodyXml acc.byHandle }
  { acc with adminDone := true }.maybeFire

def pageReply (startIndex : Nat) (r : Outcome) (acc : AccountsRead) :
    AccountsRead :=
  match r.response with
  | .error error =>
      { acc with
        error := if acc.error = "" then error else acc.error
        enumDone := true }.maybeFire
  | .ok soap =>
      let handles := parseAclHandles soap.bodyXml
      let acc := handles.zipIdx.foldl (kick startIndex) acc
      if handles.length ≥ 50 then
        { acc with
          outstanding := acc.outstanding +
            {.enumerateUserAclEntries (startIndex + handles.length)} }
      else { acc with enumDone := true }.maybeFire

/-- A reply for one handle: its row is edited, if it is there. -/
def handleReply (edit : List Token → UserAccount → UserAccount) (h : Int)
    (r : Outcome) (acc : AccountsRead) : AccountsRead :=
  let acc :=
    match r.response with
    | .error _ => acc
    | .ok soap =>
        { acc with byHandle := acc.byHandle.modify h (edit soap.bodyXml) }
  { acc with pendingPerHandle := acc.pendingPerHandle - 1 }.maybeFire

/-- The reply to a request. -/
def step (answer : AclRequest → Outcome) (acc : AccountsRead)
    (request : AclRequest) : AccountsRead :=
  let acc := { acc with outstanding := acc.outstanding.erase request }
  let r := answer request
  match request with
  | .getAdminAclEntry => acc.adminReply r
  | .enumerateUserAclEntries startIndex => acc.pageReply startIndex r
  | .getUserAclEntryEx _ _ h => acc.handleReply entryRow h r
  | .getAclEnabledState _ _ h => acc.handleReply enabledRow h r

end AccountsRead

end QuMesh.Wsman
