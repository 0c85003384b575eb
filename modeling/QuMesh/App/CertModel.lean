import QuMesh.App.ConfigStore
import QuMesh.Lib.Base64

/-!
# `CertModel` and `CertStore`

The local certificates and their file. The model saves first: it builds the
store as it would be, writes that out, and takes it over where the write
succeeds. Certificates are parsed elsewhere, so the parsers and what they find
in a certificate are parameters.
-/

namespace QuMesh.App

open QuMesh.Lib

/-- What a certificate says. Dates are in the ISO form they are stored in. -/
structure CertMetadata where
  id : Text
  subjectCommonName : Text
  issuerCommonName : Text
  serial : Text
  notBefore : Text
  notAfter : Text
  fingerprintSha256 : Text
  deriving DecidableEq

structure CertEntry where
  id : Text := .empty
  subjectCommonName : Text := .empty
  issuerCommonName : Text := .empty
  serial : Text := .empty
  notBefore : Text := .empty
  notAfter : Text := .empty
  fingerprintSha256 : Text := .empty
  hasPrivateKey : Bool := false
  certDer : Bytes := []
  privateKeyPem : Text := .empty
  deriving DecidableEq

/-- The certificate code that is not here. `isoDate` is what reading a date
and printing it makes of its text, and `metadata` is nothing for what is no
certificate; a parser's entry has no `certDer` where it fails. -/
structure CertParser where
  isoDate : Text → Text
  metadata : Bytes → Option CertMetadata
  fromPkcs12 : Bytes → Text → CertEntry × String
  fromPem : Bytes → CertEntry × String
  fromDer : Bytes → CertEntry × String

namespace CertEntry

def toJson (e : CertEntry) : List (String × Json) :=
  [("id", .str e.id),
    ("subjectCN", .str e.subjectCommonName),
    ("issuerCN", .str e.issuerCommonName),
    ("serial", .str e.serial),
    ("notBefore", .str e.notBefore),
    ("notAfter", .str e.notAfter),
    ("fingerprintSha256", .str e.fingerprintSha256),
    ("hasPrivateKey", .bool e.hasPrivateKey),
    ("certbin", .str (.ofLatin1 (toBase64 e.certDer)))] ++
  if e.privateKeyPem.isEmpty then []
  else [("privateKeyBin", .str e.privateKeyPem)]

def fromJson (p : CertParser) (obj : List (String × Json)) : CertEntry where
  id := (field obj "id").toText
  subjectCommonName := (field obj "subjectCN").toText
  issuerCommonName := (field obj "issuerCN").toText
  serial := (field obj "serial").toText
  notBefore := p.isoDate (field obj "notBefore").toText
  notAfter := p.isoDate (field obj "notAfter").toText
  fingerprintSha256 := (field obj "fingerprintSha256").toText
  hasPrivateKey := (field obj "hasPrivateKey").toBool
  certDer :=
    (fromBase64 false
      (Text.toLatin1 (field obj "certbin").toText.utf8)).getD []
  privateKeyPem := (field obj "privateKeyBin").toText

/-- `CertParser::populateMetadata` -/
def populateMetadata (p : CertParser) (e : CertEntry) : CertEntry :=
  match p.metadata e.certDer with
  | none => e
  | some m =>
      { e with
        id := m.id
        subjectCommonName := m.subjectCommonName
        issuerCommonName := m.issuerCommonName
        serial := m.serial
        notBefore := m.notBefore
        notAfter := m.notAfter
        fingerprintSha256 := m.fingerprintSha256 }

end CertEntry

/-- `file` is the file on disk, and `saves` every array that a save put there;
no function reads `saves`. -/
structure CertStore where
  file : Option Bytes := none
  entries : List CertEntry := []
  saves : List (List Json) := []

namespace CertStore

/-- One record of the file; it is passed over if it has no certificate. -/
def loadEntry (p : CertParser) : Json → Option CertEntry
  | .obj fields =>
      let e := CertEntry.fromJson p fields
      let e :=
        if e.id.isEmpty && !e.certDer.isEmpty then e.populateMetadata p else e
      if e.certDer.isEmpty then none else some e
  | _ => none

variable (json : JsonText) (p : CertParser)

/-- The records of the file, or the error. -/
def readArray (s : CertStore) (r : Reading) : Except String (List Json) :=
  match s.file with
  | none => .ok []
  | some b =>
      match r with
      | .unseen => .ok []
      | .refused reason => .error reason
      | .data limit =>
          let bytes := (limit.map b.take).getD b
          if bytes.isEmpty then .ok []
          else
            match json.parse bytes with
            | .error reason => .error reason
            | .ok (.arr items) => .ok items
            | .ok _ => .error "certificates.json is not a JSON array"

/-- The error, if there is one. -/
def load (s : CertStore) (r : Reading) : Option String × CertStore :=
  match s.readArray json r with
  | .error reason => (some reason, { s with entries := [] })
  | .ok items => (none, { s with entries := items.filterMap (loadEntry p) })

/-- The array that is written out. -/
def toJsonArray (entries : List CertEntry) : List Json :=
  entries.map fun e => .obj e.toJson

def save (s : CertStore) (w : Writing) : Option String × CertStore :=
  let arr := toJsonArray s.entries
  match w with
  | .noDir => (some "", s)
  | .refused reason | .short reason | .uncommitted reason => (some reason, s)
  | .done =>
      (none, { s with
        file := some (json.print false (.arr arr)), saves := s.saves ++ [arr] })

def indexOf (s : CertStore) (id : Text) : Option Nat :=
  s.entries.findIdx? fun e => e.id = id

/-- The index of the entry, and the store. -/
def addOrReplace (s : CertStore) (e : CertEntry) : Nat × CertStore :=
  match s.indexOf e.id with
  | some idx => (idx, { s with entries := s.entries.set idx e })
  | none => (s.entries.length, { s with entries := s.entries ++ [e] })

def removeById (s : CertStore) (id : Text) : CertStore :=
  match s.indexOf id with
  | some idx => { s with entries := s.entries.eraseIdx idx }
  | none => s

end CertStore

structure CertModel where
  store : CertStore := {}
  lastError : String := ""

namespace CertModel

/-- `BEGIN CERTIFICATE` -/
def pemMark : Bytes :=
  [0x42, 0x45, 0x47, 0x49, 0x4E, 0x20, 0x43, 0x45, 0x52, 0x54, 0x49, 0x46,
    0x49, 0x43, 0x41, 0x54, 0x45]

variable (json : JsonText) (p : CertParser)

def setStorePath (r : Reading) (m : CertModel) : CertModel :=
  match m.store.load json p r with
  | (none, store) => { m with store }
  | (some reason, store) => { store, lastError := reason }

def reload (r : Reading) (m : CertModel) : CertModel :=
  let (error, store) := m.store.load json p r
  { store, lastError := error.getD "" }

/-- The entry in a file that is imported; `suffix` is in lower case. -/
def parseFile (suffix : String) (bytes : Bytes) (password : Text) :
    CertEntry × String :=
  if suffix = "p12" ∨ suffix = "pfx" then p.fromPkcs12 bytes password
  else if suffix = "pem" ∨ suffix = "key" ∨
      bytes.tails.any (pemMark.isPrefixOf ·) then
    p.fromPem bytes
  else p.fromDer bytes

/-- The row of the entry, or -1. `source` is the file, or why it does not
open. -/
def importFromFile (w : Writing) (source : Except String Bytes)
    (suffix : String) (password : Text) (m : CertModel) : Int × CertModel :=
  let m := { m with lastError := "" }
  match source with
  | .error reason => (-1, { m with lastError := reason })
  | .ok bytes =>
      let (e, parseErr) := parseFile p suffix bytes password
      if e.certDer.isEmpty then
        (-1, { m with lastError :=
          if parseErr = "" then "could not parse certificate" else parseErr })
      else
        let (existing, next) := m.store.addOrReplace e
        match next.save json w with
        | (some saveErr, _) => (-1, { m with lastError := saveErr })
        | (none, store) => (existing, { m with store })

def removeAt (w : Writing) (row : Int) (m : CertModel) : Bool × CertModel :=
  if row < 0 ∨ m.store.entries.length ≤ row then (false, m)
  else
    let id := ((m.store.entries[row.toNat]?).getD {}).id
    match (m.store.removeById id).save json w with
    | (some saveErr, _) => (false, { m with lastError := saveErr })
    | (none, store) => (true, { m with store })

/-! ## Events -/

inductive Event where
  | setStorePath (reading : Reading)
  | reload (reading : Reading)
  | importFromFile (writing : Writing) (source : Except String Bytes)
      (suffix : String) (password : Text)
  | removeAt (writing : Writing) (row : Int)

def handle (m : CertModel) : Event → CertModel
  | .setStorePath reading => m.setStorePath json p reading
  | .reload reading => m.reload json p reading
  | .importFromFile writing source suffix password =>
      (m.importFromFile json p writing source suffix password).2
  | .removeAt writing row => (m.removeAt json writing row).2

end CertModel

end QuMesh.App
