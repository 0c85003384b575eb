import QuMesh.Lib.Hex
import QuMesh.Lib.Json
import QuMesh.Lib.KeyRange

/-!
# The migration of the legacy data

`Migrator` takes over what the legacy application kept under one origin of its
LevelDB: two encrypted lists, and settings that are text. It writes three files
and a stamp, one after the other, each truncated when it is opened.
`MigrationController` runs it on a launch that finds no `computers.json`.

What the platform answers a run is one argument of it. The database is given as
its entries in the order of their keys, and the iterator may give up anywhere.
A write may be refused, or come short and say so; or it stays in the buffer of
the file, and what is lost when the file is closed nobody hears of.
-/

namespace QuMesh.Migrate

open QuMesh.Lib

/-- `aes256Ctr` is given a key and a counter block first. The length of what it
is given goes through an `int`; texts of 2 GiB and more are not modelled. -/
structure OpenSsl where
  aes256Ctr : Bytes → Bytes → Bytes → Except String Bytes
  md5 : Bytes → Bytes

/-! ## `ChromiumStorageReader` -/

structure Database where
  entries : List (Bytes × Bytes)
  sorted : Sorted entries

structure ChromiumEntry where
  key : String
  value : Bytes
  deriving DecidableEq

def units : Bytes → List UInt16
  | lo :: hi :: rest => (lo.toUInt16 + 256 * hi.toUInt16) :: units rest
  | _ => []

def isHighSurrogate (u : UInt16) : Bool := 0xD800 ≤ u && u < 0xDC00

def isLowSurrogate (u : UInt16) : Bool := 0xDC00 ≤ u && u < 0xE000

/-- A code point in UTF-8. -/
def codePoint (v : Nat) : Bytes :=
  let tail := fun shift => UInt8.ofNat (0x80 + v / shift % 64)
  if v < 0x80 then [UInt8.ofNat v]
  else if v < 0x800 then [UInt8.ofNat (0xC0 + v / 64), tail 1]
  else if v < 0x10000 then [UInt8.ofNat (0xE0 + v / 4096), tail 64, tail 1]
  else [UInt8.ofNat (0xF0 + v / 262144), tail 4096, tail 64, tail 1]

/-- A unit that is no half of a pair. -/
def unitUtf8 (u : UInt16) : Bytes :=
  if isHighSurrogate u || isLowSurrogate u then [0x3F] else codePoint u.toNat

/-- `QString::toUtf8`: a surrogate on its own becomes a question mark. -/
def toUtf8 : List UInt16 → Bytes
  | hi :: lo :: rest =>
      if isHighSurrogate hi && isLowSurrogate lo then
        codePoint (0x10000 + (hi.toNat - 0xD800) * 1024 + (lo.toNat - 0xDC00)) ++
          toUtf8 rest
      else unitUtf8 hi ++ toUtf8 (lo :: rest)
  | [u] => unitUtf8 u
  | [] => []

def decodeValue : Bytes → Bytes
  | 0x00 :: body =>
      if body.length % 2 ≠ 0 then []
      else
        match units body with
        | 0xFEFF :: rest => toUtf8 rest
        | all => toUtf8 all
  | 0x01 :: body => body
  | _ => []

def kKeyPrefixByte : UInt8 := 0x5F
def kKeySeparator : Bytes := [0x00, 0x01]

def originPrefix (origin : Bytes) : Bytes :=
  kKeyPrefixByte :: origin ++ kKeySeparator

def entryOf (start : Bytes) (e : Bytes × Bytes) : ChromiumEntry where
  key := (Text.ofUtf8 (e.1.drop start.length)).str
  value := decodeValue e.2

/-- The iterator gives up after so many entries. -/
structure Fault where
  after : Nat
  status : String

/-- What an iterator delivers from a key on, and its status behind that. -/
def iterator (db : Database) (fault : Option Fault) (start : Bytes) :
    List (Bytes × Bytes) × Option String :=
  match fault with
  | none => (seek start db.entries, none)
  | some f => ((seek start db.entries).take f.after, some f.status)

def readLoop (start : Bytes) (status : Option String) :
    List (Bytes × Bytes) → List ChromiumEntry × Option String
  | [] => ([], status)
  | e :: rest =>
      if !start.isPrefixOf e.1 then ([], none)
      else
        let (out, error) := readLoop start status rest
        (entryOf start e :: out, error)

def readOrigin (db : Database) (fault : Option Fault) (origin : Bytes) :
    List ChromiumEntry × Option String :=
  let start := originPrefix origin
  let (delivered, status) := iterator db fault start
  readLoop start status delivered

/-! ## `LegacyCrypto` -/

/-- Bytes of one length, as `RAND_bytes` fills them in. -/
abbrev Block (n : Nat) := { b : Bytes // b.length = n }

inductive Format
  | unknown
  | legacy
  | v2
  deriving DecidableEq

def kAesKeyLen : Nat := 32
def kAesIvLen : Nat := 16
def kV2KeyHexLen : Nat := kAesKeyLen * 2
def kV2IvHexLen : Nat := kAesIvLen * 2
def kLegacyPasswordHexLen : Nat := 512

/-- `v2:` -/
def kV2Prefix : Bytes := [0x76, 0x32, 0x3A]

def detectFormat (ciphertext : Bytes) : Format :=
  if kV2Prefix.isPrefixOf ciphertext then .v2
  else if ciphertext.length > kLegacyPasswordHexLen &&
      isHex (ciphertext.take kLegacyPasswordHexLen) then .legacy
  else .unknown

variable (ssl : OpenSsl)

def deriveLoop (password : Bytes) (want : Nat) : Nat → Bytes → Bytes → Bytes
  | 0, out, _ => out
  | fuel + 1, out, last =>
      if out.length < want then
        let last := ssl.md5 (last ++ password)
        deriveLoop password want fuel (out ++ last) last
      else out

/-- A digest adds a byte at least, so the length wanted is rounds enough. -/
def evpBytesToKeyMd5 (password : Bytes) (keyLen ivLen : Nat) : Bytes × Bytes :=
  let out := deriveLoop ssl password (keyLen + ivLen) (keyLen + ivLen) [] []
  (out.take keyLen, (out.drop keyLen).take ivLen)

def decrypt (ciphertext : Bytes) : Except String Bytes :=
  match detectFormat ciphertext with
  | .v2 =>
      let rest := ciphertext.drop kV2Prefix.length
      if rest.length < kV2KeyHexLen + kV2IvHexLen then
        .error "v2 envelope is too short to contain key+iv"
      else
        let key := fromHex (rest.take kV2KeyHexLen)
        let iv := fromHex ((rest.drop kV2KeyHexLen).take kV2IvHexLen)
        let ct := fromHex (rest.drop (kV2KeyHexLen + kV2IvHexLen))
        if key.length ≠ kAesKeyLen ∨ iv.length ≠ kAesIvLen then
          .error "v2 envelope has malformed hex key/iv"
        else ssl.aes256Ctr key iv ct
  | .legacy =>
      let pwdHex := ciphertext.take kLegacyPasswordHexLen
      let ctHex := ciphertext.drop kLegacyPasswordHexLen
      if !isHex ctHex then .error "legacy envelope ciphertext is not valid hex"
      else
        let (key, iv) := evpBytesToKeyMd5 ssl pwdHex kAesKeyLen kAesIvLen
        ssl.aes256Ctr key iv (fromHex ctHex)
  | .unknown =>
      .error "ciphertext does not match any known MeshCommander envelope"

/-- `encryptV2`, with what `RAND_bytes` fills the key and the counter block
with, if it does not fail. -/
def encryptV2 (key : Option (Block kAesKeyLen)) (iv : Option (Block kAesIvLen))
    (plaintext : Bytes) : Bytes :=
  match key, iv with
  | some key, some iv =>
      let ct := (ssl.aes256Ctr key iv plaintext).toOption.getD []
      if ct.isEmpty && !plaintext.isEmpty then []
      else kV2Prefix ++ toHex key ++ toHex iv ++ toHex ct
  | _, _ => []

/-! ## `Migrator` -/

variable (json : JsonText)

def kComputersKey : String := "computers"
def kCertificatesKey : String := "certificates"
def kStampFile : String := "migration.json"
def kComputersFile : String := "computers.json"
def kCertificatesFile : String := "certificates.json"
def kSettingsFile : String := "settings.json"

/-- What the file system answers a write; `unflushed` is noticed by nobody. -/
inductive Write
  | refused (reason : String)
  | short (kept : Nat) (reason : String)
  | unflushed (kept : Nat)
  | done
  deriving DecidableEq

/-- What a write leaves in a file. -/
def Write.leaves (contents : Bytes) (old : Option Bytes) :
    Write → Option Bytes
  | .refused _ => old
  | .short kept _ | .unflushed kept => some (contents.take kept)
  | .done => some contents

/-- The error, where one is noticed, and the file. -/
def writeFile (path : String) (contents : Bytes) (w : Write)
    (old : Option Bytes) : Option String × Option Bytes :=
  (match w with
    | .refused reason => some s!"could not write {path}: {reason}"
    | .short _ reason => some s!"short write to {path}: {reason}"
    | .unflushed _ | .done => none,
   w.leaves contents old)

/-- The list, and how long it is unless the entry is empty. -/
def decryptInto (e : ChromiumEntry) :
    Except String (List Json × Option Nat) :=
  if e.value.isEmpty then .ok ([], none)
  else
    match decrypt ssl e.value with
    | .error reason => .error s!"decrypting '{e.key}': {reason}"
    | .ok plaintext =>
        match json.parse plaintext with
        | .error reason =>
            .error s!"parsing decrypted '{e.key}' as JSON: {reason}"
        | .ok (.arr items) => .ok (items, some items.length)
        | .ok _ => .error s!"decrypted '{e.key}' was not a JSON array"

/-- `QJsonObject::insert`; the order of the fields is not kept track of. -/
def insertField (key : String) (v : Json) (fields : List (String × Json)) :
    List (String × Json) :=
  (key, v) :: fields.filter fun f => f.1 ≠ key

structure Gathered where
  computers : List Json := []
  certificates : List Json := []
  settings : List (String × Json) := []
  computersCount : Nat := 0
  certificatesCount : Nat := 0

/-- The loop over the entries, up to one that does not decrypt. -/
def gather : Gathered → List ChromiumEntry → Gathered × Option String
  | g, [] => (g, none)
  | g, e :: rest =>
      if e.key = kComputersKey then
        match decryptInto ssl json e with
        | .error reason => (g, some reason)
        | .ok (items, count) =>
            gather { g with
              computers := items
              computersCount := count.getD g.computersCount } rest
      else if e.key = kCertificatesKey then
        match decryptInto ssl json e with
        | .error reason => (g, some reason)
        | .ok (items, count) =>
            gather { g with
              certificates := items
              certificatesCount := count.getD g.certificatesCount } rest
      else
        gather { g with
          settings := insertField e.key (.str (.ofUtf8 e.value)) g.settings }
          rest

structure Options where
  legacyDataDir : String := ""
  outputDir : String := ""
  origin : String := "chrome-extension://gkmjdlhkgdlflppihloafibfdkhfnfco"
  overwrite : Bool := false

structure MigrationResult where
  ok : Bool := false
  error : String := ""
  computersCount : Nat := 0
  certificatesCount : Nat := 0
  settingsCount : Nat := 0
  legacyDataDirUsed : String := ""
  outputDirUsed : String := ""

/-- The output directory. -/
structure Disk where
  computers : Option Bytes := none
  certificates : Option Bytes := none
  settings : Option Bytes := none
  stamp : Option Bytes := none
  deriving DecidableEq

/-- What the platform answers a run; `opened` is an error of `open`. -/
structure Answers where
  defaultLegacyDataDir : String := ""
  defaultOutputDir : String := ""
  legacyIsDir : Bool := true
  mkpath : Bool := true
  opened : Option String := none
  database : Database
  fault : Option Fault := none
  now : String := ""
  computers : Write := .done
  certificates : Write := .done
  settings : Write := .done
  stamp : Write := .done

def textOf (s : String) : Text := .ofUtf8 s.toByteArray.data.toList

def originOf (opts : Options) : Bytes := opts.origin.toByteArray.data.toList

def stampOf (legacyDataDir : String) (a : Answers) (g : Gathered) : Json :=
  .obj [("at", .str (textOf a.now)), ("certificates", .int g.certificatesCount),
    ("computers", .int g.computersCount), ("from", .str (textOf legacyDataDir)),
    ("settings", .int g.settings.length)]

/-- The files, and then the stamp. -/
def writeAll (legacyDataDir outputDir : String) (a : Answers) (g : Gathered)
    (d : Disk) : Option String × Disk :=
  let path := fun name => outputDir ++ "/" ++ name
  match writeFile (path kComputersFile) (json.print false (.arr g.computers))
      a.computers d.computers with
  | (some error, file) => (some error, { d with computers := file })
  | (none, file) =>
  let d := { d with computers := file }
  match writeFile (path kCertificatesFile)
      (json.print false (.arr g.certificates)) a.certificates d.certificates with
  | (some error, file) => (some error, { d with certificates := file })
  | (none, file) =>
  let d := { d with certificates := file }
  match writeFile (path kSettingsFile) (json.print false (.obj g.settings))
      a.settings d.settings with
  | (some error, file) => (some error, { d with settings := file })
  | (none, file) =>
  let d := { d with settings := file }
  match writeFile (path kStampFile)
      (json.print false (stampOf legacyDataDir a g)) a.stamp d.stamp with
  | (some error, file) => (some error, { d with stamp := file })
  | (none, file) => (none, { d with stamp := file })

def run (opts : Options) (a : Answers) (d : Disk) : MigrationResult × Disk :=
  let legacyDataDir :=
    if opts.legacyDataDir.isEmpty then a.defaultLegacyDataDir
    else opts.legacyDataDir
  let outputDir :=
    if opts.outputDir.isEmpty then a.defaultOutputDir else opts.outputDir
  let result : MigrationResult :=
    { legacyDataDirUsed := legacyDataDir, outputDirUsed := outputDir }
  if !a.legacyIsDir then
    ({ result with
        error := s!"legacy data directory does not exist: {legacyDataDir}" }, d)
  else if !opts.overwrite && d.stamp.isSome then
    ({ result with
        error := s!"{outputDir} already contains a migration; " ++
          "pass overwrite to redo" }, d)
  else if !a.mkpath then
    ({ result with
        error := s!"could not create output directory: {outputDir}" }, d)
  else
    match a.opened with
    | some error => ({ result with error := s!"opening leveldb: {error}" }, d)
    | none =>
        match readOrigin a.database a.fault (originOf opts) with
        | ([], some error) =>
            ({ result with error := s!"reading origin: {error}" }, d)
        | (entries, _) =>
            let (g, error) := gather ssl json {} entries
            let result := { result with
              computersCount := g.computersCount
              certificatesCount := g.certificatesCount }
            match error with
            | some error => ({ result with error }, d)
            | none =>
                let result := { result with settingsCount := g.settings.length }
                match writeAll json legacyDataDir outputDir a g d with
                | (some error, d) => ({ result with error }, d)
                | (none, d) => ({ result with ok := true }, d)

/-! ## `MigrationController` -/

inductive State
  | idle
  | migrating
  | imported
  | failed
  | noLegacyData
  deriving DecidableEq, Repr

structure MigrationController where
  hasStore : Bool := true
  storeDir : String := ""
  legacyDataDirOverride : String := ""
  state : State := .idle
  message : String := ""
  computersImported : Nat := 0

def hasNativeConfig (d : Disk) : Bool := d.computers.isSome

def checkAndMaybeMigrate (c : MigrationController) (a : Answers) (d : Disk) :
    MigrationController × Disk :=
  if !c.hasStore then
    ({ c with
        message := "MigrationController has no ConfigStore", state := .failed }, d)
  else if hasNativeConfig d then ({ c with state := .idle }, d)
  else
    let legacyDir :=
      if c.legacyDataDirOverride.isEmpty then a.defaultLegacyDataDir
      else c.legacyDataDirOverride
    if !a.legacyIsDir then
      ({ c with
          message := s!"No legacy MeshCommander data found at {legacyDir}"
          state := .noLegacyData }, d)
    else
      let opts : Options :=
        { legacyDataDir := legacyDir, outputDir := c.storeDir }
      let (r, d) := run ssl json opts a d
      if !r.ok then ({ c with message := r.error, state := .failed }, d)
      else
        ({ c with
            computersImported := r.computersCount
            message := s!"Imported {r.computersCount} computers, " ++
              s!"{r.certificatesCount} certificates, " ++
              s!"{r.settingsCount} settings from {legacyDir}"
            state := .imported }, d)

end QuMesh.Migrate
