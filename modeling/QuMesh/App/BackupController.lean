import QuMesh.App.BackupCodec
import QuMesh.App.ComputerModel

/-!
# `BackupController`

Export writes the whole list to a file, sealed under a password. Import has two
stages: the file is read and compared with the list first, and what was planned
is applied when the user has confirmed it. The model may be gone, and what the
file system answers is an argument.
-/

namespace QuMesh.App

open QuMesh.Lib

structure FileUrl where
  isLocalFile : Bool := true
  toLocalFile : String := ""
  toString : String := ""

def FileUrl.path (u : FileUrl) : String :=
  if u.isLocalFile then u.toLocalFile else u.toString

/-- `QFileInfo::fileName` -/
def fileName (path : String) : String := (path.splitOn "/").getLastD ""

/-- What the file system answers an export. -/
inductive Exporting where
  | refused (reason : String)
  | failed (reason : String)
  | done

/-- A file to import: the size that is reported, and what is read of it. -/
structure BackupFile where
  size : Nat
  contents : Except String Bytes

/-- A file as it was written. -/
def BackupFile.of (bytes : Bytes) : BackupFile :=
  { size := bytes.length, contents := .ok bytes }

namespace BackupController

inductive State where
  | idle
  | working
  | needsConfirm
  | done
  | failed
  deriving DecidableEq

inductive Error where
  | none
  | badFile
  | badFormat
  | badPassword
  | corrupt
  | writeFailed
  | saveFailed
  | internal
  deriving DecidableEq

end BackupController

structure BackupController where
  state : BackupController.State := .idle
  message : String := ""
  lastError : BackupController.Error := .none
  pendingPlan : List ImportPlanEntry := []
  addCount : Nat := 0
  updateCount : Nat := 0

namespace BackupController

def setError (e : Error) (message : String) (c : BackupController) :
    BackupController :=
  { c with lastError := e, message, state := .failed }

def clearPreview (c : BackupController) : BackupController :=
  { c with pendingPlan := [], addCount := 0, updateCount := 0 }

def errorOf : BackupCodec.FailReason → Error
  | .badFormat => .badFormat
  | .badPassword => .badPassword
  | .corrupt => .corrupt
  | .internal => .internal

variable (json : JsonText) (ssl : BackupCodec.OpenSsl)

/-- Whether it succeeds, the controller, and the file that was written. -/
def exportTo (a : BackupCodec.Fresh) (w : Exporting) (url : FileUrl)
    (password : Text) (m : Option ComputerModel) (c : BackupController) :
    Bool × BackupController × Option Bytes :=
  if c.state = .working then (false, c, none)
  else
    match m with
    | none => (false, c.setError .internal "No machine model attached", none)
    | some m =>
        if password.isEmpty then
          (false, c.setError .badPassword "A password is required to export",
            none)
        else
          let c := c.clearPreview
          let path := url.path
          if path.isEmpty then
            (false, c.setError .writeFailed "No destination file selected",
              none)
          else
            let c := { c with state := .working, lastError := .none }
            let portable := m.computers.map fun x => .obj x.toPortableJson
            match BackupCodec.encode ssl json a portable password with
            | .error reason =>
                (false, c.setError .internal s!"Encryption failed: {reason}",
                  none)
            | .ok bytes =>
                match w with
                | .refused reason =>
                    (false, c.setError .writeFailed
                      s!"Couldn't open {path} for writing: {reason}", none)
                | .failed reason =>
                    (false, c.setError .writeFailed
                      s!"Couldn't write backup to {path}: {reason}", none)
                | .done =>
                    let n := m.computers.length
                    let name := fileName path
                    (true, { c with
                      message := s!"Exported {n} machine(s) to {name}",
                      state := .done }, some bytes)

/-- The computers of a backup; `fresh` has the uuids of those without an id. -/
def incomingOf (fresh : Nat → Text) (items : List Json) : List Computer :=
  (items.filter Json.isObject).mapIdx fun i v =>
    .fromPortableJson (fresh i) v.toObject

def isUpdate (e : ImportPlanEntry) : Bool := e.matched = .importUpdate

def prepareImport (fold : Text → Text) (fresh : Nat → Text)
    (file : Option BackupFile) (url : FileUrl) (password : Text)
    (m : Option ComputerModel) (c : BackupController) :
    Bool × BackupController :=
  if c.state = .working then (false, c)
  else
    let c := c.clearPreview
    match m with
    | none => (false, c.setError .internal "No machine model attached")
    | some m =>
        if password.isEmpty then
          (false, c.setError .badPassword
            "A password is required to unlock the backup")
        else
          let path := url.path
          match file with
          | none => (false, c.setError .badFile s!"Couldn't find {path}")
          | some file =>
              if BackupCodec.kMaxFileBytes < file.size then
                (false, c.setError .badFormat
                  "Backup file is too large to be a QuMesh backup")
              else
                match file.contents with
                | .error reason =>
                    (false, c.setError .badFile
                      s!"Couldn't open {path}: {reason}")
                | .ok bytes =>
                    let c := { c with state := .working, lastError := .none }
                    match BackupCodec.decode ssl json bytes password with
                    | .error (reason, error) =>
                        (false, c.setError (errorOf reason) error)
                    | .ok items =>
                        let plan := m.planImport fold (incomingOf fresh items)
                        let updated := plan.countP isUpdate
                        let added := plan.countP fun e => !isUpdate e
                        (true, { c with
                          pendingPlan := plan,
                          addCount := added,
                          updateCount := updated,
                          message :=
                            s!"Ready to import: {added} new, {updated} updated",
                          state := .needsConfirm })

/-- Whether it succeeds, the controller and the model. -/
def applyImport (aes : AesCtr) (a : Platform) (m : Option ComputerModel)
    (c : BackupController) :
    Bool × BackupController × Option ComputerModel :=
  if c.state ≠ .needsConfirm then
    (false, c.setError .internal "No import is awaiting confirmation", m)
  else
    match m with
    | none =>
        (false, c.setError .internal "No machine model attached", none)
    | some m =>
        let c := { c with state := .working }
        match m.applyImport json aes a c.pendingPlan with
        | (false, m) =>
            let reason := m.lastError
            (false, (c.setError .saveFailed
              s!"Saving the imported list failed: {reason}").clearPreview,
              some m)
        | (true, m) =>
            let added := c.addCount
            let updated := c.updateCount
            (true, { c.clearPreview with
              message := s!"Imported {added} new and updated {updated} existing" ++
                " machine(s)",
              state := .done }, some m)

end BackupController

end QuMesh.App
