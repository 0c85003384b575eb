import QuMesh.Lib.Json

/-!
# `ConfigStore`

The list of computers on disk. A file that is replaced is replaced as a whole,
by a rename, so a write that fails leaves it as it was. What the file system
answers is an argument of each call.
-/

namespace QuMesh.App

open QuMesh.Lib

/-- What the file system answers a read: that there is no file, that it does
not open, or its contents, up to where an error ends them. -/
inductive Reading where
  | unseen
  | refused (reason : String)
  | data (limit : Option Nat)

/-- What the file system answers a write. -/
inductive Writing where
  | noDir
  | refused (reason : String)
  | short (reason : String)
  | uncommitted (reason : String)
  | done
  deriving DecidableEq

/-- `file` is the file on disk. `saves` is every array that a save put there,
the last one at the end; no function reads it. -/
structure ConfigStore where
  dir : String := ""
  file : Option Bytes := none
  lastError : String := ""
  saves : List (List Json) := []

namespace ConfigStore

def kComputersFile : String := "computers.json"

def pathFor (s : ConfigStore) (name : String) : String := s.dir ++ "/" ++ name

/-- The bytes that were read, and the store with the error. -/
def readFile (s : ConfigStore) (name : String) (r : Reading) :
    Bytes × ConfigStore :=
  let s := { s with lastError := "" }
  let path := s.pathFor name
  match s.file with
  | none => ([], s)
  | some b =>
      match r with
      | .unseen => ([], s)
      | .refused reason =>
          ([], { s with lastError := s!"could not open {path}: {reason}" })
      | .data none => (b, s)
      | .data (some n) => (b.take n, s)

def writeFile (s : ConfigStore) (name : String) (bytes : Bytes) (w : Writing) :
    Bool × ConfigStore :=
  let s := { s with lastError := "" }
  let path := s.pathFor name
  let dir := s.dir
  match w with
  | .noDir => (false, { s with lastError := s!"could not create {dir}" })
  | .refused reason =>
      (false, { s with
        lastError := s!"could not open {path} for writing: {reason}" })
  | .short reason =>
      (false, { s with lastError := s!"short write to {path}: {reason}" })
  | .uncommitted reason =>
      (false, { s with lastError := s!"could not commit {path}: {reason}" })
  | .done => (true, { s with file := some bytes })

variable (json : JsonText)

def loadComputers (s : ConfigStore) (r : Reading) : List Json × ConfigStore :=
  let (bytes, s) := s.readFile kComputersFile r
  if bytes.isEmpty then ([], s)
  else
    let failed := fun reason => ([], { s with
      lastError := s!"computers.json is not a JSON array: {reason}" })
    match json.parse bytes with
    | .ok (.arr items) => (items, s)
    | .ok _ => failed "no error occurred"
    | .error reason => failed reason

def saveComputers (s : ConfigStore) (arr : List Json) (w : Writing) :
    Bool × ConfigStore :=
  match s.writeFile kComputersFile (json.print false (.arr arr)) w with
  | (true, s) => (true, { s with saves := s.saves ++ [arr] })
  | (false, s) => (false, s)

end ConfigStore

end QuMesh.App
