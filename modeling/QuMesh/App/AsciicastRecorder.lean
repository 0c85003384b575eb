import QuMesh.Lib.Json

/-!
# The asciicast recorder

A recording of a serial-over-LAN session: a header, and one event for each
`pushBytes`, every one a line with a JSON document on it. The disk keeps the
documents, under the paths of the files. A time is whatever number the timer
gave at the call.

An event is text, and a character may come in two reads. What is not complete at
the end of a read is held back in `tail`, and put in front of the next one.
-/

namespace QuMesh.App

open QuMesh.Lib

/-- How many bytes the sequence of a lead byte has, of one that can be any. -/
def neededBytes (b : UInt8) : Option Nat :=
  if b &&& 0xE0 = 0xC0 then some 2
  else if b &&& 0xF0 = 0xE0 then some 3
  else if b &&& 0xF8 = 0xF0 then some 4
  else none

/-- The way back over the last bytes, the last one first; `back` counts them. -/
def lookBack (back : Nat) : Bytes → Nat
  | [] => 0
  | b :: before =>
      if b &&& 0x80 = 0 then 0
      else if b &&& 0xC0 = 0x80 then lookBack (back + 1) before
      else
        match neededBytes b with
        | none => 0
        | some needed => if back < needed then back else 0

def incompleteUtf8TailLen (bytes : Bytes) : Nat :=
  lookBack 1 (bytes.reverse.take 3)

structure AsciicastRecorder where
  disk : Text → List Json
  /-- The file that is open. -/
  file : Option Text := none
  tail : Bytes := []

namespace AsciicastRecorder

def isRecording (r : AsciicastRecorder) : Bool := r.file.isSome

def event (elapsed : Json) (text : Text) : Json :=
  .arr [elapsed, .str (.lit "o"), .str text]

/-- What `write` returns is not looked at; a write that fails is not modelled. -/
def writeLine (r : AsciicastRecorder) (path : Text) (line : Json) :
    AsciicastRecorder :=
  { r with disk := fun p => if p = path then r.disk p ++ [line] else r.disk p }

def stop (r : AsciicastRecorder) (elapsed : Json) : AsciicastRecorder :=
  match r.file with
  | none => { r with tail := [] }
  | some path =>
      let r :=
        if r.tail.isEmpty then r
        else { r.writeLine path (event elapsed (.ofUtf8 r.tail)) with tail := [] }
      { r with file := none }

/-- A call of `start`: the time of an old recording that it ends, the time of
day, and what the file system does. -/
structure Opening where
  elapsed : Json
  now : Int
  opens : Bool
  writesHeader : Bool

def header (now : Int) (cols rows : Int) (title : Text) : Json :=
  .obj ([("height", .int rows), ("timestamp", .int now)] ++
    (if title.isEmpty then [] else [("title", .str title)]) ++
    [("version", .int 2), ("width", .int cols)])

def start (r : AsciicastRecorder) (o : Opening) (path : Text) (cols rows : Int)
    (title : Text) : Bool × AsciicastRecorder :=
  let r := if r.isRecording then r.stop o.elapsed else r
  if path.isEmpty || decide (cols ≤ 0) || decide (rows ≤ 0) then (false, r)
  else if !o.opens then (false, r)
  else
    let r := { r with disk := fun p => if p = path then [] else r.disk p }
    if !o.writesHeader then (false, r)
    else
      (true, { r.writeLine path (header o.now cols rows title) with
        file := some path
        tail := [] })

def pushBytes (r : AsciicastRecorder) (elapsed : Json) (bytes : Bytes) :
    AsciicastRecorder :=
  match r.file with
  | none => r
  | some path =>
      if bytes.isEmpty then r
      else
        let buf := r.tail ++ bytes
        let tailLen := incompleteUtf8TailLen buf
        let r := { r with tail := buf.drop (buf.length - tailLen) }
        let buf := buf.take (buf.length - tailLen)
        if buf.isEmpty then r
        else r.writeLine path (event elapsed (.ofUtf8 buf))

/-! ## Reading a recording -/

/-- The text of an output event. -/
def outputText : Json → Text
  | .arr [_, .str kind, .str text] =>
      if kind = .lit "o" then text else .empty
  | _ => .empty

/-- The output texts of a recording, one behind the other. -/
def recordedText (lines : List Json) : Text :=
  lines.foldl (fun all line => all ++ outputText line) .empty

end AsciicastRecorder

/-- The euro sign, by the byte: nothing is complete before its last one. -/
example : [[], [0xE2], [0xE2, 0x82], [0xE2, 0x82, 0xAC], [0x41, 0xF0, 0x9F]].map
    incompleteUtf8TailLen = [0, 1, 2, 0, 2] := by decide

end QuMesh.App
