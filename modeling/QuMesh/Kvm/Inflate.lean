import QuMesh.Lib.Bytes

/-!
# The inflate stream of a session

zlib itself is not in the repository. `Zlib` is what the wrapper sees of it: a
stream state and the four calls, with the one documented fact the wrapper's
loop needs to end. A call that neither failed nor ended the stream has used up
its input without filling the output, or it got on: there is less left to read
and to write than there was. What a stream can still write is finite, because
its input is.
-/

namespace QuMesh.Kvm

open QuMesh.Lib

/-- The return codes the wrapper tells apart. -/
inductive ZCode
  | ok
  | streamEnd
  | bufError
  | error (rc : Int)
  deriving DecidableEq, Repr

/-- What one call of `::inflate` leaves behind: the stream, the input it did
not read, the output it wrote and its return code. -/
structure ZCall (State : Type) where
  zs : State
  left : Bytes
  produced : Bytes
  rc : ZCode

/-- A single rect's tile fits in one of these; the buffer is reused. -/
def kChunk : Nat := 16 * 1024

structure Zlib where
  State : Type
  /-- `inflateInit2(&zs, 15)`, and whether it said `Z_OK`. -/
  init : State
  initialized : Bool
  inflateReset : State → State
  /-- `::inflate(&zs, Z_SYNC_FLUSH)` on the input left, with an empty buffer of
  `kChunk` bytes. -/
  inflate : State → Bytes → ZCall State
  /-- How much a stream may still read and write. -/
  work : State → Bytes → Nat
  gets_on : ∀ zs input, (inflate zs input).rc = .ok ∨
      (inflate zs input).rc = .bufError →
    ¬ ((inflate zs input).left = [] ∧
      (inflate zs input).produced.length < kChunk) →
    work (inflate zs input).zs (inflate zs input).left < work zs input

/-- `InflateStream`: the zlib stream behind it. -/
structure InflateStream (z : Zlib) where
  zs : z.State := z.init

namespace InflateStream

variable {z : Zlib}

def reset (s : InflateStream z) : InflateStream z :=
  if z.initialized then { zs := z.inflateReset s.zs } else s

/-- The loop of `inflate`, and what was appended so far. `none` is the zlib
error that makes it return false. -/
def loop (zs : z.State) (input out : Bytes) :
    InflateStream z × Option Bytes :=
  let r := z.inflate zs input
  let out := out ++ r.produced
  if r.rc = .streamEnd then (⟨r.zs⟩, some out)
  else if _hrc : r.rc = .ok ∨ r.rc = .bufError then
    -- All input read and less than a full chunk: nothing more for now.
    if _hleft : r.left = [] ∧ r.produced.length < kChunk then
      (⟨r.zs⟩, some out)
    else loop r.zs r.left out
  else (⟨r.zs⟩, none)
termination_by z.work zs input
decreasing_by exact z.gets_on zs input _hrc _hleft

/-- One block into the session's stream. -/
def inflate (s : InflateStream z) (block : Bytes) :
    InflateStream z × Option Bytes :=
  if z.initialized then loop s.zs block [] else (s, none)

end InflateStream

/-! ## A zlib that only knows stored blocks

Enough of the real one to run a session on: the two header bytes and the
deflate blocks that are not compressed. -/

namespace Stored

inductive Stage
  | header
  | headerEnd (cmf : UInt8)
  | block
  | len
  | lenEnd (lo : UInt8)
  | nlen (n : Nat)
  | nlenEnd (n : Nat)
  | data (n : Nat)
  | bad
  deriving DecidableEq, Repr

/-- One byte of the stream that is not the content of a block. -/
def Stage.next (b : UInt8) : Stage → Stage
  | .header => .headerEnd b
  | .headerEnd cmf =>
      if cmf &&& 0x0F = 8 ∧ (cmf.toNat * 256 + b.toNat) % 31 = 0 then .block
      else .bad
  | .block => if b &&& 0x07 = 0 then .len else .bad
  | .len => .lenEnd b
  | .lenEnd lo => .nlen (lo.toNat + 256 * b.toNat)
  | .nlen n => .nlenEnd n
  | .nlenEnd n => if n = 0 then .block else .data n
  | .data n => .data n
  | .bad => .bad

/-- Read while there is input, and room for what it yields. -/
def go : Stage → Bytes → Nat → Stage × Bytes × Bytes
  | s, [], _ => (s, [], [])
  | .data n, b :: rest, room =>
      if room = 0 then (.data n, b :: rest, [])
      else
        let r := go (if n = 1 then .block else .data (n - 1)) rest (room - 1)
        (r.1, r.2.1, b :: r.2.2)
  | s, b :: rest, room => go (s.next b) rest room

theorem go_left (s : Stage) (input : Bytes) {room : Nat} (hroom : 0 < room) :
    (go s input room).2.1.length ≤ input.length ∧
      (input ≠ [] → (go s input room).2.1.length < input.length) := by
  have hle : ∀ (input : Bytes) (s : Stage) (room : Nat),
      (go s input room).2.1.length ≤ input.length := by
    intro input
    induction input with
    | nil => intro s room; simp [go]
    | cons b rest ih =>
        intro s room
        cases s with
        | data n =>
            rw [go]
            split
            · exact Nat.le_refl _
            · exact Nat.le_succ_of_le (ih _ _)
        | _ => exact Nat.le_succ_of_le (ih _ _)
  refine ⟨hle input s room, fun hne => ?_⟩
  cases input with
  | nil => exact absurd rfl hne
  | cons b rest =>
      cases s with
      | data n =>
          rw [go, if_neg (by omega)]
          exact Nat.lt_succ_of_le (hle _ _ _)
      | _ => exact Nat.lt_succ_of_le (hle rest _ room)

end Stored

def Zlib.stored : Zlib where
  State := Stored.Stage
  init := .header
  initialized := true
  inflateReset := fun _ => .header
  inflate := fun s input =>
    let r := Stored.go s input kChunk
    { zs := r.1
      left := r.2.1
      produced := r.2.2
      rc := if r.1 = .bad then .error (-3)
        else if input = [] then .bufError else .ok }
  work := fun _ input => input.length
  gets_on := by
    intro s input _ hmore
    obtain ⟨-, hlt⟩ := Stored.go_left s input (show 0 < kChunk by decide)
    refine hlt fun hempty => hmore ?_
    subst hempty
    have hnone : Stored.go s [] kChunk = (s, [], []) := by cases s <;> rfl
    dsimp only
    rw [hnone]
    exact ⟨rfl, show 0 < kChunk by decide⟩

end QuMesh.Kvm
