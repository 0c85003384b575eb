import QuMesh.Lib.Bytes

/-!
# Boxes

A box is a size of four bytes, a kind of four bytes and a payload; the size
counts all three. Boxes follow one another to the end of a file, and a payload
may be made of boxes itself, behind a head of its own.

A reader of boxes trusts the sizes, so it finds what was put there where every
size is right. `boxes_flatMap` says so of a row of boxes that together stay
below the largest size, which is all that is asked of it: what is inside is
smaller.
-/

namespace QuMesh.Lib

/-- A box as it stands in a file. -/
def box (kind payload : Bytes) : Bytes :=
  pack32Be (8 + payload.length) ++ kind ++ payload

/-- Take a box off the front: its kind, its payload, and what is left. -/
def readBox (b : Bytes) : Option ((Bytes × Bytes) × Bytes) :=
  let size := read32Be b 0
  if b.length < 8 ∨ size < 8 ∨ b.length < size then none
  else some (((b.drop 4).take 4, (b.take size).drop 8), b.drop size)

/-- The boxes at the front, and what is left behind them. A box takes bytes, so
the length is fuel enough. -/
def readBoxes : Nat → Bytes → List (Bytes × Bytes) × Bytes
  | 0, b => ([], b)
  | fuel + 1, b =>
      match readBox b with
      | none => ([], b)
      | some (x, rest) =>
          let (xs, left) := readBoxes fuel rest
          (x :: xs, left)

def boxes (b : Bytes) : List (Bytes × Bytes) × Bytes := readBoxes b.length b

/-- The bytes are boxes up to the end, and so is what stands in a box behind its
head, down to the depth. A kind without a head holds no boxes. -/
def tiled (head : Bytes → Option Nat) : Nat → Bytes → Bool
  | 0, _ => false
  | depth + 1, b =>
      (boxes b).2.isEmpty && (boxes b).1.all fun x =>
        match head x.1 with
        | none => true
        | some n => decide (n ≤ x.2.length) && tiled head depth (x.2.drop n)

/-- The payload of the first box of a kind. -/
def child (kind b : Bytes) : Option Bytes :=
  ((boxes b).1.find? fun x => x.1 = kind).map (·.2)

/-- The payload at the end of a path of boxes. -/
def descend : List Bytes → Bytes → Option Bytes
  | [], b => some b
  | kind :: path, b => (child kind b).bind (descend path)

/-! ## What was put there is read -/

theorem box_length {kind : Bytes} (hkind : kind.length = 4) (payload : Bytes) :
    (box kind payload).length = 8 + payload.length := by
  rw [box, List.length_append, List.length_append, hkind]
  rfl

theorem readBox_box {kind payload : Bytes} (hkind : kind.length = 4)
    (hsize : 8 + payload.length < 2 ^ 32) (rest : Bytes) :
    readBox (box kind payload ++ rest) = some ((kind, payload), rest) := by
  have hlength := box_length hkind payload
  have hread : read32Be (box kind payload ++ rest) 0 = 8 + payload.length := by
    rw [box, List.append_assoc, List.append_assoc, read32Be_pack,
      Nat.mod_eq_of_lt hsize]
  have hfour : (pack32Be (8 + payload.length)).length = 4 := rfl
  have hkind' : ((box kind payload ++ rest).drop 4).take 4 = kind := by
    rw [box, List.append_assoc, List.append_assoc,
      List.drop_left' hfour, List.take_left' hkind]
  have hpayload : ((box kind payload ++ rest).take (8 + payload.length)).drop 8 =
      payload := by
    rw [List.take_left' hlength, box]
    refine List.drop_left' ?_
    rw [List.length_append, hfour, hkind]
  rw [readBox, hread, if_neg (by rw [List.length_append]; omega), hkind', hpayload,
    List.drop_left' hlength]

theorem readBox_shorter {b rest : Bytes} {x : Bytes × Bytes}
    (h : readBox b = some (x, rest)) : rest.length < b.length := by
  rw [readBox] at h
  split at h
  · cases h
  · cases h
    rw [List.length_drop]
    omega

/-- More fuel finds no more. -/
theorem readBoxes_fuel {n m : Nat} {b : Bytes} (hn : b.length ≤ n)
    (hm : b.length ≤ m) : readBoxes n b = readBoxes m b := by
  have hnil : ∀ k, readBoxes k [] = ([], []) := by
    intro k
    cases k <;> rfl
  induction n generalizing m b with
  | zero =>
      obtain rfl := List.length_eq_zero_iff.mp (Nat.le_zero.mp hn)
      rw [hnil, hnil]
  | succ n ih =>
      cases m with
      | zero =>
          obtain rfl := List.length_eq_zero_iff.mp (Nat.le_zero.mp hm)
          rw [hnil, hnil]
      | succ m =>
          rw [readBoxes, readBoxes]
          cases hread : readBox b with
          | none => rfl
          | some found =>
              have hless : found.2.length < b.length := readBox_shorter hread
              dsimp only
              rw [ih (m := m) (by omega) (by omega)]

theorem boxes_box {kind payload rest : Bytes} (hkind : kind.length = 4)
    (hsize : 8 + payload.length < 2 ^ 32) :
    boxes (box kind payload ++ rest) =
      ((kind, payload) :: (boxes rest).1, (boxes rest).2) := by
  have hlength := box_length hkind payload
  have hfuel : (box kind payload ++ rest).length =
      (7 + payload.length + rest.length) + 1 := by
    rw [List.length_append]
    omega
  rw [boxes, hfuel, readBoxes, readBox_box hkind hsize]
  dsimp only
  rw [readBoxes_fuel (m := rest.length) (by omega) (Nat.le_refl _)]
  rfl

/-- A row of boxes. -/
def row (xs : List (Bytes × Bytes)) : Bytes := xs.flatMap fun x => box x.1 x.2

theorem boxes_row {xs : List (Bytes × Bytes)} (hkind : ∀ x ∈ xs, x.1.length = 4)
    (hsize : (row xs).length < 2 ^ 32) : boxes (row xs) = (xs, []) := by
  induction xs with
  | nil => rfl
  | cons x xs ih =>
      rw [List.forall_mem_cons] at hkind
      have hcons : row (x :: xs) = box x.1 x.2 ++ row xs := rfl
      have hlength := box_length hkind.1 x.2
      rw [hcons, List.length_append] at hsize
      rw [hcons, boxes_box hkind.1 (by omega), ih hkind.2 (by omega)]

/-- What stands in a box of a row is shorter than the row. -/
theorem length_le_row {xs : List (Bytes × Bytes)} {x : Bytes × Bytes}
    (hx : x ∈ xs) : x.2.length ≤ (row xs).length := by
  induction xs with
  | nil => cases hx
  | cons y xs ih =>
      have hcons : row (y :: xs) = box y.1 y.2 ++ row xs := rfl
      rw [hcons, List.length_append]
      rcases List.mem_cons.mp hx with rfl | hx
      · rw [box, List.length_append]
        omega
      · have hrest := ih hx
        omega

theorem child_row {xs : List (Bytes × Bytes)} (hkind : ∀ x ∈ xs, x.1.length = 4)
    (hsize : (row xs).length < 2 ^ 32) (kind : Bytes) :
    child kind (row xs) = (xs.find? fun x => x.1 = kind).map (·.2) := by
  rw [child, boxes_row hkind hsize]

/-- One step of a path, which ends in something smaller. -/
theorem descend_row {xs : List (Bytes × Bytes)} {payload : Bytes}
    (kind : Bytes) (hkind : ∀ x ∈ xs, x.1.length = 4) (hsize : (row xs).length < 2 ^ 32)
    (hfind : xs.find? (fun x => x.1 = kind) = some (kind, payload))
    (path : List Bytes) :
    descend (kind :: path) (row xs) = descend path payload ∧
      payload.length < 2 ^ 32 := by
  have hle := length_le_row (List.mem_of_find?_eq_some hfind)
  refine ⟨?_, Nat.lt_of_le_of_lt hle hsize⟩
  rw [descend, child_row hkind hsize, hfind]
  rfl

/-- The boxes of a file that is not too long are where their sizes say. -/
def Tiles (head : Bytes → Option Nat) (depth : Nat) (b : Bytes) : Prop :=
  b.length < 2 ^ 32 → tiled head depth b = true

theorem Tiles.row {head : Bytes → Option Nat} {depth : Nat}
    {xs : List (Bytes × Bytes)}
    (h : ∀ x ∈ xs, x.1.length = 4 ∧ ∀ n, head x.1 = some n →
      n ≤ x.2.length ∧ Tiles head depth (x.2.drop n)) :
    Tiles head (depth + 1) (row xs) := by
  intro hsize
  rw [tiled, boxes_row (fun x hx => (h x hx).1) hsize, List.isEmpty_nil,
    Bool.true_and, List.all_eq_true]
  intro x hx
  split
  · rfl
  · next n hn =>
    obtain ⟨hle, hinner⟩ := (h x hx).2 n hn
    have hless : x.2.length ≤ (Lib.row xs).length := length_le_row hx
    rw [decide_eq_true hle, Bool.true_and]
    refine hinner ?_
    rw [List.length_drop]
    omega

end QuMesh.Lib
