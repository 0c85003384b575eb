import Mathlib.Tactic.Common

/-!
# XML, token by token

A stream reader hands out tokens, and it stops at the end of the document or
where the document is at fault; what is read here is the list of tokens up to
there. A document without a fault is the token list of a tree, and a reader that
walks the list sees the tree from the left to the right: what it does between
the first token of a node and the last one is one step, which is what the
lemmas on `tokens` are for. Comments, processing instructions and the XML
declaration are no tokens here.

A writer takes the same tokens, and reading back what it wrote brings them
again, up to the end of the first element: what is written behind that is
outside the document.
-/

namespace QuMesh.Lib.Xml

structure Attribute where
  namespaceUri : String
  name : String
  value : String
  deriving DecidableEq, Repr

inductive Token
  | startElement (namespaceUri name : String) (attributes : List Attribute)
  | characters (text : String)
  | endElement
  deriving DecidableEq, Repr

inductive Node
  | element (namespaceUri name : String) (attributes : List Attribute)
      (children : List Node)
  | text (text : String)
  deriving Repr

/-! ## Trees -/

mutual

def Node.tokens : Node → List Token
  | .element ns name attributes children =>
      .startElement ns name attributes :: (allTokens children ++ [.endElement])
  | .text text => [.characters text]

def allTokens : List Node → List Token
  | [] => []
  | n :: rest => n.tokens ++ allTokens rest

end

mutual

/-- The text in a node, with the text of the elements in it. -/
def Node.innerText : Node → String
  | .element _ _ _ children => allInnerText children
  | .text text => text

def allInnerText : List Node → String
  | [] => ""
  | n :: rest => n.innerText ++ allInnerText rest

end

mutual

/-- A property of the name of every element in a node. -/
def Node.every (p : String → String → Bool) : Node → Bool
  | .element ns name _ children => p ns name && everyIn p children
  | .text _ => true

def everyIn (p : String → String → Bool) : List Node → Bool
  | [] => true
  | n :: rest => n.every p && everyIn p rest

end

def Node.isText : Node → Bool
  | .text _ => true
  | .element .. => false

/-- The induction on nodes that goes with lists of them. -/
theorem Node.induct {P : Node → Prop} {Q : List Node → Prop}
    (element : ∀ ns name attributes children, Q children →
      P (.element ns name attributes children))
    (text : ∀ text, P (.text text)) (nil : Q [])
    (cons : ∀ n rest, P n → Q rest → Q (n :: rest)) :
    (∀ n, P n) ∧ ∀ ns, Q ns := by
  have hnode : ∀ n, P n := fun n =>
    @Node.rec P Q element text nil cons n
  refine ⟨hnode, fun ns => ?_⟩
  induction ns with
  | nil => exact nil
  | cons n rest ih => exact cons n rest (hnode n) ih

theorem allTokens_append (xs ys : List Node) :
    allTokens (xs ++ ys) = allTokens xs ++ allTokens ys := by
  induction xs with
  | nil => rfl
  | cons n xs ih => simp [allTokens, ih]

/-! ## The text of an element -/

/-- Behind the start of an element: its text, and what is left to read. An
element in it raises an error, and then nothing more is read. -/
def readElementText : List Token → String × List Token
  | [] => ("", [])
  | .startElement .. :: _ => ("", [])
  | .endElement :: r => ("", r)
  | .characters text :: r =>
      let (more, r) := readElementText r
      (text ++ more, r)

/-- The same with the text of the elements in it; `depth` is how many of them
are open. -/
def readAllText (depth : Nat) : List Token → String × List Token
  | [] => ("", [])
  | .startElement .. :: r => readAllText (depth + 1) r
  | .endElement :: r =>
      match depth with
      | 0 => ("", r)
      | depth + 1 => readAllText depth r
  | .characters text :: r =>
      let (more, r) := readAllText depth r
      (text ++ more, r)

theorem readElementText_suffix (r : List Token) : (readElementText r).2 <:+ r := by
  induction r with
  | nil => exact List.suffix_rfl
  | cons t r ih =>
      cases t with
      | startElement ns name attributes => exact List.nil_suffix
      | endElement => exact List.suffix_cons _ r
      | characters text => exact ih.trans (List.suffix_cons _ r)

theorem readAllText_suffix (depth : Nat) (r : List Token) :
    (readAllText depth r).2 <:+ r := by
  induction r generalizing depth with
  | nil => exact List.suffix_rfl
  | cons t r ih =>
      cases t with
      | startElement ns name attributes =>
          exact (ih _).trans (List.suffix_cons _ r)
      | endElement =>
          cases depth with
          | zero => exact List.suffix_cons _ r
          | succ depth => exact (ih _).trans (List.suffix_cons _ r)
      | characters text => exact (ih _).trans (List.suffix_cons _ r)

theorem readElementText_length (r : List Token) :
    (readElementText r).2.length ≤ r.length :=
  (readElementText_suffix r).length_le

theorem readAllText_length (depth : Nat) (r : List Token) :
    (readAllText depth r).2.length ≤ r.length :=
  (readAllText_suffix depth r).length_le

/-- An element that holds text alone is read whole. -/
theorem readElementText_text {children : List Node}
    (h : ∀ n ∈ children, n.isText = true) (r : List Token) :
    readElementText (allTokens children ++ .endElement :: r) =
      (allInnerText children, r) := by
  induction children with
  | nil => rfl
  | cons n rest ih =>
      rw [List.forall_mem_cons] at h
      cases n with
      | element ns name attributes kids => cases h.1
      | text text =>
          have hrest := ih h.2
          simp only [allTokens, Node.tokens, List.cons_append, List.nil_append,
            readElementText, hrest, allInnerText, Node.innerText]

/-! ## Writing -/

/-- What was written, and how many elements are open. -/
structure Writer where
  written : List Token := []
  opened : Nat := 0
  deriving DecidableEq, Repr

namespace Writer

def writeStartElement (ns name : String) (attributes : List Attribute)
    (w : Writer) : Writer where
  written := w.written ++ [.startElement ns name attributes]
  opened := w.opened + 1

def writeCharacters (text : String) (w : Writer) : Writer :=
  { w with written := w.written ++ [.characters text] }

/-- Nothing is written where no element is open. -/
def writeEndElement (w : Writer) : Writer :=
  match w.opened with
  | 0 => w
  | opened + 1 => { written := w.written ++ [.endElement], opened }

/-- A node was written, whole. -/
def writeTokens (tokens : List Token) (w : Writer) : Writer :=
  { w with written := w.written ++ tokens }

@[simp] theorem writeTokens_nil (w : Writer) : w.writeTokens [] = w := by
  simp [writeTokens]

@[simp] theorem writeTokens_writeTokens (a b : List Token) (w : Writer) :
    (w.writeTokens a).writeTokens b = w.writeTokens (a ++ b) := by
  simp [writeTokens]

theorem writeCharacters_eq (text : String) (w : Writer) :
    w.writeCharacters text = w.writeTokens [.characters text] := rfl

/-- An element that is opened and closed around what is written whole. -/
theorem writeElement (ns name : String) (attributes : List Attribute)
    (children : List Node) (w : Writer) :
    ((w.writeStartElement ns name attributes).writeTokens
        (allTokens children)).writeEndElement =
      w.writeTokens (Node.element ns name attributes children).tokens := by
  simp [writeTokens, writeEndElement, writeStartElement, Node.tokens]

end Writer

/-! ## Reading back -/

/-- What is read of what was written, with `depth` elements open: it ends with
the first element. -/
def readBack (depth : Nat) : List Token → List Token
  | [] => []
  | .startElement ns name attributes :: r =>
      .startElement ns name attributes :: readBack (depth + 1) r
  | .endElement :: r =>
      match depth with
      | 0 => []
      | 1 => [.endElement]
      | depth + 2 => .endElement :: readBack (depth + 1) r
  | .characters text :: r =>
      if depth = 0 then [] else .characters text :: readBack depth r

/-- Inside an element a node is read back whole. -/
theorem readBack_tokens :
    (∀ n : Node, ∀ depth r, readBack (depth + 1) (n.tokens ++ r) =
      n.tokens ++ readBack (depth + 1) r) ∧
    ∀ ns : List Node, ∀ depth r, readBack (depth + 1) (allTokens ns ++ r) =
      allTokens ns ++ readBack (depth + 1) r := by
  refine Node.induct ?_ ?_ ?_ ?_
  · intro ns name attributes children ih depth r
    simp only [Node.tokens, List.cons_append, List.append_assoc, readBack]
    rw [ih (depth + 1)]
    simp [readBack]
  · intro text depth r
    simp [Node.tokens, readBack]
  · intro depth r
    rfl
  · intro n rest hn hrest depth r
    simp only [allTokens, List.append_assoc]
    rw [hn, hrest]

/-- An element is read back, and nothing behind it. -/
theorem readBack_element (ns name : String) (attributes : List Attribute)
    (children : List Node) (r : List Token) :
    readBack 0 ((Node.element ns name attributes children).tokens ++ r) =
      (Node.element ns name attributes children).tokens := by
  simp only [Node.tokens, List.cons_append, List.append_assoc, readBack]
  rw [readBack_tokens.2 children 0]
  simp [readBack]

end QuMesh.Lib.Xml
