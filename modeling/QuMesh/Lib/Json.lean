import QuMesh.Lib.Text

/-!
# JSON values

A value of another kind than the one asked for, or none at all, reads as the
default of the kind: this is what makes the records built from JSON total. Of a
number that is no integer only that is kept.

Text in and out is a parameter, `JsonText`: a printer and a parser of which
all that is known is that a printed document parses to what it was.
-/

namespace QuMesh.Lib

inductive Json
  | null
  | bool (b : Bool)
  | int (n : Int)
  | fraction
  | str (t : Text)
  | arr (items : List Json)
  | obj (fields : List (String × Json))

namespace Json

def toText : Json → Text
  | .str t => t
  | _ => .empty

def toBool : Json → Bool
  | .bool b => b
  | _ => false

/-- `QJsonValue::toInt`: what is no 32-bit integer reads as the default. -/
def toInt (default : Int) : Json → Int
  | .int n => if -2 ^ 31 ≤ n ∧ n < 2 ^ 31 then n else default
  | _ => default

def toArray : Json → List Json
  | .arr items => items
  | _ => []

def toObject : Json → List (String × Json)
  | .obj fields => fields
  | _ => []

def isString : Json → Bool
  | .str _ => true
  | _ => false

def isObject : Json → Bool
  | .obj _ => true
  | _ => false

/-- What a document can be. -/
def isDocument : Json → Bool
  | .arr _ | .obj _ => true
  | _ => false

end Json

/-- An object's field; one that is not there reads like `null`. -/
def field (fields : List (String × Json)) (key : String) : Json :=
  (fields.lookup key).getD .null

/-- A printer of documents, which are arrays and objects, in a compact and an
indented layout, and a parser. -/
structure JsonText where
  print : Bool → Json → Bytes
  parse : Bytes → Except String Json
  print_ne_nil (compact : Bool) (j : Json) : print compact j ≠ []
  parse_arr (compact : Bool) (items : List Json) :
    parse (print compact (.arr items)) = .ok (.arr items)
  parse_obj (compact : Bool) (fields : List (String × Json)) :
    parse (print compact (.obj fields)) = .ok (.obj fields)

/-- No indented document begins another one. -/
def JsonText.PrefixFree (json : JsonText) : Prop :=
  ∀ a b : Json, a.isDocument → b.isDocument →
    json.print false a <+: json.print false b → a = b

end QuMesh.Lib
