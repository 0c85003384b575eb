import QuMesh.Wsman.Soap

/-!
# Reads that take several requests

The operations that send a request behind the reply to another one. Each is a
state that says which request is out, and a function that takes the reply to
it; a callback that was run is kept in a list, so that it can be seen how often
it was.
-/

namespace QuMesh.Wsman

open QuMesh.Lib QuMesh.Lib.Xml

/-- How a request ended. `xml` is what the stream reader delivers of the body,
and `complete` says whether it stopped there at the end of the document; the
operations look at neither `complete` nor `httpStatus`. -/
structure Outcome where
  errorString : String := ""
  httpStatus : Int := 200
  xml : List Token := []
  complete : Bool := true

def Outcome.hasError (reply : Outcome) : Bool := reply.errorString ≠ ""

/-- What all the operations make of a reply: the text of an error or of a
fault, or a response to read. -/
def Outcome.response (reply : Outcome) : Except String SoapResponse :=
  if reply.hasError then .error reply.errorString
  else
    let soap := parseResponse reply.xml
    if soap.isFault then .error soap.fault else .ok soap

/-! ## Enumerations -/

inductive EnumerationRequest
  | enumerate
  | pull (context : String)
  deriving DecidableEq, Repr

/-- `enumerateAll`: the request that is out, the items so far, and the calls of
`onDone`. -/
structure Enumeration where
  waiting : Option EnumerationRequest := some .enumerate
  items : List (List Token) := []
  calls : List (List (List Token) × String) := []
  deriving DecidableEq, Repr

namespace Enumeration

def onDone (items : List (List Token)) (error : String) (s : Enumeration) :
    Enumeration :=
  { s with waiting := none, calls := s.calls ++ [(items, error)] }

/-- Without a client nothing is sent. -/
def withoutClient : Enumeration :=
  ({ waiting := none } : Enumeration).onDone [] "client is null"

/-- The items that were read are handed over, and so they are gone. -/
def handOver (s : Enumeration) : Enumeration :=
  { s.onDone s.items "" with items := [] }

def reply (s : Enumeration) (r : Outcome) : Enumeration :=
  match s.waiting, r.response with
  | none, _ => s
  | some _, .error error => s.onDone [] error
  | some .enumerate, .ok soap =>
      let ctx := parseEnumerateContext soap.bodyXml
      if ctx = "" then s.handOver else { s with waiting := some (.pull ctx) }
  | some (.pull _), .ok soap =>
      let chunk := parsePullResponse soap.bodyXml
      let s := { s with items := s.items ++ chunk.items }
      if chunk.endOfSequence || chunk.enumerationContext = "" then s.handOver
      else { s with waiting := some (.pull chunk.enumerationContext) }

end Enumeration

end QuMesh.Wsman
