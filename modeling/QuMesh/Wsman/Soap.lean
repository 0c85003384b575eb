import QuMesh.Lib.Rounds
import QuMesh.Lib.Xml

/-!
# Replies of the device

The readers of `soap_envelope.cpp`. Each is a loop over the tokens that a stream
reader delivers, and none of them asks afterwards whether the reader stopped at
the end of the document or at an error. What they copy goes through a stream
writer and is read again by the next one, so a `bodyXml` and an item are what
was written.
-/

namespace QuMesh.Wsman

open QuMesh.Lib QuMesh.Lib.Xml

def kNsSoap : String := "http://www.w3.org/2003/05/soap-envelope"

def kNsAddressing : String := "http://schemas.xmlsoap.org/ws/2004/08/addressing"

def kNsEnumeration : String :=
  "http://schemas.xmlsoap.org/ws/2004/09/enumeration"

/-! ## The envelope -/

structure SoapResponse where
  bodyXml : List Token := []
  fault : String := ""
  headerAction : String := ""
  headerRelatesTo : String := ""
  deriving DecidableEq, Repr

def SoapResponse.isFault (soap : SoapResponse) : Bool := soap.fault ≠ ""

/-- The variables of the loop in `parseResponse`. `r` is what is left to
read. -/
structure ResponseLoop where
  r : List Token
  depth : Int := 0
  bodyDepth : Int := -1
  bodyWriter : Writer := {}
  fault : String := ""
  headerAction : String := ""
  headerRelatesTo : String := ""

namespace ResponseLoop

def startElement (ns ln : String) (attrs : List Attribute) (s : ResponseLoop) :
    ResponseLoop :=
  let s : ResponseLoop := { s with depth := s.depth + 1 }
  if s.depth = 2 ∧ ns = kNsSoap ∧ ln = "Body" then
    { s with bodyDepth := s.depth }
  else if s.depth = 3 ∧ s.bodyDepth = 2 ∧ ns = kNsSoap ∧ ln = "Fault" then
    let (fault, r) := readAllText 0 s.r
    { s with fault, r, depth := s.depth - 1 }
  else if s.depth = 3 ∧ ns = kNsAddressing ∧ ln = "Action" then
    let (headerAction, r) := readElementText s.r
    { s with headerAction, r, depth := s.depth - 1 }
  else if s.depth = 3 ∧ ns = kNsAddressing ∧ ln = "RelatesTo" then
    let (headerRelatesTo, r) := readElementText s.r
    { s with headerRelatesTo, r, depth := s.depth - 1 }
  else if s.bodyDepth > 0 ∧ s.depth > s.bodyDepth then
    { s with bodyWriter := s.bodyWriter.writeStartElement ns ln attrs }
  else s

def characters (text : String) (s : ResponseLoop) : ResponseLoop :=
  if s.bodyDepth > 0 ∧ s.depth > s.bodyDepth then
    { s with bodyWriter := s.bodyWriter.writeCharacters text }
  else s

def endElement (s : ResponseLoop) : ResponseLoop :=
  let s :=
    if s.bodyDepth > 0 ∧ s.depth > s.bodyDepth then
      { s with bodyWriter := s.bodyWriter.writeEndElement }
    else s
  let s := if s.depth = s.bodyDepth then { s with bodyDepth := -1 } else s
  { s with depth := s.depth - 1 }

def round (s : ResponseLoop) : ResponseLoop :=
  match s.r with
  | [] => s
  | .startElement ns ln attrs :: r => { s with r }.startElement ns ln attrs
  | .characters text :: r => { s with r }.characters text
  | .endElement :: r => { s with r }.endElement

/-- The loop, until the reader is at its end. -/
def loop (s : ResponseLoop) : ResponseLoop := readToEnd ResponseLoop.r round s

end ResponseLoop

def parseResponse (xml : List Token) : SoapResponse :=
  let out := ({ r := xml } : ResponseLoop).loop
  { bodyXml := out.bodyWriter.written
    fault := out.fault
    headerAction := out.headerAction
    headerRelatesTo := out.headerRelatesTo }

/-! ## Scalars -/

/-- The loop of `findScalar`, over what is left to read. -/
def findScalarIn (localName : String) : List Token → String
  | [] => ""
  | .startElement _ name _ :: r =>
      if name = localName then (readElementText r).1
      else findScalarIn localName r
  | .characters _ :: r | .endElement :: r => findScalarIn localName r

def findScalar (bodyXml : List Token) (localName : String) : String :=
  findScalarIn localName (readBack 0 bodyXml)

def parseEnumerateContext (bodyXml : List Token) : String :=
  findScalar bodyXml "EnumerationContext"

/-! ## Pages -/

/-- An item is what was written for it. -/
structure PullChunk where
  items : List (List Token) := []
  enumerationContext : String := ""
  endOfSequence : Bool := false
  deriving DecidableEq, Repr

/-- The variables of the loop in `parsePullResponse`. The buffer of an item is
what its writer has written. -/
structure PullLoop where
  r : List Token
  depth : Int := 0
  itemsDepth : Int := -1
  itemDepth : Int := -1
  itemWriter : Option Writer := none
  out : PullChunk := {}

namespace PullLoop

def startElement (ns ln : String) (attrs : List Attribute) (s : PullLoop) :
    PullLoop :=
  let s : PullLoop := { s with depth := s.depth + 1 }
  if s.itemsDepth < 0 ∧ ns = kNsEnumeration ∧ ln = "Items" then
    { s with itemsDepth := s.depth }
  else if ns = kNsEnumeration ∧ ln = "EnumerationContext" then
    let (enumerationContext, r) := readElementText s.r
    { s with out := { s.out with enumerationContext }, r, depth := s.depth - 1 }
  else if ns = kNsEnumeration ∧ ln = "EndOfSequence" then
    { s with out := { s.out with endOfSequence := true } }
  else if s.itemsDepth > 0 ∧ s.depth = s.itemsDepth + 1 then
    { s with
      itemWriter := some (({} : Writer).writeStartElement ns ln attrs)
      itemDepth := s.depth }
  else
    match s.itemWriter with
    | some w =>
        if s.itemDepth > 0 ∧ s.depth > s.itemDepth then
          { s with itemWriter := some (w.writeStartElement ns ln attrs) }
        else s
    | none => s

def characters (text : String) (s : PullLoop) : PullLoop :=
  match s.itemWriter with
  | some w =>
      if s.itemDepth > 0 ∧ s.depth ≥ s.itemDepth then
        { s with itemWriter := some (w.writeCharacters text) }
      else s
  | none => s

/-- The end of an element in an item, or of the item. -/
def endItem (s : PullLoop) : PullLoop :=
  match s.itemWriter with
  | some w =>
      if s.itemDepth > 0 ∧ s.depth > s.itemDepth then
        { s with itemWriter := some w.writeEndElement }
      else if s.itemDepth > 0 ∧ s.depth = s.itemDepth then
        { s with
          itemWriter := none
          out := { s.out with
            items := s.out.items ++ [w.writeEndElement.written] }
          itemDepth := -1 }
      else s
  | none => s

def endElement (s : PullLoop) : PullLoop :=
  let s := s.endItem
  let s :=
    if s.itemsDepth > 0 ∧ s.depth = s.itemsDepth then
      { s with itemsDepth := -1 }
    else s
  { s with depth := s.depth - 1 }

def round (s : PullLoop) : PullLoop :=
  match s.r with
  | [] => s
  | .startElement ns ln attrs :: r => { s with r }.startElement ns ln attrs
  | .characters text :: r => { s with r }.characters text
  | .endElement :: r => { s with r }.endElement

/-- The loop, until the reader is at its end. -/
def loop (s : PullLoop) : PullLoop := readToEnd PullLoop.r round s

end PullLoop

def parsePullResponse (bodyXml : List Token) : PullChunk :=
  (({ r := readBack 0 bodyXml } : PullLoop).loop).out

end QuMesh.Wsman
