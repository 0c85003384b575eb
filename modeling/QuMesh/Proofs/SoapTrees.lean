import QuMesh.Wsman.Soap

/-!
# The readers on trees

What `parseResponse` and `parsePullResponse` do with the tokens of a tree. Both
loops count depth, so a node that they do not look into leaves the counters as
they were: it is passed over, or it is copied, as one step. The names the loops
look out for are the exceptions, and the places they look for them at decide
where an exception counts: `parseResponse` at the depth of the children of the
header and of the body, `parsePullResponse` anywhere.
-/

namespace QuMesh.Wsman

open QuMesh.Lib QuMesh.Lib.Xml

/-! ## One token -/

namespace ResponseLoop

theorem round_shrinks (s : ResponseLoop) (h : s.r ≠ []) :
    s.round.r.length < s.r.length := by
  unfold round
  cases hr : s.r with
  | nil => exact absurd hr h
  | cons t r =>
      have htext := readElementText_length r
      have hall := readAllText_length 0 r
      cases t with
      | characters text =>
          simp only [characters]
          split <;> simp
      | endElement =>
          simp only [endElement]
          split <;> split <;> simp
      | startElement ns ln attrs =>
          simp only [startElement]
          repeat' split
          all_goals simp only [List.length_cons]; omega

theorem loop_nil {s : ResponseLoop} (h : s.r = []) : s.loop = s :=
  readToEnd_nil h

theorem loop_round {s : ResponseLoop} {t : Token} {r : List Token}
    (h : s.r = t :: r) : s.loop = s.round.loop := by
  refine readToEnd_step round_shrinks ?_
  rw [h]
  exact List.cons_ne_nil t r

end ResponseLoop

namespace PullLoop

theorem round_shrinks (s : PullLoop) (h : s.r ≠ []) :
    s.round.r.length < s.r.length := by
  unfold round
  cases hr : s.r with
  | nil => exact absurd hr h
  | cons t r =>
      have htext := readElementText_length r
      cases t with
      | characters text =>
          simp only [characters]
          repeat' split
          all_goals simp
      | endElement =>
          simp only [endElement, endItem]
          repeat' split
          all_goals simp
      | startElement ns ln attrs =>
          simp only [startElement]
          repeat' split
          all_goals simp only [List.length_cons]; omega

theorem loop_nil {s : PullLoop} (h : s.r = []) : s.loop = s :=
  readToEnd_nil h

theorem loop_round {s : PullLoop} {t : Token} {r : List Token}
    (h : s.r = t :: r) : s.loop = s.round.loop := by
  refine readToEnd_step round_shrinks ?_
  rw [h]
  exact List.cons_ne_nil t r

end PullLoop

/-! ## Nodes that `parseResponse` does not look into -/

namespace ResponseLoop

theorem startElement_copied {s : ResponseLoop} (hbody : s.bodyDepth = 2)
    (hdepth : 3 ≤ s.depth) (ns ln : String) (attrs : List Attribute) :
    s.startElement ns ln attrs =
      { s with
        depth := s.depth + 1
        bodyWriter := s.bodyWriter.writeStartElement ns ln attrs } := by
  have htwo : s.depth + 1 ≠ 2 := by omega
  have hthree : s.depth + 1 ≠ 3 := by omega
  have hin : s.depth + 1 > 2 := by omega
  simp [startElement, hbody, htwo, hthree, hin]

theorem endElement_copied {s : ResponseLoop} (hbody : s.bodyDepth = 2)
    (hdepth : 3 ≤ s.depth) :
    s.endElement =
      { s with
        depth := s.depth - 1
        bodyWriter := s.bodyWriter.writeEndElement } := by
  have hin : s.depth > 2 := by omega
  have hne : s.depth ≠ 2 := by omega
  simp [endElement, hbody, hin, hne]

theorem characters_copied {s : ResponseLoop} (hbody : s.bodyDepth = 2)
    (hdepth : 3 ≤ s.depth) (text : String) :
    s.characters text =
      { s with bodyWriter := s.bodyWriter.writeCharacters text } := by
  have hin : s.depth > 2 := by omega
  simp [characters, hbody, hin]

/-- Inside an element of the body, nodes are copied. -/
theorem loop_copied :
    (∀ n : Node, ∀ (s : ResponseLoop) (r : List Token), s.bodyDepth = 2 →
      3 ≤ s.depth →
      ({ s with r := n.tokens ++ r } : ResponseLoop).loop =
        ({ s with r, bodyWriter := s.bodyWriter.writeTokens n.tokens } :
          ResponseLoop).loop) ∧
    ∀ ns : List Node, ∀ (s : ResponseLoop) (r : List Token), s.bodyDepth = 2 →
      3 ≤ s.depth →
      ({ s with r := allTokens ns ++ r } : ResponseLoop).loop =
        ({ s with r, bodyWriter := s.bodyWriter.writeTokens (allTokens ns) } :
          ResponseLoop).loop := by
  refine Node.induct ?_ ?_ ?_ ?_
  · intro ns name attrs children ih s r hbody hdepth
    rw [← Writer.writeElement]
    simp only [Node.tokens, List.cons_append, List.append_assoc,
      List.nil_append]
    rw [loop_round rfl]
    simp only [round]
    rw [startElement_copied (by exact hbody) (by exact hdepth)]
    have hchildren := ih
      { s with
        depth := s.depth + 1
        bodyWriter := s.bodyWriter.writeStartElement ns name attrs }
      (.endElement :: r) hbody (by simp only; omega)
    refine hchildren.trans ?_
    rw [loop_round rfl]
    simp only [round]
    rw [endElement_copied (by exact hbody) (by simp only; omega)]
    simp
  · intro text s r hbody hdepth
    simp only [Node.tokens, List.cons_append, List.nil_append]
    rw [loop_round rfl]
    simp only [round]
    rw [characters_copied (by exact hbody) (by exact hdepth)]
    rfl
  · intro s r hbody hdepth
    simp [allTokens]
  · intro n rest hn hrest s r hbody hdepth
    simp only [allTokens, List.append_assoc]
    rw [hn s _ hbody hdepth]
    have hlist := hrest
      { s with bodyWriter := s.bodyWriter.writeTokens n.tokens } r hbody hdepth
    refine hlist.trans ?_
    simp

theorem startElement_passed {s : ResponseLoop} (hbody : s.bodyDepth = -1)
    (hdepth : 3 ≤ s.depth) (ns ln : String) (attrs : List Attribute) :
    s.startElement ns ln attrs = { s with depth := s.depth + 1 } := by
  have htwo : s.depth + 1 ≠ 2 := by omega
  have hthree : s.depth + 1 ≠ 3 := by omega
  simp [startElement, hbody, htwo, hthree]

theorem endElement_passed {s : ResponseLoop} (hbody : s.bodyDepth = -1)
    (hdepth : 0 ≤ s.depth) : s.endElement = { s with depth := s.depth - 1 } := by
  have hne : s.depth ≠ -1 := by omega
  simp [endElement, hbody, hne]

theorem characters_passed {s : ResponseLoop} (hbody : s.bodyDepth = -1)
    (text : String) : s.characters text = s := by
  simp [characters, hbody]

/-- Outside the body, nodes below the header blocks are passed over. -/
theorem loop_passed :
    (∀ n : Node, ∀ (s : ResponseLoop) (r : List Token), s.bodyDepth = -1 →
      3 ≤ s.depth →
      ({ s with r := n.tokens ++ r } : ResponseLoop).loop =
        ({ s with r } : ResponseLoop).loop) ∧
    ∀ ns : List Node, ∀ (s : ResponseLoop) (r : List Token), s.bodyDepth = -1 →
      3 ≤ s.depth →
      ({ s with r := allTokens ns ++ r } : ResponseLoop).loop =
        ({ s with r } : ResponseLoop).loop := by
  refine Node.induct ?_ ?_ ?_ ?_
  · intro ns name attrs children ih s r hbody hdepth
    simp only [Node.tokens, List.cons_append, List.append_assoc,
      List.nil_append]
    rw [loop_round rfl]
    simp only [round]
    rw [startElement_passed (by exact hbody) (by exact hdepth)]
    have hchildren := ih { s with depth := s.depth + 1 } (.endElement :: r)
      hbody (by simp only; omega)
    refine hchildren.trans ?_
    rw [loop_round rfl]
    simp only [round]
    rw [endElement_passed (by exact hbody) (by simp only; omega)]
    simp
  · intro text s r hbody hdepth
    simp only [Node.tokens, List.cons_append, List.nil_append]
    rw [loop_round rfl]
    simp only [round]
    rw [characters_passed (by exact hbody)]
  · intro s r hbody hdepth
    rfl
  · intro n rest hn hrest s r hbody hdepth
    simp only [allTokens, List.append_assoc]
    rw [hn s _ hbody hdepth]
    exact hrest s r hbody hdepth

end ResponseLoop

/-! ## Envelopes -/

/-- A child of the header. The two that are read hold text alone. -/
def IsBlock : Node → Prop
  | .text _ => True
  | .element ns name _ children =>
      ns = kNsAddressing → name = "Action" ∨ name = "RelatesTo" →
        ∀ n ∈ children, n.isText = true

/-- What may stand before the body. -/
def IsHeader : Node → Prop
  | .text _ => True
  | .element ns name _ blocks =>
      ns = kNsSoap ∧ name = "Header" ∧ ∀ b ∈ blocks, IsBlock b

/-- A child of the body that is no fault, and that `parseResponse` does not
take for a part of the header. -/
def IsContent : Node → Prop
  | .text _ => True
  | .element ns name _ _ =>
      ¬(ns = kNsSoap ∧ name = "Fault") ∧
        ¬(ns = kNsAddressing ∧ (name = "Action" ∨ name = "RelatesTo"))

structure Envelope where
  attributes : List Attribute := []
  before : List Node := []
  bodyAttributes : List Attribute := []
  body : List Node
  after : List Node := []

def Envelope.node (e : Envelope) : Node :=
  .element kNsSoap "Envelope" e.attributes
    (e.before ++ .element kNsSoap "Body" e.bodyAttributes e.body :: e.after)

structure Envelope.Valid (e : Envelope) : Prop where
  before : ∀ n ∈ e.before, IsHeader n
  after : ∀ n ∈ e.after, n.isText = true

namespace ResponseLoop

/-- Text outside the body. -/
theorem loop_blank {ns : List Node} (hblank : ∀ n ∈ ns, n.isText = true)
    (s : ResponseLoop) (r : List Token) (hbody : s.bodyDepth = -1) :
    ({ s with r := allTokens ns ++ r } : ResponseLoop).loop =
      ({ s with r } : ResponseLoop).loop := by
  induction ns with
  | nil => rfl
  | cons n rest ih =>
      rw [List.forall_mem_cons] at hblank
      cases n with
      | element ns name attrs children => cases hblank.1
      | text text =>
          simp only [allTokens, Node.tokens, List.cons_append, List.nil_append]
          rw [loop_round rfl]
          simp only [round]
          rw [characters_passed (by exact hbody)]
          exact ih hblank.2

/-- A header block that is not read. -/
theorem loop_unread {ns name : String}
    (h : ¬(ns = kNsAddressing ∧ (name = "Action" ∨ name = "RelatesTo")))
    (attrs : List Attribute) (children : List Node) (s : ResponseLoop)
    (r : List Token) (hbody : s.bodyDepth = -1) (hdepth : s.depth = 2) :
    ({ s with r := (Node.element ns name attrs children).tokens ++ r } :
        ResponseLoop).loop = ({ s with r } : ResponseLoop).loop := by
  have haction : ¬(ns = kNsAddressing ∧ name = "Action") :=
    fun hread => h ⟨hread.1, .inl hread.2⟩
  have hrelates : ¬(ns = kNsAddressing ∧ name = "RelatesTo") :=
    fun hread => h ⟨hread.1, .inr hread.2⟩
  simp only [Node.tokens, List.cons_append, List.append_assoc, List.nil_append]
  rw [loop_round rfl]
  simp only [round]
  have hstart : ∀ r', startElement ns name attrs { s with r := r' } =
      { s with r := r', depth := 3 } := by
    intro r'
    simp [startElement, hbody, hdepth, haction, hrelates]
  rw [hstart]
  have hchildren := loop_passed.2 children { s with depth := 3 }
    (.endElement :: r) hbody (Int.le_refl 3)
  refine hchildren.trans ?_
  rw [loop_round rfl]
  simp only [round]
  rw [endElement_passed (by exact hbody) (by simp)]
  simp [hdepth]

/-- One header block: it may be read, and nothing else comes of it. -/
theorem loop_block {n : Node} (hn : IsBlock n) (s : ResponseLoop)
    (r : List Token) (hbody : s.bodyDepth = -1) (hdepth : s.depth = 2) :
    ∃ headerAction headerRelatesTo,
      ({ s with r := n.tokens ++ r } : ResponseLoop).loop =
        ({ s with r, headerAction, headerRelatesTo } : ResponseLoop).loop := by
  cases n with
  | text text =>
      have hblank : ∀ n ∈ [Node.text text], n.isText = true := by simp [Node.isText]
      have hpassed := loop_blank hblank s r hbody
      exact ⟨s.headerAction, s.headerRelatesTo, by
        simpa [allTokens] using hpassed⟩
  | element ns name attrs children =>
      by_cases hread : ns = kNsAddressing ∧ (name = "Action" ∨ name = "RelatesTo")
      · have htext := readElementText_text (hn hread.1 hread.2) r
        obtain ⟨rfl, rfl | rfl⟩ := hread
        · refine ⟨allInnerText children, s.headerRelatesTo, ?_⟩
          simp only [Node.tokens, List.cons_append, List.append_assoc,
            List.nil_append]
          rw [loop_round rfl]
          simp [round, startElement, hbody, hdepth, htext]
        · refine ⟨s.headerAction, allInnerText children, ?_⟩
          simp only [Node.tokens, List.cons_append, List.append_assoc,
            List.nil_append]
          rw [loop_round rfl]
          simp [round, startElement, hbody, hdepth, htext]
      · exact ⟨s.headerAction, s.headerRelatesTo,
          loop_unread hread attrs children s r hbody hdepth⟩

theorem loop_blocks {blocks : List Node} (hblocks : ∀ b ∈ blocks, IsBlock b)
    (s : ResponseLoop) (r : List Token) (hbody : s.bodyDepth = -1)
    (hdepth : s.depth = 2) :
    ∃ headerAction headerRelatesTo,
      ({ s with r := allTokens blocks ++ r } : ResponseLoop).loop =
        ({ s with r, headerAction, headerRelatesTo } : ResponseLoop).loop := by
  induction blocks generalizing s with
  | nil => exact ⟨s.headerAction, s.headerRelatesTo, rfl⟩
  | cons b rest ih =>
      rw [List.forall_mem_cons] at hblocks
      simp only [allTokens, List.append_assoc]
      obtain ⟨action, relates, hone⟩ :=
        loop_block hblocks.1 s (allTokens rest ++ r) hbody hdepth
      obtain ⟨action', relates', hrest⟩ := ih hblocks.2
        { s with headerAction := action, headerRelatesTo := relates } hbody hdepth
      exact ⟨action', relates', hone.trans hrest⟩

/-- What stands before the body. -/
theorem loop_before {before : List Node} (h : ∀ n ∈ before, IsHeader n)
    (s : ResponseLoop) (r : List Token) (hbody : s.bodyDepth = -1)
    (hdepth : s.depth = 1) :
    ∃ headerAction headerRelatesTo,
      ({ s with r := allTokens before ++ r } : ResponseLoop).loop =
        ({ s with r, headerAction, headerRelatesTo } : ResponseLoop).loop := by
  induction before generalizing s with
  | nil => exact ⟨s.headerAction, s.headerRelatesTo, rfl⟩
  | cons n rest ih =>
      rw [List.forall_mem_cons] at h
      have hone : ∃ action relates,
          ({ s with r := n.tokens ++ (allTokens rest ++ r) } :
            ResponseLoop).loop =
          ({ s with
              r := allTokens rest ++ r
              headerAction := action
              headerRelatesTo := relates } : ResponseLoop).loop := by
        cases n with
        | text text =>
            have hblank : ∀ n ∈ [Node.text text], n.isText = true := by
              simp [Node.isText]
            have hpassed := loop_blank hblank s (allTokens rest ++ r) hbody
            exact ⟨s.headerAction, s.headerRelatesTo, by
              simpa [allTokens] using hpassed⟩
        | element ns name attrs blocks =>
            obtain ⟨rfl, rfl, hblocks⟩ := h.1
            simp only [Node.tokens, List.cons_append, List.append_assoc,
              List.nil_append]
            rw [loop_round rfl]
            simp only [round]
            have hstart : ∀ r', startElement kNsSoap "Header" attrs
                { s with r := r' } = { s with r := r', depth := 2 } := by
              intro r'
              simp [startElement, hbody, hdepth]
            rw [hstart]
            obtain ⟨action, relates, hin⟩ := loop_blocks hblocks
              { s with depth := 2 } (.endElement :: (allTokens rest ++ r))
              hbody rfl
            refine ⟨action, relates, hin.trans ?_⟩
            rw [loop_round rfl]
            simp only [round]
            rw [endElement_passed (by exact hbody) (by simp)]
            simp [hdepth]
      obtain ⟨action, relates, hone⟩ := hone
      obtain ⟨action', relates', hrest⟩ := ih h.2
        { s with headerAction := action, headerRelatesTo := relates } hbody hdepth
      simp only [allTokens, List.append_assoc]
      exact ⟨action', relates', hone.trans hrest⟩

/-! ## The body -/

/-- The elements of a body, one after the other. -/
theorem loop_content {body : List Node} (h : ∀ n ∈ body, IsContent n)
    (s : ResponseLoop) (r : List Token) (hbody : s.bodyDepth = 2)
    (hdepth : s.depth = 2) :
    ({ s with r := allTokens body ++ r } : ResponseLoop).loop =
      ({ s with
          r
          bodyWriter := s.bodyWriter.writeTokens
            (allTokens (body.filter fun n => !n.isText)) } :
        ResponseLoop).loop := by
  induction body generalizing s with
  | nil => simp [allTokens]
  | cons n rest ih =>
      rw [List.forall_mem_cons] at h
      simp only [allTokens, List.append_assoc]
      cases n with
      | text text =>
          simp only [Node.tokens, List.cons_append, List.nil_append]
          rw [loop_round rfl]
          simp only [round]
          have htext : ∀ r', characters text { s with r := r' } =
              { s with r := r' } := by
            intro r'
            simp [characters, hbody, hdepth]
          rw [htext, ih h.2 s hbody hdepth]
          simp [Node.isText]
      | element ns name attrs children =>
          obtain ⟨hfault, hheader⟩ := h.1
          have haction : ¬(ns = kNsAddressing ∧ name = "Action") :=
            fun hread => hheader ⟨hread.1, .inl hread.2⟩
          have hrelates : ¬(ns = kNsAddressing ∧ name = "RelatesTo") :=
            fun hread => hheader ⟨hread.1, .inr hread.2⟩
          have hstart : ∀ r', startElement ns name attrs { s with r := r' } =
              { s with
                r := r'
                depth := 3
                bodyWriter := s.bodyWriter.writeStartElement ns name attrs } := by
            intro r'
            simp [startElement, hbody, hdepth, hfault, haction, hrelates]
          have hone : ({ s with
                r := (Node.element ns name attrs children).tokens ++
                  (allTokens rest ++ r) } : ResponseLoop).loop =
              ({ s with
                r := allTokens rest ++ r
                bodyWriter := s.bodyWriter.writeTokens
                  (Node.element ns name attrs children).tokens } :
                ResponseLoop).loop := by
            rw [← Writer.writeElement]
            simp only [Node.tokens, List.cons_append, List.append_assoc,
              List.nil_append]
            rw [loop_round rfl]
            simp only [round]
            rw [hstart]
            have hchildren := loop_copied.2 children
              { s with
                depth := 3
                bodyWriter := s.bodyWriter.writeStartElement ns name attrs }
              (.endElement :: (allTokens rest ++ r)) hbody (Int.le_refl 3)
            refine hchildren.trans ?_
            rw [loop_round rfl]
            simp only [round]
            rw [endElement_copied (by exact hbody) (by simp)]
            simp [hdepth]
          rw [hone]
          refine (ih h.2 { s with
            bodyWriter := s.bodyWriter.writeTokens
              (Node.element ns name attrs children).tokens } hbody hdepth).trans ?_
          simp [Node.isText, allTokens]

end ResponseLoop

/-- What is read of an envelope without a fault: the elements of its body. -/
theorem parseResponse_envelope {e : Envelope} (he : e.Valid)
    (hbody : ∀ n ∈ e.body, IsContent n) :
    (parseResponse e.node.tokens).fault = "" ∧
      (parseResponse e.node.tokens).bodyXml =
        allTokens (e.body.filter fun n => !n.isText) := by
  have hshape : e.node.tokens =
      .startElement kNsSoap "Envelope" e.attributes ::
        (allTokens e.before ++
          .startElement kNsSoap "Body" e.bodyAttributes ::
            (allTokens e.body ++
              .endElement :: (allTokens e.after ++ [.endElement]))) := by
    simp [Envelope.node, Node.tokens, allTokens, allTokens_append]
  have hopen : ({ r := e.node.tokens } : ResponseLoop).loop =
      ({ r := allTokens e.before ++
          .startElement kNsSoap "Body" e.bodyAttributes ::
            (allTokens e.body ++
              .endElement :: (allTokens e.after ++ [.endElement]))
         depth := 1 } : ResponseLoop).loop := by
    rw [hshape, ResponseLoop.loop_round rfl]
    rfl
  obtain ⟨headerAction, headerRelatesTo, hbefore⟩ :=
    ResponseLoop.loop_before he.before { r := [], depth := 1 }
      (.startElement kNsSoap "Body" e.bodyAttributes ::
        (allTokens e.body ++ .endElement :: (allTokens e.after ++ [.endElement])))
      rfl rfl
  -- the loop in the body, behind it, and behind the envelope
  let inside (r : List Token) : ResponseLoop :=
    { r, depth := 2, bodyDepth := 2, headerAction, headerRelatesTo }
  let behind (depth : Int) (r : List Token) : ResponseLoop :=
    { r
      depth
      bodyWriter := ({} : Writer).writeTokens
        (allTokens (e.body.filter fun n => !n.isText))
      headerAction
      headerRelatesTo }
  have hloop : ({ r := e.node.tokens } : ResponseLoop).loop = behind 0 [] := by
    rw [hopen]
    refine hbefore.trans ?_
    rw [ResponseLoop.loop_round rfl]
    change (inside (allTokens e.body ++
      .endElement :: (allTokens e.after ++ [.endElement]))).loop = _
    refine (ResponseLoop.loop_content hbody (inside []) _ rfl rfl).trans ?_
    rw [ResponseLoop.loop_round rfl]
    change (behind 1 (allTokens e.after ++ [.endElement])).loop = _
    refine (ResponseLoop.loop_blank he.after (behind 1 []) _ rfl).trans ?_
    rw [ResponseLoop.loop_round rfl]
    exact ResponseLoop.loop_nil rfl
  simp only [parseResponse]
  rw [hloop]
  exact ⟨rfl, rfl⟩

/-! ## Pages -/

/-- The two elements that `parsePullResponse` takes for itself wherever they
are. -/
def isControl (ns name : String) : Bool :=
  ns = kNsEnumeration && (name = "EnumerationContext" || name = "EndOfSequence")

def isItems (ns name : String) : Bool := ns = kNsEnumeration && name = "Items"

/-- Nothing in the node is taken for a part of the page. -/
def Plain (n : Node) : Bool := n.every fun ns name => !isControl ns name

/-- And nothing is taken for the items either. -/
def Quiet (n : Node) : Bool :=
  n.every fun ns name => !isControl ns name && !isItems ns name

/-- A child of a Pull response. -/
inductive Member
  | blank (text : String)
  | items (attributes : List Attribute) (children : List Node)
  | enumerationContext (attributes : List Attribute) (texts : List String)
  | endOfSequence (attributes : List Attribute)
  | other (n : Node)

namespace Member

def node : Member → Node
  | blank text => .text text
  | items attributes children =>
      .element kNsEnumeration "Items" attributes children
  | enumerationContext attributes texts =>
      .element kNsEnumeration "EnumerationContext" attributes
        (texts.map Node.text)
  | endOfSequence attributes =>
      .element kNsEnumeration "EndOfSequence" attributes []
  | other n => n

/-- What is not one of the three parts has none of them in it. -/
def Valid : Member → Prop
  | other n => Quiet n = true
  | _ => True

/-- The elements that the member brings. -/
def rows : Member → List Node
  | items _ children => children.filter fun n => !n.isText
  | _ => []

/-- What is read of a page once the member is behind. -/
def addTo (chunk : PullChunk) : Member → PullChunk
  | blank _ | other _ => chunk
  | items attributes children =>
      { chunk with
        items := chunk.items ++
          (items attributes children).rows.map Node.tokens }
  | enumerationContext _ texts =>
      { chunk with enumerationContext := allInnerText (texts.map Node.text) }
  | endOfSequence _ => { chunk with endOfSequence := true }

end Member

namespace PullLoop

theorem isControl_false {ns name : String} (h : isControl ns name = false) :
    ¬(ns = kNsEnumeration ∧ name = "EnumerationContext") ∧
      ¬(ns = kNsEnumeration ∧ name = "EndOfSequence") := by
  simp only [isControl, Bool.and_eq_false_iff, Bool.or_eq_false_iff,
    decide_eq_false_iff_not] at h
  constructor
  · rintro ⟨hns, hname⟩
    rcases h with h | h
    · exact h hns
    · exact h.1 hname
  · rintro ⟨hns, hname⟩
    rcases h with h | h
    · exact h hns
    · exact h.2 hname

/-- Inside an item, nodes are copied. -/
theorem loop_copied {depth : Int} (hpos : 0 < depth) :
    (∀ n : Node, Plain n = true → ∀ (s : PullLoop) (w : Writer) (r : List Token),
      s.itemsDepth = depth → s.itemDepth = depth + 1 → depth + 1 ≤ s.depth →
      ({ s with r := n.tokens ++ r, itemWriter := some w } : PullLoop).loop =
        ({ s with r, itemWriter := some (w.writeTokens n.tokens) } :
          PullLoop).loop) ∧
    ∀ ns : List Node, everyIn (fun ns name => !isControl ns name) ns = true →
      ∀ (s : PullLoop) (w : Writer) (r : List Token),
      s.itemsDepth = depth → s.itemDepth = depth + 1 → depth + 1 ≤ s.depth →
      ({ s with r := allTokens ns ++ r, itemWriter := some w } : PullLoop).loop =
        ({ s with r, itemWriter := some (w.writeTokens (allTokens ns)) } :
          PullLoop).loop := by
  refine Node.induct ?_ ?_ ?_ ?_
  · intro ns name attrs children ih hplain s w r hitems hitem hdepth
    simp only [Plain, Node.every, Bool.and_eq_true, Bool.not_eq_true'] at hplain
    obtain ⟨hcontext, hend⟩ := isControl_false hplain.1
    rw [← Writer.writeElement]
    simp only [Node.tokens, List.cons_append, List.append_assoc,
      List.nil_append]
    have hstart : ∀ r', startElement ns name attrs
          { s with r := r', itemWriter := some w } =
        { s with
          r := r'
          depth := s.depth + 1
          itemWriter := some (w.writeStartElement ns name attrs) } := by
      intro r'
      have hitems' : ¬depth < 0 := by omega
      have hne : s.depth + 1 ≠ depth + 1 := by omega
      have hin : 0 < depth + 1 ∧ depth + 1 < s.depth + 1 := by omega
      simp [startElement, hitems, hitem, hitems', hcontext, hend, hin]
      omega
    have hendElement : ∀ w' r', endElement
          { s with r := r', depth := s.depth + 1, itemWriter := some w' } =
        { s with r := r', itemWriter := some w'.writeEndElement } := by
      intro w' r'
      have hin : 0 < depth + 1 ∧ depth + 1 < s.depth + 1 := by omega
      have hne : s.depth + 1 ≠ depth := by omega
      simp [endElement, endItem, hitems, hitem, hin, hne]
    rw [loop_round rfl]
    simp only [round]
    rw [hstart]
    refine (ih hplain.2 { s with depth := s.depth + 1 } _ (.endElement :: r)
      hitems hitem (by simp only; omega)).trans ?_
    rw [loop_round rfl]
    simp only [round]
    rw [hendElement]
  · intro text hplain s w r hitems hitem hdepth
    simp only [Node.tokens, List.cons_append, List.nil_append]
    rw [loop_round rfl]
    have hin : 0 < depth + 1 ∧ depth + 1 ≤ s.depth := by omega
    simp [round, characters, hitem, hin, Writer.writeCharacters_eq]
  · intro hplain s w r hitems hitem hdepth
    simp [allTokens]
  · intro n rest hn hrest hplain s w r hitems hitem hdepth
    simp only [everyIn, Bool.and_eq_true] at hplain
    simp only [allTokens, List.append_assoc]
    rw [hn hplain.1 s w _ hitems hitem hdepth,
      hrest hplain.2 s _ r hitems hitem hdepth]
    simp

/-- Outside the items, nodes with nothing in them to take are passed over. -/
theorem loop_passed :
    (∀ n : Node, Quiet n = true → ∀ (s : PullLoop) (r : List Token),
      s.itemsDepth = -1 → s.itemWriter = none →
      ({ s with r := n.tokens ++ r } : PullLoop).loop =
        ({ s with r } : PullLoop).loop) ∧
    ∀ ns : List Node,
      everyIn (fun ns name => !isControl ns name && !isItems ns name) ns = true →
      ∀ (s : PullLoop) (r : List Token),
      s.itemsDepth = -1 → s.itemWriter = none →
      ({ s with r := allTokens ns ++ r } : PullLoop).loop =
        ({ s with r } : PullLoop).loop := by
  refine Node.induct ?_ ?_ ?_ ?_
  · intro ns name attrs children ih hquiet s r hitems hwriter
    simp only [Quiet, Node.every, Bool.and_eq_true, Bool.not_eq_true'] at hquiet
    obtain ⟨hcontext, hend⟩ := isControl_false hquiet.1.1
    have hname : ¬(ns = kNsEnumeration ∧ name = "Items") := by
      have hone := hquiet.1.2
      simpa [isItems] using hone
    simp only [Node.tokens, List.cons_append, List.append_assoc,
      List.nil_append]
    have hstart : ∀ r', startElement ns name attrs { s with r := r' } =
        { s with r := r', depth := s.depth + 1 } := by
      intro r'
      simp [startElement, hitems, hwriter, hcontext, hend, hname]
    have hendElement : ∀ r', endElement
          { s with r := r', depth := s.depth + 1 } = { s with r := r' } := by
      intro r'
      simp [endElement, endItem, hitems, hwriter]
    rw [loop_round rfl]
    simp only [round]
    rw [hstart]
    refine (ih hquiet.2 { s with depth := s.depth + 1 } (.endElement :: r)
      hitems hwriter).trans ?_
    rw [loop_round rfl]
    simp only [round]
    rw [hendElement]
  · intro text hquiet s r hitems hwriter
    simp only [Node.tokens, List.cons_append, List.nil_append]
    rw [loop_round rfl]
    simp [round, characters, hwriter]
  · intro hquiet s r hitems hwriter
    rfl
  · intro n rest hn hrest hquiet s r hitems hwriter
    simp only [everyIn, Bool.and_eq_true] at hquiet
    simp only [allTokens, List.append_assoc]
    rw [hn hquiet.1 s _ hitems hwriter]
    exact hrest hquiet.2 s r hitems hwriter

/-- One child of the items is one item. -/
theorem loop_row {depth : Int} (hpos : 0 < depth) {n : Node}
    (hplain : Plain n = true) (s : PullLoop) (r : List Token)
    (hitems : s.itemsDepth = depth) (hdepth : s.depth = depth)
    (hitem : s.itemDepth = -1) (hwriter : s.itemWriter = none) :
    ({ s with r := n.tokens ++ r } : PullLoop).loop =
      ({ s with
          r
          out := { s.out with
            items := s.out.items ++ if n.isText then [] else [n.tokens] } } :
        PullLoop).loop := by
  cases n with
  | text text =>
      simp only [Node.tokens, List.cons_append, List.nil_append]
      rw [loop_round rfl]
      simp [round, characters, hwriter, Node.isText]
  | element ns name attrs children =>
      simp only [Plain, Node.every, Bool.and_eq_true, Bool.not_eq_true'] at hplain
      obtain ⟨hcontext, hend⟩ := isControl_false hplain.1
      simp only [Node.tokens, List.cons_append, List.append_assoc,
        List.nil_append]
      have hopen : ¬depth < 0 := by omega
      have hstart : ∀ r', startElement ns name attrs { s with r := r' } =
          { s with
            r := r'
            depth := depth + 1
            itemDepth := depth + 1
            itemWriter := some (({} : Writer).writeStartElement ns name attrs) } := by
        intro r'
        simp [startElement, hitems, hdepth, hopen, hpos, hcontext, hend]
      rw [loop_round rfl]
      simp only [round]
      rw [hstart]
      refine ((loop_copied hpos).2 children hplain.2
        { s with depth := depth + 1, itemDepth := depth + 1 } _
        (.endElement :: r) hitems rfl (Int.le_refl _)).trans ?_
      have hwritten := congrArg Writer.written
        (Writer.writeElement ns name attrs children {})
      have hendElement : ∀ w r', endElement
            { s with
              r := r'
              depth := depth + 1
              itemDepth := depth + 1
              itemWriter := some w } =
          { s with
            r := r'
            out := { s.out with
              items := s.out.items ++ [w.writeEndElement.written] } } := by
        intro w r'
        have hin : 0 < depth + 1 := by omega
        have hne : depth + 1 ≠ depth := by omega
        simp [endElement, endItem, hitems, hdepth, hitem, hwriter, hin, hne]
      rw [loop_round rfl]
      simp only [round]
      rw [hendElement, hwritten]
      simp [Node.isText, Writer.writeTokens, Node.tokens]

theorem loop_rows {depth : Int} (hpos : 0 < depth) {children : List Node}
    (hplain : ∀ n ∈ children, Plain n = true) (s : PullLoop) (r : List Token)
    (hitems : s.itemsDepth = depth) (hdepth : s.depth = depth)
    (hitem : s.itemDepth = -1) (hwriter : s.itemWriter = none) :
    ({ s with r := allTokens children ++ r } : PullLoop).loop =
      ({ s with
          r
          out := { s.out with
            items := s.out.items ++
              (children.filter fun n => !n.isText).map Node.tokens } } :
        PullLoop).loop := by
  induction children generalizing s with
  | nil => simp [allTokens]
  | cons n rest ih =>
      rw [List.forall_mem_cons] at hplain
      simp only [allTokens, List.append_assoc]
      refine (loop_row hpos hplain.1 s _ hitems hdepth hitem hwriter).trans ?_
      refine (ih hplain.2
        { s with out := { s.out with
            items := s.out.items ++ if n.isText then [] else [n.tokens] } }
        hitems hdepth hitem hwriter).trans ?_
      cases hn : n.isText <;> simp [hn]

end PullLoop

/-- No item of the member has an element in it that is taken for a part of the
page. -/
def Member.Whole : Member → Prop
  | .items _ children => ∀ n ∈ children, Plain n = true
  | _ => True

namespace PullLoop

/-- One member of the page. -/
theorem loop_member {m : Member} (hvalid : m.Valid) (hwhole : m.Whole)
    (s : PullLoop) (r : List Token) (hdepth : s.depth = 1)
    (hitems : s.itemsDepth = -1) (hitem : s.itemDepth = -1)
    (hwriter : s.itemWriter = none) :
    ({ s with r := m.node.tokens ++ r } : PullLoop).loop =
      ({ s with r, out := m.addTo s.out } : PullLoop).loop := by
  cases m with
  | blank text =>
      simp only [Member.node, Node.tokens, List.cons_append, List.nil_append]
      rw [loop_round rfl]
      simp [round, characters, hwriter, Member.addTo]
  | other n => exact loop_passed.1 n hvalid s r hitems hwriter
  | items attributes children =>
      simp only [Member.node, Node.tokens, List.cons_append, List.append_assoc,
        List.nil_append]
      have hstart : ∀ r', startElement kNsEnumeration "Items" attributes
          { s with r := r' } =
          { s with r := r', depth := 2, itemsDepth := 2 } := by
        intro r'
        simp [startElement, hitems, hdepth]
      rw [loop_round rfl]
      simp only [round]
      rw [hstart]
      have htwo : (0 : Int) < 2 := by decide
      refine (loop_rows htwo hwhole
        { s with depth := 2, itemsDepth := 2 } (.endElement :: r) rfl rfl hitem
        hwriter).trans ?_
      rw [loop_round rfl]
      simp [round, endElement, endItem, hwriter, hdepth, hitems, Member.addTo, Member.rows]
  | enumerationContext attributes texts =>
      have htext : ∀ n ∈ texts.map Node.text, n.isText = true := by
        intro n hn
        obtain ⟨text, -, rfl⟩ := List.mem_map.mp hn
        rfl
      simp only [Member.node, Node.tokens, List.cons_append, List.append_assoc,
        List.nil_append]
      rw [loop_round rfl]
      simp [round, startElement, hdepth, readElementText_text htext r,
        Member.addTo]
  | endOfSequence attributes =>
      simp only [Member.node, Node.tokens, allTokens, List.cons_append,
        List.nil_append]
      rw [loop_round rfl]
      have hstart : round { s with
            r := .startElement kNsEnumeration "EndOfSequence" attributes ::
              .endElement :: r } =
          { s with
            r := .endElement :: r
            depth := 2
            out := { s.out with endOfSequence := true } } := by
        simp [round, startElement, hdepth]
      rw [hstart, loop_round rfl]
      simp [round, endElement, endItem, hwriter, hitems, hdepth, Member.addTo]

theorem loop_members {ms : List Member} (hvalid : ∀ m ∈ ms, m.Valid)
    (hwhole : ∀ m ∈ ms, m.Whole) (s : PullLoop) (r : List Token)
    (hdepth : s.depth = 1) (hitems : s.itemsDepth = -1)
    (hitem : s.itemDepth = -1) (hwriter : s.itemWriter = none) :
    ({ s with r := allTokens (ms.map Member.node) ++ r } : PullLoop).loop =
      ({ s with r, out := ms.foldl Member.addTo s.out } : PullLoop).loop := by
  induction ms generalizing s with
  | nil => rfl
  | cons m rest ih =>
      rw [List.forall_mem_cons] at hvalid hwhole
      simp only [List.map_cons, allTokens, List.append_assoc, List.foldl_cons]
      rw [loop_member hvalid.1 hwhole.1 s _ hdepth hitems hitem hwriter]
      exact ih hvalid.2 hwhole.2 { s with out := m.addTo s.out } hdepth hitems
        hitem hwriter

end PullLoop

/-- A Pull response in its envelope. -/
structure PullPage where
  attributes : List Attribute := []
  before : List Node := []
  bodyAttributes : List Attribute := []
  /-- Blanks in the body, on both sides of the response. -/
  leading : List String := []
  responseAttributes : List Attribute := []
  members : List Member
  trailing : List String := []
  after : List Node := []

namespace PullPage

def response (q : PullPage) : Node :=
  .element kNsEnumeration "PullResponse" q.responseAttributes
    (q.members.map Member.node)

def envelope (q : PullPage) : Envelope where
  attributes := q.attributes
  before := q.before
  bodyAttributes := q.bodyAttributes
  body := q.leading.map Node.text ++ q.response :: q.trailing.map Node.text
  after := q.after

structure Valid (q : PullPage) : Prop where
  envelope : q.envelope.Valid
  members : ∀ m ∈ q.members, m.Valid

/-- The elements of the items, in order. -/
def rows (q : PullPage) : List Node := q.members.flatMap Member.rows

/-- What the page says. -/
def chunk (q : PullPage) : PullChunk := q.members.foldl Member.addTo {}

/-- No item has an element in it that is taken for a part of the page. -/
def Whole (q : PullPage) : Prop := ∀ m ∈ q.members, m.Whole

theorem foldl_items (ms : List Member) (chunk : PullChunk) :
    (ms.foldl Member.addTo chunk).items =
      chunk.items ++ (ms.flatMap Member.rows).map Node.tokens := by
  induction ms generalizing chunk with
  | nil => simp
  | cons m rest ih =>
      rw [List.foldl_cons, ih]
      cases m <;> simp [Member.addTo, Member.rows]

theorem chunk_items (q : PullPage) : q.chunk.items = q.rows.map Node.tokens := by
  simpa [chunk, rows] using foldl_items q.members {}

theorem content (q : PullPage) : ∀ n ∈ q.envelope.body, IsContent n := by
  intro n hn
  rcases List.mem_append.mp hn with hn | hn
  · obtain ⟨text, -, rfl⟩ := List.mem_map.mp hn
    trivial
  · rcases List.mem_cons.mp hn with rfl | hn
    · exact ⟨by decide, by decide⟩
    · obtain ⟨text, -, rfl⟩ := List.mem_map.mp hn
      trivial

theorem body_elements (q : PullPage) :
    (q.envelope.body.filter fun n => !n.isText) = [q.response] := by
  have htexts : ∀ texts : List String,
      ((texts.map Node.text).filter fun n => !n.isText) = [] := by
    intro texts
    rw [List.filter_eq_nil_iff]
    intro n hn
    obtain ⟨text, -, rfl⟩ := List.mem_map.mp hn
    simp [Node.isText]
  have hresponse : (!q.response.isText) = true := rfl
  simp only [envelope, List.filter_append, List.filter_cons, htexts, hresponse,
    if_true, List.nil_append]

/-- A page in order is no fault. -/
theorem fault {q : PullPage} (hq : q.Valid) :
    (parseResponse q.envelope.node.tokens).fault = "" :=
  (parseResponse_envelope hq.envelope q.content).1

theorem bodyXml {q : PullPage} (hq : q.Valid) :
    (parseResponse q.envelope.node.tokens).bodyXml = q.response.tokens := by
  rw [(parseResponse_envelope hq.envelope q.content).2, q.body_elements]
  simp [allTokens]

/-- A page is read as what it says, if its items are whole. -/
theorem parsePullResponse_eq {q : PullPage} (hq : q.Valid) (hwhole : q.Whole) :
    parsePullResponse (parseResponse q.envelope.node.tokens).bodyXml =
      q.chunk := by
  have hread : readBack 0 q.response.tokens = q.response.tokens := by
    have hback := readBack_element kNsEnumeration "PullResponse"
      q.responseAttributes (q.members.map Member.node) []
    rwa [List.append_nil] at hback
  rw [parsePullResponse, bodyXml hq, hread]
  have hloop : ({ r := q.response.tokens } : PullLoop).loop =
      ({ r := [], out := q.chunk } : PullLoop) := by
    simp only [response, Node.tokens]
    rw [PullLoop.loop_round rfl]
    change ({ r := allTokens (q.members.map Member.node) ++ [.endElement]
              depth := 1 } : PullLoop).loop = _
    refine (PullLoop.loop_members hq.members hwhole { r := [], depth := 1 }
      [.endElement] rfl rfl rfl rfl).trans ?_
    rw [PullLoop.loop_round rfl]
    exact PullLoop.loop_nil rfl
  rw [hloop]

end PullPage

end QuMesh.Wsman
