import QuMesh.Lib.Run
import QuMesh.Proofs.SoapTrees
import QuMesh.Wsman.Reads

/-!
# Enumerations, whole or failed

`enumerateAll` is to hand over the items of all pages, or an error. It does not
ask the stream reader whether it came to the end, so a page that breaks off is
read as far as it goes, and with no context in it the enumeration ends there as
a success; `partial_page` is such a page. The other way to lose something is an
element in an item that bears the name of a part of the page: such elements are
never copied, `parsePullResponse_plain`, so an item that has one is not handed
over whole.

`enumeration_iff` says that nothing else goes wrong: a run that ended did what
it should if and only if it ended in an error, or every page was in order and
had no such element in an item.
-/

namespace QuMesh.Wsman

open QuMesh.Lib QuMesh.Lib.Xml

/-- The reply is this page, whole. -/
structure Outcome.Shows (p : Outcome) (q : PullPage) : Prop where
  errorString : p.errorString = ""
  complete : p.complete = true
  xml : p.xml = q.envelope.node.tokens
  valid : q.Valid

/-- A page that is in order. -/
def Outcome.WellFormed (p : Outcome) : Prop := ∃ q, p.Shows q

/-- The request failed, or its reply is a fault. -/
def Outcome.Failed (p : Outcome) : Prop := ∃ error, p.response = .error error

/-- The condition on one page that does not fail. -/
def Outcome.Readable (p : Outcome) : Prop := ∃ q, p.Shows q ∧ q.Whole

namespace Enumeration

/-- What an enumeration that ended owes for the pages it has read: one call;
with the items of all of them, if they are in order, and else with an error. -/
def Delivers (pages : List Outcome) (s : Enumeration) : Prop :=
  ∃ items error, s.calls = [(items, error)] ∧
    ((∀ p ∈ pages, p.WellFormed) →
      error = "" ∧ ∃ qs, List.Forall₂ Outcome.Shows pages qs ∧
        items = (qs.flatMap PullPage.rows).map Node.tokens) ∧
    ((∃ p ∈ pages, ¬p.WellFormed) → error ≠ "")

end Enumeration

/-! ## One page -/

theorem Outcome.Shows.response {p : Outcome} {q : PullPage} (h : p.Shows q) :
    p.response = .ok (parseResponse q.envelope.node.tokens) := by
  have hfault : (parseResponse q.envelope.node.tokens).isFault = false := by
    simp [SoapResponse.isFault, PullPage.fault h.valid]
  simp [Outcome.response, Outcome.hasError, h.errorString, h.xml, hfault]

theorem Outcome.Shows.not_failed {p : Outcome} {q : PullPage} (h : p.Shows q) :
    ¬p.Failed := by
  rintro ⟨error, herror⟩
  rw [h.response] at herror
  cases herror

theorem Outcome.Failed.not_wellFormed {p : Outcome} (h : p.Failed) :
    ¬p.WellFormed := by
  rintro ⟨q, hq⟩
  exact hq.not_failed h

theorem Outcome.response_error {p : Outcome} {error : String}
    (h : p.response = .error error) : error ≠ "" := by
  simp only [Outcome.response] at h
  split at h
  · next herror =>
    cases h
    simpa [Outcome.hasError] using herror
  · split at h
    · next hfault =>
      cases h
      simpa [SoapResponse.isFault] using hfault
    · cases h

theorem Outcome.response_ok {p : Outcome} {soap : SoapResponse}
    (h : p.response = .ok soap) : soap = parseResponse p.xml := by
  simp only [Outcome.response] at h
  split at h
  · cases h
  · split at h
    · cases h
    · cases h
      rfl

/-- What is read of the items of a page. -/
def Outcome.items (p : Outcome) : List (List Token) :=
  (parsePullResponse (parseResponse p.xml).bodyXml).items

theorem Outcome.Shows.items_eq {p : Outcome} {q : PullPage} (h : p.Shows q)
    (hwhole : q.Whole) : p.items = q.rows.map Node.tokens := by
  rw [Outcome.items, h.xml, PullPage.parsePullResponse_eq h.valid hwhole,
    q.chunk_items]

/-! ## What an item never has in it -/

/-- No element that is taken for a part of the page is opened. -/
def Clean (ts : List Token) : Prop :=
  ∀ ns name attributes, .startElement ns name attributes ∈ ts →
    isControl ns name = false

theorem Clean.append {a b : List Token} (ha : Clean a) (hb : Clean b) :
    Clean (a ++ b) := by
  intro ns name attributes h
  rcases List.mem_append.mp h with h | h
  · exact ha ns name attributes h
  · exact hb ns name attributes h

theorem clean_nil : Clean [] := fun _ _ _ h => absurd h List.not_mem_nil

theorem clean_start {ns name : String} (h : isControl ns name = false)
    (attributes : List Attribute) :
    Clean [.startElement ns name attributes] := by
  intro ns' name' attributes' hmem
  cases List.mem_singleton.mp hmem
  exact h

theorem clean_characters (text : String) : Clean [.characters text] := by
  intro ns name attributes hmem
  cases List.mem_singleton.mp hmem

theorem Clean.writeEndElement {w : Writer} (h : Clean w.written) :
    Clean w.writeEndElement.written := by
  unfold Writer.writeEndElement
  split
  · exact h
  · refine h.append fun ns name attributes hmem => ?_
    cases List.mem_singleton.mp hmem

/-- A node whose tokens are clean is plain. -/
theorem plain_of_clean :
    (∀ n : Node, Clean n.tokens → Plain n = true) ∧
    ∀ ns : List Node, Clean (allTokens ns) →
      everyIn (fun ns name => !isControl ns name) ns = true := by
  refine Node.induct ?_ ?_ ?_ ?_
  · intro ns name attributes children ih h
    have hname : isControl ns name = false :=
      h ns name attributes (by simp [Node.tokens])
    have hchildren : Clean (allTokens children) := by
      intro ns' name' attributes' hmem
      exact h ns' name' attributes' (by simp [Node.tokens, hmem])
    simp only [Plain, Node.every, hname, ih hchildren]
    rfl
  · intro text h
    rfl
  · intro h
    rfl
  · intro n rest hn hrest h
    have hhead : Clean n.tokens := fun ns name attributes hmem =>
      h ns name attributes (by simp [allTokens, hmem])
    have htail : Clean (allTokens rest) := fun ns name attributes hmem =>
      h ns name attributes (by simp [allTokens, hmem])
    have hplain := hn hhead
    rw [everyIn, hrest htail, Bool.and_true]
    exact hplain

namespace PullLoop

/-- Nothing written is taken for a part of the page. -/
structure Tidy (s : PullLoop) : Prop where
  writer : ∀ w, s.itemWriter = some w → Clean w.written
  items : ∀ item ∈ s.out.items, Clean item

theorem Tidy.startElement {s : PullLoop} (h : s.Tidy) (ns ln : String)
    (attrs : List Attribute) : (s.startElement ns ln attrs).Tidy := by
  simp only [PullLoop.startElement]
  split
  · exact ⟨h.writer, h.items⟩
  split
  · exact ⟨h.writer, h.items⟩
  next hcontext =>
  split
  · exact ⟨h.writer, h.items⟩
  next hend =>
    have hname : isControl ns ln = false := by
      simp only [isControl, Bool.and_eq_false_iff, Bool.or_eq_false_iff,
        decide_eq_false_iff_not]
      by_cases hns : ns = kNsEnumeration
      · exact .inr ⟨fun hln => hcontext ⟨hns, hln⟩, fun hln => hend ⟨hns, hln⟩⟩
      · exact .inl hns
    split
    · refine ⟨fun w hw => ?_, h.items⟩
      cases hw
      exact clean_nil.append (clean_start hname attrs)
    split
    next w hw =>
      split
      · refine ⟨fun w' hw' => ?_, h.items⟩
        cases hw'
        exact (h.writer w hw).append (clean_start hname attrs)
      · exact ⟨h.writer, h.items⟩
    · exact ⟨h.writer, h.items⟩

theorem Tidy.characters {s : PullLoop} (h : s.Tidy) (text : String) :
    (s.characters text).Tidy := by
  unfold PullLoop.characters
  split
  next w hw =>
    split
    · refine ⟨fun w' hw' => ?_, h.items⟩
      cases hw'
      exact (h.writer w hw).append (clean_characters text)
    · exact h
  · exact h

theorem Tidy.endItem {s : PullLoop} (h : s.Tidy) : s.endItem.Tidy := by
  unfold PullLoop.endItem
  split
  next w hw =>
    have hend := (h.writer w hw).writeEndElement
    split
    · refine ⟨fun w' hw' => ?_, h.items⟩
      cases hw'
      exact hend
    split
    · refine ⟨fun w' hw' => ?_, fun item hitem => ?_⟩
      · cases hw'
      · rcases List.mem_append.mp hitem with hitem | hitem
        · exact h.items item hitem
        · cases List.mem_singleton.mp hitem
          exact hend
    · exact h
  · exact h

theorem Tidy.endElement {s : PullLoop} (h : s.Tidy) : s.endElement.Tidy := by
  have hitem := h.endItem
  simp only [PullLoop.endElement]
  refine ⟨?_, ?_⟩
  · split
    · exact hitem.writer
    · exact hitem.writer
  · split
    · exact hitem.items
    · exact hitem.items

theorem Tidy.round {s : PullLoop} (h : s.Tidy) : s.round.Tidy := by
  have hread : ∀ r, ({ s with r } : PullLoop).Tidy :=
    fun r => ⟨h.writer, h.items⟩
  unfold PullLoop.round
  split
  · exact h
  · exact (hread _).startElement _ _ _
  · exact (hread _).characters _
  · exact (hread _).endElement

end PullLoop

/-- Elements that are taken for a part of the page are in no item. -/
theorem parsePullResponse_plain (bodyXml : List Token) :
    ∀ item ∈ (parsePullResponse bodyXml).items, Clean item := by
  have hstart : ({ r := readBack 0 bodyXml } : PullLoop).Tidy := by
    refine ⟨fun w hw => ?_, fun item hitem => absurd hitem List.not_mem_nil⟩
    cases hw
  have hloop : ({ r := readBack 0 bodyXml } : PullLoop).loop.Tidy :=
    rounds_invariant (fun s hs => hs.round) _ hstart
  exact hloop.items

theorem PullPage.whole {q : PullPage}
    (hrows : ∀ n ∈ q.rows, Clean n.tokens) : q.Whole := by
  intro m hm
  cases m with
  | items attributes children =>
      intro n hn
      cases htext : n.isText with
      | true =>
          cases n with
          | text text => rfl
          | element ns name attributes children => cases htext
      | false =>
          refine plain_of_clean.1 n (hrows n ?_)
          refine List.mem_flatMap.mpr ⟨_, hm, ?_⟩
          exact List.mem_filter.mpr ⟨hn, by simp [htext]⟩
  | _ => trivial

/-! ## The run -/

namespace Enumeration

theorem reply_failed {s : Enumeration} (hwait : s.waiting.isSome = true)
    {p : Outcome} {error : String} (h : p.response = .error error) :
    s.reply p = s.onDone [] error := by
  obtain ⟨request, hrequest⟩ := Option.isSome_iff_exists.mp hwait
  simp only [reply, hrequest, h]

/-- A page that does not fail: its items are added, and the enumeration goes on
or hands over. -/
theorem reply_pull {s : Enumeration} {context : String}
    (hwait : s.waiting = some (.pull context)) {p : Outcome}
    {soap : SoapResponse} (h : p.response = .ok soap) :
    s.reply p = ({ s with items := s.items ++ p.items } : Enumeration).handOver ∨
      ∃ next, s.reply p = { s with
        waiting := some (.pull next)
        items := s.items ++ p.items } := by
  rw [Outcome.items, ← Outcome.response_ok h]
  simp only [reply, hwait, h]
  split
  · exact .inl rfl
  · exact .inr ⟨_, rfl⟩

/-- An enumeration that ended has read pages up to one that failed, or up to
one after which there are no more. -/
theorem ended {s : Enumeration} {context : String}
    (hwait : s.waiting = some (.pull context)) (hcalls : s.calls = [])
    (pages : List Outcome)
    (hread : ∀ x ∈ trail reply s pages, x.1.waiting.isSome = true) :
    ((run reply s pages).waiting.isSome = true →
      (run reply s pages).calls = []) ∧
    ((run reply s pages).waiting = none →
      (∃ p ∈ pages, p.Failed) ∧
          (∃ error, error ≠ "" ∧ (run reply s pages).calls = [([], error)]) ∨
        (∀ p ∈ pages, ¬p.Failed) ∧
          (run reply s pages).calls =
            [(s.items ++ pages.flatMap Outcome.items, "")]) := by
  induction pages generalizing s context with
  | nil =>
      refine ⟨fun _ => hcalls, fun hnone => ?_⟩
      rw [run_nil, hwait] at hnone
      cases hnone
  | cons p rest ih =>
      rw [trail_cons, List.forall_mem_cons] at hread
      rw [run_cons]
      -- nothing is read once the callback has run
      have hstop : ∀ {d : Enumeration}, s.reply p = d → d.waiting = none →
          rest = [] := by
        intro d hd hnone
        cases rest with
        | nil => rfl
        | cons p' rest =>
            rw [trail_cons, List.forall_mem_cons] at hread
            have hsome := hread.2.1
            rw [hd, hnone] at hsome
            cases hsome
      cases hp : p.response with
      | error error =>
          have hone := reply_failed hread.1 hp
          cases hstop hone rfl
          rw [run_nil, hone]
          refine ⟨fun hsome => (nomatch hsome), fun _ => .inl ⟨?_, error, ?_, ?_⟩⟩
          · exact ⟨p, List.mem_singleton_self p, error, hp⟩
          · exact Outcome.response_error hp
          · simp [onDone, hcalls]
      | ok soap =>
          have hopen : ¬p.Failed := by
            rintro ⟨error, herror⟩
            rw [hp] at herror
            cases herror
          rcases reply_pull hwait hp with hone | ⟨next, hone⟩
          · cases hstop hone rfl
            rw [run_nil, hone]
            refine ⟨fun hsome => (nomatch hsome), fun _ => .inr ⟨?_, ?_⟩⟩
            · intro p' hp'
              cases List.mem_singleton.mp hp'
              exact hopen
            · simp [handOver, onDone, hcalls]
          · rw [hone]
            rw [hone] at hread
            have hrest := @ih
              { s with
                waiting := some (.pull next)
                items := s.items ++ p.items } next rfl hcalls hread.2
            refine ⟨hrest.1, fun hnone => ?_⟩
            rcases hrest.2 hnone with ⟨⟨p', hp', hfailed⟩, herror⟩ | ⟨hall, hcall⟩
            · exact .inl ⟨⟨p', List.mem_cons_of_mem p hp', hfailed⟩, herror⟩
            · refine .inr ⟨List.forall_mem_cons.mpr ⟨hopen, hall⟩, ?_⟩
              rw [hcall]
              simp

/-- The pages show what was read, and no more. -/
theorem items_of_shows {pages : List Outcome} {qs : List PullPage}
    (h : List.Forall₂ Outcome.Shows pages qs)
    (hitems : pages.flatMap Outcome.items =
      (qs.flatMap PullPage.rows).map Node.tokens) :
    ∀ p ∈ pages, p.Readable := by
  have hclean : ∀ n ∈ qs.flatMap PullPage.rows, Clean n.tokens := by
    intro n hn
    have hmem : n.tokens ∈ pages.flatMap Outcome.items := by
      rw [hitems]
      exact List.mem_map_of_mem hn
    obtain ⟨p, -, hp⟩ := List.mem_flatMap.mp hmem
    exact parsePullResponse_plain _ _ hp
  clear hitems
  induction h with
  | nil => exact List.forall_mem_nil _
  | @cons p q pages qs hone _ ih =>
      rw [List.flatMap_cons] at hclean
      refine List.forall_mem_cons.mpr ⟨⟨q, hone, ?_⟩, ih fun n hn => ?_⟩
      · exact PullPage.whole fun n hn => hclean n (List.mem_append_left _ hn)
      · exact hclean n (List.mem_append_right _ hn)

theorem shows_of_readable {pages : List Outcome} (h : ∀ p ∈ pages, p.Readable) :
    ∃ qs, List.Forall₂ Outcome.Shows pages qs ∧
      pages.flatMap Outcome.items =
        (qs.flatMap PullPage.rows).map Node.tokens := by
  induction pages with
  | nil => exact ⟨[], .nil, rfl⟩
  | cons p rest ih =>
      rw [List.forall_mem_cons] at h
      obtain ⟨⟨q, hshows, hwhole⟩, hrest⟩ := h
      obtain ⟨qs, hqs, hitems⟩ := ih hrest
      refine ⟨q :: qs, .cons hshows hqs, ?_⟩
      simp [hitems, hshows.items_eq hwhole]

end Enumeration

/-- An enumeration that has its context reads pages and calls back once, when
it ends; and then it has delivered what it owes if and only if a page failed or
every page is readable. -/
theorem enumeration_iff (context : String) (pages : List Outcome)
    (hread : ∀ x ∈ trail Enumeration.reply
      { waiting := some (.pull context) } pages, x.1.waiting.isSome = true) :
    let s := run Enumeration.reply { waiting := some (.pull context) } pages
    (s.waiting.isSome = true → s.calls = []) ∧
      (s.waiting = none →
        (s.Delivers pages ↔
          (∃ p ∈ pages, p.Failed) ∨ ∀ p ∈ pages, p.Readable)) := by
  intro s
  have hended := Enumeration.ended rfl rfl pages hread
  refine ⟨hended.1, fun hnone => ?_⟩
  rcases hended.2 hnone with ⟨⟨p, hp, hfailed⟩, error, herror, hcalls⟩ |
    ⟨hall, hcalls⟩
  · refine iff_of_true ⟨[], error, hcalls, ?_, fun _ => herror⟩
      (.inl ⟨p, hp, hfailed⟩)
    intro hwell
    exact absurd (hwell p hp) hfailed.not_wellFormed
  · simp only [List.nil_append] at hcalls
    constructor
    · rintro ⟨items, error, hcalls', hgood, hbad⟩
      rw [hcalls'] at hcalls
      obtain ⟨rfl, rfl⟩ : items = pages.flatMap Outcome.items ∧ error = "" := by
        simpa using hcalls
      have hwell : ∀ p ∈ pages, p.WellFormed := by
        intro p hp
        by_contra hill
        exact hbad ⟨p, hp, hill⟩ rfl
      obtain ⟨-, qs, hqs, hitems⟩ := hgood hwell
      exact .inr (Enumeration.items_of_shows hqs hitems)
    · rintro (⟨p, hp, hfailed⟩ | hreadable)
      · exact absurd hfailed (hall p hp)
      · obtain ⟨qs, hqs, hitems⟩ := Enumeration.shows_of_readable hreadable
        refine ⟨_, "", hcalls, fun _ => ⟨rfl, qs, hqs, hitems⟩, ?_⟩
        rintro ⟨p, hp, hbad⟩
        obtain ⟨q, hq, -⟩ := hreadable p hp
        exact absurd ⟨q, hq⟩ hbad

/-! ## A page that is whole, and one that breaks off -/

def certificate (handle : String) : Node :=
  .element "r" "AMT_PublicKeyCertificate" []
    [.element "r" "InstanceID" [] [.text handle]]

/-- Two certificates, and no more to come. -/
def certificates : PullPage where
  members :=
    [.items [] [certificate "Handle: 0", certificate "Handle: 1"],
      .endOfSequence []]

theorem certificates_valid : certificates.Valid := by
  refine ⟨⟨?_, ?_⟩, ?_⟩
  · exact fun n hn => absurd hn List.not_mem_nil
  · exact fun n hn => absurd hn List.not_mem_nil
  · intro m hm
    rcases List.mem_cons.mp hm with rfl | hm
    · trivial
    · cases List.mem_singleton.mp hm
      trivial

theorem certificates_whole : certificates.Whole := by
  intro m hm
  rcases List.mem_cons.mp hm with rfl | hm
  · intro n hn
    rcases List.mem_cons.mp hn with rfl | hn
    · decide
    · cases List.mem_singleton.mp hn
      decide
  · cases List.mem_singleton.mp hm
    trivial

def certificatePage : Outcome := { xml := certificates.envelope.node.tokens }

theorem certificatePage_shows : certificatePage.Shows certificates :=
  ⟨rfl, rfl, rfl, certificates_valid⟩

theorem enumeration_seen :
    (run Enumeration.reply { waiting := some (.pull "1") }
      [certificatePage]).Delivers [certificatePage] := by
  have hiff := enumeration_iff "1" [certificatePage] (by
    intro x hx
    cases List.mem_singleton.mp hx
    rfl)
  refine (hiff.2 (by decide)).mpr (.inr ?_)
  intro p hp
  cases List.mem_singleton.mp hp
  exact ⟨certificates, certificatePage_shows, certificates_whole⟩

/-- The same page, which breaks off in the second certificate. -/
def brokenPage : Outcome where
  xml := certificates.envelope.node.tokens.take 12
  complete := false

/-- The first certificate of a page that breaks off is handed over as if it
were all there are. -/
theorem partial_page :
    ¬ ∀ (context : String) (pages : List Outcome),
      (∀ x ∈ trail Enumeration.reply { waiting := some (.pull context) } pages,
        x.1.waiting.isSome = true) →
      (run Enumeration.reply { waiting := some (.pull context) }
        pages).waiting = none →
      (run Enumeration.reply { waiting := some (.pull context) }
        pages).Delivers pages := by
  intro h
  have hcalls : (run Enumeration.reply { waiting := some (.pull "1") }
      [brokenPage]).calls =
        [([(certificate "Handle: 0").tokens], "")] := by
    decide
  obtain ⟨items, error, hcalls', -, hbad⟩ := h "1" [brokenPage] (by
    intro x hx
    cases List.mem_singleton.mp hx
    rfl) (by decide)
  have hnone : error = "" := by
    rw [hcalls] at hcalls'
    cases hcalls'
    rfl
  refine hbad ⟨brokenPage, List.mem_singleton_self _, ?_⟩ hnone
  rintro ⟨q, hq⟩
  exact absurd hq.complete (by decide)

end QuMesh.Wsman
