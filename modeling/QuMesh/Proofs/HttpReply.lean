import QuMesh.Proofs.ReplyReads

/-!
# What a reply makes of a response

A response is put together here as a server puts it together: a status line,
fields, and a body that is as long as a `Content-Length` says, or comes in
chunks, or ends with the connection. The bytes of one are what it needs up to
the last that matters, which for chunks is the end of the line that says there
are no more.

A pass over the first bytes of a response is followed by hand, chunk after
chunk, and what holds of one pass holds of the same bytes in pieces. The reply
has its body when it has all of them and not before, and fails on a body that
is more than the cap. A length of 2^63 or more is where it goes wrong: the
number does not fit, reads as zero, and the reply is done without a body.
-/

namespace QuMesh.Wsman

open QuMesh.Lib

/-! ## Responses -/

structure Field where
  name : Bytes
  value : Bytes
  token : FieldToken name := by decide +kernel
  oneLine : OneLine value := by decide +kernel

def Field.line (f : Field) : Bytes := f.name ++ 0x3A :: f.value

/-- The name in lower case, which is how names are compared. -/
def Field.key (f : Field) : Bytes := toLower f.name

structure Head where
  version : Bytes
  code : Bytes
  status : Nat
  reason : Option Bytes
  fields : List Field
  versionText : 0x20 ∉ version ∧ OneLine version := by decide +kernel
  codeNumeral : Numeral 10 code status := by decide +kernel
  threeDigits : status < 1000 := by decide +kernel
  reasonText : ∀ text ∈ reason, OneLine text := by decide +kernel

namespace Head

def statusLine (h : Head) : Bytes :=
  h.version ++ 0x20 :: (h.code ++ (h.reason.map (0x20 :: ·)).getD [])

/-- The head without the empty line behind it. -/
def raw (h : Head) : Bytes := joined h.statusLine (h.fields.map Field.line)

def bytes (h : Head) : Bytes := h.raw ++ (crlf ++ crlf)

end Head

/-- The line in front of a chunk: its size, and perhaps extensions. -/
structure SizeLine where
  size : Nat
  text : Bytes
  extensions : Bytes
  numeral : Numeral 16 text size := by decide +kernel
  separated : ∀ c ∈ extensions.head?, c = 0x3B := by decide +kernel
  oneLine : OneLine extensions := by decide +kernel

def SizeLine.line (l : SizeLine) : Bytes := l.text ++ l.extensions

def SizeLine.bytes (l : SizeLine) : Bytes := l.line ++ crlf

structure Chunk where
  sizeLine : SizeLine
  data : Bytes
  nonempty : data ≠ [] := by decide +kernel
  size_eq : sizeLine.size = data.length := by decide +kernel

def Chunk.bytes (c : Chunk) : Bytes := c.sizeLine.bytes ++ (c.data ++ crlf)

/-- The data among the first `n` bytes of these chunks. -/
def chunkedData : List Chunk → Nat → Bytes
  | [], _ => []
  | c :: cs, n =>
      c.data.take (n - c.sizeLine.bytes.length) ++
        chunkedData cs (n - c.bytes.length)

inductive Content
  | sized (data : Bytes)
  | chunked (chunks : List Chunk) (last : SizeLine) (zero : last.size = 0)
  | untilClose (data : Bytes)

namespace Content

def bytes : Content → Bytes
  | sized data => data
  | chunked chunks last _ => chunks.flatMap Chunk.bytes ++ last.bytes
  | untilClose data => data

def data : Content → Bytes
  | sized data => data
  | chunked chunks _ _ => chunks.flatMap Chunk.data
  | untilClose data => data

/-- The data among the first `n` bytes. -/
def dataWithin : Content → Nat → Bytes
  | sized data, n => data.take n
  | chunked chunks _ _, n => chunkedData chunks n
  | untilClose data, n => data.take n

/-- The response says where its body ends. -/
def Framed : Content → Prop
  | untilClose _ => False
  | _ => True

end Content

/-- What the head says about the body. A value counts without the white space
around it. The last transfer coding is `chunked`; a length is a numeral, and if
it is given twice it is the same. -/
def Head.Declares (h : Head) : Content → Prop
  | .sized data =>
      (∀ f ∈ h.fields, f.key ≠ ascii "transfer-encoding") ∧
        (∃ f ∈ h.fields, f.key = ascii "content-length") ∧
        ∀ f ∈ h.fields, f.key = ascii "content-length" →
          Numeral 10 (trimmed f.value) data.length
  | .chunked _ _ _ =>
      ∃ before f after, h.fields = before ++ f :: after ∧
        f.key = ascii "transfer-encoding" ∧
        (∀ g ∈ after, g.key ≠ ascii "transfer-encoding") ∧
        ascii "chunked" <:+ toLower (trimmed f.value)
  | .untilClose _ =>
      ∀ f ∈ h.fields, f.key ≠ ascii "transfer-encoding" ∧
        f.key ≠ ascii "content-length"

/-- A response that is not a 401. -/
structure Message where
  head : Head
  content : Content
  declared : head.Declares content
  answered : head.status ≠ 401

namespace Message

def bytes (m : Message) : Bytes := m.head.bytes ++ m.content.bytes

def data (m : Message) : Bytes := m.content.data

/-- The data among the first `n` bytes of the response. -/
def dataWithin (m : Message) (n : Nat) : Bytes :=
  m.content.dataWithin (n - m.head.bytes.length)

/-- An `int` holds the length of the head, and of every size line. -/
def Indexed (m : Message) : Prop :=
  m.head.raw.length < 2 ^ 31 ∧
    match m.content with
    | .chunked chunks last _ =>
        (∀ c ∈ chunks, c.sizeLine.line.length < 2 ^ 31) ∧
          last.line.length < 2 ^ 31
    | _ => True

end Message

/-! ## The bytes of chunks -/

/-- What starts a string of two parts is less than the first, or the first and
what starts the second. -/
theorem prefix_append_cases {b l t : Bytes} (h : b <+: l ++ t) :
    (b.length < l.length ∧ b <+: l) ∨ ∃ b', b = l ++ b' ∧ b' <+: t := by
  by_cases hlt : b.length < l.length
  · exact .inl ⟨hlt, List.prefix_of_prefix_length_le h
      (List.prefix_append l t) (Nat.le_of_lt hlt)⟩
  · right
    obtain ⟨b', rfl⟩ := List.prefix_of_prefix_length_le
      (List.prefix_append l t) h (Nat.not_lt.mp hlt)
    exact ⟨b', rfl, (List.prefix_append_right_inj l).mp h⟩

theorem chunkedData_zero (cs : List Chunk) : chunkedData cs 0 = [] := by
  induction cs with
  | nil => rfl
  | cons c cs ih =>
      rw [chunkedData, Nat.zero_sub, Nat.zero_sub, ih]
      rfl

namespace SizeLine

theorem lineText (l : SizeLine) : OneLine l.line :=
  (l.numeral.oneLine (Nat.le_refl 16)).append l.oneLine

/-- The size is what is in front of the first semicolon. -/
theorem takeWhile_line (l : SizeLine) :
    l.line.takeWhile (· != 0x3B) = l.text := by
  have hdigits := isDigit_of_digits (Nat.le_refl 16) l.numeral.2
  have htext : ∀ c ∈ l.text, (c != 0x3B) = true := fun c hc =>
    bne_iff_ne.mpr ((hdigits c hc).ne (by decide))
  have hrest : l.extensions.takeWhile (· != 0x3B) = [] := by
    have hsep := l.separated
    cases hext : l.extensions with
    | nil => rfl
    | cons c rest =>
        rw [hext] at hsep
        rw [List.takeWhile_cons, hsep c rfl]
        rfl
  rw [line, List.takeWhile_append_of_pos htext, hrest, List.append_nil]

end SizeLine

namespace Reply

/-- A size line that is not all there is waited for. -/
theorem chunkStep_short {l : SizeLine} {rd : Reply} {t : Bytes}
    (hsize : rd.readingChunkSize = true)
    (hbuffer : rd.responseBuffer <+: l.bytes ++ t)
    (hshort : rd.responseBuffer.length < l.bytes.length) :
    rd.chunkStep = (rd, some .needMore) := by
  obtain ⟨rest, hrest⟩ := hbuffer
  have hline : indexOf crlf (rd.responseBuffer ++ rest) = some l.line.length := by
    rw [hrest, SizeLine.bytes, List.append_assoc, indexOf_crlf l.lineText]
  have hlen : l.bytes.length = l.line.length + crlf.length := by
    rw [SizeLine.bytes, List.length_append]
  have hnone := indexOfInt_none
    (indexOf_none_of_short hline (by rw [← hlen]; exact hshort))
  have hcrlf : ascii "\r\n" = crlf := by decide
  rw [chunkStep_eq, if_pos hsize, hcrlf, hnone]

theorem chunkStep_line {l : SizeLine} (hindex : l.line.length < 2 ^ 31)
    {rd : Reply} {rest : Bytes} (hsize : rd.readingChunkSize = true)
    (hbuffer : rd.responseBuffer = l.bytes ++ rest) :
    rd.chunkStep =
      let size := if l.size < 2 ^ 63 then some (l.size : Int) else none
      let rd := { rd with
        responseBuffer := rest
        currentChunkRemaining := size.getD 0 }
      if size = none ∨ rd.currentChunkRemaining < 0 then
        (rd, some (.finish "Bad chunk size"))
      else if rd.currentChunkRemaining = 0 then (rd, some (.finish ""))
      else ({ rd with readingChunkSize := false }).chunkData := by
  have hbuffer' : rd.responseBuffer = l.line ++ (crlf ++ rest) := by
    rw [hbuffer, SizeLine.bytes, List.append_assoc]
  have hfind : indexOfInt crlf rd.responseBuffer = some l.line.length := by
    rw [hbuffer']
    exact indexOfInt_some (indexOf_crlf l.lineText rest) hindex
  have hcrlf : ascii "\r\n" = crlf := by decide
  have hdrop : rd.responseBuffer.drop (l.line.length + 2) = rest := by
    rw [hbuffer', List.drop_length_add_append]
    rfl
  rw [chunkStep_eq, if_pos hsize, hcrlf, hfind]
  simp only [sizeRead, hdrop]
  rw [hbuffer', List.take_left, l.takeWhile_line,
    toLongLong_numeral (Nat.le_refl 16) l.numeral]

theorem chunkStep_zero {l : SizeLine} (hindex : l.line.length < 2 ^ 31)
    (hzero : l.size = 0) {rd : Reply} {rest : Bytes}
    (hsize : rd.readingChunkSize = true)
    (hbuffer : rd.responseBuffer = l.bytes ++ rest) :
    rd.chunkStep.1.body = rd.body ∧
      rd.chunkStep.2 = some (.finish "") := by
  rw [chunkStep_line hindex hsize hbuffer, hzero]
  exact ⟨rfl, rfl⟩

/-- A size line that was read, and the data behind it. -/
def sized (size : Nat) (rest : Bytes) (rd : Reply) : Reply :=
  { rd with
    responseBuffer := rest
    currentChunkRemaining := size
    readingChunkSize := false }

theorem chunkStep_sized {l : SizeLine} (hindex : l.line.length < 2 ^ 31)
    (hpos : 0 < l.size) (hfits : l.size < 2 ^ 63) {rd : Reply} {rest : Bytes}
    (hsize : rd.readingChunkSize = true)
    (hbuffer : rd.responseBuffer = l.bytes ++ rest) :
    rd.chunkStep = (rd.sized l.size rest).chunkData := by
  have hneg : ¬(l.size : Int) < 0 := by omega
  have hzero : ¬(l.size : Int) = 0 := by omega
  rw [chunkStep_line hindex hsize hbuffer, if_pos hfits]
  simp only [reduceCtorEq, false_or, Option.getD_some, hneg, hzero, if_false]
  rfl

/-- A size that no `qint64` holds. -/
theorem chunkStep_huge {l : SizeLine} (hindex : l.line.length < 2 ^ 31)
    (hhuge : ¬l.size < 2 ^ 63) {rd : Reply} {rest : Bytes}
    (hsize : rd.readingChunkSize = true)
    (hbuffer : rd.responseBuffer = l.bytes ++ rest) :
    rd.chunkStep.2 = some (.finish "Bad chunk size") := by
  rw [chunkStep_line hindex hsize hbuffer, if_neg hhuge]
  rfl

/-- What is there of a chunk and its line end. -/
theorem sized_chunkData {c : Chunk} {rd : Reply} {b t : Bytes}
    (hbuffer : b <+: c.data ++ (crlf ++ t))
    (hfits : rd.body.length + (c.data.take b.length).length ≤ maxBodyBytes) :
    (b.length < c.data.length + 2 ∧
        (rd.sized c.data.length b).chunkData.2 = some .needMore ∧
        (rd.sized c.data.length b).chunkData.1.body =
          rd.body ++ c.data.take b.length) ∨
      ∃ b', b = c.data ++ (crlf ++ b') ∧ b' <+: t ∧
        (rd.sized c.data.length b).chunkData =
          ({ rd with
              body := rd.body ++ c.data
              responseBuffer := b'
              currentChunkRemaining := 0
              readingChunkSize := true }, none) := by
  have hsome : (rd.sized c.data.length b).dataHere = min c.data.length b.length :=
    rfl
  have htake : (c.data.take b.length).length = min b.length c.data.length :=
    List.length_take
  have hcap : ¬(rd.sized c.data.length b).body.length +
      (rd.sized c.data.length b).dataHere > maxBodyBytes := by
    rw [hsome]
    show ¬rd.body.length + _ > maxBodyBytes
    omega
  have hdata := chunkData_eq (rd.sized c.data.length b)
  rw [if_neg hcap] at hdata
  rcases prefix_append_cases hbuffer with ⟨hshort, hprefix⟩ | ⟨b₁, rfl, hb₁⟩
  · -- the data is not all there
    left
    have hb : c.data.take b.length = b := (List.prefix_iff_eq_take.mp hprefix).symm
    refine ⟨by omega, ?_⟩
    rw [hb, hdata]
    split
    · next hnil =>
        have hb' : b = [] := hnil
        rw [hb', List.append_nil]
        exact ⟨rfl, rfl⟩
    · have hall : min c.data.length b.length = b.length :=
        Nat.min_eq_right (Nat.le_of_lt hshort)
      have hleft : ¬(rd.sized c.data.length b).took.currentChunkRemaining = 0 := by
        show ¬((c.data.length : Int) - (min c.data.length b.length : Nat) = 0)
        omega
      rw [chunkEnd, if_neg hleft]
      refine ⟨rfl, ?_⟩
      show rd.body ++ b.take (min c.data.length b.length) = rd.body ++ b
      rw [hall, List.take_length]
  · have hall : (rd.sized c.data.length (c.data ++ b₁)).dataHere =
        c.data.length := by
      rw [hsome, List.length_append]
      omega
    have htook : (rd.sized c.data.length (c.data ++ b₁)).took =
        { rd with
          body := rd.body ++ c.data
          responseBuffer := b₁
          currentChunkRemaining := 0
          readingChunkSize := false } := by
      rw [took, hall]
      simp only [sized, List.take_left, List.drop_left, sub_self]
    have hne : (rd.sized c.data.length (c.data ++ b₁)).responseBuffer ≠ [] :=
      fun hnil => c.nonempty (List.append_eq_nil_iff.mp hnil).1
    rw [if_neg hne, htook] at hdata
    rcases prefix_append_cases hb₁ with ⟨hshort, -⟩ | ⟨b', rfl, hb'⟩
    · -- its line end is not
      left
      have htwo : b₁.length < 2 := hshort
      have hlong : c.data.take (c.data ++ b₁).length = c.data :=
        List.take_of_length_le (by rw [List.length_append]; omega)
      rw [chunkEnd, if_pos rfl, if_pos htwo] at hdata
      rw [hdata, hlong, List.length_append]
      exact ⟨by omega, rfl, rfl⟩
    · right
      have htwo : ¬(crlf ++ b').length < 2 := by
        rw [List.length_append]
        exact Nat.not_lt.mpr (Nat.le_add_right 2 b'.length)
      rw [chunkEnd, if_pos rfl, if_neg htwo] at hdata
      exact ⟨b', rfl, hb', hdata⟩

/-- What a pass makes of the first `n` bytes of something that has `needed`
bytes and comes to `data`, of which `within` is among them. -/
def Answers (needed : Nat) (data : Bytes) (n : Nat) (within : Bytes)
    (p : Reply × Verdict) : Prop :=
  (data.length ≤ maxBodyBytes →
      if needed ≤ n then p.2 = .finish "" ∧ p.1.body = data
      else p.2 = .needMore) ∧
    (maxBodyBytes < data.length →
      (p.2 = .needMore ∧ within.length ≤ maxBodyBytes) ∨
        ∃ err, err ≠ "" ∧ p.2 = .finish err)

theorem Answers.wants {needed n : Nat} {data within : Bytes}
    {p : Reply × Verdict} (hp : p.2 = .needMore) (hn : n < needed)
    (hwithin : within.length ≤ maxBodyBytes) :
    Answers needed data n within p := by
  refine ⟨fun _ => ?_, fun _ => .inl ⟨hp, hwithin⟩⟩
  rw [if_neg (Nat.not_le.mpr hn)]
  exact hp

theorem Answers.fails {needed n : Nat} {data within : Bytes}
    {p : Reply × Verdict} {err : String} (herr : err ≠ "")
    (hp : p.2 = .finish err) (hdata : maxBodyBytes < data.length) :
    Answers needed data n within p :=
  ⟨fun hle => absurd hdata (Nat.not_lt.mpr hle), fun _ => .inr ⟨err, herr, hp⟩⟩

/-- The count may start earlier. -/
theorem Answers.shift {needed n needed' n' : Nat} {data within : Bytes}
    {p : Reply × Verdict} (h : Answers needed data n within p)
    (hn : needed ≤ n ↔ needed' ≤ n') : Answers needed' data n' within p := by
  refine ⟨fun hle => ?_, h.2⟩
  have hends := h.1 hle
  simp only [hn] at hends
  exact hends

theorem bodyTooLong_ne : bodyTooLong ≠ "" := by
  intro h
  unfold bodyTooLong at h
  have hempty : "-byte cap" = "" := (String.append_eq_empty_iff.mp h).2
  exact absurd hempty (by decide)

/-- The loop over chunks, of which the first bytes are there. -/
theorem chunks_answers {cs : List Chunk} {last : SizeLine}
    (hcs : ∀ c ∈ cs, c.sizeLine.line.length < 2 ^ 31)
    (hlast : last.line.length < 2 ^ 31) (hzero : last.size = 0) {t : Bytes}
    {rd : Reply} (hsize : rd.readingChunkSize = true)
    (hcap : rd.body.length ≤ maxBodyBytes)
    (hbuffer : rd.responseBuffer <+:
      cs.flatMap Chunk.bytes ++ (last.bytes ++ t)) :
    Answers (cs.flatMap Chunk.bytes ++ last.bytes).length
      (rd.body ++ cs.flatMap Chunk.data) rd.responseBuffer.length
      (rd.body ++ chunkedData cs rd.responseBuffer.length) rd.chunks := by
  induction cs generalizing rd with
  | nil =>
      rw [List.flatMap_nil, List.nil_append] at hbuffer ⊢
      rw [List.flatMap_nil, List.append_nil, chunkedData, List.append_nil]
      rcases prefix_append_cases hbuffer with ⟨hshort, -⟩ | ⟨b, hb, -⟩
      · rw [chunks_stop (chunkStep_short hsize hbuffer hshort)]
        exact .wants rfl hshort hcap
      · obtain ⟨hbody, hverdict⟩ := chunkStep_zero hlast hzero hsize hb
        rw [chunks_stop (Prod.ext rfl hverdict)]
        refine ⟨fun _ => ?_, fun hlt => absurd hcap (Nat.not_le.mpr hlt)⟩
        have hle : last.bytes.length ≤ rd.responseBuffer.length := by
          rw [hb, List.length_append]
          omega
        rw [if_pos hle]
        exact ⟨rfl, hbody⟩
  | cons c cs ih =>
      have hc := hcs c List.mem_cons_self
      have hsplit : (c :: cs).flatMap Chunk.bytes ++ (last.bytes ++ t) =
          c.sizeLine.bytes ++ (c.data ++ (crlf ++
            (cs.flatMap Chunk.bytes ++ (last.bytes ++ t)))) := by
        simp only [List.flatMap_cons, Chunk.bytes, List.append_assoc]
      have hneeded : ((c :: cs).flatMap Chunk.bytes ++ last.bytes).length =
          c.sizeLine.bytes.length + (c.data.length + 2) +
            (cs.flatMap Chunk.bytes ++ last.bytes).length := by
        simp only [List.flatMap_cons, Chunk.bytes, List.length_append]
        rw [show crlf.length = 2 from rfl]
        omega
      have hbytes : c.bytes.length =
          c.sizeLine.bytes.length + (c.data.length + 2) := by
        rw [Chunk.bytes, List.length_append, List.length_append]
        rfl
      have hdata : (c :: cs).flatMap Chunk.data =
          c.data ++ cs.flatMap Chunk.data := List.flatMap_cons
      rw [hsplit] at hbuffer
      rw [hneeded, hdata, chunkedData, hbytes]
      rcases prefix_append_cases hbuffer with ⟨hshort, -⟩ | ⟨b, hb, hrest⟩
      · -- the size line is cut
        have hwithin : (rd.body ++ (c.data.take (rd.responseBuffer.length -
            c.sizeLine.bytes.length) ++ chunkedData cs
              (rd.responseBuffer.length - (c.sizeLine.bytes.length +
                (c.data.length + 2))))).length ≤ maxBodyBytes := by
          rw [Nat.sub_eq_zero_of_le (Nat.le_of_lt hshort),
            Nat.sub_eq_zero_of_le (by omega), chunkedData_zero]
          simpa using hcap
        rw [chunks_stop (chunkStep_short hsize hbuffer hshort)]
        exact .wants rfl (by omega) hwithin
      · have hn : rd.responseBuffer.length =
            c.sizeLine.bytes.length + b.length := by
          rw [hb, List.length_append]
        rw [hn, Nat.add_sub_cancel_left, Nat.add_sub_add_left]
        by_cases hhuge : c.sizeLine.size < 2 ^ 63
        · have hpos : 0 < c.sizeLine.size :=
            c.size_eq ▸ List.length_pos_iff.mpr c.nonempty
          have hstep := chunkStep_sized hc hpos hhuge hsize hb
          rw [c.size_eq] at hstep
          by_cases hfits : rd.body.length + (c.data.take b.length).length ≤
              maxBodyBytes
          · rcases sized_chunkData hrest hfits with
              ⟨hshort, hverdict, -⟩ | ⟨b', rfl, hb', hnext⟩
            · -- the chunk is cut
              rw [chunks_stop (hstep.trans (Prod.ext rfl hverdict))]
              refine .wants rfl (by omega) ?_
              rw [Nat.sub_eq_zero_of_le (Nat.le_of_lt hshort), chunkedData_zero,
                List.append_nil, List.length_append]
              exact hfits
            · have hlen : (c.data ++ (crlf ++ b')).length =
                  c.data.length + 2 + b'.length := by
                rw [List.length_append, List.length_append, ← Nat.add_assoc]
                rfl
              have hall : c.data.take (c.data ++ (crlf ++ b')).length = c.data :=
                List.take_of_length_le (by omega)
              rw [hall] at hfits
              have hcap' : (rd.body ++ c.data).length ≤ maxBodyBytes := by
                rw [List.length_append]
                exact hfits
              have hrec := @ih (fun d hd => hcs d (List.mem_cons_of_mem c hd))
                { rd with
                  body := rd.body ++ c.data
                  responseBuffer := b'
                  currentChunkRemaining := 0
                  readingChunkSize := true } rfl hcap' hb'
              rw [chunks_go (hstep.trans hnext), hall, hlen,
                Nat.add_sub_cancel_left, ← List.append_assoc, ← List.append_assoc]
              refine hrec.shift ?_
              show _ ≤ b'.length ↔ _
              omega
          · -- more of the chunk than the cap is there
            have hlong : (c.data.take b.length).length =
                min b.length c.data.length := List.length_take
            rw [hlong] at hfits
            have hne : (rd.sized c.data.length b).responseBuffer ≠ [] := by
              intro hnil
              have hnil' : b = [] := hnil
              rw [hnil', List.length_nil, Nat.zero_min] at hfits
              exact hfits hcap
            have hover : (rd.sized c.data.length b).body.length +
                (rd.sized c.data.length b).dataHere > maxBodyBytes := by
              show rd.body.length + min c.data.length b.length > maxBodyBytes
              omega
            have hverdict := chunkData_eq (rd.sized c.data.length b)
            rw [if_neg hne, if_pos hover] at hverdict
            rw [chunks_stop (hstep.trans hverdict)]
            refine .fails bodyTooLong_ne rfl ?_
            rw [List.length_append, List.length_append]
            omega
        · -- no `qint64` holds the size, and so no cap the data
          have hbad : "Bad chunk size" ≠ "" := by decide
          rw [chunks_stop (Prod.ext rfl (chunkStep_huge hc hhuge hsize hb))]
          refine .fails hbad rfl ?_
          rw [List.length_append, List.length_append, ← c.size_eq, maxBodyBytes]
          omega

end Reply

/-! ## The head -/

namespace Head

theorem code_noSpace (h : Head) : 0x20 ∉ h.code := fun hc =>
  (isDigit_of_digits (by omega) h.codeNumeral.2 _ hc).ne (by decide) rfl

theorem statusLine_split (h : Head) :
    ∃ rest, splitOn 0x20 h.statusLine = h.version :: h.code :: rest := by
  rw [statusLine, splitOn_append h.versionText.1]
  cases h.reason with
  | none =>
      rw [Option.map_none, Option.getD_none, List.append_nil,
        splitOn_last h.code_noSpace]
      exact ⟨[], rfl⟩
  | some text =>
      rw [Option.map_some, Option.getD_some, splitOn_append h.code_noSpace]
      exact ⟨_, rfl⟩

theorem oneLine_cons {c : UInt8} (hc : c ≠ 0x0D ∧ c ≠ 0x0A) {line : Bytes}
    (h : OneLine line) : OneLine (c :: line) :=
  ⟨fun hm => (List.mem_cons.mp hm).elim (fun he => hc.1 he.symm) h.1,
    fun hm => (List.mem_cons.mp hm).elim (fun he => hc.2 he.symm) h.2⟩

theorem statusLine_oneLine (h : Head) : OneLine h.statusLine := by
  have hreason : OneLine ((h.reason.map (0x20 :: ·)).getD []) := by
    have htext := h.reasonText
    cases hr : h.reason with
    | none => exact ⟨by simp, by simp⟩
    | some text => exact oneLine_cons (by decide) (htext text hr)
  exact h.versionText.2.append (oneLine_cons (by decide)
    ((h.codeNumeral.oneLine (by omega)).append hreason))

theorem line_oneLine (f : Field) : OneLine f.line :=
  f.token.oneLine.append (oneLine_cons (by decide) f.oneLine)

/-- What the reply keeps of the fields. -/
def headers (h : Head) : Headers :=
  h.fields.map fun f => (f.key, trimmed f.value)

theorem parseHead_raw (h : Head) :
    ∃ rest, parseHead h.raw = (h.version :: h.code :: rest, h.headers) := by
  obtain ⟨rest, hsplit⟩ := h.statusLine_split
  have hfields : ∀ f ∈ h.fields.map fun f => (f.name, f.value),
      FieldToken f.1 ∧ OneLine (f.1 ++ 0x3A :: f.2) := by
    intro p hp
    obtain ⟨f, -, rfl⟩ := List.mem_map.mp hp
    exact ⟨f.token, line_oneLine f⟩
  have hparse := parseHead_joined h.statusLine_oneLine hfields
  rw [List.map_map, List.map_map, hsplit] at hparse
  exact ⟨rest, hparse⟩

theorem indexOf_raw (h : Head) (t : Bytes) :
    indexOf (ascii "\r\n\r\n") (h.bytes ++ t) = some h.raw.length := by
  have hblank : ascii "\r\n\r\n" = crlf ++ crlf := by decide
  have hlines : ∀ l ∈ h.fields.map Field.line, OneLine l ∧ l ≠ [] := by
    intro l hl
    obtain ⟨f, -, rfl⟩ := List.mem_map.mp hl
    refine ⟨line_oneLine f, ?_⟩
    rw [Field.line]
    simp
  rw [hblank, bytes, List.append_assoc]
  exact indexOf_joined h.statusLine_oneLine hlines t

end Head

namespace Reply

/-- The request is written, and nothing of a response is there. -/
structure Awaiting (rd : Reply) : Prop where
  state : rd.state = .readingHeaders
  buffer : rd.responseBuffer = []
  body : rd.body = []

theorem Awaiting.capped {rd : Reply} (h : rd.Awaiting) : rd.Capped where
  body := by
    rw [h.body]
    exact Nat.zero_le _
  expected hs := by
    rw [h.state] at hs
    cases hs

/-- A head that is not all there is waited for. -/
theorem readPass_short {rd : Reply} (h : rd.Awaiting) {m : Head} {p t : Bytes}
    (hp : p <+: m.bytes ++ t) (hshort : p.length < m.bytes.length)
    {connected : Bool} (hlive : connected = true ∨ p ≠ []) :
    rd.readPass connected p = (rd.more p, .needMore) := by
  obtain ⟨rest, hrest⟩ := hp
  have hfind := m.indexOf_raw t
  have hlen : m.bytes.length = m.raw.length + 4 := by
    rw [Head.bytes, List.length_append]
    rfl
  have hneedle : (ascii "\r\n\r\n").length = 4 := by decide
  rw [← hrest] at hfind
  have hnone := indexOfInt_none (indexOf_none_of_short hfind (by omega))
  rw [readPass_eq hlive, if_pos h.state, h.buffer, List.nil_append, hnone]

/-- The reply once the head was taken off. -/
def answered (m : Head) (rest : Bytes) (rd : Reply) : Reply :=
  ({ rd with responseBuffer := rest }).headed m.code m.headers

/-- The rest of the pass that takes it off. -/
def begun (m : Head) (rest : Bytes) (connected : Bool) (rd : Reply) :
    Reply × Verdict :=
  match (rd.answered m rest).bodyMode with
  | (mid, some err) => (mid, .finish err)
  | (mid, none) => mid.readBody connected

/-- A head that is all there is taken off and read. -/
theorem readPass_takes {rd : Reply} (h : rd.Awaiting) {m : Head}
    (hindex : m.raw.length < 2 ^ 31) (connected : Bool) (rest : Bytes) :
    rd.readPass connected (m.bytes ++ rest) =
      ({ rd with responseBuffer := rest }).readHeaders connected m.raw := by
  have hfind := indexOfInt_some (m.indexOf_raw rest) hindex
  have hlen : m.bytes.length = m.raw.length + 4 := by
    rw [Head.bytes, List.length_append]
    rfl
  have hne : m.bytes ++ rest ≠ [] := by
    intro hnil
    have := congrArg List.length hnil
    rw [List.length_append, hlen, List.length_nil] at this
    omega
  have htake : (m.bytes ++ rest).take m.raw.length = m.raw := by
    rw [Head.bytes, List.append_assoc, List.take_left]
  have hdrop : (m.bytes ++ rest).drop (m.raw.length + 4) = rest := by
    rw [← hlen, List.drop_left]
  rw [readPass_eq (.inr hne), if_pos h.state, h.buffer, List.nil_append, hfind]
  dsimp only
  rw [htake, hdrop]

theorem toInt_code (m : Head) : toInt m.code = m.status := by
  have hsmall := m.threeDigits
  exact toInt_numeral m.codeNumeral (by omega)

theorem readPass_head {rd : Reply} (h : rd.Awaiting) {m : Head}
    (hindex : m.raw.length < 2 ^ 31) (h401 : m.status ≠ 401) (connected : Bool)
    (rest : Bytes) :
    rd.readPass connected (m.bytes ++ rest) = rd.begun m rest connected := by
  obtain ⟨parts, hparse⟩ := m.parseHead_raw
  have hcode : toInt m.code ≠ 401 := by
    rw [toInt_code]
    omega
  rw [readPass_takes h hindex]
  exact readHeaders_eq hparse hcode connected _

/-! ## The body modes -/

theorem headers_none {m : Head} {key : Bytes}
    (h : ∀ f ∈ m.fields, f.key ≠ key) : m.headers.value key = [] := by
  refine value_none fun p hp => ?_
  obtain ⟨f, hf, rfl⟩ := List.mem_map.mp hp
  exact h f hf

theorem not_chunked {te : Bytes} (h : te = []) :
    ¬(indexOf (ascii "chunked") (toLower te)).isSome = true := by
  rw [h]
  decide

/-- A reply that reads a body of this length. -/
def counting (n : Int) (rd : Reply) : Reply :=
  { rd with state := .readingBodyContentLength, expectedBody := n }

/-- A reply that reads chunks. -/
def chunking (rd : Reply) : Reply :=
  { rd with
    state := .readingBodyChunked
    readingChunkSize := true
    currentChunkRemaining := 0 }

theorem bodyMode_eq (rd : Reply) :
    rd.bodyMode =
      if (indexOf (ascii "chunked") (toLower (rd.responseHeaders.value
          (ascii "transfer-encoding")))).isSome then (rd.chunking, none)
      else if rd.responseHeaders.value (ascii "content-length") ≠ [] then
        let n := (toLongLong 10
          (rd.responseHeaders.value (ascii "content-length"))).getD 0
        if n < 0 then (rd.counting n, some "Bad Content-Length")
        else if n > maxBodyBytes then
          (rd.counting n,
            some s!"Content-Length {n} exceeds {maxBodyBytes}-byte cap")
        else (rd.counting n, none)
      else (rd.counting (-2), none) := rfl

theorem answered_headers (m : Head) (rest : Bytes) (rd : Reply) :
    (rd.answered m rest).responseHeaders = m.headers := rfl

/-- A length that no `qint64` holds reads as zero. -/
theorem bodyMode_length {m : Head} {n : Nat}
    (hte : ∀ f ∈ m.fields, f.key ≠ ascii "transfer-encoding")
    (hcl : ∃ f ∈ m.fields, f.key = ascii "content-length")
    (hvalue : ∀ f ∈ m.fields, f.key = ascii "content-length" →
      Numeral 10 (trimmed f.value) n) (rest : Bytes) (rd : Reply) :
    (rd.answered m rest).bodyMode =
      let length : Int := if n < 2 ^ 63 then n else 0
      if length > maxBodyBytes then
        ((rd.answered m rest).counting length, some
          s!"Content-Length {length} exceeds {maxBodyBytes}-byte cap")
      else ((rd.answered m rest).counting length, none) := by
  have hmem : ∃ p ∈ m.headers, p.1 = ascii "content-length" := by
    obtain ⟨f, hf, hkey⟩ := hcl
    exact ⟨_, List.mem_map_of_mem hf, hkey⟩
  obtain ⟨p, hp, hkey, hread⟩ := value_mem hmem
  obtain ⟨f, hf, rfl⟩ := List.mem_map.mp hp
  have hnumeral := hvalue f hf hkey
  have hlong : (toLongLong 10 (trimmed f.value)).getD 0 =
      if n < 2 ^ 63 then (n : Int) else 0 := by
    rw [toLongLong_numeral (by omega) hnumeral]
    split <;> rfl
  have hneg : ¬(if n < 2 ^ 63 then (n : Int) else 0) < 0 := by
    split <;> omega
  rw [bodyMode_eq, answered_headers, if_neg (not_chunked (headers_none hte)),
    hread, if_pos hnumeral.1]
  simp only [hlong, hneg, if_false]

theorem bodyMode_chunks {m : Head} {f : Field} {before after : List Field}
    (hfields : m.fields = before ++ f :: after)
    (hf : f.key = ascii "transfer-encoding")
    (hafter : ∀ g ∈ after, g.key ≠ ascii "transfer-encoding")
    (hlast : ascii "chunked" <:+ toLower (trimmed f.value)) (rest : Bytes)
    (rd : Reply) :
    (rd.answered m rest).bodyMode = ((rd.answered m rest).chunking, none) := by
  have hread : m.headers.value (ascii "transfer-encoding") = trimmed f.value := by
    have hnone : ∀ q ∈ after.map fun f => (f.key, trimmed f.value),
        q.1 ≠ ascii "transfer-encoding" := by
      intro q hq
      obtain ⟨g, hg, rfl⟩ := List.mem_map.mp hq
      exact hafter g hg
    have hpair : ((f.key, trimmed f.value) : Bytes × Bytes).1 =
      ascii "transfer-encoding" := hf
    rw [Head.headers, hfields, List.map_append, List.map_cons]
    exact value_last hpair hnone _
  rw [bodyMode_eq, answered_headers, hread, if_pos (indexOf_of_suffix hlast)]

theorem bodyMode_close {m : Head}
    (h : ∀ f ∈ m.fields, f.key ≠ ascii "transfer-encoding" ∧
      f.key ≠ ascii "content-length") (rest : Bytes) (rd : Reply) :
    (rd.answered m rest).bodyMode =
      ((rd.answered m rest).counting (-2), none) := by
  have hte := headers_none fun f hf => (h f hf).1
  have hcl := headers_none fun f hf => (h f hf).2
  rw [bodyMode_eq, answered_headers, if_neg (not_chunked hte), hcl,
    if_neg (not_not.mpr rfl)]

theorem counting_ends {rd : Reply} (hbody : rd.body = []) (n : Nat)
    (connected : Bool) :
    ((rd.counting n).readBody connected).1.body = rd.responseBuffer.take n ∧
      ((rd.counting n).readBody connected).2 =
        if n ≤ rd.responseBuffer.length then .finish "" else .needMore := by
  have hsized : ¬(n : Int) = -2 := by omega
  have hread : (rd.counting n).readBody connected =
      (rd.counting n).readContentLength connected := rfl
  rw [hread, readContentLength, if_neg (show ¬(rd.counting n).expectedBody = -2
    from hsized)]
  simp only [counting, hbody, List.length_nil, List.nil_append]
  by_cases hzero : n = 0
  · subst hzero
    simp
  · rw [if_neg (by omega)]
    have hneed : ((n : Int) - (0 : Nat)).toNat = n := by omega
    rw [hneed]
    refine ⟨?_, ?_⟩
    · rcases Nat.le_total n rd.responseBuffer.length with hle | hle
      · rw [Nat.min_eq_left hle]
      · rw [Nat.min_eq_right hle, List.take_length, List.take_of_length_le hle]
    · dsimp only
      rw [List.length_take]
      split
      · next hall => rw [if_pos (by omega)]
      · next hall => rw [if_neg (by omega)]

theorem untilClose_wants {rd : Reply} (hbody : rd.body = []) :
    ((rd.counting (-2)).readBody true).2 =
      if rd.responseBuffer.length ≤ maxBodyBytes then .needMore
      else .finish bodyTooLong := by
  have hread : (rd.counting (-2)).readBody true =
      (rd.counting (-2)).readContentLength true := rfl
  rw [hread, readContentLength, if_pos rfl]
  simp only [counting, hbody, List.length_nil, Nat.zero_add, if_true]
  split
  · next hlong => rw [if_neg (Nat.not_le.mpr hlong)]
  · next hfits => rw [if_pos (Nat.not_lt.mp hfits)]

theorem begun_sized {m : Head} {data : Bytes} (hm : m.Declares (.sized data))
    (hfits : data.length < 2 ^ 63) {rd : Reply} (hbody : rd.body = [])
    {rest behind : Bytes} (hrest : rest <+: data ++ behind) (connected : Bool) :
    Answers data.length data rest.length (data.take rest.length)
      (rd.begun m rest connected) := by
  obtain ⟨hte, hcl, hvalue⟩ := hm
  have hmode := bodyMode_length hte hcl hvalue rest rd
  rw [if_pos hfits] at hmode
  dsimp only at hmode
  rw [begun, hmode]
  by_cases hlong : (data.length : Int) > maxBodyBytes
  · rw [if_pos hlong]
    refine .fails ?_ rfl (by omega)
    intro hempty
    have hlast : "-byte cap" = "" := (String.append_eq_empty_iff.mp hempty).2
    exact absurd hlast (by decide)
  · rw [if_neg hlong]
    obtain ⟨hread, hverdict⟩ := counting_ends
      (show (rd.answered m rest).body = [] from hbody) data.length connected
    have hbuffer : (rd.answered m rest).responseBuffer = rest := rfl
    rw [hbuffer] at hread hverdict
    refine ⟨fun _ => ?_, fun hlt => absurd hlt (by omega)⟩
    rcases prefix_append_cases hrest with ⟨hshort, -⟩ | ⟨t, rfl, -⟩
    · rw [if_neg (Nat.not_le.mpr hshort)] at hverdict ⊢
      exact hverdict
    · have hall : data.length ≤ (data ++ t).length := by
        rw [List.length_append]
        omega
      rw [List.take_left] at hread
      rw [if_pos hall] at hverdict ⊢
      exact ⟨hverdict, hread⟩

theorem begun_chunked {m : Head} {cs : List Chunk} {last : SizeLine}
    {zero : last.size = 0} (hm : m.Declares (.chunked cs last zero))
    (hcs : ∀ c ∈ cs, c.sizeLine.line.length < 2 ^ 31)
    (hlast : last.line.length < 2 ^ 31) {rd : Reply} (hbody : rd.body = [])
    {rest behind : Bytes}
    (hrest : rest <+: cs.flatMap Chunk.bytes ++ last.bytes ++ behind)
    (connected : Bool) :
    Answers (cs.flatMap Chunk.bytes ++ last.bytes).length
      (cs.flatMap Chunk.data) rest.length (chunkedData cs rest.length)
      (rd.begun m rest connected) := by
  obtain ⟨before, f, after, hfields, hf, hafter, hte⟩ := hm
  let mid : Reply := (rd.answered m rest).chunking
  have hmid : mid.body = [] := hbody
  have hcap : mid.body.length ≤ maxBodyBytes := by
    rw [hmid]
    exact Nat.zero_le _
  rw [List.append_assoc] at hrest
  have hbuffer : mid.responseBuffer <+:
      cs.flatMap Chunk.bytes ++ (last.bytes ++ behind) := hrest
  have hanswers := chunks_answers hcs hlast zero rfl hcap hbuffer
  rw [hmid, List.nil_append, List.nil_append] at hanswers
  rw [begun, bodyMode_chunks hfields hf hafter hte]
  exact hanswers

theorem begun_untilClose {m : Head} {data : Bytes}
    (hm : m.Declares (.untilClose data)) {rd : Reply} (hbody : rd.body = [])
    (rest : Bytes) :
    (rd.begun m rest true).2 =
      if rest.length ≤ maxBodyBytes then .needMore else .finish bodyTooLong := by
  rw [begun, bodyMode_close hm]
  exact untilClose_wants (show (rd.answered m rest).body = [] from hbody)

end Reply

/-! ## A pass over a response -/

namespace Message

/-- A `Content-Length` that a `qint64` holds. -/
def LengthFits (m : Message) : Prop :=
  ∀ data, m.content = .sized data → data.length < 2 ^ 63

/-- What the reply makes of the first `n` bytes of a response. If the body is
within the cap, it has it when all that is needed has come and not before; if
the body is beyond, it wants more while what came of it is not, or has failed. -/
def Answers (m : Message) (n : Nat) (p : Reply × Verdict) : Prop :=
  (m.content.Framed → m.data.length ≤ maxBodyBytes →
      if m.bytes.length ≤ n then p.2 = .finish "" ∧ p.1.body = m.data
      else p.2 = .needMore) ∧
    (maxBodyBytes < m.data.length →
      (p.2 = .needMore ∧ (m.dataWithin n).length ≤ maxBodyBytes) ∨
        ∃ err, err ≠ "" ∧ p.2 = .finish err)

theorem dataWithin_zero (c : Content) : c.dataWithin 0 = [] := by
  cases c with
  | sized data => rfl
  | chunked chunks last zero => exact chunkedData_zero chunks
  | untilClose data => rfl

theorem pass_answers {m : Message} (hindex : m.Indexed) (hfits : m.LengthFits)
    {rd : Reply} (h : rd.Awaiting) {connected : Bool} {p behind : Bytes}
    (hlive : connected = true ∨ (p ≠ [] ∧ m.content.Framed))
    (hp : p <+: m.bytes ++ behind) :
    m.Answers p.length (rd.readPass connected p) := by
  rw [bytes, List.append_assoc] at hp
  rcases prefix_append_cases hp with ⟨hshort, -⟩ | ⟨rest, rfl, hrest⟩
  · have hpass := Reply.readPass_short h hp hshort (hlive.imp id And.left)
    rw [hpass]
    refine ⟨fun _ _ => ?_, fun _ => .inl ⟨rfl, ?_⟩⟩
    · have hmore : ¬m.bytes.length ≤ p.length := by
        rw [bytes, List.length_append]
        omega
      rw [if_neg hmore]
    · rw [dataWithin, Nat.sub_eq_zero_of_le (Nat.le_of_lt hshort),
        dataWithin_zero]
      exact Nat.zero_le _
  · have hn : (m.head.bytes ++ rest).length - m.head.bytes.length =
        rest.length := by
      rw [List.length_append, Nat.add_sub_cancel_left]
    have hneeded : m.bytes.length ≤ (m.head.bytes ++ rest).length ↔
        m.content.bytes.length ≤ rest.length := by
      rw [bytes, List.length_append, List.length_append]
      omega
    have hbody : (rd.answered m.head rest).body = [] := h.body
    have hdeclared := m.declared
    rw [Reply.readPass_head h hindex.1 m.answered connected rest]
    rw [Answers, dataWithin, hn]
    simp only [hneeded, data]
    cases hcontent : m.content with
    | sized body =>
        rw [hcontent] at hdeclared hrest
        have hanswers := Reply.begun_sized hdeclared (hfits body hcontent)
          h.body hrest connected
        exact ⟨fun _ => hanswers.1, hanswers.2⟩
    | chunked chunks last zero =>
        have hlines := hindex.2
        rw [hcontent] at hdeclared hrest hlines
        have hanswers := Reply.begun_chunked hdeclared hlines.1 hlines.2 h.body
          hrest connected
        exact ⟨fun _ => hanswers.1, hanswers.2⟩
    | untilClose body =>
        rw [hcontent] at hdeclared hlive
        have hopen : connected = true := hlive.elim id fun hframed => hframed.2.elim
        have hverdict := Reply.begun_untilClose hdeclared h.body rest
        refine ⟨False.elim, fun _ => ?_⟩
        rw [hopen, hverdict]
        split
        · next hle =>
            refine .inl ⟨rfl, Nat.le_trans ?_ hle⟩
            exact Nat.le_trans (List.length_take ▸ Nat.min_le_left _ _)
              (Nat.le_refl rest.length)
        · exact .inr ⟨_, Reply.bodyTooLong_ne, rfl⟩

/-! ## Any way the bytes come -/

theorem Answers.agree {m : Message} {n : Nat} {p q : Reply × Verdict}
    (h : m.Answers n p) (hagree : Reply.Agree q p) : m.Answers n q := by
  rcases hagree with rfl | ⟨hq, hp⟩
  · exact h
  · refine ⟨fun hframed hle => ?_, fun _ =>
      .inr ⟨_, Reply.bodyTooLong_ne, hq⟩⟩
    -- a body that ends well is not too long
    have hends := h.1 hframed hle
    split at hends
    · rw [hends.1] at hp
      exact absurd (Verdict.finish.inj hp).symm Reply.bodyTooLong_ne
    · rw [hends] at hp
      cases hp

/-- A verdict stands whatever else comes. -/
theorem Answers.later {m : Message} {n n' : Nat} {p : Reply × Verdict}
    (h : m.Answers n p) (hp : p.2 ≠ .needMore) (hle : n ≤ n') :
    m.Answers n' p := by
  refine ⟨fun hframed hcap => ?_, fun hlt => ?_⟩
  · have hends := h.1 hframed hcap
    split at hends
    · next hall =>
        rw [if_pos (Nat.le_trans hall hle)]
        exact hends
    · exact absurd hends hp
  · rcases h.2 hlt with ⟨hwants, -⟩ | hfails
    · exact absurd hwants hp
    · exact .inr hfails

/-- Passes over the bytes of a response, and of what may follow it. A body
that ends with the connection is still coming while there is one. -/
structure Arrives (m : Message) (passes : List Reply.Pass) : Prop where
  live : Reply.Live passes
  unclosed : ¬m.content.Framed → ∀ p ∈ passes, p.1 = true
  bytes : ∃ behind, Reply.arrived passes <+: m.bytes ++ behind

theorem reads_answers {m : Message} (hindex : m.Indexed) (hfits : m.LengthFits)
    {rd : Reply} (h : rd.Awaiting) {passes : List Reply.Pass}
    (hpasses : m.Arrives passes) :
    m.Answers (Reply.arrived passes).length (rd.reads passes) := by
  obtain ⟨behind, hbytes⟩ := hpasses.bytes
  by_cases hne : passes = []
  · subst hne
    have hnil (b : Bytes) : ([] : Bytes) <+: b ++ [] := List.nil_prefix
    have hhead : ([] : Bytes).length < m.head.bytes.length := by
      rw [Head.bytes, List.length_append]
      exact Nat.lt_add_left _ (by decide)
    have hpass : rd.readPass true [] = (rd, .needMore) := by
      rw [Reply.readPass_short h (hnil _) hhead (.inl rfl), Reply.more_nil]
    have hanswers := pass_answers hindex hfits h (.inl (rfl : true = true))
      (hnil m.bytes)
    rw [hpass] at hanswers
    exact hanswers
  · obtain ⟨before, last, after, hsplit, hagree, hend⟩ :=
      Reply.reads_pass hpasses.live hne rd
    have hlast : last ∈ passes := by
      rw [hsplit]
      exact List.mem_append_right _ List.mem_cons_self
    have harrived : Reply.arrived passes =
        (Reply.arrived before ++ last.2) ++ Reply.arrived after := by
      rw [hsplit, Reply.arrived, List.flatMap_append, List.flatMap_cons,
        ← List.append_assoc]
      rfl
    have hprefix : Reply.arrived before ++ last.2 <+: m.bytes ++ behind :=
      (List.prefix_append _ _).trans (harrived ▸ hbytes)
    have hlive : last.1 = true ∨
        (Reply.arrived before ++ last.2 ≠ [] ∧ m.content.Framed) := by
      by_cases hframed : m.content.Framed
      · exact (hpasses.live last hlast).imp id fun hchunk =>
          ⟨fun hnil => hchunk (List.append_eq_nil_iff.mp hnil).2, hframed⟩
      · exact .inl (hpasses.unclosed hframed last hlast)
    have hanswers := (pass_answers hindex hfits h hlive hprefix).agree hagree
    rcases hend with hafter | hverdict
    · have hnone : Reply.arrived after = [] := by rw [hafter]; rfl
      rw [harrived, hnone, List.append_nil]
      exact hanswers
    · refine hanswers.later hverdict ?_
      rw [harrived]
      exact (List.prefix_append _ _).length_le

/-- The response is read as it should be: however it comes, and whatever
comes, no body is ever beyond the cap. -/
structure Decodes (m : Message) (rd : Reply) : Prop where
  answers : ∀ passes, m.Arrives passes →
    m.Answers (Reply.arrived passes).length (rd.reads passes)
  bounded : ∀ passes, (rd.reads passes).1.body.length ≤ maxBodyBytes

/-- A length of 2^63 or more reads as none at all. -/
theorem huge_finishes {m : Message} (hindex : m.Indexed) {data : Bytes}
    (hm : m.content = .sized data) (hhuge : ¬data.length < 2 ^ 63) {rd : Reply}
    (h : rd.Awaiting) :
    (rd.reads [(true, m.head.bytes)]).2 = .finish "" := by
  have hdeclared := m.declared
  rw [hm] at hdeclared
  obtain ⟨hte, hcl, hvalue⟩ := hdeclared
  have hmode := Reply.bodyMode_length hte hcl hvalue [] rd
  have hzero : ¬(0 : Int) > maxBodyBytes := by omega
  rw [if_neg hhuge] at hmode
  dsimp only at hmode
  rw [if_neg hzero] at hmode
  have hend := (Reply.counting_ends
    (show (rd.answered m.head []).body = [] from h.body) 0 true).2
  have hpass : (rd.readPass true m.head.bytes).2 = .finish "" := by
    have hhead := Reply.readPass_head h hindex.1 m.answered true []
    rw [List.append_nil] at hhead
    rw [hhead, Reply.begun, hmode]
    exact hend
  have hpair : rd.readPass true m.head.bytes =
      ((rd.readPass true m.head.bytes).1, .finish "") := Prod.ext rfl hpass
  have hverdict : Verdict.finish "" ≠ .needMore := by simp
  rw [Reply.reads_stop hpair hverdict]

theorem Decodes.lengthFits {m : Message} (hindex : m.Indexed) {rd : Reply}
    (h : rd.Awaiting) (hdecodes : m.Decodes rd) : m.LengthFits := by
  intro body hm
  by_contra hhuge
  have hconnected : ∀ p ∈ [((true, m.head.bytes) : Reply.Pass)],
      p.1 = true := by simp
  have harrives : m.Arrives [(true, m.head.bytes)] := by
    refine ⟨fun p hp => .inl (hconnected p hp), fun _ => hconnected, [], ?_⟩
    rw [Reply.arrived, List.flatMap_singleton, List.append_nil]
    exact List.prefix_append _ _
  have hlong : maxBodyBytes < m.data.length := by
    rw [data, hm, maxBodyBytes]
    exact Nat.lt_of_lt_of_le (by decide) (Nat.not_lt.mp hhuge)
  have hdone := huge_finishes hindex hm hhuge h
  rcases (hdecodes.answers _ harrives).2 hlong with
    ⟨hwants, -⟩ | ⟨err, herr, hfails⟩
  · rw [hdone] at hwants
    cases hwants
  · rw [hdone] at hfails
    exact herr (Verdict.finish.inj hfails).symm

/-- A response that is not a 401, with a body as long as its `Content-Length`
or in chunks, reaches the caller whole: whatever its fields, its chunks and
their extensions, and however its bytes are cut, the reply is done without an
error when the last byte it needs has come and not before, with that body; a
body beyond the cap, also one that ends with the connection, ends in an error,
and no bytes at all take a body beyond it. That is so exactly where a
`Content-Length` is below 2^63; `toLongLong` says whether it was, and is not
asked. Where the code keeps an index in an `int`, the `int` is to hold it. -/
theorem reply_decodes {m : Message} (hindex : m.Indexed) {rd : Reply}
    (h : rd.Awaiting) : m.Decodes rd ↔ m.LengthFits := by
  constructor
  · exact Decodes.lengthFits hindex h
  · intro hfits
    exact ⟨fun passes hpasses => reads_answers hindex hfits h hpasses,
      Reply.reads_capped h.capped⟩

/-- A status line and these fields. -/
def okHead (fields : List Field) : Head where
  version := ascii "HTTP/1.1"
  code := ascii "200"
  status := 200
  reason := some (ascii "OK")
  fields

/-- Two chunks, one of them with an extension. -/
def twoChunks : Message where
  head := okHead [
    { name := ascii "Server", value := ascii " AMT" },
    { name := ascii "Transfer-Encoding", value := ascii " Chunked" }]
  content := .chunked
    [{ sizeLine := { size := 3, text := ascii "03", extensions := ascii ";a=b" }
       data := ascii "<s:" },
      { sizeLine := { size := 10, text := ascii "A", extensions := [] }
        data := ascii "Envelope/>" }]
    { size := 0, text := ascii "0", extensions := [] } rfl
  declared := ⟨[{ name := ascii "Server", value := ascii " AMT" }], _, [], rfl,
    by decide +kernel, by simp, by decide +kernel⟩
  answered := by decide +kernel

/-- A reply whose request is written. -/
def fresh : Reply where
  alive := true
  socket := some 0
  state := .readingHeaders

set_option maxRecDepth 10000 in
theorem reply_decodes_twoChunks : twoChunks.Decodes fresh := by
  have hindex : twoChunks.Indexed := by
    refine ⟨by decide, ?_, ?_⟩
    · decide
    · decide
  refine (reply_decodes hindex ⟨rfl, rfl, rfl⟩).mpr fun body hm => ?_
  cases hm

/-- A body of 2^63 bytes, and the numeral for it. -/
def hugeLength : Message where
  head := okHead [
    { name := ascii "Content-Length", value := ascii " 9223372036854775808" }]
  content := .sized (List.replicate (2 ^ 63) 0)
  declared := by
    have hlen : (List.replicate (2 ^ 63) (0 : UInt8)).length = 2 ^ 63 :=
      List.length_replicate
    refine ⟨by decide +kernel, by decide +kernel, ?_⟩
    rw [hlen]
    decide +kernel
  answered := by decide +kernel

set_option maxRecDepth 10000 in
theorem reply_decodes_not : ¬hugeLength.Decodes fresh := by
  intro hdecodes
  have hindex : hugeLength.Indexed := ⟨by decide, trivial⟩
  have hfits := hdecodes.lengthFits hindex ⟨rfl, rfl, rfl⟩ _ rfl
  rw [List.length_replicate] at hfits
  exact Nat.lt_irrefl _ hfits

end Message

end QuMesh.Wsman
