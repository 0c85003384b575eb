import QuMesh.Proofs.HttpReply
import QuMesh.Proofs.ReplyOutcome

/-!
# A reply that ends with the connection

A response that gives no length and is not chunked is read until the peer
closes. What tells a reply of the close is the state of the socket, and it is
looked at in `readMore`, behind the bytes that a `readyRead` brought. The peer's
close itself comes as `errorOccurred`, whose handler knows no modes: it fails
what is not finished. So the reply has its body only where `readMore` ran once
more on a socket that had been disconnected by then, and had all the bytes.
-/

namespace QuMesh.Wsman

open QuMesh.Lib

/-- A response that says nothing of its length: no `Content-Length`, and no
transfer coding that is `chunked`. -/
structure OpenEnded where
  head : Head
  data : Bytes
  noLength : ∀ f ∈ head.fields, f.key ≠ ascii "content-length"
  noChunks : ∀ f ∈ head.fields, f.key = ascii "transfer-encoding" →
    indexOf (ascii "chunked") (toLower (trimmed f.value)) = none

def OpenEnded.bytes (m : OpenEnded) : Bytes := m.head.bytes ++ m.data

/-! ## What a reply has of it -/

namespace Reply

theorem bodyMode_open (m : OpenEnded) (rest : Bytes) (rd : Reply) :
    (rd.answered m.head rest).bodyMode =
      ((rd.answered m.head rest).counting (-2), none) := by
  have hcl := headers_none m.noLength
  have hte : ¬(indexOf (ascii "chunked") (toLower (m.head.headers.value
      (ascii "transfer-encoding")))).isSome = true := by
    by_cases hf : ∃ f ∈ m.head.fields, f.key = ascii "transfer-encoding"
    · obtain ⟨f, hf, hkey⟩ := hf
      have hthere : ∃ p ∈ m.head.headers, p.1 = ascii "transfer-encoding" :=
        ⟨_, List.mem_map_of_mem hf, hkey⟩
      obtain ⟨p, hp, hpkey, hvalue⟩ := value_mem hthere
      obtain ⟨g, hg, rfl⟩ := List.mem_map.mp hp
      rw [hvalue, m.noChunks g hg hpkey]
      exact Bool.false_ne_true
    · refine not_chunked (headers_none fun f hmem hkey => hf ⟨f, hmem, hkey⟩)
  rw [bodyMode_eq, answered_headers, if_neg hte, hcl, if_neg (not_not.mpr rfl)]

/-- The reply when these bytes have come: it waits for the end of the head, or
has of the body what came behind. -/
def got (m : OpenEnded) (p : Bytes) (rd : Reply) : Reply :=
  if p.length < m.head.bytes.length then rd.more p
  else
    { (rd.answered m.head []).counting (-2) with
      body := p.drop m.head.bytes.length }

variable {m : OpenEnded} {rd : Reply}

theorem got_short {p : Bytes} (h : p.length < m.head.bytes.length) :
    rd.got m p = rd.more p := if_pos h

theorem got_long (rest : Bytes) :
    rd.got m (m.head.bytes ++ rest) =
      { (rd.answered m.head []).counting (-2) with body := rest } := by
  have hlong : ¬(m.head.bytes ++ rest).length < m.head.bytes.length := by
    rw [List.length_append]
    omega
  rw [got, if_neg hlong, List.drop_left]

/-- A pass of a reply that reads until the peer closes. -/
theorem readBody_open {rd : Reply}
    (hstate : rd.state = .readingBodyContentLength)
    (hopen : rd.expectedBody = -2)
    (hfits : rd.body.length + rd.responseBuffer.length ≤ maxBodyBytes)
    (connected : Bool) :
    rd.readBody connected =
      ({ rd with body := rd.body ++ rd.responseBuffer, responseBuffer := [] },
        if connected then .needMore else .finish "") := by
  rw [readBody_length hstate, readContentLength, if_pos hopen,
    if_neg (Nat.not_lt.mpr hfits)]

/-- A pass over a head that came in pieces is one over all of it. -/
theorem more_readPass {connected : Bool} {p chunk : Bytes}
    (hlive : connected = true ∨ chunk ≠ []) :
    (rd.more p).readPass connected chunk =
      rd.readPass connected (p ++ chunk) := by
  have hall : connected = true ∨ p ++ chunk ≠ [] :=
    hlive.imp id fun hne hnil => hne (List.append_eq_nil_iff.mp hnil).2
  have hbuffer : (rd.more p).responseBuffer ++ chunk =
      rd.responseBuffer ++ (p ++ chunk) := List.append_assoc _ _ _
  rw [readPass_eq hlive, readPass_eq hall, hbuffer, more_more]
  rfl

/-- A pass that leaves the head incomplete. -/
theorem readPass_waits (h : rd.Awaiting) {connected : Bool}
    {p chunk rest : Bytes}
    (hp : p ++ chunk ++ rest = m.bytes)
    (hshort : (p ++ chunk).length < m.head.bytes.length)
    (hlive : connected = true ∨ chunk ≠ []) :
    (rd.got m p).readPass connected chunk =
      (rd.got m (p ++ chunk), .needMore) := by
  have hfirst : p.length < m.head.bytes.length := by
    rw [List.length_append] at hshort
    omega
  have hall : connected = true ∨ p ++ chunk ≠ [] :=
    hlive.imp id fun hne hnil => hne (List.append_eq_nil_iff.mp hnil).2
  rw [got_short hfirst, more_readPass hlive, got_short hshort,
    readPass_short h (m := m.head) (t := m.data) ⟨rest, hp⟩ hshort hall]

/-- A pass that finds nothing, on a closed socket, with no head. -/
theorem readPass_cutOff (h : rd.Awaiting) {p : Bytes}
    (hshort : p.length < m.head.bytes.length) :
    ((rd.got m p).readPass false []).2 =
      .finish "Connection closed before headers" := by
  rw [got_short hshort, readPass,
    if_pos ⟨rfl, rfl, show (rd.more p).state = _ from h.state⟩]

/-- A pass that has the head, or had it before. -/
theorem readPass_reads (h : rd.Awaiting) (hindex : m.head.raw.length < 2 ^ 31)
    (h401 : m.head.status ≠ 401) {connected : Bool} {p chunk rest : Bytes}
    (hp : p ++ chunk = m.head.bytes ++ rest)
    (hlen : rest.length ≤ maxBodyBytes) :
    (rd.got m p).readPass connected chunk =
      (rd.got m (p ++ chunk),
        if connected then .needMore else .finish "") := by
  by_cases hfirst : p.length < m.head.bytes.length
  · have hne : chunk ≠ [] := by
      rintro rfl
      have hlength := congrArg List.length hp
      rw [List.append_nil, List.length_append] at hlength
      omega
    rw [got_short hfirst, more_readPass (.inr hne), hp, got_long,
      readPass_head h hindex h401, begun, bodyMode_open]
    dsimp only
    have hbody : (rd.answered m.head rest).body = [] := h.body
    rw [readBody_open rfl rfl]
    · simp only [counting, hbody, List.nil_append]
      rfl
    · show (rd.answered m.head rest).body.length + rest.length ≤ maxBodyBytes
      rw [hbody, List.length_nil, Nat.zero_add]
      exact hlen
  · obtain ⟨b, rfl⟩ : ∃ b, p = m.head.bytes ++ b := by
      have hprefix : m.head.bytes <+: p :=
        List.prefix_of_prefix_length_le (List.prefix_append _ rest)
          (hp ▸ List.prefix_append p chunk) (Nat.not_lt.mp hfirst)
      exact hprefix.imp fun b hb => hb.symm
    rw [List.append_assoc] at hp
    obtain rfl := List.append_cancel_left hp
    rw [List.append_assoc, got_long, got_long, readPass,
      if_neg (by rintro ⟨-, -, hs⟩; cases hs)]
    dsimp only
    rw [if_neg (by intro hs; cases hs), readBody_open rfl rfl]
    · rfl
    · rw [List.length_append] at hlen
      exact hlen

/-- A 401 is not read further. -/
theorem readPass_refused (h : rd.Awaiting) (hindex : m.head.raw.length < 2 ^ 31)
    (h401 : m.head.status = 401) {connected : Bool} {p chunk rest : Bytes}
    (hfirst : p.length < m.head.bytes.length)
    (hp : p ++ chunk = m.head.bytes ++ rest) :
    ((rd.got m p).readPass connected chunk).2 =
        .finish "401 without WWW-Authenticate" ∨
      ∃ wwwAuth, ((rd.got m p).readPass connected chunk).2 =
        .unauthorized wwwAuth := by
  obtain ⟨parts, hparse⟩ := m.head.parseHead_raw
  have hcode : toInt m.head.code = 401 := by
    rw [toInt_code, h401]
    rfl
  have hne : chunk ≠ [] := by
    rintro rfl
    have hlength := congrArg List.length hp
    rw [List.append_nil, List.length_append] at hlength
    omega
  rw [got_short hfirst, more_readPass (.inr hne), hp, readPass_takes h hindex,
    readHeaders, hparse]
  simp only [hcode, if_true]
  split
  · exact .inl rfl
  · exact .inr ⟨_, rfl⟩

/-- A reply that still connects reads nothing. -/
theorem readPass_connecting {rd : Reply} (h : rd.state = .connecting)
    (connected : Bool) (t : Bytes) :
    rd.readPass connected t = (rd.more t, .needMore) := by
  have hnot : rd.state ≠ .readingHeaders := by
    rw [h]
    decide
  have hbody : (rd.more t).readBody connected = (rd.more t, .needMore) := by
    rw [readBody, show (rd.more t).state = .connecting from h]
  rw [readPass, if_neg fun hnone => hnot hnone.2.2, ← hbody]
  exact if_neg hnot

theorem got_unread (m : OpenEnded) (p : Bytes) (rd : Reply) :
    (rd.got m p).unread = rd.unread := by
  unfold got
  split <;> rfl

end Reply

namespace Client

variable {c : Client} {r a : Nat}

/-! ## Other replies that start -/

theorem withReply_other {s : Nat} (hs : r ≠ s) (f : Reply → Reply) :
    (c.withReply s f).replies r = c.replies r := by
  rw [withReply_replies, if_neg hs]

theorem armTimeout_other {s : Nat} (hs : r ≠ s) :
    (c.armTimeout s).replies r = c.replies r := by
  unfold armTimeout
  split
  · rfl
  · exact withReply_other hs _

theorem wireSocketHandlers_other {s : Nat} (hs : r ≠ s) (b : Nat) :
    (c.wireSocketHandlers s b).replies r = c.replies r :=
  withReply_other (c := c) hs fun rd => { rd with socket := some b }

theorem openSocket_other {s : Nat} (hs : r ≠ s) (auth : Option DigestHeader) :
    (c.openSocket s auth).replies r = c.replies r := by
  unfold openSocket
  simp only []
  rw [withReply_other hs]
  split
  · rfl
  · rw [wireSocketHandlers_other hs]
    rfl

theorem discardResponse_other {s : Nat} (hs : r ≠ s) :
    (c.discardResponse s).replies r = c.replies r := by
  unfold discardResponse
  simp only []
  rw [withReply_other hs]
  split <;> rfl

theorem startNow_other (env : Env) {s : Nat} (hs : r ≠ s) :
    (c.startNow env s).replies r = c.replies r := by
  unfold startNow
  simp only []
  split
  · unfold retryWithDigest
    simp only []
    rw [openSocket_other hs]
    show (discardResponse s _).replies r = _
    rw [discardResponse_other hs, armTimeout_other hs]
    rfl
  · rw [startTransport, openSocket_other hs, armTimeout_other hs]
    rfl

theorem drainQueue_other (env : Env) {queue : List Nat} (hr : r ∉ queue) :
    (c.drainQueue env queue).replies r = c.replies r := by
  induction queue with
  | nil => rfl
  | cons next rest ih =>
      rw [List.mem_cons, not_or] at hr
      obtain ⟨hne, hrest⟩ := hr
      rw [drainQueue]
      split
      · rw [startNow_other env hne]
      · exact ih hrest

theorem startNow_owner (env : Env) (s : Nat) (ha : a < c.nextAttempt) :
    ((c.startNow env s).attempts a).reply = (c.attempts a).reply := by
  unfold startNow
  simp only []
  split
  · exact (retryWithDigest_opened env s).owner a ha
  · exact (startTransport_opened s).owner a ha

theorem drainQueue_owner (env : Env) (queue : List Nat)
    (ha : a < c.nextAttempt) :
    ((c.drainQueue env queue).attempts a).reply = (c.attempts a).reply := by
  induction queue with
  | nil => rfl
  | cons next rest ih =>
      rw [drainQueue]
      split
      · exact startNow_owner env next ha
      · exact ih

/-! ## A reply that has ended -/

/-- It says this, and what its socket still brings does not change it. -/
structure Ended (r a : Nat) (errorString : String) (body : Bytes) (c : Client) :
    Prop where
  finished : (c.replies r).finished = true
  errorString : (c.replies r).errorString = errorString
  body : (c.replies r).body = body
  owner : (c.attempts a).reply = r

theorem emitFinished_ended (env : Env) (state : ReplyState) (err : String)
    (hr : r ∉ c.pendingQueue) (ha : a < c.nextAttempt)
    (howner : (c.attempts a).reply = r) :
    (c.emitFinished env r state err).Ended r a err (c.replies r).body := by
  let ends (rd : Reply) : Reply :=
    { rd with state, errorString := err, finished := true }
  let c₁ := (c.withReply r ends).emit (.finished r)
  have hreply : c₁.replies r = ends (c.replies r) :=
    (withReply_replies (c := c) r r ends).trans (if_pos rfl)
  have hended {c' : Client} (hsame : c'.replies r = c₁.replies r)
      (howner' : (c'.attempts a).reply = r) :
      c'.Ended r a err (c.replies r).body := by
    rw [hreply] at hsame
    constructor
    · rw [hsame]
    · rw [hsame]
    · rw [hsame]
    · exact howner'
  unfold emitFinished
  simp only []
  split
  · refine hended (drainQueue_other env hr) ?_
    exact (drainQueue_owner (c := { c₁ with currentRequest := none }) env _
      ha).trans howner
  · exact hended rfl howner

/-- What happens on the socket of an attempt: bytes come, its state changes,
or an error is reported. -/
inductive Own (a : Nat) : Event → Prop
  | readyRead (chunk : Bytes) : Own a (.readyRead a chunk)
  | disconnected : Own a (.disconnected a)
  | errorOccurred (errorString : String) : Own a (.errorOccurred a errorString)

theorem Ended.handle {errorString : String} {body : Bytes}
    (h : c.Ended r a errorString body) (env : Env) {e : Event} (he : Own a e) :
    (c.handle env e).Ended r a errorString body := by
  have hattempt (f : Attempt → Attempt)
      (hf : (f (c.attempts a)).reply = (c.attempts a).reply) :
      (c.withAttempt a f).Ended r a errorString body :=
    ⟨h.finished, h.errorString, h.body, by
      rw [withAttempt_attempts, if_pos rfl, hf, h.owner]⟩
  cases he with
  | readyRead chunk =>
      rw [Client.handle]
      split
      · have hstep := hattempt
          (fun t => { t with unread := t.unread ++ chunk }) rfl
        rw [h.owner, readMore_finished env hstep.finished]
        exact hstep
      · exact h
  | disconnected =>
      rw [Client.handle]
      split
      · exact hattempt _ rfl
      · exact h
  | errorOccurred text =>
      rw [Client.handle]
      split
      · rw [h.owner, Client.errorOccurred, if_pos h.finished]
        exact h
      · exact h

theorem Ended.run {errorString : String} {body : Bytes}
    (h : c.Ended r a errorString body) (env : Env) {es : List Event}
    (hes : ∀ e ∈ es, Own a e) :
    (run (Client.handle env) c es).Ended r a errorString body := by
  induction es generalizing c with
  | nil => exact h
  | cons e es ih =>
      obtain ⟨he, hrest⟩ := List.forall_mem_cons.mp hes
      exact ih (h.handle env he) hrest

/-! ## A reply that reads -/

/-- It waits for what the socket of its last attempt brings. -/
structure Reading (r a : Nat) (c : Client) : Prop where
  alive : (c.replies r).alive = true
  unfinished : (c.replies r).finished = false
  errorString : (c.replies r).errorString = ""
  socket : (c.replies r).socket = some a
  owner : (c.attempts a).reply = r
  wired : (c.attempts a).wired = true
  unread : (c.attempts a).unread = []
  issued : a < c.nextAttempt
  unqueued : r ∉ c.pendingQueue

theorem Reading.isWired (h : c.Reading r a) : c.wired a = true := by
  rw [Client.wired, h.wired, h.owner, h.alive]
  rfl

theorem Reading.withReply (h : c.Reading r a) {rd : Reply}
    (hrd : rd.unread = (c.replies r).unread) :
    (c.withReply r fun _ => rd).Reading r a := by
  have hreply : (c.withReply r fun _ => rd).replies r = rd := by
    rw [withReply_replies, if_pos rfl]
  have hfield {β : Type} (f : Reply → β) (hf : ∀ x : Reply, f x.unread = f x) :
      f ((c.withReply r fun _ => rd).replies r) = f (c.replies r) := by
    rw [hreply, ← hf rd, hrd, hf]
  exact ⟨(hfield (·.alive) fun _ => rfl).trans h.alive,
    (hfield (·.finished) fun _ => rfl).trans h.unfinished,
    (hfield (·.errorString) fun _ => rfl).trans h.errorString,
    (hfield (·.socket) fun _ => rfl).trans h.socket, h.owner, h.wired, h.unread,
    h.issued, h.unqueued⟩

theorem Reading.disconnected (h : c.Reading r a) :
    (c.withAttempt a fun t => { t with connected := false }).Reading r a := by
  have hfield {β : Type} (f : Attempt → β)
      (hf : ∀ t : Attempt, f { t with connected := false } = f t) :
      f ((c.withAttempt a fun t => { t with connected := false }).attempts a) =
        f (c.attempts a) := by
    rw [withAttempt_attempts, if_pos rfl, hf]
  exact ⟨h.alive, h.unfinished, h.errorString, h.socket,
    (hfield (·.reply) fun _ => rfl).trans h.owner,
    (hfield (·.wired) fun _ => rfl).trans h.wired,
    (hfield (·.unread) fun _ => rfl).trans h.unread, h.issued, h.unqueued⟩

/-- Bytes that come are read at once. -/
theorem Reading.readyRead (h : c.Reading r a) (env : Env) (chunk : Bytes) :
    c.handle env (.readyRead a chunk) =
      c.answerPass env r
        ((c.replies r).readPass (c.attempts a).connected chunk) := by
  let c₁ := c.withAttempt a fun t => { t with unread := t.unread ++ chunk }
  have hattempt : c₁.attempts a =
      { c.attempts a with unread := (c.attempts a).unread ++ chunk } :=
    (withAttempt_attempts a a _).trans (if_pos rfl)
  have hemptied : c₁.withAttempt a (fun t => { t with unread := [] }) = c := by
    have hblank : { c.attempts a with unread := [] } = c.attempts a := by
      rw [← h.unread]
    simp only [c₁, Client.withAttempt, Function.update_self,
      Function.update_idem, hblank, Function.update_eq_self]
  rw [Client.handle, if_pos h.isWired, h.owner,
    readMore_eq (c := c₁) env h.socket h.unfinished, hemptied, hattempt,
    h.unread]
  rfl

theorem Reading.finishReply (h : c.Reading r a) (env : Env) (err : String) :
    (c.finishReply env r err).Ended r a err (c.replies r).body := by
  have hstop : (c.stopTimer r).Reading r a ∧
      ((c.stopTimer r).replies r).body = (c.replies r).body := by
    unfold stopTimer
    split
    · have hreply :
          (c.withReply r fun rd => { rd with timer := .spent }).replies r = { c.replies r with timer := .spent } :=
        (withReply_replies r r _).trans (if_pos rfl)
      refine ⟨?_, by rw [hreply]⟩
      obtain ⟨halive, hf, herr, hsocket, howner, hwired, hunread, hissued,
        hqueue⟩ := h
      constructor
      all_goals first | assumption | (rw [hreply]; assumption)
    · exact ⟨h, rfl⟩
  obtain ⟨hr, hbody⟩ := hstop
  rw [← hbody, Client.finishReply, if_neg (by rw [h.unfinished]; decide)]
  split
  · exact emitFinished_ended env _ _ hr.unqueued hr.issued hr.owner
  · next hempty =>
      rw [not_not.mp hempty]
      have hended := emitFinished_ended env .done (c.replies r).errorString
        hr.unqueued hr.issued hr.owner
      rw [h.errorString] at hended ⊢
      exact hended

theorem Reading.fails (h : c.Reading r a) (env : Env) (text : String) :
    (c.handle env (.errorOccurred a text)).Ended r a text
      (c.replies r).body := by
  rw [Client.handle, if_pos h.isWired, h.owner, Client.errorOccurred,
    if_neg (by rw [h.unfinished]; decide), h.socket]
  exact emitFinished_ended env _ _ h.unqueued h.issued h.owner

/-- A pass that ends the reply. -/
theorem Reading.ends (h : c.Reading r a) (env : Env) {rd : Reply}
    (hrd : rd.unread = (c.replies r).unread) (err : String) :
    (c.answerPass env r (rd, .finish err)).Ended r a err rd.body := by
  have hended := (h.withReply hrd).finishReply env err
  rw [withReply_replies, if_pos rfl] at hended
  exact hended

/-! ## A reply that was refused -/

/-- It goes on over another socket. -/
structure Retried (r a : Nat) (c : Client) : Prop where
  unfinished : (c.replies r).finished = false
  connecting : (c.replies r).state = .connecting
  owner : (c.attempts a).reply = r
  issued : a < c.nextAttempt
  unqueued : r ∉ c.pendingQueue

/-- It failed, or goes on elsewhere. -/
def Refused (r a : Nat) (c : Client) : Prop :=
  (∃ err body, err ≠ "" ∧ c.Ended r a err body) ∨ c.Retried r a

theorem retryWithDigest_connecting (env : Env) (r : Nat) :
    ((c.retryWithDigest env r).replies r).state = .connecting := by
  unfold retryWithDigest openSocket
  simp only []
  rw [withReply_replies, if_pos rfl]

theorem Reading.retries (h : c.Reading r a) (env : Env) :
    (c.retryWithDigest env r).Retried r a where
  unfinished := ((retryWithDigest_calm env r).finished r).trans h.unfinished
  connecting := retryWithDigest_connecting env r
  owner := ((retryWithDigest_opened env r).owner a h.issued).trans h.owner
  issued := by
    rw [(retryWithDigest_opened env r).issued]
    exact Nat.lt_succ_of_lt h.issued
  unqueued := by
    rw [(retryWithDigest_calm env r).queue]
    exact h.unqueued

theorem Reading.unauthorized (h : c.Reading r a) (env : Env) (wwwAuth : Bytes) :
    (c.unauthorized env r wwwAuth).Refused r a := by
  have hcached :
      (c.cacheChallenge (parseDigestChallenge wwwAuth)).Reading r a :=
    ⟨h.alive, h.unfinished, h.errorString, h.socket, h.owner, h.wired, h.unread,
      h.issued, h.unqueued⟩
  have hfails (err : String) (hne : err ≠ "") :
      ((c.cacheChallenge (parseDigestChallenge wwwAuth)).finishReply env r
        err).Refused r a :=
    .inl ⟨err, _, hne, hcached.finishReply env err⟩
  unfold Client.unauthorized
  simp only []
  split
  · exact hfails _ (by decide)
  · by_cases hspent : ((c.cacheChallenge
        (parseDigestChallenge wwwAuth)).replies r).digestRetries ≥
        if toLower ((parseDigestChallenge wwwAuth).value (ascii "stale")) =
          ascii "true" then 2 else 1
    · rw [if_pos hspent]
      exact hfails _ (by decide)
    · rw [if_neg hspent]
      let again (rd : Reply) : Reply :=
        { rd with digestRetries := rd.digestRetries + 1 }
      let c₁ := c.cacheChallenge (parseDigestChallenge wwwAuth)
      have hreply : (c₁.withReply r again).replies r = again (c.replies r) :=
        (withReply_replies (c := c₁) r r again).trans (if_pos rfl)
      have hagain : (c₁.withReply r again).Reading r a := by
        obtain ⟨halive, hf, herr, hsocket, howner, hwired, hunread, hissued,
          hqueue⟩ := h
        constructor
        all_goals first | assumption | (rw [hreply]; assumption)
      exact .inr (hagain.retries env)

/-- A pass over a 401. -/
theorem Reading.refuses (h : c.Reading r a) (env : Env) {p : Reply × Verdict}
    (hp : p.1.unread = (c.replies r).unread)
    (hrefused : p.2 = .finish "401 without WWW-Authenticate" ∨
      ∃ wwwAuth, p.2 = .unauthorized wwwAuth) :
    (c.answerPass env r p).Refused r a := by
  obtain ⟨rd, verdict⟩ := p
  rcases hrefused with rfl | ⟨wwwAuth, rfl⟩
  · have hne : "401 without WWW-Authenticate" ≠ "" := by decide
    exact .inl ⟨_, _, hne, h.ends env hp _⟩
  · exact (h.withReply hp).unauthorized env wwwAuth

theorem Retried.withAttempt (h : c.Retried r a) (f : Attempt → Attempt)
    (hf : ∀ t, (f t).reply = t.reply) (b : Nat) :
    (c.withAttempt b f).Retried r a where
  unfinished := h.unfinished
  connecting := h.connecting
  owner := (withAttempt_field (·.reply) b a f (hf _)).trans h.owner
  issued := h.issued
  unqueued := h.unqueued

theorem Retried.withReply (h : c.Retried r a) {rd : Reply}
    (hf : rd.finished = false) (hs : rd.state = .connecting) :
    (c.withReply r fun _ => rd).Retried r a := by
  have hreply : (c.withReply r fun _ => rd).replies r = rd :=
    (withReply_replies r r _).trans (if_pos rfl)
  exact ⟨(congrArg Reply.finished hreply).trans hf,
    (congrArg Reply.state hreply).trans hs, h.owner, h.issued, h.unqueued⟩

/-- The old socket has nothing to say to it but an error. -/
theorem Retried.handle (h : c.Retried r a) (env : Env) {e : Event}
    (he : Own a e) (herr : ∀ text, e = .errorOccurred a text → text ≠ "") :
    (c.handle env e).Refused r a := by
  cases he with
  | readyRead chunk =>
      rw [Client.handle]
      split
      · have hcame : (c.withAttempt a fun t =>
            { t with unread := t.unread ++ chunk }).Retried r a :=
          h.withAttempt _ (by intro t; rfl) a
        rw [h.owner]
        generalize (c.withAttempt a fun t =>
          { t with unread := t.unread ++ chunk }) = c₁ at hcame
        cases hsocket : (c₁.replies r).socket with
        | none =>
            rw [readMore_unsocketed env hsocket]
            exact .inr hcame
        | some b =>
            rw [readMore_eq env hsocket hcame.unfinished,
              Reply.readPass_connecting hcame.connecting]
            have hread : (c₁.withAttempt b fun t =>
                { t with unread := [] }).Retried r a :=
              hcame.withAttempt _ (by intro t; rfl) b
            exact .inr (hread.withReply hcame.unfinished hcame.connecting)
      · exact .inr h
  | disconnected =>
      rw [Client.handle]
      split
      · exact .inr (h.withAttempt _ (by intro t; rfl) a)
      · exact .inr h
  | errorOccurred text =>
      rw [Client.handle]
      split
      · rw [h.owner, Client.errorOccurred,
          if_neg (by rw [h.unfinished]; decide)]
        split
        · exact .inr h
        · exact .inl ⟨text, _, herr text rfl, emitFinished_ended env _ _
            h.unqueued h.issued h.owner⟩
      · exact .inr h

theorem Refused.run (h : c.Refused r a) (env : Env) {es : List Event}
    (hes : ∀ e ∈ es, Own a e ∧ ∀ text, e = .errorOccurred a text → text ≠ "") :
    (Lib.run (Client.handle env) c es).Refused r a := by
  induction es generalizing c with
  | nil => exact h
  | cons e es ih =>
      obtain ⟨⟨he, herr⟩, hrest⟩ := List.forall_mem_cons.mp hes
      refine ih ?_ hrest
      rcases h with ⟨err, body, hne, hended⟩ | hretried
      · exact .inl ⟨err, body, hne, hended.handle env he⟩
      · exact hretried.handle env he herr

end Client

/-! ## Until the peer closes -/

/-- What the socket of a reply announces: bytes, or that it is not connected
any more. -/
inductive Arrival
  | chunk (bytes : Bytes)
  | gone

namespace Arrival

def event (a : Nat) : Arrival → Event
  | chunk bytes => .readyRead a bytes
  | gone => .disconnected a

def bytes : Arrival → Bytes
  | chunk bytes => bytes
  | gone => []

theorem event_own (a : Nat) (arrival : Arrival) :
    Client.Own a (arrival.event a) := by
  cases arrival with
  | chunk bytes => exact .readyRead bytes
  | gone => exact .disconnected

/-- The calls of `readMore`, each with the state it finds the socket in. -/
def passes : Bool → List Arrival → List Reply.Pass
  | _, [] => []
  | connected, chunk bytes :: rest =>
      (connected, bytes) :: passes connected rest
  | _, gone :: rest => passes false rest

end Arrival

/-- After `n` bytes: a pass comes upon the closed socket when the head is
there, and the first that does has all bytes. While the head is not, no pass on
the closed socket finds nothing. -/
def SeesClose (head total : Nat) : Nat → List Reply.Pass → Prop
  | _, [] => False
  | n, (true, chunk) :: rest => SeesClose head total (n + chunk.length) rest
  | n, (false, chunk) :: rest =>
      if n + chunk.length < head then
        chunk ≠ [] ∧ SeesClose head total (n + chunk.length) rest
      else n + chunk.length = total

instance decidableSeesClose (head total : Nat) :
    ∀ n passes, Decidable (SeesClose head total n passes)
  | _, [] => .isFalse id
  | n, (true, chunk) :: rest =>
      decidableSeesClose head total (n + chunk.length) rest
  | n, (false, chunk) :: rest =>
      have := decidableSeesClose head total (n + chunk.length) rest
      inferInstanceAs (Decidable (if n + chunk.length < head then
        chunk ≠ [] ∧ SeesClose head total (n + chunk.length) rest
        else n + chunk.length = total))

namespace Client

/-- The reply ended without an error, with this body. -/
def Done (r : Nat) (body : Bytes) (c : Client) : Prop :=
  (c.replies r).finished = true ∧ (c.replies r).errorString = "" ∧
    (c.replies r).body = body

variable {c : Client} {r a : Nat}

theorem Ended.done_iff {err : String} {body data : Bytes}
    (h : c.Ended r a err body) : c.Done r data ↔ err = "" ∧ body = data := by
  rw [Done, h.finished, h.errorString, h.body]
  exact ⟨And.right, fun hdone => ⟨rfl, hdone⟩⟩

theorem Refused.not_done (h : c.Refused r a) (data : Bytes) :
    ¬c.Done r data := by
  rcases h with ⟨err, body, hne, hended⟩ | hretried
  · rw [hended.done_iff]
    exact fun hdone => hne hdone.1
  · intro hdone
    have hfinished := hdone.1
    rw [hretried.unfinished] at hfinished
    cases hfinished

/-- What the socket brings, and then the close. -/
def closing (a : Nat) (arrivals : List Arrival) (text : String) : List Event :=
  arrivals.map (Arrival.event a) ++ [.errorOccurred a text]

theorem closing_own (arrivals : List Arrival) {text : String}
    (htext : text ≠ "") :
    ∀ e ∈ closing a arrivals text,
      Own a e ∧ ∀ t, e = .errorOccurred a t → t ≠ "" := by
  intro e he
  rcases List.mem_append.mp he with he | he
  · obtain ⟨arrival, -, rfl⟩ := List.mem_map.mp he
    refine ⟨arrival.event_own a, fun t ht => ?_⟩
    cases arrival <;> cases ht
  · rw [List.mem_singleton.mp he]
    refine ⟨.errorOccurred text, fun t ht => ?_⟩
    cases ht
    exact htext

theorem Reading.gone (h : c.Reading r a) (env : Env) :
    (c.handle env (.disconnected a)).Reading r a ∧
      (c.handle env (.disconnected a)).replies r = c.replies r ∧
      ((c.handle env (.disconnected a)).attempts a).connected = false := by
  rw [Client.handle, if_pos h.isWired]
  refine ⟨h.disconnected, rfl, ?_⟩
  rw [withAttempt_attempts, if_pos rfl]

/-- A pass that wants more. -/
theorem Reading.goesOn (h : c.Reading r a) (env : Env) {chunk : Bytes}
    {rd : Reply} (hpass : (c.replies r).readPass (c.attempts a).connected
      chunk = (rd, .needMore)) (hrd : rd.unread = (c.replies r).unread) :
    (c.handle env (.readyRead a chunk)).Reading r a ∧
      (c.handle env (.readyRead a chunk)).replies r = rd ∧
      ((c.handle env (.readyRead a chunk)).attempts a).connected =
        (c.attempts a).connected := by
  rw [h.readyRead, hpass]
  exact ⟨h.withReply hrd,
    (withReply_replies (c := c) r r fun _ => rd).trans (if_pos rfl), rfl⟩

/-- A pass that ends the reply, and what comes behind it. -/
theorem Reading.ended (h : c.Reading r a) (env : Env) {chunk : Bytes}
    {rd : Reply} {err : String} (hpass : (c.replies r).readPass (c.attempts a).connected
      chunk = (rd, .finish err)) (hrd : rd.unread = (c.replies r).unread)
    {es : List Event} (hes : ∀ e ∈ es, Own a e) :
    (run (Client.handle env) c (.readyRead a chunk :: es)).Ended r a err
      rd.body := by
  have hended := h.ends env hrd err
  rw [← hpass, ← h.readyRead] at hended
  exact hended.run env hes

section Closing

variable {m : OpenEnded} {rd : Reply} (env : Env) {text : String}
  (hrd : rd.Awaiting) (hindex : m.head.raw.length < 2 ^ 31)
  (htext : text ≠ "")
include hrd htext

/-- With the head incomplete, a pass that finds nothing on a closed socket is
the end. -/
theorem closing_cutOff {p : Bytes} (h : c.Reading r a)
    (hreply : c.replies r = rd.got m p)
    (hshort : p.length < m.head.bytes.length)
    (hclosed : (c.attempts a).connected = false) (arrivals : List Arrival) :
    ¬(run (Client.handle env) c
      (closing a (.chunk [] :: arrivals) text)).Done r m.data := by
  have hpass : (c.replies r).readPass (c.attempts a).connected [] =
      (((c.replies r).readPass false []).1,
        .finish "Connection closed before headers") := by
    rw [hreply, hclosed]
    exact Prod.ext rfl (Reply.readPass_cutOff hrd hshort)
  have hended := h.ended env hpass (Reply.readPass_unread _ _ _)
    fun e he => (closing_own arrivals htext e he).1
  rw [show closing a (.chunk [] :: arrivals) text =
    .readyRead a [] :: closing a arrivals text from rfl, hended.done_iff]
  exact fun hdone => absurd hdone.1 (by decide)

include hindex

/-- A 401 is never a body. -/
theorem closing_refused (h401 : m.head.status = 401) (arrivals : List Arrival)
    {p : Bytes} (h : c.Reading r a) (hreply : c.replies r = rd.got m p)
    (hshort : p.length < m.head.bytes.length)
    (hp : p ++ arrivals.flatMap Arrival.bytes = m.bytes) :
    ¬(run (Client.handle env) c (closing a arrivals text)).Done r m.data := by
  induction arrivals generalizing c p with
  | nil =>
      have hended := h.fails env text
      show ¬(c.handle env (.errorOccurred a text)).Done r m.data
      rw [hended.done_iff]
      exact fun hdone => htext hdone.1
  | cons arrival arrivals ih =>
      cases arrival with
      | gone =>
          obtain ⟨hgone, hsame, -⟩ := h.gone env
          exact ih hgone (hsame.trans hreply) hshort hp
      | chunk chunk =>
          rw [List.flatMap_cons, ← List.append_assoc] at hp
          by_cases hq : (p ++ chunk).length < m.head.bytes.length
          · by_cases hlive : (c.attempts a).connected = true ∨ chunk ≠ []
            · have hpass := Reply.readPass_waits hrd hp hq hlive
              rw [← hreply] at hpass
              obtain ⟨hnext, hsame, -⟩ := h.goesOn env hpass
                (by rw [hreply, Reply.got_unread, Reply.got_unread])
              exact ih hnext hsame hq hp
            · rw [not_or, Bool.not_eq_true, not_not] at hlive
              obtain ⟨hclosed, rfl⟩ := hlive
              exact closing_cutOff env hrd htext h hreply hshort hclosed
                arrivals
          · obtain ⟨rest, hrest⟩ : m.head.bytes <+: p ++ chunk :=
              List.prefix_of_prefix_length_le (List.prefix_append _ m.data)
                (by rw [← OpenEnded.bytes, ← hp]; exact List.prefix_append _ _)
                (Nat.not_lt.mp hq)
            have hpass := @Reply.readPass_refused m rd hrd hindex h401
              (c.attempts a).connected p chunk rest hshort hrest.symm
            rw [← hreply] at hpass
            have hrefused := h.refuses env (Reply.readPass_unread _ _ _) hpass
            rw [← h.readyRead] at hrefused
            have hend := hrefused.run env (closing_own arrivals htext)
            exact hend.not_done m.data

/-- Any other response is done where a pass sees the close. -/
theorem closing_done (h401 : m.head.status ≠ 401)
    (hcap : m.data.length ≤ maxBodyBytes) (arrivals : List Arrival) {p : Bytes}
    (h : c.Reading r a) (hreply : c.replies r = rd.got m p)
    (hp : p ++ arrivals.flatMap Arrival.bytes = m.bytes) :
    (run (Client.handle env) c (closing a arrivals text)).Done r m.data ↔
      SeesClose m.head.bytes.length m.bytes.length p.length
        (Arrival.passes (c.attempts a).connected arrivals) := by
  induction arrivals generalizing c p with
  | nil =>
      have hended := h.fails env text
      show (c.handle env (.errorOccurred a text)).Done r m.data ↔ False
      rw [hended.done_iff]
      exact iff_of_false (fun hdone => htext hdone.1) id
  | cons arrival arrivals ih =>
      cases arrival with
      | gone =>
          obtain ⟨hgone, hsame, hclosed⟩ := h.gone env
          have hrest := ih hgone (hsame.trans hreply) hp
          rw [hclosed] at hrest
          exact hrest
      | chunk chunk =>
          rw [List.flatMap_cons, ← List.append_assoc] at hp
          change p ++ chunk ++ arrivals.flatMap Arrival.bytes = m.bytes at hp
          -- where the pass wants more, the rest decides
          have hgoes (hpass : (rd.got m p).readPass (c.attempts a).connected
              chunk = (rd.got m (p ++ chunk), .needMore)) :
              (run (Client.handle env) c (closing a (.chunk chunk :: arrivals)
                text)).Done r m.data ↔
                SeesClose m.head.bytes.length m.bytes.length
                  (p.length + chunk.length)
                  (Arrival.passes (c.attempts a).connected arrivals) := by
            rw [← hreply] at hpass
            obtain ⟨hnext, hsame, hconnected⟩ := h.goesOn env hpass
              (by rw [hreply, Reply.got_unread, Reply.got_unread])
            have hrest := ih hnext hsame hp
            rw [hconnected, List.length_append] at hrest
            exact hrest
          have hreads (hq : ¬(p ++ chunk).length < m.head.bytes.length) :
              (rd.got m p).readPass (c.attempts a).connected chunk =
                (rd.got m (p ++ chunk),
                  if (c.attempts a).connected then .needMore else .finish "") ∧
                ∃ rest, p ++ chunk = m.head.bytes ++ rest ∧
                  rest ++ arrivals.flatMap Arrival.bytes = m.data := by
            obtain ⟨rest, hrest⟩ : m.head.bytes <+: p ++ chunk :=
              List.prefix_of_prefix_length_le (List.prefix_append _ m.data)
                (by rw [← OpenEnded.bytes, ← hp]; exact List.prefix_append _ _)
                (Nat.not_lt.mp hq)
            have hdata : rest ++ arrivals.flatMap Arrival.bytes = m.data := by
              rw [← hrest, OpenEnded.bytes, List.append_assoc] at hp
              exact List.append_cancel_left hp
            refine ⟨Reply.readPass_reads hrd hindex h401 hrest.symm ?_, rest,
              hrest.symm, hdata⟩
            rw [← hdata, List.length_append] at hcap
            omega
          cases hconnected : (c.attempts a).connected with
          | true =>
              rw [Arrival.passes, SeesClose, ← hconnected]
              by_cases hq : (p ++ chunk).length < m.head.bytes.length
              · exact hgoes (Reply.readPass_waits hrd hp hq (.inl hconnected))
              · have hpass := (hreads hq).1
                rw [if_pos hconnected] at hpass
                exact hgoes hpass
          | false =>
              rw [Arrival.passes, SeesClose, ← List.length_append]
              by_cases hq : (p ++ chunk).length < m.head.bytes.length
              · rw [if_pos hq]
                by_cases hnil : chunk = []
                · subst hnil
                  rw [List.append_nil] at hq
                  exact iff_of_false (closing_cutOff env hrd htext h hreply hq
                    hconnected arrivals) fun hsees => hsees.1 rfl
                · rw [List.length_append, ← hconnected,
                    hgoes (Reply.readPass_waits hrd hp hq (.inr hnil))]
                  exact (and_iff_right hnil).symm
              · obtain ⟨hpass, rest, hrest, hdata⟩ := hreads hq
                rw [hconnected, ← hreply, if_neg Bool.false_ne_true,
                  ← hconnected] at hpass
                have hended := h.ended env hpass
                  (by rw [hreply, Reply.got_unread, Reply.got_unread])
                  fun e he => (closing_own arrivals htext e he).1
                rw [if_neg hq, show closing a (.chunk chunk :: arrivals) text =
                  .readyRead a chunk :: closing a arrivals text from rfl,
                  hended.done_iff, hrest, Reply.got_long, OpenEnded.bytes,
                  List.length_append, List.length_append,
                  Nat.add_left_cancel_iff, ← hdata, List.length_append]
                dsimp only
                constructor
                · rintro ⟨-, hall⟩
                  have hlength := congrArg List.length hall
                  rw [List.length_append] at hlength
                  exact hlength
                · intro hlength
                  have hnone : arrivals.flatMap Arrival.bytes = [] :=
                    List.length_eq_zero_iff.mp (by omega)
                  rw [hnone, List.append_nil]
                  exact ⟨rfl, rfl⟩

end Closing

end Client

/-- A response of any length within the cap that does not say how long it is,
read in any pieces, with the socket disconnected at any point or at none,
and then the peer's close reported as an error: the reply is done with all
bytes behind the head exactly where the response is not a 401 and a pass of
`readMore` saw the close first. -/
theorem readToClose_done_iff (env : Env) {c : Client} {r a : Nat}
    (h : c.Reading r a) (hawaiting : (c.replies r).Awaiting) (m : OpenEnded)
    (hindex : m.head.raw.length < 2 ^ 31) (hcap : m.data.length ≤ maxBodyBytes)
    {arrivals : List Arrival}
    (harrived : arrivals.flatMap Arrival.bytes = m.bytes) {text : String}
    (htext : text ≠ "") :
    (run (Client.handle env) c (Client.closing a arrivals text)).Done r m.data ↔
      m.head.status ≠ 401 ∧ SeesClose m.head.bytes.length m.bytes.length 0
        (Arrival.passes (c.attempts a).connected arrivals) := by
  have hhead : ([] : Bytes).length < m.head.bytes.length := by
    rw [Head.bytes, List.length_append]
    exact Nat.lt_add_left _ (by decide)
  have hreply : c.replies r = (c.replies r).got m [] := by
    rw [Reply.got_short hhead, Reply.more_nil]
  by_cases h401 : m.head.status = 401
  · refine iff_of_false ?_ fun hsees => hsees.1 h401
    exact Client.closing_refused env hawaiting hindex htext h401 arrivals h
      hreply hhead harrived
  · rw [and_iff_right h401]
    exact Client.closing_done env hawaiting hindex htext h401 hcap arrivals h
      hreply harrived

private def closeEnv : Env where
  md5Hex _ := ascii "h"
  sha256 := id
  randomCnonce _ := ascii "c"

/-- A request that is written, and its reply is awaited. -/
private def asked : Client :=
  run (Client.handle closeEnv) {} [.sendEnvelope [] none, .connected 0]

private theorem asked_reading : asked.Reading 0 0 := by
  constructor <;> decide

private theorem asked_awaiting : (asked.replies 0).Awaiting := by
  constructor <;> decide

private theorem server_token : FieldToken (ascii "Server") := by decide +kernel

private theorem server_oneLine : OneLine (ascii " Intel(R) AMT") := by
  decide +kernel

private def serverField : Field where
  name := ascii "Server"
  value := ascii " Intel(R) AMT"
  token := server_token
  oneLine := server_oneLine

/-- A body, and nothing about its length. -/
def briefReply : OpenEnded where
  head := Message.okHead [serverField]
  data := ascii "<Envelope/>"
  noLength f hf := by
    rw [show f = serverField from List.mem_singleton.mp hf]
    decide
  noChunks f hf hkey := by
    rw [show f = serverField from List.mem_singleton.mp hf] at hkey
    have hother : serverField.key ≠ ascii "transfer-encoding" := by
      decide
    exact absurd hkey hother

/-- The end of the body is read when the socket is disconnected already. -/
theorem readToClose_done_seen :
    (run (Client.handle closeEnv) asked (Client.closing 0
      [.chunk (briefReply.head.bytes ++ ascii "<Env"), .gone,
        .chunk (ascii "elope/>")]
      "The remote host closed the connection")).Done 0 briefReply.data := by
  refine (readToClose_done_iff closeEnv asked_reading asked_awaiting briefReply
    (by decide) (by decide) (by decide)
    (by decide)).mpr (by decide)

/-- The close is reported, and that is all. -/
theorem readToClose_done_not :
    ¬∀ (env : Env) (c : Client) (r a : Nat) (m : OpenEnded)
      (arrivals : List Arrival) (text : String),
      c.Reading r a → (c.replies r).Awaiting → m.head.status ≠ 401 →
        m.data.length ≤ maxBodyBytes →
        arrivals.flatMap Arrival.bytes = m.bytes → text ≠ "" →
        (run (Client.handle env) c (Client.closing a arrivals text)).Done r
          m.data := by
  intro h
  have hdone := h closeEnv asked 0 0 briefReply
    [.chunk briefReply.bytes] "The remote host closed the connection"
    asked_reading asked_awaiting (by decide) (by decide)
    (by decide) (by decide)
  have hfailed : ((run (Client.handle closeEnv) asked (Client.closing 0
      [.chunk briefReply.bytes]
      "The remote host closed the connection")).replies 0).errorString ≠
        "" := by
    decide
  exact hfailed hdone.2.1

end QuMesh.Wsman
