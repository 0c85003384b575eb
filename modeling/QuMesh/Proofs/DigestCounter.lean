import QuMesh.Proofs.WsmanSteps
import QuMesh.Lib.Run
import QuMesh.Lib.Tickets

/-!
# The digest counter

`nc` is to be unique and strictly increasing for the lifetime of a nonce, as
the comment at the rewind says. The client's part in that is a ticket desk: the
cached nonce is the name it issues under, `retryWithDigest` issues, and the
write of a request spends the ticket that was captured when its transport was
opened. A 401 renames the desk, and that is where the code falls short: it
rewinds the counter for any nonce that is not the one before, also for one it
has used already. The other gap is between issuing and spending, since
transports opened one after the other may come up in any order.

The theorem says that these are the only two. Every event is a run of steps of
the desk, each with the condition the desk asks for.
-/

namespace QuMesh.Wsman

open QuMesh.Lib

def DigestHeader.ticket (a : Nat) (h : DigestHeader) : Ticket Bytes :=
  ⟨a, h.nonce, h.nc.toNat⟩

def Effect.ticket : Effect → Option (Ticket Bytes)
  | .wrote _ a (some h) _ => some (h.ticket a)
  | _ => none

namespace Client

/-- The header an attempt was opened with, while it can still be written. -/
def heldTicket (c : Client) (a : Nat) : Option (Ticket Bytes) :=
  if (c.attempts a).stage ≠ .settled ∧
      (c.replies (c.attempts a).reply).live = true then
    (c.attempts a).auth.map fun h => h.ticket a
  else none

def held (c : Client) : List (Ticket Bytes) :=
  (List.range c.nextAttempt).filterMap c.heldTicket

/-- The `Authorization` headers sent, in their order. -/
def spent (c : Client) : List (Ticket Bytes) := c.out.filterMap Effect.ticket

def desk (c : Client) : Desk Bytes where
  name := c.digestNonce
  count := c.nc.toNat
  issued := c.nextAttempt
  held := { t | t ∈ c.held }
  spent := c.spent

/-- Attempt `a` was opened with the header `h` and can still write it. -/
structure Waits (c : Client) (a : Nat) (h : DigestHeader) : Prop where
  opened : a < c.nextAttempt
  auth : (c.attempts a).auth = some h
  stage : (c.attempts a).stage ≠ .settled
  live : (c.replies (c.attempts a).reply).live = true

theorem mem_held {c : Client} {t : Ticket Bytes} :
    t ∈ c.held ↔ ∃ a h, c.Waits a h ∧ t = h.ticket a := by
  rw [held, List.mem_filterMap]
  constructor
  · rintro ⟨a, ha, ht⟩
    rw [heldTicket] at ht
    split at ht
    next hw =>
      rw [Option.map_eq_some_iff] at ht
      obtain ⟨h, hauth, rfl⟩ := ht
      exact ⟨a, h, ⟨List.mem_range.mp ha, hauth, hw.1, hw.2⟩, rfl⟩
    next => cases ht
  · rintro ⟨a, h, hw, rfl⟩
    refine ⟨a, List.mem_range.mpr hw.opened, ?_⟩
    rw [heldTicket, if_pos ⟨hw.stage, hw.live⟩, hw.auth]
    rfl

/-! ## Operations the desk does not notice -/

structure Quiet (c c' : Client) : Prop where
  nonce : c'.digestNonce = c.digestNonce
  nc : c'.nc = c.nc
  issued : c.nextAttempt ≤ c'.nextAttempt
  replies : c.nextReply ≤ c'.nextReply
  waits : ∀ a h, c'.Waits a h → c.Waits a h
  spent : c'.spent = c.spent
  tidy : c.Tidy → c'.Tidy

theorem Quiet.refl (c : Client) : Quiet c c :=
  ⟨rfl, rfl, Nat.le_refl _, Nat.le_refl _, fun _ _ => id, rfl, id⟩

theorem Quiet.trans {c c' c'' : Client} (h : Quiet c c') (h' : Quiet c' c'') :
    Quiet c c'' where
  nonce := h'.nonce.trans h.nonce
  nc := h'.nc.trans h.nc
  issued := Nat.le_trans h.issued h'.issued
  replies := Nat.le_trans h.replies h'.replies
  waits a k hw := h.waits a k (h'.waits a k hw)
  spent := h'.spent.trans h.spent
  tidy ht := h'.tidy (h.tidy ht)

/-- A run of the desk, for clients whose numbering is in order. -/
def Advances (c c' : Client) : Prop :=
  c.Tidy → c'.Tidy ∧ Desk.Steps c.desk c'.desk

theorem Advances.trans {c c' c'' : Client} (h : Advances c c')
    (h' : Advances c' c'') : Advances c c'' := by
  intro ht
  obtain ⟨ht', hs⟩ := h ht
  obtain ⟨ht'', hs'⟩ := h' ht'
  exact ⟨ht'', hs.trans hs'⟩

theorem Quiet.held {c c' : Client} (h : Quiet c c') (t : Ticket Bytes)
    (ht : t ∈ c'.held) : t ∈ c.held := by
  obtain ⟨a, k, hw, rfl⟩ := mem_held.mp ht
  exact mem_held.mpr ⟨a, k, h.waits a k hw, rfl⟩

theorem Quiet.advances {c c' : Client} (h : Quiet c c') : Advances c c' := by
  intro ht
  refine ⟨h.tidy ht, .single (.lapse h.nonce ?_ h.issued h.held h.spent)⟩
  exact congrArg UInt64.toNat h.nc

theorem Advances.refl (c : Client) : Advances c c := (Quiet.refl c).advances

variable {c : Client}

theorem withReply_quiet (r : Nat) (f : Reply → Reply)
    (halive : (f (c.replies r)).alive = true → (c.replies r).alive = true)
    (hlive : (f (c.replies r)).live = true → (c.replies r).live = true) :
    Quiet c (c.withReply r f) := by
  refine ⟨rfl, rfl, Nat.le_refl _, Nat.le_refl _, fun a h hw => ?_, rfl,
    fun ht => ?_⟩
  · refine ⟨hw.opened, hw.auth, hw.stage, ?_⟩
    exact withReply_imp (p := fun rd => rd.live = true) hlive _ hw.live
  · refine ⟨fun s hs => ht.issued s ?_, ht.opened, ht.owners⟩
    exact withReply_imp (p := fun rd => rd.alive = true) halive s hs

theorem withAttempt_quiet (a : Nat) (f : Attempt → Attempt)
    (hauth : (f (c.attempts a)).auth = (c.attempts a).auth)
    (hreply : (f (c.attempts a)).reply = (c.attempts a).reply)
    (hstage : (f (c.attempts a)).stage ≠ .settled →
      (c.attempts a).stage ≠ .settled) : Quiet c (c.withAttempt a f) := by
  have auth b := withAttempt_field Attempt.auth a b f hauth
  have reply b := withAttempt_field Attempt.reply a b f hreply
  have stage b := withAttempt_imp (p := fun t => t.stage ≠ .settled) hstage b
  refine ⟨rfl, rfl, Nat.le_refl _, Nat.le_refl _, fun b h hw => ?_, rfl,
    fun ht => ?_⟩
  · refine ⟨hw.opened, (auth b).symm.trans hw.auth, stage b hw.stage, ?_⟩
    rw [← reply b]
    exact hw.live
  · refine ⟨ht.issued, fun b hb => ht.opened b (stage b hb), fun b hb => ?_⟩
    rw [reply b]
    exact ht.owners b hb

/-- The fields the desk is read off are the ones they were. -/
theorem quiet_of_eq {c c' : Client} (hreplies : c'.replies = c.replies)
    (hattempts : c'.attempts = c.attempts)
    (hreply : c'.nextReply = c.nextReply)
    (hattempt : c'.nextAttempt = c.nextAttempt)
    (hnonce : c'.digestNonce = c.digestNonce) (hnc : c'.nc = c.nc)
    (hspent : c'.spent = c.spent) : Quiet c c' := by
  refine ⟨hnonce, hnc, Nat.le_of_eq hattempt.symm, Nat.le_of_eq hreply.symm,
    fun a h hw => ?_, hspent, fun ht => ?_⟩
  · obtain ⟨hopened, hauth, hstage, hlive⟩ := hw
    rw [hattempts] at hauth hstage hlive
    rw [hreplies] at hlive
    exact ⟨hattempt ▸ hopened, hauth, hstage, hlive⟩
  · refine ⟨fun r hr => ?_, fun a ha => ?_, fun a ha => ?_⟩
    · rw [hreplies] at hr
      exact hreply ▸ ht.issued r hr
    · rw [hattempts] at ha
      exact hattempt ▸ ht.opened a ha
    · rw [hattempt] at ha
      rw [hattempts, hreply]
      exact ht.owners a ha

theorem emit_quiet {e : Effect} (he : e.ticket = none) :
    Quiet c (c.emit e) := by
  refine quiet_of_eq rfl rfl rfl rfl rfl rfl ?_
  simp [spent, emit, he]

theorem requeue_quiet (current : Option Nat) (queue : List Nat) :
    Quiet c { c with currentRequest := current, pendingQueue := queue } :=
  quiet_of_eq rfl rfl rfl rfl rfl rfl rfl

theorem armTimeout_quiet (r : Nat) : Quiet c (c.armTimeout r) := by
  unfold armTimeout
  split
  · exact .refl c
  · exact withReply_quiet r _ id id

theorem wireSocketHandlers_quiet (r a : Nat) :
    Quiet c (c.wireSocketHandlers r a) :=
  (withReply_quiet r _ id id).trans (withAttempt_quiet a _ rfl rfl id)

theorem abortSocket_quiet (r : Nat) : Quiet c (c.abortSocket r) := by
  unfold abortSocket
  split
  · exact .refl c
  · exact withAttempt_quiet _ _ rfl rfl id

theorem discardResponse_quiet (r : Nat) : Quiet c (c.discardResponse r) := by
  unfold discardResponse
  have hclose := abortSocket_quiet (c := c) r
  unfold abortSocket at hclose
  exact hclose.trans (withReply_quiet r _ id id)

theorem stopTimer_quiet (r : Nat) : Quiet c (c.stopTimer r) := by
  unfold stopTimer
  split
  · exact withReply_quiet r _ id id
  · exact .refl c

theorem destroy_quiet (r : Nat) : Quiet c (c.destroy r) := by
  refine (abortSocket_quiet r).trans (withReply_quiet r _ ?_ ?_)
  · exact fun h => by cases h
  · exact fun h => by simp [Reply.live] at h

/-! ## Opening a transport -/

theorem newAttempt_waits {t : Attempt} {a : Nat} {h : DigestHeader}
    (hw : (c.newAttempt t).Waits a h) :
    c.Waits a h ∨ a = c.nextAttempt ∧ t.auth = some h := by
  obtain ⟨hopened, hauth, hstage, hlive⟩ := hw
  rw [newAttempt_attempts] at hauth hstage hlive
  split at hauth
  next heq => exact .inr ⟨heq, hauth⟩
  next hne =>
    rw [if_neg hne] at hstage hlive
    refine .inl ⟨?_, hauth, hstage, hlive⟩
    have : a < c.nextAttempt + 1 := hopened
    omega

theorem newAttempt_tidy {t : Attempt} (howner : t.reply < c.nextReply)
    (ht : c.Tidy) : (c.newAttempt t).Tidy := by
  refine ⟨ht.issued, fun a ha => ?_, fun a ha => ?_⟩
  · rw [newAttempt_attempts] at ha
    show a < c.nextAttempt + 1
    split at ha
    next heq => omega
    next => exact Nat.lt_succ_of_lt (ht.opened a ha)
  · rw [newAttempt_attempts]
    split
    next => exact howner
    next hne =>
      have : a < c.nextAttempt + 1 := ha
      exact ht.owners a (by omega)

theorem newAttempt_quiet {t : Attempt} (hauth : t.auth = none)
    (howner : t.reply < c.nextReply) : Quiet c (c.newAttempt t) := by
  refine ⟨rfl, rfl, Nat.le_succ _, Nat.le_refl _, fun a h hw => ?_, rfl,
    newAttempt_tidy howner⟩
  rcases newAttempt_waits hw with hw | ⟨-, hh⟩
  · exact hw
  · rw [hauth] at hh
    cases hh

/-- A header built from the cached nonce and the next count is the next
ticket of the desk. -/
theorem newAttempt_issue {t : Attempt} {h : DigestHeader}
    (hauth : t.auth = some h) (hnonce : h.nonce = c.digestNonce)
    (hnc : h.nc = c.nc + 1) (howner : t.reply < c.nextReply)
    (room : c.nc.toNat + 1 < 2 ^ 64) :
    Advances c (({ c with nc := c.nc + 1 }).newAttempt t) := by
  have hcount : (c.nc + 1).toNat = c.nc.toNat + 1 := by
    rw [UInt64.toNat_add]
    exact Nat.mod_eq_of_lt room
  intro ht
  have ht' : ({ c with nc := c.nc + 1 } : Client).Tidy :=
    ⟨ht.issued, ht.opened, ht.owners⟩
  refine ⟨newAttempt_tidy howner ht', .single ?_⟩
  refine .issue rfl hcount (Nat.lt_succ_self _) (fun u hu => ?_) rfl
  obtain ⟨a, k, hw, rfl⟩ := mem_held.mp hu
  rcases newAttempt_waits hw with hw | ⟨rfl, hk⟩
  · exact .inl (mem_held.mpr ⟨a, k, ⟨hw.opened, hw.auth, hw.stage, hw.live⟩,
      rfl⟩)
  · rw [hauth, Option.some.injEq] at hk
    subst hk
    right
    show h.ticket c.nextAttempt = ⟨c.nextAttempt, c.digestNonce, c.nc.toNat + 1⟩
    rw [DigestHeader.ticket, hnonce, hnc, hcount]

/-- Opening a socket records the attempt, and the rest is quiet. -/
theorem openSocket_quiet (r : Nat) (auth : Option DigestHeader) (c : Client) :
    ∃ t : Attempt, t.reply = r ∧ t.auth = auth ∧
      Quiet (c.newAttempt t) (c.openSocket r auth) := by
  unfold openSocket
  simp only []
  split
  · exact ⟨_, rfl, rfl, withReply_quiet r _ id id⟩
  · exact ⟨_, rfl, rfl, (wireSocketHandlers_quiet r _).trans
      (withReply_quiet r _ id id)⟩

theorem startTransport_quiet {r : Nat} (hr : r < c.nextReply) :
    Quiet c (c.startTransport r) := by
  have harm := armTimeout_quiet (c := c) r
  obtain ⟨t, howner, hauth, hq⟩ := openSocket_quiet r none (c.armTimeout r)
  refine (harm.trans (newAttempt_quiet hauth ?_)).trans hq
  rw [howner]
  exact Nat.lt_of_lt_of_le hr harm.replies

theorem retryWithDigest_advances (env : Env) {r : Nat} (hr : r < c.nextReply)
    (room : c.nc.toNat + 1 < 2 ^ 64) :
    Advances c (c.retryWithDigest env r) := by
  have hq := (armTimeout_quiet (c := c) r).trans (discardResponse_quiet r)
  unfold retryWithDigest
  simp only []
  generalize (c.armTimeout r).discardResponse r = c₁ at hq ⊢
  obtain ⟨t, howner, hauth, hrest⟩ := openSocket_quiet r
    (some (buildDigestHeader env c₁ (c₁.replies r).method
      (c₁.replies r).requestPath c₁.user c₁.pass (c₁.nc + 1)))
    { c₁ with nc := c₁.nc + 1 }
  refine (hq.advances.trans (newAttempt_issue hauth rfl rfl ?_ ?_)).trans
    hrest.advances
  · rw [howner]
    exact Nat.lt_of_lt_of_le hr hq.replies
  · rw [hq.nc]
    exact room

theorem startNow_advances (env : Env) {r : Nat} (hr : r < c.nextReply)
    (room : c.nc.toNat + 1 < 2 ^ 64) : Advances c (c.startNow env r) := by
  have hq : Quiet c (c.emit (.started r)) := emit_quiet rfl
  unfold startNow
  simp only []
  split
  · exact hq.advances.trans (retryWithDigest_advances env hr room)
  · exact (hq.trans (startTransport_quiet hr)).advances

/-! ## Finishing -/

theorem drainQueue_advances (env : Env) (queue : List Nat)
    (room : c.nc.toNat + 1 < 2 ^ 64) :
    Advances c (c.drainQueue env queue) := by
  induction queue with
  | nil => exact (requeue_quiet c.currentRequest []).advances
  | cons next rest ih =>
      intro ht
      rw [drainQueue]
      split
      next halive =>
        have hr := ht.issued next halive
        exact ((requeue_quiet (some next) rest).advances.trans
          (startNow_advances env hr room)) ht
      next => exact ih ht

theorem drain_advances (env : Env) (room : c.nc.toNat + 1 < 2 ^ 64) :
    Advances c (c.drain env) :=
  (requeue_quiet none c.pendingQueue).advances.trans
    (drainQueue_advances env c.pendingQueue room)

theorem emitFinished_advances (env : Env) (r : Nat) (state : ReplyState)
    (errorString : String) (room : c.nc.toNat + 1 < 2 ^ 64) :
    Advances c (c.emitFinished env r state errorString) := by
  have hfinish : Quiet c (c.withReply r fun rd =>
      { rd with state, errorString, finished := true }) :=
    withReply_quiet r _ id (fun h => by simp [Reply.live] at h)
  have hq := hfinish.trans (emit_quiet (e := .finished r) rfl)
  unfold emitFinished
  simp only []
  split
  · exact hq.advances.trans (drain_advances env room)
  · exact hq.advances

theorem finishReply_advances (env : Env) (r : Nat) (err : String)
    (room : c.nc.toNat + 1 < 2 ^ 64) :
    Advances c (c.finishReply env r err) := by
  have hq := stopTimer_quiet (c := c) r
  have hroom : (c.stopTimer r).nc.toNat + 1 < 2 ^ 64 := by
    rw [hq.nc]
    exact room
  unfold finishReply
  split
  · exact .refl c
  · split <;> exact hq.advances.trans (emitFinished_advances env r _ _ hroom)

theorem abort_advances (env : Env) (r : Nat)
    (room : c.nc.toNat + 1 < 2 ^ 64) : Advances c (c.abort env r) := by
  have hq := abortSocket_quiet (c := c) r
  unfold abort
  split
  · exact .refl c
  · refine hq.advances.trans (emitFinished_advances env r _ _ ?_)
    rw [hq.nc]
    exact room

theorem timeout_advances (env : Env) (r : Nat)
    (room : c.nc.toNat + 1 < 2 ^ 64) : Advances c (c.timeout env r) := by
  have hstop := stopTimer_quiet (c := c) r
  have hq := hstop.trans (abortSocket_quiet r)
  unfold timeout
  simp only []
  split
  · exact hstop.advances
  · refine hq.advances.trans (emitFinished_advances env r _ _ ?_)
    rw [hq.nc]
    exact room

theorem errorOccurred_advances (env : Env) (r : Nat) (errorString : String)
    (room : c.nc.toNat + 1 < 2 ^ 64) :
    Advances c (c.errorOccurred env r errorString) := by
  unfold errorOccurred
  split
  · exact .refl c
  · split
    · exact .refl c
    · exact emitFinished_advances env r _ _ room

/-- The reply that is made has no attempts yet. -/
theorem newReply_quiet (envelope : Bytes) (soapAction : Option Bytes)
    (ht : c.Tidy) : Quiet c (c.newReply envelope soapAction) := by
  have same : ∀ r, r ≠ c.nextReply →
      (c.newReply envelope soapAction).replies r = c.replies r :=
    fun r hr => Function.update_of_ne hr ..
  refine ⟨rfl, rfl, Nat.le_refl _, Nat.le_succ _, fun a h hw => ?_, rfl,
    fun _ => ⟨fun r hr => ?_, ht.opened, fun a ha => ?_⟩⟩
  · have hl : ((c.newReply envelope soapAction).replies
        (c.attempts a).reply).live = true := hw.live
    have howner : (c.attempts a).reply < c.nextReply := ht.owners a hw.opened
    rw [same _ (Nat.ne_of_lt howner)] at hl
    exact ⟨hw.opened, hw.auth, hw.stage, hl⟩
  · show r < c.nextReply + 1
    by_cases heq : r = c.nextReply
    · omega
    · rw [same r heq] at hr
      exact Nat.lt_succ_of_lt (ht.issued r hr)
  · exact Nat.lt_succ_of_lt (ht.owners a ha)

theorem sendEnvelope_advances (env : Env) (envelope : Bytes)
    (soapAction : Option Bytes) (room : c.nc.toNat + 1 < 2 ^ 64) :
    Advances c (c.sendEnvelope env envelope soapAction) := by
  intro ht
  have hq := newReply_quiet envelope soapAction ht
  have hr : c.nextReply < (c.newReply envelope soapAction).nextReply :=
    Nat.lt_succ_self _
  unfold sendEnvelope
  simp only []
  split
  · exact (hq.advances.trans (startNow_advances env hr room)) ht
  · split
    · refine (hq.trans ?_).advances ht
      exact quiet_of_eq rfl rfl rfl rfl rfl rfl rfl
    · refine (hq.trans ?_).advances.trans (startNow_advances env ?_ ?_) ht
      · exact quiet_of_eq rfl rfl rfl rfl rfl rfl rfl
      · exact hr
      · exact room

/-! ## A challenge -/

/-- A challenge that replaces the nonce brings one that no header sent, or
still to be sent, carries. -/
def Fresh (c : Client) (params : Headers) : Prop :=
  params.value (ascii "nonce") ≠ c.digestNonce →
    ∀ t ∈ c.held ++ c.spent, t.name ≠ params.value (ascii "nonce")

instance (c : Client) (params : Headers) : Decidable (c.Fresh params) :=
  inferInstanceAs (Decidable (_ → _))

theorem Quiet.fresh {c c' : Client} (h : Quiet c c') {params : Headers}
    (hf : c.Fresh params) : c'.Fresh params := by
  intro hne t ht
  rw [h.nonce] at hne
  rw [List.mem_append, h.spent] at ht
  exact hf hne t (List.mem_append.mpr (ht.imp_left (h.held t)))

theorem cacheChallenge_advances {params : Headers} (hf : c.Fresh params) :
    Advances c (c.cacheChallenge params) := by
  by_cases hnonce : params.value (ascii "nonce") = c.digestNonce
  · have hnc : (c.cacheChallenge params).nc = c.nc :=
      if_neg (not_not_intro hnonce)
    have hq : Quiet c (c.cacheChallenge params) :=
      quiet_of_eq rfl rfl rfl rfl hnonce hnc rfl
    exact hq.advances
  · intro ht
    refine ⟨⟨ht.issued, ht.opened, ht.owners⟩, .single ?_⟩
    refine .rename (fun t hat => ?_) (Nat.le_refl _) (fun t hh => ?_) rfl
    · exact hf hnonce t (List.mem_append.mpr hat)
    · obtain ⟨a, h, hw, rfl⟩ := mem_held.mp hh
      exact mem_held.mpr ⟨a, h, ⟨hw.opened, hw.auth, hw.stage, hw.live⟩, rfl⟩

theorem cacheChallenge_room (params : Headers)
    (room : c.nc.toNat + 1 < 2 ^ 64) :
    (c.cacheChallenge params).nc.toNat + 1 < 2 ^ 64 := by
  rw [cacheChallenge]
  show (if _ then (0 : UInt64) else c.nc).toNat + 1 < 2 ^ 64
  split
  · decide
  · exact room

theorem unauthorized_advances (env : Env) {r : Nat} {wwwAuth : Bytes}
    (hr : r < c.nextReply) (hf : c.Fresh (parseDigestChallenge wwwAuth))
    (room : c.nc.toNat + 1 < 2 ^ 64) :
    Advances c (c.unauthorized env r wwwAuth) := by
  have hcache := cacheChallenge_advances hf
  have hroom := cacheChallenge_room (parseDigestChallenge wwwAuth) room
  have hr₁ : r < (c.cacheChallenge (parseDigestChallenge wwwAuth)).nextReply :=
    hr
  unfold unauthorized
  simp only []
  generalize c.cacheChallenge (parseDigestChallenge wwwAuth) = c₁ at *
  have hfail err := hcache.trans (finishReply_advances env r err hroom)
  have hcount : Quiet c₁ (c₁.withReply r fun rd =>
      { rd with digestRetries := rd.digestRetries + 1 }) :=
    withReply_quiet r _ id id
  have hretry := hcache.trans (hcount.advances.trans
    (retryWithDigest_advances env hr₁ hroom))
  split
  · exact hfail _
  -- the outer `if` is the one that picks how many retries are allowed
  · split <;> split
    · exact hfail _
    · exact hretry
    · exact hfail _
    · exact hretry

/-! ## Reading -/

/-- What a read pass over the reply's socket would end in. -/
def received (c : Client) (r : Nat) : Verdict :=
  match (c.replies r).socket with
  | none => .needMore
  | some a =>
      if (c.replies r).finished then .needMore
      else
        ((c.replies r).readPass (c.attempts a).connected
          (c.attempts a).unread).2

theorem readMore_advances (env : Env) {r : Nat} (hr : r < c.nextReply)
    (hf : ∀ wwwAuth, c.received r = .unauthorized wwwAuth →
      c.Fresh (parseDigestChallenge wwwAuth))
    (room : c.nc.toNat + 1 < 2 ^ 64) : Advances c (c.readMore env r) := by
  rw [received] at hf
  unfold readMore
  simp only []
  split
  next => exact .refl c
  next a hsocket =>
    rw [hsocket] at hf
    split
    next => exact .refl c
    next hfinished =>
      simp only [hfinished] at hf
      have hunread := Reply.readPass_unread (c.attempts a).connected
        (c.attempts a).unread (c.replies r)
      cases hpass : (c.replies r).readPass (c.attempts a).connected
        (c.attempts a).unread with
      | mk rd verdict =>
          rw [hpass] at hf hunread
          have hq : Quiet c ((c.withAttempt a fun t =>
              { t with unread := [] }).withReply r fun _ => rd) := by
            refine (withAttempt_quiet a _ rfl rfl id).trans
              (withReply_quiet r _ ?_ ?_)
            · exact fun h => (congrArg Reply.alive hunread).symm.trans h
            · exact fun h => (Reply.live_of_unread hunread).symm.trans h
          cases verdict with
          | needMore => exact hq.advances
          | finish err =>
              exact hq.advances.trans (finishReply_advances env r err room)
          | unauthorized wwwAuth =>
              exact hq.advances.trans (unauthorized_advances env hr
                (hq.fresh (hf wwwAuth rfl)) room)

/-! ## Writing -/

/-- It is the turn of attempt `a`: what was sent under its nonce was built
before. -/
def Turn (c : Client) (a : Nat) : Prop :=
  ∀ t ∈ c.heldTicket a, ∀ u ∈ c.spent, u.name = t.name → u.place < t.place

instance (c : Client) (a : Nat) : Decidable (c.Turn a) :=
  inferInstanceAs (Decidable (∀ t ∈ c.heldTicket a, _))

theorem Waits.heldTicket {a : Nat} {h : DigestHeader} (hw : c.Waits a h) :
    c.heldTicket a = some (h.ticket a) := by
  rw [Client.heldTicket, if_pos ⟨hw.stage, hw.live⟩, hw.auth]
  rfl

/-- Attempt `a` is on its way to its write. -/
structure Open (c : Client) (a : Nat) : Prop where
  stage : (c.attempts a).stage ≠ .settled
  live : (c.replies (c.attempts a).reply).live = true

theorem settle_quiet (a : Nat) :
    Quiet c (c.withAttempt a fun t => { t with stage := .settled }) :=
  withAttempt_quiet a _ rfl rfl (fun h => absurd rfl h)

/-- The write of a request spends what its attempt was opened with. -/
theorem writeRequestBytes_advances (socket : Nat) {a : Nat} (ho : c.Open a)
    (hturn : c.Turn a) : Advances c (c.writeRequestBytes socket a) := by
  unfold writeRequestBytes
  simp only []
  refine Advances.trans ?_ ((settle_quiet a).trans
    (withReply_quiet _ _ id id)).advances
  cases hauth : (c.attempts a).auth with
  | none => exact (emit_quiet rfl).advances
  | some h =>
      intro ht
      have hw : c.Waits a h := ⟨ht.opened a ho.stage, hauth, ho.stage, ho.live⟩
      have hmine : h.ticket a ∈ c.held := mem_held.mpr ⟨a, h, hw, rfl⟩
      refine ⟨⟨ht.issued, ht.opened, ht.owners⟩, .single ?_⟩
      refine .spend (h.ticket a) hmine (hturn _ hw.heldTicket) rfl rfl
        (Nat.le_refl _) (fun t hh => ?_) ?_
      · obtain ⟨b, k, hw', rfl⟩ := mem_held.mp hh
        exact mem_held.mpr ⟨b, k, ⟨hw'.opened, hw'.auth, hw'.stage, hw'.live⟩,
          rfl⟩
      · simp [desk, spent, emit, Effect.ticket]

theorem doWrite_advances {a : Nat} (ho : c.Open a) (hturn : c.Turn a) :
    Advances c (c.doWrite a) := by
  unfold doWrite
  split
  · exact (settle_quiet a).advances
  · exact writeRequestBytes_advances _ ho hturn

theorem socketReady_advances {a : Nat} {tls : Bool} (ho : c.Open a)
    (hturn : tls = false → c.Turn a) : Advances c (c.socketReady a tls) := by
  unfold socketReady
  simp only []
  split
  next => exact ((withAttempt_quiet a _ rfl rfl fun _ => ho.stage).trans
      (withReply_quiet _ _ id id)).advances
  next htls =>
    have hturn := hturn (eq_false_of_ne_true htls)
    split
    · exact doWrite_advances ho hturn
    · exact writeRequestBytes_advances a ho hturn

/-- What attempt `a` holds survives a change of its socket. -/
theorem withAttempt_heldTicket (a : Nat) (f : Attempt → Attempt)
    (hauth : (f (c.attempts a)).auth = (c.attempts a).auth)
    (hreply : (f (c.attempts a)).reply = (c.attempts a).reply)
    (hstage : (f (c.attempts a)).stage = (c.attempts a).stage) (b : Nat) :
    (c.withAttempt a f).heldTicket b = c.heldTicket b := by
  have auth := withAttempt_field Attempt.auth a b f hauth
  have reply := withAttempt_field Attempt.reply a b f hreply
  have stage := withAttempt_field Attempt.stage a b f hstage
  rw [heldTicket, heldTicket, auth, reply, stage]
  rfl

theorem Turn.of_unauthorized {a : Nat} (h : (c.attempts a).auth = none) :
    c.Turn a := by
  intro t ht
  rw [heldTicket, h] at ht
  split at ht <;> cases ht

theorem open_of_reached {a : Nat} {stage : Stage} (hs : stage ≠ .settled)
    (hr : c.reached a stage = true)
    (hf : ¬ (c.replies (c.attempts a).reply).finished = true) : c.Open a := by
  rw [reached, Bool.and_eq_true, beq_iff_eq] at hr
  refine ⟨fun h => hs (hr.1.symm.trans h), ?_⟩
  exact Reply.live_of hr.2 hf

theorem connected_advances {a : Nat} (hr : c.reached a .connecting = true)
    (hturn : (c.attempts a).tls = false → c.Turn a) :
    Advances c (c.connected a) := by
  have hq : Quiet c (c.withAttempt a fun t => { t with connected := true }) :=
    withAttempt_quiet a _ rfl rfl id
  have hheld := withAttempt_heldTicket (c := c) a
    (fun t => { t with connected := true }) rfl rfl rfl a
  unfold connected
  simp only []
  split
  next => exact hq.advances
  next hf =>
    have ho := open_of_reached (by simp) hr hf
    refine hq.advances.trans (socketReady_advances ⟨?_, ?_⟩ fun htls => ?_)
    · rw [withAttempt_attempts, if_pos rfl]
      exact ho.stage
    · rw [withAttempt_attempts, if_pos rfl]
      exact ho.live
    · have := hturn htls
      rw [Turn] at this ⊢
      rw [hheld]
      exact this

theorem encrypted_advances {a : Nat} (hr : c.reached a .handshaking = true)
    (hturn : c.Turn a) : Advances c (c.encrypted a) := by
  have hstage : (c.attempts a).stage ≠ .settled := by
    rw [reached, Bool.and_eq_true, beq_iff_eq] at hr
    rw [hr.1]
    simp
  unfold encrypted
  simp only []
  split
  next => exact (withAttempt_quiet a _ rfl rfl fun _ => hstage).advances
  next =>
    split
    next => exact .refl c
    next hf => exact doWrite_advances (open_of_reached (by simp) hr hf) hturn

theorem postedWrite_advances {a : Nat} (hr : c.reached a .posted = true)
    (hturn : c.Turn a) : Advances c (c.postedWrite a) := by
  unfold postedWrite
  split
  next => exact .refl c
  next hf => exact doWrite_advances (open_of_reached (by simp) hr hf) hturn

/-- An adopted socket is wired and connected at once. -/
theorem adopt_advances {a : Nat} {tls : Bool} (ho : c.Open a)
    (hturn : tls = false → c.Turn a) :
    Advances c (((c.wireSocketHandlers (c.attempts a).reply a).withAttempt a
      fun t => { t with connected := true }).socketReady a tls) := by
  let c₁ := c.withReply (c.attempts a).reply fun rd =>
    { rd with socket := some a }
  let wire (t : Attempt) : Attempt :=
    { t with wired := true, checksPeer := c.endpoint.https }
  let up (t : Attempt) : Attempt := { t with connected := true }
  have hq₁ : Quiet c c₁ := withReply_quiet _ _ id id
  have hq : Quiet c ((c₁.withAttempt a wire).withAttempt a up) :=
    (hq₁.trans (withAttempt_quiet a wire rfl rfl id)).trans
      (withAttempt_quiet a up rfl rfl id)
  have hlive : ∀ r, (c₁.replies r).live = (c.replies r).live :=
    fun r => withReply_field Reply.live _ r _ rfl
  have hheld : ((c₁.withAttempt a wire).withAttempt a up).heldTicket a =
      c.heldTicket a := by
    rw [withAttempt_heldTicket a up rfl rfl rfl,
      withAttempt_heldTicket a wire rfl rfl rfl, heldTicket, heldTicket, hlive]
    rfl
  refine hq.advances.trans (socketReady_advances ⟨?_, ?_⟩ fun htls => ?_)
  · rw [withAttempt_field Attempt.stage a a up rfl,
      withAttempt_field Attempt.stage a a wire rfl]
    exact ho.stage
  · rw [withAttempt_field Attempt.reply a a up rfl,
      withAttempt_field Attempt.reply a a wire rfl]
    exact (hlive _).trans ho.live
  · have := hturn htls
    rw [Turn] at this ⊢
    rw [hheld]
    exact this

theorem factoryDone_advances (env : Env) {a : Nat} {fd : Descriptor}
    (hstage : (c.attempts a).stage = .opening)
    (hturn : fd = .usable → (c.attempts a).tls = false → c.Turn a)
    (room : c.nc.toNat + 1 < 2 ^ 64) :
    Advances c (c.factoryDone env a fd) := by
  unfold factoryDone
  simp only []
  split
  next => exact .refl c
  next hlive =>
    cases fd with
    | none error => exact finishReply_advances env _ _ room
    | unusable error => exact finishReply_advances env _ _ room
    | usable =>
        have ho : c.Open a := by
          refine ⟨fun h => ?_, ?_⟩
          · rw [hstage] at h
            cases h
          · simpa using hlive
        refine adopt_advances ho fun htls => ?_
        cases hauth : (c.attempts a).auth with
        | none => exact .of_unauthorized hauth
        | some h =>
            rw [hauth] at htls
            exact hturn rfl htls

theorem sslErrors_quiet (env : Env) (a : Nat)
    (chain : List QuMesh.Redir.Certificate) :
    Quiet c (c.sslErrors env a chain) := by
  have hfail : Quiet c (c.withAttempt a fun t => { t with refused := true }) :=
    withAttempt_quiet a _ rfl rfl id
  unfold sslErrors
  simp only []
  split
  · split
    · exact emit_quiet rfl
    · split
      · exact hfail
      · refine hfail.trans (Quiet.trans ?_ (emit_quiet rfl))
        exact quiet_of_eq rfl rfl rfl rfl rfl rfl rfl
  · exact hfail

/-! ## Runs -/

/-- The challenge of the 401 that an event completes. -/
def challenge (c : Client) : Event → Option Headers
  | .readyRead a chunk =>
      if c.wired a then
        match (c.withAttempt a fun t =>
            { t with unread := t.unread ++ chunk }).received
              (c.attempts a).reply with
        | .unauthorized wwwAuth => some (parseDigestChallenge wwwAuth)
        | _ => none
      else none
  | _ => none

/-- The attempt whose request an event writes. -/
def writing (c : Client) : Event → Option Nat
  | .connected a =>
      if c.reached a .connecting ∧ (c.attempts a).tls = false then some a
      else none
  | .encrypted a => if c.reached a .handshaking then some a else none
  | .postedWrite a => if c.reached a .posted then some a else none
  | .factoryDone a .usable =>
      if (c.attempts a).stage = .opening ∧ (c.attempts a).tls = false then
        some a
      else none
  | _ => none

/-- A 401 brings back no nonce that is still around, requests under one nonce
are written in the order their headers were built in, and the counter is not
at its end. -/
def CountsUp (c : Client) (e : Event) : Prop :=
  (∀ params ∈ c.challenge e, c.Fresh params) ∧
  (∀ a ∈ c.writing e, c.Turn a) ∧
  c.nc.toNat + 1 < 2 ^ 64

instance (c : Client) (e : Event) : Decidable (c.CountsUp e) :=
  inferInstanceAs (Decidable (_ ∧ _))

theorem readyRead_advances (env : Env) (a : Nat) (chunk : Bytes)
    (h : c.CountsUp (.readyRead a chunk)) :
    Advances c (c.handle env (.readyRead a chunk)) := by
  obtain ⟨hfresh, -, room⟩ := h
  rw [handle]
  split
  next hw =>
    simp only [challenge, if_pos hw] at hfresh
    have hq : Quiet c (c.withAttempt a fun t =>
        { t with unread := t.unread ++ chunk }) :=
      withAttempt_quiet a _ rfl rfl id
    intro ht
    have hr : (c.attempts a).reply < c.nextReply := by
      rw [wired, Bool.and_eq_true] at hw
      exact ht.issued _ hw.2
    refine hq.advances.trans (readMore_advances env hr ?_ room) ht
    intro wwwAuth hv
    rw [hv] at hfresh
    exact hq.fresh (hfresh _ rfl)
  next => exact .refl c

/-- Every event is a run of the desk. -/
theorem handle_advances (env : Env) (e : Event) (h : c.CountsUp e) :
    Advances c (c.handle env e) := by
  obtain ⟨hfresh, hturn, room⟩ := h
  cases e with
  | setEndpoint | setCredentials | setTrustedFingerprints
  | setTransferTimeoutMs | setSocketFactory | setSerializeRequests =>
      refine Quiet.advances ?_
      exact quiet_of_eq rfl rfl rfl rfl rfl rfl rfl
  | trustPendingPeerCert =>
      show Advances c c.trustPendingPeerCert
      unfold trustPendingPeerCert
      simp only []
      split
      · exact .refl c
      · refine Quiet.advances ?_
        exact quiet_of_eq rfl rfl rfl rfl rfl rfl rfl
  | sendEnvelope envelope soapAction =>
      exact sendEnvelope_advances env envelope soapAction room
  | abort r =>
      rw [handle]
      split
      · exact abort_advances env r room
      · exact .refl c
  | destroy r =>
      rw [handle]
      split
      · exact (destroy_quiet r).advances
      · exact .refl c
  | timeout r =>
      rw [handle]
      split
      · exact timeout_advances env r room
      · exact .refl c
  | factoryDone a fd =>
      rw [handle]
      split
      next hstage =>
        refine factoryDone_advances env hstage (fun hfd htls => ?_) room
        subst hfd
        exact hturn a (if_pos ⟨hstage, htls⟩)
      next => exact .refl c
  | connected a =>
      rw [handle]
      split
      next hr =>
        exact connected_advances hr fun htls => hturn a (if_pos ⟨hr, htls⟩)
      next => exact .refl c
  | encrypted a =>
      rw [handle]
      split
      next hr => exact encrypted_advances hr.1 (hturn a (if_pos hr.1))
      next => exact .refl c
  | postedWrite a =>
      rw [handle]
      split
      next hr => exact postedWrite_advances hr (hturn a (if_pos hr))
      next => exact .refl c
  | sslErrors a chain =>
      rw [handle]
      split
      · exact (sslErrors_quiet env a chain).advances
      · exact .refl c
  | readyRead a chunk =>
      exact readyRead_advances env a chunk ⟨hfresh, hturn, room⟩
  | errorOccurred a errorString =>
      rw [handle]
      split
      · exact errorOccurred_advances env _ _ room
      · exact .refl c
  | disconnected a =>
      rw [handle]
      split
      · exact (withAttempt_quiet a _ rfl rfl id).advances
      · exact .refl c

theorem desk_orderly_fresh : ({} : Client).desk.Orderly := by
  have hnone : ∀ t, ¬ ({} : Client).desk.Around t := by
    rintro t (ht | ht) <;> cases ht
  exact ⟨.nil, fun t ht => absurd ht (hnone t), fun t ht => absurd ht (hnone t),
    fun t _ ht => absurd ht (hnone t)⟩

theorem run_orderly (env : Env) {es : List Event}
    (h : Guarded (handle env) (fun _ c e => c.CountsUp e) {} es) :
    (run (handle env) {} es).desk.Orderly := by
  have := h.invariant (fun c => c.Tidy ∧ c.desk.Orderly)
    (fun _ c e hc he => by
      obtain ⟨ht, hs⟩ := handle_advances env e he hc.1
      exact ⟨ht, hs.orderly hc.2⟩)
    ⟨tidy_fresh, desk_orderly_fresh⟩
  exact this.2

end Client

/-- The `Authorization` header a write carries. -/
def Effect.authorization : Effect → Option DigestHeader
  | .wrote _ _ auth _ => auth
  | _ => none

/-- Every `Authorization` header the client sent, in their order. -/
def Client.authorizations (c : Client) : List DigestHeader :=
  c.out.filterMap Effect.authorization

theorem Effect.authorization_ticket {e : Effect} {h : DigestHeader}
    (he : e.authorization = some h) : ∃ a, e.ticket = some (h.ticket a) := by
  cases e with
  | wrote socket a auth bytes =>
      have hauth : auth = some h := he
      exact ⟨a, by rw [hauth]; rfl⟩
  | finished | started | trustPromptRequired | peerCertVerifiedByPin =>
      cases he

/-- In every run whose 401s bring no nonce back and whose requests go out in
the order of their headers, the counts sent under one nonce go up, and no two
headers agree in nonce and count. -/
theorem digest_counter (env : Env) (es : List Event)
    (h : Guarded (Client.handle env) (fun _ c e => c.CountsUp e) {} es) :
    let sent := (run (Client.handle env) {} es).authorizations
    (sent.Pairwise fun h h' => h.nonce = h'.nonce → h.nc < h'.nc) ∧
      (sent.map fun h => (h.nonce, h.nc)).Nodup := by
  have hup := (Client.run_orderly env h).increasing
  have hpairs : (run (Client.handle env) {} es).authorizations.Pairwise
      fun h h' => h.nonce = h'.nonce → h.nc < h'.nc := by
    rw [Desk.Increasing] at hup
    change (List.filterMap Effect.ticket _).Pairwise _ at hup
    rw [List.pairwise_filterMap] at hup
    rw [Client.authorizations, List.pairwise_filterMap]
    refine hup.imp ?_
    intro e e' hlt k hk k' hk' hnonce
    obtain ⟨a, ha⟩ := Effect.authorization_ticket hk
    obtain ⟨a', ha'⟩ := Effect.authorization_ticket hk'
    exact UInt64.lt_iff_toNat_lt.mpr (hlt _ ha _ ha' hnonce)
  refine ⟨hpairs, ?_⟩
  rw [List.Nodup, List.pairwise_map]
  refine hpairs.imp ?_
  intro k k' hlt heq
  rw [Prod.mk.injEq] at heq
  have := hlt heq.1
  rw [heq.2] at this
  exact absurd this (UInt64.lt_irrefl _)

/-! ### A server that goes back to an earlier nonce -/

private def plainEnv : Env where
  md5Hex _ := ascii "h"
  sha256 := id
  randomCnonce _ := ascii "c"

private def unauthorizedWith (nonce : String) : Bytes :=
  ascii "HTTP/1.1 401 Unauthorized\r\nWWW-Authenticate: " ++
  ascii "Digest realm=\"r\", nonce=\"" ++ ascii nonce ++ ascii "\"\r\n\r\n"

/-- Three requests in flight, answered with these nonces in turn. -/
private def threeChallenges (first second third : String) : List Event :=
  [.setCredentials (ascii "u") (ascii "p"),
    .sendEnvelope [] none, .sendEnvelope [] none, .sendEnvelope [] none,
    .connected 0, .connected 1, .connected 2,
    .readyRead 0 (unauthorizedWith first), .connected 3,
    .readyRead 1 (unauthorizedWith second), .connected 4,
    .readyRead 2 (unauthorizedWith third), .connected 5]

theorem digest_counter_rotated :
    let sent := (run (Client.handle plainEnv) {}
      (threeChallenges "A" "B" "B")).authorizations
    (sent.Pairwise fun h h' => h.nonce = h'.nonce → h.nc < h'.nc) ∧
      (sent.map fun h => (h.nonce, h.nc)).Nodup :=
  digest_counter plainEnv _ (by decide +kernel)

/-- A, B and A again: the counter is rewound for a nonce that is in use, and
two headers carry the same pair. -/
theorem digest_counter_repeats :
    ¬ ∀ (env : Env) (es : List Event),
      let sent := (run (Client.handle env) {} es).authorizations
      (sent.Pairwise fun h h' => h.nonce = h'.nonce → h.nc < h'.nc) ∧
        (sent.map fun h => (h.nonce, h.nc)).Nodup := by
  intro h
  have hsent : (run (Client.handle plainEnv) {}
      (threeChallenges "A" "B" "A")).authorizations.map
        (fun h => (h.nonce, h.nc)) =
      [(ascii "A", 1), (ascii "B", 1), (ascii "A", 1)] := by
    decide +kernel
  have := (h plainEnv (threeChallenges "A" "B" "A")).2
  rw [hsent] at this
  revert this
  decide

end QuMesh.Wsman
