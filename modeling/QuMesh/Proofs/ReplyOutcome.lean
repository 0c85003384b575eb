import QuMesh.Lib.Errands
import QuMesh.Proofs.DigestCounter
import QuMesh.Proofs.IdlePass
import QuMesh.Proofs.RequestQueue

/-!
# How often a reply tries, and how it ends

A reply is an errand: its attempts are the tries, the write of a request
spends one, and `finished` closes it. `retryWithDigest` is entered once when
the reply is started and twice more at most, because a 401 that says the nonce
is stale is allowed two retries and any other one. So three requests are
written at most, none behind `finished`, and `finished` comes once, whatever
the order of the events.

What the code does not do is to tell the sockets of one reply apart. A socket
that a retry discarded stays connected to the handlers until it is deleted,
and they look the reply up. An error of it fails the retry that runs on the
new socket, with the text of the new socket, and its `readyRead` makes a pass
over the new socket. The pass does nothing but where `Reply.Stirs` says so.
-/

namespace QuMesh.Wsman

open QuMesh.Lib

def Effect.entry : Effect → Option (Errands.Entry Nat)
  | .wrote _ a _ _ => some (.spent a)
  | .finished r => some (.closed r)
  | _ => none

namespace Client

def errands (c : Client) : Errands Nat where
  owner a := (c.attempts a).reply
  issued := c.nextAttempt
  ready := { a | (c.attempts a).stage ≠ .settled }
  -- the one a start opens, and the retries
  quota r := (if r ∈ c.started then 0 else 1) + (2 - (c.replies r).digestRetries)
  closed := { r | (c.replies r).finished = true }
  history := c.out.filterMap Effect.entry

/-! ## The invariant -/

/-- Replies that were not finished have read all they could from a socket of
theirs that has nothing left, but for one that is just being read. -/
structure Poised (but : Option Nat) (c : Client) : Prop where
  rests : ∀ r, but ≠ some r → (c.replies r).finished = false →
    (c.replies r).AtRest ∧ (c.replies r).Capped
  clear : ∀ r a, (c.replies r).socket = some a →
    (c.replies r).finished = false → (c.attempts a).unread = []
  owned : ∀ r a, (c.replies r).socket = some a →
    (c.attempts a).reply = r ∧ (c.attempts a).wired = true
  opened : ∀ a, (c.attempts a).wired = true → a < c.nextAttempt
  blank : ∀ a, (c.attempts a).wired = false → (c.attempts a).unread = []

/-- What waits in the queue has not been started. -/
structure Unstarted (c : Client) (queue : List Nat) : Prop where
  nodup : queue.Nodup
  waiting : ∀ r ∈ queue, r < c.nextReply ∧ r ∉ c.started
  made : ∀ r ∈ c.started, r < c.nextReply

/-- And nothing waits while no request is in flight. -/
structure InLine (c : Client) : Prop where
  queue : c.Unstarted c.pendingQueue
  idle : c.current = none → c.pendingQueue = []

/-- A socket that the factory is still to bring has no handlers yet. -/
def Unwired (but : Option Nat) (c : Client) : Prop :=
  ∀ a, but ≠ some a → (c.attempts a).stage = .opening →
    (c.attempts a).wired = false ∧ a < c.nextAttempt

/-- Replies that are yet to be made are as new ones will be. -/
def Numbered (c : Client) : Prop :=
  ∀ r, ((c.replies r).alive = true → r < c.nextReply) ∧
    (c.nextReply ≤ r →
      (c.replies r).finished = false ∧ (c.replies r).digestRetries = 0)

structure Sane (but : Option Nat) (c : Client) : Prop where
  poised : c.Poised but
  inLine : c.InLine
  unwired : c.Unwired none
  numbered : c.Numbered

theorem Poised.weaken {c : Client} (h : c.Poised none) (but : Option Nat) :
    c.Poised but :=
  ⟨fun r _ => h.rests r (fun hne => by cases hne), h.clear, h.owned, h.opened,
    h.blank⟩

theorem Poised.of_eq {c c' : Client} {but : Option Nat} (h : c.Poised but)
    (hreplies : c'.replies = c.replies) (hattempts : c'.attempts = c.attempts)
    (hissued : c'.nextAttempt = c.nextAttempt) : c'.Poised but := by
  obtain ⟨hrests, hclear, howned, hopened, hblank⟩ := h
  rw [← hreplies] at hrests hclear howned
  rw [← hattempts] at hclear howned hopened hblank
  rw [← hissued] at hopened
  exact ⟨hrests, hclear, howned, hopened, hblank⟩

/-! ## Operations the errands do not notice -/

structure Level (c c' : Client) : Prop where
  issued : c'.nextAttempt = c.nextAttempt
  owner : ∀ a, (c'.attempts a).reply = (c.attempts a).reply
  stage : ∀ a, (c'.attempts a).stage ≠ .settled → (c.attempts a).stage ≠ .settled
  retries : ∀ r, (c'.replies r).digestRetries = (c.replies r).digestRetries
  finished : ∀ r, (c'.replies r).finished = (c.replies r).finished
  started : c'.started = c.started
  history : c'.errands.history = c.errands.history
  inLine : c.InLine → c'.InLine
  unwired : c.Unwired none → c'.Unwired none
  nextReply : c'.nextReply = c.nextReply
  alive : ∀ r, (c'.replies r).alive = (c.replies r).alive

/-- And that leave the replies poised. -/
structure Steady (c c' : Client) : Prop extends Level c c' where
  poised : ∀ but, c.Poised but → c'.Poised but

variable {c c' c'' : Client}

theorem Steady.refl (c : Client) : Steady c c :=
  ⟨⟨rfl, fun _ => rfl, fun _ => id, fun _ => rfl, fun _ => rfl, rfl, rfl, id,
    id, rfl, fun _ => rfl⟩, fun _ => id⟩

theorem Level.trans (h : Level c c') (h' : Level c' c'') : Level c c'' where
  issued := h'.issued.trans h.issued
  owner a := (h'.owner a).trans (h.owner a)
  stage a ha := h.stage a (h'.stage a ha)
  retries r := (h'.retries r).trans (h.retries r)
  finished r := (h'.finished r).trans (h.finished r)
  started := h'.started.trans h.started
  history := h'.history.trans h.history
  inLine hl := h'.inLine (h.inLine hl)
  unwired hu := h'.unwired (h.unwired hu)
  nextReply := h'.nextReply.trans h.nextReply
  alive r := (h'.alive r).trans (h.alive r)

theorem Level.numbered (h : Level c c') (hn : c.Numbered) : c'.Numbered := by
  intro r
  rw [h.nextReply, h.alive, h.finished, h.retries]
  exact hn r

theorem Steady.trans (h : Steady c c') (h' : Steady c' c'') : Steady c c'' :=
  ⟨h.toLevel.trans h'.toLevel, fun but hp => h'.poised but (h.poised but hp)⟩

theorem Level.quota (h : Level c c') : c'.errands.quota = c.errands.quota := by
  funext r
  show (if r ∈ c'.started then 0 else 1) + (2 - (c'.replies r).digestRetries) = _
  rw [h.started, h.retries]
  rfl

theorem Level.closed (h : Level c c') :
    c'.errands.closed = c.errands.closed := by
  refine Set.ext fun r => ?_
  show (c'.replies r).finished = true ↔ (c.replies r).finished = true
  rw [h.finished]

theorem Level.keeps (h : Level c c') :
    Errands.Keeps c.errands c'.errands :=
  ⟨fun a _ => h.owner a, fun r => Nat.le_of_eq (congrFun h.quota r)⟩

/-- A run of the errands, for clients that keep the invariant. -/
def Proceeds (but : Option Nat) (c c' : Client) : Prop :=
  c.Sane but → c'.Sane none ∧ Errands.Steps c.errands c'.errands

theorem Level.step (h : Level c c') : Errands.Step c.errands c'.errands :=
  .lapse h.keeps h.issued (fun a ha => h.stage a ha) h.closed h.history

theorem Steady.sane {but : Option Nat} (h : Steady c c') (hs : c.Sane but) :
    c'.Sane but :=
  ⟨h.poised but hs.poised, h.inLine hs.inLine, h.unwired hs.unwired,
    h.numbered hs.numbered⟩

theorem Steady.proceeds (h : Steady c c') : Proceeds none c c' :=
  fun hs => ⟨h.sane hs, .single h.step⟩

theorem Proceeds.refl (c : Client) : Proceeds none c c :=
  (Steady.refl c).proceeds

theorem Proceeds.trans {but : Option Nat} (h : Proceeds but c c')
    (h' : Proceeds none c' c'') : Proceeds but c c'' := by
  intro hs
  obtain ⟨hs', hsteps⟩ := h hs
  obtain ⟨hs'', hsteps'⟩ := h' hs'
  exact ⟨hs'', hsteps.trans hsteps'⟩

theorem Steady.trans_proceeds {but : Option Nat} (h : Steady c c')
    (h' : Proceeds but c' c'') : Proceeds but c c'' := by
  intro hs
  obtain ⟨hs'', hsteps⟩ := h' (h.sane hs)
  exact ⟨hs'', .head h.step hsteps⟩

/-- Nothing about the queue or the history changes. -/
theorem InLine.of_eq (h : c.InLine) (hqueue : c'.pendingQueue = c.pendingQueue)
    (hcurrent : c'.current = none → c.current = none)
    (hnext : c'.nextReply = c.nextReply) (hstarted : c'.started = c.started) :
    c'.InLine := by
  obtain ⟨⟨hnodup, hwaiting, hmade⟩, hidle⟩ := h
  refine ⟨⟨hqueue ▸ hnodup, ?_, ?_⟩, fun hn => ?_⟩
  · rw [hqueue, hnext, hstarted]
    exact hwaiting
  · rw [hnext, hstarted]
    exact hmade
  · rw [hqueue]
    exact hidle (hcurrent hn)

theorem current_withReply {r : Nat} {f : Reply → Reply}
    (halive : (f (c.replies r)).alive = (c.replies r).alive) :
    (c.withReply r f).current = c.current := by
  rw [current, current]
  exact congrArg (fun p => Option.filter p c.currentRequest)
    (funext fun s => withReply_field Reply.alive r s f halive)

theorem withReply_level (r : Nat) (f : Reply → Reply)
    (hfinished : (f (c.replies r)).finished = (c.replies r).finished)
    (hretries : (f (c.replies r)).digestRetries = (c.replies r).digestRetries)
    (halive : (f (c.replies r)).alive = (c.replies r).alive) :
    Level c (c.withReply r f) where
  issued := rfl
  owner _ := rfl
  stage _ := id
  retries s := withReply_field Reply.digestRetries r s f hretries
  finished s := withReply_field Reply.finished r s f hfinished
  started := rfl
  history := rfl
  inLine h := by
    refine h.of_eq rfl (fun hn => ?_) rfl rfl
    rw [current_withReply halive] at hn
    exact hn
  unwired := id
  nextReply := rfl
  alive s := withReply_field Reply.alive r s f halive

theorem Poised.withReply {but : Option Nat} (h : c.Poised but) (r : Nat)
    (f : Reply → Reply)
    (hfinished : (f (c.replies r)).finished = (c.replies r).finished)
    (hsocket : ∀ a, (f (c.replies r)).socket = some a →
      (c.replies r).socket = some a)
    (hrest : (c.replies r).AtRest → (f (c.replies r)).AtRest)
    (hcap : (c.replies r).Capped → (f (c.replies r)).Capped) :
    (c.withReply r f).Poised but := by
  have hfin s := withReply_field Reply.finished r s f hfinished
  have hsock s a : ((c.withReply r f).replies s).socket = some a →
      (c.replies s).socket = some a :=
    withReply_imp (p := fun rd => rd.socket = some a) (hsocket a) s
  refine ⟨fun s hs hf => ?_, fun s a ha hf => ?_, fun s a ha => ?_, h.opened,
    h.blank⟩
  · rw [hfin] at hf
    obtain ⟨har, hac⟩ := h.rests s hs hf
    rw [withReply_replies]
    split
    · next heq =>
        subst heq
        exact ⟨hrest har, hcap hac⟩
    · exact ⟨har, hac⟩
  · rw [hfin] at hf
    exact h.clear s a (hsock s a ha) hf
  · exact h.owned s a (hsock s a ha)

theorem withReply_steady (r : Nat) (f : Reply → Reply)
    (hfinished : (f (c.replies r)).finished = (c.replies r).finished)
    (hretries : (f (c.replies r)).digestRetries = (c.replies r).digestRetries)
    (halive : (f (c.replies r)).alive = (c.replies r).alive)
    (hsocket : ∀ a, (f (c.replies r)).socket = some a →
      (c.replies r).socket = some a)
    (hrest : (c.replies r).AtRest → (f (c.replies r)).AtRest)
    (hcap : (c.replies r).Capped → (f (c.replies r)).Capped) :
    Steady c (c.withReply r f) :=
  ⟨withReply_level r f hfinished hretries halive, fun _ h =>
    h.withReply r f hfinished hsocket hrest hcap⟩

theorem withAttempt_level (a : Nat) (f : Attempt → Attempt)
    (hreply : (f (c.attempts a)).reply = (c.attempts a).reply)
    (hstage : (f (c.attempts a)).stage ≠ .settled →
      (c.attempts a).stage ≠ .settled)
    (hopening : (f (c.attempts a)).stage = .opening →
      (c.attempts a).stage = .opening)
    (hwired : (f (c.attempts a)).wired = (c.attempts a).wired) :
    Level c (c.withAttempt a f) where
  issued := rfl
  owner b := withAttempt_field Attempt.reply a b f hreply
  stage b := withAttempt_imp (p := fun t => t.stage ≠ .settled) hstage b
  retries _ := rfl
  finished _ := rfl
  started := rfl
  history := rfl
  inLine h := h.of_eq rfl id rfl rfl
  unwired h b hb hs := by
    rw [withAttempt_field Attempt.wired a b f hwired]
    exact h b hb (withAttempt_imp (p := fun t => t.stage = .opening) hopening b
      hs)
  nextReply := rfl
  alive _ := rfl

theorem withAttempt_steady (a : Nat) (f : Attempt → Attempt)
    (hreply : (f (c.attempts a)).reply = (c.attempts a).reply)
    (hstage : (f (c.attempts a)).stage ≠ .settled →
      (c.attempts a).stage ≠ .settled)
    (hopening : (f (c.attempts a)).stage = .opening →
      (c.attempts a).stage = .opening)
    (hwired : (f (c.attempts a)).wired = (c.attempts a).wired)
    (hunread : (f (c.attempts a)).unread = (c.attempts a).unread ∨
      (f (c.attempts a)).unread = []) :
    Steady c (c.withAttempt a f) where
  toLevel := withAttempt_level a f hreply hstage hopening hwired
  poised but h := by
    have hwire b := withAttempt_field Attempt.wired a b f hwired
    have hread b (hb : (c.attempts b).unread = []) :
        ((c.withAttempt a f).attempts b).unread = [] := by
      rw [withAttempt_attempts]
      split
      · next heq =>
          subst heq
          exact hunread.elim (fun h => h.trans hb) id
      · exact hb
    refine ⟨h.rests, fun r b hb hf => hread b (h.clear r b hb hf),
      fun r b hb => ?_, fun b hb => ?_, fun b hb => ?_⟩
    · rw [hwire, withAttempt_field Attempt.reply a b f hreply]
      exact h.owned r b hb
    · rw [hwire] at hb
      exact h.opened b hb
    · rw [hwire] at hb
      exact hread b (h.blank b hb)

/-- The fields the errands are read off are the ones they were. -/
theorem steady_of_eq (hreplies : c'.replies = c.replies)
    (hattempts : c'.attempts = c.attempts)
    (hattempt : c'.nextAttempt = c.nextAttempt)
    (hnext : c'.nextReply = c.nextReply) (hstarted : c'.started = c.started)
    (hhistory : c'.errands.history = c.errands.history)
    (hinLine : c.InLine → c'.InLine) : Steady c c' where
  issued := hattempt
  owner a := by rw [hattempts]
  stage a := by rw [hattempts]; exact id
  retries r := by rw [hreplies]
  finished r := by rw [hreplies]
  started := hstarted
  history := hhistory
  poised _ h := h.of_eq hreplies hattempts hattempt
  inLine := hinLine
  unwired h := by
    unfold Unwired at h ⊢
    rw [hattempts, hattempt]
    exact h
  nextReply := hnext
  alive r := by rw [hreplies]

/-- So is the queue. -/
theorem steady_of_settings (hreplies : c'.replies = c.replies)
    (hattempts : c'.attempts = c.attempts)
    (hattempt : c'.nextAttempt = c.nextAttempt) (hout : c'.out = c.out)
    (hqueue : c'.pendingQueue = c.pendingQueue)
    (hrequest : c'.currentRequest = c.currentRequest)
    (hnext : c'.nextReply = c.nextReply) : Steady c c' := by
  have hstarted : c'.started = c.started := by rw [started, started, hout]
  refine steady_of_eq hreplies hattempts hattempt hnext hstarted ?_ fun h =>
    h.of_eq hqueue (fun hn => ?_) hnext hstarted
  · show c'.out.filterMap _ = _
    rw [hout]
    rfl
  · rw [current, hreplies, hrequest] at hn
    exact hn

theorem emit_steady {e : Effect} (he : e.entry = none) (hs : e.start = none) :
    Steady c (c.emit e) := by
  have hstarted : (c.emit e).started = c.started := by
    simp [started, emit, hs]
  refine steady_of_eq rfl rfl rfl rfl hstarted ?_ fun h =>
    h.of_eq rfl id rfl hstarted
  show (c.out ++ [e]).filterMap Effect.entry = c.out.filterMap Effect.entry
  simp [he]

theorem armTimeout_steady (r : Nat) : Steady c (c.armTimeout r) := by
  unfold armTimeout
  split
  · exact .refl c
  · exact withReply_steady r _ rfl rfl rfl (fun _ => id) id
      fun h => ⟨h.body, h.expected⟩

theorem stopTimer_steady (r : Nat) : Steady c (c.stopTimer r) := by
  unfold stopTimer
  split
  · exact withReply_steady r _ rfl rfl rfl (fun _ => id) id
      fun h => ⟨h.body, h.expected⟩
  · exact .refl c

theorem abortSocket_steady (r : Nat) : Steady c (c.abortSocket r) := by
  unfold abortSocket
  split
  · exact .refl c
  · exact withAttempt_steady _ _ rfl id id rfl (.inl rfl)

/-! ## Opening a transport -/

/-- One attempt more, for reply `r`. -/
structure Opened (r : Nat) (c c' : Client) : Prop where
  issued : c'.nextAttempt = c.nextAttempt + 1
  owner : ∀ a < c.nextAttempt, (c'.attempts a).reply = (c.attempts a).reply
  mine : (c'.attempts c.nextAttempt).reply = r
  stage : ∀ a, (c'.attempts a).stage ≠ .settled →
    (c.attempts a).stage ≠ .settled ∨ a = c.nextAttempt
  retries : ∀ s, (c'.replies s).digestRetries = (c.replies s).digestRetries
  finished : ∀ s, (c'.replies s).finished = (c.replies s).finished
  started : c'.started = c.started
  history : c'.errands.history = c.errands.history
  inLine : c.InLine → c'.InLine
  unwired : c.Unwired none → c'.Unwired none
  nextReply : c'.nextReply = c.nextReply
  alive : ∀ s, (c'.replies s).alive = (c.replies s).alive

theorem Opened.after {r : Nat} (h : Level c c') (h' : Opened r c' c'') :
    Opened r c c'' where
  issued := h.issued ▸ h'.issued
  owner a ha := (h'.owner a (h.issued ▸ ha)).trans (h.owner a)
  mine := h.issued ▸ h'.mine
  stage a ha := by
    rcases h'.stage a ha with ho | rfl
    · exact .inl (h.stage a ho)
    · exact .inr h.issued
  retries s := (h'.retries s).trans (h.retries s)
  finished s := (h'.finished s).trans (h.finished s)
  started := h'.started.trans h.started
  history := h'.history.trans h.history
  inLine hl := h'.inLine (h.inLine hl)
  unwired hu := h'.unwired (h.unwired hu)
  nextReply := h'.nextReply.trans h.nextReply
  alive s := (h'.alive s).trans (h.alive s)

theorem Opened.numbered {r : Nat} (h : Opened r c c') (hn : c.Numbered) :
    c'.Numbered := by
  intro s
  rw [h.nextReply, h.alive, h.finished, h.retries]
  exact hn s

/-- Where the quota covers it, that is a try of the errand. -/
theorem Opened.issue {r : Nat} (h : Opened r c' c'')
    (hkeeps : Errands.Keeps c.errands c'.errands)
    (hissued : c'.nextAttempt = c.nextAttempt)
    (hready : ∀ a ∈ c'.errands.ready, a ∈ c.errands.ready)
    (hclosed : c'.errands.closed = c.errands.closed)
    (hhistory : c'.errands.history = c.errands.history)
    (hquota : c'.errands.quota r < c.errands.quota r) :
    Errands.Step c.errands c''.errands := by
  have hq : c''.errands.quota = c'.errands.quota := by
    funext s
    show (if s ∈ c''.started then 0 else 1) + (2 - (c''.replies s).digestRetries)
      = _
    rw [h.started, h.retries]
    rfl
  refine .issue r ⟨fun a ha => ?_, fun s => ?_⟩ ?_ ?_ ?_ (fun a ha => ?_) ?_
    (h.history.trans hhistory)
  · exact (h.owner a (hissued ▸ ha)).trans (hkeeps.owner a ha)
  · rw [hq]
    exact hkeeps.quota s
  · show c''.nextAttempt = c.nextAttempt + 1
    rw [h.issued, hissued]
  · show (c''.attempts c.nextAttempt).reply = r
    rw [← hissued, h.mine]
  · rw [hq]
    exact hquota
  · rcases h.stage a ha with ho | heq
    · exact .inl (hready a ho)
    · exact .inr (heq.trans hissued)
  · refine .trans (Set.ext fun s => ?_) hclosed
    show (c''.replies s).finished = true ↔ (c'.replies s).finished = true
    rw [h.finished]

theorem newAttempt_opened {r : Nat} {t : Attempt} (hreply : t.reply = r)
    (hwired : t.wired = false) : Opened r c (c.newAttempt t) where
  issued := rfl
  owner a ha := by rw [newAttempt_attempts, if_neg (Nat.ne_of_lt ha)]
  mine := by
    rw [newAttempt_attempts, if_pos rfl]
    exact hreply
  stage a ha := by
    rw [newAttempt_attempts] at ha
    split at ha
    · next heq => exact .inr heq
    · exact .inl ha
  retries _ := rfl
  finished _ := rfl
  started := rfl
  history := rfl
  inLine h := h.of_eq rfl id rfl rfl
  unwired h a ha hs := by
    show _ ∧ a < c.nextAttempt + 1
    rw [newAttempt_attempts] at hs ⊢
    split at hs
    · next heq =>
        rw [if_pos heq]
        exact ⟨hwired, by omega⟩
    · next hne =>
        obtain ⟨hw, hlt⟩ := h a ha hs
        rw [if_neg hne]
        exact ⟨hw, by omega⟩
  nextReply := rfl
  alive _ := rfl

theorem Opened.then_reply {r s : Nat} {f : Reply → Reply} (h : Opened r c c')
    (hfinished : (f (c'.replies s)).finished = (c'.replies s).finished)
    (hretries : (f (c'.replies s)).digestRetries = (c'.replies s).digestRetries)
    (halive : (f (c'.replies s)).alive = (c'.replies s).alive) :
    Opened r c (c'.withReply s f) where
  issued := h.issued
  owner := h.owner
  mine := h.mine
  stage := h.stage
  retries u := (withReply_field Reply.digestRetries s u f hretries).trans
    (h.retries u)
  finished u := (withReply_field Reply.finished s u f hfinished).trans
    (h.finished u)
  started := h.started
  history := h.history
  inLine hl := (h.inLine hl).of_eq rfl
    (fun hn => (current_withReply halive) ▸ hn) rfl rfl
  unwired := h.unwired
  nextReply := h.nextReply
  alive u := (withReply_field Reply.alive s u f halive).trans (h.alive u)

theorem Opened.then_attempt {r a : Nat} {f : Attempt → Attempt}
    (h : Opened r c c')
    (hreply : (f (c'.attempts a)).reply = (c'.attempts a).reply)
    (hstage : (f (c'.attempts a)).stage ≠ .settled →
      (c'.attempts a).stage ≠ .settled)
    (hopening : (f (c'.attempts a)).stage ≠ .opening) :
    Opened r c (c'.withAttempt a f) where
  issued := h.issued
  owner b hb := (withAttempt_field Attempt.reply a b f hreply).trans
    (h.owner b hb)
  mine := (withAttempt_field Attempt.reply a _ f hreply).trans h.mine
  stage b hb := h.stage b
    (withAttempt_imp (p := fun t => t.stage ≠ .settled) hstage b hb)
  retries := h.retries
  finished := h.finished
  started := h.started
  history := h.history
  inLine hl := (h.inLine hl).of_eq rfl id rfl rfl
  unwired hu b hb hs := by
    rw [withAttempt_attempts] at hs ⊢
    split at hs
    · next heq =>
        subst heq
        exact absurd hs hopening
    · next hne =>
        rw [if_neg hne]
        exact h.unwired hu b hb hs
  nextReply := h.nextReply
  alive := h.alive

theorem openSocket_opened (r : Nat) (auth : Option DigestHeader) :
    Opened r c (c.openSocket r auth) := by
  unfold openSocket
  simp only []
  split
  · refine Opened.then_reply ?_ rfl rfl rfl
    exact newAttempt_opened rfl rfl
  · refine Opened.then_reply ?_ rfl rfl rfl
    refine Opened.then_attempt ?_ rfl id ?_
    · refine Opened.then_reply ?_ rfl rfl rfl
      exact newAttempt_opened rfl rfl
    · show ((c.newAttempt _).attempts c.nextAttempt).stage ≠ .opening
      rw [newAttempt_attempts, if_pos rfl]
      exact fun hs => by cases hs

/-! ### What the new socket finds -/

theorem Poised.withReply_but {r : Nat} {but : Option Nat} {f : Reply → Reply}
    (h : c.Poised but) (hbut : ∀ s, s ≠ r → but ≠ some s)
    (hfinished : (f (c.replies r)).finished = (c.replies r).finished)
    (hsocket : ∀ a, (f (c.replies r)).socket = some a →
      (c.replies r).socket = some a) :
    (c.withReply r f).Poised (some r) := by
  have hfin s := withReply_field Reply.finished r s f hfinished
  have hsock s a : ((c.withReply r f).replies s).socket = some a →
      (c.replies s).socket = some a :=
    withReply_imp (p := fun rd => rd.socket = some a) (hsocket a) s
  refine ⟨fun s hs hf => ?_, fun s a ha hf => ?_, fun s a ha => ?_, h.opened,
    h.blank⟩
  · have hne : s ≠ r := fun heq => hs (congrArg some heq.symm)
    rw [hfin] at hf
    rw [withReply_replies, if_neg hne]
    exact h.rests s (hbut s hne) hf
  · rw [hfin] at hf
    exact h.clear s a (hsock s a ha) hf
  · exact h.owned s a (hsock s a ha)

/-- A reply that is connecting rests. -/
theorem Poised.withReply_connecting {r : Nat}
    (h : c.Poised (some r))
    (hbody : (c.replies r).finished = false →
      (c.replies r).body.length ≤ maxBodyBytes) :
    (c.withReply r fun rd => { rd with state := .connecting }).Poised none := by
  have hbut := h.withReply_but (f := fun rd => { rd with state := .connecting })
    (fun s hs heq => hs (Option.some.inj heq).symm) rfl (fun _ => id)
  refine ⟨fun s _ hf => ?_, hbut.clear, hbut.owned, hbut.opened, hbut.blank⟩
  by_cases hs : s = r
  · subst hs
    rw [withReply_replies, if_pos rfl] at hf ⊢
    refine ⟨.of_state (fun h => by cases h) (fun h => by cases h), hbody hf,
      fun h => by cases h⟩
  · exact hbut.rests s (fun heq => hs (Option.some.inj heq).symm) hf

theorem Poised.newAttempt {but : Option Nat} {t : Attempt} (h : c.Poised but)
    (hunread : t.unread = []) :
    (c.newAttempt t).Poised but := by
  have hold {b : Nat} (hb : (c.attempts b).wired = true) :
      (c.newAttempt t).attempts b = c.attempts b := by
    rw [newAttempt_attempts, if_neg (Nat.ne_of_lt (h.opened b hb))]
  refine ⟨h.rests, fun r a ha hf => ?_, fun r a ha => ?_, fun a ha => ?_,
    fun a ha => ?_⟩
  · rw [hold (h.owned r a ha).2]
    exact h.clear r a ha hf
  · rw [hold (h.owned r a ha).2]
    exact h.owned r a ha
  · show a < c.nextAttempt + 1
    rw [newAttempt_attempts] at ha
    split at ha
    · omega
    · exact Nat.lt_succ_of_lt (h.opened a ha)
  · rw [newAttempt_attempts] at ha ⊢
    split at ha
    · next heq =>
        rw [if_pos heq]
        exact hunread
    · next hne =>
        rw [if_neg hne]
        exact h.blank a ha

/-- The handlers go on a socket of the reply that has brought nothing yet. -/
theorem Poised.wireSocketHandlers {r a : Nat} {but : Option Nat}
    (h : c.Poised but) (howner : (c.attempts a).reply = r)
    (hopened : a < c.nextAttempt) (hwired : (c.attempts a).wired = false) :
    (c.wireSocketHandlers r a).Poised but := by
  let wire (t : Attempt) : Attempt :=
    { t with wired := true, checksPeer := c.endpoint.https }
  let c₁ := c.withReply r fun rd => { rd with socket := some a }
  have hread b : ((c₁.withAttempt a wire).attempts b).unread =
      (c.attempts b).unread := withAttempt_field Attempt.unread a b wire rfl
  have hreply b : ((c₁.withAttempt a wire).attempts b).reply =
      (c.attempts b).reply := withAttempt_field Attempt.reply a b wire rfl
  have hfin s : (c₁.replies s).finished = (c.replies s).finished :=
    withReply_field Reply.finished r s _ rfl
  have hsock {s b : Nat} (hb : (c₁.replies s).socket = some b) :
      (s = r ∧ b = a) ∨ (c.replies s).socket = some b := by
    rw [withReply_replies] at hb
    split at hb
    · next heq => exact .inl ⟨heq, (Option.some.inj hb).symm⟩
    · exact .inr hb
  refine ⟨fun s hs hf => ?_, fun s b hb hf => ?_, fun s b hb => ?_,
    fun b hb => ?_, fun b hb => ?_⟩
  · have hf' : (c.replies s).finished = false := (hfin s).symm.trans hf
    obtain ⟨har, hac⟩ := h.rests s hs hf'
    show (c₁.replies s).AtRest ∧ (c₁.replies s).Capped
    rw [withReply_replies]
    split
    · next heq =>
        subst heq
        exact ⟨har, ⟨hac.body, hac.expected⟩⟩
    · exact ⟨har, hac⟩
  · rw [show ((c.wireSocketHandlers r a).attempts b).unread = _ from hread b]
    rcases hsock hb with ⟨-, rfl⟩ | hb
    · exact h.blank b hwired
    · exact h.clear s b hb ((hfin s).symm.trans hf)
  · rcases hsock hb with ⟨rfl, rfl⟩ | hb
    · refine ⟨(hreply b).trans howner, ?_⟩
      show ((c₁.withAttempt b wire).attempts b).wired = true
      rw [withAttempt_attempts, if_pos rfl]
    · obtain ⟨ho, hw⟩ := h.owned s b hb
      refine ⟨(hreply b).trans ho, ?_⟩
      show ((c₁.withAttempt a wire).attempts b).wired = true
      rw [withAttempt_attempts]
      split
      · rfl
      · exact hw
  · by_cases hba : b = a
    · exact hba ▸ hopened
    · refine h.opened b ?_
      have : ((c₁.withAttempt a wire).attempts b).wired = true := hb
      rw [withAttempt_attempts, if_neg hba] at this
      exact this
  · rw [show ((c.wireSocketHandlers r a).attempts b).unread = _ from hread b]
    refine h.blank b ?_
    have hb' : ((c₁.withAttempt a wire).attempts b).wired = false := hb
    rw [withAttempt_attempts] at hb'
    split at hb'
    · cases hb'
    · exact hb'

theorem wireSocketHandlers_field {β : Type} (g : Reply → β) (r a s : Nat)
    (h : ∀ rd : Reply, g { rd with socket := some a } = g rd) :
    g ((c.wireSocketHandlers r a).replies s) = g (c.replies s) :=
  withReply_field g r s (fun rd => { rd with socket := some a }) (h _)

theorem openSocket_poised {r : Nat} (auth : Option DigestHeader)
    (h : c.Poised (some r))
    (hbody : (c.replies r).finished = false →
      (c.replies r).body.length ≤ maxBodyBytes) :
    (c.openSocket r auth).Poised none := by
  unfold openSocket
  simp only []
  split
  · exact Poised.withReply_connecting (h.newAttempt rfl) hbody
  · have hnew {t : Attempt} (hreply : t.reply = r) (hwired : t.wired = false)
        (hunread : t.unread = []) :
        ((c.newAttempt t).wireSocketHandlers r c.nextAttempt).Poised (some r) := by
      refine (h.newAttempt hunread).wireSocketHandlers ?_
        (Nat.lt_succ_self _) ?_
      · rw [newAttempt_attempts, if_pos rfl]
        exact hreply
      · rw [newAttempt_attempts, if_pos rfl]
        exact hwired
    refine Poised.withReply_connecting (hnew rfl rfl rfl) fun hf => ?_
    rw [wireSocketHandlers_field Reply.finished _ _ _ fun _ => rfl] at hf
    rw [wireSocketHandlers_field Reply.body _ _ _ fun _ => rfl]
    exact hbody hf

theorem startTransport_opened (r : Nat) : Opened r c (c.startTransport r) :=
  .after (armTimeout_steady r).toLevel (openSocket_opened r none)

theorem startTransport_poised (r : Nat) (h : c.Poised none) :
    (c.startTransport r).Poised none := by
  have harm := (armTimeout_steady r).poised none h
  refine openSocket_poised none (harm.weaken _) fun hf => ?_
  exact (harm.rests r (fun hne => by cases hne) hf).2.body

/-- The discarded socket is not the reply's any more, and nothing is left of
what came from it. -/
theorem discardResponse_poised {but : Option Nat} {r : Nat}
    (h : c.Poised but) (hbut : ∀ s, s ≠ r → but ≠ some s) :
    (c.discardResponse r).Poised (some r) := by
  have hclose := (abortSocket_steady r).poised but h
  unfold discardResponse
  unfold abortSocket at hclose
  exact hclose.withReply_but hbut rfl fun a ha => by cases ha

theorem discardResponse_level (r : Nat) : Level c (c.discardResponse r) := by
  have hclose := (abortSocket_steady (c := c) r).toLevel
  unfold discardResponse
  unfold abortSocket at hclose
  exact hclose.trans (withReply_level r _ rfl rfl rfl)

theorem discardResponse_body (r : Nat) :
    ((c.discardResponse r).replies r).body = [] := by
  unfold discardResponse
  simp only []
  rw [withReply_replies, if_pos rfl]

theorem retryWithDigest_opened (env : Env) (r : Nat) :
    Opened r c (c.retryWithDigest env r) := by
  have hlevel := (armTimeout_steady (c := c) r).toLevel.trans
    (discardResponse_level r)
  unfold retryWithDigest
  simp only []
  refine .after (hlevel.trans ?_) (openSocket_opened r _)
  refine Steady.toLevel ?_
  exact steady_of_settings rfl rfl rfl rfl rfl rfl rfl

theorem retryWithDigest_poised (env : Env) {but : Option Nat} {r : Nat}
    (h : c.Poised but) (hbut : ∀ s, s ≠ r → but ≠ some s) :
    (c.retryWithDigest env r).Poised none := by
  have hgone := discardResponse_poised ((armTimeout_steady r).poised but h) hbut
  have hbody := discardResponse_body (c := c.armTimeout r) r
  unfold retryWithDigest
  simp only []
  generalize (c.armTimeout r).discardResponse r = c₁ at hgone hbody ⊢
  refine openSocket_poised _ ?_ fun _ => ?_
  · exact hgone.of_eq rfl rfl rfl
  · show (c₁.replies r).body.length ≤ maxBodyBytes
    rw [hbody]
    exact Nat.zero_le _

/-- A reply is started once, and that is one try of it. -/
theorem startNow_proceeds (env : Env) {r : Nat} (hr : r < c.nextReply)
    (hnew : r ∉ c.started) (hout : r ∉ c.pendingQueue) :
    Proceeds none c (c.startNow env r) := by
  intro ⟨hpoised, hline, hunwired, hnumbered⟩
  have hstarted : (c.emit (.started r)).started = c.started ++ [r] := by
    simp [started, emit, Effect.start]
  have hbegun : (c.emit (.started r)).InLine := by
    obtain ⟨⟨hnodup, hwaiting, hmade⟩, hidle⟩ := hline
    refine ⟨⟨hnodup, fun q hq => ⟨(hwaiting q hq).1, ?_⟩, fun s hs => ?_⟩, hidle⟩
    · rw [hstarted, List.mem_append, List.mem_singleton]
      rintro (hq' | rfl)
      · exact (hwaiting q hq).2 hq'
      · exact hout hq
    · rw [hstarted, List.mem_append, List.mem_singleton] at hs
      rcases hs with hs | rfl
      · exact hmade s hs
      · exact hr
  have hready : (c.emit (.started r)).Poised none :=
    hpoised.of_eq rfl rfl rfl
  have hopened : Opened r (c.emit (.started r)) (c.startNow env r) := by
    unfold startNow
    simp only []
    split
    · exact retryWithDigest_opened env r
    · exact startTransport_opened r
  refine ⟨⟨?_, hopened.inLine hbegun, hopened.unwired hunwired,
    hopened.numbered hnumbered⟩, .single ?_⟩
  · unfold startNow
    simp only []
    split
    · exact retryWithDigest_poised env hready fun s _ heq => by cases heq
    · exact startTransport_poised r hready
  · have hquota (s : Nat) : (c.emit (.started r)).errands.quota s =
        (if s ∈ c.started ++ [r] then 0 else 1) +
          (2 - (c.replies s).digestRetries) := by
      rw [← hstarted]
      rfl
    refine hopened.issue ⟨fun _ _ => rfl, fun s => ?_⟩ rfl (fun _ => id) rfl ?_ ?_
    · rw [hquota]
      show _ ≤ (if s ∈ c.started then 0 else 1) + _
      by_cases hs : s ∈ c.started
      · rw [if_pos hs, if_pos (List.mem_append_left _ hs)]
      · rw [if_neg hs]
        split <;> omega
    · show (c.out ++ [Effect.started r]).filterMap Effect.entry = _
      rw [List.filterMap_append]
      exact List.append_nil _
    · rw [hquota, if_pos (List.mem_append_right _ (List.mem_singleton.mpr rfl))]
      show _ < (if r ∈ c.started then 0 else 1) + (2 - (c.replies r).digestRetries)
      rw [if_neg hnew]
      omega

/-! ## Finishing -/

theorem drainQueue_proceeds (env : Env) {queue : List Nat} (hs : c.Poised none)
    (hq : c.Unstarted queue) (hu : c.Unwired none) (hn : c.Numbered) :
    (c.drainQueue env queue).Sane none ∧
      Errands.Steps c.errands (c.drainQueue env queue).errands := by
  induction queue with
  | nil =>
      have hline : (c.drainQueue env []).InLine :=
        ⟨⟨.nil, fun q hnil => absurd hnil List.not_mem_nil, hq.made⟩,
          fun _ => rfl⟩
      exact ⟨⟨hs.of_eq rfl rfl rfl, hline, hu, hn⟩, .refl⟩
  | cons next rest ih =>
      have hnodup := List.nodup_cons.mp hq.nodup
      have hrest : c.Unstarted rest :=
        ⟨hnodup.2, fun q hm => hq.waiting q (List.mem_cons_of_mem _ hm), hq.made⟩
      rw [drainQueue]
      split
      · next halive =>
          obtain ⟨hr, hnew⟩ := hq.waiting next List.mem_cons_self
          let c₁ : Client :=
            { c with currentRequest := some next, pendingQueue := rest }
          have hline : c₁.InLine := by
            refine ⟨⟨hrest.nodup, hrest.waiting, hrest.made⟩, fun hn => ?_⟩
            have hcur : c₁.current = some next := Option.filter_some_pos halive
            rw [hcur] at hn
            cases hn
          exact startNow_proceeds (c := c₁) env hr hnew hnodup.1
            ⟨hs.of_eq rfl rfl rfl, hline, hu, hn⟩
      · exact ih hrest

theorem not_closed {r : Nat} (hf : (c.replies r).finished = false) :
    r ∉ c.errands.closed := by
  show ¬(c.replies r).finished = true
  rw [hf]
  exact Bool.noConfusion

/-- `finished` is emitted for a reply that has not finished. -/
theorem emitFinished_proceeds (env : Env) {r : Nat} (state : ReplyState)
    (errorString : String) (halive : (c.replies r).alive = true)
    (hf : (c.replies r).finished = false) :
    Proceeds (some r) c (c.emitFinished env r state errorString) := by
  intro ⟨hpoised, hline, hunwired, hnumbered⟩
  let f (rd : Reply) : Reply := { rd with state, errorString, finished := true }
  let c₁ := (c.withReply r f).emit (.finished r)
  have hfin s : (c₁.replies s).finished = true ↔
      s = r ∨ (c.replies s).finished = true := by
    show ((c.withReply r f).replies s).finished = true ↔ _
    rw [withReply_replies]
    by_cases hs : s = r
    · rw [if_pos hs]
      exact iff_of_true rfl (.inl hs)
    · rw [if_neg hs]
      exact ⟨.inr, fun h => h.resolve_left hs⟩
  have hstarted : c₁.started = c.started := by
    simp [c₁, started, emit, withReply, Effect.start]
  have hpoised₁ : c₁.Poised none := by
    refine ⟨fun s _ hs => ?_, fun s a ha hs => ?_, fun s a ha => ?_,
      hpoised.opened, hpoised.blank⟩
    · have hne : s ≠ r := fun heq => by
        rw [(hfin s).mpr (.inl heq)] at hs
        cases hs
      have hsame : c₁.replies s = c.replies s := by
        show (c.withReply r f).replies s = _
        rw [withReply_replies, if_neg hne]
      rw [hsame] at hs ⊢
      exact hpoised.rests s (fun heq => hne (Option.some.inj heq).symm) hs
    · have hsame : (c₁.replies s).socket = (c.replies s).socket :=
        withReply_field Reply.socket r s f rfl
      rw [hsame] at ha
      refine hpoised.clear s a ha ?_
      by_contra hs'
      rw [(hfin s).mpr (.inr (eq_true_of_ne_false hs'))] at hs
      cases hs
    · have hsame : (c₁.replies s).socket = (c.replies s).socket :=
        withReply_field Reply.socket r s f rfl
      rw [hsame] at ha
      exact hpoised.owned s a ha
  have hline₁ : c₁.InLine := by
    refine hline.of_eq rfl (fun hn => ?_) rfl hstarted
    exact (current_withReply (f := f) rfl) ▸ hn
  have hnumbered₁ : c₁.Numbered := by
    refine fun s => ⟨fun hs => ?_, fun hs => ?_⟩
    · exact (hnumbered s).1
        ((withReply_field Reply.alive r s f rfl).symm.trans hs)
    · have hne : s ≠ r := by
        rintro rfl
        exact absurd ((hnumbered s).1 halive) (Nat.not_lt.mpr hs)
      have hsame : c₁.replies s = c.replies s := by
        show (c.withReply r f).replies s = _
        rw [withReply_replies, if_neg hne]
      rw [hsame]
      exact (hnumbered s).2 hs
  have hclose : Errands.Step c.errands c₁.errands := by
    refine .close r (not_closed hf)
      ⟨fun _ _ => rfl, fun s => ?_⟩ rfl (fun _ => id) (Set.ext fun s => hfin s) ?_
    · have hretries : (c₁.replies s).digestRetries =
          (c.replies s).digestRetries :=
        withReply_field Reply.digestRetries r s f rfl
      show (if s ∈ c₁.started then 0 else 1) + (2 - (c₁.replies s).digestRetries)
        ≤ _
      rw [hstarted, hretries]
      exact Nat.le_refl _
    · show (c.out ++ [Effect.finished r]).filterMap Effect.entry = _
      rw [List.filterMap_append]
      rfl
  unfold emitFinished
  simp only []
  split
  · let c₂ : Client := { c₁ with currentRequest := none }
    have hqueue : c₂.Unstarted c₁.pendingQueue :=
      ⟨hline₁.queue.nodup, hline₁.queue.waiting, hline₁.queue.made⟩
    obtain ⟨hsane, hsteps⟩ := drainQueue_proceeds (c := c₂) env
      (hpoised₁.of_eq rfl rfl rfl) hqueue hunwired hnumbered₁
    exact ⟨hsane, .head hclose hsteps⟩
  · exact ⟨⟨hpoised₁, hline₁, hunwired, hnumbered₁⟩, .single hclose⟩

theorem Proceeds.of_but {but : Option Nat} (h : Proceeds but c c') :
    Proceeds none c c' :=
  fun hs => h ⟨hs.poised.weaken but, hs.inLine, hs.unwired, hs.numbered⟩

theorem finishReply_proceeds (env : Env) {r : Nat} (err : String)
    (halive : (c.replies r).alive = true) :
    Proceeds (some r) c (c.finishReply env r err) := by
  have hfin : ((c.stopTimer r).replies r).finished = (c.replies r).finished :=
    (stopTimer_steady r).finished r
  have halive' : ((c.stopTimer r).replies r).alive = true :=
    ((stopTimer_steady r).alive r).trans halive
  unfold finishReply
  split
  · next hf =>
      -- what is left of a finished reply does not matter
      intro ⟨hpoised, hline, hunwired, hnumbered⟩
      refine ⟨⟨⟨fun s _ hs => ?_, hpoised.clear, hpoised.owned, hpoised.opened,
        hpoised.blank⟩, hline, hunwired, hnumbered⟩, .refl⟩
      refine hpoised.rests s (fun heq => ?_) hs
      rw [Option.some.inj heq, hs] at hf
      cases hf
  · next hf =>
      have hf' : ((c.stopTimer r).replies r).finished = false :=
        hfin.trans (eq_false_of_ne_true hf)
      split
      · exact (stopTimer_steady r).trans_proceeds
          (emitFinished_proceeds env .failed err halive' hf')
      · exact (stopTimer_steady r).trans_proceeds
          (emitFinished_proceeds env .done _ halive' hf')

theorem abort_proceeds (env : Env) {r : Nat}
    (halive : (c.replies r).alive = true) :
    Proceeds none c (c.abort env r) := by
  unfold abort
  split
  · exact .refl c
  · next hf =>
      have hclose := abortSocket_steady (c := c) r
      refine hclose.trans_proceeds
        (emitFinished_proceeds env .failed _ ?_ ?_).of_but
      · rw [hclose.alive, halive]
      · rw [hclose.finished]
        exact eq_false_of_ne_true hf

theorem timeout_proceeds (env : Env) {r : Nat}
    (halive : (c.replies r).alive = true) :
    Proceeds none c (c.timeout env r) := by
  have hstop := stopTimer_steady (c := c) r
  unfold timeout
  refine hstop.trans_proceeds ?_
  simp only []
  split
  · exact .refl _
  · next hf =>
      have hclose := abortSocket_steady (c := c.stopTimer r) r
      refine hclose.trans_proceeds
        (emitFinished_proceeds env .failed _ ?_ ?_).of_but
      · rw [hclose.alive, hstop.alive, halive]
      · rw [hclose.finished]
        exact eq_false_of_ne_true hf

theorem errorOccurred_proceeds (env : Env) {r : Nat} (errorString : String)
    (halive : (c.replies r).alive = true) :
    Proceeds none c (c.errorOccurred env r errorString) := by
  unfold errorOccurred
  split
  · exact .refl c
  · next hf =>
      split
      · exact .refl c
      · exact (emitFinished_proceeds env .failed errorString halive
          (eq_false_of_ne_true hf)).of_but

/-! ## Reading -/

theorem cacheChallenge_steady (params : Headers) :
    Steady c (c.cacheChallenge params) :=
  steady_of_settings rfl rfl rfl rfl rfl rfl rfl

/-- The retry takes one from the quota of the reply. -/
theorem retry_proceeds (env : Env) {r : Nat}
    (halive : (c.replies r).alive = true)
    (hallowed : (c.replies r).digestRetries < 2) :
    Proceeds (some r) c ((c.withReply r fun rd =>
      { rd with digestRetries := rd.digestRetries + 1 }).retryWithDigest env r)
    := by
  intro ⟨hpoised, hline, hunwired, hnumbered⟩
  let f (rd : Reply) : Reply := { rd with digestRetries := rd.digestRetries + 1 }
  have hopened := retryWithDigest_opened (c := c.withReply r f) env r
  have hbut (s : Nat) (hs : s ≠ r) : some r ≠ some s :=
    fun heq => hs (Option.some.inj heq).symm
  have hready : (c.withReply r f).Poised (some r) :=
    hpoised.withReply_but hbut rfl fun _ => id
  have hline' : (c.withReply r f).InLine :=
    hline.of_eq rfl (fun hn => (current_withReply (f := f) rfl) ▸ hn) rfl rfl
  have hnumbered' : (c.withReply r f).Numbered := by
    refine fun s => ⟨fun hs => ?_, fun hs => ?_⟩
    · exact (hnumbered s).1
        ((withReply_field Reply.alive r s f rfl).symm.trans hs)
    · have hne : s ≠ r := by
        rintro rfl
        exact absurd ((hnumbered s).1 halive) (Nat.not_lt.mpr hs)
      rw [withReply_replies, if_neg hne]
      exact (hnumbered s).2 hs
  refine ⟨⟨retryWithDigest_poised env hready hbut, hopened.inLine hline',
    hopened.unwired hunwired, hopened.numbered hnumbered'⟩, .single ?_⟩
  have hretries (s : Nat) : (c.replies s).digestRetries ≤
      ((c.withReply r f).replies s).digestRetries := by
    rw [withReply_replies]
    split
    · next heq =>
        rw [heq]
        exact Nat.le_succ _
    · exact Nat.le_refl _
  have hclosed (s : Nat) : ((c.withReply r f).replies s).finished =
      (c.replies s).finished := withReply_field Reply.finished r s f rfl
  refine hopened.issue ⟨fun _ _ => rfl, fun s => ?_⟩ rfl (fun _ => id)
    (Set.ext fun s => ?_) rfl ?_
  · have := hretries s
    show _ + (2 - ((c.withReply r f).replies s).digestRetries) ≤
      (if s ∈ c.started then 0 else 1) + _
    exact Nat.add_le_add_left (Nat.sub_le_sub_left this 2) _
  · show ((c.withReply r f).replies s).finished = true ↔ _
    rw [hclosed]
    exact Iff.rfl
  · have hmore : ((c.withReply r f).replies r).digestRetries =
        (c.replies r).digestRetries + 1 := by
      rw [withReply_replies, if_pos rfl]
    show (if r ∈ c.started then 0 else 1) +
      (2 - ((c.withReply r f).replies r).digestRetries) <
        (if r ∈ c.started then 0 else 1) + (2 - (c.replies r).digestRetries)
    omega

theorem unauthorized_proceeds (env : Env) {r : Nat} (wwwAuth : Bytes)
    (halive : (c.replies r).alive = true) :
    Proceeds (some r) c (c.unauthorized env r wwwAuth) := by
  let params := parseDigestChallenge wwwAuth
  unfold unauthorized
  simp only []
  refine (cacheChallenge_steady params).trans_proceeds ?_
  split
  · exact finishReply_proceeds env _ halive
  · -- two retries where the nonce is stale, else one
    split <;> split
    · exact finishReply_proceeds env _ halive
    · next hleft => exact retry_proceeds env halive (Nat.not_le.mp hleft)
    · exact finishReply_proceeds env _ halive
    · next hleft =>
        exact retry_proceeds env halive (Nat.lt_succ_of_lt (Nat.not_le.mp hleft))

/-- Only what the sockets hold has changed. -/
theorem Poised.of_unread {but : Option Nat} (h : c.Poised but)
    (hreplies : c'.replies = c.replies)
    (hissued : c'.nextAttempt = c.nextAttempt)
    (howner : ∀ a, (c'.attempts a).reply = (c.attempts a).reply)
    (hwired : ∀ a, (c'.attempts a).wired = (c.attempts a).wired)
    (hclear : ∀ r a, (c.replies r).socket = some a →
      (c.replies r).finished = false → (c'.attempts a).unread = [])
    (hblank : ∀ a, (c.attempts a).wired = false → (c'.attempts a).unread = []) :
    c'.Poised but := by
  refine ⟨hreplies ▸ h.rests, hreplies ▸ hclear, fun r a ha => ?_, fun a ha => ?_,
    fun a ha => ?_⟩
  · rw [howner, hwired]
    exact h.owned r a (hreplies ▸ ha)
  · rw [hissued]
    exact h.opened a (hwired a ▸ ha)
  · exact hblank a (hwired a ▸ ha)

/-- What a socket of a reply has received, and the reply leaves there. -/
theorem Poised.received {but : Option Nat} {a : Nat} (h : c.Poised but)
    (chunk : Bytes) (hw : (c.attempts a).wired = true)
    (hleft : (c.replies (c.attempts a).reply).finished = true ∨
      (c.replies (c.attempts a).reply).socket ≠ some a) :
    (c.withAttempt a fun t => { t with unread := t.unread ++ chunk }).Poised
      but := by
  refine h.of_unread rfl rfl (fun b => withAttempt_field _ a b _ rfl)
    (fun b => withAttempt_field _ a b _ rfl) (fun r b hb hf => ?_) fun b hb => ?_
  · have hne : b ≠ a := by
      rintro rfl
      obtain ⟨rfl, -⟩ := h.owned r b hb
      rcases hleft with hf' | hs
      · rw [hf] at hf'
        cases hf'
      · exact hs hb
    rw [withAttempt_attempts, if_neg hne]
    exact h.clear r b hb hf
  · have hne : b ≠ a := by
      rintro rfl
      rw [hw] at hb
      cases hb
    rw [withAttempt_attempts, if_neg hne]
    exact h.blank b hb

theorem receive_level (a : Nat) (chunk : Bytes) :
    Level c (c.withAttempt a fun t => { t with unread := t.unread ++ chunk }) :=
  withAttempt_level a _ rfl id id rfl

/-- What `readMore` does about a pass. -/
def answerPass (env : Env) (r : Nat) (p : Reply × Verdict) (c : Client) :
    Client :=
  let c := c.withReply r fun _ => p.1
  match p.2 with
  | .needMore => c
  | .finish err => c.finishReply env r err
  | .unauthorized wwwAuth => c.unauthorized env r wwwAuth

theorem readMore_unsocketed (env : Env) {r : Nat}
    (h : (c.replies r).socket = none) : c.readMore env r = c := by
  unfold readMore
  simp only []
  rw [h]

theorem readMore_finished (env : Env) {r : Nat}
    (hf : (c.replies r).finished = true) : c.readMore env r = c := by
  unfold readMore
  simp only []
  split
  · rfl
  · rw [if_pos hf]

theorem readMore_eq (env : Env) {r b : Nat} (hb : (c.replies r).socket = some b)
    (hf : (c.replies r).finished = false) :
    c.readMore env r =
      (c.withAttempt b fun t => { t with unread := [] }).answerPass env r
        ((c.replies r).readPass (c.attempts b).connected
          (c.attempts b).unread) := by
  unfold readMore
  simp only []
  rw [hb]
  simp only [hf]
  rfl

/-- The pass that a reply makes over its own socket. -/
theorem answerPass_proceeds (env : Env) {r : Nat} (connected : Bool)
    (unread : Bytes) (halive : (c.replies r).alive = true)
    (hf : (c.replies r).finished = false) :
    Proceeds none c
      (c.answerPass env r ((c.replies r).readPass connected unread)) := by
  intro ⟨hpoised, hline, hunwired, hnumbered⟩
  let p := (c.replies r).readPass connected unread
  let c' := c.withReply r fun _ => p.1
  have hsame : p.1.unread = (c.replies r).unread :=
    Reply.readPass_unread _ _ _
  have hkept {β : Type} (g : Reply → β) (hg : ∀ rd : Reply, g rd.unread = g rd) :
      g p.1 = g (c.replies r) := by
    rw [← hg p.1, hsame, hg]
  have hlevel : Level c c' :=
    withReply_level r _ (hkept Reply.finished fun _ => rfl)
      (hkept Reply.digestRetries fun _ => rfl) (hkept Reply.alive fun _ => rfl)
  have hbut : c'.Poised (some r) := by
    refine hpoised.withReply_but (fun s _ heq => by cases heq)
      (hkept Reply.finished fun _ => rfl) fun a ha => ?_
    exact (hkept Reply.socket fun _ => rfl) ▸ ha
  have hsane : c'.Sane (some r) :=
    ⟨hbut, hlevel.inLine hline, hlevel.unwired hunwired,
      hlevel.numbered hnumbered⟩
  have halive' : (c'.replies r).alive = true := (hlevel.alive r).trans halive
  have hthen {d : Client} (h : Proceeds (some r) c' d) :
      d.Sane none ∧ Errands.Steps c.errands d.errands :=
    ⟨(h hsane).1, .head hlevel.step (h hsane).2⟩
  show (c.answerPass env r p).Sane none ∧
    Errands.Steps c.errands (c.answerPass env r p).errands
  unfold answerPass
  cases hverdict : p.2 with
  | needMore =>
      obtain ⟨-, hcapped⟩ := Reply.readPass_capped connected unread
        (hpoised.rests r (fun h => by cases h) hf).2
      have hrest : p.1.AtRest :=
        Reply.readPass_atRest (Prod.ext rfl hverdict : p = (p.1, .needMore))
      refine ⟨⟨⟨fun s _ hs => ?_, hbut.clear, hbut.owned, hbut.opened,
        hbut.blank⟩, hsane.inLine, hsane.unwired, hsane.numbered⟩,
        .single hlevel.step⟩
      by_cases heq : s = r
      · subst heq
        rw [withReply_replies, if_pos rfl]
        exact ⟨hrest, hcapped hverdict⟩
      · exact hbut.rests s (fun h => heq (Option.some.inj h).symm) hs
  | finish err => exact hthen (finishReply_proceeds env err halive')
  | unauthorized wwwAuth =>
      exact hthen (unauthorized_proceeds env wwwAuth halive')

theorem readyRead_proceeds (env : Env) {a : Nat} (chunk : Bytes)
    (hw : (c.attempts a).wired = true)
    (halive : (c.replies (c.attempts a).reply).alive = true) :
    Proceeds none c ((c.withAttempt a fun t =>
      { t with unread := t.unread ++ chunk }).readMore env
        (c.attempts a).reply) := by
  intro hs
  let r := (c.attempts a).reply
  let c₁ := c.withAttempt a fun t => { t with unread := t.unread ++ chunk }
  have hlevel : Level c c₁ := receive_level a chunk
  have hleave (hleft : (c.replies r).finished = true ∨
      (c.replies r).socket ≠ some a) : c₁.Sane none :=
    ⟨hs.poised.received chunk hw hleft, hlevel.inLine hs.inLine,
      hlevel.unwired hs.unwired, hlevel.numbered hs.numbered⟩
  show (c₁.readMore env r).Sane none ∧
    Errands.Steps c.errands (c₁.readMore env r).errands
  cases hsocket : (c.replies r).socket with
  | none =>
      rw [readMore_unsocketed (c := c₁) env hsocket]
      refine ⟨hleave (.inr fun h => ?_), .single hlevel.step⟩
      have hb : (c.replies r).socket = some a := h
      rw [hsocket] at hb
      cases hb
  | some b =>
      cases hf : (c.replies r).finished with
      | true =>
          rw [readMore_finished (c := c₁) env hf]
          exact ⟨hleave (.inl hf), .single hlevel.step⟩
      | false =>
          rw [readMore_eq (c := c₁) env hsocket hf]
          let c₂ := c₁.withAttempt b fun t => { t with unread := [] }
          have hlevel₂ : Level c c₂ :=
            hlevel.trans (withAttempt_level b _ rfl id id rfl)
          have hold {d : Nat} (hda : d ≠ a) (hdb : d ≠ b) :
              (c₂.attempts d).unread = (c.attempts d).unread := by
            rw [withAttempt_attempts, if_neg hdb, withAttempt_attempts,
              if_neg hda]
          have hnone : (c₂.attempts b).unread = [] := by
            rw [withAttempt_attempts, if_pos rfl]
          have hpoised : c₂.Poised none := by
            refine hs.poised.of_unread rfl rfl hlevel₂.owner (fun d => ?_)
              (fun s d hd hf => ?_) fun d hd => ?_
            · exact (withAttempt_field Attempt.wired b d _ rfl).trans
                (withAttempt_field Attempt.wired a d _ rfl)
            · by_cases hdb : d = b
              · exact hdb ▸ hnone
              · refine (hold (fun hda => ?_) hdb).trans (hs.poised.clear s d hd hf)
                -- the reply of `a` has `b` for its socket
                subst hda
                obtain ⟨rfl, -⟩ := hs.poised.owned s d hd
                exact hdb (Option.some.inj (hd.symm.trans hsocket))
            · by_cases hdb : d = b
              · exact hdb ▸ hnone
              · refine (hold (fun hda => ?_) hdb).trans (hs.poised.blank d hd)
                rw [hda, hw] at hd
                cases hd
          have hsane : c₂.Sane none :=
            ⟨hpoised, hlevel₂.inLine hs.inLine, hlevel₂.unwired hs.unwired,
              hlevel₂.numbered hs.numbered⟩
          have hpass := answerPass_proceeds (c := c₂) (r := r) env
            (c₁.attempts b).connected (c₁.attempts b).unread halive hf hsane
          exact ⟨hpass.1, .head hlevel₂.step hpass.2⟩

/-! ## Writing -/

/-- The socket of attempt `a` comes up. -/
structure Coming (a : Nat) (c : Client) : Prop where
  poised : c.Poised none
  inLine : c.InLine
  unwired : c.Unwired (some a)
  numbered : c.Numbered
  stage : (c.attempts a).stage ≠ .settled

theorem Sane.coming {a : Nat} (h : c.Sane none)
    (hstage : (c.attempts a).stage ≠ .settled) : c.Coming a :=
  ⟨h.poised, h.inLine, fun b _ => h.unwired b (fun h => by cases h), h.numbered,
    hstage⟩

theorem Coming.of_steady {a : Nat} {f : Attempt → Attempt} (h : c.Coming a)
    (hreply : (f (c.attempts a)).reply = (c.attempts a).reply)
    (hwired : (f (c.attempts a)).wired = (c.attempts a).wired)
    (hunread : (f (c.attempts a)).unread = (c.attempts a).unread)
    (hopening : (f (c.attempts a)).stage ≠ .opening) :
    (c.withAttempt a f).Sane none := by
  have hwire b := withAttempt_field Attempt.wired a b f hwired
  have hread b := withAttempt_field Attempt.unread a b f hunread
  refine ⟨h.poised.of_unread rfl rfl
    (fun b => withAttempt_field Attempt.reply a b f hreply) hwire
    (fun r b hb hf => (hread b).trans (h.poised.clear r b hb hf))
    fun b hb => (hread b).trans (h.poised.blank b hb),
    h.inLine.of_eq rfl id rfl rfl, fun b hb hs => ?_, h.numbered⟩
  have hne : b ≠ a := by
    rintro rfl
    rw [withAttempt_attempts, if_pos rfl] at hs
    exact hopening hs
  rw [hwire]
  rw [withAttempt_attempts, if_neg hne] at hs
  exact h.unwired b (fun heq => hne (Option.some.inj heq).symm) hs

theorem Coming.step {a : Nat} {f : Attempt → Attempt} (h : c.Coming a)
    (hreply : (f (c.attempts a)).reply = (c.attempts a).reply) :
    Errands.Step c.errands (c.withAttempt a f).errands := by
  refine .lapse ⟨fun b _ => withAttempt_field Attempt.reply a b f hreply,
    fun _ => Nat.le_refl _⟩ rfl (fun b hb => ?_) rfl rfl
  exact withAttempt_imp (p := fun t => t.stage ≠ .settled)
    (fun _ => h.stage) b hb

/-- The request of an attempt is written once, for a reply that waits. -/
theorem writeRequestBytes_proceeds (socket : Nat) {a : Nat} (h : c.Coming a)
    (hf : (c.replies (c.attempts a).reply).finished = false) :
    (c.writeRequestBytes socket a).Sane none ∧
      Errands.Steps c.errands (c.writeRequestBytes socket a).errands := by
  let settle (t : Attempt) : Attempt := { t with stage := .settled }
  unfold writeRequestBytes
  simp only []
  generalize hw : Effect.wrote socket a (c.attempts a).auth _ = w
  let c₁ := (c.emit w).withAttempt a settle
  have hstarted : (c.emit w).started = c.started := by
    simp [started, emit, ← hw, Effect.start]
  have hcoming : (c.emit w).Coming a :=
    ⟨h.poised.of_eq rfl rfl rfl, h.inLine.of_eq rfl id rfl hstarted, h.unwired,
      h.numbered, h.stage⟩
  have hsane : c₁.Sane none :=
    hcoming.of_steady rfl rfl rfl fun hs => by cases hs
  have hnext : Steady c₁ (c₁.withReply (c.attempts a).reply fun rd =>
      { rd with state := .readingHeaders }) :=
    withReply_steady _ _ rfl rfl rfl (fun _ => id)
      (fun _ => .of_state (fun h => by cases h) (fun h => by cases h))
      fun hc => ⟨hc.body, fun h => by cases h⟩
  refine ⟨hnext.sane hsane, .head ?_ (.single hnext.step)⟩
  have howner (b : Nat) := withAttempt_field (c := c) Attempt.reply a b settle rfl
  refine .spend a h.stage (not_closed hf)
    ⟨fun b _ => howner b, fun r => ?_⟩ rfl (fun b hb => ?_) rfl ?_
  · show (if r ∈ (c.emit w).started then 0 else 1) + _ ≤ _
    rw [hstarted]
    exact Nat.le_refl _
  · have hb' : (c₁.attempts b).stage ≠ .settled := hb
    rw [withAttempt_attempts] at hb'
    split at hb'
    · exact absurd rfl hb'
    · next hne => exact ⟨hb', hne⟩
  · show (c.out ++ [w]).filterMap Effect.entry = _
    rw [List.filterMap_append, ← hw]
    rfl

theorem doWrite_proceeds {a : Nat} (h : c.Coming a)
    (hf : (c.replies (c.attempts a).reply).finished = false) :
    (c.doWrite a).Sane none ∧ Errands.Steps c.errands (c.doWrite a).errands := by
  unfold doWrite
  split
  · exact ⟨h.of_steady rfl rfl rfl (fun hs => by cases hs),
      .single (h.step rfl)⟩
  · exact writeRequestBytes_proceeds _ h hf

theorem socketReady_proceeds {a : Nat} (tls : Bool) (h : c.Coming a)
    (hf : (c.replies (c.attempts a).reply).finished = false) :
    (c.socketReady a tls).Sane none ∧
      Errands.Steps c.errands (c.socketReady a tls).errands := by
  unfold socketReady
  simp only []
  split
  · let f (t : Attempt) : Attempt :=
      { t with stage := .handshaking, peerVerifyName := c.endpoint.host }
    have hsane : (c.withAttempt a f).Sane none :=
      h.of_steady rfl rfl rfl fun hs => by cases hs
    have hnext : Steady (c.withAttempt a f)
        ((c.withAttempt a f).withReply (c.attempts a).reply fun rd =>
          { rd with state := .tlsHandshaking }) :=
      withReply_steady _ _ rfl rfl rfl (fun _ => id)
        (fun _ => .of_state (fun h => by cases h) (fun h => by cases h))
        fun hc => ⟨hc.body, fun h => by cases h⟩
    exact ⟨hnext.sane hsane, .head (h.step rfl) (.single hnext.step)⟩
  · split
    · exact doWrite_proceeds h hf
    · exact writeRequestBytes_proceeds _ h hf

theorem stage_of_reached {a : Nat} {stage : Stage} (hs : stage ≠ .settled)
    (h : c.reached a stage = true) : (c.attempts a).stage ≠ .settled := by
  rw [reached, Bool.and_eq_true, beq_iff_eq] at h
  rw [h.1]
  exact hs

theorem connected_proceeds {a : Nat}
    (hstage : (c.attempts a).stage ≠ .settled) :
    Proceeds none c (c.connected a) := by
  have hup : Steady c (c.withAttempt a fun t => { t with connected := true }) :=
    withAttempt_steady a _ rfl id id rfl (.inl rfl)
  unfold Client.connected
  simp only []
  refine hup.trans_proceeds ?_
  split
  · exact .refl _
  · next hf =>
      intro hs
      refine socketReady_proceeds _ (hs.coming ?_) ?_
      · rw [withAttempt_attempts, if_pos rfl]
        exact hstage
      · rw [withAttempt_attempts, if_pos rfl]
        exact eq_false_of_ne_true hf

theorem encrypted_proceeds {a : Nat}
    (hstage : (c.attempts a).stage ≠ .settled) :
    Proceeds none c (c.encrypted a) := by
  unfold encrypted
  simp only []
  split
  · exact fun hs => ⟨(hs.coming hstage).of_steady rfl rfl rfl
      (fun h => by cases h), .single ((hs.coming hstage).step rfl)⟩
  · split
    · exact .refl c
    · next hf =>
        exact fun hs => doWrite_proceeds (hs.coming hstage)
          (eq_false_of_ne_true hf)

theorem postedWrite_proceeds {a : Nat}
    (hstage : (c.attempts a).stage ≠ .settled) :
    Proceeds none c (c.postedWrite a) := by
  unfold postedWrite
  split
  · exact .refl c
  · next hf =>
      exact fun hs => doWrite_proceeds (hs.coming hstage)
        (eq_false_of_ne_true hf)

/-- The handlers go on the socket the factory brings. -/
theorem wireSocketHandlers_coming {a : Nat} (hs : c.Sane none)
    (hstage : (c.attempts a).stage = .opening) :
    let c' := c.wireSocketHandlers (c.attempts a).reply a
    c'.Coming a ∧ Errands.Step c.errands c'.errands := by
  intro c'
  let r := (c.attempts a).reply
  let wire (t : Attempt) : Attempt :=
    { t with wired := true, checksPeer := c.endpoint.https }
  let socket (rd : Reply) : Reply := { rd with socket := some a }
  obtain ⟨hwired, hlt⟩ := hs.unwired a (fun h => by cases h) hstage
  have hkept (b : Nat) : (c'.attempts b).stage = (c.attempts b).stage :=
    withAttempt_field Attempt.stage a b wire rfl
  have hline : c'.InLine := by
    refine hs.inLine.of_eq rfl (fun hn => ?_) rfl rfl
    have hcurrent : (c.withReply r socket).current = c.current :=
      current_withReply rfl
    exact hcurrent ▸ hn
  have hnumbered : c'.Numbered := by
    intro s
    rw [show (c'.replies s).alive = _ from
        withReply_field Reply.alive r s socket rfl,
      show (c'.replies s).finished = _ from
        withReply_field Reply.finished r s socket rfl,
      show (c'.replies s).digestRetries = _ from
        withReply_field Reply.digestRetries r s socket rfl]
    exact hs.numbered s
  refine ⟨⟨hs.poised.wireSocketHandlers rfl hlt hwired, hline, ?_, hnumbered,
    ?_⟩, ?_⟩
  · intro b hb hopening
    have hne : b ≠ a := fun heq => hb (congrArg some heq.symm)
    have hsame : c'.attempts b = c.attempts b := by
      show ((c.withReply r socket).withAttempt a wire).attempts b = _
      rw [withAttempt_attempts, if_neg hne]
      rfl
    rw [hsame] at hopening ⊢
    exact hs.unwired b (fun h => by cases h) hopening
  · rw [hkept, hstage]
    decide
  · have hretries (s : Nat) : (c'.replies s).digestRetries =
        (c.replies s).digestRetries :=
      withReply_field Reply.digestRetries r s socket rfl
    have hfinished (s : Nat) : (c'.replies s).finished =
        (c.replies s).finished :=
      withReply_field Reply.finished r s socket rfl
    refine .lapse ⟨fun b _ => withAttempt_field Attempt.reply a b wire rfl,
      fun s => ?_⟩ rfl (fun b hb => ?_) (Set.ext fun s => ?_) rfl
    · show _ + (2 - (c'.replies s).digestRetries) ≤ _
      rw [hretries]
      exact Nat.le_refl _
    · have hb' : (c'.attempts b).stage ≠ .settled := hb
      rw [hkept] at hb'
      exact hb'
    · show (c'.replies s).finished = true ↔ _
      rw [hfinished]
      exact Iff.rfl

theorem factoryDone_proceeds (env : Env) {a : Nat} (fd : Descriptor)
    (hstage : (c.attempts a).stage = .opening) :
    Proceeds none c (c.factoryDone env a fd) := by
  let r := (c.attempts a).reply
  unfold factoryDone
  simp only []
  split
  · exact .refl c
  · next hlive =>
      rw [Bool.not_eq_true', Bool.not_eq_false, Reply.live_iff] at hlive
      obtain ⟨halive, hf⟩ := hlive
      split
      · exact (finishReply_proceeds env _ halive).of_but
      · exact (finishReply_proceeds env _ halive).of_but
      · intro hs
        obtain ⟨hcoming, hstep⟩ := wireSocketHandlers_coming hs hstage
        let c₁ := c.wireSocketHandlers r a
        let up (t : Attempt) : Attempt := { t with connected := true }
        have hup : Steady c₁ (c₁.withAttempt a up) :=
          withAttempt_steady a up rfl id id rfl (.inl rfl)
        have hcoming' : (c₁.withAttempt a up).Coming a := by
          refine ⟨hup.poised none hcoming.poised, hup.inLine hcoming.inLine,
            fun b hb hopening => ?_, hcoming.numbered, ?_⟩
          · rw [withAttempt_field Attempt.wired a b up rfl]
            rw [withAttempt_field Attempt.stage a b up rfl] at hopening
            exact hcoming.unwired b hb hopening
          · rw [withAttempt_field Attempt.stage a a up rfl]
            exact hcoming.stage
        have howner : ((c₁.withAttempt a up).attempts a).reply = r :=
          (withAttempt_field Attempt.reply a a up rfl).trans
            (withAttempt_field Attempt.reply a a _ rfl)
        have hopen : ((c₁.withAttempt a up).replies r).finished = false :=
          (wireSocketHandlers_field Reply.finished r a r fun _ => rfl).trans hf
        have hready := socketReady_proceeds
          (if (c.attempts a).auth.isSome then (c.attempts a).tls
            else c.endpoint.https) hcoming' (howner ▸ hopen)
        exact ⟨hready.1, .head hstep (.head hup.step hready.2)⟩

/-! ## The other events -/

theorem sslErrors_steady (env : Env) (a : Nat) (chain : List Redir.Certificate) :
    Steady c (c.sslErrors env a chain) := by
  have hfail : Steady c (c.withAttempt a fun t => { t with refused := true }) :=
    withAttempt_steady a _ rfl id id rfl (.inl rfl)
  unfold sslErrors
  simp only []
  split
  · split
    · exact emit_steady rfl rfl
    · split
      · exact hfail
      · refine hfail.trans (.trans ?_ (emit_steady rfl rfl))
        exact steady_of_settings rfl rfl rfl rfl rfl rfl rfl
  · exact hfail

/-- A reply in flight is destroyed only while the queue is empty. -/
def SparesQueue (c : Client) : Event → Prop
  | .destroy r => c.currentRequest = some r → c.pendingQueue = []
  | _ => True

instance (c : Client) : ∀ e, Decidable (c.SparesQueue e)
  | .destroy _ => inferInstanceAs (Decidable (_ = _ → _ = _))
  | .setEndpoint _ | .setCredentials _ _ | .setTrustedFingerprints _
  | .setTransferTimeoutMs _ | .setSocketFactory _ | .setSerializeRequests _
  | .trustPendingPeerCert | .sendEnvelope _ _ | .abort _ | .timeout _
  | .factoryDone _ _ | .connected _ | .encrypted _ | .postedWrite _
  | .sslErrors _ _ | .readyRead _ _ | .errorOccurred _ _ | .disconnected _ =>
      .isTrue trivial

/-- A reply that is destroyed takes its turn with it. -/
theorem destroy_proceeds {r : Nat}
    (hr : c.currentRequest = some r → c.pendingQueue = []) :
    Proceeds none c (c.destroy r) := by
  let f (rd : Reply) : Reply := { rd with alive := false }
  show Proceeds none c ((c.abortSocket r).withReply r f)
  refine (abortSocket_steady r).trans_proceeds ?_
  have hsame : (c.abortSocket r).pendingQueue = c.pendingQueue ∧
      (c.abortSocket r).currentRequest = c.currentRequest := by
    unfold abortSocket
    split <;> exact ⟨rfl, rfl⟩
  rw [← hsame.1, ← hsame.2] at hr
  generalize c.abortSocket r = c₁ at hr ⊢
  intro ⟨hpoised, hline, hunwired, hnumbered⟩
  have hretries s := withReply_field (c := c₁) Reply.digestRetries r s f rfl
  have hfinished s := withReply_field (c := c₁) Reply.finished r s f rfl
  have halive s : ((c₁.withReply r f).replies s).alive = true →
      (c₁.replies s).alive = true :=
    withReply_imp (p := fun rd => rd.alive = true) (fun h => by cases h) s
  refine ⟨⟨?_, ⟨⟨hline.queue.nodup, hline.queue.waiting, hline.queue.made⟩,
    fun hn => ?_⟩, hunwired, fun s => ?_⟩, .single ?_⟩
  · exact hpoised.withReply r f rfl (fun _ => id)
      (fun h => h) fun h => ⟨h.body, h.expected⟩
  · show c₁.pendingQueue = []
    by_cases hcur : c₁.currentRequest = some r
    · exact hr hcur
    · refine hline.idle ?_
      have hn' : Option.filter (fun s => ((c₁.withReply r f).replies s).alive)
        c₁.currentRequest = none := hn
      rw [Option.filter_eq_none_iff] at hn'
      rw [current, Option.filter_eq_none_iff]
      intro s hs
      have hne : s ≠ r := fun heq => hcur (heq ▸ hs)
      have := hn' s hs
      rw [withReply_replies, if_neg hne] at this
      exact this
  · rw [hfinished, hretries]
    exact ⟨fun hs => (hnumbered s).1 (halive s hs), (hnumbered s).2⟩
  · refine .lapse ⟨fun _ _ => rfl, fun s => ?_⟩ rfl (fun _ => id)
      (Set.ext fun s => ?_) rfl
    · show _ + (2 - ((c₁.withReply r f).replies s).digestRetries) ≤ _
      rw [hretries]
      exact Nat.le_refl _
    · show ((c₁.withReply r f).replies s).finished = true ↔ _
      rw [hfinished]
      exact Iff.rfl

/-- The reply that is made is at rest, and has had no attempts. -/
theorem newReply_proceeds (envelope : Bytes) (soapAction : Option Bytes) :
    Proceeds none c (c.newReply envelope soapAction) := by
  intro ⟨hpoised, hline, hunwired, hnumbered⟩
  let c' := c.newReply envelope soapAction
  have hold {s : Nat} (hs : s ≠ c.nextReply) : c'.replies s = c.replies s :=
    newReply_ne envelope soapAction hs
  obtain ⟨rd, hnew, hfresh⟩ : ∃ rd : Reply, c'.replies c.nextReply = rd ∧
      rd.alive = true ∧ rd.finished = false ∧ rd.digestRetries = 0 ∧
        rd.socket = none ∧ rd.state = .idle ∧ rd.body = [] :=
    ⟨_, Function.update_self .., rfl, rfl, rfl, rfl, rfl, rfl⟩
  obtain ⟨halive, hfin, hretries, hsocket, hstate, hbody⟩ := hfresh
  obtain ⟨hfin₀, hretries₀⟩ := (hnumbered c.nextReply).2 (Nat.le_refl _)
  have hfinished (s : Nat) : (c'.replies s).finished =
      (c.replies s).finished := by
    by_cases hs : s = c.nextReply
    · rw [hs, hnew, hfin, hfin₀]
    · rw [hold hs]
  have htries (s : Nat) : (c'.replies s).digestRetries =
      (c.replies s).digestRetries := by
    by_cases hs : s = c.nextReply
    · rw [hs, hnew, hretries, hretries₀]
    · rw [hold hs]
  have hsock {s a : Nat} (ha : (c'.replies s).socket = some a) :
      (c.replies s).socket = some a := by
    by_cases hs : s = c.nextReply
    · rw [hs, hnew, hsocket] at ha
      cases ha
    · rw [hold hs] at ha
      exact ha
  refine ⟨⟨⟨fun s hb hf => ?_, fun s a ha hf => ?_, fun s a ha => ?_,
    hpoised.opened, hpoised.blank⟩, ⟨⟨hline.queue.nodup, fun q hq => ?_,
    fun s hs => ?_⟩, fun hn => ?_⟩, hunwired, fun s => ?_⟩, .single ?_⟩
  · by_cases hs : s = c.nextReply
    · rw [hs, hnew]
      exact ⟨.of_state (by rw [hstate]; decide) (by rw [hstate]; decide),
        by rw [hbody]; exact Nat.zero_le _, fun h => by rw [hstate] at h; cases h⟩
    · rw [hfinished] at hf
      rw [show (c.newReply envelope soapAction).replies s = _ from hold hs]
      exact hpoised.rests s hb hf
  · rw [hfinished] at hf
    exact hpoised.clear s a (hsock ha) hf
  · exact hpoised.owned s a (hsock ha)
  · exact ⟨Nat.lt_succ_of_lt (hline.queue.waiting q hq).1,
      (hline.queue.waiting q hq).2⟩
  · exact Nat.lt_succ_of_lt (hline.queue.made s hs)
  · refine hline.idle ?_
    have hn' : Option.filter (fun s => (c'.replies s).alive)
      c.currentRequest = none := hn
    rw [Option.filter_eq_none_iff] at hn'
    rw [current, Option.filter_eq_none_iff]
    intro s hs hlive
    refine hn' s hs ?_
    rw [hold (Nat.ne_of_lt ((hnumbered s).1 hlive))]
    exact hlive
  · rw [show ((c.newReply envelope soapAction).replies s).finished = _ from
        hfinished s,
      show ((c.newReply envelope soapAction).replies s).digestRetries = _ from
        htries s]
    refine ⟨fun hs => ?_, fun hs => (hnumbered s).2 (Nat.le_of_succ_le hs)⟩
    by_cases heq : s = c.nextReply
    · exact heq ▸ Nat.lt_succ_self _
    · have hs' : (c'.replies s).alive = true := hs
      rw [hold heq] at hs'
      exact Nat.lt_succ_of_lt ((hnumbered s).1 hs')
  · refine .lapse ⟨fun _ _ => rfl, fun s => ?_⟩ rfl (fun _ => id)
      (Set.ext fun s => ?_) rfl
    · show _ + (2 - (c'.replies s).digestRetries) ≤ _
      rw [htries]
      exact Nat.le_refl _
    · show (c'.replies s).finished = true ↔ _
      rw [hfinished]
      exact Iff.rfl

theorem sendEnvelope_proceeds (env : Env) (envelope : Bytes)
    (soapAction : Option Bytes) :
    Proceeds none c (c.sendEnvelope env envelope soapAction) := by
  intro hs
  have hnew := newReply_proceeds envelope soapAction hs
  have hlt : c.nextReply < (c.newReply envelope soapAction).nextReply :=
    Nat.lt_succ_self _
  have hunstarted : c.nextReply ∉ c.started := fun h =>
    Nat.lt_irrefl _ (hs.inLine.queue.made _ h)
  have hunqueued : c.nextReply ∉ c.pendingQueue := fun h =>
    Nat.lt_irrefl _ (hs.inLine.queue.waiting _ h).1
  have halive : ((c.newReply envelope soapAction).replies c.nextReply).alive =
      true := by
    rw [show (c.newReply envelope soapAction).replies c.nextReply = _ from
      Function.update_self ..]
  unfold sendEnvelope
  simp only []
  generalize hc₁ : c.newReply envelope soapAction = c₁ at hnew hlt halive ⊢
  have hqueue : c₁.pendingQueue = c.pendingQueue := by
    rw [← hc₁]
    rfl
  have hstarted : c₁.started = c.started := by
    rw [← hc₁]
    rfl
  rw [← hstarted] at hunstarted
  rw [← hqueue] at hunqueued
  obtain ⟨hsane, hsteps⟩ := hnew
  have hthen {d d' : Client} (heq : d.errands = c₁.errands)
      (h : d'.Sane none ∧ Errands.Steps d.errands d'.errands) :
      d'.Sane none ∧ Errands.Steps c.errands d'.errands :=
    ⟨h.1, hsteps.trans (heq ▸ h.2)⟩
  split
  · exact hthen rfl (startNow_proceeds env hlt hunstarted hunqueued hsane)
  · split
    · next y hy =>
        refine ⟨⟨hsane.poised.of_eq rfl rfl rfl, ⟨⟨?_, fun q hq => ?_,
          hsane.inLine.queue.made⟩, fun hn => ?_⟩, hsane.unwired,
          hsane.numbered⟩, hsteps⟩
        · rw [← List.concat_eq_append]
          exact hsane.inLine.queue.nodup.concat hunqueued
        · rcases List.mem_append.mp hq with hq | hq
          · exact hsane.inLine.queue.waiting q hq
          · rw [List.mem_singleton.mp hq]
            exact ⟨hlt, hunstarted⟩
        · have hn' : c₁.current = none := hn
          rw [hy] at hn'
          cases hn'
    · next hy =>
        have hempty := hsane.inLine.idle hy
        rw [hempty, List.nil_append]
        let c₂ : Client :=
          { c₁ with currentRequest := some c.nextReply, pendingQueue := [] }
        have hline : c₂.InLine :=
          ⟨⟨.nil, fun q hq => absurd hq List.not_mem_nil,
            hsane.inLine.queue.made⟩, fun _ => rfl⟩
        exact hthen rfl (startNow_proceeds (c := c₂) env hlt hunstarted
          List.not_mem_nil ⟨hsane.poised.of_eq rfl rfl rfl, hline,
            hsane.unwired, hsane.numbered⟩)

/-- Every event is a run of the errands. -/
theorem handle_proceeds (env : Env) {e : Event} (he : c.SparesQueue e) :
    Proceeds none c (c.handle env e) := by
  cases e with
  | setEndpoint | setCredentials | setTrustedFingerprints
  | setTransferTimeoutMs | setSocketFactory | setSerializeRequests =>
      refine Steady.proceeds ?_
      exact steady_of_settings rfl rfl rfl rfl rfl rfl rfl
  | trustPendingPeerCert =>
      show Proceeds none c c.trustPendingPeerCert
      unfold trustPendingPeerCert
      simp only []
      split
      · exact .refl c
      · refine Steady.proceeds ?_
        exact steady_of_settings rfl rfl rfl rfl rfl rfl rfl
  | sendEnvelope envelope soapAction =>
      exact sendEnvelope_proceeds env envelope soapAction
  | abort r =>
      rw [Client.handle]
      split
      · next halive => exact abort_proceeds env halive
      · exact .refl c
  | destroy r =>
      rw [Client.handle]
      split
      · exact destroy_proceeds he
      · exact .refl c
  | timeout r =>
      rw [Client.handle]
      split
      · next hr => exact timeout_proceeds env hr.1
      · exact .refl c
  | factoryDone a fd =>
      rw [Client.handle]
      split
      · next hstage => exact factoryDone_proceeds env fd hstage
      · exact .refl c
  | connected a =>
      rw [Client.handle]
      split
      · next hr => exact connected_proceeds (stage_of_reached (by decide) hr)
      · exact .refl c
  | encrypted a =>
      rw [Client.handle]
      split
      · next hr => exact encrypted_proceeds (stage_of_reached (by decide) hr.1)
      · exact .refl c
  | postedWrite a =>
      rw [Client.handle]
      split
      · next hr => exact postedWrite_proceeds (stage_of_reached (by decide) hr)
      · exact .refl c
  | sslErrors a chain =>
      rw [Client.handle]
      split
      · exact (sslErrors_steady env a chain).proceeds
      · exact .refl c
  | readyRead a chunk =>
      rw [Client.handle]
      split
      · next hw =>
          obtain ⟨hwired, halive⟩ := wired_iff.mp hw
          exact readyRead_proceeds env chunk hwired halive
      · exact .refl c
  | errorOccurred a errorString =>
      rw [Client.handle]
      split
      · next hw =>
          exact errorOccurred_proceeds env errorString (wired_iff.mp hw).2
      · exact .refl c
  | disconnected a =>
      rw [Client.handle]
      split
      · exact (withAttempt_steady a _ rfl id id rfl (.inl rfl)).proceeds
      · exact .refl c

theorem sane_fresh : ({} : Client).Sane none where
  poised :=
    { rests := fun _ _ _ =>
        ⟨.of_state (fun h => by cases h) (fun h => by cases h),
          ⟨Nat.zero_le _, fun h => by cases h⟩⟩
      clear := fun _ _ h => by cases h
      owned := fun _ _ h => by cases h
      opened := fun _ h => by cases h
      blank := fun _ _ => rfl }
  inLine :=
    { queue :=
        { nodup := .nil
          waiting := fun _ h => by cases h
          made := fun _ h => by cases h }
      idle := fun _ => rfl }
  unwired _ _ h := by cases h
  numbered _ := ⟨(fun h => by cases h), fun _ => ⟨rfl, rfl⟩⟩

theorem sound_fresh : ({} : Client).errands.Sound 3 where
  placed _ h := absurd rfl h
  made _ h := by cases h
  unspent _ h := absurd rfl h
  nodup := .nil
  closed _ := ⟨(fun h => by cases h), (fun h => by cases h)⟩
  last := .nil
  granted _ := Nat.le_refl 3

theorem run_sane (env : Env) {es : List Event}
    (h : Guarded (handle env) (fun _ c e => c.SparesQueue e) {} es) :
    (run (handle env) {} es).errands.Sound 3 ∧
      ∀ p ∈ trail (handle env) {} es, p.1.Sane none := by
  have hkeeps (past : List (Client × Event)) (c : Client) (e : Event)
      (hc : c.Sane none ∧ c.errands.Sound 3 ∧ ∀ p ∈ past, p.1.Sane none)
      (he : c.SparesQueue e) :
      (c.handle env e).Sane none ∧ (c.handle env e).errands.Sound 3 ∧
        ∀ p ∈ past ++ [(c, e)], p.1.Sane none := by
    obtain ⟨hs, hsound, hpast⟩ := hc
    obtain ⟨hs', hsteps⟩ := handle_proceeds env he hs
    refine ⟨hs', hsteps.sound hsound, fun p hp => ?_⟩
    rcases List.mem_append.mp hp with hp | hp
    · exact hpast p hp
    · rw [List.mem_singleton.mp hp]
      exact hs
  exact (h.history _ hkeeps ⟨sane_fresh, sound_fresh, List.forall_mem_nil _⟩).2

/-! ## Late events -/

/-- An event of a socket that its reply has discarded for another one. -/
def Late (c : Client) : Event → Prop
  | .errorOccurred a _ | .readyRead a _ =>
      c.wired a = true ∧ (c.replies (c.attempts a).reply).finished = false ∧
        (c.replies (c.attempts a).reply).socket ≠ some a
  | _ => False

instance (c : Client) : ∀ e, Decidable (c.Late e)
  | .errorOccurred _ _ | .readyRead _ _ =>
      inferInstanceAs (Decidable (_ ∧ _ ∧ _ ≠ _))
  | .setEndpoint _ | .setCredentials _ _ | .setTrustedFingerprints _
  | .setTransferTimeoutMs _ | .setSocketFactory _ | .setSerializeRequests _
  | .trustPendingPeerCert | .sendEnvelope _ _ | .abort _ | .destroy _
  | .timeout _ | .factoryDone _ _ | .connected _ | .encrypted _
  | .postedWrite _ | .sslErrors _ _ | .disconnected _ =>
      .isFalse id

/-- Nothing changes but what the discarded socket itself holds. -/
def Undisturbed (env : Env) (c : Client) : Event → Prop
  | .errorOccurred a errorString =>
      -- with no new socket yet, the source follows a null pointer
      (c.replies (c.attempts a).reply).socket ≠ none ∧
        c.handle env (.errorOccurred a errorString) = c
  | .readyRead a chunk =>
      c.handle env (.readyRead a chunk) =
        c.withAttempt a fun t => { t with unread := t.unread ++ chunk }
  | _ => True

/-- No error is late, and no `readyRead` where a pass over the new socket
finds something. -/
def Spared (c : Client) : Event → Prop
  | .errorOccurred _ _ => False
  | .readyRead a _ => ∀ b ∈ (c.replies (c.attempts a).reply).socket,
      ¬(c.replies (c.attempts a).reply).Stirs (c.attempts b).connected
  | _ => True

instance (c : Client) : ∀ e, Decidable (c.Spared e)
  | .errorOccurred _ _ => .isFalse id
  | .readyRead _ _ => inferInstanceAs (Decidable (∀ b ∈ _, ¬_))
  | .setEndpoint _ | .setCredentials _ _ | .setTrustedFingerprints _
  | .setTransferTimeoutMs _ | .setSocketFactory _ | .setSerializeRequests _
  | .trustPendingPeerCert | .sendEnvelope _ _ | .abort _ | .destroy _
  | .timeout _ | .factoryDone _ _ | .connected _ | .encrypted _
  | .postedWrite _ | .sslErrors _ _ | .disconnected _ =>
      .isTrue trivial

theorem startNow_finished (env : Env) (r s : Nat) :
    ((c.startNow env r).replies s).finished = (c.replies s).finished := by
  unfold startNow
  simp only []
  split
  · exact (retryWithDigest_opened env r).finished s
  · exact (startTransport_opened r).finished s

theorem drainQueue_finished (env : Env) (queue : List Nat) (s : Nat) :
    ((c.drainQueue env queue).replies s).finished = (c.replies s).finished := by
  induction queue with
  | nil => rfl
  | cons next rest ih =>
      rw [drainQueue]
      split
      · exact startNow_finished env next s
      · exact ih

theorem emitFinished_finished (env : Env) (r : Nat) (state : ReplyState)
    (errorString : String) :
    ((c.emitFinished env r state errorString).replies r).finished = true := by
  have hnow : ((c.withReply r fun rd =>
      { rd with state, errorString, finished := true }).replies r).finished =
        true := by
    rw [withReply_replies, if_pos rfl]
  unfold emitFinished
  simp only []
  split
  · exact (drainQueue_finished env _ r).trans hnow
  · exact hnow

theorem finishReply_finished (env : Env) (r : Nat) (err : String) :
    ((c.finishReply env r err).replies r).finished = true := by
  unfold finishReply
  split
  · next hf => exact hf
  · split
    · exact emitFinished_finished env r _ _
    · exact emitFinished_finished env r _ _

/-- A 401 ends the reply or opens another socket for it. -/
theorem unauthorized_moves (env : Env) (r : Nat) (wwwAuth : Bytes) :
    ((c.unauthorized env r wwwAuth).replies r).finished = true ∨
      (c.unauthorized env r wwwAuth).nextAttempt = c.nextAttempt + 1 := by
  unfold unauthorized
  simp only []
  split
  · exact .inl (finishReply_finished env r _)
  · split <;> split
    · exact .inl (finishReply_finished env r _)
    · exact .inr (retryWithDigest_opened env r).issued
    · exact .inl (finishReply_finished env r _)
    · exact .inr (retryWithDigest_opened env r).issued

/-- A late error ends the reply. -/
theorem late_error (env : Env) {a : Nat} {errorString : String}
    (hl : c.Late (.errorOccurred a errorString)) :
    ¬c.Undisturbed env (.errorOccurred a errorString) := by
  obtain ⟨hw, hf, -⟩ := hl
  rintro ⟨hsocket, hsame⟩
  rw [Client.handle, if_pos hw, errorOccurred, if_neg (by rw [hf]; decide)]
    at hsame
  split at hsame
  · next hnone => exact hsocket hnone
  · have hended := emitFinished_finished (c := c) env (c.attempts a).reply
      .failed errorString
    rw [hsame, hf] at hended
    cases hended

theorem withAttempt_self {a : Nat} {f : Attempt → Attempt}
    (h : f (c.attempts a) = c.attempts a) : c.withAttempt a f = c := by
  rw [withAttempt, h, Function.update_eq_self]

theorem withReply_self (r : Nat) :
    c.withReply r (fun _ => c.replies r) = c := by
  rw [withReply, Function.update_eq_self]

/-- A late `readyRead` is a pass over the new socket. -/
theorem late_readyRead (env : Env) (hs : c.Sane none) {a : Nat} {chunk : Bytes}
    (hl : c.Late (.readyRead a chunk)) :
    c.Undisturbed env (.readyRead a chunk) ↔ c.Spared (.readyRead a chunk) := by
  obtain ⟨hw, hf, hgone⟩ := hl
  let r := (c.attempts a).reply
  let c₀ := c.withAttempt a fun t => { t with unread := t.unread ++ chunk }
  have hhandle : c.handle env (.readyRead a chunk) = c₀.readMore env r := by
    rw [Client.handle, if_pos hw]
  show c.handle env (.readyRead a chunk) = c₀ ↔
    ∀ b ∈ (c.replies r).socket, ¬(c.replies r).Stirs (c.attempts b).connected
  rw [hhandle]
  cases hsocket : (c.replies r).socket with
  | none =>
      refine iff_of_true (readMore_unsocketed (c := c₀) env hsocket) fun b hb => ?_
      cases hb
  | some b =>
      have hba : b ≠ a := by
        rintro rfl
        exact hgone hsocket
      have hsame : c₀.attempts b = c.attempts b := by
        rw [withAttempt_attempts, if_neg hba]
      have hunread : (c₀.attempts b).unread = [] :=
        hsame ▸ hs.poised.clear r b hsocket hf
      have hread : c₀.withAttempt b (fun t => { t with unread := [] }) = c₀ := by
        refine withAttempt_self ?_
        rw [← hunread]
      obtain ⟨hrest, hcap⟩ := hs.poised.rests r (fun h => by cases h) hf
      rw [readMore_eq (c := c₀) env hsocket hf, hread, hunread, hsame]
      have hreply : c₀.replies r = c.replies r := rfl
      rw [hreply]
      by_cases hstirs : (c.replies r).Stirs (c.attempts b).connected
      · refine iff_of_false (fun heq => ?_) fun h => h b rfl hstirs
        have hmoved := Reply.readPass_stirred hcap hrest hstirs
        generalize (c.replies r).readPass (c.attempts b).connected [] = p at *
        have hfinished : ((c₀.answerPass env r p).replies r).finished = false := by
          rw [heq]
          exact hf
        have hattempts : (c₀.answerPass env r p).nextAttempt = c₀.nextAttempt := by
          rw [heq]
        unfold answerPass at heq hfinished hattempts
        cases hverdict : p.2 with
        | needMore =>
            rw [hverdict] at heq hmoved
            have hstate := congrArg (fun c => (c.replies r).state) heq
            simp only [withReply_replies, if_true] at hstate
            exact hmoved.elim (fun h => h rfl) fun h => h hstate
        | finish err =>
            rw [hverdict, finishReply_finished] at hfinished
            cases hfinished
        | unauthorized wwwAuth =>
            rw [hverdict] at hfinished hattempts
            rcases unauthorized_moves (c := c₀.withReply r fun _ => p.1) env r
              wwwAuth with h | h
            · rw [h] at hfinished
              cases hfinished
            · rw [hattempts] at h
              exact absurd h (Nat.ne_of_lt (Nat.lt_succ_self _))
      · rw [Reply.readPass_nothing hcap hrest hstirs]
        refine iff_of_true (withReply_self (c := c₀) r) fun d hd => ?_
        rw [← Option.some.inj hd]
        exact hstirs

theorem late_undisturbed_iff (env : Env) (hs : c.Sane none) {e : Event}
    (hl : c.Late e) : c.Undisturbed env e ↔ c.Spared e := by
  cases e with
  | errorOccurred a errorString => exact iff_of_false (late_error env hl) id
  | readyRead a chunk => exact late_readyRead env hs hl
  | _ => exact hl.elim

/-- The requests that were written for a reply. -/
def writes (c : Client) (r : Nat) : List Effect :=
  c.out.filter fun e =>
    match e with
    | .wrote _ a _ _ => (c.attempts a).reply = r
    | _ => false

/-- `finished` is emitted at most once for a reply, no request is written for
it behind that, and no more than three are. -/
structure Settles (c : Client) : Prop where
  once : ∀ r, c.out.count (.finished r) ≤ 1
  last : c.out.Pairwise fun e f => ∀ socket a auth bytes,
    f = .wrote socket a auth bytes → e ≠ .finished (c.attempts a).reply
  bounded : ∀ r, (c.writes r).length ≤ 3

theorem settles_of_sound (h : c.errands.Sound 3) : c.Settles := by
  have hnodup : (c.out.filterMap Effect.entry).Nodup := h.nodup
  have hlast : (c.out.filterMap Effect.entry).Pairwise _ := h.last
  rw [List.Nodup, List.pairwise_filterMap] at hnodup
  rw [List.pairwise_filterMap] at hlast
  refine ⟨fun r => ?_, hlast.imp ?_, fun r => ?_⟩
  · by_contra htwice
    have hsub : (List.replicate 2 (Effect.finished r)).Sublist c.out :=
      List.replicate_sublist_iff.mpr (by omega)
    have hpair := List.pairwise_pair.mp (hnodup.sublist hsub)
    exact hpair (.closed r) rfl (.closed r) rfl rfl
  · rintro e f hef socket a auth bytes rfl rfl
    exact hef (.closed _) rfl (.spent a) rfl a rfl rfl
  · refine Nat.le_trans (Nat.le_of_eq ?_) (h.spends_le r)
    rw [writes, Errands.spends, ← List.countP_eq_length_filter,
      ← List.countP_eq_length_filter]
    refine .trans (List.countP_congr fun e _ => ?_) List.countP_filterMap.symm
    cases e <;> rfl

end Client

/-- Three requests and one end, in every run in which no reply is destroyed in
front of a queue; and the end is the one of the last socket just where no late
event finds something. -/
theorem reply_settles (env : Env) (es : List Event)
    (h : Guarded (Client.handle env) (fun _ c e => c.SparesQueue e) {} es) :
    ((run (Client.handle env) {} es).Settles ∧
      ∀ p ∈ trail (Client.handle env) {} es, p.1.Late p.2 →
        p.1.Undisturbed env p.2) ↔
    ∀ p ∈ trail (Client.handle env) {} es, p.1.Late p.2 → p.1.Spared p.2 := by
  obtain ⟨hsound, hsane⟩ := Client.run_sane env h
  refine ⟨fun hall p hp hl => ?_, fun hall => ⟨Client.settles_of_sound hsound,
    fun p hp hl => ?_⟩⟩
  · exact (Client.late_undisturbed_iff env (hsane p hp) hl).mp (hall.2 p hp hl)
  · exact (Client.late_undisturbed_iff env (hsane p hp) hl).mpr (hall p hp hl)

private def lateEnv : Env where
  md5Hex _ := ascii "h"
  sha256 := id
  randomCnonce _ := ascii "c"

/-- A request that is answered with a 401, and the retry of it. -/
private def retried (late : Event) : List Event :=
  [.setCredentials (ascii "u") (ascii "p"), .sendEnvelope [] none,
    .connected 0,
    .readyRead 0 (ascii ("HTTP/1.1 401 Unauthorized\r\n" ++
      "WWW-Authenticate: Digest realm=\"r\", nonce=\"n\"\r\n\r\n")),
    late, .connected 1]

/-- More of the 401 arrives on the discarded socket. -/
theorem reply_settles_spared :
    (run (Client.handle lateEnv) {}
      (retried (.readyRead 0 (ascii "body")))).Settles ∧
      ∀ p ∈ trail (Client.handle lateEnv) {}
        (retried (.readyRead 0 (ascii "body"))), p.1.Late p.2 →
          p.1.Undisturbed lateEnv p.2 :=
  (reply_settles lateEnv _ (by decide)).mpr (by decide)

/-- The discarded socket is closed by the peer, and the retry fails. -/
theorem reply_settles_disturbed :
    ¬∀ (env : Env) (es : List Event),
      (run (Client.handle env) {} es).Settles ∧
        ∀ p ∈ trail (Client.handle env) {} es, p.1.Late p.2 →
          p.1.Undisturbed env p.2 := by
  intro h
  obtain ⟨-, hlate⟩ := h lateEnv
    (retried (.errorOccurred 0 "The remote host closed the connection"))
  have hdone := hlate _ (.tail _ (.tail _ (.tail _ (.tail _ (.head _)))))
  exact Client.late_error lateEnv (by decide)
    (hdone (by decide))

end QuMesh.Wsman
