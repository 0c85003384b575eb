import QuMesh.Lib.Promises
import QuMesh.Proofs.RequestsServed
import QuMesh.Wsman.Calls

/-!
# Every operation calls back once

The caller of an operation is promised a callback, and the reply that the
operation waits for is the ticket that carries the promise. `finished` settles
the ticket: the slot keeps the promise, or sends an envelope and takes the next
reply for it. The book-keeping needs that a new reply has not finished when
`sendEnvelope` returns. That holds of a client that opens its sockets itself
and of a socket factory that calls back later, and also of one that calls back
at once with a descriptor that works. A factory that fails at once ends the
reply while nobody listens, and so does a socket whose `connectToHost` does.
-/

namespace QuMesh.Wsman

open QuMesh.Lib

namespace Client

variable {who : Option Nat} {c c' : Client}

/-! ## What a client that is used with patience keeps -/

structure Orderly (c : Client) : Prop where
  sane : c.Sane none
  sound : c.errands.Sound 3
  rostered : c.Rostered

theorem orderly_fresh : ({} : Client).Orderly :=
  ⟨sane_fresh, sound_fresh, rostered_fresh⟩

theorem signals_eq (c : Client) : c.signals = c.errands.closes := by
  show c.out.filterMap Effect.signal =
    (c.out.filterMap Effect.entry).filterMap Errands.Entry.close
  rw [List.filterMap_filterMap]
  congr 1
  funext e
  cases e <;> rfl

theorem Orderly.handle (env : Env) {e : Event} (h : c.Orderly)
    (he : c.Patient e) : (c.handle env e).Orderly := by
  obtain ⟨hsane, hsteps⟩ :=
    handle_proceeds env (h.rostered.spares he) h.sane
  exact ⟨hsane, hsteps.sound h.sound, h.rostered.handle env he⟩

/-- The replies that an event ends are those it signals, each once. -/
theorem Orderly.signalled (env : Env) {e : Event} (h : c.Orderly)
    (he : c.Patient e) :
    ∃ news, (c.handle env e).signals = c.signals ++ news ∧ news.Nodup ∧
      (∀ r ∈ news, (c.replies r).finished = false) ∧
        ∀ r, ((c.handle env e).replies r).finished = true ↔
          (c.replies r).finished = true ∨ r ∈ news := by
  have hsteps := (handle_proceeds env (h.rostered.spares he) h.sane).2
  obtain ⟨news, hcloses, hnodup, hopen, hclosed⟩ := h.sound.closes_since hsteps
  rw [← signals_eq, ← signals_eq] at hcloses
  refine ⟨news, hcloses, hnodup, fun r hr => ?_, hclosed⟩
  exact eq_false_of_ne_true (hopen r hr)

theorem drainQueue_nextReply (env : Env) (queue : List Nat) (c : Client) :
    (c.drainQueue env queue).nextReply = c.nextReply := by
  induction queue with
  | nil => rfl
  | cons next rest ih =>
      rw [drainQueue]
      split
      · exact (startNow_calm env next).nextReply
      · exact ih

theorem emitFinished_nextReply (env : Env) (r : Nat) (state : ReplyState)
    (errorString : String) :
    (c.emitFinished env r state errorString).nextReply = c.nextReply := by
  unfold emitFinished
  simp only []
  split
  · exact drainQueue_nextReply env _ _
  · rfl

theorem Move.nextReply {env : Env} {r : Nat} (h : Move env r c c') :
    c'.nextReply = c.nextReply := by
  cases h with
  | calm hc => exact hc.nextReply
  | ends state errorString hc live =>
      exact (emitFinished_nextReply env r state errorString).trans hc.nextReply

/-! ### A new reply, before its slot is connected -/

theorem sendEnvelope_nextReply (env : Env) (envelope : Bytes)
    (soapAction : Option Bytes) :
    (c.sendEnvelope env envelope soapAction).nextReply = c.nextReply + 1 := by
  unfold sendEnvelope
  simp only []
  split
  · exact (startNow_calm env _).nextReply
  · split
    · rfl
    · exact (startNow_calm env _).nextReply

theorem sendEnvelope_finished (env : Env) (envelope : Bytes)
    (soapAction : Option Bytes) (r : Nat) :
    ((c.sendEnvelope env envelope soapAction).replies r).finished =
      if r = c.nextReply then false else (c.replies r).finished := by
  have hnew : ((c.newReply envelope soapAction).replies r).finished =
      if r = c.nextReply then false else (c.replies r).finished := by
    split
    · next heq =>
        rw [heq, show (c.newReply envelope soapAction).replies c.nextReply = _
          from Function.update_self ..]
    · next hne => rw [newReply_ne _ _ hne]
  unfold sendEnvelope
  simp only []
  split
  · exact (startNow_finished env _ r).trans hnew
  · split
    · exact hnew
    · exact (startNow_finished env _ r).trans hnew

theorem handle_nextReply (env : Env) (e : Event) :
    c.nextReply ≤ (c.handle env e).nextReply := by
  have htransport (ht : e.ofTransport = true) :
      c.nextReply ≤ (c.handle env e).nextReply := by
    rcases handle_moves (c := c) env ht with heq | ⟨r, -, hm⟩
    · rw [heq]
    · rw [hm.nextReply]
  cases e with
  | sendEnvelope envelope soapAction =>
      rw [handle, sendEnvelope_nextReply]
      exact Nat.le_succ _
  | trustPendingPeerCert =>
      rw [handle, trustPendingPeerCert]
      split <;> exact Nat.le_refl _
  | abort r =>
      rw [handle]
      split
      · next halive => rw [(abort_moves env halive).nextReply]
      · exact Nat.le_refl _
  | destroy r =>
      rw [handle]
      split
      · have hcalm : Calm none c (c.abortSocket r) := abortSocket_calm r
        exact Nat.le_of_eq hcalm.nextReply.symm
      · exact Nat.le_refl _
  | setEndpoint | setCredentials | setTrustedFingerprints
  | setTransferTimeoutMs | setSocketFactory | setSerializeRequests =>
      exact Nat.le_refl _
  | _ => exact htransport rfl

end Client

/-- It does not end the reply. -/
def Early.harmless : Early → Bool
  | .factoryDone fd => fd = .usable
  | .connected => true
  | .errorOccurred _ => false

/-- No attempt fails before `sendEnvelope` has returned: no factory calls back
at once without a descriptor that can be used, and no socket reports an error
at once. -/
def Surroundings.Prompt (w : Surroundings) : Prop :=
  ∀ r, ∀ e ∈ w.early r, e.harmless = true

namespace Client

variable {c : Client}

theorem early_calm (env : Env) {e : Early} (he : e.harmless = true) (a : Nat) :
    Calm none c (c.handle env (e.event a)) := by
  cases e with
  | factoryDone fd =>
      cases of_decide_eq_true he
      show Calm none c (c.handle env (.factoryDone a .usable))
      rw [handle]
      split
      · next hstage => exact usable_calm env hstage
      · exact .refl c
  | connected =>
      show Calm none c (c.handle env (.connected a))
      rw [handle]
      split
      · next hr => exact connected_calm (used_of_reached (by simp) hr)
      · exact .refl c
  | errorOccurred errorString => cases he

theorem early_patient (c : Client) (e : Early) (a : Nat) :
    c.Patient (e.event a) := by
  cases e <;> trivial

theorem Orderly.early (env : Env) (a : Nat) {es : List Early} (h : c.Orderly)
    (hes : ∀ e ∈ es, e.harmless = true) :
    (es.foldl (fun c e => c.handle env (e.event a)) c).Orderly ∧
      Calm none c (es.foldl (fun c e => c.handle env (e.event a)) c) := by
  induction es generalizing c with
  | nil => exact ⟨h, .refl c⟩
  | cons e es ih =>
      obtain ⟨he, hes⟩ := List.forall_mem_cons.mp hes
      have hcalm := early_calm (c := c) env he a
      obtain ⟨horderly, hrest⟩ := ih (h.handle env (early_patient c e a)) hes
      exact ⟨horderly, hcalm.trans hrest⟩

end Client

namespace Calls

/-! ## The book-keeping -/

variable {w : Surroundings} {s : Calls} {rest due : List Nat}

def promises (s : Calls) : Promises Nat where
  made := s.operations
  slips := s.slots.map fun slot => (slot.operation, slot.reply)
  kept := s.calledBack

/-- Of the replies in `rest` the slots are still to hear. -/
def settled (s : Calls) (rest : List Nat) (r : Nat) : Bool :=
  (s.client.replies r).finished && !rest.contains r

structure Even (rest due : List Nat) (s : Calls) : Prop where
  orderly : s.client.Orderly
  placed : ∀ slot ∈ s.slots, slot.reply < s.client.nextReply
  told : ∀ r ∈ rest, r < s.client.nextReply ∧
    (s.client.replies r).finished = true
  balanced : s.promises.Balanced (s.settled rest) due

theorem even_none : Even [] [] {} where
  orderly := Client.orderly_fresh
  placed _ h := absurd h List.not_mem_nil
  told _ h := absurd h List.not_mem_nil
  balanced := Promises.balanced_none _

theorem Even.fresh (h : s.Even rest due) :
    s.client.nextReply ∉ s.promises.slips.map Prod.snd := by
  intro hin
  rw [promises, List.map_map, List.mem_map] at hin
  obtain ⟨slot, hslot, heq⟩ := hin
  exact Nat.ne_of_lt (h.placed slot hslot) heq

/-- A reply that was sent is open, and the others are what they were. -/
structure Sent (operation : Nat) (s s' : Calls) : Prop where
  orderly : s'.client.Orderly
  nextReply : s'.client.nextReply = s.client.nextReply + 1
  finished : ∀ r, (s'.client.replies r).finished =
    if r = s.client.nextReply then false else (s.client.replies r).finished
  slots : ∃ slot : Slot, slot.operation = operation ∧
    slot.reply = s.client.nextReply ∧ s'.slots = s.slots ++ [slot]
  operations : s'.operations = s.operations
  calledBack : s'.calledBack = s.calledBack

theorem send_sent (hw : w.Prompt) (operation : Nat) (chain : Chain)
    (h : s.client.Orderly) : Sent operation s (s.send w operation chain) := by
  cases chain with
  | send envelope onward =>
      have hsent : (s.client.sendEnvelope w.env envelope none).Orderly :=
        h.handle w.env (e := .sendEnvelope envelope none) trivial
      obtain ⟨horderly, hcalm⟩ := hsent.early w.env s.client.nextAttempt
        (hw s.client.nextReply)
      rw [send]
      refine ⟨horderly, ?_, fun r => ?_, ⟨_, rfl, rfl, rfl⟩, rfl, rfl⟩
      · exact hcalm.nextReply.trans (Client.sendEnvelope_nextReply w.env _ _)
      · exact (hcalm.finished r).trans
          (Client.sendEnvelope_finished w.env _ _ r)

/-- What was settled stays so, and the new reply is not. -/
theorem Sent.settled {s' : Calls} {operation : Nat} (h : Sent operation s s')
    (rest : List Nat) {r : Nat} :
    s'.settled rest r =
      if r = s.client.nextReply then false else s.settled rest r := by
  rw [Calls.settled, h.finished]
  split
  · rfl
  · rfl

theorem Sent.even {s' : Calls} {operation : Nat} (h : Sent operation s s')
    (hplaced : ∀ slot ∈ s.slots, slot.reply < s.client.nextReply)
    (htold : ∀ r ∈ rest, r < s.client.nextReply ∧
      (s.client.replies r).finished = true)
    (hbalanced : s'.promises.Balanced (s'.settled rest) due) :
    s'.Even rest due where
  orderly := h.orderly
  placed slot hslot := by
    obtain ⟨last, -, hreply, hslots⟩ := h.slots
    rw [h.nextReply]
    rw [hslots, List.mem_append, List.mem_singleton] at hslot
    rcases hslot with hslot | rfl
    · exact Nat.lt_succ_of_lt (hplaced slot hslot)
    · rw [hreply]
      exact Nat.lt_succ_self _
  told r hr := by
    obtain ⟨hlt, hf⟩ := htold r hr
    rw [h.nextReply, h.finished, if_neg (Nat.ne_of_lt hlt)]
    exact ⟨Nat.lt_succ_of_lt hlt, hf⟩
  balanced := hbalanced

theorem Sent.promises {s' : Calls} {operation : Nat}
    (h : Sent operation s s') :
    s'.promises = { s.promises with
      slips := s.promises.slips ++ [(operation, s.client.nextReply)] } := by
  obtain ⟨last, hoperation, hreply, hslots⟩ := h.slots
  rw [Calls.promises, Calls.promises, h.operations, h.calledBack, hslots,
    List.map_append, List.map_singleton, hoperation, hreply]

/-- The operation goes on with another reply. -/
theorem Even.pass {operation : Nat} (hw : w.Prompt) (chain : Chain)
    (h : s.Even rest (operation :: due)) :
    (s.send w operation chain).Even rest due := by
  have hsent := send_sent hw operation chain h.orderly
  have hopen : (s.send w operation chain).settled rest s.client.nextReply =
      false := by
    rw [hsent.settled, if_pos rfl]
  have hsame : ∀ slip ∈ s.promises.slips,
      (s.send w operation chain).settled rest slip.2 =
        s.settled rest slip.2 := by
    intro slip hslip
    rw [hsent.settled, if_neg]
    intro heq
    exact h.fresh (List.mem_map.mpr ⟨slip, hslip, heq⟩)
  refine hsent.even h.placed h.told ?_
  rw [hsent.promises]
  exact (h.balanced.congr hsame).pass h.fresh hopen

/-- An operation is called. -/
theorem Even.call (hw : w.Prompt) (chain : Chain) (h : s.Even rest due) :
    (({ s with operations := s.operations + 1 }).send w s.operations
      chain).Even rest due := by
  have hsent := send_sent (s := { s with operations := s.operations + 1 }) hw
    s.operations chain h.orderly
  generalize ({ s with operations := s.operations + 1 } : Calls).send w
    s.operations chain = s' at *
  have hopen : s'.settled rest s.client.nextReply = false := by
    rw [hsent.settled, if_pos rfl]
  have hsame : ∀ slip ∈ s.promises.slips,
      s'.settled rest slip.2 = s.settled rest slip.2 := by
    intro slip hslip
    rw [hsent.settled, if_neg]
    · rfl
    · intro heq
      exact h.fresh (List.mem_map.mpr ⟨slip, hslip, heq⟩)
  refine hsent.even h.placed h.told ?_
  rw [hsent.promises]
  exact (h.balanced.congr hsame).promise h.fresh hopen

theorem Even.runSlot {slot : Slot} (hw : w.Prompt)
    (h : s.Even rest (slot.operation :: due)) :
    (s.runSlot w slot).Even rest due := by
  unfold Calls.runSlot
  split
  · exact h.pass hw _
  · exact ⟨h.orderly, h.placed, h.told, h.balanced.keep⟩

theorem Even.runSlots (hw : w.Prompt) {slots : List Slot}
    (h : s.Even rest (slots.map Slot.operation ++ due)) :
    (slots.foldl (Calls.runSlot w) s).Even rest due := by
  induction slots generalizing s with
  | nil => exact h
  | cons slot slots ih => exact ih (h.runSlot hw)

theorem Even.finished {r : Nat} (hw : w.Prompt) (hr : r ∉ rest)
    (h : s.Even (r :: rest) due) : (s.finished w r).Even rest due := by
  have hopen : s.settled (r :: rest) r = false := by
    simp [settled]
  have hsettled : ∀ u, s.settled rest u = true ↔
      s.settled (r :: rest) u = true ∨ u = r := by
    intro u
    by_cases hu : u = r
    · subst hu
      simp [settled, hr, (h.told u List.mem_cons_self).2]
    · simp [settled, hu]
  have hdue : ((s.promises.slips.filter fun slip => slip.2 = r).map
      Prod.fst) =
        (s.slots.filter fun slot => slot.reply = r).map Slot.operation := by
    rw [promises, List.filter_map, List.map_map]
    rfl
  have hbalanced := h.balanced.settle hopen hsettled
  rw [hdue] at hbalanced
  refine Even.runSlots hw ⟨h.orderly, h.placed, fun u hu => ?_, hbalanced⟩
  exact h.told u (List.mem_cons_of_mem _ hu)

theorem Even.heard (hw : w.Prompt) {news : List Nat} (hnodup : news.Nodup)
    (h : s.Even news due) : (news.foldl (Calls.finished w) s).Even [] due := by
  induction news generalizing s with
  | nil => exact h
  | cons r news ih =>
      obtain ⟨hr, hnodup⟩ := List.nodup_cons.mp hnodup
      exact ih hnodup (h.finished hw hr)

theorem Even.deliver {e : Event} (hw : w.Prompt) (h : s.Even [] [])
    (he : s.client.Patient e) : (s.deliver w e).Even [] [] := by
  obtain ⟨news, hsignals, hnodup, hopen, hclosed⟩ :=
    h.orderly.signalled w.env he
  have horderly := h.orderly.handle w.env he
  have hnews : (s.client.handle w.env e).signals.drop s.client.signals.length =
      news := by
    rw [hsignals, List.drop_left]
  rw [Calls.deliver, hnews]
  refine Even.heard hw hnodup ⟨horderly, fun slot hslot => ?_, fun r hr => ?_, ?_⟩
  · exact Nat.lt_of_lt_of_le (h.placed slot hslot)
      (Client.handle_nextReply w.env e)
  · have hf := (hclosed r).mpr (.inr hr)
    refine ⟨Nat.lt_of_not_le fun hle => ?_, hf⟩
    rw [((horderly.sane.numbered r).2 hle).1] at hf
    cases hf
  · refine Promises.Balanced.congr (p := s.promises) h.balanced fun slip _ => ?_
    refine Bool.eq_iff_iff.mpr ?_
    have hold := hopen slip.2
    simp only [settled, Bool.and_eq_true, Bool.not_eq_true', hclosed,
      List.contains_eq_mem, decide_eq_false_iff_not, List.not_mem_nil,
      not_false_eq_true, and_true]
    constructor
    · rintro ⟨hf | hin, hout⟩
      · exact hf
      · exact absurd hin hout
    · refine fun hf => ⟨.inl hf, fun hin => ?_⟩
      rw [hold hin] at hf
      cases hf

theorem Even.step {e : CallsEvent} (hw : w.Prompt) (h : s.Even [] []) :
    (s.step w e).Even [] [] := by
  cases e with
  | call operation => exact h.call hw operation
  | client e =>
      cases e with
      | abort r => exact h
      | destroy r =>
          rw [Calls.step]
          split
          · next hf => exact h.deliver hw hf
          · exact h
      | _ => exact h.deliver hw trivial

/-- The operation waits for a reply that has not finished. -/
def waits (s : Calls) (operation : Nat) : Bool :=
  s.slots.any fun slot =>
    slot.operation == operation && !(s.client.replies slot.reply).finished

/-- An operation that was called has called back once, or it waits for a reply
and has not. While one waits, a request is in flight whose outcome is still to
come. -/
structure CallsBackOnce (s : Calls) : Prop where
  once : ∀ i < s.operations,
    s.calledBack.count i = if s.waits i then 0 else 1
  served : ∀ i, s.waits i = true → ∃ r, s.client.InFlight r

theorem Even.callsBackOnce (h : s.Even [] []) : s.CallsBackOnce := by
  refine ⟨fun i hi => ?_, fun i hi => ?_⟩
  · have hkept := h.balanced.kept_count (i := i) hi
    rw [show s.promises.kept = s.calledBack from rfl] at hkept
    rw [hkept, waits, promises, List.any_map]
    simp [settled, Function.comp_def]
  · rw [waits, List.any_eq_true] at hi
    obtain ⟨slot, hslot, hopen⟩ := hi
    rw [Bool.and_eq_true, Bool.not_eq_true'] at hopen
    exact h.orderly.rostered.served (h.placed slot hslot) hopen.2

end Calls

/-- In every run in which no attempt fails before `sendEnvelope` has returned,
whatever the client is configured to and whatever becomes of the transports. -/
theorem calls_back_once (w : Surroundings) (h : w.Prompt)
    (es : List CallsEvent) : (run (Calls.step w) {} es).CallsBackOnce := by
  have heven : (run (Calls.step w) {} es).Even [] [] :=
    history (fun _ (s : Calls) => s.Even [] []) (fun _ _ _ hs => hs.step h) es
      Calls.even_none
  exact heven.callsBackOnce

private def plainHashes : Env where
  md5Hex := id
  sha256 := id
  randomCnonce _ := []

/-- A factory calls back at once for the first reply, with a descriptor or
without one. -/
private def factoryAtOnce (fd : Descriptor) : Surroundings where
  env := plainHashes
  readXml _ := []
  early r := if r = 0 then [.factoryDone fd] else []

/-- The first reply times out, and the factory fails for the second when it
has been started. -/
theorem calls_back_once_tunnelled :
    (run (Calls.step (factoryAtOnce .usable)) {}
      [.client (.setSocketFactory true), .client (.setSerializeRequests true),
        .call (.getOptInStatus [] []),
        .call (.runChainStep [] "SetBootConfigRole" readReturnValueOk
          (some (.runRequest []))),
        .client (.timeout 0), .client (.factoryDone 1 (.none ""))]
      ).CallsBackOnce := by
  refine calls_back_once _ (fun r e he => ?_) _
  have he' : e ∈ if r = 0 then [Early.factoryDone .usable] else [] := he
  split at he'
  · rw [List.mem_singleton.mp he']
    rfl
  · cases he'

/-- The session is not connected, and the factory says so at once. -/
theorem calls_back_once_disconnected :
    ¬∀ (w : Surroundings) (es : List CallsEvent),
      (run (Calls.step w) {} es).CallsBackOnce := by
  intro h
  have honce := (h (factoryAtOnce (.none "SSH session not connected"))
    [.client (.setSocketFactory true), .call (.runRequest [])]).once 0
      (by decide)
  exact absurd honce (by decide)

end QuMesh.Wsman
