import QuMesh.App.SshTunnelHost

/-!
# The host-key gate

The user accepts a prompt, and the worker goes by its flag. The two mean the
same key as long as the prompt that is accepted is the one that the worker's
last `open` raised: until the next `open` the flag, if it is still up, stands
for the key of the session the worker holds. But `open` does not take the flag
down, and the acceptance does not say what it is for. So after another `open`
has run, an acceptance of the earlier prompt lets through whatever that `open`
left.
-/

namespace QuMesh.Ssh

/-! ## The worker -/

/-- It was run on a live session with a key that is pinned or was accepted. -/
def Auth.Trusted (a : Auth) : Prop :=
  ∃ fp, a.session = .connected fp ∧ (fp ∈ a.trusted ∨ a.accepted = some fp)

instance (a : Auth) : Decidable a.Trusted :=
  match h : a.session with
  | .connected fp =>
      decidable_of_iff (fp ∈ a.trusted ∨ a.accepted = some fp)
        ⟨fun hfp => ⟨fp, h, hfp⟩, fun ⟨_, hsession, hfp⟩ => by
          cases h.symm.trans hsession
          exact hfp⟩
  | .null => .isFalse fun ⟨_, hsession, _⟩ => by cases h.symm.trans hsession
  | .unconnected => .isFalse fun ⟨_, hsession, _⟩ => by cases h.symm.trans hsession

namespace SshSessionWorker

variable {w w' : SshSessionWorker}

/-- The flag, if it is up, stands for this key. -/
def StandsFor (fp : String) (w : SshSessionWorker) : Prop :=
  w.awaitingHostKeyTrust = true → w.session = .connected fp

end SshSessionWorker

def WorkerSignal.isPrompt : WorkerSignal → Bool
  | .hostKeyPromptRequired _ _ => true
  | _ => false

namespace SshSessionWorker

variable {w w' : SshSessionWorker}

/-- No prompt was emitted, no `open` was run and the flag was not raised. -/
structure Quiet (w w' : SshSessionWorker) : Prop where
  opens : w'.opens = w.opens
  prompts : ∀ fp keyType, .hostKeyPromptRequired fp keyType ∈ w'.out →
    .hostKeyPromptRequired fp keyType ∈ w.out
  awaiting : w'.awaitingHostKeyTrust = true → w.awaitingHostKeyTrust = true

theorem Quiet.refl (w : SshSessionWorker) : Quiet w w :=
  ⟨rfl, fun _ _ h => h, fun h => h⟩

theorem Quiet.trans {u : SshSessionWorker} (h : Quiet w w') (h' : Quiet w' u) :
    Quiet w u :=
  ⟨h'.opens.trans h.opens,
    fun fp keyType hp => h.prompts fp keyType (h'.prompts fp keyType hp),
    fun ha => h.awaiting (h'.awaiting ha)⟩

theorem emit_quiet {e : WorkerSignal} (he : e.isPrompt = false) :
    Quiet w (w.emit e) := by
  refine ⟨rfl, fun fp keyType h => ?_, fun h => h⟩
  rcases List.mem_append.mp h with h | h
  · exact h
  · rw [← List.mem_singleton.mp h] at he
    cases he

theorem fail_quiet (msg : String) : Quiet w (w.fail msg) := by
  have hdrop : Quiet w w.dropSession := ⟨rfl, fun _ _ h => h, fun h => h⟩
  exact (hdrop.trans (emit_quiet rfl)).trans (emit_quiet rfl)

theorem authAnswered_quiet (a : Answers) : Quiet w (w.authAnswered a) := by
  unfold authAnswered
  split
  · exact .refl w
  · exact emit_quiet rfl
  · exact fail_quiet _
  · exact fail_quiet _

theorem authAnswered_auths (a : Answers) :
    (w.authAnswered a).auths = w.auths := by
  unfold authAnswered
  split
  all_goals rfl

theorem proceedWithAuth_quiet (a : Answers) (accepted : Option String) :
    Quiet w (w.proceedWithAuth a accepted) := by
  unfold proceedWithAuth
  simp only []
  have hentry (auths : List Auth) : Quiet w { w with auths } :=
    ⟨rfl, fun _ _ h => h, fun h => h⟩
  have hstart (auths : List Auth) :
      Quiet w ({ w with auths }.emit (.stateChanged .authenticating)) :=
    (hentry auths).trans (emit_quiet rfl)
  split
  · exact (hstart _).trans (authAnswered_quiet a)
  · split
    · exact (hstart _).trans (fail_quiet _)
    · split
      · exact (hstart _).trans (fail_quiet _)
      · split
        · exact (hstart _).trans (fail_quiet _)
        · exact (hstart _).trans (authAnswered_quiet a)

theorem proceedWithAuth_auths (a : Answers) (accepted : Option String) :
    (w.proceedWithAuth a accepted).auths = w.auths ++
      [⟨w.session, w.params.trustedHostKeyFingerprints, accepted⟩] := by
  unfold proceedWithAuth
  simp only []
  split
  · exact authAnswered_auths a
  · split
    · rfl
    · split
      · rfl
      · split
        · rfl
        · exact authAnswered_auths a

/-! ### The slots -/

/-- What a slot does: the prompts it emits are of an `open` and stand for the
key of its session, any other slot keeps what the flag stands for, and the
runs of `proceedWithAuth` stay trusted if an acceptance is of that key. -/
structure Ran (w w' : SshSessionWorker) (accepted : Option String) : Prop where
  opens : w.opens ≤ w'.opens
  prompts : ∀ fp keyType, .hostKeyPromptRequired fp keyType ∈ w'.out →
    w.opens < w'.opens ∧ w'.StandsFor fp
  standsFor : w'.opens = w.opens → ∀ fp, w.StandsFor fp → w'.StandsFor fp
  auths : (∀ a ∈ w.auths, a.Trusted) →
    (∀ fp, accepted = some fp → w.StandsFor fp) → ∀ a ∈ w'.auths, a.Trusted

/-- A run of `proceedWithAuth` that is trusted. -/
theorem proceedWithAuth_trusted (a : Answers) {accepted : Option String}
    (h : ∀ a ∈ w.auths, a.Trusted) {fp : String}
    (hsession : w.session = .connected fp)
    (hfp : fp ∈ w.params.trustedHostKeyFingerprints ∨ accepted = some fp) :
    ∀ b ∈ (w.proceedWithAuth a accepted).auths, b.Trusted := by
  intro b hb
  rw [proceedWithAuth_auths] at hb
  rcases List.mem_append.mp hb with hb | hb
  · exact h b hb
  · rw [List.mem_singleton.mp hb]
    exact ⟨fp, hsession, hfp⟩

/-- A worker that has prompted for the key of its session. -/
def prompted (fp keyType : String) (w : SshSessionWorker) : SshSessionWorker :=
  ({ w with pendingHostKeyFingerprint := fp, pendingHostKeyType := keyType,
            awaitingHostKeyTrust := true }.emit
      (.stateChanged .needsHostKeyTrust)).emit (.hostKeyPromptRequired fp keyType)

theorem verifyHostKey_cases (a : Answers) (w : SshSessionWorker) :
    (∃ msg, w.verifyHostKey a = (w.fail msg, false)) ∨
    (hexFingerprint a.hostKey ∈ w.params.trustedHostKeyFingerprints ∧
      w.verifyHostKey a =
        (w.emit (.hostKeyVerifiedByPin (hexFingerprint a.hostKey)), true)) ∨
    w.verifyHostKey a =
      (w.prompted (hexFingerprint a.hostKey) (keyTypeName a.keyType), false) := by
  unfold verifyHostKey
  split
  · exact .inl ⟨_, rfl⟩
  · split
    · exact .inl ⟨_, rfl⟩
    · simp only []
      split
      · next hpinned => exact .inr (.inl ⟨hpinned, rfl⟩)
      · exact .inr (.inr rfl)

/-- What `open` leaves, as far as it matters to who may authenticate. -/
structure Opened (auths : List Auth) (opens : Nat) (w' : SshSessionWorker) :
    Prop where
  opens : w'.opens = opens
  prompts : ∀ fp keyType, .hostKeyPromptRequired fp keyType ∈ w'.out →
    w'.StandsFor fp
  auths : (∀ a ∈ auths, a.Trusted) → ∀ a ∈ w'.auths, a.Trusted

/-- It ends without a prompt and without authenticating. -/
theorem Quiet.opened (h : Quiet w w') (hauths : w'.auths = w.auths)
    (hout : ∀ fp keyType, .hostKeyPromptRequired fp keyType ∉ w.out) :
    Opened w.auths w.opens w' :=
  ⟨h.opens, fun fp keyType hp => absurd (h.prompts fp keyType hp) (hout fp keyType),
    fun htrusted => hauths ▸ htrusted⟩

theorem verifyThenAuth_opened (a : Answers)
    (hsession : w.session = .connected (hexFingerprint a.hostKey))
    (hout : ∀ fp keyType, .hostKeyPromptRequired fp keyType ∉ w.out) :
    Opened w.auths w.opens (w.verifyThenAuth a) := by
  unfold verifyThenAuth
  rcases verifyHostKey_cases a w with ⟨msg, hfail⟩ | ⟨hpinned, hpin⟩ | hprompt
  · rw [hfail]
    exact (fail_quiet msg).opened rfl hout
  · rw [hpin]
    have hquiet := (emit_quiet (w := w)
      (e := .hostKeyVerifiedByPin (hexFingerprint a.hostKey)) rfl).trans
      (proceedWithAuth_quiet a none)
    refine ⟨hquiet.opens, fun fp keyType h => ?_, fun h => ?_⟩
    · exact absurd (hquiet.prompts fp keyType h) (hout fp keyType)
    · exact proceedWithAuth_trusted a h hsession (.inl hpinned)
  · rw [hprompt]
    refine ⟨rfl, fun fp keyType h => ?_, fun h => h⟩
    rcases List.mem_append.mp h with h | h
    · rcases List.mem_append.mp h with h | h
      · exact absurd h (hout fp keyType)
      · cases List.mem_singleton.mp h
    · cases List.mem_singleton.mp h
      exact fun _ => hsession

theorem open_opened (a : Answers) (params : Params) (hout : w.out = []) :
    Opened w.auths (w.opens + 1) (w.open a params) := by
  unfold «open»
  simp only []
  generalize hw₀ : ({ w with params, opens := w.opens + 1 }.emit
    (.stateChanged .connecting)).dropSession = w₀
  have hopens : w₀.opens = w.opens + 1 := by rw [← hw₀]; rfl
  have hauths : w₀.auths = w.auths := by rw [← hw₀]; rfl
  have hout₀ : ∀ fp keyType, .hostKeyPromptRequired fp keyType ∉ w₀.out := by
    intro fp keyType h
    rw [← hw₀] at h
    rcases List.mem_append.mp h with h | h
    · rw [hout] at h
      cases h
    · cases List.mem_singleton.mp h
  rw [← hopens, ← hauths]
  have hquiet (session : RawSession) : Quiet w₀ { w₀ with session } :=
    ⟨rfl, fun _ _ h => h, fun h => h⟩
  have hend {u : SshSessionWorker} (hu : Quiet w₀ u) (h : u.auths = w₀.auths) :
      Opened w₀.auths w₀.opens u := hu.opened h hout₀
  split
  · exact hend (fail_quiet _) rfl
  · split
    · exact hend (hquiet _) rfl
    · exact hend ((hquiet _).trans (fail_quiet _)) rfl
    · split
      · exact hend ((hquiet _).trans (fail_quiet _)) rfl
      · split
        · exact hend ((hquiet _).trans (fail_quiet _)) rfl
        · split
          · exact verifyThenAuth_opened (w := { w₀ with
              session := .connected (hexFingerprint a.hostKey) }) a rfl hout₀
          · exact hend (hquiet _) rfl
          · exact hend ((hquiet _).trans (fail_quiet _)) rfl

theorem open_ran (a : Answers) (params : Params) (hout : w.out = [])
    (accepted : Option String) : Ran w (w.open a params) accepted := by
  obtain ⟨hopens, hprompts, hauths⟩ := open_opened a params hout
  refine ⟨by omega, fun fp keyType h => ⟨by omega, hprompts fp keyType h⟩, ?_,
    fun h _ => hauths h⟩
  intro heq
  omega

/-- A slot that ends with the flag down, and emits no prompt. -/
theorem Quiet.ran (h : Quiet w w') (hout : w.out = [])
    (hdown : w'.awaitingHostKeyTrust = false) {accepted : Option String}
    (hauths : (∀ a ∈ w.auths, a.Trusted) →
      (∀ fp, accepted = some fp → w.StandsFor fp) → ∀ a ∈ w'.auths, a.Trusted) :
    Ran w w' accepted := by
  refine ⟨Nat.le_of_eq h.opens.symm, fun fp keyType hp => ?_, ?_, hauths⟩
  · have hp' := h.prompts fp keyType hp
    rw [hout] at hp'
    cases hp'
  · intro _ fp _ hup
    rw [hdown] at hup
    cases hup

theorem close_ran (hout : w.out = []) (accepted : Option String) :
    Ran w w.close accepted := by
  have hquiet : Quiet w w.close := by
    have hclear : Quiet w { w.dropSession with
        awaitingHostKeyTrust := false, pendingHostKeyFingerprint := "",
        pendingHostKeyType := "" } := by
      refine ⟨rfl, fun _ _ h => h, fun h => ?_⟩
      cases h
    exact hclear.trans (emit_quiet rfl)
  exact hquiet.ran hout rfl fun h _ => h

theorem resume_ran (a : Answers) (accepted : String) (hout : w.out = []) :
    Ran w (w.resumeAfterHostKeyTrust a accepted) (some accepted) := by
  unfold resumeAfterHostKeyTrust
  split
  · next hdown => exact (Quiet.refl w).ran hout hdown fun h _ => h
  · next hup =>
      simp only []
      generalize hw₀ : { w with
        pendingHostKeyFingerprint := "", pendingHostKeyType := "",
        awaitingHostKeyTrust := false } = w₀
      have hdown : w₀.awaitingHostKeyTrust = false := by rw [← hw₀]
      have hlower : Quiet w w₀ := by
        rw [← hw₀]
        refine ⟨rfl, fun _ _ h => h, fun h => ?_⟩
        cases h
      have hquiet := (emit_quiet (w := w₀)
        (e := .hostKeyTrusted w.pendingHostKeyFingerprint) rfl).trans
        (proceedWithAuth_quiet a (some accepted))
      refine (hlower.trans hquiet).ran hout ?_ fun h hstands => ?_
      · by_contra hraised
        have := hquiet.awaiting (eq_true_of_ne_false hraised)
        rw [hdown] at this
        cases this
      · have hsession := hstands accepted rfl (eq_true_of_ne_false hup)
        have hsession' : w₀.session = .connected accepted := by
          rw [← hw₀]
          exact hsession
        refine proceedWithAuth_trusted a (fun b hb => h b ?_) hsession' (.inr rfl)
        rw [← hw₀] at hb
        exact hb

/-- The fingerprint of the prompt that a slot accepts. -/
def acceptedBy : Slot → Option String
  | .resumeAfterHostKeyTrust accepted => some accepted.fingerprint
  | _ => none

theorem runSlot_ran (a : Answers) (hout : w.out = []) (slot : Slot) :
    Ran w (SshSession.runSlot a w slot) (acceptedBy slot) := by
  cases slot with
  | «open» params => exact open_ran a params hout _
  | resumeAfterHostKeyTrust accepted => exact resume_ran a _ hout
  | close => exact close_ran hout _

end SshSessionWorker

end QuMesh.Ssh

namespace QuMesh.App

open QuMesh.Lib QuMesh.Ssh

namespace World

variable {w w' : World}

/-! ## Prompts that are around -/

def workers (w : World) : List SshSessionWorker := w.sessions.map (·.worker)

def queues (w : World) : List (List Slot) := w.sessions.map (·.queue)

/-- A prompt that is on its way to the user, that the user sees, or that was
accepted and is on its way back. -/
inductive Around (w : World) (p : Prompt) : Prop
  | posted (keyType : String)
      (h : ⟨p.session, p.nth, .hostKeyPromptRequired p.fingerprint keyType⟩ ∈
        w.posted)
  | shown (h : w.host.awaitingHostKeyTrust = true)
      (session : p.session = w.raised.1) (nth : p.nth = w.raised.2)
      (fingerprint : p.fingerprint = w.host.pendingHostKeyFingerprint)
  | accepted {queue : List Slot} (h : queue ∈ w.queues)
      (hp : .resumeAfterHostKeyTrust p ∈ queue)

/-- As long as a prompt is of the last `open`, the flag stands for its key. -/
def Known (workers : List SshSessionWorker) (p : Prompt) : Prop :=
  ∃ worker, workers[p.session]? = some worker ∧ p.nth ≤ worker.opens ∧
    (p.nth = worker.opens → worker.StandsFor p.fingerprint)

structure Gated (w : World) : Prop where
  out : ∀ worker ∈ w.workers, worker.out = []
  trusted : ∀ worker ∈ w.workers, ∀ a ∈ worker.auths, a.Trusted
  known : ∀ p, Around w p → Known w.workers p

/-- An acceptance that the worker runs with its flag up is of the prompt of
the last `open` it ran. -/
def Timely (w : World) : Event → Bool
  | .workerTurn i _ =>
      match w.sessions[i]? with
      | none => true
      | some s =>
          match s.queue with
          | .resumeAfterHostKeyTrust accepted :: _ =>
              !s.worker.awaitingHostKeyTrust ||
                (accepted.session = i && accepted.nth = s.worker.opens)
          | _ => true
  | _ => true

/-! ## What the events do to them -/

theorem mem_modify {α : Type} {f : α → α} {x : α} {l : List α} {i : Nat}
    (h : x ∈ l.modify i f) : x ∈ l ∨ ∃ y ∈ l, x = f y := by
  induction l generalizing i with
  | nil =>
      rw [List.modify_nil] at h
      cases h
  | cons y l ih =>
      cases i with
      | zero =>
          rw [List.modify_zero_cons] at h
          rcases List.mem_cons.mp h with rfl | h
          · exact .inr ⟨y, List.mem_cons_self, rfl⟩
          · exact .inl (List.mem_cons_of_mem y h)
      | succ i =>
          rw [List.modify_succ_cons] at h
          rcases List.mem_cons.mp h with rfl | h
          · exact .inl List.mem_cons_self
          · rcases ih h with h | ⟨z, hz, rfl⟩
            · exact .inl (List.mem_cons_of_mem y h)
            · exact .inr ⟨z, List.mem_cons_of_mem y hz, rfl⟩

/-- A session changes, and its worker does not. -/
theorem workers_modify {sessions : List SshSession} {i : Nat}
    {f : SshSession → SshSession} (hf : ∀ s, (f s).worker = s.worker) :
    (sessions.modify i f).map (·.worker) = sessions.map (·.worker) := by
  apply List.ext_getElem?
  intro j
  rw [List.getElem?_map, List.getElem?_map, List.getElem?_modify]
  cases sessions[j]? with
  | none => rfl
  | some s =>
      show some (if i = j then f s else s).worker = some s.worker
      split
      · rw [hf]
      · rfl

/-- A session changes, and its queue does not. -/
theorem queues_modify {sessions : List SshSession} {i : Nat}
    {f : SshSession → SshSession} (hf : ∀ s, (f s).queue = s.queue) :
    (sessions.modify i f).map (·.queue) = sessions.map (·.queue) := by
  apply List.ext_getElem?
  intro j
  rw [List.getElem?_map, List.getElem?_map, List.getElem?_modify]
  cases sessions[j]? with
  | none => rfl
  | some s =>
      show some (if i = j then f s else s).queue = some s.queue
      split
      · rw [hf]
      · rfl

/-- The same workers, and no prompt that was not around. -/
structure Keeps (w w' : World) : Prop where
  workers : w'.workers = w.workers
  around : ∀ p, Around w' p → Around w p

theorem Keeps.refl (w : World) : Keeps w w := ⟨rfl, fun _ h => h⟩

theorem Keeps.trans {u : World} (h : Keeps w w') (h' : Keeps w' u) :
    Keeps w u :=
  ⟨h'.workers.trans h.workers, fun p hp => h.around p (h'.around p hp)⟩

theorem Keeps.gated (h : Keeps w w') (hw : w.Gated) : w'.Gated where
  out := h.workers ▸ hw.out
  trusted := h.workers ▸ hw.trusted
  known p hp := by
    rw [h.workers]
    exact hw.known p (h.around p hp)

theorem post_workers (i : Nat) (slot : Slot) :
    (w.post i slot).workers = w.workers :=
  workers_modify fun _ => rfl

theorem around_post {i : Nat} {slot : Slot} {p : Prompt}
    (h : Around (w.post i slot) p) :
    Around w p ∨ slot = .resumeAfterHostKeyTrust p := by
  cases h with
  | posted keyType h => exact .inl (.posted keyType h)
  | shown h hsession hnth hfp => exact .inl (.shown h hsession hnth hfp)
  | accepted h hp =>
      obtain ⟨s', hs', rfl⟩ := List.mem_map.mp h
      rcases mem_modify hs' with hs | ⟨s, hs, rfl⟩
      · exact .inl (.accepted (List.mem_map.mpr ⟨s', hs, rfl⟩) hp)
      · rcases List.mem_append.mp hp with hp | hp
        · exact .inl (.accepted (List.mem_map.mpr ⟨s, hs, rfl⟩) hp)
        · exact .inr (List.mem_singleton.mp hp).symm

theorem post_keeps {i : Nat} {slot : Slot}
    (hslot : ∀ p, slot ≠ .resumeAfterHostKeyTrust p) :
    Keeps w (w.post i slot) :=
  ⟨post_workers i slot, fun p h => (around_post h).resolve_right (hslot p)⟩

/-- The sessions change in nothing that matters to prompts. -/
theorem sessions_keeps {sessions : List SshSession}
    (hworkers : sessions.map (·.worker) = w.workers)
    (hqueues : sessions.map (·.queue) = w.queues) :
    Keeps w { w with sessions } := by
  refine ⟨hworkers, fun p h => ?_⟩
  cases h with
  | posted keyType h => exact .posted keyType h
  | shown h hsession hnth hfp => exact .shown h hsession hnth hfp
  | accepted h hp =>
      have h' : _ ∈ sessions.map (·.queue) := h
      rw [hqueues] at h'
      exact .accepted h' hp

theorem modify_keeps {i : Nat} {f : SshSession → SshSession}
    (hworker : ∀ s, (f s).worker = s.worker)
    (hqueue : ∀ s, (f s).queue = s.queue) :
    Keeps w { w with sessions := w.sessions.modify i f } :=
  sessions_keeps (workers_modify hworker) (queues_modify hqueue)

/-- The host changes, and shows no other prompt. -/
theorem host_keeps {host : SshTunnelHost}
    (h : host.awaitingHostKeyTrust = true →
      w.host.awaitingHostKeyTrust = true ∧
        host.pendingHostKeyFingerprint = w.host.pendingHostKeyFingerprint) :
    Keeps w { w with host } := by
  refine ⟨rfl, fun p hp => ?_⟩
  cases hp with
  | posted keyType hp => exact .posted keyType hp
  | shown hup hsession hnth hfp =>
      obtain ⟨hup', hfp'⟩ := h hup
      exact .shown hup' hsession hnth (hfp.trans hfp')
  | accepted hqueue hp => exact .accepted hqueue hp

theorem crashed_keeps : Keeps w { w with crashed := true } := by
  refine ⟨rfl, fun p hp => ?_⟩
  cases hp with
  | posted keyType hp => exact .posted keyType hp
  | shown hup hsession hnth hfp => exact .shown hup hsession hnth hfp
  | accepted hqueue hp => exact .accepted hqueue hp

theorem disable_awaiting (h : SshTunnelHost) :
    h.disable.awaitingHostKeyTrust = false := by
  unfold SshTunnelHost.disable
  simp only []
  cases hup : h.awaitingHostKeyTrust with
  | true =>
      simp only [if_true]
      split
      · rfl
      · rfl
  | false =>
      simp only [Bool.false_eq_true, if_false]
      split
      · rfl
      · rfl

/-- A session that was just made, with nothing to run and nothing run. -/
theorem append_gated (hw : w.Gated) {host : SshTunnelHost}
    (h : host.awaitingHostKeyTrust = true →
      w.host.awaitingHostKeyTrust = true ∧
        host.pendingHostKeyFingerprint = w.host.pendingHostKeyFingerprint) :
    Gated { w with host, sessions := w.sessions ++ [({} : SshSession)] } := by
  have hworkers : workers { w with
      host, sessions := w.sessions ++ [({} : SshSession)] } =
        w.workers ++ [({} : SshSessionWorker)] := List.map_append
  refine ⟨?_, ?_, fun p hp => ?_⟩
  · rw [hworkers]
    intro worker hworker
    rcases List.mem_append.mp hworker with hworker | hworker
    · exact hw.out worker hworker
    · rw [List.mem_singleton.mp hworker]
  · rw [hworkers]
    intro worker hworker a ha
    rcases List.mem_append.mp hworker with hworker | hworker
    · exact hw.trusted worker hworker a ha
    · rw [List.mem_singleton.mp hworker] at ha
      cases ha
  · have hold : Around w p := by
      cases hp with
      | posted keyType hp => exact .posted keyType hp
      | shown hup hsession hnth hfp =>
          obtain ⟨hup', hfp'⟩ := h hup
          exact .shown hup' hsession hnth (hfp.trans hfp')
      | accepted hqueue hp =>
          have hqueue' : _ ∈ (w.sessions ++ [({} : SshSession)]).map (·.queue) :=
            hqueue
          rw [List.map_append] at hqueue'
          rcases List.mem_append.mp hqueue' with hqueue' | hqueue'
          · exact .accepted hqueue' hp
          · cases List.mem_singleton.mp hqueue'
            cases hp
    obtain ⟨worker, hworker, hnth, hstands⟩ := hw.known p hold
    refine ⟨worker, ?_, hnth, hstands⟩
    rw [hworkers, List.getElem?_append_left]
    · exact hworker
    · exact (List.getElem?_eq_some_iff.mp hworker).1

/-! ## One event -/

theorem setConfig_gated (hw : w.Gated) (cfg : Config) :
    (w.setConfig cfg).Gated := by
  unfold setConfig
  split
  · have hdisable (u : World) : Keeps u { u with host := u.host.disable } :=
      host_keeps fun hup => by
        rw [disable_awaiting] at hup
        cases hup
    simp only []
    split
    · exact (hdisable w).gated hw
    · next i _ =>
        have hclose : Keeps w (w.post i .close) := post_keeps (fun _ h => by cases h)
        have hgive : Keeps (w.post i .close) _ :=
          modify_keeps (i := i) (f := ({ · with abandoned := true }))
            (fun _ => rfl) (fun _ => rfl)
        exact ((hclose.trans hgive).trans (hdisable _)).gated hw
  · simp only []
    split
    · have hhost : Keeps w { w with
          host := { w.host with enabled := true, jumpHost := cfg.host } } :=
        host_keeps fun hup => ⟨hup, rfl⟩
      exact (hhost.trans (post_keeps (fun _ h => by cases h))).gated hw
    · exact (post_keeps (fun _ h => by cases h)).gated (append_gated hw fun hup => ⟨hup, rfl⟩)

theorem trustPendingHostKey_keeps (persist : Bool) :
    Keeps w (w.trustPendingHostKey persist) := by
  unfold trustPendingHostKey
  split
  · next i hup _ =>
      simp only []
      -- the prompt that was shown is now accepted
      have haccept : Keeps w ({ w with
          host := (w.host.clearPrompt.emit .pendingHostKeyChanged).emit
            .awaitingHostKeyTrustChanged }.post i (.resumeAfterHostKeyTrust
              ⟨w.raised.1, w.raised.2, w.host.pendingHostKeyFingerprint⟩)) := by
        refine ⟨post_workers _ _, fun p hp => ?_⟩
        rcases around_post hp with hp | hp
        · refine (host_keeps fun hup => ?_).around p hp
          cases hup
        · cases hp
          exact .shown hup rfl rfl rfl
      split
      · exact haccept.trans (host_keeps fun hup => ⟨hup, rfl⟩)
      · exact haccept
  · exact .refl w

theorem handle_keeps (p : Posted) (posted : List Posted)
    (hposted : w.posted = p :: posted) :
    Keeps w ({ w with posted }.handle p) := by
  have hpop : Keeps w { w with posted } := by
    refine ⟨rfl, fun q hq => ?_⟩
    cases hq with
    | posted keyType h =>
        refine .posted keyType ?_
        rw [hposted]
        exact List.mem_cons_of_mem p h
    | shown h hsession hnth hfp => exact .shown h hsession hnth hfp
    | accepted h hp => exact .accepted h hp
  unfold handle
  split
  · have hstate (s : State) : Keeps w { w with
        posted, sessions := w.sessions.modify p.session ({ · with state := s }) } :=
      hpop.trans (modify_keeps (fun _ => rfl) fun _ => rfl)
    simp only []
    split
    · exact (hstate .failed).trans crashed_keeps
    · exact (hstate _).trans (host_keeps fun hup => ⟨hup, rfl⟩)
  · exact hpop.trans (modify_keeps (fun _ => rfl) fun _ => rfl)
  · next fp keyType hsignal =>
      refine ⟨rfl, fun q hq => ?_⟩
      cases hq with
      | posted keyType h => exact hpop.around q (.posted keyType h)
      | shown h hsession hnth hfp =>
          -- the prompt was the head of the queue
          refine .posted keyType ?_
          rw [hposted]
          refine List.mem_cons.mpr (.inl ?_)
          obtain ⟨session, nth, signal⟩ := p
          obtain ⟨qsession, qnth, qfp⟩ := q
          cases hsession
          cases hnth
          cases hfp
          cases hsignal
          rfl
      | accepted h hp => exact hpop.around q (.accepted h hp)
  · exact hpop
  · exact hpop

theorem deliver_keeps : Keeps w w.deliver := by
  unfold deliver
  split
  · exact .refl w
  · next p posted hposted =>
      simp only []
      split
      · exact handle_keeps p posted hposted
      · refine ⟨rfl, fun q hq => ?_⟩
        cases hq with
        | posted keyType h =>
            refine .posted keyType ?_
            rw [hposted]
            exact List.mem_cons_of_mem p h
        | shown h hsession hnth hfp => exact .shown h hsession hnth hfp
        | accepted h hp => exact .accepted h hp

theorem destroySession_keeps (i : Nat) : Keeps w (w.destroySession i) := by
  refine modify_keeps (fun s => ?_) fun s => ?_
  · split
    · rfl
    · rfl
  · split
    · rfl
    · rfl

/-- A slot that runs in time accepts only what the flag stands for. -/
theorem accepted_standsFor (hw : w.Gated) {i : Nat} {a : Answers}
    {s : SshSession} (hs : w.sessions[i]? = some s) {slot : Slot}
    {queue : List Slot} (hqueue : s.queue = slot :: queue)
    (htimely : w.Timely (.workerTurn i a) = true) :
    ∀ fp, SshSessionWorker.acceptedBy slot = some fp → s.worker.StandsFor fp := by
  intro fp hfp hup
  cases slot with
  | «open» params => cases hfp
  | close => cases hfp
  | resumeAfterHostKeyTrust accepted =>
      cases hfp
      have hmem : s ∈ w.sessions := List.mem_of_getElem? hs
      have haround : Around w accepted := by
        refine .accepted (List.mem_map.mpr ⟨s, hmem, rfl⟩) ?_
        rw [hqueue]
        exact List.mem_cons_self
      simp only [Timely, hs, hqueue, hup, Bool.not_true, Bool.false_or] at htimely
      obtain ⟨hsession, hnth⟩ := Bool.and_eq_true_iff.mp htimely
      obtain ⟨worker, hworker, -, hstands⟩ := hw.known accepted haround
      rw [of_decide_eq_true hsession, workers, List.getElem?_map, hs] at hworker
      cases hworker
      exact hstands (of_decide_eq_true hnth) hup

/-- What is known of a prompt is known of it after the worker's turn. -/
theorem Known.set {workers : List SshSessionWorker} {p : Prompt}
    (h : Known workers p) {i : Nat} {worker u : SshSessionWorker}
    (hworker : workers[i]? = some worker) {accepted : Option String}
    (hran : worker.Ran u accepted) :
    Known (workers.set i { u with out := [] }) p := by
  obtain ⟨v, hv, hnth, hstands⟩ := h
  have hlength : i < workers.length := (List.getElem?_eq_some_iff.mp hworker).1
  have hopens := hran.opens
  by_cases hi : i = p.session
  · subst hi
    rw [hworker] at hv
    cases hv
    refine ⟨_, List.getElem?_set_self hlength, Nat.le_trans hnth hopens, ?_⟩
    intro heq
    have heq' : p.nth = u.opens := heq
    exact hran.standsFor (by omega) _ (hstands (by omega))
  · refine ⟨v, ?_, hnth, hstands⟩
    rw [List.getElem?_set_ne hi]
    exact hv

theorem workerTurn_gated (hw : w.Gated) (i : Nat) (a : Answers)
    (htimely : w.Timely (.workerTurn i a) = true) :
    (w.workerTurn i a).Gated := by
  unfold workerTurn
  split
  · exact hw
  · next s hs =>
      split
      · next slot queue _ hqueue =>
          simp only []
          have hmem : s ∈ w.sessions := List.mem_of_getElem? hs
          have hworker : w.workers[i]? = some s.worker := by
            rw [workers, List.getElem?_map, hs]
            rfl
          have hran := SshSessionWorker.runSlot_ran a
            (hw.out _ (List.mem_of_getElem? hworker)) slot
          have hstands := accepted_standsFor hw hs hqueue htimely
          generalize SshSession.runSlot a s.worker slot = u at hran
          have hworkers : workers { w with
              sessions := w.sessions.set i
                { s with worker := { u with out := [] }, queue },
              posted := w.posted ++ u.out.map (⟨i, u.opens, ·⟩) } =
                w.workers.set i { u with out := [] } := List.map_set
          refine ⟨?_, ?_, fun p hp => ?_⟩
          · rw [hworkers]
            intro worker hmem'
            rcases List.mem_or_eq_of_mem_set hmem' with hmem' | rfl
            · exact hw.out worker hmem'
            · rfl
          · rw [hworkers]
            intro worker hmem'
            rcases List.mem_or_eq_of_mem_set hmem' with hmem' | rfl
            · exact hw.trusted worker hmem'
            · exact hran.auths
                (hw.trusted _ (List.mem_of_getElem? hworker)) hstands
          · rw [hworkers]
            have hold (h : Around w p) := (hw.known p h).set hworker hran
            cases hp with
            | posted keyType h =>
                rcases List.mem_append.mp h with h | h
                · exact hold (.posted keyType h)
                · -- a prompt of this turn
                  obtain ⟨signal, hsignal, heq⟩ := List.mem_map.mp h
                  obtain ⟨psession, pnth, pfp⟩ := p
                  cases heq
                  obtain ⟨-, hfp⟩ := hran.prompts _ _ hsignal
                  refine ⟨_, List.getElem?_set_self ?_, Nat.le_refl _, fun _ => hfp⟩
                  exact (List.getElem?_eq_some_iff.mp hworker).1
            | shown h hsession hnth hfp => exact hold (.shown h hsession hnth hfp)
            | accepted h hp =>
                obtain ⟨t, ht, rfl⟩ := List.mem_map.mp h
                rcases List.mem_or_eq_of_mem_set ht with ht | rfl
                · exact hold (.accepted (List.mem_map.mpr ⟨t, ht, rfl⟩) hp)
                · refine hold (.accepted (List.mem_map.mpr ⟨s, hmem, rfl⟩) ?_)
                  rw [hqueue]
                  exact List.mem_cons_of_mem slot hp
      · exact hw

theorem step_gated (hw : w.Gated) (e : Event) (htimely : w.Timely e = true) :
    (w.step e).Gated := by
  unfold step
  split
  · exact hw
  · split
    · exact setConfig_gated hw _
    · exact (trustPendingHostKey_keeps _).gated hw
    · exact workerTurn_gated hw _ _ htimely
    · exact deliver_keeps.gated hw
    · exact (destroySession_keeps _).gated hw

/-! ## Runs -/

theorem gated_fresh : ({} : World).Gated := by
  refine ⟨fun _ h => ?_, fun _ h => ?_, fun p hp => ?_⟩
  · cases h
  · cases h
  · cases hp with
    | posted keyType h => cases h
    | shown h => cases h
    | accepted h => cases h

/-- In a run whose acceptances are timely the worker authenticates only where
the key of the host is pinned or was accepted. -/
theorem auth_trusted (es : List Event)
    (htimely : Guarded step (fun _ w e => w.Timely e = true) {} es) :
    ∀ s ∈ (run step {} es).sessions, ∀ a ∈ s.worker.auths, a.Trusted := by
  have hgated := htimely.invariant Gated
    (fun _ w e hw he => step_gated hw e he) gated_fresh
  intro s hs
  exact hgated.trusted s.worker (List.mem_map.mpr ⟨s, hs, rfl⟩)

private def acceptance : List Event :=
  [.setConfig { enabled := true, host := "jump" },
    .workerTurn 0 { hostKey := [0x3F, 0xA0] }, .deliver, .deliver, .deliver,
    .trustPendingHostKey true, .workerTurn 0 {}]

/-- A prompt is accepted, and the key is that of the session. -/
theorem auth_trusted_prompt :
    (run step {} acceptance).sessions.map (·.worker.auths.length) = [1] ∧
      ∀ s ∈ (run step {} acceptance).sessions, ∀ a ∈ s.worker.auths,
        a.Trusted :=
  ⟨by decide, auth_trusted acceptance (by decide)⟩

/-- Another jump host is set while the prompt for the first one is up, and its
key is let through by the acceptance of the other. -/
theorem auth_trusted_stale :
    ¬∀ es : List Event, ∀ s ∈ (run step {} es).sessions,
      ∀ a ∈ s.worker.auths, a.Trusted := by
  intro h
  have hrun := h [.setConfig { enabled := true, host := "one" },
    .workerTurn 0 { hostKey := [1] }, .deliver, .deliver, .deliver,
    .setConfig { enabled := true, host := "two" },
    .workerTurn 0 { hostKey := [2] }, .trustPendingHostKey false,
    .workerTurn 0 {}]
  revert hrun
  decide

end World

end QuMesh.App
