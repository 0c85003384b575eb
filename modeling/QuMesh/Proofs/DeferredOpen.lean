import QuMesh.Lib.Run
import QuMesh.Proofs.ControllerSteps

/-!
# A deferred open

An `open` that has to wait for the SSH tunnel leaves a flag, and the handler of
`connectedChanged` takes it up when the session is connected. Nothing else
looks at the flag. `close` does not take it back, so the tunnel opens the
controller again behind it, `deferred_open_after_close`; and where the session
fails instead, or is disabled, nobody tells the controller, which stays in
`Connecting`.

Where no `close` comes while an open waits, a closed controller has no client,
no flag and no wired client, which is `Closed`, and only `open` ends that.
-/

namespace QuMesh.App

open QuMesh.Lib
open QuMesh.Redir (Client Effect Env)

/-- The session that is held has failed. -/
def World.failed (w : World) : Bool :=
  match w.host.session with
  | none => false
  | some i => (w.sessions[i]?).any fun s => s.state = .failed

/-- A session that has failed is not connected. -/
theorem World.not_connected_of_failed {w : World} (h : w.failed = true) :
    w.isConnected = false := by
  unfold World.failed at h
  unfold World.isConnected
  cases hi : w.host.session with
  | none => rfl
  | some i =>
      cases hs : w.sessions[i]? with
      | none => simp [hs]
      | some s =>
          simp only [hi, hs, Option.any_some, decide_eq_true_iff] at h
          simp [hs, h]

/-- The tunnel is only disabled together with its session. -/
theorem World.enabled_step (w : World) (e : World.Event)
    (h : (w.step e).host.enabled = false) :
    w.host.enabled = false ∨ (w.step e).host.session = none := by
  unfold World.step at h ⊢
  split at h
  · exact .inl h
  · next hrun =>
    rw [if_neg hrun]
    cases e with
    | setConfig cfg =>
        dsimp only at h ⊢
        rw [World.setConfig] at h ⊢
        split at h
        · next hoff =>
          rw [if_pos hoff]
          exact .inr (SshTunnelHost.disable_session _)
        · dsimp only at h
          split at h <;> cases h
    | trustPendingHostKey persist =>
        left
        dsimp only [World.trustPendingHostKey] at h
        split at h
        · split at h <;> exact h
        · exact h
    | workerTurn i a =>
        left
        dsimp only [World.workerTurn] at h
        split at h
        · exact h
        · split at h <;> exact h
    | deliver =>
        left
        dsimp only [World.deliver] at h
        split at h
        · exact h
        · split at h
          · rw [World.handle] at h
            split at h
            · dsimp only at h
              split at h <;> exact h
            all_goals exact h
          · exact h
    | destroySession i => exact .inl h

namespace Controller

variable {make : Make} {env : Env} {c d : Controller} {n : Nat}

/-! ## What is promised -/

def sshEnabled (c : Controller) : Bool := c.sshHost.any (·.host.enabled)

def sshFailed (c : Controller) : Bool := c.sshHost.any World.failed

/-- The SSH session fails in this step, or it is disabled in it, whether it
had failed before or not. -/
def Lapses (make : Make) (env : Env) (c : Controller) (e : Event) : Prop :=
  (c.sshFailed = false ∧ (step make env c e).sshFailed = true) ∨
    (c.sshEnabled = true ∧ (step make env c e).sshEnabled = false)

/-- Behind a `close` of a program that runs, and before the next `open` of the
user, no client is made and the controller is `Disconnected`. -/
def Final (make : Make) (env : Env) (es : List Event) : Prop :=
  ∀ pre mid, pre ++ .close :: mid <+: es → .open ∉ mid →
    (run (step make env) {} pre).crashed = false →
    (run (step make env) {} (pre ++ .close :: mid)).peers.length =
        (run (step make env) {} pre).peers.length ∧
      (run (step make env) {} (pre ++ .close :: mid)).state = .disconnected

/-- Where the SSH session fails or is disabled while an open waits for it, the
controller is not left in `Connecting`. -/
def Resolves (make : Make) (env : Env) (es : List Event) : Prop :=
  ∀ x ∈ trail (step make env) {} es, x.1.openDeferred = true →
    Lapses make env x.1 x.2 → (step make env x.1 x.2).state ≠ .connecting

/-- No `close` comes while an open waits, and an open that waits in
`Connecting` does not lose its tunnel. -/
def Undisturbed (make : Make) (env : Env) (c : Controller) (e : Event) : Prop :=
  c.openDeferred = true →
    e ≠ .close ∧ (Lapses make env c e → c.state ≠ .connecting)

instance (c : Controller) (e : Event) : Decidable (Lapses make env c e) :=
  inferInstanceAs (Decidable (_ ∨ _))

instance (c : Controller) (e : Event) : Decidable (Undisturbed make env c e) :=
  inferInstanceAs (Decidable (_ → _))

/-! ## A closed controller -/

structure Closed (n : Nat) (c : Controller) : Prop where
  state : c.state = .disconnected
  client : c.client = none
  deferred : c.openDeferred = false
  length : c.peers.length = n
  owned : c.Owned

theorem Closed.stays (h : Closed n c) (hs : Stays c d) (hstate : d.state = c.state) :
    Closed n d where
  state := hstate.trans h.state
  client := hs.client.trans h.client
  deferred := hs.deferred.trans h.deferred
  length := hs.length.trans h.length
  owned := h.owned.stays hs

theorem Closed.beside (h : Closed n c) (hb : Beside c d) : Closed n d where
  state := hb.state.trans h.state
  client := hb.client.trans h.client
  deferred := hb.deferred.trans h.deferred
  length := by rw [hb.peers, h.length]
  owned := h.owned.beside hb

theorem Closed.of_close (hc : c.Owned) (hdeferred : c.openDeferred = false) :
    Closed c.peers.length (c.close make) := by
  obtain ⟨howned, hclient, hflag, -, hlength⟩ := teardown_spec make hc
  exact ⟨rfl, hclient, hflag.trans hdeferred, hlength, howned⟩

/-- The host's signals do not open what waits for nothing. -/
theorem Closed.ssh (h : Closed n c) (e : World.Event) : Closed n (c.ssh make e) := by
  rw [Controller.ssh]
  split
  · exact h
  · next t ht =>
    dsimp only
    generalize (hostAfter e t).host.out = out
    have hput : Closed n { c with sshHost := some (hostAfter e t) } :=
      { h with }
    generalize { c with sshHost := some (hostAfter e t) } = b at hput
    induction out generalizing b with
    | nil => exact hput
    | cons s out ih =>
        refine ih _ ?_
        cases s with
        | connectedChanged =>
            rw [onHostSignal, hput.deferred]
            exact hput
        | _ => exact { hput with }

theorem Closed.step (h : Closed n c) {e : Event} (he : e ≠ .open) :
    Closed n (step make env c e) := by
  rw [Controller.step]
  split
  · exact h
  · cases e with
    | setSshConfig cfg =>
        rw [handle]
        obtain ⟨b, s, hbeside, -, heq⟩ := setSshConfig_cases cfg c
        rw [heq]
        exact { (h.beside hbeside).ssh (.setConfig cfg) with }
    | trustPendingSshHostKey persist =>
        rw [handle]
        rcases trustPendingSshHostKey_cases persist c with hsame | ⟨b, hbeside, -, heq⟩
        · rw [hsame]
          exact h
        · rw [heq]
          exact (h.beside hbeside).ssh _
    | «open» => exact absurd rfl he
    | close =>
        have hclosed : Closed c.peers.length (c.close make) :=
          .of_close h.owned h.deferred
        rw [h.length] at hclosed
        exact hclosed
    | trustPendingCert persist =>
        rw [handle, trustPendingCert, h.client]
        exact h
    | ssh e =>
        rw [handle]
        split
        · exact h.ssh e
        · exact h
    | client i e =>
        rw [handle]
        split
        · exact h.stays (.call _ c) (call_mute (h.owned.mute h.client i) _)
        · exact h
    | established i =>
        rw [handle, sessionHeard_mute (h.owned.mute h.client i)]
        exact h
    | sessionClosed i reason =>
        rw [handle, sessionHeard_mute (h.owned.mute h.client i)]
        exact h
    | destroy i => exact h.stays (destroy_stays i c) rfl
    | _ => exact { h with }

theorem closed_run {es : List Event} (h : Closed n c) (hes : .open ∉ es) :
    Closed n (run (step make env) c es) := by
  have hguard : Guarded (step make env) (fun _ _ e => e ≠ .open) c es :=
    .of_forall [] c fun e he heq => hes (heq ▸ he)
  exact hguard.invariant (Closed n) (fun _ _ _ hc he => hc.step he) h

/-! ## A tunnel that is lost -/

theorem onHostSignal_lost (h : c.sshConnected = false) (s : HostSignal) :
    (onHostSignal make c s).state = c.state := by
  cases s with
  | connectedChanged =>
      rw [onHostSignal, h, Bool.and_false]
      rfl
  | _ => rfl

theorem ssh_sshHost (hc : c.Owned) {t : World} (ht : c.sshHost = some t)
    (e : World.Event) : (c.ssh make e).sshHost = some (hostAfter e t) := by
  rw [ssh, ht]
  dsimp only
  generalize (hostAfter e t).host.out = out
  have hput : Owned { c with sshHost := some (hostAfter e t) } := hc
  have hhost : ({ c with sshHost := some (hostAfter e t) } : Controller).sshHost =
      some (hostAfter e t) := rfl
  generalize { c with sshHost := some (hostAfter e t) } = b at hput hhost ⊢
  induction out generalizing b with
  | nil => exact hhost
  | cons s out ih =>
      exact ih _ (onHostSignal_owned hput s) ((onHostSignal_sshHost hput s).trans hhost)

/-- A host that is not connected changes nothing of the controller. -/
theorem ssh_lost (hc : c.Owned) {t : World} (ht : c.sshHost = some t)
    {e : World.Event} (hlost : (hostAfter e t).isConnected = false) :
    (c.ssh make e).state = c.state := by
  rw [ssh, ht]
  dsimp only
  generalize (hostAfter e t).host.out = out
  have hput : Owned { c with sshHost := some (hostAfter e t) } := hc
  have hhost : ({ c with sshHost := some (hostAfter e t) } : Controller).sshHost =
      some (hostAfter e t) := rfl
  have hstate : ({ c with sshHost := some (hostAfter e t) } : Controller).state =
      c.state := rfl
  generalize { c with sshHost := some (hostAfter e t) } = b at hput hhost hstate ⊢
  induction out generalizing b with
  | nil => exact hstate
  | cons s out ih =>
      have hidle : b.sshConnected = false := by
        rw [sshConnected, hhost]
        exact hlost
      exact ih _ (onHostSignal_owned hput s)
        ((onHostSignal_sshHost hput s).trans hhost)
        ((onHostSignal_lost hidle s).trans hstate)

theorem ssh_lapses (hc : c.Owned) {t : World} (ht : c.sshHost = some t)
    {e : World.Event}
    (h : (c.ssh make e).sshFailed = true ∨
      (t.host.enabled = true ∧ (c.ssh make e).sshEnabled = false)) :
    (c.ssh make e).state = c.state := by
  refine ssh_lost hc ht ?_
  rw [sshFailed, sshEnabled, ssh_sshHost hc ht, Option.any_some,
    Option.any_some] at h
  rcases h with hfailed | ⟨hbefore, hdisabled⟩
  · exact World.not_connected_of_failed hfailed
  · rcases World.enabled_step _ e hdisabled with hoff | hnone
    · rw [hbefore] at hoff
      cases hoff
    · rw [World.isConnected, hostAfter, hnone]

/-- What loses the tunnel leaves the controller as it is. -/
theorem lapse_state (hc : c.Owned) {e : Event} (h : Lapses make env c e) :
    (step make env c e).state = c.state := by
  have hsame : (step make env c e).sshHost ≠ c.sshHost := by
    intro heq
    rw [Lapses, sshFailed, sshFailed, sshEnabled, sshEnabled, heq] at h
    rcases h with ⟨hbefore, hafter⟩ | ⟨hbefore, hafter⟩ <;>
      · rw [hbefore] at hafter
        cases hafter
  -- the tunnel's host changes only with what the tunnel does
  have hbeside : ∀ b, Beside c b → b.sshHost = some (c.sshHost.getD {}) → ∀ e,
      (c.sshFailed = false ∧ (b.ssh make e).sshFailed = true) ∨
        (c.sshEnabled = true ∧ (b.ssh make e).sshEnabled = false) →
      (b.ssh make e).state = c.state := by
    intro b hb hhost e hlapse
    rw [← hb.state]
    refine ssh_lapses (hc.beside hb) hhost (hlapse.imp And.right ?_)
    refine And.imp_left fun hon => ?_
    rw [sshEnabled] at hon
    cases ht : c.sshHost with
    | none =>
        rw [ht] at hon
        cases hon
    | some t =>
        rw [ht] at hon
        exact hon
  rw [Lapses] at h
  rw [step] at h hsame ⊢
  split at hsame
  · exact absurd rfl hsame
  · next hrun =>
    rw [if_neg hrun] at h ⊢
    have hhost (b : Controller) (hb : b.sshHost = c.sshHost) (e : World.Event)
        (hchange : (b.ssh make e).sshHost ≠ c.sshHost) :
        b.sshHost = some (c.sshHost.getD {}) := by
      cases ht : c.sshHost with
      | none =>
          rw [ssh, hb, ht] at hchange
          exact absurd (hb.trans ht) hchange
      | some t => exact hb.trans ht
    cases e with
    | setSshConfig cfg =>
        rw [handle] at h ⊢
        obtain ⟨b, s, hb, hhost, heq⟩ := setSshConfig_cases cfg c
        rw [heq] at h ⊢
        exact hbeside b hb hhost _ h
    | trustPendingSshHostKey persist =>
        rw [handle] at h hsame ⊢
        rcases trustPendingSshHostKey_cases persist c with heq | ⟨b, hb, hsshHost, heq⟩
        · rw [heq] at hsame
          exact absurd rfl hsame
        · rw [heq] at h hsame ⊢
          exact hbeside b hb (hhost b hsshHost _ hsame) _ h
    | ssh e =>
        rw [handle] at h hsame ⊢
        split at hsame
        · next hturn =>
          rw [if_pos hturn] at h ⊢
          exact hbeside c (.refl c) (hhost c rfl e hsame) e h
        · exact absurd rfl hsame
    | «open» => exact absurd (open_sshHost hc) hsame
    | close => exact absurd (teardown_spec make hc).2.2.2.1 hsame
    | trustPendingCert persist =>
        rw [handle] at hsame
        rcases trustPendingCert_cases persist c with heq | ⟨_, _, _, _, _, hstays⟩
        · exact absurd (congrArg sshHost heq) hsame
        · exact absurd hstays.sshHost hsame
    | client i e =>
        rw [handle] at hsame
        split at hsame
        · exact absurd (Stays.call _ c).sshHost hsame
        · exact absurd rfl hsame
    | established i =>
        rw [handle] at hsame
        split at hsame <;> exact absurd rfl hsame
    | sessionClosed i reason =>
        rw [handle] at hsame
        split at hsame
        · exact absurd (Stays.onClosed reason c).sshHost hsame
        · exact absurd rfl hsame
    | _ => exact absurd rfl hsame

/-! ## Runs -/

theorem run_owned (make : Make) (env : Env) (es : List Event) :
    (run (step make env) {} es).Owned :=
  history (fun _ c => Owned c) (fun _ _ e hc => step_owned hc e) es HeldBy.nil

/-- An open that is not disturbed while it waits: a `close` is the end of it,
and where the tunnel is lost the controller is not left in `Connecting`. -/
theorem deferred_open_settles (make : Make) (env : Env) (es : List Event)
    (h : ∀ x ∈ trail (step make env) {} es, Undisturbed make env x.1 x.2) :
    Final make env es ∧ Resolves make env es := by
  refine ⟨?_, ?_⟩
  · intro pre mid hprefix hmid hrun
    obtain ⟨post, rfl⟩ := hprefix
    have howned := run_owned make env pre
    rw [run_append, run_cons]
    rw [List.append_assoc, trail_append, List.cons_append, trail_cons] at h
    generalize run (step make env) {} pre = c at howned hrun h ⊢
    -- no open waits when `close` comes
    have hdeferred : c.openDeferred = false := by
      have hundisturbed := h (c, .close)
        (List.mem_append_right _ List.mem_cons_self)
      cases hflag : c.openDeferred with
      | false => rfl
      | true => exact absurd rfl (hundisturbed hflag).1
    have hstep : step make env c .close = c.close make := by
      rw [step, hrun]
      rfl
    have hclosed : Closed c.peers.length (step make env c .close) := by
      rw [hstep]
      exact Closed.of_close howned hdeferred
    have hend : Closed c.peers.length (run (step make env) _ mid) :=
      closed_run hclosed hmid
    exact ⟨hend.length, hend.state⟩
  · intro x hx hflag hlapse
    obtain ⟨pre, hpre⟩ : ∃ pre, x.1 = run (step make env) {} pre := trail_run hx
    have howned := run_owned make env pre
    rw [← hpre] at howned
    rw [lapse_state howned hlapse]
    exact (h x hx hflag).2 hlapse

/-- An SSH library that works, and an AMT that takes what is written. -/
private def obliging : Env where
  write _ bytes := bytes.length
  errorString _ := ""
  md5Hex := id
  sha256 := id
  makeClientNonce _ := []

/-- The user opens while the tunnel is on its way. -/
private def waiting : List Event :=
  [.setHost "amt", .setIsoPath "boot.iso",
    .setSshConfig { enabled := true, host := "jump",
                    trustedHostKeyFingerprints := ["3F:A0"] },
    .open]

/-- The SSH session connects. -/
private def tunnelled : List Event :=
  [.ssh (.workerTurn 0 { hostKey := [0x3F, 0xA0] }), .ssh .deliver,
    .ssh .deliver, .ssh .deliver, .ssh .deliver]

/-- Its lookup fails. -/
private def unresolved : List Event :=
  [.ssh (.workerTurn 0 { lookup := .notFound }), .ssh .deliver, .ssh .deliver,
    .ssh .deliver]

theorem deferred_open_settles_tunnel :
    (run (step KvmController obliging) {} (waiting ++ tunnelled)).peers.length = 1 ∧
      Final KvmController obliging (waiting ++ tunnelled ++ [.close]) ∧
      Resolves KvmController obliging (waiting ++ tunnelled ++ [.close]) :=
  ⟨by decide, deferred_open_settles _ _ _ (by decide)⟩

/-- Some run has a `close` behind which a client is made. -/
private theorem not_final {make : Make} {env : Env} (pre mid : List Event)
    (hmid : .open ∉ mid) (hrun : (run (step make env) {} pre).crashed = false)
    (hmade : (run (step make env) {} (pre ++ .close :: mid)).peers.length ≠
      (run (step make env) {} pre).peers.length) :
    ¬ Final make env (pre ++ .close :: mid) :=
  fun h => hmade (h pre mid List.prefix_rfl hmid hrun).1

/-- The user opens behind a session that has failed, and disables it. -/
private def disabledLater : List Event :=
  [.setHost "amt", .setIsoPath "boot.iso",
    .setSshConfig { enabled := true, host := "jump" }] ++ unresolved ++
    [.open, .setSshConfig {}]

/-- In all three controllers: the user closes while the open waits, and the
tunnel opens again; or the session fails, or is disabled behind its failure,
and the controller stays in `Connecting`. -/
theorem deferred_open_after_close :
    (¬ Final KvmController obliging (waiting ++ .close :: tunnelled) ∧
        ¬ Resolves KvmController obliging (waiting ++ unresolved) ∧
        ¬ Resolves KvmController obliging disabledLater) ∧
      (¬ Final SolController obliging (waiting ++ .close :: tunnelled) ∧
        ¬ Resolves SolController obliging (waiting ++ unresolved) ∧
        ¬ Resolves SolController obliging disabledLater) ∧
      (¬ Final IderController obliging (waiting ++ .close :: tunnelled) ∧
        ¬ Resolves IderController obliging (waiting ++ unresolved) ∧
        ¬ Resolves IderController obliging disabledLater) := by
  refine ⟨⟨?_, ?_, ?_⟩, ⟨?_, ?_, ?_⟩, ⟨?_, ?_, ?_⟩⟩
  case refine_1 => exact not_final _ _ (by decide) (by decide) (by decide)
  case refine_4 => exact not_final _ _ (by decide) (by decide) (by decide)
  case refine_7 => exact not_final _ _ (by decide) (by decide) (by decide)
  all_goals
    unfold Resolves
    decide

end Controller

end QuMesh.App
