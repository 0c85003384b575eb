import QuMesh.Proofs.DetailsSteps

/-!
# What is read again once a certificate is trusted

The refreshes whose requests were refused are to be issued again when the user
trusts the certificate. There is one slot for the refresh to resume, and every
refresh that goes out overwrites it, the opt-in status behind the overview and
the power schemes behind the power section among them. So of the refused
refreshes the last one comes back, with what it ends in, and the others do not:
`resume_tail_only` is the power section alone, of which only the schemes are
read again.

`refused_reissued` is the law for the runs in which every prompt that is
accepted finds no more refused than the resumed refresh issues.
-/

namespace QuMesh.Details

open QuMesh.Lib

/-- A refresh was issued after the trust, with all of its requests. -/
def Reissued (out : List Effect) (r : Refresh) : Prop :=
  ∃ before n after, out = before ++ block true n r ++ after

namespace Machine

/-- The trust has been given, and all replies have arrived. -/
def calm (s : Machine) : Bool :=
  s.trusted && !s.awaitingTrust && s.flight.isEmpty

/-- What the law asks for. -/
def AllReissued (s : Machine) : Prop :=
  ∀ r, Effect.refused (.refresh r) ∈ s.out → Reissued s.out r

/-- The refresh that a trust resumes. -/
def resumed (s : Machine) : Refresh :=
  s.pendingTrustResume.getD (.whole .overview)

/-- The condition: what was refused and not issued again so far is among what
the resumed refresh issues, and this one is neither put off nor without a
host. -/
def Recovers (s : Machine) : Event → Prop
  | .trustPendingCert =>
      s.awaitingTrust = true → ∀ r, Effect.refused (.refresh r) ∈ s.out →
        ¬Reissued s.out r →
          s.sshConnecting = false ∧ s.host.isEmpty = false ∧
            r ∈ s.issues s.resumed
  | _ => True

/-- What all events do but the trust and a refusal. -/
structure Steady (s s' : Machine) : Prop where
  trusted : s'.trusted = s.trusted
  awaitingTrust : s'.awaitingTrust = s.awaitingTrust
  out : ∃ new, s'.out = s.out ++ new ∧ ∀ op, Effect.refused op ∉ new

variable {s t u : Machine}

namespace Steady

theorem of_out (htrusted : t.trusted = s.trusted)
    (hawaiting : t.awaitingTrust = s.awaitingTrust) (hout : t.out = s.out) :
    Steady s t :=
  ⟨htrusted, hawaiting, [], by simp [hout], by simp⟩

theorem refl (s : Machine) : Steady s s := of_out rfl rfl rfl

theorem trans (h : Steady s t) (g : Steady t u) : Steady s u := by
  obtain ⟨new, hnew, hall⟩ := h.out
  obtain ⟨new', hnew', hall'⟩ := g.out
  refine ⟨g.trusted.trans h.trusted, g.awaitingTrust.trans h.awaitingTrust,
    new ++ new', ?_, ?_⟩
  · rw [hnew', hnew, List.append_assoc]
  · intro op hop
    exact (List.mem_append.mp hop).elim (hall op) (hall' op)

/-- The same of a state that differs in nothing that counts. -/
theorem around (g : Steady t u) (htrusted : t.trusted = s.trusted)
    (hawaiting : t.awaitingTrust = s.awaitingTrust) (hout : t.out = s.out) :
    Steady s u :=
  (of_out htrusted hawaiting hout).trans g

theorem emit {e : Effect} (he : ∀ op, e ≠ .refused op) (s : Machine) :
    Steady s (s.emit e) := by
  refine ⟨rfl, rfl, [e], rfl, ?_⟩
  intro op hop
  exact he op (List.mem_singleton.mp hop).symm

theorem send (op : Operation) (call : Call) (s : Machine) :
    Steady s (s.send op call) := by
  refine ⟨rfl, rfl, [.sent s.nextRequest call], rfl, ?_⟩
  simp

theorem ran (op : Operation) (s : Machine) : Steady s (s.ran op) :=
  emit (by simp) s

theorem setLastError (e : String) (s : Machine) : Steady s (s.setLastError e) :=
  of_out rfl rfl rfl

theorem labelled (call : Call) (result : Except String Unit) (s : Machine) :
    Steady s (s.labelled call result) := by
  unfold Machine.labelled
  split
  · split
    · exact refl s
    · exact setLastError _ s
  · exact refl s

end Steady

theorem refused_not_sentFrom (op : Operation) (n : Nat) (calls : List Call) :
    Effect.refused op ∉ sentFrom n calls := by
  induction calls generalizing n with
  | nil => simp [sentFrom]
  | cons call calls ih => simp [sentFrom, ih]

theorem refused_not_blocks (op : Operation) (b : Bool) (n : Nat)
    (rs : List Refresh) : Effect.refused op ∉ blocks b n rs := by
  induction rs generalizing n with
  | nil => simp [blocks]
  | cons r rs ih => simp [blocks, block, ih, refused_not_sentFrom]

theorem Issued.steady {rs : List Refresh} (h : Issued s t rs) : Steady s t :=
  ⟨h.frame.trusted, h.frame.awaitingTrust, _, h.out,
    fun op => refused_not_blocks op _ _ _⟩

theorem refresh_steady (r : Refresh) (s : Machine) : Steady s (s.refresh r) := by
  by_cases hup : s.sshConnecting = true
  · rw [refresh_connecting hup]
    exact .of_out rfl rfl rfl
  have hup : s.sshConnecting = false := by simpa using hup
  by_cases hhost : s.host.isEmpty = true
  · rcases refresh_hostless hup hhost r with h | h <;> rw [h]
    · exact .refl s
    · exact .setLastError _ s
  · exact (refresh_issued hup (by simpa using hhost) r).steady

theorem foldl_refreshOf_steady (kinds : List PendingRefresh) (s : Machine) :
    Steady s (kinds.foldl (fun s kind => s.refreshOf kind) s) := by
  induction kinds generalizing s with
  | nil => exact .refl s
  | cons kind kinds ih => exact (refresh_steady (.whole kind) s).trans (ih _)

theorem deferIfSshConnecting_steady {kind : PendingRefresh} {op : Operation}
    (h : s.deferIfSshConnecting kind op = some t) : Steady s t := by
  unfold deferIfSshConnecting at h
  split at h
  · cases h
    exact .of_out rfl rfl rfl
  · cases h

theorem syncDeviceTime_steady (s : Machine) : Steady s s.syncDeviceTime := by
  unfold syncDeviceTime
  split
  next hdefer => exact deferIfSshConnecting_steady hdefer
  · split
    · exact .setLastError _ s
    · exact (Steady.ran _ s).trans (.send _ _ _)

theorem setPowerScheme_steady (instanceId : String) (s : Machine) :
    Steady s (s.setPowerScheme instanceId) := by
  unfold setPowerScheme
  split
  next hdefer => exact deferIfSshConnecting_steady hdefer
  · split
    · exact .refl s
    · exact (Steady.ran _ s).trans (.send _ _ _)

theorem setSshConfig_steady (enabled : Bool) (s : Machine) :
    Steady s (s.setSshConfig enabled) := by
  unfold setSshConfig
  split <;> exact .of_out rfl rfl rfl

theorem onSessionState_steady (st : SessionState) (s : Machine) :
    Steady s (s.onSessionState st) := by
  unfold onSessionState
  split
  · exact .refl s
  cases st with
  | connected =>
      show Steady s (runPendingRefreshes _)
      exact (foldl_refreshOf_steady _ _).around rfl rfl rfl
  | _ => exact .of_out rfl rfl rfl

theorem callback_steady (q : Request) (result : Except String Unit)
    (s : Machine) : Steady s (s.callback q result) := by
  unfold callback
  split
  · exact .of_out rfl rfl rfl
  · split
    · exact .send _ _ s
    · exact .labelled _ _ s
  · split
    · exact .send _ _ s
    · exact .send _ _ s
    · exact .labelled _ _ s
  · exact (Steady.labelled _ _ s).trans (refresh_steady .powerSchemes _)
  · exact .labelled _ _ s

theorem onReply_steady (id : Nat) (result : Except String Unit) (s : Machine) :
    Steady s (s.onReply id result) := by
  unfold onReply
  split
  · exact .refl s
  · exact (callback_steady _ _ _).around rfl rfl rfl

/-- What was refused stays so, and what was issued again too. -/
theorem AllReissued.steady (h : s.AllReissued) (hstep : Steady s t) :
    t.AllReissued := by
  obtain ⟨new, hnew, hall⟩ := hstep.out
  intro r hr
  rw [hnew] at hr ⊢
  obtain ⟨before, n, after, hout⟩ :=
    h r ((List.mem_append.mp hr).resolve_right (hall _))
  exact ⟨before, n, after ++ new, by rw [hout]; simp⟩

/-- After a trust whose condition holds everything refused is issued again. -/
theorem AllReissued.trustPendingCert (hawaiting : s.awaitingTrust = true)
    (hok : s.Recovers .trustPendingCert) : s.trustPendingCert.AllReissued := by
  have hresume : ∃ p, s.trustPendingCert =
      ({ s with
        trusted := true, awaitingTrust := false, pendingTrustResume := p } :
          Machine).refresh s.resumed := by
    unfold Machine.trustPendingCert resumed
    rw [if_neg (by simp [hawaiting])]
    cases hresume : s.pendingTrustResume with
    | some r => exact ⟨none, rfl⟩
    | none => exact ⟨none, by simp [refresh, refreshOf]⟩
  obtain ⟨p, hstep⟩ := hresume
  rw [hstep]
  obtain ⟨new, hnew, hall⟩ := (refresh_steady s.resumed
    ({ s with
      trusted := true, awaitingTrust := false, pendingTrustResume := p } :
        Machine)).out
  intro r hr
  rw [hnew] at hr
  have hr : Effect.refused (.refresh r) ∈ s.out :=
    (List.mem_append.mp hr).resolve_right (hall _)
  by_cases hdone : Reissued s.out r
  · obtain ⟨before, n, after, hout⟩ := hdone
    rw [hnew]
    exact ⟨before, n, after ++ new, by simp [hout]⟩
  · obtain ⟨hup, hhost, hmem⟩ := hok hawaiting r hr hdone
    have hissued := refresh_issued (s := { s with
      trusted := true, awaitingTrust := false, pendingTrustResume := p })
      hup hhost s.resumed
    rw [hissued.out]
    obtain ⟨before, n, after, hblocks⟩ := blocks_of_mem hmem true s.nextRequest
    refine ⟨s.out ++ before, n, after, ?_⟩
    show s.out ++ blocks true s.nextRequest (s.issues s.resumed) = _
    rw [hblocks]
    simp

/-- What holds between the events: where no prompt is up, nothing is owed. -/
def Settled (s : Machine) : Prop :=
  s.trusted = true → s.awaitingTrust = false → s.AllReissued

theorem Settled.steady (h : s.Settled) (hstep : Steady s t) : t.Settled := by
  intro htrusted hawaiting
  rw [hstep.trusted] at htrusted
  rw [hstep.awaitingTrust] at hawaiting
  exact (h htrusted hawaiting).steady hstep

theorem step_settled (h : s.Settled) (e : Event) (hok : s.Recovers e) :
    (s.step e).Settled := by
  cases e with
  | setHost host => exact h.steady (.of_out rfl rfl rfl)
  | refresh r => exact h.steady (refresh_steady r s)
  | syncDeviceTime => exact h.steady (syncDeviceTime_steady s)
  | setPowerScheme instanceId =>
      exact h.steady (setPowerScheme_steady instanceId s)
  | setSshConfig enabled => exact h.steady (setSshConfig_steady enabled s)
  | sessionState st => exact h.steady (onSessionState_steady st s)
  | reply id result => exact h.steady (onReply_steady id result s)
  | refused id =>
      show (s.onRefused id).Settled
      unfold onRefused
      split
      · exact h
      · split
        · intro _ hawaiting
          cases hawaiting
        · exact h
  | trustPendingCert =>
      show s.trustPendingCert.Settled
      by_cases hawaiting : s.awaitingTrust = true
      · intro _ _
        exact .trustPendingCert hawaiting hok
      · have hsame : s.trustPendingCert = s := by
          unfold Machine.trustPendingCert
          exact if_pos (by simpa using hawaiting)
        rw [hsame]
        exact h

end Machine

/-- In every run in which the prompts that are accepted find no more refused
than the resumed refresh issues, all that was refused has been issued again once
the trust is given and the replies are in. -/
theorem refused_reissued (host : String) (es : List Event)
    (hok : ∀ x ∈ trail Machine.step { host } es, x.1.Recovers x.2) :
    ∀ early, early <+: es →
      (run Machine.step { host } early).calm = true →
        (run Machine.step { host } early).AllReissued := by
  intro early hearly hcalm
  have hkeeps : ∀ s e, Machine.Settled s → Machine.Recovers s e →
      Machine.Settled (s.step e) := fun _ e h hok => Machine.step_settled h e hok
  have hinit : Machine.Settled { host } := fun htrusted => by cases htrusted
  have hsettled := invariant_of_trail hkeeps hinit hok early hearly
  simp only [Machine.calm, Bool.and_eq_true, Bool.not_eq_true'] at hcalm
  exact hsettled hcalm.1.1 hcalm.1.2

/-- One section is opened, and read again behind the prompt. -/
theorem refused_reissued_network :
    (run Machine.step { host := "amt" }
      [.refresh (.whole .network), .refused 0, .reply 0 (.error "SSL"),
        .trustPendingCert, .reply 1 (.ok ())]).AllReissued := by
  refine refused_reissued "amt" [.refresh (.whole .network), .refused 0,
    .reply 0 (.error "SSL"), .trustPendingCert, .reply 1 (.ok ())] ?_ _
    (List.prefix_refl _) rfl
  simp only [trail_cons, trail_nil, List.forall_mem_cons]
  refine ⟨trivial, trivial, trivial, fun _ r hr _ => ?_, trivial,
    List.forall_mem_nil _⟩
  have hr : Effect.refused (.refresh r) ∈ [.ran (.refresh (.whole .network)) false,
      .sent 0 .getEthernetSettings, .refused (.refresh (.whole .network))] := hr
  obtain rfl : r = .whole .network := by simpa using hr
  exact ⟨rfl, rfl, List.mem_singleton.mpr rfl⟩

/-- The power section alone: both of its requests are refused, and after the
trust only the second is sent again. -/
theorem resume_tail_only :
    (run Machine.step { host := "amt" }
        [.refresh (.whole .power), .refused 0, .reply 0 (.error "SSL"),
          .refused 1, .reply 1 (.error "SSL"), .trustPendingCert,
          .reply 2 (.ok ())]).calm = true ∧
      ¬(run Machine.step { host := "amt" }
        [.refresh (.whole .power), .refused 0, .reply 0 (.error "SSL"),
          .refused 1, .reply 1 (.error "SSL"), .trustPendingCert,
          .reply 2 (.ok ())]).AllReissued := by
  refine ⟨rfl, fun hall => ?_⟩
  obtain ⟨before, n, after, hout⟩ := hall (.whole .power) (by decide)
  have hmem : Effect.ran (.refresh (.whole .power)) true ∈
      (run Machine.step { host := "amt" }
        [.refresh (.whole .power), .refused 0, .reply 0 (.error "SSL"),
          .refused 1, .reply 1 (.error "SSL"), .trustPendingCert,
          .reply 2 (.ok ())]).out := by
    rw [hout]
    simp [block]
  revert hmem
  decide

end QuMesh.Details
