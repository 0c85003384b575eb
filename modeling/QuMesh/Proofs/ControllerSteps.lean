import QuMesh.App.Controllers
import QuMesh.Lib.Holder

/-!
# What the steps of a controller leave alone

The signals of a client and of its session reach the controller's state, its
error, and the client they come from. They leave alone which clients there
are, which of them is wired, what waits for the tunnel, and the tunnel
itself: `Stays`. A client that was given up is not wired, and its signals do
not reach the state either.

So the wired client is always the one in `m_client`, `Owned`, and only
`teardown` and `open` change which that is.
-/

namespace QuMesh.App

open QuMesh.Lib
open QuMesh.Redir (Client Effect Env)

theorem SshTunnelHost.disable_session (h : SshTunnelHost) :
    h.disable.session = none := by
  unfold disable
  dsimp only
  split <;> split <;> rfl

namespace Controller

variable {make : Make} {env : Env} {c d : Controller} {i : Nat} {p : Peer}

/-- From `c` to `d` no client was made, taken, given up or destroyed, and the
tunnel and the open that waits for it are the same. -/
structure Stays (c d : Controller) : Prop where
  client : d.client = c.client
  deferred : d.openDeferred = c.openDeferred
  sshHost : d.sshHost = c.sshHost
  wired : d.peers.map Peer.wired = c.peers.map Peer.wired

namespace Stays

theorem refl (c : Controller) : Stays c c := ⟨rfl, rfl, rfl, rfl⟩

theorem trans {b : Controller} (h : Stays b c) (g : Stays c d) : Stays b d where
  client := g.client.trans h.client
  deferred := g.deferred.trans h.deferred
  sshHost := g.sshHost.trans h.sshHost
  wired := g.wired.trans h.wired

theorem length (h : Stays c d) : d.peers.length = c.peers.length := by
  have := congrArg List.length h.wired
  simpa using this

theorem setState (s : State) (c : Controller) : Stays c (c.setState s) :=
  ⟨rfl, rfl, rfl, rfl⟩

theorem setLastError (e : String) (c : Controller) :
    Stays c (c.setLastError e) := ⟨rfl, rfl, rfl, rfl⟩

theorem putPeer (hp : c.peers[i]? = some p) {q : Peer} (hq : q.wired = p.wired) :
    Stays c (c.putPeer i q) := by
  refine ⟨rfl, rfl, rfl, ?_⟩
  rw [Controller.putPeer, List.map_set, hq]
  refine List.ext_getElem? fun j => ?_
  rw [List.getElem?_set]
  split
  · next heq =>
    rw [← heq, List.getElem?_map, hp]
    split
    · rfl
    · next hlen =>
      rw [List.length_map] at hlen
      exact absurd (List.getElem?_eq_some_iff.mp hp).1 hlen
  · rfl

theorem onStateChanged (s : Redir.State) (c : Controller) :
    Stays c (c.onStateChanged make s) := by
  cases s <;> exact ⟨rfl, rfl, rfl, rfl⟩

theorem disconnectFromHost (i : Nat) (c : Controller) :
    Stays c (c.disconnectFromHost make i) := by
  rw [Controller.disconnectFromHost]
  split
  · exact refl c
  · next p hp =>
    have hput : Stays c (c.putPeer i p.disconnectFromHost) := putPeer hp rfl
    dsimp only
    split
    · exact hput.trans (onStateChanged _ _)
    · exact hput

theorem onClosed (reason : String) (c : Controller) :
    Stays c (c.onClosed make reason) := by
  have hfailed : Stays c ((c.setLastError reason).setState .failed) :=
    ⟨rfl, rfl, rfl, rfl⟩
  rw [Controller.onClosed]
  split
  · exact hfailed.trans (disconnectFromHost _ _)
  · exact hfailed

theorem onSignal (e : Effect) (c : Controller) :
    Stays c (onSignal make i c e) := by
  rw [Controller.onSignal]
  split
  · exact refl c
  · next p hp =>
    split
    · split
      · exact onStateChanged _ _
      · exact refl c
    · exact putPeer hp rfl
    · split
      · exact (onClosed _ _).trans ⟨rfl, rfl, rfl, rfl⟩
      · exact refl c
    · have hput : Stays c (c.putPeer i { p with shut := p.client.socketId }) :=
        putPeer hp rfl
      dsimp only
      split
      · exact hput.trans (setState _ _)
      · exact hput
    · split
      · exact ⟨rfl, rfl, rfl, rfl⟩
      · exact refl c
    · exact refl c

theorem onSignals (es : List Effect) (c : Controller) :
    Stays c (es.foldl (Controller.onSignal make i) c) := by
  induction es generalizing c with
  | nil => exact refl c
  | cons e es ih => exact (onSignal e c).trans (ih _)

theorem call (f : Client → Client) (c : Controller) :
    Stays c (c.call make i f) := by
  rw [Controller.call]
  split
  · exact refl c
  · next p hp =>
    split
    · exact refl c
    · have hput : Stays c
          (c.putPeer i { p with client := f { p.client with out := [] } }) :=
        putPeer hp rfl
      exact hput.trans (onSignals _ _)

end Stays

/-- From `c` to `d` nothing changed of the controller and its clients: what
did is the user's data, the tunnel, and the mirrored prompt. -/
structure Beside (c d : Controller) : Prop where
  state : d.state = c.state
  client : d.client = c.client
  deferred : d.openDeferred = c.openDeferred
  peers : d.peers = c.peers

theorem Beside.refl (c : Controller) : Beside c c := ⟨rfl, rfl, rfl, rfl⟩

/-- What is behind the calls of the host that the user makes. -/
theorem setSshConfig_cases (cfg : Config) (c : Controller) :
    ∃ b s, Beside c b ∧ b.sshHost = some (c.sshHost.getD {}) ∧
      c.setSshConfig make cfg =
        { b.ssh make (.setConfig cfg) with sshSession := s } := by
  rw [setSshConfig]
  dsimp only
  split
  · exact ⟨clearSshPrompt { c with sshHost := some (c.sshHost.getD {}) }, _,
      ⟨rfl, rfl, rfl, rfl⟩, rfl, rfl⟩
  · exact ⟨{ c with sshHost := some (c.sshHost.getD {}) }, _,
      ⟨rfl, rfl, rfl, rfl⟩, rfl, rfl⟩

theorem trustPendingSshHostKey_cases (persist : Bool) (c : Controller) :
    c.trustPendingSshHostKey make persist = c ∨
      ∃ b, Beside c b ∧ b.sshHost = c.sshHost ∧
        c.trustPendingSshHostKey make persist =
          b.ssh make (.trustPendingHostKey persist) := by
  rw [trustPendingSshHostKey]
  split
  · exact .inl rfl
  · exact .inr ⟨c.clearSshPrompt, ⟨rfl, rfl, rfl, rfl⟩, rfl, rfl⟩

/-- What `trustPendingCert` does, where it does something. -/
theorem trustPendingCert_cases (persist : Bool) (c : Controller) :
    c.trustPendingCert make env persist = c ∨
      ∃ i, c.client = some i ∧ c.state = .awaitingTrust ∧
        (c.trustPendingCert make env persist).state = .authenticating ∧
        (c.trustPendingCert make env persist).peers =
          (c.call make i (·.trustPendingPeerCert env)).peers ∧
        Stays c (c.trustPendingCert make env persist) := by
  rw [trustPendingCert]
  split
  · exact .inl rfl
  · next i hi =>
    split
    · exact .inl rfl
    · next hstate =>
      right
      have hcall : Stays c (c.call make i (·.trustPendingPeerCert env)) :=
        .call _ c
      refine ⟨i, hi, Decidable.not_not.mp hstate, ?_⟩
      dsimp only
      split <;> split <;> exact ⟨rfl, rfl, hcall.trans ⟨rfl, rfl, rfl, rfl⟩⟩

/-! ## A client that was given up -/

/-- The `i`-th client, where there is one, is not wired. -/
def Mute (i : Nat) (c : Controller) : Prop :=
  ∀ p, c.peers[i]? = some p → p.wired = false

theorem Stays.mute (h : Stays c d) (hc : Mute i c) : Mute i d := by
  intro q hq
  have hget := congrArg (·[i]?) h.wired
  simp only [List.getElem?_map, hq, Option.map_some] at hget
  obtain ⟨p, hp, hpq⟩ := Option.map_eq_some_iff.mp hget.symm
  rw [← hpq]
  exact hc p hp

theorem onSignal_mute (hc : Mute i c) (e : Effect) :
    (onSignal make i c e).state = c.state := by
  rw [onSignal]
  split
  · rfl
  · next p hp =>
    have hwired := hc p hp
    split <;> simp [hwired, putPeer]

theorem call_mute (hc : Mute i c) (f : Client → Client) :
    (c.call make i f).state = c.state := by
  have hfold : ∀ (es : List Effect) (c : Controller), Mute i c →
      (es.foldl (onSignal make i) c).state = c.state := by
    intro es
    induction es with
    | nil => exact fun _ _ => rfl
    | cons e es ih =>
        intro c hc
        exact (ih _ ((Stays.onSignal e c).mute hc)).trans (onSignal_mute hc e)
  rw [call]
  split
  · rfl
  · next p hp =>
    split
    · rfl
    · exact hfold _ _ (Stays.mute (Stays.putPeer hp rfl) hc)

theorem sessionHeard_mute (hc : Mute i c) : c.sessionHeard i = false := by
  rw [sessionHeard]
  cases hp : c.peers[i]? with
  | none => rfl
  | some p => simp [hc p hp]

/-! ## Who is wired -/

/-- The only wired client is the one in `m_client`. -/
def Owned (c : Controller) : Prop := HeldBy Peer.wired c.peers c.client

theorem Owned.beside (hc : c.Owned) (h : Beside c d) : d.Owned := by
  rw [Owned, h.client, h.peers]
  exact hc

theorem Owned.stays (hc : c.Owned) (h : Stays c d) : d.Owned := by
  rw [Owned, h.client]
  exact hc.congr h.wired

theorem Owned.mute (hc : c.Owned) (hnone : c.client = none) (i : Nat) :
    Mute i c := by
  intro p hp
  rw [Owned, hnone] at hc
  exact hc.of_none (List.mem_of_getElem? hp)

/-- `teardown` gives up the client, and leaves alone what waits. -/
theorem teardown_spec (make : Make) (hc : c.Owned) :
    (c.teardown make).Owned ∧ (c.teardown make).client = none ∧
      (c.teardown make).openDeferred = c.openDeferred ∧
      (c.teardown make).sshHost = c.sshHost ∧
      (c.teardown make).peers.length = c.peers.length := by
  rw [teardown]
  split
  · next hnone => exact ⟨hc, hnone, rfl, rfl, rfl⟩
  · next i hi =>
    -- the client is no longer wired, and whatever is done to it stays so
    have hmodify : HeldBy Peer.wired
        (c.peers.modify i ({ · with wired := false })) none := by
      have hkept : HeldBy Peer.wired
          (c.peers.modify i ({ · with wired := false })) c.client :=
        HeldBy.modify hc fun x hx => by cases hx
      refine hkept.release none fun j x hj hx => ?_
      rw [hi] at hj
      cases hj
      rw [List.getElem?_modify] at hx
      obtain ⟨y, -, rfl⟩ := Option.map_eq_some_iff.mp hx
      rw [if_pos rfl]
    have hstays : ∀ b : Controller, b = { c with
        peers := c.peers.modify i ({ · with wired := false }) } →
        Stays b (if make.hangsUp then b.disconnectFromHost make i else b) := by
      intro b _
      split
      · exact .disconnectFromHost i b
      · exact .refl b
    have h := hstays _ rfl
    refine ⟨hmodify.congr h.wired, rfl, h.deferred, h.sshHost, ?_⟩
    exact h.length.trans (List.length_modify ..)

theorem openNow_owned (hc : c.Owned) : (c.openNow make).Owned := by
  have hdropped := teardown_spec make (c := { c with openDeferred := false }) hc
  rw [openNow]
  dsimp only
  split
  · exact hdropped.1
  · split
    · exact hdropped.1
    · refine Owned.stays ?_ (.call _ _)
      have hnone := hdropped.1
      rw [Owned, hdropped.2.1] at hnone
      exact hnone.append _

theorem open_owned (hc : c.Owned) : (c.open make).Owned := by
  rw [Controller.open]
  split
  · exact hc
  · exact openNow_owned hc

theorem onHostSignal_owned (hc : c.Owned) (e : HostSignal) :
    (onHostSignal make c e).Owned := by
  cases e with
  | connectedChanged =>
      rw [onHostSignal]
      split
      · exact open_owned hc
      · exact hc
  | _ => exact hc

theorem open_sshHost (hc : c.Owned) : (c.open make).sshHost = c.sshHost := by
  rw [Controller.open]
  split
  · rfl
  · obtain ⟨-, -, -, hhost, -⟩ := teardown_spec make
      (c := { c with openDeferred := false }) hc
    rw [openNow]
    dsimp only
    split
    · exact hhost
    · split
      · exact hhost
      · exact (Stays.call _ _).sshHost.trans hhost

theorem onHostSignal_sshHost (hc : c.Owned) (s : HostSignal) :
    (onHostSignal make c s).sshHost = c.sshHost := by
  cases s with
  | connectedChanged =>
      rw [onHostSignal]
      split
      · exact open_sshHost hc
      · rfl
  | _ => rfl

theorem ssh_owned (hc : c.Owned) (e : World.Event) : (c.ssh make e).Owned := by
  rw [ssh]
  split
  · exact hc
  · next t ht =>
    dsimp only
    generalize (hostAfter e t).host.out = out
    have hput : Owned { c with sshHost := some (hostAfter e t) } := hc
    generalize { c with sshHost := some (hostAfter e t) } = b at hput
    induction out generalizing b with
    | nil => exact hput
    | cons s out ih => exact ih _ (onHostSignal_owned hput s)

theorem destroy_stays (i : Nat) (c : Controller) :
    Stays c (c.handle make env (.destroy i)) := by
  refine ⟨rfl, rfl, rfl, ?_⟩
  rw [handle]
  refine List.ext_getElem? fun j => ?_
  rw [List.getElem?_map, List.getElem?_map, List.getElem?_modify]
  cases c.peers[j]? with
  | none => rfl
  | some p =>
      refine congrArg some ?_
      dsimp only
      split
      · split
        · rfl
        · rfl
      · rfl

theorem step_owned (hc : c.Owned) (e : Event) : (step make env c e).Owned := by
  rw [step]
  split
  · exact hc
  · cases e with
    | setSshConfig cfg =>
        rw [handle]
        obtain ⟨b, s, hbeside, -, heq⟩ : ∃ b s, _ := setSshConfig_cases cfg c
        rw [heq]
        exact ssh_owned (hc.beside hbeside) _
    | trustPendingSshHostKey persist =>
        rw [handle]
        rcases trustPendingSshHostKey_cases persist c with hsame | ⟨b, hbeside, -, heq⟩
        · rw [hsame]
          exact hc
        · rw [heq]
          exact ssh_owned (hc.beside hbeside) _
    | «open» => exact open_owned hc
    | close => exact (teardown_spec make hc).1
    | trustPendingCert persist =>
        rw [handle]
        rcases trustPendingCert_cases persist c with hsame | ⟨_, _, _, _, _, hstays⟩
        · rw [hsame]
          exact hc
        · exact hc.stays hstays
    | ssh e =>
        rw [handle]
        split
        · exact ssh_owned hc e
        · exact hc
    | client i e =>
        rw [handle]
        split
        · exact hc.stays (.call _ c)
        · exact hc
    | established i =>
        rw [handle]
        split
        · exact hc
        · exact hc
    | sessionClosed i reason =>
        rw [handle]
        split
        · exact hc.stays (.onClosed reason c)
        · exact hc
    | destroy i => exact hc.stays (destroy_stays i c)
    | _ => exact hc

end Controller

end QuMesh.App
