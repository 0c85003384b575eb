import QuMesh.Lib.Run
import QuMesh.Proofs.ClientTurns
import QuMesh.Proofs.ControllerSteps

/-!
# The transport is released

AMT answers a second connection with "busy" as long as the first one lives, so
a controller is meant to let go of a socket before it reports the end of a
session and before it makes the next one. `KvmController` hangs up in
`teardown` and in the handler of `closed`. The two others leave the socket to
the deferred deletion of the client, which a session that ends on its own
account never gets to. And in all three a tunnel that opens late hands its
socket to a client that was given up.

Where neither happens, an open socket belongs to the client in `m_client`, and
the controller does not say that it is over. That is `Inv`; with it goes what
a client is like while its tunnel is on the way, because the answer finds the
controller in whatever state it is in then.
-/

namespace QuMesh.App

open QuMesh.Lib
open QuMesh.Redir (Client Effect Env Speaks Turns)

namespace Peer

theorem open_iff (p : Peer) : p.hasOpenSocket = true ↔
    ∃ k, p.client.socket = some k ∧ p.destroyed = false ∧ k.isOpen = true ∧
      p.shut ≠ some k.id := by
  rw [hasOpenSocket]
  cases p.client.socket with
  | none => simp
  | some k => simp [and_assoc]

theorem closed_of_shut {p : Peer} (h : p.shut = p.client.socketId) :
    p.hasOpenSocket = false := by
  cases hopen : p.hasOpenSocket with
  | false => rfl
  | true =>
      obtain ⟨k, hk, -, -, hshut⟩ := p.open_iff.mp hopen
      rw [h, Client.socketId, hk] at hshut
      exact absurd rfl hshut

theorem disconnectFromHost_closed (p : Peer) :
    p.disconnectFromHost.hasOpenSocket = false := by
  refine closed_of_shut ?_
  rw [disconnectFromHost, Client.disconnectFromHost, Client.setState]
  split <;> rfl

theorem disconnectFromHost_tunnels (p : Peer) :
    p.disconnectFromHost.client.openingTunnels = p.client.openingTunnels := by
  rw [disconnectFromHost, Client.disconnectFromHost, Client.setState]
  split <;> rfl

end Peer

/-- A client that is `Connecting` says nothing when it adopts a socket. -/
theorem adopt_quiet (env : Env) {c : Client} (h : c.state = .connecting) :
    (c.connectViaSocketDescriptor env true).out = c.out ∧
      (c.connectViaSocketDescriptor env true).openingTunnels = c.openingTunnels := by
  have hstate : (c.freshSocket true true).setState .connecting =
      c.freshSocket true true := if_pos h
  rw [Client.connectViaSocketDescriptor]
  dsimp only
  rw [Bool.not_true, if_neg Bool.false_ne_true, hstate]
  split <;> exact ⟨rfl, rfl⟩

namespace Controller

variable {make : Make} {env : Env} {c d : Controller} {i : Nat} {p q : Peer}

/-! ## What is promised -/

/-- A controller that reports the end has no client with an open socket, and
there is never more than one. -/
structure Released (c : Controller) : Prop where
  vacated : c.state.over = true → ∀ p ∈ c.peers, p.hasOpenSocket = false
  one : ∀ (i j : Nat) (p q : Peer), c.peers[i]? = some p → c.peers[j]? = some q →
    p.hasOpenSocket = true → q.hasOpenSocket = true → i = j

/-- The client in `m_client` has no open socket. -/
def vacant (c : Controller) : Bool :=
  match c.client with
  | none => true
  | some i => !(c.peers[i]?).any Peer.hasOpenSocket

/-- The turn of the host makes the deferred open. -/
def reopens (e : World.Event) (c : Controller) : Bool :=
  c.openDeferred && c.sshHost.any fun t =>
    (hostAfter e t).isConnected && (hostAfter e t).host.out.contains .connectedChanged

/-- The socket is free: the controller hangs up, or there is nothing open. -/
def free (make : Make) (c : Controller) : Bool := make.hangsUp || c.vacant

/-- A client is given up, and a session ends, where the socket is free; and no
tunnel opens for a client that was given up. -/
def orderly (make : Make) (c : Controller) : Event → Bool
  | .open => c.sshPending || c.free make
  | .close => c.free make
  | .ssh e => !c.reopens e || c.free make
  | .sessionClosed i _ => !c.sessionHeard i || c.free make
  | .client i (.tunnelDone _ (some true) _) =>
      (c.peers[i]?).all fun p => p.wired || p.destroyed
  | _ => true

/-! ## What signals leave of the sockets -/

/-- From `c` to `d` no socket was opened and no tunnel asked for, and only the
`i`-th client was touched. -/
structure Calms (i : Nat) (c d : Controller) : Prop where
  stays : Stays c d
  others : ∀ j, j ≠ i → d.peers[j]? = c.peers[j]?
  sockets : ∀ q, d.peers[i]? = some q → ∃ p, c.peers[i]? = some p ∧
    (q.hasOpenSocket = true → p.hasOpenSocket = true) ∧
    q.client.openingTunnels = p.client.openingTunnels

namespace Calms

theorem of_peers (h : Stays c d) (hpeers : d.peers = c.peers) : Calms i c d where
  stays := h
  others j _ := by rw [hpeers]
  sockets q hq := ⟨q, by rw [← hpeers, hq], id, rfl⟩

theorem refl (c : Controller) : Calms i c c := of_peers (.refl c) rfl

theorem trans {b : Controller} (h : Calms i b c) (g : Calms i c d) : Calms i b d where
  stays := h.stays.trans g.stays
  others j hj := (g.others j hj).trans (h.others j hj)
  sockets q hq := by
    obtain ⟨p, hp, hopen, htunnels⟩ := g.sockets q hq
    obtain ⟨o, ho, hopen', htunnels'⟩ := h.sockets p hp
    exact ⟨o, ho, fun hq => hopen' (hopen hq), htunnels.trans htunnels'⟩

theorem putPeer (hp : c.peers[i]? = some p) (hwired : q.wired = p.wired)
    (hopen : q.hasOpenSocket = true → p.hasOpenSocket = true)
    (htunnels : q.client.openingTunnels = p.client.openingTunnels) :
    Calms i c (c.putPeer i q) where
  stays := .putPeer hp hwired
  others j hj := by
    rw [Controller.putPeer, List.getElem?_set_ne (Ne.symm hj)]
  sockets r hr := by
    have hlen := (List.getElem?_eq_some_iff.mp hp).1
    rw [Controller.putPeer, List.getElem?_set_self hlen] at hr
    cases hr
    exact ⟨p, hp, hopen, htunnels⟩

theorem onStateChanged (s : Redir.State) (c : Controller) :
    Calms i c (c.onStateChanged make s) := by
  refine of_peers (.onStateChanged s c) ?_
  cases s <;> rfl

theorem disconnectFromHost (i : Nat) (c : Controller) :
    Calms i c (c.disconnectFromHost make i) := by
  rw [Controller.disconnectFromHost]
  split
  · exact refl c
  · next p hp =>
    have hput : Calms i c (c.putPeer i p.disconnectFromHost) := by
      refine putPeer hp rfl (fun h => ?_) p.disconnectFromHost_tunnels
      rw [p.disconnectFromHost_closed] at h
      cases h
    split
    · exact hput.trans (onStateChanged _ _)
    · exact hput

theorem onClosed (hi : c.client = some i) (reason : String) :
    Calms i c (c.onClosed make reason) := by
  have hfailed : Calms i c ((c.setLastError reason).setState .failed) :=
    of_peers ⟨rfl, rfl, rfl, rfl⟩ rfl
  rw [Controller.onClosed]
  split
  · next j _ hj =>
    have hij : i = j := Option.some.inj (hi.symm.trans hj)
    rw [← hij]
    exact hfailed.trans (disconnectFromHost _ _)
  · exact hfailed

theorem onSignal (hc : c.Owned) (e : Effect) : Calms i c (onSignal make i c e) := by
  rw [Controller.onSignal]
  split
  · exact refl c
  · next p hp =>
    split
    · split
      · exact onStateChanged _ _
      · exact refl c
    · exact putPeer hp rfl id rfl
    · split
      · next hwired =>
        exact (onClosed (hc i p hp hwired) _).trans
          (of_peers ⟨rfl, rfl, rfl, rfl⟩ rfl)
      · exact refl c
    · have hput : Calms i c (c.putPeer i { p with shut := p.client.socketId }) := by
        refine putPeer hp rfl (fun h => ?_) rfl
        rw [Peer.closed_of_shut rfl] at h
        cases h
      dsimp only
      split
      · exact hput.trans (of_peers (.setState _ _) rfl)
      · exact hput
    · split
      · exact of_peers ⟨rfl, rfl, rfl, rfl⟩ rfl
      · exact refl c
    · exact refl c

theorem onSignals (hc : c.Owned) (es : List Effect) :
    Calms i c (es.foldl (Controller.onSignal make i) c) := by
  induction es generalizing c with
  | nil => exact refl c
  | cons e es ih =>
      exact (onSignal hc e).trans (ih (hc.stays (.onSignal e c)))

theorem held (h : Calms i c d) (hc : HeldBy Peer.hasOpenSocket c.peers c.client) :
    HeldBy Peer.hasOpenSocket d.peers d.client := by
  intro j q hq hopen
  rw [h.stays.client]
  by_cases hj : j = i
  · subst hj
    obtain ⟨p, hp, hpopen, -⟩ := h.sockets q hq
    exact hc j p hp (hpopen hopen)
  · rw [h.others j hj] at hq
    exact hc j q hq hopen

end Calms

/-- What is onward does not take the controller to its end. -/
theorem onSignal_onward {e : Effect} (he : e.onward = true)
    (h : (onSignal make i c e).state.over = true) : c.state.over = true := by
  rw [onSignal] at h
  split at h
  · exact h
  · split at h
    · next s =>
      split at h
      · cases s with
        | disconnected => cases he
        | failed => cases he
        | kvmStarting => exact h
        | authenticated =>
            rw [onStateChanged, setState, make.going.1] at h
            cases h
        | _ => cases h
      · exact h
    · exact h
    · cases he
    · cases he
    · split at h
      · cases h
      · exact h
    · exact h

theorem onSignals_onward {es : List Effect} (hes : ∀ e ∈ es, e.onward = true)
    (h : (es.foldl (onSignal make i) c).state.over = true) :
    c.state.over = true := by
  induction es generalizing c with
  | nil => exact h
  | cons e es ih =>
      rw [List.forall_mem_cons] at hes
      exact onSignal_onward hes.1 (ih hes.2 h)

theorem onSignal_remoteClosed (hq : (onSignal make i c .remoteClosed).peers[i]? = some q) :
    q.hasOpenSocket = false := by
  rw [onSignal] at hq
  split at hq
  · next hnone =>
    rw [hnone] at hq
    cases hq
  · next p hp =>
    have hlen := (List.getElem?_eq_some_iff.mp hp).1
    dsimp only at hq
    split at hq <;>
    · simp only [setState, Controller.putPeer, List.getElem?_set_self hlen] at hq
      cases hq
      exact Peer.closed_of_shut rfl

/-- The peer closed the socket. -/
theorem onSignals_remoteClosed (hc : c.Owned) {es : List Effect}
    (hes : Effect.remoteClosed ∈ es) :
    ∀ q, (es.foldl (onSignal make i) c).peers[i]? = some q →
      q.hasOpenSocket = false := by
  induction es generalizing c with
  | nil => cases hes
  | cons e es ih =>
      intro q hq
      have howned : Owned (onSignal make i c e) := hc.stays (.onSignal e c)
      by_cases hin : Effect.remoteClosed ∈ es
      · exact ih howned hin q hq
      · obtain rfl : Effect.remoteClosed = e := by
          rcases List.mem_cons.mp hes with heq | hmem
          · exact heq
          · exact absurd hmem hin
        obtain ⟨p, hp, hopen, -⟩ := (Calms.onSignals howned es).sockets q hq
        have hclosed := onSignal_remoteClosed hp
        cases heq : q.hasOpenSocket with
        | false => rfl
        | true =>
            rw [hopen heq] at hclosed
            cases hclosed

/-! ## The invariant -/

/-- The tunnel of a client that was just made is on its way. -/
structure Dialling (p : Peer) : Prop where
  socket : p.client.socket = none
  posted : p.client.posted = []
  tunnels : p.client.openingTunnels.length = 1
  state : p.client.state = .connecting
  started : p.started = false

/-- What the client in `m_client` is like under a controller in state `s`. -/
structure Placed (s : State) (p : Peer) : Prop where
  wired : p.wired = true
  socket : p.hasOpenSocket = true → s.over = false
  dialling : p.client.openingTunnels ≠ [] → Dialling p ∧ s = .connecting

structure Inv (c : Controller) : Prop where
  owned : c.Owned
  held : HeldBy Peer.hasOpenSocket c.peers c.client
  current : ∀ i p, c.client = some i → c.peers[i]? = some p → Placed c.state p

theorem Inv.released (hc : Inv c) : Released c where
  vacated hover p hp := by
    obtain ⟨i, hi⟩ := List.getElem?_of_mem hp
    cases hopen : p.hasOpenSocket with
    | false => rfl
    | true =>
        have hplaced := hc.current i p (hc.held i p hi hopen) hi
        rw [hplaced.socket hopen] at hover
        cases hover
  one i j p q hp hq hpopen hqopen := hc.held.unique hp hq hpopen hqopen

theorem Inv.beside (hc : Inv c) (h : Beside c d) : Inv d where
  owned := hc.owned.beside h
  held := by
    rw [h.client, h.peers]
    exact hc.held
  current i p hi hp := by
    rw [h.client] at hi
    rw [h.peers] at hp
    rw [h.state]
    exact hc.current i p hi hp

/-- The state changes, and not to an end. -/
theorem Inv.setState (hc : Inv c) {s : State} (hs : s.over = false)
    (h : ∀ i p, c.client = some i → c.peers[i]? = some p →
      p.client.openingTunnels ≠ [] → s = .connecting) : Inv (c.setState s) where
  owned := hc.owned
  held := hc.held
  current i p hi hp := by
    have hplaced := hc.current i p hi hp
    refine ⟨hplaced.wired, fun _ => hs, fun htunnels => ?_⟩
    exact ⟨(hplaced.dialling htunnels).1, h i p hi hp htunnels⟩

/-! ## Calls of a client -/

/-- What a call has to be like for the invariant to stay: it leaves no tunnel
open, and a socket only where it says nothing of an end, or the peer closed
it. Of a client that was given up it opens no socket. -/
structure Fits (s : State) (p : Peer) (d : Client) : Prop where
  mute : p.wired = false → ({ p with client := d } : Peer).hasOpenSocket = true →
    p.hasOpenSocket = true
  tunnels : p.wired = true → d.openingTunnels = []
  socket : p.wired = true → ({ p with client := d } : Peer).hasOpenSocket = true →
    (s.over = false ∧ ∀ e ∈ d.out, e.onward = true) ∨ .remoteClosed ∈ d.out

theorem call_inv (hc : Inv c) {f : Client → Client}
    (hf : ∀ p, c.peers[i]? = some p → p.destroyed = false →
      Fits c.state p (f { p.client with out := [] })) : Inv (c.call make i f) := by
  have hstays : Stays c (c.call make i f) := .call f c
  have howned := hc.owned.stays hstays
  have hmute : Mute i c → (c.call make i f).state = c.state := fun h => call_mute h f
  revert hstays howned hmute
  rw [call]
  split
  · exact fun _ _ _ => hc
  · next p hp =>
    split
    · exact fun _ _ _ => hc
    · next hlive =>
      intro hstays howned hmute
      have hfits := hf p hp (by simpa using hlive)
      dsimp only at howned hstays hmute ⊢
      generalize f { p.client with out := [] } = d at hfits howned hstays hmute ⊢
      have hput : Stays c (c.putPeer i { p with client := d }) := .putPeer hp rfl
      have hcalms : Calms i (c.putPeer i { p with client := d })
          (d.out.foldl (onSignal make i) _) :=
        .onSignals (hc.owned.stays hput) d.out
      have hget : (c.putPeer i { p with client := d }).peers[i]? =
          some { p with client := d } := by
        rw [putPeer, List.getElem?_set_self (List.getElem?_eq_some_iff.mp hp).1]
      refine ⟨howned, hcalms.held (hc.held.set fun hopen => ?_), fun j q hj hq => ?_⟩
      · cases hwired : p.wired with
        | true => exact hc.owned i p hp hwired
        | false => exact hc.held i p hp (hfits.mute hwired hopen)
      · rw [hstays.client] at hj
        by_cases hij : j = i
        · subst hij
          have hwired := (hc.current j p hj hp).wired
          obtain ⟨r, hr, hopen, htunnels⟩ := hcalms.sockets q hq
          rw [hget] at hr
          cases hr
          have hgot := congrArg (·[j]?) hstays.wired
          simp only [List.getElem?_map, hq, hp, Option.map_some] at hgot
          refine ⟨(Option.some.inj hgot).trans hwired, fun hqopen => ?_, fun hne => ?_⟩
          · rcases hfits.socket hwired (hopen hqopen) with ⟨hover, honward⟩ | hclosed
            · cases hend : (List.foldl (onSignal make j) _ d.out).state.over with
              | false => rfl
              | true =>
                  have hbefore := onSignals_onward honward hend
                  change c.state.over = true at hbefore
                  rw [hover] at hbefore
                  cases hbefore
            · have := onSignals_remoteClosed (hc.owned.stays hput) hclosed q hq
              rw [this] at hqopen
              cases hqopen
          · exact absurd (htunnels.trans (hfits.tunnels hwired)) hne
        · rw [hcalms.others j hij, putPeer, List.getElem?_set_ne (Ne.symm hij)] at hq
          have hmuted : Mute i c := by
            intro r hr
            cases hwired : r.wired with
            | false => rfl
            | true =>
                have := hc.owned i r hr hwired
                rw [hj] at this
                exact absurd (Option.some.inj this) hij
          rw [hmute hmuted]
          exact hc.current j q hj hq

/-- The tunnels of a client behind a call are those the call left. -/
theorem call_tunnels (hc : c.Owned) {f : Client → Client}
    (hp : c.peers[i]? = some p) (hf : (f { p.client with out := [] }).openingTunnels =
      p.client.openingTunnels) (hq : (c.call make i f).peers[i]? = some q) :
    q.client.openingTunnels = p.client.openingTunnels := by
  rw [call, hp] at hq
  dsimp only at hq
  split at hq
  · cases hp.symm.trans hq
    rfl
  · have hput : Stays c
        (c.putPeer i { p with client := f { p.client with out := [] } }) :=
      .putPeer hp rfl
    obtain ⟨r, hr, -, htunnels⟩ :=
      (Calms.onSignals (hc.stays hput) _).sockets q hq
    rw [putPeer, List.getElem?_set_self (List.getElem?_eq_some_iff.mp hp).1] at hr
    cases hr
    exact htunnels.trans hf

/-- A call that does nothing. -/
theorem call_idle (hc : Inv c) {f : Client → Client} (hp : c.peers[i]? = some p)
    (hf : f { p.client with out := [] } = { p.client with out := [] }) :
    Inv (c.call make i f) := by
  rw [call, hp]
  dsimp only
  split
  · exact hc
  · rw [hf]
    have hput : Calms i c
        (c.putPeer i { p with client := { p.client with out := [] } }) :=
      .putPeer hp rfl id rfl
    refine ⟨hc.owned.stays hput.stays, hput.held hc.held, fun j q hj hq => ?_⟩
    by_cases hij : j = i
    · subst hij
      rw [List.foldl_nil, putPeer,
        List.getElem?_set_self (List.getElem?_eq_some_iff.mp hp).1] at hq
      cases hq
      have hplaced := hc.current j p hj hp
      refine ⟨hplaced.wired, hplaced.socket, fun htunnels => ?_⟩
      obtain ⟨⟨hsocket, hposted, hlength, hstate, hstarted⟩, hs⟩ :=
        hplaced.dialling htunnels
      exact ⟨⟨hsocket, hposted, hlength, hstate, hstarted⟩, hs⟩
    · have hother := hput.others j hij
      exact hc.current j q hj (hother.symm.trans hq)

/-- A chain of moves of a client that has no tunnel open. -/
theorem Fits.of_speaks {s : State} {d : Client}
    (hspeaks : Speaks { p.client with out := [] } d)
    (htunnels : p.wired = true → p.client.openingTunnels = [])
    (hover : p.wired = true → p.hasOpenSocket = true → s.over = false) :
    Fits s p d := by
  have hopen : ({ p with client := d } : Peer).hasOpenSocket = true →
      p.hasOpenSocket = true ∧ ¬ d.aborted := by
    intro h
    obtain ⟨k, hk, hlive, hkopen, hshut⟩ := (Peer.open_iff _).mp h
    obtain ⟨l, hl, hid, hlopen⟩ := hspeaks.socket k hk
    refine ⟨p.open_iff.mpr ⟨l, hl, hlive, hlopen hkopen, ?_⟩, fun haborted => ?_⟩
    · rw [hid]
      exact hshut
    · rw [haborted k hk] at hkopen
      cases hkopen
  refine ⟨fun _ h => (hopen h).1, fun hwired => ?_, fun hwired h => .inl ?_⟩
  · exact hspeaks.tunnels.trans (htunnels hwired)
  · obtain ⟨new, hout, honward | haborted⟩ := hspeaks.told
    · rw [List.nil_append] at hout
      rw [hout]
      exact ⟨hover hwired (hopen h).1, honward⟩
    · exact absurd haborted (hopen h).2

/-- The peer closes the session. -/
theorem Fits.of_remoteClosed {s : State}
    (htunnels : p.wired = true → p.client.openingTunnels = []) :
    Fits s p ((Client.setState .disconnected { p.client with out := [] }).emit
      .remoteClosed) := by
  have hsocket : ∀ c : Client, (c.setState .disconnected).socket = c.socket ∧
      (c.setState .disconnected).openingTunnels = c.openingTunnels := by
    intro c
    rw [Client.setState]
    split <;> exact ⟨rfl, rfl⟩
  obtain ⟨hsame, hkept⟩ := hsocket { p.client with out := [] }
  refine ⟨fun _ hopen => ?_, fun hwired => ?_, fun _ _ => .inr ?_⟩
  · obtain ⟨k, hk, hrest⟩ := (Peer.open_iff _).mp hopen
    exact p.open_iff.mpr ⟨k, hsame.symm.trans hk, hrest⟩
  · exact hkept.trans (htunnels hwired)
  · exact List.mem_append_right _ (List.mem_singleton.mpr rfl)

/-- A client that failed. -/
theorem Fits.of_aborted {s : State} {d : Client} (h : d.aborted)
    (htunnels : p.wired = true → d.openingTunnels = []) : Fits s p d := by
  have hclosed : ({ p with client := d } : Peer).hasOpenSocket ≠ true := by
    intro hopen
    obtain ⟨k, hk, -, hkopen, -⟩ := (Peer.open_iff _).mp hopen
    rw [h k hk] at hkopen
    cases hkopen
  exact ⟨fun _ hopen => absurd hopen hclosed, htunnels,
    fun _ hopen => absurd hopen hclosed⟩

/-- A client that is wired has no tunnel on the way, or waits for it. -/
theorem Inv.tunnels (hc : Inv c) (hp : c.peers[i]? = some p) :
    (p.wired = true → p.client.openingTunnels = []) ∨
      Dialling p ∧ c.state = .connecting := by
  cases hwired : p.wired with
  | false => exact .inl fun h => by cases h
  | true =>
      have hplaced := hc.current i p (hc.owned i p hp hwired) hp
      by_cases htunnels : p.client.openingTunnels = []
      · exact .inl fun _ => htunnels
      · exact .inr (hplaced.dialling htunnels)

theorem Inv.over (hc : Inv c) (hp : c.peers[i]? = some p) :
    p.wired = true → p.hasOpenSocket = true → c.state.over = false :=
  fun hwired => (hc.current i p (hc.owned i p hp hwired) hp).socket

theorem slot_inv (hc : Inv c) (i : Nat) {e : Redir.Event} (he : e.slot = true) :
    Inv (c.call make i (·.handle env e)) := by
  cases hp : c.peers[i]? with
  | none =>
      rw [call, hp]
      exact hc
  | some p =>
      rcases hc.tunnels hp with htunnels | ⟨hdialling, -⟩
      · refine call_inv hc fun q hq _ => ?_
        cases hp.symm.trans hq
        rcases (Turns.slot he _ : { p.client with out := [] }.handle env e = _ ∨ _) with heq | hturns
        · rw [heq]
          exact .of_remoteClosed htunnels
        · exact .of_speaks (.of_turns hturns) htunnels (hc.over hp)
      · exact call_idle hc hp
          (Client.handle_idle he hdialling.socket hdialling.posted)

/-- The answer of a tunnel, which finds the client waiting for it, or given
up; then it was not opened. -/
theorem tunnelDone_inv (hc : Inv c) (i k : Nat) (fd : Option Bool)
    (error : String) (hok : fd = some true →
      (c.peers[i]?).all (fun p => p.wired || p.destroyed) = true) :
    Inv (c.call make i (·.handle env (.tunnelDone k fd error))) := by
  cases hp : c.peers[i]? with
  | none =>
      rw [call, hp]
      exact hc
  | some p =>
      cases hk : p.client.openingTunnels[k]? with
      | none =>
          refine call_idle hc hp ?_
          rw [Client.handle, Client.tunnelDone, hk]
      | some address =>
          refine call_inv hc fun q hq hlive => ?_
          cases hp.symm.trans hq
          have hlast : p.wired = true →
              p.client.openingTunnels.eraseIdx k = [] ∧
                p.client.state = .connecting ∧ c.state = .connecting := by
            intro hwired
            rcases hc.tunnels hp with htunnels | ⟨hdialling, hstate⟩
            · rw [htunnels hwired] at hk
              cases hk
            · have hlength := hdialling.tunnels
              have hbound := (List.getElem?_eq_some_iff.mp hk).1
              refine ⟨?_, hdialling.state, hstate⟩
              rw [← List.length_eq_zero_iff, List.length_eraseIdx]
              split <;> omega
          rw [Client.handle, Client.tunnelDone, hk]
          obtain ⟨host, port⟩ := address
          cases fd with
          | none =>
              refine .of_aborted (Client.aborted_fail _ _) fun hwired => ?_
              exact (Speaks.fail _ _).tunnels.trans (hlast hwired).1
          | some accepted =>
              cases accepted with
              | false =>
                  refine .of_aborted (Client.aborted_fail _ _) fun hwired => ?_
                  exact (Speaks.fail _ _).tunnels.trans (hlast hwired).1
              | true =>
                  have hwired : p.wired = true := by
                    have := hok rfl
                    rw [hp, Option.all_some, hlive, Bool.or_false] at this
                    exact this
                  obtain ⟨hempty, hstate, hs⟩ := hlast hwired
                  have hadopted := adopt_quiet env (c := { p.client with
                    out := [], openingTunnels := p.client.openingTunnels.eraseIdx k })
                    hstate
                  refine ⟨fun hmute => ?_, fun _ => ?_, fun _ _ => .inl ⟨?_, ?_⟩⟩
                  · rw [hmute] at hwired
                    cases hwired
                  · exact hadopted.2.trans hempty
                  · rw [hs]
                    rfl
                  · intro e he
                    rw [hadopted.1] at he
                    cases he

/-! ## Giving up and opening -/

theorem vacant_of_free (h : c.free make = true) (hhangs : ¬ make.hangsUp = true) :
    c.vacant = true := by
  rw [free, Bool.or_eq_true] at h
  exact h.resolve_left hhangs

theorem closed_of_vacant (h : c.vacant = true) (hi : c.client = some i)
    (hp : c.peers[i]? = some p) : p.hasOpenSocket = false := by
  rw [vacant, hi] at h
  simpa [hp] using h

theorem disconnectFromHost_closed
    (hq : (c.disconnectFromHost make i).peers[i]? = some q) :
    q.hasOpenSocket = false := by
  rw [Controller.disconnectFromHost] at hq
  split at hq
  · next hnone =>
    rw [hnone] at hq
    cases hq
  · next p hp =>
    have hlen := (List.getElem?_eq_some_iff.mp hp).1
    split at hq <;>
    · simp only [onStateChanged, setState, putPeer, List.getElem?_set_self hlen]
        at hq
      cases hq
      exact p.disconnectFromHost_closed

theorem teardown_released (hc : Inv c) (hfree : c.free make = true) :
    HeldBy Peer.hasOpenSocket (c.teardown make).peers none := by
  rw [teardown]
  split
  · next hnone =>
    have hheld := hc.held
    rw [hnone] at hheld
    exact hheld
  · next i hi =>
    have hunwired : HeldBy Peer.hasOpenSocket
        (c.peers.modify i ({ · with wired := false })) c.client :=
      hc.held.modify fun _ h => h
    split
    · have hcalms : Calms i
          { c with peers := c.peers.modify i ({ · with wired := false }) }
          (Controller.disconnectFromHost make i _) := .disconnectFromHost i _
      refine (hcalms.held hunwired).release none fun j q hj hq => ?_
      rw [hcalms.stays.client] at hj
      cases hi.symm.trans hj
      exact disconnectFromHost_closed hq
    · next hhangs =>
      have hvacant := vacant_of_free hfree hhangs
      refine hunwired.release none fun j q hj hq => ?_
      rw [hi] at hj
      cases hj
      rw [List.getElem?_modify] at hq
      obtain ⟨p, hp, rfl⟩ := Option.map_eq_some_iff.mp hq
      rw [if_pos rfl]
      have hclosed := closed_of_vacant hvacant hi hp
      exact hclosed

/-- A controller without a client is free of the rest of the invariant. -/
theorem Inv.of_none (howned : c.Owned) (hnone : c.client = none)
    (hheld : HeldBy Peer.hasOpenSocket c.peers none) : Inv c where
  owned := howned
  held := by
    rw [hnone]
    exact hheld
  current i p hi := by
    rw [hnone] at hi
    cases hi

theorem teardown_inv (hc : Inv c) (hfree : c.free make = true) (s : State) :
    Inv ((c.teardown make).setState s) := by
  obtain ⟨howned, hnone, -⟩ := teardown_spec make hc.owned
  exact .of_none howned hnone (teardown_released hc hfree)

/-- The client in `m_client` asks for its tunnel. -/
theorem dialling_inv {f : Client → Client} {d : Client} (hc : Inv c)
    (hi : c.client = some i) (hp : c.peers[i]? = some p) (hwired : p.wired = true)
    (hlive : p.destroyed = false) (hf : f { p.client with out := [] } = d)
    (hout : d.out = [.stateChanged .connecting])
    (hd : Dialling { p with client := d }) : Inv (c.call make i f) := by
  have hself : (c.putPeer i { p with client := d }).peers[i]? =
      some { p with client := d } := by
    rw [putPeer, List.getElem?_set_self (List.getElem?_eq_some_iff.mp hp).1]
  have hcall : c.call make i f =
      (c.putPeer i { p with client := d }).setState .connecting := by
    rw [call, hp]
    dsimp only
    rw [if_neg (by simp [hlive]), hf, hout, List.foldl_cons, onSignal, hself]
    dsimp only
    rw [hwired, if_pos rfl]
    rfl
  have hclosed : ({ p with client := d } : Peer).hasOpenSocket ≠ true := by
    intro hopen
    obtain ⟨k, hk, -⟩ := (Peer.open_iff _).mp hopen
    rw [hd.socket] at hk
    cases hk
  have hput : Stays c (c.putPeer i { p with client := d }) := .putPeer hp rfl
  rw [hcall]
  refine ⟨hc.owned.stays (hput.trans (.setState _ _)),
    hc.held.set fun h => absurd h hclosed,
    fun j q hj hq => ?_⟩
  cases hi.symm.trans hj
  cases hself.symm.trans hq
  exact ⟨hwired, fun h => absurd h hclosed, fun _ => ⟨hd, rfl⟩⟩

/-- The new client connects, or waits for its tunnel. -/
theorem connectTo_inv (howned : c.Owned) (hnone : c.client = none)
    (hheld : HeldBy Peer.hasOpenSocket c.peers none) (host : String) (port : Nat) :
    Inv (Controller.call make c.peers.length (·.connectTo host port)
      { c with peers := c.peers ++ [{ client := c.newClient make }],
               client := some c.peers.length, lastError := "",
               state := .connecting }) := by
  have hget : (c.peers ++ [{ client := c.newClient make }])[c.peers.length]? =
      some ({ client := c.newClient make } : Peer) := by
    rw [List.getElem?_append_right (Nat.le_refl _), Nat.sub_self]
    rfl
  have hmade : Inv { c with
      peers := c.peers ++ [{ client := c.newClient make }],
      client := some c.peers.length, lastError := "", state := .connecting } := by
    refine ⟨?_, hheld.append _, fun i p hi hp => ?_⟩
    · have hnone' := howned
      rw [Owned, hnone] at hnone'
      exact hnone'.append _
    · cases hi
      cases hget.symm.trans hp
      exact ⟨rfl, fun _ => rfl, fun h => absurd rfl h⟩
  cases htunnel : c.sshSession.isSome with
  | false =>
      refine call_inv hmade fun p hp _ => ?_
      cases hget.symm.trans hp
      have hconnect : Client.connectTo host port
          { c.newClient make with out := [] } =
          (Client.freshSocket false true { c.newClient make with out := [] }).setState
            .connecting := by
        rw [Client.connectTo, newClient, htunnel]
        rfl
      rw [hconnect]
      refine ⟨fun h => ?_, fun _ => rfl, fun _ _ => .inl ⟨rfl, fun e he => ?_⟩⟩
      · cases h
      · cases List.mem_singleton.mp he
        rfl
  | true =>
      have hconnect : Client.connectTo host port
          { c.newClient make with out := [] } =
          { c.newClient make with state := .connecting,
                                  openingTunnels := [(host, port)],
                                  out := [.stateChanged .connecting] } := by
        rw [Client.connectTo, newClient, htunnel]
        rfl
      exact dialling_inv hmade rfl hget rfl rfl hconnect rfl ⟨rfl, rfl, rfl, rfl, rfl⟩

theorem openNow_inv (hc : Inv c) (hfree : c.free make = true) : Inv (c.openNow make) := by
  have hinv : Inv { c with openDeferred := false } := { hc with }
  have hreleased := teardown_released hinv hfree
  obtain ⟨howned, hnone, -⟩ := teardown_spec make hinv.owned
  rw [openNow]
  dsimp only
  split
  · exact .of_none howned hnone hreleased
  · split
    · exact .of_none howned hnone hreleased
    · exact connectTo_inv howned hnone hreleased _ _

theorem openNow_deferred (hc : c.Owned) : (c.openNow make).openDeferred = false := by
  obtain ⟨-, -, hflag, -⟩ := teardown_spec make
    (c := { c with openDeferred := false }) hc
  rw [openNow]
  dsimp only
  split
  · exact hflag
  · split
    · exact hflag
    · exact (Stays.call _ _).deferred.trans hflag

theorem open_inv (hc : Inv c) (hfree : c.sshPending = false → c.free make = true) :
    Inv (c.open make) := by
  rw [Controller.open]
  split
  · have hdeferred : Inv { c with openDeferred := true, lastError := "" } :=
      { hc with }
    exact hdeferred.setState rfl fun _ _ _ _ _ => rfl
  · next hpending => exact openNow_inv hc (hfree (by simpa using hpending))

theorem onHostSignal_inv (hc : Inv c) {s : HostSignal}
    (hfree : c.openDeferred = true → c.sshConnected = true → s = .connectedChanged →
      c.free make = true) : Inv (onHostSignal make c s) := by
  cases s with
  | connectedChanged =>
      rw [onHostSignal]
      split
      · next hopens =>
        rw [Bool.and_eq_true] at hopens
        have hdown : Inv { c with openDeferred := false } := { hc with }
        refine open_inv hdown fun _ => ?_
        exact hfree hopens.1 hopens.2 rfl
      · exact hc
  | _ => exact { hc with }

/-- The deferred open is made once. -/
theorem onHostSignal_deferred (hc : c.Owned) {s : HostSignal}
    (h : (onHostSignal make c s).openDeferred = true) :
    c.openDeferred = true ∧ Beside c (onHostSignal make c s) := by
  cases s with
  | connectedChanged =>
      rw [onHostSignal] at h ⊢
      split at h
      · next hopens =>
        rw [Bool.and_eq_true] at hopens
        have hready : sshPending { c with openDeferred := false } = false := by
          have hconnected : sshConnected { c with openDeferred := false } = true :=
            hopens.2
          rw [sshPending, hconnected, Bool.not_true, Bool.and_false]
        have hdone : (Controller.open make
            { c with openDeferred := false }).openDeferred = false := by
          rw [Controller.open, hready]
          exact openNow_deferred hc
        rw [hdone] at h
        cases h
      · next hopens =>
        rw [if_neg hopens]
        exact ⟨h, .refl c⟩
  | _ => exact ⟨h, ⟨rfl, rfl, rfl, rfl⟩⟩

theorem free_beside (h : c.free make = true) (hb : Beside c d) :
    d.free make = true := by
  rw [free, vacant, hb.client, hb.peers]
  exact h

theorem ssh_inv (hc : Inv c) (e : World.Event)
    (hfree : c.reopens e = true → c.free make = true) : Inv (c.ssh make e) := by
  rw [ssh]
  split
  · exact hc
  · next t ht =>
    rw [reopens, ht, Option.any_some] at hfree
    dsimp only
    generalize hafter : hostAfter e t = t' at hfree ⊢
    have hput : Inv { c with sshHost := some t' } := { hc with }
    have hhost : ({ c with sshHost := some t' } : Controller).sshHost = some t' := rfl
    have hstill : ({ c with sshHost := some t' } : Controller).openDeferred = true →
        t'.isConnected = true → .connectedChanged ∈ t'.host.out →
        free make { c with sshHost := some t' } = true := by
      intro hflag hconnected hout
      have hfree' := hfree (by
        rw [hconnected, Bool.true_and, Bool.and_eq_true]
        exact ⟨hflag, List.contains_iff_mem.mpr hout⟩)
      exact free_beside hfree' ⟨rfl, rfl, rfl, rfl⟩
    generalize t'.host.out = out at hstill ⊢
    generalize ({ c with sshHost := some t' } : Controller) = b at hput hhost hstill ⊢
    induction out generalizing b with
    | nil => exact hput
    | cons s out ih =>
        rw [List.foldl_cons]
        have hconnected : b.sshConnected = t'.isConnected := by
          rw [sshConnected, hhost, Option.any_some]
        refine ih _ (onHostSignal_inv hput fun hflag hup heq => ?_)
          ((onHostSignal_sshHost hput.owned s).trans hhost) fun hflag hup hmem => ?_
        · rw [hconnected] at hup
          exact hstill hflag hup (heq ▸ List.mem_cons_self)
        · obtain ⟨hbefore, hbeside⟩ := onHostSignal_deferred hput.owned hflag
          exact free_beside (hstill hbefore hup (List.mem_cons_of_mem _ hmem)) hbeside

/-- The user's calls of the host do not connect it. -/
theorem reopens_setConfig (cfg : Config) (c : Controller) :
    c.reopens (.setConfig cfg) = false := by
  have hhost : ∀ t, ((hostAfter (.setConfig cfg) t).isConnected &&
      (hostAfter (.setConfig cfg) t).host.out.contains .connectedChanged) = false := by
    intro t
    rw [hostAfter]
    unfold World.step
    split
    · exact Bool.and_false _
    · dsimp only [World.setConfig]
      split
      · rw [World.isConnected]
        dsimp only
        rw [SshTunnelHost.disable_session, Bool.false_and]
      · split <;> exact Bool.and_false _
  rw [reopens]
  cases c.sshHost with
  | none => exact Bool.and_false _
  | some t => rw [Option.any_some, hhost, Bool.and_false]

theorem reopens_trustPendingHostKey (persist : Bool) (c : Controller) :
    c.reopens (.trustPendingHostKey persist) = false := by
  have hhost : ∀ t, (hostAfter (.trustPendingHostKey persist) t).host.out.contains
      .connectedChanged = false := by
    intro t
    rw [hostAfter]
    unfold World.step
    split
    · rfl
    · dsimp only [World.trustPendingHostKey]
      split
      · split <;> rfl
      · rfl
  rw [reopens]
  cases c.sshHost with
  | none => exact Bool.and_false _
  | some t => rw [Option.any_some, hhost, Bool.and_false, Bool.and_false]

/-! ## Steps -/

/-- The session that is heard is that of the client in `m_client`, which has
its tunnel, if it asked for one. -/
theorem sessionHeard_spec (hc : Inv c) (h : c.sessionHeard i = true) :
    ∃ p, c.peers[i]? = some p ∧ c.client = some i ∧ p.client.openingTunnels = [] := by
  rw [sessionHeard] at h
  cases hp : c.peers[i]? with
  | none =>
      rw [hp] at h
      cases h
  | some p =>
      rw [hp, Option.any_some, Bool.and_eq_true, Bool.and_eq_true] at h
      have hi := hc.owned i p hp h.1.1
      refine ⟨p, rfl, hi, ?_⟩
      by_contra hne
      have hstarted := ((hc.current i p hi hp).dialling hne).1.started
      rw [h.1.2] at hstarted
      cases hstarted

theorem onClosed_inv (hc : Inv c) (hheard : c.sessionHeard i = true)
    (hfree : c.free make = true) (reason : String) : Inv (c.onClosed make reason) := by
  obtain ⟨p, hp, hi, htunnels⟩ := sessionHeard_spec hc hheard
  have hcalms : Calms i c (c.onClosed make reason) := .onClosed hi reason
  refine ⟨hc.owned.stays hcalms.stays, hcalms.held hc.held, fun j q hj hq => ?_⟩
  rw [hcalms.stays.client] at hj
  cases hi.symm.trans hj
  obtain ⟨r, hr, hopen, hkept⟩ := hcalms.sockets q hq
  cases hp.symm.trans hr
  have hclosed : q.hasOpenSocket ≠ true := by
    intro hqopen
    by_cases hhangs : make.hangsUp = true
    · rw [onClosed, hhangs] at hq
      dsimp only [setState, setLastError] at hq
      rw [hi] at hq
      rw [disconnectFromHost_closed hq] at hqopen
      cases hqopen
    · have hvacant := closed_of_vacant (vacant_of_free hfree hhangs) hi hp
      rw [hopen hqopen] at hvacant
      cases hvacant
  have hwired := congrArg (·[i]?) hcalms.stays.wired
  simp only [List.getElem?_map, hq, hp, Option.map_some, Option.some.injEq] at hwired
  exact ⟨hwired.trans (hc.current i p hi hp).wired, fun h => absurd h hclosed,
    fun hne => absurd (hkept.trans htunnels) hne⟩

theorem destroy_inv (hc : Inv c) (i : Nat) :
    Inv (c.handle make env (.destroy i)) := by
  refine ⟨hc.owned.stays (destroy_stays i c), ?_, fun j q hj hq => ?_⟩
  · refine hc.held.modify fun p hopen => ?_
    split at hopen
    · exact hopen
    · obtain ⟨k, -, hlive, -⟩ := (Peer.open_iff _).mp hopen
      cases hlive
  · rw [handle, List.getElem?_modify] at hq
    obtain ⟨p, hp, rfl⟩ := Option.map_eq_some_iff.mp hq
    have hplaced := hc.current j p hj hp
    have hsame : (if i = j then
        (if p.wired = true then p else { p with destroyed := true }) else p) = p := by
      rw [hplaced.wired, if_pos rfl]
      split <;> rfl
    rw [hsame]
    exact hplaced

theorem trustPendingCert_inv (hc : Inv c) (persist : Bool) :
    Inv (c.trustPendingCert make env persist) := by
  rcases trustPendingCert_cases persist c with hsame | ⟨i, hi, hstate, hauth, hpeers, hstays⟩
  · rw [hsame]
    exact hc
  · cases hp : c.peers[i]? with
    | none =>
        have hcall : c.call make i (·.trustPendingPeerCert env) = c := by
          rw [call, hp]
        rw [hcall] at hpeers
        refine ⟨hc.owned.stays hstays, ?_, fun j q hj hq => ?_⟩
        · rw [hpeers, hstays.client]
          exact hc.held
        · rw [hstays.client, hi] at hj
          cases hj
          rw [hpeers, hp] at hq
          cases hq
    | some p =>
        -- a client that was asked about its certificate has no tunnel to wait for
        have htunnels : p.wired = true → p.client.openingTunnels = [] := by
          rcases hc.tunnels hp with h | ⟨-, hconnecting⟩
          · exact h
          · rw [hstate] at hconnecting
            cases hconnecting
        have hspeaks : Speaks { p.client with out := [] }
            (Client.trustPendingPeerCert env { p.client with out := [] }) :=
          .of_turns (.trustPendingPeerCert _)
        have hinv : Inv (c.call make i (·.trustPendingPeerCert env)) := by
          refine call_inv hc fun q hq _ => ?_
          cases hp.symm.trans hq
          exact .of_speaks hspeaks htunnels (hc.over hp)
        have hcall : Stays c (c.call make i (·.trustPendingPeerCert env)) := .call _ c
        refine ⟨hc.owned.stays hstays, ?_, fun j q hj hq => ?_⟩
        · rw [hpeers, hstays.client, ← hcall.client]
          exact hinv.held
        · rw [hstays.client] at hj
          rw [hpeers] at hq
          cases hi.symm.trans hj
          have hwired := (hinv.current i q (hcall.client.trans hi) hq).wired
          refine ⟨hwired, fun _ => ?_, fun hne => ?_⟩
          · rw [hauth]
            rfl
          · have hkept := call_tunnels hc.owned hp hspeaks.tunnels hq
            rw [htunnels (hc.current i p hi hp).wired] at hkept
            exact absurd hkept hne

theorem step_inv (hc : Inv c) (e : Event) (hok : c.orderly make e = true) :
    Inv (step make env c e) := by
  rw [step]
  split
  · exact hc
  · cases e with
    | setSshConfig cfg =>
        rw [handle]
        obtain ⟨b, s, hbeside, -, heq⟩ := setSshConfig_cases cfg c
        rw [heq]
        have hssh : Inv (b.ssh make (.setConfig cfg)) := by
          refine ssh_inv (hc.beside hbeside) _ fun h => ?_
          rw [reopens_setConfig] at h
          cases h
        exact { hssh with }
    | trustPendingSshHostKey persist =>
        rw [handle]
        rcases trustPendingSshHostKey_cases persist c with hsame | ⟨b, hbeside, -, heq⟩
        · rw [hsame]
          exact hc
        · rw [heq]
          refine ssh_inv (hc.beside hbeside) _ fun h => ?_
          rw [reopens_trustPendingHostKey] at h
          cases h
    | «open» =>
        rw [orderly, Bool.or_eq_true] at hok
        refine open_inv hc fun hready => hok.resolve_left fun hpending => ?_
        rw [hready] at hpending
        cases hpending
    | close => exact teardown_inv hc hok _
    | trustPendingCert persist => exact trustPendingCert_inv hc persist
    | ssh e =>
        rw [handle]
        split
        · rw [orderly, Bool.or_eq_true, Bool.not_eq_true'] at hok
          refine ssh_inv hc e fun hreopens => hok.resolve_left fun hidle => ?_
          rw [hreopens] at hidle
          cases hidle
        · exact hc
    | client i e =>
        rw [handle]
        split
        · next hturn =>
          cases e with
          | tunnelDone k fd error =>
              refine tunnelDone_inv hc i k fd error fun hfd => ?_
              rw [hfd] at hok
              exact hok
          | postedHandleConnected => exact slot_inv hc i rfl
          | connected => exact slot_inv hc i rfl
          | encrypted cert => exact slot_inv hc i rfl
          | readyRead chunk => exact slot_inv hc i rfl
          | errorOccurred closed error => exact slot_inv hc i rfl
          | writeRaw bytes => exact slot_inv hc i rfl
          | _ => cases hturn
        · exact hc
    | established i =>
        rw [handle]
        split
        · next hheard =>
          obtain ⟨p, hp, hi, htunnels⟩ := sessionHeard_spec hc hheard
          refine hc.setState make.going.2 fun j q hj hq hne => ?_
          cases hi.symm.trans hj
          cases hp.symm.trans hq
          exact absurd htunnels hne
        · exact hc
    | sessionClosed i reason =>
        rw [handle]
        split
        · next hheard =>
          rw [orderly, hheard, Bool.not_true, Bool.false_or] at hok
          exact onClosed_inv hc hheard hok reason
        · exact hc
    | destroy i => exact destroy_inv hc i
    | _ => exact { hc with }

/-! ## Runs -/

/-- In a run in which sockets are given up only closed, or by a controller
that hangs up, and no tunnel opens for a client that was given up, the
transport is released at all times. -/
theorem transport_released (make : Make) (env : Env) (es : List Event)
    (h : ∀ x ∈ trail (step make env) {} es, x.1.orderly make x.2 = true) :
    ∀ early, early <+: es → Released (run (step make env) {} early) := by
  have hfresh : Inv {} :=
    ⟨HeldBy.nil, HeldBy.nil, fun i p hi _ => by cases hi⟩
  have hkeeps : ∀ c e, Inv c → c.orderly make e = true → Inv (step make env c e) :=
    fun c e hc hok => step_inv hc e hok
  intro early hearly
  exact (invariant_of_trail hkeeps hfresh h early hearly).released

/-- An AMT that takes what is written. -/
private def willing : Env where
  write _ bytes := bytes.length
  errorString _ := ""
  md5Hex := id
  sha256 := id
  makeClientNonce _ := []

/-- The user opens twice, and closes. -/
private def reopening : List Event :=
  [.setHost "amt", .open, .client 0 .connected, .open, .client 1 .connected,
    .destroy 0, .close]

theorem transport_released_reopening :
    (run (step KvmController willing) {} reopening).peers.length = 2 ∧
      ∀ early, early <+: reopening →
        Released (run (step KvmController willing) {} early) :=
  ⟨by decide, transport_released _ _ _ (by decide)⟩

/-- An open through the tunnel, and the tunnel opens behind the close. -/
private def overtaken : List Event :=
  [.setHost "amt",
    .setSshConfig { enabled := true, host := "jump",
                    trustedHostKeyFingerprints := ["3F:A0"] },
    .ssh (.workerTurn 0 { hostKey := [0x3F, 0xA0] }), .ssh .deliver,
    .ssh .deliver, .ssh .deliver, .ssh .deliver, .open, .close,
    .client 0 (.tunnelDone 0 (some true) "")]

private theorem not_released_of_over (hover : c.state.over = true)
    (hopen : c.peers.any Peer.hasOpenSocket = true) : ¬ Released c := by
  intro h
  obtain ⟨p, hp, hpopen⟩ := List.any_eq_true.mp hopen
  rw [h.vacated hover p hp] at hpopen
  cases hpopen

private theorem not_released_of_two
    (hfirst : (c.peers[0]?).any Peer.hasOpenSocket = true)
    (hsecond : (c.peers[1]?).any Peer.hasOpenSocket = true) : ¬ Released c := by
  intro h
  obtain ⟨p, hp, hpopen⟩ := (Option.any_eq_true _ _).mp hfirst
  obtain ⟨q, hq, hqopen⟩ := (Option.any_eq_true _ _).mp hsecond
  cases h.one 0 1 p q hp hq hpopen hqopen

/-- The client that was given up keeps its socket, next to that of the new
client or under a controller that reports the end; and one that was given up
while its tunnel was on the way opens one. -/
theorem transport_kept :
    ¬ Released (run (step SolController willing) {}
        [.setHost "amt", .open, .client 0 .connected, .open]) ∧
      ¬ Released (run (step SolController willing) {}
        [.setHost "amt", .open, .client 0 .connected, .close]) ∧
      ¬ Released (run (step IderController willing) {}
        [.setHost "amt", .setIsoPath "boot.iso", .open, .client 0 .connected,
          .close]) ∧
      ¬ Released (run (step KvmController willing) {} overtaken) :=
  ⟨not_released_of_two (by decide) (by decide),
    not_released_of_over (by decide) (by decide),
    not_released_of_over (by decide) (by decide),
    not_released_of_over (by decide) (by decide)⟩

end Controller

end QuMesh.App
