import QuMesh.Proofs.StalledFrames

/-!
# What a cancelled client still does

`disconnectFromHost` sets the state and asks the socket to close; `fail`
aborts it. Neither takes back what is already under way: the callback of a
tunnel that is being opened, a posted `handleConnected`, a prompt the user has
not answered, bytes and signals of a socket that has not closed yet. None of
them carries the number of the attempt it belongs to, and no slot looks at the
state first. `cancelled_returns` lets a tunnel come up after the user hung up.

`cancelled_stays` lists what a run has to be spared for a cancelled client to
stay one. Each entry is something the event loop may deliver, and the cases of
`HeldBack` are the only ones: with those held back the client neither leaves
`Disconnected` and `Failed`, nor adopts a socket, nor gets a frame out, and a
tunnel's descriptor always belongs to the latest connect.
-/

namespace QuMesh.Redir

open QuMesh.Lib

/-- There is no session and none on the way. -/
def State.ended : State → Bool
  | .disconnected | .failed => true
  | _ => false

/-- A frame of the client's own that a socket took. -/
def Effect.accepted? : Effect → Option (Nat × Frame)
  | .wrote _ (.raw _) _ => none
  | .wrote k frame result => if 0 ≤ result then some (k, frame) else none
  | _ => none

def Client.accepted (c : Client) : List (Nat × Frame) :=
  c.out.filterMap Effect.accepted?

/-- The user's calls that begin a new attempt. -/
def Event.connects : Event → Bool
  | .connectTo .. | .connectViaSocketDescriptor _ => true
  | _ => false

/-- The attempt was called off or failed in an event that left the client as
`a`, and there has been no new one since. -/
def Cancelled (env : Env) (past : List (Client × Event)) (a : Client) : Prop :=
  ∃ pre c e post, past = pre ++ (c, e) :: post ∧ a = c.handle env e ∧
    (e = .disconnectFromHost ∨ a.state = .failed) ∧
    ∀ p ∈ post, p.2.connects = false

/-- From `c` to `d` the client stayed down: no socket was made, and no frame
of its own was taken. -/
structure Still (c d : Client) : Prop where
  state : d.state.ended = true
  sockets : d.sockets = c.sockets
  accepted : d.accepted = c.accepted

/-- For each tunnel that is being opened, whether the latest connect asked for
it. -/
def currentOpens (past : List (Client × Event)) : List Bool :=
  past.foldl (fun opens p =>
    match p.2 with
    | .connectTo .. =>
        opens.map (fun _ => false) ++ if p.1.tunnelOpener then [true] else []
    | .connectViaSocketDescriptor _ => opens.map fun _ => false
    | .tunnelDone i _ _ => opens.eraseIdx i
    | _ => opens) []

/-- A cancelled client stays down, and a tunnel's descriptor is adopted for
the latest connect only. -/
structure CancelHolds (env : Env) (past : List (Client × Event))
    (c : Client) : Prop where
  stays : ∀ a, Cancelled env past a → Still a c
  latest : ∀ pre c' i fd error post,
    past = pre ++ (c', .tunnelDone i (some fd) error) :: post →
    (c'.handle env (.tunnelDone i (some fd) error)).sockets ≠ c'.sockets →
    (currentOpens pre)[i]? = some true

/-- The socket, if it is still open, would not take the selector. -/
def SelectorRefused (env : Env) (c : Client) : Prop :=
  c.listening = true → env.write c.writes (Frame.selector c.protocol).bytes < 0

/-- What a run has to be spared: a descriptor for a cancelled attempt or for
one that is not the latest, and while the attempt is cancelled the calls of
`handleConnected` whose selector would go out, and a `0x11` Success. -/
def HeldBack (env : Env) (past : List (Client × Event)) (c : Client) :
    Event → Prop
  | .tunnelDone i (some _) _ =>
      i < c.openingTunnels.length →
        (¬ ∃ a, Cancelled env past a) ∧ (currentOpens past)[i]? ≠ some false
  | .postedHandleConnected =>
      (∃ a, Cancelled env past a) → c.posted ≠ [] → SelectorRefused env c
  | .connected =>
      (∃ a, Cancelled env past a) → c.announces false = true →
        SelectorRefused env c
  | .encrypted (some cert) =>
      (∃ a, Cancelled env past a) → c.announces true = true →
        c.trustedFingerprints.contains
          (Client.summarize env cert).fingerprintSha256 = true →
        SelectorRefused env c
  | .trustPendingPeerCert =>
      (∃ a, Cancelled env past a) →
        c.hasSslSocket = true → c.awaitingTrust = true → SelectorRefused env c
  | .readyRead chunk =>
      (∃ a, Cancelled env past a) → c.listening = true →
        startsSession (c.inbox ++ chunk) = false
  | _ => True

namespace Still

theorem trans {a b c : Client} (h : Still a b) (g : Still b c) : Still a c :=
  ⟨g.state, g.sockets.trans h.sockets, g.accepted.trans h.accepted⟩

theorem refl {c : Client} (hs : c.state.ended = true) : Still c c :=
  ⟨hs, rfl, rfl⟩

/-- A step that touches neither state, sockets nor history. -/
theorem same {c d : Client} (hs : c.state.ended = true)
    (hstate : d.state = c.state) (hsockets : d.sockets = c.sockets)
    (hout : d.out = c.out) : Still c d :=
  ⟨by rw [hstate]; exact hs, hsockets, by rw [Client.accepted, hout]; rfl⟩

end Still

namespace Client

theorem accepted_emit {c : Client} {e : Effect}
    (he : Effect.accepted? e = none) : (c.emit e).accepted = c.accepted := by
  simp [accepted, emit, he]

theorem setState_still {c : Client} {s : State} (hs : s.ended = true) :
    Still c (c.setState s) := by
  rw [setState]
  split
  next h => exact Still.refl (by rw [h]; exact hs)
  next => exact ⟨hs, rfl, accepted_emit rfl⟩

theorem fail_still (c : Client) (error : String) : Still c (c.fail error) := by
  have hset := setState_still (s := .failed)
    (c := { c with
      lastError := error
      socket := c.socket.map fun k => { k with isOpen := false } }) rfl
  exact ⟨state_fail c error ▸ rfl, hset.sockets,
    (accepted_emit (e := .failed error) rfl).trans hset.accepted⟩

theorem fail_after {c d : Client} (hsockets : d.sockets = c.sockets)
    (haccepted : d.accepted = c.accepted) (error : String) :
    Still c (d.fail error) :=
  have hstill := fail_still d error
  ⟨hstill.state, hstill.sockets.trans hsockets,
    hstill.accepted.trans haccepted⟩

theorem socketWrite_refused {env : Env} {c : Client} {frame : Frame}
    (hs : c.state.ended = true)
    (hr : c.listening = true → env.write c.writes frame.bytes < 0) :
    (c.socketWrite env frame).2 < 0 ∧
      Still c (c.socketWrite env frame).1 := by
  rw [socketWrite]
  split
  · exact ⟨Int.negSucc_lt_zero 0, Still.refl hs⟩
  next k hk =>
    have hneg : (if k.isOpen then env.write c.writes frame.bytes else -1) <
        0 := by
      split
      next hopen =>
        refine hr ?_
        rw [listening, hk]
        exact hopen
      next => decide
    refine ⟨hneg, ⟨hs, rfl, accepted_emit ?_⟩⟩
    cases frame with
    | raw b => rfl
    | _ => exact if_neg (Int.not_le.mpr hneg)

theorem handleConnected_still {env : Env} {c : Client}
    (hs : c.state.ended = true) (hr : SelectorRefused env c) :
    Still c (c.handleConnected env) := by
  obtain ⟨hneg, hstill⟩ := socketWrite_refused hs hr
  rw [handleConnected]
  simp only []
  rw [if_pos]
  · exact hstill.trans (fail_still _ _)
  · intro he
    rw [he] at hneg
    exact absurd hneg (Int.not_lt.mpr (Int.natCast_nonneg _))

theorem consume_still {c : Client} (hs : c.state.ended = true) (n : Nat)
    (frame : Received) : Still c (c.consume n frame) :=
  ⟨hs, rfl, accepted_emit rfl⟩

/-- Whatever else comes in ends the round: the client waits on it, or fails
once more. -/
theorem drainStep_still (env : Env) {c : Client} (hs : c.state.ended = true)
    (hstart : startsSession c.inbox = false) :
    (c.drainStep env).2 = false ∧ Still c (c.drainStep env).1 := by
  unfold drainStep
  simp only []
  split
  next h =>
    rw [h.1] at hs
    cases hs
  split
  · split
    · exact ⟨rfl, Still.refl hs⟩
    next reply n hp =>
      rw [startsSession, hp] at hstart
      have hne : reply.status ≠ .success := by simpa using hstart
      rw [onStartSession]
      simp only []
      rw [if_pos hne]
      refine ⟨rfl, fail_after ?_ ?_ _⟩
      · rfl
      · exact (consume_still hs n (.startSession reply)).accepted
  split
  · split
    · exact ⟨rfl, Still.refl hs⟩
    next reply n hp =>
      have hst : (c.consume n (.auth reply)).state = c.state := rfl
      unfold onAuthReply
      split
      case h_4 => exact ⟨rfl, (consume_still hs n _).trans (fail_still _ _)⟩
      all_goals
        next h =>
          rw [hst] at h
          rw [h] at hs
          cases hs
  · exact ⟨rfl, fail_still _ _⟩

theorem handleReadyRead_still (env : Env) {c : Client} {chunk : Bytes}
    (hs : c.state.ended = true)
    (hstart : startsSession (c.inbox ++ chunk) = false) :
    Still c (c.handleReadyRead env chunk) := by
  have hna : c.state ≠ .authenticated := by
    intro h
    rw [h] at hs
    cases hs
  rw [handleReadyRead, if_neg hna]
  have hsame : Still c { c with inbox := c.inbox ++ chunk } :=
    Still.same hs rfl rfl rfl
  refine hsame.trans ?_
  by_cases hempty : c.inbox ++ chunk = []
  · have hstop (d : Client) (hd : d.inbox = []) : d.drainInbox env = d := by
      rw [drainInbox, hd]
      rfl
    rw [hstop _ hempty]
    exact Still.refl hs
  · obtain ⟨-, hlast⟩ := drainInbox_first env
      (c := { c with inbox := c.inbox ++ chunk }) hempty
    obtain ⟨hflag, hstill⟩ := drainStep_still env
      (c := { c with inbox := c.inbox ++ chunk }) hs hstart
    rw [hlast hflag]
    exact hstill

theorem handleSocketError_still {c : Client} (hs : c.state.ended = true)
    (remoteHostClosed : Bool) (errorString : String) :
    Still c (c.handleSocketError remoteHostClosed errorString) := by
  rw [handleSocketError]
  split
  next h =>
    rw [h.2] at hs
    cases hs
  next => exact fail_still _ _

theorem announce_still {c : Client} (hs : c.state.ended = true) :
    Still c c.announce :=
  Still.same hs rfl rfl rfl

/-- The socket that announces the connection is as open as it was. -/
theorem announce_refused {env : Env} {c : Client}
    (h : SelectorRefused env c) : SelectorRefused env c.announce := by
  intro hl
  refine h ?_
  rw [listening, announce] at hl
  rw [listening]
  cases hk : c.socket with
  | none =>
      rw [hk] at hl
      exact hl
  | some k =>
      rw [hk] at hl
      exact hl

theorem handleEncrypted_still {env : Env} {c : Client}
    (hs : c.state.ended = true) (cert : Option Certificate)
    (hpin : ∀ x, cert = some x → c.trustedFingerprints.contains
      (summarize env x).fingerprintSha256 = true → SelectorRefused env c) :
    Still c (c.handleEncrypted env cert) := by
  cases cert with
  | none => exact fail_still _ _
  | some x =>
      have hsig (e : Effect) (he : e.accepted? = none) : Still c (c.emit e) :=
        ⟨hs, rfl, accepted_emit he⟩
      rw [handleEncrypted]
      split
      next hp =>
        refine (hsig (.peerCertVerifiedByPin
          (summarize env x).fingerprintSha256) rfl).trans ?_
        exact handleConnected_still hs (hpin x rfl hp)
      next =>
        exact ⟨hs, rfl, accepted_emit rfl⟩

theorem trustPendingPeerCert_still {env : Env} {c : Client}
    (hs : c.state.ended = true)
    (hr : c.hasSslSocket = true → c.awaitingTrust = true →
      SelectorRefused env c) : Still c (c.trustPendingPeerCert env) := by
  rw [trustPendingPeerCert]
  split
  next => exact Still.refl hs
  next hgo =>
    simp only [Bool.or_eq_true, Bool.not_eq_true', not_or,
      Bool.not_eq_false] at hgo
    let trusted :=
      if !c.pendingPeerCert.fingerprintSha256.isEmpty &&
          !c.trustedFingerprints.contains c.pendingPeerCert.fingerprintSha256
      then c.trustedFingerprints ++ [c.pendingPeerCert.fingerprintSha256]
      else c.trustedFingerprints
    have hsame : Still c
        { c with trustedFingerprints := trusted, awaitingTrust := false } :=
      Still.same hs rfl rfl rfl
    exact hsame.trans (handleConnected_still hs (hr hgo.1 hgo.2))

theorem tunnelDone_still {env : Env} {c : Client} (hs : c.state.ended = true)
    (i : Nat) (fd : Option Bool) (error : String)
    (hfd : fd ≠ none → c.openingTunnels.length ≤ i) :
    Still c (c.tunnelDone env i fd error) := by
  rw [tunnelDone]
  cases hopen : c.openingTunnels[i]? with
  | none => exact Still.refl hs
  | some target =>
      cases fd with
      | none =>
          refine fail_after (d := { c with
            openingTunnels := c.openingTunnels.eraseIdx i }) ?_ ?_ _
          · rfl
          · rfl
      | some accepted =>
          have hlen := hfd (Option.some_ne_none accepted)
          rw [List.getElem?_eq_none hlen] at hopen
          cases hopen

/-- One event at a client that is down. -/
theorem handle_still {env : Env} {past : List (Client × Event)} {c : Client}
    (hs : c.state.ended = true) (hcancel : ∃ a, Cancelled env past a)
    {e : Event} (hok : HeldBack env past c e) (he : e.connects = false) :
    Still c (c.handle env e) := by
  cases e with
  | connectTo host port => cases he
  | connectViaSocketDescriptor accepted => cases he
  | disconnectFromHost => exact setState_still rfl
  | trustPendingPeerCert =>
      exact trustPendingPeerCert_still hs (hok hcancel)
  | writeRaw bytes =>
      rw [handle, writeRaw, socketWrite]
      split
      · exact Still.refl hs
      · exact ⟨hs, rfl, accepted_emit rfl⟩
  | tunnelDone i fd error =>
      refine tunnelDone_still hs i fd error fun hfd => ?_
      cases fd with
      | none => exact absurd rfl hfd
      | some accepted =>
          exact Nat.not_lt.mp fun hlt => (hok hlt).1 hcancel
  | postedHandleConnected =>
      rw [handle]
      cases hposted : c.posted with
      | nil => exact Still.refl hs
      | cons k rest =>
          have hr := hok hcancel (by rw [hposted]; exact List.cons_ne_nil k rest)
          have hsame : Still c { c with posted := rest } :=
            Still.same hs rfl rfl rfl
          exact hsame.trans (handleConnected_still hs hr)
  | connected =>
      rw [handle]
      split
      next ha =>
        exact (announce_still hs).trans
          (handleConnected_still hs (announce_refused (hok hcancel ha)))
      next => exact Still.refl hs
  | encrypted cert =>
      rw [handle]
      split
      next ha =>
        refine (announce_still hs).trans
          (handleEncrypted_still (c := c.announce) hs cert ?_)
        rintro x rfl hpin
        exact announce_refused (hok hcancel ha hpin)
      next => exact Still.refl hs
  | readyRead chunk =>
      rw [handle]
      split
      next hl => exact handleReadyRead_still env hs (hok hcancel hl)
      next => exact Still.refl hs
  | errorOccurred remoteHostClosed errorString =>
      rw [handle]
      split
      · exact handleSocketError_still hs _ _
      · exact Still.refl hs
  | _ => exact Still.same hs rfl rfl rfl

end Client

/-! ## Whose tunnel it is -/

theorem currentOpens_snoc (past : List (Client × Event)) (c : Client)
    (e : Event) :
    currentOpens (past ++ [(c, e)]) =
      match e with
      | .connectTo .. =>
          (currentOpens past).map (fun _ => false) ++
            if c.tunnelOpener then [true] else []
      | .connectViaSocketDescriptor _ =>
          (currentOpens past).map fun _ => false
      | .tunnelDone i _ _ => (currentOpens past).eraseIdx i
      | _ => currentOpens past := by
  simp only [currentOpens, List.foldl_append, List.foldl_cons, List.foldl_nil]

namespace Client

/-- From `c` to `d` no tunnel was asked for and none came up. -/
def SameOpens (c d : Client) : Prop := d.openingTunnels = c.openingTunnels

namespace SameOpens

theorem trans {a b c : Client} (h : SameOpens a b) (g : SameOpens b c) :
    SameOpens a c :=
  Eq.trans g h

theorem setState (c : Client) (s : State) : SameOpens c (c.setState s) := by
  rw [SameOpens, Client.setState]
  split <;> rfl

theorem fail (c : Client) (error : String) : SameOpens c (c.fail error) :=
  setState { c with
    lastError := error
    socket := c.socket.map fun k => { k with isOpen := false } } .failed

theorem socketWrite (env : Env) (frame : Frame) (c : Client) :
    SameOpens c (c.socketWrite env frame).1 := by
  rw [SameOpens, Client.socketWrite]
  split <;> rfl

theorem handleConnected (env : Env) (c : Client) :
    SameOpens c (c.handleConnected env) := by
  have hw := socketWrite env (.selector c.protocol) c
  rw [Client.handleConnected]
  simp only []
  split
  · exact hw.trans (fail _ _)
  · exact hw.trans (setState _ _)

theorem writeThen (env : Env) (frame : Frame) (next : State) (c : Client) :
    SameOpens c (c.writeThen env frame next).1 := by
  have hw := socketWrite env frame c
  rw [Client.writeThen]
  simp only []
  split
  · exact hw.trans (fail _ _)
  · exact hw.trans (setState _ _)

theorem handOver (leftover : Bytes) (c : Client) :
    SameOpens c (c.handOver leftover) := by
  rw [Client.handOver]
  split
  · exact setState c .authenticated
  · exact setState c .authenticated

theorem onStartSession (env : Env) (r : StartSessionReply) (c : Client) :
    SameOpens c (c.onStartSession env r).1 := by
  rw [Client.onStartSession]
  simp only []
  split
  · exact fail { c with startStatus := r.status, oemData := r.oemData } _
  · have hopen : SameOpens c ((({ c with
        startStatus := r.status, oemData := r.oemData }).emit
          .sessionOpened).setState .sessionOpened) :=
      setState (({ c with
        startStatus := r.status, oemData := r.oemData }).emit
          .sessionOpened) _
    split
    · exact hopen
    · exact hopen.trans (writeThen _ _ _ _)

theorem onAuthReply (env : Env) (r : AuthReply) (c : Client) :
    SameOpens c (c.onAuthReply env r).1 := by
  unfold Client.onAuthReply
  split
  · split
    · exact fail _ _
    · exact writeThen _ _ _ _
  · split
    · exact fail _ _
    · exact writeThen _ _ _ _
  · split
    · exact fail _ _
    · split
      · exact writeThen _ _ _ _
      · exact handOver c.inbox { c with inbox := [] }
  · exact fail _ _

theorem drainStep (env : Env) (c : Client) :
    SameOpens c (c.drainStep env).1 := by
  unfold Client.drainStep
  simp only []
  split
  · split
    · rfl
    · exact handOver _ (c.consume _ _)
  · split
    · split
      · rfl
      next reply n _ => exact onStartSession env reply (c.consume n _)
    · split
      · split
        · rfl
        next reply n _ => exact onAuthReply env reply (c.consume n _)
      · exact fail c _

theorem drainLoop (env : Env) (fuel : Nat) (c : Client) :
    SameOpens c (c.drainLoop env fuel) := by
  induction fuel generalizing c with
  | zero => rfl
  | succ fuel ih =>
      have hstep := drainStep env c
      rw [Client.drainLoop]
      split
      · rfl
      · split
        next d hd =>
          rw [hd] at hstep
          exact hstep.trans (ih d)
        next d hd =>
          rw [hd] at hstep
          exact hstep

theorem handleReadyRead (env : Env) (chunk : Bytes) (c : Client) :
    SameOpens c (c.handleReadyRead env chunk) := by
  rw [Client.handleReadyRead]
  split
  · rfl
  · exact drainLoop env _ { c with inbox := c.inbox ++ chunk }

theorem handleEncrypted (env : Env) (cert : Option Certificate) (c : Client) :
    SameOpens c (c.handleEncrypted env cert) := by
  cases cert with
  | none => exact fail _ _
  | some x =>
      rw [Client.handleEncrypted]
      split
      · exact handleConnected env (c.emit _)
      · rfl

theorem trustPendingPeerCert (env : Env) (c : Client) :
    SameOpens c (c.trustPendingPeerCert env) := by
  rw [Client.trustPendingPeerCert]
  split
  · rfl
  · exact handleConnected env _

theorem handleSocketError (remoteHostClosed : Bool) (errorString : String)
    (c : Client) :
    SameOpens c (c.handleSocketError remoteHostClosed errorString) := by
  rw [Client.handleSocketError]
  split
  · exact setState c .disconnected
  · exact fail _ _

theorem connectViaSocketDescriptor (env : Env) (accepted : Bool)
    (c : Client) :
    SameOpens c (c.connectViaSocketDescriptor env accepted) := by
  rw [Client.connectViaSocketDescriptor]
  simp only []
  split
  · exact fail (c.freshSocket true accepted) _
  · have hset := setState (c.freshSocket true accepted) .connecting
    split
    · exact hset
    · exact hset

end SameOpens

/-- The marks are those of the tunnels that are out. -/
theorem currentOpens_length (env : Env) {past : List (Client × Event)}
    {c : Client} (h : (currentOpens past).length = c.openingTunnels.length)
    (e : Event) :
    (currentOpens (past ++ [(c, e)])).length =
      (c.handle env e).openingTunnels.length := by
  rw [currentOpens_snoc]
  have same {d : Client} (hd : SameOpens c d) :
      (currentOpens past).length = d.openingTunnels.length := by
    rw [hd]
    exact h
  cases e with
  | connectTo host port =>
      rw [handle, Client.connectTo]
      by_cases ht : c.tunnelOpener = true
      · rw [if_pos ht, if_pos ht]
        have hset := SameOpens.setState c .connecting
        simp only [List.length_append, List.length_map, List.length_cons,
          List.length_nil]
        rw [hset, h]
      · rw [if_neg ht, if_neg ht, List.append_nil, List.length_map]
        exact same (SameOpens.setState (c.freshSocket false true) .connecting)
  | connectViaSocketDescriptor accepted =>
      simp only [List.length_map]
      exact same (SameOpens.connectViaSocketDescriptor env accepted c)
  | tunnelDone i fd error =>
      simp only []
      rw [handle, Client.tunnelDone]
      cases hopen : c.openingTunnels[i]? with
      | none =>
          have hlen := List.getElem?_eq_none_iff.mp hopen
          rw [List.eraseIdx_of_length_le (by omega)]
          exact h
      | some target =>
          obtain ⟨hlt, -⟩ := List.getElem?_eq_some_iff.mp hopen
          have herase : (currentOpens past).length - 1 =
              (c.openingTunnels.eraseIdx i).length := by
            rw [List.length_eraseIdx_of_lt hlt, h]
          rw [List.length_eraseIdx_of_lt (by omega), herase]
          cases fd with
          | none =>
              have hd := SameOpens.fail { c with
                openingTunnels := c.openingTunnels.eraseIdx i }
                (if error.isEmpty then
                  s!"SSH tunnel could not be opened to {target.1}:{target.2}"
                else error)
              exact (congrArg List.length hd).symm
          | some accepted =>
              have hd := SameOpens.connectViaSocketDescriptor env accepted
                { c with openingTunnels := c.openingTunnels.eraseIdx i }
              exact (congrArg List.length hd).symm
  | disconnectFromHost => exact same (SameOpens.setState c .disconnected)
  | trustPendingPeerCert => exact same (SameOpens.trustPendingPeerCert env c)
  | writeRaw bytes => exact same (SameOpens.socketWrite env (.raw bytes) c)
  | postedHandleConnected =>
      simp only [handle]
      split
      · exact h
      next rest _ =>
        exact same (SameOpens.handleConnected env { c with posted := rest })
  | connected =>
      simp only [handle]
      split
      · exact same (SameOpens.handleConnected env c.announce)
      · exact h
  | encrypted cert =>
      simp only [handle]
      split
      · exact same (SameOpens.handleEncrypted env cert c.announce)
      · exact h
  | readyRead chunk =>
      simp only [handle]
      split
      · exact same (SameOpens.handleReadyRead env chunk c)
      · exact h
  | errorOccurred remoteHostClosed errorString =>
      simp only [handle]
      split
      · exact same (SameOpens.handleSocketError _ _ c)
      · exact h
  | _ => exact h

end Client

/-! ## Every run -/

/-- An entry of a trail is an earlier one or the last. -/
theorem snoc_split {α : Type} {past pre post : List α} {x y : α}
    (h : past ++ [x] = pre ++ y :: post) :
    (past = pre ∧ x = y ∧ post = []) ∨
      ∃ post', post = post' ++ [x] ∧ past = pre ++ y :: post' := by
  rcases List.eq_nil_or_concat post with rfl | ⟨post', z, rfl⟩
  · obtain ⟨hpre, hlast⟩ := List.append_inj' h rfl
    exact .inl ⟨hpre, by simpa using hlast, rfl⟩
  · rw [List.concat_eq_append, ← List.cons_append, ← List.append_assoc] at h
    obtain ⟨hpre, hlast⟩ := List.append_inj' h rfl
    rw [List.cons.injEq] at hlast
    refine .inr ⟨post', ?_, hpre⟩
    rw [List.concat_eq_append, hlast.1]

theorem Cancelled.snoc {env : Env} {past : List (Client × Event)}
    {c a : Client} {e : Event} (h : Cancelled env (past ++ [(c, e)]) a) :
    (a = c.handle env e ∧ (e = .disconnectFromHost ∨ a.state = .failed)) ∨
      (Cancelled env past a ∧ e.connects = false) := by
  obtain ⟨pre, c', e', post, hpast, ha, hwhy, hpost⟩ := h
  rcases snoc_split hpast with ⟨-, hlast, -⟩ | ⟨post', rfl, hpre⟩
  · cases hlast
    exact .inl ⟨ha, hwhy⟩
  · refine .inr ⟨⟨pre, c', e', post', hpre, ha, hwhy, fun p hp => ?_⟩, ?_⟩
    · exact hpost p (List.mem_append_left _ hp)
    · exact hpost (c, e) (List.mem_append_right _ (List.mem_singleton.mpr rfl))

/-- A descriptor that comes up is adopted only for a tunnel that is out. -/
theorem Client.adopts_open {env : Env} {c : Client} {i : Nat}
    {fd : Option Bool} {error : String}
    (h : (c.handle env (.tunnelDone i fd error)).sockets ≠ c.sockets) :
    i < c.openingTunnels.length := by
  refine Nat.lt_of_not_le fun hle => h ?_
  rw [Client.handle, Client.tunnelDone, List.getElem?_eq_none hle]

/-- With the listed events held back, a cancelled attempt stays cancelled and
only the latest connect's tunnel is used. -/
theorem cancelled_stays (env : Env) (es : List Event)
    (hg : Guarded (Client.handle env) (HeldBack env) {} es) :
    CancelHolds env (trail (Client.handle env) {} es)
      (run (Client.handle env) {} es) := by
  refine (hg.history (fun past c => CancelHolds env past c ∧
    (currentOpens past).length = c.openingTunnels.length) ?_
    ⟨⟨?_, ?_⟩, rfl⟩).1
  · rintro past c e ⟨h, hlen⟩ hok
    refine ⟨⟨fun a ha => ?_, fun pre c' i fd error post hpast hadopt => ?_⟩,
      Client.currentOpens_length env hlen e⟩
    · rcases ha.snoc with ⟨rfl, hwhy⟩ | ⟨hbefore, hno⟩
      · refine Still.refl ?_
        rcases hwhy with rfl | hfailed
        · exact (Client.setState_still rfl).state
        · rw [hfailed]
          rfl
      · have hstill := h.stays a hbefore
        exact hstill.trans
          (Client.handle_still hstill.state ⟨a, hbefore⟩ hok hno)
    · rcases snoc_split hpast with ⟨rfl, hlast, -⟩ | ⟨post', -, hpre⟩
      · cases hlast
        have hlt := Client.adopts_open hadopt
        have hnot := (hok hlt).2
        rw [← hlen] at hlt
        rw [List.getElem?_eq_getElem hlt] at hnot ⊢
        cases hmark : (currentOpens past)[i] with
        | true => rfl
        | false =>
            rw [hmark] at hnot
            exact absurd rfl hnot
      · exact h.latest pre c' i fd error post' hpre hadopt
  · rintro a ⟨pre, c, e, post, hnil, -⟩
    exact absurd hnil (by simp)
  · intro pre c i fd error post hnil
    exact absurd hnil (by simp)

/-! ## A tunnel that comes up too late -/

def tunnelRun : List Event :=
  [.setTunnelOpener true, .connectTo "amt" 16994, .disconnectFromHost]

/-- The user hung up while the tunnel was being opened. When it is there, the
client connects and sends its selector. -/
theorem cancelled_returns :
    (run (Client.handle .plain) {} tunnelRun).state = .disconnected ∧
      (run (Client.handle .plain) {}
        (tunnelRun ++ [.tunnelDone 0 (some true) "",
          .postedHandleConnected])).state = .selectorSent ∧
      ¬ CancelHolds .plain
        (trail (Client.handle .plain) {}
          (tunnelRun ++ [.tunnelDone 0 (some true) "", .postedHandleConnected]))
        (run (Client.handle .plain) {}
          (tunnelRun ++
            [.tunnelDone 0 (some true) "", .postedHandleConnected])) := by
  refine ⟨by decide, by decide, fun h => ?_⟩
  have hcancel : Cancelled .plain
      (trail (Client.handle .plain) {}
        (tunnelRun ++ [.tunnelDone 0 (some true) "", .postedHandleConnected]))
      (run (Client.handle .plain) {} tunnelRun) := by
    refine ⟨trail (Client.handle .plain) {} (tunnelRun.take 2), _, _, _, rfl,
      rfl, .inl rfl, ?_⟩
    decide
  exact absurd (h.stays _ hcancel).state (by decide)

/-- A tunnel that does not come up: the client fails, and stays down. -/
theorem cancelled_stays_down :
    CancelHolds .plain
      (trail (Client.handle .plain) {}
        (tunnelRun ++ [.tunnelDone 0 none "", .trustPendingPeerCert]))
      (run (Client.handle .plain) {}
        (tunnelRun ++ [.tunnelDone 0 none "", .trustPendingPeerCert])) := by
  refine cancelled_stays .plain _
    ⟨trivial, trivial, trivial, trivial, fun _ hssl => ?_, trivial⟩
  exact absurd hssl (by decide)

end QuMesh.Redir
