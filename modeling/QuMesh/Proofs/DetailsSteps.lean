import QuMesh.App.DetailsRefresh

/-!
# What a refresh does

There are three cases and no more. While the tunnel comes up the call is put
off; without a host it leaves an error, or nothing; and else it goes out with
all of its requests, together with the refreshes it ends in. Which those are
depends on one thing only, whether the opt-in status is being read already.
-/

namespace QuMesh.Details

open QuMesh.Lib

/-- The section whose bit stands for a refresh. -/
def Refresh.section : Refresh → PendingRefresh
  | .whole kind => kind
  | .optInStatus => .overview
  | .powerSchemes => .power

/-- The requests of a refresh, without those of the refresh it ends in. -/
def Refresh.calls : Refresh → List Call
  | .whole .overview =>
      [.identify, .getPowerState, .getGeneralSettings, .getMeVersion,
        .getSetupAndConfiguration, .getRedirectionStatus, .getComputerSystem,
        .getBootCapabilities]
  | .whole .network => [.getEthernetSettings]
  | .whole .time => [.getTimeSettings]
  | .whole .power => [.getPowerState]
  | .whole .eventLog => [.enumerateEventLog]
  | .whole .userAccounts => [.enumerateUserAccounts]
  | .whole .hardware => [.getHardwareInventory]
  | .whole .auditLog => [.getAuditLogState, .enumerateAuditLog]
  | .whole .deviceCerts => [.getDeviceCertStore]
  | .whole .remoteAccess => [.getRemoteAccess]
  | .whole .wireless => [.getWireless]
  | .whole .agentPresence => [.getAgentPresence]
  | .whole .eventSubscriptions => [.getEventSubscriptions]
  | .whole .wakeAlarms => [.getWakeAlarms]
  | .whole .systemDefense => [.getSystemDefense]
  | .whole .activeSessions => [.getActiveSessions]
  | .optInStatus => [.getOptInStatus]
  | .powerSchemes => [.getPowerSchemes]

def sentFrom : Nat → List Call → List Effect
  | _, [] => []
  | n, call :: calls => .sent n call :: sentFrom (n + 1) calls

/-- A refresh that goes out, its requests numbered from `n` on. -/
def block (trusted : Bool) (n : Nat) (r : Refresh) : List Effect :=
  .ran (.refresh r) trusted :: sentFrom n r.calls

def blocks (trusted : Bool) : Nat → List Refresh → List Effect
  | _, [] => []
  | n, r :: rs => block trusted n r ++ blocks trusted (n + r.calls.length) rs

/-- How many requests that takes. -/
def requests : List Refresh → Nat
  | [] => 0
  | r :: rs => r.calls.length + requests rs

namespace Machine

/-- What goes out when a refresh is called. -/
def issues (s : Machine) : Refresh → List Refresh
  | .whole .overview =>
      .whole .overview :: if s.optInStatusInFlight then [] else [.optInStatus]
  | .whole .power => [.whole .power, .powerSchemes]
  | .optInStatus => if s.optInStatusInFlight then [] else [.optInStatus]
  | r => [r]

/-- A refresh that is put off. -/
def putOff (r : Refresh) (s : Machine) : Machine :=
  { s with
    pendingRefreshes :=
      if r.section ∈ s.pendingRefreshes then s.pendingRefreshes
      else r.section :: s.pendingRefreshes
    deferred := s.deferred ++ [.refresh r] }

/-- What a refresh leaves alone that goes out. -/
structure Frame (s s' : Machine) : Prop where
  host : s'.host = s.host
  hasSession : s'.hasSession = s.hasSession
  sshConnecting : s'.sshConnecting = s.sshConnecting
  pendingRefreshes : s'.pendingRefreshes = s.pendingRefreshes
  deferred : s'.deferred = s.deferred
  trusted : s'.trusted = s.trusted
  awaitingTrust : s'.awaitingTrust = s.awaitingTrust

namespace Frame

variable {s t u : Machine}

theorem refl (s : Machine) : Frame s s := ⟨rfl, rfl, rfl, rfl, rfl, rfl, rfl⟩

theorem trans (h : Frame s t) (g : Frame t u) : Frame s u :=
  ⟨g.host.trans h.host, g.hasSession.trans h.hasSession,
    g.sshConnecting.trans h.sshConnecting,
    g.pendingRefreshes.trans h.pendingRefreshes, g.deferred.trans h.deferred,
    g.trusted.trans h.trusted, g.awaitingTrust.trans h.awaitingTrust⟩

end Frame

/-- A refresh that goes out. -/
structure Issued (s s' : Machine) (rs : List Refresh) : Prop where
  frame : Frame s s'
  out : s'.out = s.out ++ blocks s.trusted s.nextRequest rs
  nextRequest : s'.nextRequest = s.nextRequest + requests rs

variable {s : Machine}

theorem sendAll_frame (op : Operation) (calls : List Call) (s : Machine) :
    Frame s (s.sendAll op calls) ∧
      (s.sendAll op calls).out = s.out ++ sentFrom s.nextRequest calls ∧
      (s.sendAll op calls).nextRequest = s.nextRequest + calls.length ∧
      (s.sendAll op calls).optInStatusInFlight = s.optInStatusInFlight := by
  induction calls generalizing s with
  | nil => exact ⟨.refl s, (List.append_nil _).symm, rfl, rfl⟩
  | cons call calls ih =>
      obtain ⟨hframe, hout, hnext, hflag⟩ := ih (s.send op call)
      have hone : Frame s (s.send op call) := ⟨rfl, rfl, rfl, rfl, rfl, rfl, rfl⟩
      refine ⟨hone.trans hframe, ?_, ?_, hflag⟩
      · refine hout.trans ?_
        show (s.out ++ [.sent s.nextRequest call]) ++
          sentFrom (s.nextRequest + 1) calls = _
        rw [List.append_assoc]
        rfl
      · refine hnext.trans ?_
        show s.nextRequest + 1 + calls.length = _
        rw [List.length_cons]
        omega

theorem deferIfSshConnecting_some (hup : s.sshConnecting = true) (r : Refresh) :
    s.deferIfSshConnecting r.section (.refresh r) = some (s.putOff r) :=
  if_pos hup

theorem deferIfSshConnecting_none (hup : s.sshConnecting = false)
    (kind : PendingRefresh) (op : Operation) :
    s.deferIfSshConnecting kind op = none :=
  if_neg (by simp [hup])

/-- `refreshSection`, case by case. -/
theorem refreshSection_cases (kind : PendingRefresh) (first : Machine → Machine)
    (hfirst : ∀ s : Machine, first s = { s with
      lastError := (first s).lastError })
    (s : Machine) :
    let s' := s.refreshSection kind first (Refresh.whole kind).calls
    (s.sshConnecting = true → s' = s.putOff (.whole kind)) ∧
      (s.sshConnecting = false → s.host.isEmpty = true →
        s' = s.setLastError hostEmpty) ∧
      (s.sshConnecting = false → s.host.isEmpty = false →
        Issued s s' [.whole kind] ∧
          s'.optInStatusInFlight = s.optInStatusInFlight) := by
  refine ⟨fun hup => ?_, fun hup hhost => ?_, fun hup hhost => ?_⟩
  · have hdefer := deferIfSshConnecting_some hup (.whole kind)
    simp only [Refresh.section] at hdefer
    rw [refreshSection, hdefer]
  · rw [refreshSection, deferIfSshConnecting_none hup]
    exact if_pos hhost
  · rw [refreshSection, deferIfSshConnecting_none hup]
    simp only []
    rw [if_neg (by simp [hhost]), hfirst s]
    obtain ⟨hframe, hout, hnext, hflag⟩ := sendAll_frame
      (.refresh (.whole kind)) (Refresh.whole kind).calls
      (({ s with
        lastError := (first s).lastError
        pendingTrustResume := some (.whole kind) } : Machine).ran
          (.refresh (.whole kind)))
    refine ⟨⟨⟨hframe.host, hframe.hasSession, hframe.sshConnecting,
      hframe.pendingRefreshes, hframe.deferred, hframe.trusted,
      hframe.awaitingTrust⟩, ?_, hnext⟩, hflag⟩
    refine hout.trans ?_
    show (s.out ++ [.ran _ s.trusted]) ++ _ = s.out ++ (block _ _ _ ++ [])
    rw [List.append_nil, List.append_assoc]
    rfl

theorem refreshOptInStatus_cases (s : Machine) :
    (s.sshConnecting = true →
        s.refreshOptInStatus = s.putOff .optInStatus) ∧
      (s.sshConnecting = false → s.host.isEmpty = true →
        s.refreshOptInStatus = s) ∧
      (s.sshConnecting = false → s.host.isEmpty = false →
        Issued s s.refreshOptInStatus (s.issues .optInStatus)) := by
  refine ⟨fun hup => ?_, fun hup hhost => ?_, fun hup hhost => ?_⟩
  · have hdefer := deferIfSshConnecting_some hup .optInStatus
    simp only [Refresh.section] at hdefer
    rw [refreshOptInStatus, hdefer]
  · rw [refreshOptInStatus, deferIfSshConnecting_none hup]
    exact if_pos hhost
  · rw [refreshOptInStatus, deferIfSshConnecting_none hup, issues]
    simp only []
    rw [if_neg (by simp [hhost])]
    split
    · exact ⟨.refl s, (List.append_nil _).symm, rfl⟩
    · refine ⟨⟨rfl, rfl, rfl, rfl, rfl, rfl, rfl⟩, ?_, rfl⟩
      show (s.out ++ [_]) ++ [_] = _
      rw [List.append_assoc]
      rfl

theorem refreshPowerSchemes_cases (s : Machine) :
    (s.sshConnecting = true →
        s.refreshPowerSchemes = s.putOff .powerSchemes) ∧
      (s.sshConnecting = false → s.host.isEmpty = true →
        s.refreshPowerSchemes = s) ∧
      (s.sshConnecting = false → s.host.isEmpty = false →
        Issued s s.refreshPowerSchemes [.powerSchemes]) := by
  refine ⟨fun hup => ?_, fun hup hhost => ?_, fun hup hhost => ?_⟩
  · have hdefer := deferIfSshConnecting_some hup .powerSchemes
    simp only [Refresh.section] at hdefer
    rw [refreshPowerSchemes, hdefer]
  · rw [refreshPowerSchemes, deferIfSshConnecting_none hup]
    exact if_pos hhost
  · rw [refreshPowerSchemes, deferIfSshConnecting_none hup]
    simp only []
    rw [if_neg (by simp [hhost])]
    refine ⟨⟨rfl, rfl, rfl, rfl, rfl, rfl, rfl⟩, ?_, rfl⟩
    show (s.out ++ [_]) ++ [_] = _
    rw [List.append_assoc]
    rfl

theorem blocks_append (trusted : Bool) (n : Nat) (rs rs' : List Refresh) :
    blocks trusted n (rs ++ rs') =
      blocks trusted n rs ++ blocks trusted (n + requests rs) rs' := by
  induction rs generalizing n with
  | nil => rfl
  | cons r rs ih =>
      rw [List.cons_append, blocks, blocks, ih, List.append_assoc, requests,
        Nat.add_assoc]

theorem requests_append (rs rs' : List Refresh) :
    requests (rs ++ rs') = requests rs + requests rs' := by
  induction rs with
  | nil => exact (Nat.zero_add _).symm
  | cons r rs ih => rw [List.cons_append, requests, requests, ih, Nat.add_assoc]

/-- A refresh that is issued has its block. -/
theorem blocks_of_mem {rs : List Refresh} {r : Refresh} (hr : r ∈ rs) (b : Bool)
    (n : Nat) : ∃ before m after, blocks b n rs = before ++ block b m r ++ after := by
  induction rs generalizing n with
  | nil => cases hr
  | cons r' rs ih =>
      rcases List.mem_cons.mp hr with rfl | hr
      · exact ⟨[], n, blocks b (n + r.calls.length) rs, rfl⟩
      · obtain ⟨before, m, after, hblocks⟩ := ih hr (n + r'.calls.length)
        refine ⟨block b n r' ++ before, m, after, ?_⟩
        rw [blocks, hblocks]
        simp

theorem Issued.trans {s t u : Machine} {rs rs' : List Refresh}
    (h : Issued s t rs) (g : Issued t u rs') : Issued s u (rs ++ rs') := by
  refine ⟨h.frame.trans g.frame, ?_, ?_⟩
  · rw [g.out, h.out, h.frame.trusted, h.nextRequest, blocks_append,
      List.append_assoc]
  · rw [g.nextRequest, h.nextRequest, requests_append, Nat.add_assoc]

theorem refreshOf_whole {kind : PendingRefresh} (hoverview : kind ≠ .overview)
    (hpower : kind ≠ .power) :
    refreshOf kind = refreshSection kind id (Refresh.whole kind).calls := by
  cases kind with
  | overview => exact absurd rfl hoverview
  | power => exact absurd rfl hpower
  | _ => rfl

theorem issues_whole {kind : PendingRefresh} (hoverview : kind ≠ .overview)
    (hpower : kind ≠ .power) : s.issues (.whole kind) = [.whole kind] := by
  cases kind with
  | overview => exact absurd rfl hoverview
  | power => exact absurd rfl hpower
  | _ => rfl

theorem andThen_skip {next : Machine → Machine} {s' : Machine}
    (h : s.sshConnecting = true ∨ s.host.isEmpty = true) :
    s.andThen next s' = s' :=
  if_pos (by simpa using h)

theorem andThen_next {next : Machine → Machine} {s' : Machine}
    (hup : s.sshConnecting = false) (hhost : s.host.isEmpty = false) :
    s.andThen next s' = next s' :=
  if_neg (by simp [hup, hhost])

/-- `refreshOf`, case by case; two sections end in another refresh. -/
theorem refreshOf_cases (kind : PendingRefresh) (s : Machine) :
    (s.sshConnecting = true → s.refreshOf kind = s.putOff (.whole kind)) ∧
      (s.sshConnecting = false → s.host.isEmpty = true →
        s.refreshOf kind = s.setLastError hostEmpty) ∧
      (s.sshConnecting = false → s.host.isEmpty = false →
        Issued s (s.refreshOf kind) (s.issues (.whole kind))) := by
  by_cases hoverview : kind = .overview
  · subst hoverview
    obtain ⟨h₁, h₂, h₃⟩ :=
      refreshSection_cases .overview (setLastError "") (fun _ => rfl) s
    refine ⟨fun hup => (andThen_skip (.inl hup)).trans (h₁ hup),
      fun hup hhost => (andThen_skip (.inr hhost)).trans (h₂ hup hhost),
      fun hup hhost => ?_⟩
    obtain ⟨hfirst, hflag⟩ := h₃ hup hhost
    have hrest := (refreshOptInStatus_cases _).2.2
      (hfirst.frame.sshConnecting.trans hup) (by rw [hfirst.frame.host, hhost])
    have hboth := hfirst.trans hrest
    simp only [issues, hflag] at hboth
    rw [refreshOf, refreshOverview, andThen_next hup hhost]
    exact hboth
  by_cases hpower : kind = .power
  · subst hpower
    obtain ⟨h₁, h₂, h₃⟩ := refreshSection_cases .power id (fun _ => rfl) s
    refine ⟨fun hup => (andThen_skip (.inl hup)).trans (h₁ hup),
      fun hup hhost => (andThen_skip (.inr hhost)).trans (h₂ hup hhost),
      fun hup hhost => ?_⟩
    obtain ⟨hfirst, -⟩ := h₃ hup hhost
    rw [refreshOf, refreshPower, andThen_next hup hhost]
    exact hfirst.trans ((refreshPowerSchemes_cases _).2.2
      (hfirst.frame.sshConnecting.trans hup) (by rw [hfirst.frame.host, hhost]))
  · rw [refreshOf_whole hoverview hpower, issues_whole hoverview hpower]
    obtain ⟨h₁, h₂, h₃⟩ := refreshSection_cases kind id (fun _ => rfl) s
    exact ⟨h₁, h₂, fun hup hhost => (h₃ hup hhost).1⟩

/-- A refresh is put off while the tunnel comes up; -/
theorem refresh_connecting (hup : s.sshConnecting = true) (r : Refresh) :
    s.refresh r = s.putOff r := by
  cases r with
  | whole kind => exact (refreshOf_cases kind s).1 hup
  | optInStatus => exact (refreshOptInStatus_cases s).1 hup
  | powerSchemes => exact (refreshPowerSchemes_cases s).1 hup

/-- without a host it leaves the error behind at most; -/
theorem refresh_hostless (hup : s.sshConnecting = false)
    (hhost : s.host.isEmpty = true) (r : Refresh) :
    s.refresh r = s ∨ s.refresh r = s.setLastError hostEmpty := by
  cases r with
  | whole kind => exact .inr ((refreshOf_cases kind s).2.1 hup hhost)
  | optInStatus => exact .inl ((refreshOptInStatus_cases s).2.1 hup hhost)
  | powerSchemes => exact .inl ((refreshPowerSchemes_cases s).2.1 hup hhost)

/-- and else it goes out, and what it ends in. -/
theorem refresh_issued (hup : s.sshConnecting = false)
    (hhost : s.host.isEmpty = false) (r : Refresh) :
    Issued s (s.refresh r) (s.issues r) := by
  cases r with
  | whole kind => exact (refreshOf_cases kind s).2.2 hup hhost
  | optInStatus => exact (refreshOptInStatus_cases s).2.2 hup hhost
  | powerSchemes => exact (refreshPowerSchemes_cases s).2.2 hup hhost

end Machine

end QuMesh.Details
