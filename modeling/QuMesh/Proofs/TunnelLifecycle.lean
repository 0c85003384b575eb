import QuMesh.Ssh.Tunnel

/-!
# The life of a tunnel

The channel has one holder at a time: the task on the worker, the arrival that
is posted, the pump, or a clean-up; and whoever lets go of it frees it. The
exception is an arrival that is dropped. `SshTunnel` expects one to run after
the tunnel is gone and to clean up, but what is posted to an object goes with
the object, so a tunnel that is destroyed while its arrival is under way
leaves the channel to nobody, until the session ends.

The signals need no condition. Before the tunnel has answered, the arrival is
still to come and nothing was abandoned; `close` abandons it and answers in
its place.
-/

namespace QuMesh.Ssh

open QuMesh.Lib

/-- The task is not under way. -/
def Task.idle : Task → Bool
  | .none | .done => true
  | _ => false

/-- The task has a channel. -/
def Task.holds : Task → Bool
  | .got channel | .checked channel => channel
  | _ => false

namespace SshTunnel

variable {t t' : SshTunnel}

/-! ## What is promised -/

/-- What a tunnel may have told so far. -/
def Told : List TunnelSignal → Prop
  | [] | [.failed _] | [.opened] | [.opened, .closed] => True
  | _ => False

/-- Nothing is in flight that holds a channel. -/
structure Quiet (t : SshTunnel) : Prop where
  task : t.task.idle = true
  arrival : t.arrival = none
  cleanups : t.cleanups = 0
  pump : t.pump ≠ .running
  session : t.session ≠ .ending

/-- At most one of `opened` and `failed`, and one of them where the open is
over and the tunnel is there; `closed` behind `opened`, and once; and every
channel freed once, in the end. -/
structure Sound (t : SshTunnel) : Prop where
  told : Told t.out
  answered : t.alive = true → t.task.idle = true → t.arrival = none → t.out ≠ []
  once : t.frees ≤ t.channel.toNat
  freed : t.Quiet → t.frees = t.channel.toNat

/-! ## Who holds the channel -/

def holders (t : SshTunnel) : Nat :=
  t.task.holds.toNat + (if t.arrival = some true then 1 else 0) + t.cleanups +
    (if t.pump = .running then 1 else 0)

/-- As long as the session lives, a channel has one holder or was freed. -/
def Ledger (t : SshTunnel) : Prop :=
  match t.session with
  | .alive => t.holders + t.frees = t.channel.toNat
  | .ending => t.holders + t.frees ≤ t.channel.toNat
  | .gone =>
      t.frees = t.channel.toNat ∧ t.task.idle = true ∧ t.cleanups = 0 ∧
        t.pump ≠ .running

/-! ## How far the tunnel is -/

structure Pending (t : SshTunnel) : Prop where
  alive : t.alive = true
  openState : t.openState = true
  opened : t.opened = false
  abandoned : t.abandoned = false
  pump : t.pump = .none
  out : t.out = []
  session : t.session = .alive
  destroyConnected : t.destroyConnected = true
  flight : t.task.idle = true → t.arrival ≠ none

structure Opened (t : SshTunnel) : Prop where
  alive : t.alive = true
  openState : t.openState = false
  opened : t.opened = true
  pump : t.pump ≠ .none
  out : t.out = [.opened]
  session : t.session = .alive
  destroyConnected : t.destroyConnected = true
  task : t.task.idle = true
  arrival : t.arrival = none

structure Over (t : SshTunnel) : Prop where
  openState : t.openState = false
  opened : t.opened = false
  pump : t.pump = .none
  told : Told t.out
  answered : t.alive = true → t.out ≠ []
  late : t.abandoned = true ∨ t.task.idle = true ∧ t.arrival = none
  dropped : t.alive = false → t.arrival = none

structure Inv (t : SshTunnel) : Prop where
  ledger : t.Ledger
  fresh : t.task = .queued → t.channel = false
  order : t.arrival ≠ none → t.task.idle = true
  stage : t.Pending ∨ t.Opened ∨ t.Over

theorem Inv.frees_le (h : t.Inv) : t.frees ≤ t.channel.toNat := by
  have hledger := h.ledger
  unfold Ledger at hledger
  split at hledger
  · omega
  · omega
  · omega

theorem Inv.sound (h : t.Inv) : t.Sound where
  told := by
    rcases h.stage with hstage | hstage | hstage
    · rw [hstage.out]
      trivial
    · rw [hstage.out]
      trivial
    · exact hstage.told
  answered halive htask harrival := by
    rcases h.stage with hstage | hstage | hstage
    · exact absurd harrival (hstage.flight htask)
    · rw [hstage.out]
      exact List.cons_ne_nil _ _
    · exact hstage.answered halive
  once := h.frees_le
  freed hquiet := by
    obtain ⟨htask, harrival, hcleanups, hpump, hsession⟩ := hquiet
    have hledger := h.ledger
    have hholders : t.holders = 0 := by
      unfold holders
      rw [harrival, hcleanups, if_neg hpump]
      cases heq : t.task with
      | none => rfl
      | done => rfl
      | queued => rfl
      | got channel =>
          rw [heq] at htask
          cases htask
      | checked channel =>
          rw [heq] at htask
          cases htask
    unfold Ledger at hledger
    split at hledger
    · omega
    · next heq => exact absurd heq hsession
    · exact hledger.1

/-! ## Closing -/

/-- The message of a `failed` that stands for an answer. -/
def closedMessage (t : SshTunnel) : String :=
  if t.lastError = "" then "SSH tunnel closed before channel opened"
  else t.lastError

/-- What closing tells. -/
def closing (t : SshTunnel) (emitSignals : Bool) : List TunnelSignal :=
  if emitSignals = false then []
  else if t.opened then [.closed]
  else if t.openState then [.failed t.closedMessage]
  else []

/-- A tunnel that was closed: it has no pump, and waits for nothing. -/
structure Closed (t : SshTunnel) (emitSignals : Bool) (t' : SshTunnel) :
    Prop where
  alive : t'.alive = t.alive
  opened : t'.opened = false
  openState : t'.openState = false
  abandoned : t'.abandoned = (t.abandoned || t.openState)
  pump : t'.pump = .none
  task : t'.task = t.task
  arrival : t'.arrival = t.arrival
  cleanups : t'.cleanups = t.cleanups
  channel : t'.channel = t.channel
  session : t'.session = t.session
  out : t'.out = t.out ++ t.closing emitSignals
  frees : t'.frees = t.frees + if t.pump = .running then 1 else 0

theorem closeInternal_closed (emitSignals : Bool) (t : SshTunnel) :
    Closed t emitSignals (t.closeInternal emitSignals) := by
  obtain ⟨remoteHost, remotePort, alive, opened, lastError, openState,
    destroyConnected, pump, out, abandoned, task, arrival, cleanups, finished,
    session, channel, frees⟩ := t
  -- what it does is a matter of these four alone
  cases openState <;> cases opened <;> cases emitSignals <;> cases pump
  all_goals
    refine ⟨rfl, rfl, rfl, ?_, rfl, rfl, rfl, rfl, rfl, rfl, ?_, rfl⟩
    · simp [closeInternal, pumpExit, freeChannel, emit, fail]
    · simp [closeInternal, pumpExit, freeChannel, emit, fail, closing,
        closedMessage]

/-! ## One event -/

theorem holders_cleanups (n : Nat) :
    { t with cleanups := n }.holders + t.cleanups = t.holders + n := by
  unfold holders
  show t.task.holds.toNat + (if t.arrival = some true then 1 else 0) + n +
      (if t.pump = .running then 1 else 0) + t.cleanups =
    t.task.holds.toNat + (if t.arrival = some true then 1 else 0) + t.cleanups +
      (if t.pump = .running then 1 else 0) + n
  omega

theorem Closed.accounts {emitSignals : Bool} (h : Closed t emitSignals t') :
    t'.holders + t'.frees = t.holders + t.frees := by
  unfold holders
  rw [h.task, h.arrival, h.cleanups, h.pump, h.frees,
    if_neg (by decide : ¬PumpThread.none = .running)]
  omega

theorem Closed.ledger {emitSignals : Bool} (h : Closed t emitSignals t')
    (hledger : t.Ledger) : t'.Ledger := by
  have haccounts := h.accounts
  unfold Ledger at *
  rw [h.session, h.channel, h.task, h.cleanups, h.pump]
  split at hledger
  · omega
  · omega
  · obtain ⟨hfrees, htask, hcleanups, hpump⟩ := hledger
    refine ⟨?_, htask, hcleanups, by decide⟩
    rw [h.frees, if_neg hpump]
    exact hfrees

/-- Closing ends it at every stage, and with an answer. -/
theorem Closed.over (h : Closed t true t') (ht : t.Inv) : t'.Over := by
  obtain ⟨halive, hopened, hopenState, habandoned, hpump, htask, harrival, -, -,
    -, hout, -⟩ := h
  rcases ht.stage with hstage | hstage | hstage
  · have hfailed : t'.out = [.failed t.closedMessage] := by
      rw [hout, hstage.out, closing, hstage.opened, hstage.openState]
      rfl
    refine ⟨hopenState, hopened, hpump, ?_, fun _ => ?_, .inl ?_, fun hdead => ?_⟩
    · rw [hfailed]
      trivial
    · rw [hfailed]
      exact List.cons_ne_nil _ _
    · rw [habandoned, hstage.openState, Bool.or_true]
    · rw [halive, hstage.alive] at hdead
      cases hdead
  · have hclosed : t'.out = [.opened, .closed] := by
      rw [hout, hstage.out, closing, hstage.opened]
      rfl
    refine ⟨hopenState, hopened, hpump, ?_, fun _ => ?_, .inr ⟨?_, ?_⟩,
      fun _ => ?_⟩
    · rw [hclosed]
      trivial
    · rw [hclosed]
      exact List.cons_ne_nil _ _
    · rw [htask]
      exact hstage.task
    · rw [harrival]
      exact hstage.arrival
    · rw [harrival]
      exact hstage.arrival
  · have hsame : t'.out = t.out := by
      rw [hout, closing, hstage.opened, hstage.openState]
      exact List.append_nil _
    refine ⟨hopenState, hopened, hpump, ?_, fun hlive => ?_, ?_, fun hdead => ?_⟩
    · rw [hsame]
      exact hstage.told
    · rw [hsame]
      exact hstage.answered (halive ▸ hlive)
    · rw [habandoned, hstage.openState, Bool.or_false, htask, harrival]
      exact hstage.late
    · rw [harrival]
      exact hstage.dropped (halive ▸ hdead)

theorem close_inv (h : t.Inv) : t.close.Inv := by
  have hclosed := closeInternal_closed true t
  refine ⟨hclosed.ledger h.ledger, ?_, ?_, .inr (.inr (hclosed.over h))⟩
  · rw [close, hclosed.task, hclosed.channel]
    exact h.fresh
  · rw [close, hclosed.task, hclosed.arrival]
    exact h.order

theorem pumpFinished_inv (h : t.Inv) : t.pumpFinished.Inv := by
  unfold pumpFinished
  split
  · have hset : Inv { t with finished := false } := by
      refine ⟨h.ledger, h.fresh, h.order, ?_⟩
      rcases h.stage with hstage | hstage | hstage
      · exact .inl { hstage with }
      · exact .inr (.inl { hstage with })
      · exact .inr (.inr { hstage with })
    exact close_inv hset
  · exact h

theorem pumpExit_inv (h : t.Inv) : t.pumpExit.Inv := by
  unfold pumpExit
  split
  · next hpump =>
      rcases h.stage with hstage | hstage | hstage
      · rw [hstage.pump] at hpump
        cases hpump
      · have hledger := h.ledger
        unfold Ledger at hledger
        rw [hstage.session] at hledger
        refine ⟨?_, h.fresh, h.order, .inr (.inl ?_)⟩
        · unfold Ledger freeChannel
          simp only [hstage.session]
          unfold holders at *
          rw [if_pos hpump] at hledger
          simp only [reduceCtorEq, if_false]
          omega
        · exact { hstage with pump := by simp [freeChannel] }
      · rw [hstage.pump] at hpump
        cases hpump
  · exact h

/-- The channel goes from one holder to another, or is freed by the one. -/
theorem Ledger.moves (h : t.Ledger) (hlive : t.session ≠ .gone)
    (hsession : t'.session = t.session) (hchannel : t'.channel = t.channel)
    (haccounts : t'.holders + t'.frees = t.holders + t.frees) : t'.Ledger := by
  unfold Ledger at *
  rw [hsession, hchannel]
  split at h
  · omega
  · omega
  · next heq => exact absurd heq hlive

theorem Inv.not_gone (h : t.Inv) (htask : t.task.idle = false) :
    t.session ≠ .gone := by
  intro hgone
  have hledger := h.ledger
  unfold Ledger at hledger
  rw [hgone] at hledger
  rw [hledger.2.1] at htask
  cases htask

/-- While the task is under way no arrival is posted. -/
theorem Inv.no_arrival (h : t.Inv) (htask : t.task.idle = false) :
    t.arrival = none := by
  by_contra harrival
  rw [h.order harrival] at htask
  cases htask

/-- While the task is under way the tunnel waits for it, or it is over and
the task was abandoned. -/
theorem Inv.waiting (h : t.Inv) (htask : t.task.idle = false) :
    t.Pending ∨ t.Over ∧ t.abandoned = true := by
  rcases h.stage with hstage | hstage | hstage
  · exact .inl hstage
  · rw [hstage.task] at htask
    cases htask
  · refine .inr ⟨hstage, hstage.late.resolve_right fun hidle => ?_⟩
    rw [hidle.1] at htask
    cases htask

theorem channelResult_inv (h : t.Inv) (channel : Bool) :
    (t.channelResult channel).Inv := by
  unfold channelResult
  split
  · next hqueued =>
      have htask : t.task.idle = false := by
        rw [hqueued]
        rfl
      have hnone := h.fresh hqueued
      have harrival := h.no_arrival htask
      have hledger := h.ledger
      refine ⟨?_, (fun hq => by cases hq), fun ha => absurd harrival ha, ?_⟩
      · unfold Ledger holders at *
        rw [hqueued, harrival, hnone] at hledger
        simp only [harrival]
        split at hledger
        · next heq =>
            simp only [Task.holds, Bool.toNat_false] at *
            omega
        · next heq =>
            simp only [Task.holds, Bool.toNat_false] at *
            omega
        · cases hledger.2.1
      · rcases h.waiting htask with hstage | ⟨hstage, habandoned⟩
        · exact .inl { hstage with flight := fun hidle => by cases hidle }
        · exact .inr (.inr { hstage with late := .inl habandoned })
  · exact h

theorem checkAbandoned_inv (h : t.Inv) : t.checkAbandoned.Inv := by
  unfold checkAbandoned
  split
  · next channel hgot =>
      have htask : t.task.idle = false := by
        rw [hgot]
        rfl
      have hlive := h.not_gone htask
      have harrival := h.no_arrival htask
      have hstage := h.waiting htask
      split
      · next habandoned =>
          have hover : t.Over := by
            rcases hstage with hstage | hstage
            · rw [hstage.abandoned] at habandoned
              cases habandoned
            · exact hstage.1
          simp only []
          cases channel with
          | true =>
              refine ⟨h.ledger.moves hlive rfl rfl ?_, (fun hq => by cases hq),
                fun _ => rfl, .inr (.inr { hover with late := .inl habandoned })⟩
              simp only [holders, freeChannel, hgot, Task.holds, if_true,
                Bool.toNat_true, Bool.toNat_false]
              omega
          | false =>
              refine ⟨h.ledger.moves hlive rfl rfl ?_, (fun hq => by cases hq),
                fun _ => rfl, .inr (.inr { hover with late := .inl habandoned })⟩
              simp only [holders, hgot, Task.holds]
              rfl
      · next habandoned =>
          refine ⟨h.ledger.moves hlive rfl rfl ?_, (fun hq => by cases hq),
            fun ha => absurd harrival ha, .inl ?_⟩
          · simp only [holders, hgot, Task.holds]
          · rcases hstage with hstage | hstage
            · exact { hstage with flight := fun hidle => by cases hidle }
            · exact absurd hstage.2 habandoned
  · exact h

/-- The arrival is posted to a tunnel that is there, or it is dropped: then
the session must not need the channel freed. -/
theorem postArrival_inv (h : t.Inv)
    (hgood : ¬(t.session = .alive ∧ t.task = .checked true ∧ t.alive = false)) :
    t.postArrival.Inv := by
  unfold postArrival
  split
  · next channel hchecked =>
      have htask : t.task.idle = false := by
        rw [hchecked]
        rfl
      have hlive := h.not_gone htask
      have harrival := h.no_arrival htask
      have hstage := h.waiting htask
      simp only []
      split
      · next halive =>
          refine ⟨h.ledger.moves hlive rfl rfl ?_, (fun hq => by cases hq),
            fun _ => rfl, ?_⟩
          · simp only [holders, hchecked, harrival, Task.holds]
            cases channel
            · rfl
            · simp
          · rcases hstage with hstage | ⟨hstage, habandoned⟩
            · exact .inl { hstage with flight := fun _ ha => by cases ha }
            · refine .inr (.inr { hstage with late := .inl habandoned, dropped := ?_ })
              intro hdead
              have hdead' : t.alive = false := hdead
              rw [halive] at hdead'
              cases hdead'
      · next hdead =>
          have hover : t.Over ∧ t.abandoned = true := by
            refine hstage.resolve_left fun hpending => hdead hpending.alive
          refine ⟨?_, (fun hq => by cases hq), fun _ => rfl,
            .inr (.inr { hover.1 with late := .inl hover.2 })⟩
          have hledger := h.ledger
          unfold Ledger holders at *
          rw [hchecked, harrival] at hledger
          simp only [harrival]
          split at hledger
          · next heq =>
              have hnone : channel = false := by
                cases channel
                · rfl
                · exact absurd ⟨heq, hchecked, eq_false_of_ne_true hdead⟩ hgood
              rw [hnone] at hledger
              exact hledger
          · next heq =>
              simp only [Task.holds, Bool.toNat_false] at *
              omega
          · next heq => exact absurd heq hlive
  · exact h

theorem runCleanup_inv (h : t.Inv) : t.runCleanup.Inv := by
  unfold runCleanup
  split
  · next hcleanups =>
      have hlive : t.session ≠ .gone := by
        intro hgone
        have hledger := h.ledger
        unfold Ledger at hledger
        rw [hgone] at hledger
        omega
      refine ⟨h.ledger.moves hlive rfl rfl ?_, h.fresh, h.order, ?_⟩
      · have hholders := holders_cleanups (t := t) (t.cleanups - 1)
        show { t with cleanups := t.cleanups - 1 }.holders + (t.frees + 1) =
          t.holders + t.frees
        omega
      · rcases h.stage with hstage | hstage | hstage
        · exact .inl { hstage with }
        · exact .inr (.inl { hstage with })
        · exact .inr (.inr { hstage with })
  · exact h

/-- The session goes, and the channel with it. -/
theorem workerEnd_inv (h : t.Inv) : t.workerEnd.Inv := by
  unfold workerEnd
  split
  · exact h
  · exact h
  · next hending _ _ =>
      have hover : t.Over := by
        rcases h.stage with hstage | hstage | hstage
        · rw [hstage.session] at hending
          cases hending
        · rw [hstage.session] at hending
          cases hending
        · exact hstage
      have hle := h.frees_le
      have hlate : t.abandoned = true ∨ Task.done.idle = true ∧ t.arrival = none :=
        hover.late.imp_right fun hidle => ⟨rfl, hidle.2⟩
      have hpump : t.pump ≠ .running := by
        rw [hover.pump]
        decide
      simp only []
      split
      · next hheld =>
          refine ⟨⟨?_, rfl, rfl, hpump⟩, (fun hq => by cases hq), fun _ => rfl,
            .inr (.inr { hover with late := hlate })⟩
          show t.frees + 1 = t.channel.toNat
          rw [hheld.1, hheld.2]
          rfl
      · next hfreed =>
          refine ⟨⟨?_, rfl, rfl, hpump⟩, (fun hq => by cases hq), fun _ => rfl,
            .inr (.inr { hover with late := hlate })⟩
          show t.frees = t.channel.toNat
          cases hchannel : t.channel with
          | false =>
              rw [hchannel] at hle
              exact Nat.le_zero.mp hle
          | true =>
              rw [hchannel] at hle
              have hne : t.frees ≠ 0 := fun h₀ => hfreed ⟨hchannel, h₀⟩
              simp only [Bool.toNat_true] at hle ⊢
              omega
  · exact h

/-- The arrival was abandoned, and a clean-up takes its place. -/
theorem arrive_abandoned (h : t.Inv) {channel : Bool}
    (harrival : t.arrival = some channel) (habandoned : t.abandoned = true) :
    Inv (if channel then { t with arrival := none }.postCleanup
      else { t with arrival := none }) := by
  have hidle : t.task.idle = true := h.order (by simp [harrival])
  have hover : t.Over := by
    rcases h.stage with hstage | hstage | hstage
    · rw [hstage.abandoned] at habandoned
      cases habandoned
    · rw [hstage.arrival] at harrival
      cases harrival
    · exact hstage
  have hledger := h.ledger
  cases channel with
  | false =>
      refine ⟨?_, h.fresh, fun ha => absurd rfl ha, .inr (.inr
        { hover with late := .inl habandoned, dropped := fun _ => rfl })⟩
      unfold Ledger holders at *
      rw [harrival] at hledger
      exact hledger
  | true =>
      simp only [if_true, postCleanup]
      split
      · next hgone =>
          refine ⟨?_, h.fresh, fun ha => absurd rfl ha, .inr (.inr
            { hover with late := .inl habandoned, dropped := fun _ => rfl })⟩
          have hgone' : t.session = .gone := hgone
          unfold Ledger at *
          rw [hgone'] at hledger
          simp only [hgone']
          exact hledger
      · next hlive =>
          refine ⟨hledger.moves hlive rfl rfl ?_, h.fresh,
            fun ha => absurd rfl ha, .inr (.inr
              { hover with late := .inl habandoned, dropped := fun _ => rfl })⟩
          simp only [holders, harrival]
          simp only [reduceCtorEq, if_true, if_false]
          omega

theorem onChannelOpened_inv (h : t.Inv) (hpending : t.Pending)
    {channel : Bool} (harrival : t.arrival = some channel) (socketPair : Bool) :
    ({ t with arrival := none }.onChannelOpened channel socketPair).Inv := by
  have hidle : t.task.idle = true := h.order (by simp [harrival])
  have hledger := h.ledger
  have hlive : t.session ≠ .gone := by
    rw [hpending.session]
    decide
  have hfailed (msg : String) : Told (t.out ++ [.failed msg]) ∧
      t.out ++ [.failed msg] ≠ [] := by
    rw [hpending.out]
    exact ⟨trivial, List.cons_ne_nil _ _⟩
  unfold onChannelOpened
  split
  · next hnone =>
      refine ⟨hledger.moves hlive rfl rfl ?_, h.fresh, fun ha => absurd rfl ha,
        .inr (.inr ⟨rfl, hpending.opened, hpending.pump, (hfailed _).1,
          fun _ => (hfailed _).2, .inr ⟨hidle, rfl⟩, fun _ => rfl⟩)⟩
      simp only [holders, harrival, hnone, fail, emit]
      rfl
  · next hsome =>
      have hheld : channel = true := eq_true_of_ne_false hsome
      split
      · simp only [hpending.openState, if_true, postCleanup]
        rw [if_neg hlive]
        refine ⟨hledger.moves hlive rfl rfl ?_, h.fresh, fun ha => absurd rfl ha,
          .inr (.inr ⟨rfl, hpending.opened, hpending.pump, (hfailed _).1,
            fun _ => (hfailed _).2, .inr ⟨hidle, rfl⟩, fun _ => rfl⟩)⟩
        simp only [holders, harrival, hheld, hpending.pump, fail, emit]
        simp only [reduceCtorEq, if_true, if_false]
        omega
      · refine ⟨hledger.moves hlive rfl rfl ?_, h.fresh, fun ha => absurd rfl ha,
          .inr (.inl ⟨hpending.alive, rfl, rfl, ?_, ?_, hpending.session,
            hpending.destroyConnected, hidle, rfl⟩)⟩
        · simp only [holders, harrival, hheld, hpending.pump, emit]
          simp only [reduceCtorEq, if_true, if_false]
          omega
        · simp [emit]
        · show t.out ++ [.opened] = [.opened]
          rw [hpending.out]
          rfl

theorem arrive_inv (h : t.Inv) (socketPair : Bool) :
    (t.arrive socketPair).Inv := by
  unfold arrive
  split
  · exact h
  · next channel harrival =>
      simp only []
      split
      · next habandoned => exact arrive_abandoned h harrival habandoned
      · next habandoned =>
          refine onChannelOpened_inv h ?_ harrival socketPair
          rcases h.stage with hstage | hstage | hstage
          · exact hstage
          · rw [hstage.arrival] at harrival
            cases harrival
          · have hnone := (hstage.late.resolve_left habandoned).2
            rw [hnone] at harrival
            cases harrival

/-- The tunnel is closed before the session ends. -/
theorem destroySession_inv (h : t.Inv) : t.destroySession.Inv := by
  unfold destroySession
  split
  · next halive =>
      simp only []
      generalize ht' : (if t.alive ∧ t.destroyConnected then t.close else t) = t'
      have hinv : t'.Inv ∧ t'.Over ∧ t'.session = .alive := by
        rw [← ht']
        split
        · have hclosed := closeInternal_closed true t
          exact ⟨close_inv h, hclosed.over h, hclosed.session.trans halive⟩
        · next hskip =>
            refine ⟨h, ?_, halive⟩
            rcases h.stage with hstage | hstage | hstage
            · exact absurd ⟨hstage.alive, hstage.destroyConnected⟩ hskip
            · exact absurd ⟨hstage.alive, hstage.destroyConnected⟩ hskip
            · exact hstage
      obtain ⟨hinv, hover, hsession⟩ := hinv
      refine ⟨?_, hinv.fresh, hinv.order, .inr (.inr { hover with })⟩
      have hledger := hinv.ledger
      unfold Ledger at *
      rw [hsession] at hledger
      exact Nat.le_of_eq hledger
  · exact h

theorem destroy_closed (t : SshTunnel) : ∃ u, Closed t false u ∧
    t.destroy = { u with alive := false, arrival := none, finished := false } := by
  unfold destroy
  by_cases hopenState : t.openState = true
  · rw [if_pos hopenState]
    have h := closeInternal_closed false { t with abandoned := true }
    refine ⟨_, ⟨h.alive, h.opened, h.openState, ?_, h.pump, h.task, h.arrival,
      h.cleanups, h.channel, h.session, h.out, h.frees⟩, rfl⟩
    rw [h.abandoned, hopenState, Bool.or_true, Bool.or_true]
  · rw [if_neg hopenState]
    exact ⟨_, closeInternal_closed false t, rfl⟩

/-- The tunnel goes, and the arrival with it: then the session must not need
the channel freed. -/
theorem destroy_inv (h : t.Inv)
    (hgood : ¬(t.session = .alive ∧ t.arrival = some true)) : t.destroy.Inv := by
  obtain ⟨u, hclosed, hdestroy⟩ := destroy_closed t
  have hledger := hclosed.ledger h.ledger
  rw [hdestroy]
  refine ⟨?_, ?_, fun ha => absurd rfl ha, .inr (.inr ?_)⟩
  · unfold Ledger holders at *
    rw [hclosed.session] at *
    split at hledger
    · next halive =>
        have hnone : ¬u.arrival = some true := by
          rw [hclosed.arrival]
          exact fun ha => hgood ⟨halive, ha⟩
        rw [if_neg hnone] at hledger
        exact hledger
    · refine Nat.le_trans ?_ hledger
      simp only [reduceCtorEq, if_false]
      omega
    · exact hledger
  · intro hq
    have hq' : t.task = .queued := hclosed.task.symm.trans hq
    exact hclosed.channel.trans (h.fresh hq')
  · refine ⟨hclosed.openState, hclosed.opened, hclosed.pump, ?_,
      (fun hlive => by cases hlive), ?_, fun _ => rfl⟩
    · show Told u.out
      rw [hclosed.out, closing, if_pos rfl, List.append_nil]
      exact h.sound.told
    · show u.abandoned = true ∨ u.task.idle = true ∧ _
      rw [hclosed.abandoned, hclosed.task]
      rcases h.stage with hstage | hstage | hstage
      · rw [hstage.openState, Bool.or_true]
        exact .inl rfl
      · exact .inr ⟨hstage.task, rfl⟩
      · rw [hstage.openState, Bool.or_false]
        exact hstage.late.imp_right fun hidle => ⟨hidle.1, rfl⟩

/-! ## Runs -/

/-- Whether an event leaves the channel to nobody: an arrival that carries it
is dropped while the session lives. -/
def Drops (t : SshTunnel) : Event → Bool
  | .destroy => t.alive && t.session = .alive && t.arrival = some true
  | .postArrival => !t.alive && t.session = .alive && t.task = .checked true
  | _ => false

theorem step_inv (h : t.Inv) (e : Event) (hgood : ¬t.Drops e = true) :
    (t.step e).Inv := by
  cases e with
  | channelResult channel =>
      simp only [step]
      split
      · exact h
      · exact channelResult_inv h channel
  | checkAbandoned => exact checkAbandoned_inv h
  | postArrival =>
      refine postArrival_inv h fun hdrop => hgood ?_
      simp [Drops, hdrop.1, hdrop.2.1, hdrop.2.2]
  | runCleanup => exact runCleanup_inv h
  | workerEnd => exact workerEnd_inv h
  | pumpExit => exact pumpExit_inv h
  | arrive socketPair =>
      simp only [step]
      split
      · exact h
      · exact arrive_inv h socketPair
  | close =>
      simp only [step]
      split
      · exact h
      · exact close_inv h
  | pumpFinished =>
      simp only [step]
      split
      · exact h
      · exact pumpFinished_inv h
  | destroySession => exact destroySession_inv h
  | destroy =>
      simp only [step]
      split
      · exact h
      · next hruns =>
          refine destroy_inv h fun hdrop => hgood ?_
          have halive : t.alive = true := eq_true_of_ne_false fun hdead =>
            hruns (.inr hdead)
          simp [Drops, halive, hdrop.1, hdrop.2]

/-- Where the arrival or the task has the channel, nothing else has it, and it
was not freed. -/
theorem Inv.sole (h : t.Inv) (halive : t.session = .alive)
    (hheld : t.arrival = some true ∨ t.task = .checked true) :
    t.channel = true ∧ t.frees = 0 ∧ t.cleanups = 0 ∧ t.pump ≠ .running := by
  have hledger := h.ledger
  unfold Ledger holders at hledger
  rw [halive] at hledger
  have hle := Bool.toNat_le t.channel
  have hone : 1 ≤ t.task.holds.toNat + if t.arrival = some true then 1 else 0 := by
    rcases hheld with hheld | hheld
    · rw [if_pos hheld]
      omega
    · rw [hheld]
      exact Nat.le_add_right 1 _
  simp only [] at hledger
  refine ⟨?_, by omega, by omega, fun hpump => ?_⟩
  · cases hchannel : t.channel with
    | true => rfl
    | false =>
        rw [hchannel, Bool.toNat_false] at hledger
        omega
  · rw [if_pos hpump] at hledger
    omega

/-- Then nobody frees it. -/
theorem step_drops (h : t.Inv) (e : Event) (hdrops : t.Drops e = true) :
    ¬(t.step e).Sound := by
  intro hsound
  unfold Drops at hdrops
  split at hdrops
  · rw [Bool.and_eq_true_iff, Bool.and_eq_true_iff, decide_eq_true_iff,
      decide_eq_true_iff] at hdrops
    obtain ⟨⟨hlive, halive⟩, harrival⟩ := hdrops
    obtain ⟨hchannel, hfrees, hcleanups, hpump⟩ := h.sole halive (.inl harrival)
    obtain ⟨u, hclosed, hdestroy⟩ := destroy_closed t
    have hruns : ¬(t.session = .ending ∨ t.alive = false) := by
      rw [halive, hlive]
      decide
    rw [step, if_neg hruns, hdestroy] at hsound
    have hfreed : u.frees = u.channel.toNat := hsound.freed
      ⟨by
        show u.task.idle = true
        rw [hclosed.task]
        exact h.order (by simp [harrival]),
      rfl, hclosed.cleanups.trans hcleanups, by
        show u.pump ≠ .running
        rw [hclosed.pump]
        decide, by
        show u.session ≠ .ending
        rw [hclosed.session, halive]
        decide⟩
    rw [hclosed.frees, hclosed.channel, hfrees, hchannel, if_neg hpump] at hfreed
    cases hfreed
  · rw [Bool.and_eq_true_iff, Bool.and_eq_true_iff, decide_eq_true_iff,
      decide_eq_true_iff, Bool.not_eq_true'] at hdrops
    obtain ⟨⟨hdead, halive⟩, hchecked⟩ := hdrops
    obtain ⟨hchannel, hfrees, hcleanups, hpump⟩ := h.sole halive (.inr hchecked)
    have harrival := h.no_arrival (by rw [hchecked]; rfl)
    simp only [step, postArrival, hchecked, hdead, Bool.false_eq_true,
      if_false] at hsound
    have hfreed : t.frees = t.channel.toNat :=
      hsound.freed ⟨rfl, harrival, hcleanups, hpump, by
        show t.session ≠ .ending
        rw [halive]
        decide⟩
    rw [hfrees, hchannel] at hfreed
    cases hfreed
  · cases hdrops

theorem open_inv (host : String) (port : UInt16) (connected worker : Bool) :
    ((make host port).open connected worker).Inv := by
  have hfailed (msg : String) : ((make host port).fail msg).Inv :=
    ⟨rfl, fun _ => rfl, fun _ => rfl, .inr (.inr ⟨rfl, rfl, rfl, trivial,
      fun _ => List.cons_ne_nil _ _, .inr ⟨rfl, rfl⟩, fun _ => rfl⟩)⟩
  unfold «open»
  split
  · exact hfailed _
  · split
    · exact hfailed _
    · exact ⟨rfl, fun _ => rfl, fun ha => absurd rfl ha, .inl ⟨rfl, rfl, rfl,
        rfl, rfl, rfl, rfl, rfl, fun hidle => by cases hidle⟩⟩

/-- The runs after an `open` that are sound throughout are those that drop no
arrival with a channel. -/
theorem tunnel_sound (host : String) (port : UInt16) (connected worker : Bool)
    (es : List Event) :
    (∀ past, past <+: es →
      (run step ((make host port).open connected worker) past).Sound) ↔
      ∀ x ∈ trail step ((make host port).open connected worker) es,
        ¬x.1.Drops x.2 = true :=
  always_iff (fun _ h => h.sound) (fun _ e h hgood => step_inv h e hgood)
    (fun _ e h hbad => step_drops h e (not_not.mp hbad)) es
    (open_inv host port connected worker)

/-- The worker has posted the arrival, and the tunnel is destroyed before it is
processed. -/
theorem tunnel_sound_dropped :
    ¬∀ (host : String) (port : UInt16) (connected worker : Bool)
      (es : List Event), ∀ past, past <+: es →
      (run step ((make host port).open connected worker) past).Sound := by
  intro h
  have hlast := (h "amt" 16994 true true [.channelResult true, .checkAbandoned,
    .postArrival, .destroy] _ (List.prefix_refl _)).freed
    ⟨rfl, rfl, rfl, by decide, by decide⟩
  cases hlast

end SshTunnel

end QuMesh.Ssh
