import QuMesh.Lib.Relay
import QuMesh.Ssh.Pump

/-!
# The pump as two relays

The two directions of the pump share its buffer, and never at the same time:
the bytes read off one end are written to the other before anything else is
read. As long as both ends are open every answer keeps both relays lossless,
but for one. The application's socket does not block, so a write to it may
find it full, and the pump takes that for a consumer that has gone: it stops,
and what it still holds is dropped.
-/

namespace QuMesh.Ssh

open QuMesh.Lib

namespace SshTunnelPump

variable {p : SshTunnelPump}

/-! ## What it holds -/

/-- From the application's end to the channel. -/
def up (p : SshTunnelPump) : Relay UInt8 where
  taken := p.fromApp
  given := p.toChannel
  held :=
    match p.wait with
    | .channelWrite sent => p.buf.drop sent
    | _ => []

/-- From the channel to the application's end. -/
def down (p : SshTunnelPump) : Relay UInt8 where
  taken := p.fromChannel
  given := p.toApp
  held :=
    match p.wait with
    | .fdWrite totalOut => p.buf.drop totalOut
    | _ => []

/-- The loop has not been left, and is not going to be. -/
structure Running (p : SshTunnelPump) : Prop where
  stop : p.stop = false
  free : p.wait ≠ .channelFree
  finished : p.wait ≠ .finished

instance (p : SshTunnelPump) : Decidable p.Running :=
  decidable_of_iff
    (p.stop = false ∧ p.wait ≠ .channelFree ∧ p.wait ≠ .finished)
    ⟨fun h => ⟨h.1, h.2.1, h.2.2⟩, fun h => ⟨h.stop, h.free, h.finished⟩⟩

/-- The pump runs, and nothing was lost in either direction. -/
structure Lossless (p : SshTunnelPump) : Prop where
  running : p.Running
  up : p.up.Lossless
  down : p.down.Lossless
  inHand : p.up.held.length + p.down.held.length ≤ bufSize

/-- What was written to an end is a prefix of what was read off the other. -/
theorem Lossless.prefixes (h : p.Lossless) :
    p.toChannel <+: p.fromApp ∧ p.toApp <+: p.fromChannel :=
  ⟨h.up.given_prefix, h.down.given_prefix⟩

instance (p : SshTunnelPump) : Decidable p.Lossless :=
  decidable_of_iff
    (p.Running ∧ p.up.Lossless ∧ p.down.Lossless ∧
      p.up.held.length + p.down.held.length ≤ bufSize)
    ⟨fun h => ⟨h.1, h.2.1, h.2.2.1, h.2.2.2⟩,
      fun h => ⟨h.running, h.up, h.down, h.inHand⟩⟩

/-! ## Open ends -/

/-- A read that does not find the end of the stream. -/
def readFits : Option Bytes → Bool
  | none => true
  | some bytes => bytes.length ≤ bufSize

/-- What the calls may return while neither end closes and nobody calls
`stop`. The socket takes some of the bytes, or it is full and takes none. -/
def allows (p : SshTunnelPump) (a : Answer) : Bool :=
  match p.wait, a with
  | .fdReadable, .readable _ => true
  | .fdRead, .fdRead got => got ≠ some [] && readFits got
  | .channelWrite sent, .channelWrote rc =>
      0 ≤ rc && rc ≤ (p.buf.drop sent).length
  | .channelPoll, .polled rc => 0 ≤ rc
  | .channelRead, .channelRead got => got.isSome && readFits got
  | .fdWrite totalOut, .fdWrote wrote =>
      wrote = -1 || (1 ≤ wrote && wrote ≤ (p.buf.drop totalOut).length)
  | .channelIsEof, .eof yes => !yes
  | .usleep, .woken => true
  | .channelFree, .freed => true
  | _, _ => false

/-! ## One answer -/

/-- The loop is not in the middle of a write, nor behind its end. -/
def Wait.between : Wait → Bool
  | .channelWrite _ | .fdWrite _ | .channelFree | .finished => false
  | _ => true

/-- All that was read off an end was written to the other. -/
def CaughtUp (p : SshTunnelPump) : Prop :=
  p.stop = false ∧ p.fromApp = p.toChannel ∧ p.fromChannel = p.toApp

theorem lossless_between (h : Wait.between p.wait = true) :
    p.Lossless ↔ p.CaughtUp := by
  have hup : p.up = ⟨p.fromApp, p.toChannel, []⟩ := by
    unfold up
    split
    · next heq => rw [heq] at h; cases h
    · rfl
  have hdown : p.down = ⟨p.fromChannel, p.toApp, []⟩ := by
    unfold down
    split
    · next heq => rw [heq] at h; cases h
    · rfl
  constructor
  · intro hp
    have h₁ := hp.up
    have h₂ := hp.down
    rw [hup, Relay.Lossless, List.append_nil] at h₁
    rw [hdown, Relay.Lossless, List.append_nil] at h₂
    exact ⟨hp.running.stop, h₁, h₂⟩
  · rintro ⟨hstop, h₁, h₂⟩
    refine ⟨⟨hstop, ?_, ?_⟩, ?_, ?_, ?_⟩
    · intro hw
      rw [hw] at h
      cases h
    · intro hw
      rw [hw] at h
      cases h
    · rw [hup, Relay.Lossless, List.append_nil]
      exact h₁
    · rw [hdown, Relay.Lossless, List.append_nil]
      exact h₂
    · rw [hup, hdown]
      exact Nat.zero_le _

theorem CaughtUp.loopHead (h : p.CaughtUp) : p.loopHead.Lossless := by
  unfold SshTunnelPump.loopHead
  split
  · next hstop => exact absurd (h.1 ▸ hstop) Bool.false_ne_true
  · exact (lossless_between rfl).mpr h

theorem onFdRead_lossless (h : p.CaughtUp) {got : Option Bytes}
    (hopen : got ≠ some []) (hfits : readFits got = true) :
    (p.onFdRead got).Lossless := by
  unfold onFdRead
  split
  · exact (lossless_between rfl).mpr h
  · exact absurd rfl hopen
  · next bytes _ =>
      obtain ⟨hstop, hup, hdown⟩ := h
      refine ⟨⟨hstop, by simp, by simp⟩, ?_, ?_, ?_⟩
      · show p.fromApp ++ bytes = p.toChannel ++ bytes
        rw [hup]
      · show p.fromChannel = p.toApp ++ []
        rw [hdown, List.append_nil]
      · exact of_decide_eq_true hfits

theorem onChannelWrote_lossless (h : p.Lossless) {sent : Nat} {rc : Int}
    (hwait : p.wait = .channelWrite sent) (hopen : 0 ≤ rc) :
    (p.onChannelWrote sent rc).Lossless := by
  obtain ⟨hrunning, hup, hdown, hinHand⟩ := h
  simp only [up, down, hwait, Relay.Lossless, List.append_nil] at hup hdown hinHand
  have hsplit : p.fromApp = p.toChannel ++ (p.buf.drop sent).take rc.toNat ++
      p.buf.drop (sent + rc.toNat) := by
    rw [hup, List.append_assoc, ← List.drop_drop, List.take_append_drop]
  unfold onChannelWrote
  rw [if_neg (by omega)]
  simp only []
  split
  · refine ⟨⟨hrunning.stop, by simp, by simp⟩, hsplit, ?_, ?_⟩
    · show p.fromChannel = p.toApp ++ []
      rw [hdown, List.append_nil]
    · show (p.buf.drop (sent + rc.toNat)).length + 0 ≤ bufSize
      simp only [List.length_drop, List.length_nil] at hinHand ⊢
      omega
  · next hdone =>
      have hall : p.buf.length ≤ sent + rc.toNat := by
        by_contra hmore
        exact hdone ⟨by omega, hrunning.stop⟩
      refine (lossless_between rfl).mpr ⟨hrunning.stop, ?_, hdown⟩
      rw [hsplit, List.drop_of_length_le hall, List.append_nil]

/-- What is still to be written out is in hand. -/
theorem writeOut_lossless {totalOut : Nat} (hstop : p.stop = false)
    (hup : p.fromApp = p.toChannel)
    (hdown : p.fromChannel = p.toApp ++ p.buf.drop totalOut)
    (hfits : (p.buf.drop totalOut).length ≤ bufSize) :
    (p.writeOut totalOut).Lossless := by
  unfold writeOut
  split
  · refine ⟨⟨hstop, by simp, by simp⟩, ?_, hdown, ?_⟩
    · show p.fromApp = p.toChannel ++ []
      rw [hup, List.append_nil]
    · show 0 + (p.buf.drop totalOut).length ≤ bufSize
      omega
  · next hdone =>
      have hall : p.buf.length ≤ totalOut := by
        by_contra hmore
        exact hdone ⟨by omega, hstop⟩
      refine (lossless_between rfl).mpr ⟨hstop, hup, ?_⟩
      rw [hdown, List.drop_of_length_le hall, List.append_nil]

theorem onChannelRead_lossless (h : p.CaughtUp) {got : Option Bytes}
    (hopen : got.isSome = true) (hfits : readFits got = true) :
    (p.onChannelRead got).Lossless := by
  unfold onChannelRead
  split
  · cases hopen
  · exact (lossless_between rfl).mpr h
  · next bytes _ =>
      obtain ⟨hstop, hup, hdown⟩ := h
      refine writeOut_lossless hstop hup ?_ (of_decide_eq_true hfits)
      show p.fromChannel ++ bytes = p.toApp ++ bytes
      rw [hdown]

theorem onFdWrote_lossless (h : p.Lossless) {totalOut : Nat} {wrote : Int}
    (hwait : p.wait = .fdWrite totalOut) (hroom : 1 ≤ wrote) :
    (p.onFdWrote totalOut wrote).Lossless := by
  obtain ⟨hrunning, hup, hdown, hinHand⟩ := h
  simp only [up, down, hwait, Relay.Lossless, List.append_nil] at hup hdown hinHand
  unfold onFdWrote
  rw [if_neg (by omega)]
  refine writeOut_lossless hrunning.stop hup ?_ ?_
  · show p.fromChannel = p.toApp ++ (p.buf.drop totalOut).take wrote.toNat ++
      p.buf.drop (totalOut + wrote.toNat)
    rw [hdown, List.append_assoc, ← List.drop_drop, List.take_append_drop]
  · show (p.buf.drop (totalOut + wrote.toNat)).length ≤ bufSize
    simp only [List.length_drop, List.length_nil] at hinHand ⊢
    omega

/-- Every answer but one keeps the relays lossless. -/
theorem answer_lossless (h : p.Lossless) {a : Answer} (ha : p.allows a = true)
    (hroom : a ≠ .fdWrote (-1)) : (p.answer a).Lossless := by
  have hidle (hw : Wait.between p.wait = true) : p.CaughtUp :=
    (lossless_between hw).mp h
  unfold allows at ha
  split at ha
  · next yes hwait =>
      have hp := hidle (by rw [hwait]; rfl)
      cases yes
      all_goals
        simp only [answer, hwait]
        exact (lossless_between rfl).mpr hp
  · next got hwait =>
      obtain ⟨hopen, hfits⟩ := Bool.and_eq_true_iff.mp ha
      simp only [answer, hwait]
      exact onFdRead_lossless (hidle (by rw [hwait]; rfl))
        (of_decide_eq_true hopen) hfits
  · next sent rc hwait =>
      have hopen := of_decide_eq_true (Bool.and_eq_true_iff.mp ha).1
      simp only [answer, hwait]
      exact onChannelWrote_lossless h hwait hopen
  · next rc hwait =>
      have hp := hidle (by rw [hwait]; rfl)
      have hopen : 0 ≤ rc := of_decide_eq_true ha
      simp only [answer, hwait]
      show (p.onPolled rc).Lossless
      unfold onPolled
      rw [if_neg (by unfold sshEof; omega), if_neg (by omega)]
      split
      all_goals exact (lossless_between rfl).mpr hp
  · next got hwait =>
      obtain ⟨hopen, hfits⟩ := Bool.and_eq_true_iff.mp ha
      simp only [answer, hwait]
      exact onChannelRead_lossless (hidle (by rw [hwait]; rfl)) hopen hfits
  · next totalOut wrote hwait =>
      have hsome : 1 ≤ wrote := by
        rcases Bool.or_eq_true_iff.mp ha with hfull | hsome
        · exact absurd (congrArg Answer.fdWrote (of_decide_eq_true hfull)) hroom
        · exact of_decide_eq_true (Bool.and_eq_true_iff.mp hsome).1
      simp only [answer, hwait]
      exact onFdWrote_lossless h hwait hsome
  · next yes hwait =>
      have hp := hidle (by rw [hwait]; rfl)
      cases yes with
      | true => cases ha
      | false =>
          simp only [answer, hwait]
          show Lossless (if p.didWork then p.loopHead else _)
          split
          · exact hp.loopHead
          · exact (lossless_between rfl).mpr hp
  · next hwait =>
      simp only [answer, hwait]
      exact (hidle (by rw [hwait]; rfl)).loopHead
  · next hwait => exact absurd hwait h.running.free
  · cases ha

theorem writeOut_stop (totalOut : Nat) (p : SshTunnelPump) :
    (p.writeOut totalOut).stop = p.stop := by
  unfold writeOut
  split
  · rfl
  · rfl

/-- A write that finds the socket full ends the loop. -/
theorem answer_full (ha : p.allows (.fdWrote (-1)) = true) :
    ¬(p.answer (.fdWrote (-1))).Lossless := by
  intro h
  unfold allows at ha
  split at ha
  all_goals try contradiction
  next totalOut wrote hwait heq =>
    cases heq
    have hrunning := h.running.stop
    simp only [answer, hwait, onFdWrote] at hrunning
    rw [if_pos (by decide), writeOut_stop] at hrunning
    cases hrunning

/-! ## Runs -/

theorem lossless_fresh : ({} : SshTunnelPump).Lossless := by decide

/-- While both ends are open, a run loses nothing, and goes on, just if it
never finds the socket full. -/
theorem pump_lossless (answers : List Answer)
    (hopen : Guarded answer (fun _ p a => p.allows a = true) {} answers) :
    (∀ past, past <+: answers → (run answer {} past).Lossless) ↔
      .fdWrote (-1) ∉ answers := by
  have hevents : (trail answer {} answers).map Prod.snd = answers :=
    trail_events _ answers
  have hkeeps (_ : List (SshTunnelPump × Answer)) (p : SshTunnelPump)
      (a : Answer) (h : p.Lossless) (ha : p.allows a = true)
      (hroom : a ≠ .fdWrote (-1)) : (p.answer a).Lossless :=
    answer_lossless h ha hroom
  have hbreaks (_ : List (SshTunnelPump × Answer)) (p : SshTunnelPump)
      (a : Answer) (_ : p.Lossless) (ha : p.allows a = true)
      (hfull : ¬a ≠ .fdWrote (-1)) : ¬(p.answer a).Lossless := by
    rw [not_not.mp hfull] at ha ⊢
    exact answer_full ha
  rw [hopen.always_iff (fun _ h => h) hkeeps hbreaks lossless_fresh]
  constructor
  · intro h hfull
    rw [← hevents] at hfull
    obtain ⟨x, hx, heq⟩ := List.mem_map.mp hfull
    exact h x hx heq
  · intro h x hx heq
    refine h ?_
    rw [← hevents]
    exact List.mem_map.mpr ⟨x, hx, heq⟩

private def pieces : List Answer :=
  [.readable true, .fdRead (some [1, 2, 3]), .channelWrote 2, .channelWrote 0,
    .channelWrote 1, .polled 2, .channelRead (some [4, 5]), .fdWrote 1,
    .fdWrote 1, .eof false, .readable false, .polled 0, .eof false, .woken]

/-- Both directions, a short write in each, and a pause. -/
theorem pump_lossless_pieces :
    (run answer {} pieces).toApp = [4, 5] ∧
      ∀ past, past <+: pieces → (run answer {} past).Lossless :=
  ⟨by decide, (pump_lossless pieces (by decide)).mpr (by decide)⟩

/-- The consumer is slow: its socket takes one byte of three. -/
theorem pump_lossless_full :
    ¬∀ answers : List Answer,
      Guarded answer (fun _ p a => p.allows a = true) {} answers →
      ∀ past, past <+: answers → (run answer {} past).Lossless := by
  intro h
  have hlast := h [.readable false, .polled 3, .channelRead (some [1, 2, 3]),
    .fdWrote 1, .fdWrote (-1)] (by decide) _ (List.prefix_refl _)
  revert hlast
  decide

end SshTunnelPump

end QuMesh.Ssh
