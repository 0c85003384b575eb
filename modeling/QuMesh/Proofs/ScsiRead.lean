import QuMesh.Lib.Pieces
import QuMesh.Proofs.ScsiCompletion

/-!
# A read serves the image

A read is a continuation: `scsiRead` leaves the file at the first block and
the counters at the whole length, and each tick of the chunk timer sends what
the counters say. Whatever else comes in between leaves both alone, so the
ticks send the pieces of the slice that was asked for, in order, and as many
of them as there were ticks. `Serving` says how much of the slice is still to
come.

What may come in between does not include a second read, and the session has
to live: a `Close` ends it and the read with it.
-/

namespace QuMesh.Ider

open QuMesh.Lib

/-- A read came in, or the session failed. -/
def Effect.disturbs : Effect → Bool
  | .closed _ => true
  | .received frame => frame.isRead
  | _ => false

def Undisturbed (es : List Effect) : Prop := ∀ e ∈ es, e.disturbs = false

theorem Undisturbed.healthy {es : List Effect} (h : Undisturbed es) :
    Healthy es := by
  intro e he
  have := h e he
  cases e <;> first | rfl | exact this

theorem Undisturbed.left {es fs : List Effect} (h : Undisturbed (es ++ fs)) :
    Undisturbed es :=
  fun e he => h e (List.mem_append_left _ he)

theorem Undisturbed.right {es fs : List Effect} (h : Undisturbed (es ++ fs)) :
    Undisturbed fs :=
  fun e he => h e (List.mem_append_right _ he)

/-- The frames that went out. -/
def Effect.frame? : Effect → Option Frame
  | .wrote frame result => if 0 < result then some frame else none
  | _ => none

/-- What of a data frame a read is about: its device, whether it is the last,
its data, and whether they go by DMA. -/
def Frame.payload? : Frame → Option (UInt8 × Bool × Bytes × Bool)
  | .sendDataToHost _ device completed data dma =>
      some (device, completed, data, dma)
  | _ => none

namespace Session

/-- What happened from `s` to `d`. -/
def since (s d : Session) : List Effect := d.out.drop s.out.length

/-- The frames the chunk timer sends in a run. -/
def tickFrames (env : Env) : Session → List Event → List Frame
  | _, [] => []
  | s, e :: es =>
      (if e = .chunkTimer then (s.since (s.handle env e)).filterMap Effect.frame?
      else []) ++ tickFrames env (s.handle env e) es

/-- How often it fires. -/
def ticks (es : List Event) : Nat := es.countP (· = .chunkTimer)

/-- Frames and ticks, and nothing else. -/
def Traffic (es : List Event) : Prop :=
  ∀ e ∈ es, e = .chunkTimer ∨ ∃ chunk, e = .rawBytes chunk

theorem since_eq {s d : Session} {new : List Effect}
    (h : d.out = s.out ++ new) : s.since d = new := by
  rw [since, h, List.drop_left]

/-- A read is in the history before whatever is made of it. -/
theorem handleFrame_grows (env : Env) {frame : Inbound} (s : Session)
    (hread : frame.isRead = true) :
    ∃ more, (s.handleFrame env frame).1.out =
      s.out ++ .received frame :: more := by
  cases frame with
  | commandWritten cmd =>
      let t := s.emit (.received (.commandWritten cmd))
      have hone : ∀ {d : Session} {new}, d.out = t.out ++ new →
          d.out = s.out ++ .received (.commandWritten cmd) :: new := by
        intro d new hd
        rw [hd]
        exact List.append_assoc _ _ _
      obtain ⟨isRead10, hscsi⟩ := handleScsi_read env t hread
      change ∃ more, (t.handleScsi env cmd).out = _
      rw [hscsi]
      rcases scsiRead_cases env cmd.cdb (device cmd) cmd.featureRegister
          isRead10 t with h | ⟨reason, heq⟩ | ⟨iso, lba, len, -, -, -, heq⟩
      · obtain ⟨-, new, hout, -⟩ := h.does
        exact ⟨new, hone hout⟩
      · obtain ⟨new, hout, -⟩ := fail_out reason t
        rw [heq]
        exact ⟨new, hone hout⟩
      · rw [heq]
        exact ⟨[], rfl⟩
  | _ => cases hread

/-- The history grew by `new`, and if nothing in that disturbs a read, the
read is as it was. -/
def Spares (s d : Session) : Prop :=
  ∃ new, d.out = s.out ++ new ∧ (Undisturbed new → d.reading = s.reading)

namespace Spares

theorem of_does {got done : List UInt8} {s d : Session} (h : Does got done s d) :
    Spares s d := by
  obtain ⟨-, new, hout, hnew⟩ := h
  exact ⟨new, hout, fun hu => (hnew hu.healthy).2.2⟩

theorem refl (s : Session) : Spares s s := of_does (Does.refl s)

theorem trans {s t d : Session} (h : Spares s t) (g : Spares t d) :
    Spares s d := by
  obtain ⟨new₁, hout₁, h₁⟩ := h
  obtain ⟨new₂, hout₂, h₂⟩ := g
  refine ⟨new₁ ++ new₂, by rw [hout₂, hout₁, List.append_assoc], fun hu => ?_⟩
  exact (h₂ hu.right).trans (h₁ hu.left)

theorem drainStep (env : Env) (s : Session) :
    Spares s (s.drainStep env).1 := by
  rw [Session.drainStep]
  split
  · exact refl s
  next frame n hnext =>
    let t : Session := { s with inbox := s.inbox.drop n }
    have hsame : Spares s t := of_does (Does.nothing rfl rfl id)
    by_cases hread : frame.isRead = true
    · -- a second read disturbs, whatever is made of it
      obtain ⟨more, hmore⟩ := handleFrame_grows env t hread
      refine hsame.trans ⟨.received frame :: more, hmore, fun hu => ?_⟩
      have := hu _ List.mem_cons_self
      rw [Effect.disturbs, hread] at this
      cases this
    · refine hsame.trans (of_does (handleFrame_other env t
        (fun cmd hcmd hnil => ?_) (eq_false_of_ne_true hread)))
      rw [hcmd] at hnext
      have hlen := nextFrame_cdb hnext
      rw [hnil] at hlen
      cases hlen

theorem drainLoop (env : Env) (fuel : Nat) (s : Session) :
    Spares s (s.drainLoop env fuel) := by
  rw [drainLoop_rounds]
  exact rounds_relation refl trans (drainStep env) fuel s

theorem onRawBytes (env : Env) (chunk : Bytes) (s : Session) :
    Spares s (s.onRawBytes env chunk) := by
  have hin : Spares s { s with
      bytesReceivedFromAmt := s.bytesReceivedFromAmt + chunk.length
      inbox := s.inbox ++ chunk } :=
    of_does (Does.nothing rfl rfl id)
  exact (hin.trans (drainLoop env _ _)).trans (of_does (Does.emit _ rfl))

end Spares

/-! ## The slice, piece by piece -/

/-- `rest` of the slice is still to come. -/
structure Serving (image : Bytes) (k : Nat) (dev fr : UInt8) (rest : Bytes)
    (s : Session) : Prop where
  file : ∃ pos, s.isoFile = some ⟨image, pos⟩ ∧
    (image.drop pos).take rest.length = rest
  remaining : s.remainingReadBytes = rest.length
  dev : s.chunkDev = dev
  feature : s.chunkFeature = fr
  size : s.chunkSize = k
  inFlight : s.scsiReadInFlight = !rest.isEmpty
  timers : s.chunkTimers = if rest.isEmpty then 0 else 1

theorem Serving.of_reading {image : Bytes} {k : Nat} {dev fr : UInt8}
    {rest : Bytes} {s d : Session} (h : Serving image k dev fr rest s)
    (hread : d.reading = s.reading) : Serving image k dev fr rest d := by
  have hfile : d.isoFile = s.isoFile := congrArg Reading.isoFile hread
  refine ⟨?_, (congrArg Reading.remaining hread).trans h.remaining,
    (congrArg Reading.dev hread).trans h.dev,
    (congrArg Reading.feature hread).trans h.feature,
    (congrArg Reading.size hread).trans h.size,
    (congrArg Reading.inFlight hread).trans h.inFlight,
    (congrArg Reading.timers hread).trans h.timers⟩
  rw [hfile]
  exact h.file

/-- What a numbered frame leaves in the history. -/
theorem writeNumbered_frames (env : Env) (frame : Nat → Frame) (s : Session) :
    ∃ new, (s.writeNumbered env frame).out = s.out ++ new ∧
      (Healthy new →
        new.filterMap Effect.frame? = [frame s.outSequence]) := by
  let t : Session := { s with outSequence := (s.outSequence + 1) % 2 ^ 32 }
  change ∃ new, (t.writeFrame env (frame s.outSequence)).out = t.out ++ new ∧ _
  rw [writeFrame]
  simp only []
  split
  · obtain ⟨new, hout, hnew⟩ := fail_out
      s!"write failed: {env.lastError (s.writes + 1)}"
      (({ t with writes := t.writes + 1 }).emit
        (.wrote (frame s.outSequence)
          (env.writeRaw t.writes (frame s.outSequence).bytes)))
    exact ⟨_ :: new, hout.trans (List.append_assoc _ _ _),
      fun h => absurd (fun e he => h e (List.mem_cons_of_mem _ he)) hnew⟩
  next hgood =>
    refine ⟨[.wrote (frame s.outSequence)
        (env.writeRaw t.writes (frame s.outSequence).bytes),
      .statsChanged (t.bytesSentToAmt + (frame s.outSequence).bytes.length)
        t.bytesReceivedFromAmt], by simp [Session.emit], fun _ => ?_⟩
    have hpos : Effect.frame? (.wrote (frame s.outSequence)
        (env.writeRaw t.writes (frame s.outSequence).bytes)) =
        some (frame s.outSequence) :=
      if_pos (Int.not_le.mp hgood)
    have hstats (a b : Nat) : (Effect.statsChanged a b).frame? = none := rfl
    simp [hpos, hstats]

/-- A slice goes on behind its first piece. -/
theorem slice_drop {image rest : Bytes} {k pos : Nat}
    (h : (image.drop pos).take rest.length = rest) :
    (image.drop (pos + (rest.take k).length)).take (rest.drop k).length =
      rest.drop k := by
  rcases Nat.le_total rest.length k with hle | hle
  · rw [List.drop_eq_nil_of_le hle]
    rfl
  · rw [List.length_take_of_le hle, List.length_drop, ← List.drop_drop,
      ← List.drop_take, h]

/-- What a chunk leaves to come. -/
theorem Serving.rearm {image : Bytes} {k pos : Nat} {dev fr : UInt8}
    {rest : Bytes} {d : Session} (hfile : d.isoFile = some ⟨image, pos⟩)
    (hslice : (image.drop pos).take rest.length = rest)
    (hrem : d.remainingReadBytes = rest.length) (hdev : d.chunkDev = dev)
    (hfr : d.chunkFeature = fr) (hsize : d.chunkSize = k)
    (hfly : d.scsiReadInFlight = true) (htime : d.chunkTimers = 0) :
    Serving image k dev fr rest d.rearm := by
  cases rest with
  | nil =>
      rw [rearm_last hrem]
      exact ⟨⟨pos, hfile, hslice⟩, hrem, hdev, hfr, hsize, rfl, htime⟩
  | cons b rest =>
      have hmore : 0 < d.remainingReadBytes := by
        rw [hrem]
        exact Nat.succ_pos _
      rw [rearm_next hmore]
      exact ⟨⟨pos, hfile, hslice⟩, hrem, hdev, hfr, hsize, hfly,
        congrArg (· + 1) htime⟩

/-- One tick sends the next piece. -/
theorem Serving.tick (env : Env) {image : Bytes} {k : Nat} {dev fr : UInt8}
    {rest : Bytes} {s : Session} (h : Serving image k dev fr rest s)
    (hrest : rest ≠ []) :
    ∃ new, (s.tick env).out = s.out ++ new ∧ (Healthy new →
      (∃ n, new.filterMap Effect.frame? =
        [.sendDataToHost n dev (rest.drop k).isEmpty (rest.take k)
          (Session.feature fr)]) ∧
      Serving image k dev fr (rest.drop k) (s.tick env)) := by
  obtain ⟨⟨pos, hfile, hslice⟩, hrem, hdev, hfr, hsize, hfly, htime⟩ := h
  have hpos : 0 < rest.length := List.length_pos_iff.mpr hrest
  have hbusy : rest.isEmpty = false := by simpa using hrest
  rw [hbusy] at hfly htime
  have hone : s.chunkTimers = 1 := htime
  -- the session with its timer taken off the queue
  let t : Session := { s with chunkTimers := s.chunkTimers - 1 }
  have htick : s.tick env = t.sendNextScsiChunk env := by
    rw [Session.tick, if_neg (by omega)]
  have hfile' : t.isoFile = some ⟨image, pos⟩ := hfile
  have hleft : t.remainingReadBytes ≠ 0 := by
    change s.remainingReadBytes ≠ 0
    omega
  have hwant : t.chunkWant = min rest.length k := by
    rw [chunkWant]
    change min s.remainingReadBytes s.chunkSize = _
    rw [hrem, hsize]
  have hdata : t.chunkData ⟨image, pos⟩ = rest.take k := by
    rw [chunkData, hwant]
    calc (image.drop pos).take (min rest.length k)
        = ((image.drop pos).take rest.length).take k := by
          rw [List.take_take, Nat.min_comm]
      _ = rest.take k := by rw [hslice]
  have hlen : (t.chunkData ⟨image, pos⟩).length = t.chunkWant := by
    rw [hdata, hwant, List.length_take, Nat.min_comm]
  have hleave : t.remainingReadBytes - t.chunkWant = (rest.drop k).length := by
    change s.remainingReadBytes - _ = _
    rw [hwant, hrem, List.length_drop]
    omega
  have hlast : ((rest.drop k).length == 0) = (rest.drop k).isEmpty := by
    cases rest.drop k <;> rfl
  rw [htick, sendNextScsiChunk_full env hfile' hleft hlen, rearm_out, hleave,
    hlast, hdata]
  let u := t.afterChunk ⟨image, pos⟩ (rest.drop k).length
  let d := u.sendData env t.chunkDev (rest.drop k).isEmpty (rest.take k)
    (Session.feature t.chunkFeature)
  obtain ⟨new, hout, hnew⟩ := writeNumbered_frames env
    (fun n => .sendDataToHost n t.chunkDev (rest.drop k).isEmpty (rest.take k)
      (Session.feature t.chunkFeature)) u
  obtain ⟨-, new', hout', hdoes⟩ := Does.sendChunk env t.chunkDev
    (rest.drop k).isEmpty (rest.take k) (Session.feature t.chunkFeature) u
  have hsame : new' = new := List.append_cancel_left (hout'.symm.trans hout)
  refine ⟨new, hout, fun hh => ⟨⟨u.outSequence, ?_⟩, ?_⟩⟩
  · rw [hnew hh, hdev, hfr]
  · have hread : d.reading = u.reading := (hdoes (hsame ▸ hh)).2.2
    refine Serving.rearm ((congrArg Reading.isoFile hread).trans rfl) ?_
      (congrArg Reading.remaining hread)
      ((congrArg Reading.dev hread).trans hdev)
      ((congrArg Reading.feature hread).trans hfr)
      ((congrArg Reading.size hread).trans hsize)
      ((congrArg Reading.inFlight hread).trans hfly)
      ((congrArg Reading.timers hread).trans ?_)
    · rw [hdata]
      exact slice_drop hslice
    · change s.chunkTimers - 1 = 0
      omega

/-! ## The whole read -/

/-- The frame carries these data of a read, and says how long they are: the
second length is that of a transfer that is not by DMA. -/
def Carries (fr : UInt8) (frame : Frame) (chunk : Bytes × Bool) : Prop :=
  frame.payload? = some (kDeviceCdRom, chunk.2, chunk.1, feature fr) ∧
    read16Le frame.bytes 9 = chunk.1.length ∧
    read16Le frame.bytes 16 = (if feature fr then 0 else chunk.1.length) ∧
    frame.bytes.drop 34 = chunk.1

theorem Carries.sendDataToHost {fr : UInt8} (n : Nat) {data : Bytes}
    (last : Bool) (h : data.length < 2 ^ 16) :
    Carries fr (.sendDataToHost n kDeviceCdRom last data (feature fr))
      (data, last) :=
  ⟨rfl, buildSendDataToHost_layout n kDeviceCdRom last data (feature fr) h⟩

theorem Traffic.head {e : Event} {es : List Event} (h : Traffic (e :: es)) :
    e = .chunkTimer ∨ ∃ chunk, e = .rawBytes chunk :=
  h e List.mem_cons_self

theorem Traffic.tail {e : Event} {es : List Event} (h : Traffic (e :: es)) :
    Traffic es :=
  fun e' he' => h e' (List.mem_cons_of_mem e he')

theorem tick_done (env : Env) {s : Session} (h : s.chunkTimers = 0) :
    s.tick env = s :=
  if_pos h

theorem ticks_tick (es : List Event) :
    ticks (.chunkTimer :: es) = ticks es + 1 := by
  simp [ticks]

theorem ticks_rawBytes (chunk : Bytes) (es : List Event) :
    ticks (.rawBytes chunk :: es) = ticks es := by
  simp [ticks]

/-- However the ticks fall among the frames, they send the pieces in order,
one each, until there are none left. -/
theorem Serving.run (env : Env) {image : Bytes} {k : Nat} {fr : UInt8}
    (hk : 0 < k) (hk' : k < 2 ^ 16) {rest : Bytes} {s : Session}
    (h : Serving image k kDeviceCdRom fr rest s) {es : List Event}
    (hes : Traffic es) {new : List Effect}
    (hout : (run (Session.handle env) s es).out = s.out ++ new)
    (hu : Undisturbed new) :
    List.Forall₂ (Carries fr) (tickFrames env s es)
        ((lastMarked (pieces k rest)).take (ticks es)) ∧
      (Lib.run (Session.handle env) s es).scsiReadInFlight =
        decide (ticks es < (pieces k rest).length) := by
  have split : ∀ {s t d : Session} {new new₁ new₂ : List Effect},
      d.out = s.out ++ new → t.out = s.out ++ new₁ → d.out = t.out ++ new₂ →
      new = new₁ ++ new₂ := by
    intro s t d new new₁ new₂ h h₁ h₂
    rw [h₂, h₁, List.append_assoc] at h
    exact (List.append_cancel_left h).symm
  induction es generalizing s rest new with
  | nil =>
      refine ⟨.nil, ?_⟩
      change s.scsiReadInFlight = decide (0 < (pieces k rest).length)
      rw [h.inFlight]
      cases rest with
      | nil => rw [pieces_nil]; rfl
      | cons b rest => rw [pieces_cons hk (List.cons_ne_nil b rest)]; rfl
  | cons e es ih =>
      obtain ⟨new₂, hout₂⟩ := Grows.run env (s.handle env e) es
      rcases hes.head with rfl | ⟨chunk, rfl⟩
      · rw [ticks_tick]
        by_cases hrest : rest = []
        · -- the read is over and the timer is not armed
          have hsame : s.handle env .chunkTimer = s :=
            tick_done env (by rw [h.timers, hrest]; rfl)
          rw [run_cons, hsame] at hout ⊢
          obtain ⟨hframes, hfly⟩ := ih h hes.tail hout hu
          have hnone : s.since s = [] := by rw [since, List.drop_length]
          rw [tickFrames, hsame, hnone]
          rw [hrest, pieces_nil] at hframes hfly ⊢
          exact ⟨by simpa [lastMarked] using hframes, by simpa using hfly⟩
        · obtain ⟨new₁, hout₁, hsent⟩ := h.tick env hrest
          have hnew : new = new₁ ++ new₂ := split hout hout₁ hout₂
          rw [hnew] at hu
          obtain ⟨⟨n, hframe⟩, hnext⟩ := hsent hu.left.healthy
          obtain ⟨hframes, hfly⟩ := ih hnext hes.tail hout₂ hu.right
          have hlen : (rest.take k).length < 2 ^ 16 := by
            rw [List.length_take]
            omega
          have hsince : (s.since (s.handle env .chunkTimer)).filterMap
              Effect.frame? = [.sendDataToHost n kDeviceCdRom
                (rest.drop k).isEmpty (rest.take k) (Session.feature fr)] := by
            have htick : s.handle env .chunkTimer = s.tick env := rfl
            rw [htick, since_eq hout₁]
            exact hframe
          have hlast : (pieces k (rest.drop k)).isEmpty =
              (rest.drop k).isEmpty := by
            rw [Bool.eq_iff_iff, List.isEmpty_iff, List.isEmpty_iff,
              pieces_eq_nil hk]
          rw [tickFrames, if_pos rfl, hsince, pieces_cons hk hrest, lastMarked,
            List.take_succ_cons, hlast]
          refine ⟨.cons (Carries.sendDataToHost n _ hlen) hframes, ?_⟩
          exact hfly.trans (decide_eq_decide.mpr Nat.add_lt_add_iff_right.symm)
      · obtain ⟨new₁, hout₁, hspares⟩ := Spares.onRawBytes env chunk s
        rw [split hout hout₁ hout₂] at hu
        have hother : ¬Event.rawBytes chunk = .chunkTimer := by simp
        rw [ticks_rawBytes, tickFrames, if_neg hother, run_cons]
        exact ih (h.of_reading (hspares hu.left)) hes.tail hout₂ hu.right

/-- `bound` at a time, the ticks send the slice, the last piece of it marked;
and there is a read as long as there is a piece to send. -/
def Serves (env : Env) (fr : UInt8) (bound : Nat) (slice : Bytes)
    (s : Session) : Prop :=
  ∃ chunks : List (Bytes × Bool),
    (chunks.map Prod.fst).flatten = slice ∧
    (∀ c ∈ chunks, 0 < c.1.length ∧ c.1.length ≤ bound) ∧
    chunks.map Prod.snd = List.replicate (chunks.length - 1) false ++ [true] ∧
    ∀ es, Traffic es → Undisturbed (s.since (run (Session.handle env) s es)) →
      List.Forall₂ (Carries fr) (tickFrames env s es)
        (chunks.take (ticks es)) ∧
      (run (Session.handle env) s es).scsiReadInFlight =
        decide (ticks es < chunks.length)

theorem Serving.serves (env : Env) (image : Bytes) {k : Nat} {fr : UInt8}
    (hk : 0 < k) (hk' : k < 2 ^ 16) {rest : Bytes} (hrest : rest ≠ [])
    {s : Session} (h : Serving image k kDeviceCdRom fr rest s) :
    Serves env fr k rest s := by
  refine ⟨lastMarked (pieces k rest), ?_, fun c hc => ?_, ?_,
    fun es hes hu => ?_⟩
  · rw [lastMarked_fst, pieces_flatten hk]
  · refine pieces_length hk rest c.1 ?_
    rw [← lastMarked_fst (pieces k rest)]
    exact List.mem_map_of_mem hc
  · rw [lastMarked_length]
    exact lastMarked_snd fun hnil => hrest ((pieces_eq_nil hk).mp hnil)
  · obtain ⟨new, hout⟩ := Grows.run env s es
    rw [since_eq hout] at hu
    rw [lastMarked_length]
    exact h.run env hk hk' hes hout hu

/-! ## The round that takes a read -/

/-- The states of a session: those its events leave, and those between two
rounds of `drainInbox`. -/
inductive Reached (env : Env) : Session → Prop
  | init (path : String) (option : StartOption) :
      Reached env { isoPath := path, startOption := option }
  | event {s : Session} (h : Reached env s) (e : Event) :
      Reached env (s.handle env e)
  | taken {s : Session} (h : Reached env s) (chunk : Bytes) :
      Reached env (s.taken chunk)
  | round {s : Session} (h : Reached env s) : Reached env (s.drainStep env).1

theorem Reached.sound {env : Env} {s : Session} (h : Reached env s) :
    s.Sound := by
  induction h with
  | init path option =>
      exact fun _ => ⟨.refl _, fun hf => Bool.noConfusion hf, fun _ => rfl,
        fun _ hiso => absurd hiso (by simp), Nat.zero_le _⟩
  | event h e ih => exact ih.handle env e
  | taken h chunk ih => exact ih.does (Does.nothing rfl rfl id) (.refl _)
  | round h ih => exact ih.drainStep env

/-- The first block and the number of blocks of a read. -/
def readOf (cmd : ScsiCommand) : Option (Nat × Nat) :=
  match cmd.cdb with
  | [] => none
  | opcode :: _ =>
      if opcode = kRead6 then readExtent cmd.cdb false
      else if opcode = kRead10 then readExtent cmd.cdb true
      else none

/-- What an idle drive makes of a read. -/
theorem handleScsi_readOf (env : Env) {cmd : ScsiCommand} {lba len : Nat}
    (hread : readOf cmd = some (lba, len)) (hdev : device cmd = kDeviceCdRom)
    {s : Session} {iso : IsoFile} (hiso : s.isoFile = some iso)
    (hidle : s.scsiReadInFlight = false) :
    s.handleScsi env cmd =
      if lba + len > s.isoSize / 2 ^ 11 then
        s.sendError env kDeviceCdRom kSenseIllegalRequest 0x21 0x00
      else if len = 0 then s.sendOk env kDeviceCdRom
      else s.beginRead iso lba len kDeviceCdRom cmd.featureRegister := by
  obtain ⟨isRead10, hext, hscsi⟩ : ∃ isRead10,
      readExtent cmd.cdb isRead10 = some (lba, len) ∧
        s.handleScsi env cmd = s.scsiRead env cmd.cdb (device cmd)
          cmd.featureRegister isRead10 := by
    rw [handleScsi]
    cases hc : cmd.cdb with
    | nil =>
        rw [readOf, hc] at hread
        cases hread
    | cons opcode rest =>
        rw [readOf, hc] at hread
        rcases ite_some hread with ⟨rfl, hext⟩ | ⟨-, hread⟩
        · exact ⟨false, hext, rfl⟩
        rcases ite_some hread with ⟨rfl, hext⟩ | ⟨-, hread⟩
        · exact ⟨true, hext, rfl⟩
        · cases hread
  rw [hscsi, scsiRead, hiso, hdev]
  simp only []
  rw [if_neg (not_not_intro rfl), hext]
  simp only []
  rw [hidle]
  rfl

/-- A read that is taken on is served. -/
theorem beginRead_serves (env : Env) {s : Session} {iso : IsoFile}
    (htime : s.chunkTimers = 0)
    (hneg : s.Negotiated) {lba len : Nat}
    (hfit : lba + len ≤ iso.contents.length / 2 ^ 11) (hlen : 0 < len)
    {fr : UInt8} :
    Serves env fr
      (min 8192 (if 0 < s.info.readBuffer then s.info.readBuffer else 8192))
      ((iso.contents.drop (lba * 2 ^ 11)).take (len * 2 ^ 11))
      (s.beginRead iso lba len kDeviceCdRom fr) := by
  have hbound : min 8192
      (if 0 < s.info.readBuffer then s.info.readBuffer else 8192) =
      if s.info.readBuffer > 0 then s.info.readBuffer else kMaxReadCap := by
    rw [Negotiated, kMaxReadCap] at hneg
    rw [kMaxReadCap]
    split <;> omega
  have hslice : ((iso.contents.drop (lba * 2 ^ 11)).take
      (len * 2 ^ 11)).length = len * 2 ^ 11 := by
    rw [List.length_take, List.length_drop]
    omega
  have hrest : (iso.contents.drop (lba * 2 ^ 11)).take (len * 2 ^ 11) ≠ [] := by
    intro hnil
    rw [hnil] at hslice
    change 0 = len * 2 ^ 11 at hslice
    omega
  have hbusy : ((iso.contents.drop (lba * 2 ^ 11)).take
      (len * 2 ^ 11)).isEmpty = false :=
    eq_false_of_ne_true fun h => hrest (List.isEmpty_iff.mp h)
  refine Serving.serves env iso.contents ?_ ?_ hrest ?_
  · split <;> omega
  · omega
  · refine ⟨⟨lba * 2 ^ 11, rfl, ?_⟩, hslice.symm, rfl, rfl, hbound.symm, ?_, ?_⟩
    · rw [hslice]
    · rw [hbusy]
      rfl
    · rw [hbusy]
      exact congrArg (· + 1) htime

/-- What READ CAPACITY makes of an image, as long as its last block has a
number of 32 bits. -/
theorem readCapacity_blocks (env : Env) {s : Session} {iso : IsoFile}
    (hiso : s.isoFile = some iso) (hsize : s.isoSize = iso.contents.length)
    (fr : UInt8) :
    if iso.contents.length / 2 ^ 11 = 0 then
      s.scsiReadCapacity env kDeviceCdRom fr =
        s.sendError env kDeviceCdRom kSenseNotReady 0x3A 0x00
    else iso.contents.length / 2 ^ 11 ≤ 2 ^ 32 →
      ∃ reply, read32Be reply 0 + 1 = iso.contents.length / 2 ^ 11 ∧
        s.scsiReadCapacity env kDeviceCdRom fr =
          s.sendData env kDeviceCdRom true reply (feature fr) := by
  have hopen : s.isoFile.isNone = false := by rw [hiso]; rfl
  rw [scsiReadCapacity, hopen, hsize]
  split
  next hzero =>
    have hsmall : iso.contents.length < 2048 := by omega
    rw [if_pos (.inr (.inr hsmall))]
  next hsome =>
    intro hle
    refine ⟨_, ?_, if_neg ?_⟩
    · rw [read32Be_pack]
      omega
    · rintro (h | h | h)
      · exact h rfl
      · cases h
      · omega

end Session

open Session

/-- Whatever comes in between, a read is answered with the blocks it asked
for, and only one that does not fit with an error. -/
theorem ider_serves_image (env : Env) {s : Session} (hs : Reached env s)
    (hopen : Healthy s.out) {iso : IsoFile} (hiso : s.isoFile = some iso)
    (hidle : s.scsiReadInFlight = false) {cmd : ScsiCommand} {n : Nat}
    (hnext : nextFrame s.inbox = some (.commandWritten cmd, n))
    (hdev : device cmd = kDeviceCdRom) {lba len : Nat}
    (hread : readOf cmd = some (lba, len)) :
    let blocks := iso.contents.length / 2 ^ 11
    let t := ({ s with inbox := s.inbox.drop n }).emit
      (.received (.commandWritten cmd))
    let d := (s.drainStep env).1
    s.drainInbox env = d.drainInbox env ∧
    (blocks < lba + len →
      d = t.sendError env kDeviceCdRom kSenseIllegalRequest 0x21 0x00) ∧
    (lba + len ≤ blocks → len = 0 → d = t.sendOk env kDeviceCdRom) ∧
    (lba + len ≤ blocks → 0 < len →
      Serves env cmd.featureRegister
        (min 8192 (if 0 < s.info.readBuffer then s.info.readBuffer else 8192))
        ((iso.contents.drop (lba * 2 ^ 11)).take (len * 2 ^ 11)) d) ∧
    ∀ fr, if blocks = 0 then
        s.scsiReadCapacity env kDeviceCdRom fr =
          s.sendError env kDeviceCdRom kSenseNotReady 0x3A 0x00
      else blocks ≤ 2 ^ 32 → ∃ reply, read32Be reply 0 + 1 = blocks ∧
        s.scsiReadCapacity env kDeviceCdRom fr =
          s.sendData env kDeviceCdRom true reply (feature fr) := by
  intro blocks t d
  have hb := hs.sound hopen
  have hsize : s.isoSize = iso.contents.length := hb.image iso hiso
  have hstep : s.drainStep env = (t.handleScsi env cmd, true) := by
    rw [drainStep, hnext]
    rfl
  have hd : d = t.handleScsi env cmd := congrArg Prod.fst hstep
  have hiso' : t.isoFile = some iso := hiso
  have hhandle := handleScsi_readOf env hread hdev hiso' hidle
  have hblocks : t.isoSize / 2 ^ 11 = blocks := congrArg (· / 2 ^ 11) hsize
  rw [hblocks] at hhandle
  refine ⟨?_, fun hno => ?_, fun hfit hlen => ?_, fun hfit hlen => ?_,
    fun fr => ?_⟩
  · have hround : s.drainStep env = (d, true) := by rw [hd, hstep]
    exact drainInbox_round hround
  · rw [hd, hhandle, if_pos hno]
  · rw [hd, hhandle, if_neg (by omega), if_pos hlen]
  · have hbegin : d =
        t.beginRead iso lba len kDeviceCdRom cmd.featureRegister := by
      rw [hd, hhandle, if_neg (by omega), if_neg (by omega)]
    rw [hbegin]
    exact beginRead_serves env (s := t) (hb.idle hidle) hb.negotiated hfit hlen
  · exact readCapacity_blocks env hiso hsize fr

/-- An `OpenSessionReply` with a read buffer of 2048. -/
def smallBuffers : Bytes :=
  [0x41, 0, 0, 0, 0, 0, 0, 0, 0, 0, 0, 0, 0, 0, 0, 0, 0x00, 0x08, 0x00, 0x08] ++
    List.replicate 10 0

/-- The session of a run, from its start. -/
def Env.after (env : Env) (es : List Event) : Session :=
  run (Session.handle env) { isoPath := "cd.iso" } (.start true :: es)

/-- A session that was started and has sent its `OpenSession`. -/
theorem Env.after_start {env : Env} {contents : Bytes}
    (hfile : env.file "cd.iso" = some contents)
    (hwrite : 0 < env.writeRaw 0 (Frame.openSession 0 kRxTimeoutMs kTxTimeoutMs
      kHeartbeatMs kProtocolVersion).bytes) :
    (env.after []).isoFile = some ⟨contents, 0⟩ ∧
      (env.after []).isoSize = contents.length ∧
      (env.after []).scsiReadInFlight = false ∧
      (env.after []).inbox = [] ∧ Healthy (env.after []).out := by
  have hpath : ("cd.iso" : String).isEmpty = false := by decide
  simp [Env.after, run, Session.handle, Session.start, Session.writeNumbered,
    Session.writeFrame, Session.emit, Healthy, Effect.isClosed, hpath, hfile,
    Int.not_le.mpr hwrite]

/-- The image of `Env.plain`. -/
def twoBlocks : Bytes :=
  List.replicate (2 ^ 11) 0x41 ++ List.replicate (2 ^ 11) 0x42

theorem ider_serves_image_both :
    let s := (Env.plain.after []).taken (cdCommand 0 readBoth)
    Serves .plain 0
      (min 8192 (if 0 < s.info.readBuffer then s.info.readBuffer else 8192))
      ((twoBlocks.drop (0 * 2 ^ 11)).take (2 * 2 ^ 11))
      (s.drainStep .plain).1 := by
  intro s
  have hfile : Env.plain.file "cd.iso" = some twoBlocks := by
    simp only [Env.plain, twoBlocks]
  obtain ⟨hiso, -, hidle, hin, hopen⟩ := Env.after_start hfile
    (by decide)
  have hnext : nextFrame s.inbox =
      some (.commandWritten ⟨0x10, 0, readBoth⟩, 28) := by
    change nextFrame ((Env.plain.after []).inbox ++ cdCommand 0 readBoth) = _
    rw [hin]
    decide
  have hreached : Reached .plain s :=
    ((Reached.init "cd.iso" .graceful).event (.start true)).taken _
  obtain ⟨-, -, -, hserves, -⟩ :=
    ider_serves_image .plain hreached hopen hiso hidle hnext (by decide)
      (show readOf ⟨0x10, 0, readBoth⟩ = some (0, 2) by decide)
  refine hserves ?_ (by decide)
  simp only [twoBlocks, List.length_append, List.length_replicate]
  decide

/-- An image of 2 ^ 32 blocks and one. -/
def Env.huge : Env :=
  { Env.plain with
    writeRaw := fun _ _ => 1
    file := fun _ => some (List.replicate (2 ^ 43 + 2 ^ 11) 0) }

def readSecond : Bytes := [0x28, 0, 0, 0, 0, 1, 0, 0, 1, 0, 0, 0]

/-- The second length of a DMA frame is zero, a `Close` cuts a read short, and
the last of more than 2 ^ 32 blocks has no number in READ CAPACITY. -/
theorem ider_serves_image_not :
    (tickFrames .plain (Env.plain.after [.rawBytes (cdCommand 1 readBoth)])
        [.chunkTimer]).map
      (fun f => (f.bytes.drop 34 == twoBlocks, read16Le f.bytes 16)) =
      [(true, 0)] ∧
    (tickFrames .plain
        (Env.plain.after [.rawBytes (smallBuffers ++ cdCommand 0 readBoth)])
        [.chunkTimer, .rawBytes [0x43, 0, 0, 0, 0, 0, 0, 0],
          .chunkTimer]).flatMap
      (·.bytes.drop 34) = List.replicate (2 ^ 11) 0x41 ∧
    (Env.huge.after []).scsiReadCapacity .huge kDeviceCdRom 0 =
      (Env.huge.after []).sendData .huge kDeviceCdRom true
        [0, 0, 0, 0, 0, 0, 8, 0] false ∧
    ((Env.huge.after []).scsiRead .huge readSecond kDeviceCdRom 0
      true).remainingReadBytes = 2 ^ 11 := by
  have hfile : Env.huge.file "cd.iso" =
      some (List.replicate (2 ^ 43 + 2 ^ 11) 0) := by
    simp only [Env.huge]
  obtain ⟨hiso, hsize, hidle, -, -⟩ := Env.after_start hfile (by decide)
  rw [List.length_replicate] at hsize
  refine ⟨by decide +kernel, by decide +kernel, ?_, ?_⟩
  · rw [scsiReadCapacity, hiso, hsize]
    rfl
  · rw [scsiRead, hiso, hsize, hidle]
    rfl

end QuMesh.Ider
