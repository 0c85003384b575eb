import QuMesh.Rmcp.Scanner
import Mathlib.Data.List.Nodup
import Mathlib.Data.List.Count

/-!
# Whose rows a scan shows

A look-up knows neither its scan nor whether its sender was asked. One that is
answered when the next scan has begun puts a row of the old scan among the new
ones (`scan_rows_stale`); so does a sender that nobody pinged, and a sender
that replies twice gets two rows.

`scan_rows` is the other way round: where no look-up is outstanding when a scan
begins, and the pongs a scan takes come from its targets, each of them once,
every row is a reply of this scan to one of its pings, and no sender has two.
The rest asks for nothing: the pings of a scan are its targets in order, up to
where it is, so a scan whose window elapses has pinged each of them once; and
every scan that started is the one running or has finished, once.
-/

namespace QuMesh.Rmcp

open QuMesh.Lib

/-- Who was pinged in a scan. -/
def pings (scan : Nat) (out : List Effect) : List HostAddress :=
  out.filterMap fun
    | .pinged k a _ => if k = scan then some a else none
    | _ => none

namespace Scan

/-- What the claim says of a state. -/
structure Kept (s : Scan) : Prop where
  belong : ∀ r ∈ s.results, r.scan = s.scan ∧ r.source ∈ s.targets
  once : (s.results.map Row.source).Nodup
  /-- Each scan that started has finished once, but for the one running. -/
  finished : ∀ k, s.out.count (.finished k) +
      (if s.scanning = true ∧ k = s.scan then 1 else 0) =
    s.out.count (.started k)
  started : ∀ k, s.out.count (.started k) ≤ 1
  /-- The one running finishes when its timers have run. -/
  finishes : s.scanning = true → Effect.finished s.scan ∈
    (run step s (List.replicate s.targets.length .sendTimeout ++
      [.waitTimeout])).out

/-- A scan whose quiet window elapses has pinged each target once. -/
def PingsOnce (s : Scan) : Event → Prop
  | .waitTimeout => s.waitTimer = true →
      ∀ a, (pings s.scan s.out).count a = if a ∈ s.targets then 1 else 0
  | _ => True

/-- The condition: a scan begins when no look-up is outstanding, and a pong it
takes comes from a target that has not replied before. -/
def Clean (s : Scan) : Event → Prop
  | .start (.ok targets) _ _ =>
      s.scanning = false → targets.addresses ≠ [] → s.lookups = []
  | .datagram source bytes => s.pongOf bytes ≠ none →
      source ∈ s.targets ∧ source ∉ s.results.map Row.source ∧
        source ∉ s.lookups.map Lookup.source
  | _ => True

instance (s : Scan) : ∀ e, Decidable (s.Clean e)
  | .start (.ok _) _ _ | .datagram _ _ => inferInstanceAs (Decidable (_ → _))
  | .start (.error _) _ _ | .stop | .sendTimeout | .waitTimeout | .lookedUp _ _
  | .setSelected _ _ => .isTrue trivial

/-! ## Where the rows come from -/

structure Rows (s : Scan) : Prop where
  belong : ∀ r ∈ s.results, r.scan = s.scan ∧ r.source ∈ s.targets
  awaited : ∀ l ∈ s.lookups, l.scan = s.scan ∧ l.source ∈ s.targets
  once : (s.results.map Row.source ++ s.lookups.map Lookup.source).Nodup

variable {s s' : Scan}

theorem Rows.of_eq (h : s.Rows) (hresults : s'.results = s.results)
    (hlookups : s'.lookups = s.lookups) (hscan : s'.scan = s.scan)
    (htargets : s'.targets = s.targets) : s'.Rows := by
  obtain ⟨hbelong, hawaited, honce⟩ := h
  refine ⟨?_, ?_, ?_⟩ <;>
    simp only [hresults, hlookups, hscan, htargets] <;> assumption

theorem stopScanner_frame (s : Scan) :
    s.stopScanner.results = s.results ∧ s.stopScanner.lookups = s.lookups ∧
      s.stopScanner.scan = s.scan ∧ s.stopScanner.targets = s.targets := by
  unfold stopScanner
  simp only []
  split <;> exact ⟨rfl, rfl, rfl, rfl⟩

theorem onSendBurst_frame (s : Scan) :
    s.onSendBurst.results = s.results ∧ s.onSendBurst.lookups = s.lookups ∧
      s.onSendBurst.scan = s.scan ∧ s.onSendBurst.targets = s.targets := by
  unfold onSendBurst
  simp only []
  split
  · exact ⟨rfl, rfl, rfl, rfl⟩
  split <;> exact ⟨rfl, rfl, rfl, rfl⟩

theorem startScanner_frame (targets : List HostAddress)
    (bindError : Option String) (tag : UInt8) (s : Scan) :
    (s.startScanner targets bindError tag).2.results = s.results ∧
      (s.startScanner targets bindError tag).2.lookups = s.lookups := by
  obtain ⟨hresults, hlookups, -, -⟩ := stopScanner_frame s
  unfold startScanner
  simp only []
  split
  · exact ⟨hresults, hlookups⟩
  split
  · exact ⟨hresults, hlookups⟩
  · obtain ⟨hresults', hlookups', -, -⟩ := onSendBurst_frame
      (({ s.stopScanner with
        scan := s.stopScanner.scan + 1, targets, socket := true
        pending := targets, nextIndex := 0, tag, lastError := "" } : Scan).emit
          (.started (s.stopScanner.scan + 1)))
    split
    · exact ⟨hresults'.trans hresults, hlookups'.trans hlookups⟩
    · exact ⟨hresults'.trans hresults, hlookups'.trans hlookups⟩

/-- Where nothing is outstanding, what a scan begins with is no row at all. -/
theorem start_rows (h : s.Rows) {parsed : Except String Targets}
    {bindError : Option String} {tag : UInt8}
    (hok : s.Clean (.start parsed bindError tag)) :
    (s.start parsed bindError tag).Rows := by
  unfold start
  split
  · exact h
  next hidle =>
  split
  · exact h.of_eq rfl rfl rfl rfl
  next targets =>
  split
  · exact h.of_eq rfl rfl rfl rfl
  next hsome =>
  have hnone : s.lookups = [] :=
    hok (eq_false_of_ne_true hidle) (by simpa using hsome)
  obtain ⟨hresults, hlookups⟩ := startScanner_frame targets.addresses bindError
    tag { s with results := [] }
  have hempty {t : Scan} (hr : t.results = []) (hl : t.lookups = []) :
      t.Rows := by
    refine ⟨?_, ?_, ?_⟩
    · rw [hr]
      exact List.forall_mem_nil _
    · rw [hl]
      exact List.forall_mem_nil _
    · rw [hr, hl]
      exact List.nodup_nil
  simp only []
  split
  · next t heq =>
    rw [heq] at hresults hlookups
    exact hempty hresults (hlookups.trans hnone)
  · next t heq =>
    rw [heq] at hresults hlookups
    exact hempty hresults (hlookups.trans hnone)

theorem onReadyRead_rows (h : s.Rows) {source : HostAddress} {bytes : Bytes}
    (hok : s.Clean (.datagram source bytes)) :
    (s.onReadyRead source bytes).Rows := by
  unfold onReadyRead
  split
  · exact h
  next pong hpong =>
  obtain ⟨htarget, hrows, hlookups⟩ := hok (by rw [hpong]; simp)
  refine ⟨h.belong, ?_, ?_⟩
  · intro l hl
    rcases List.mem_append.mp hl with hl | hl
    · exact h.awaited l hl
    · rw [List.mem_singleton.mp hl]
      exact ⟨rfl, htarget⟩
  · rw [List.map_append, ← List.append_assoc]
    show ((_ ++ _) ++ [source]).Nodup
    rw [← List.concat_eq_append]
    refine h.once.concat fun hmem => ?_
    rcases List.mem_append.mp hmem with hmem | hmem
    · exact hrows hmem
    · exact hlookups hmem

/-- The look-up that is answered becomes the row. -/
theorem onLookup_rows (h : s.Rows) (id : Nat) (info : HostInfo) :
    (s.onLookup id info).Rows := by
  unfold onLookup
  split
  · exact h
  next l hl =>
  have hmem := List.mem_of_find?_eq_some hl
  have hid : l.id = id := by simpa using List.find?_some hl
  obtain ⟨hresults, hlookups, hdisjoint⟩ := List.nodup_append.mp h.once
  refine ⟨?_, fun l' hl' => h.awaited l' (List.mem_filter.mp hl').1, ?_⟩
  · intro r hr
    rcases List.mem_append.mp hr with hr | hr
    · exact h.belong r hr
    · rw [List.mem_singleton.mp hr]
      exact h.awaited l hmem
  · show ((s.results ++ [_]).map Row.source ++
      (s.lookups.filter fun l => l.id ≠ id).map Lookup.source).Nodup
    rw [List.map_append]
    have hrest : ((s.lookups.filter fun l => l.id ≠ id).map
        Lookup.source).Sublist (s.lookups.map Lookup.source) :=
      List.filter_sublist.map _
    refine List.nodup_append.mpr ⟨?_, hrest.nodup hlookups, ?_⟩
    · show (_ ++ [l.source]).Nodup
      rw [← List.concat_eq_append]
      refine hresults.concat fun hin => ?_
      exact hdisjoint l.source hin l.source (List.mem_map_of_mem hmem) rfl
    · intro a ha b hb
      rcases List.mem_append.mp ha with ha | ha
      · exact hdisjoint a ha b (hrest.subset hb)
      · obtain ⟨l', hl', rfl⟩ := List.mem_map.mp hb
        rw [List.mem_filter] at hl'
        rw [List.mem_singleton.mp ha]
        intro heq
        have hsame := List.inj_on_of_nodup_map hlookups hmem hl'.1 heq
        rw [← hsame, hid] at hl'
        simp at hl'

theorem map_modify {α β : Type} {f : α → α} {g : α → β}
    (h : ∀ a, g (f a) = g a) (l : List α) (i : Nat) :
    (l.modify i f).map g = l.map g := by
  induction l generalizing i with
  | nil => cases i <;> rfl
  | cons a l ih =>
      cases i with
      | zero => simp [List.modify, h]
      | succ i => simp [ih]

theorem setSelected_rows (h : s.Rows) (row : Nat) (selected : Bool) :
    (s.setSelected row selected).Rows := by
  have hsame (f : Row → HostAddress × Nat)
      (hf : ∀ r : Row, f { r with selected } = f r) :
      (s.setSelected row selected).results.map f = s.results.map f :=
    map_modify hf s.results row
  refine ⟨fun r hr => ?_, h.awaited, ?_⟩
  · have hmem : (r.source, r.scan) ∈
        s.results.map fun r : Row => (r.source, r.scan) := by
      rw [← hsame (fun r => (r.source, r.scan)) fun _ => rfl]
      exact List.mem_map_of_mem hr
    obtain ⟨r', hr', heq⟩ := List.mem_map.mp hmem
    have := h.belong r' hr'
    rw [(Prod.mk.inj heq).1, (Prod.mk.inj heq).2] at this
    exact this
  · have hsources : (s.setSelected row selected).results.map Row.source =
        s.results.map Row.source := by
      exact map_modify (f := fun r : Row => { r with selected })
        (fun _ => rfl) s.results row
    rw [hsources]
    exact h.once

theorem step_rows (h : s.Rows) {e : Event} (hok : s.Clean e) :
    (s.step e).Rows := by
  have hstopped : s.stopScanner.Rows := by
    obtain ⟨h₁, h₂, h₃, h₄⟩ := stopScanner_frame s
    exact h.of_eq h₁ h₂ h₃ h₄
  cases e with
  | start parsed bindError tag => exact start_rows h hok
  | stop =>
      simp only [step, stop]
      split
      · exact h
      · exact hstopped.of_eq rfl rfl rfl rfl
  | sendTimeout =>
      simp only [step]
      split
      · obtain ⟨h₁, h₂, h₃, h₄⟩ := onSendBurst_frame s
        exact h.of_eq h₁ h₂ h₃ h₄
      · exact h
  | waitTimeout =>
      simp only [step]
      split
      · exact h.of_eq rfl rfl rfl rfl
      · exact h
  | datagram source bytes => exact onReadyRead_rows h hok
  | lookedUp id info => exact onLookup_rows h id info
  | setSelected row selected => exact setSelected_rows h row selected

/-! ## What a scan sends, and how it ends -/

/-- The signals, of a scan that is running or of none. -/
structure Counts (s : Scan) (running : Bool) : Prop where
  finished : ∀ k, s.out.count (.finished k) +
    (if running = true ∧ k = s.scan then 1 else 0) = s.out.count (.started k)
  started : ∀ k, s.out.count (.started k) ≤ 1
  fresh : ∀ k, s.scan < k →
    s.out.count (.started k) = 0 ∧ pings k s.out = []

/-- A scan between its first ping and its end. -/
structure Running (s : Scan) : Prop where
  socket : s.socket = true
  pending : s.pending = s.targets
  some : s.targets ≠ []
  reached : s.nextIndex ≤ s.targets.length
  pinged : pings s.scan s.out = s.targets.take s.nextIndex

/-- One of the two timers runs: the one behind the last ping, or the other. -/
def Ticking (s : Scan) : Prop :=
  (s.waitTimer = true ∧ s.sendTimer = false ∧
      s.nextIndex = s.targets.length) ∨
    (s.waitTimer = false ∧ s.sendTimer = true ∧
      s.nextIndex < s.targets.length)

structure Idle (s : Scan) : Prop where
  socket : s.socket = false
  sendTimer : s.sendTimer = false
  waitTimer : s.waitTimer = false
  pending : s.pending = []

structure Phase (s : Scan) : Prop where
  distinct : s.targets.Nodup
  counts : s.Counts s.scanning
  running : s.scanning = true → s.Running ∧ s.Ticking
  idle : s.scanning = false → s.Idle

/-- What the phase depends on. -/
theorem Phase.of_eq (h : s.Phase) (hsocket : s'.socket = s.socket)
    (hsend : s'.sendTimer = s.sendTimer) (hwait : s'.waitTimer = s.waitTimer)
    (hpending : s'.pending = s.pending) (hnext : s'.nextIndex = s.nextIndex)
    (hscanning : s'.scanning = s.scanning) (hscan : s'.scan = s.scan)
    (htargets : s'.targets = s.targets) (hout : s'.out = s.out) :
    s'.Phase := by
  obtain ⟨hdistinct, ⟨h₁, h₂, h₃⟩, hrunning, hidle⟩ := h
  refine ⟨?_, ⟨?_, ?_, ?_⟩, fun hon => ?_, fun hoff => ?_⟩
  · rwa [htargets]
  · rwa [hout, hscan, hscanning]
  · rwa [hout]
  · rwa [hout, hscan]
  · rw [hscanning] at hon
    obtain ⟨⟨g₁, g₂, g₃, g₄, g₅⟩, hticking⟩ := hrunning hon
    refine ⟨⟨?_, ?_, ?_, ?_, ?_⟩, ?_⟩ <;>
      simp only [Ticking, hsocket, hpending, hnext, hscan, htargets, hout, hsend,
        hwait] <;>
      assumption
  · rw [hscanning] at hoff
    obtain ⟨g₁, g₂, g₃, g₄⟩ := hidle hoff
    exact ⟨hsocket.trans g₁, hsend.trans g₂, hwait.trans g₃, hpending.trans g₄⟩

theorem pings_append (k : Nat) (out new : List Effect) :
    pings k (out ++ new) = pings k out ++ pings k new := by
  rw [pings, pings, pings, List.filterMap_append]

theorem pings_burst (k scan : Nat) (burst : List HostAddress) (ping : Bytes) :
    pings k (burst.map fun a => .pinged scan a ping) =
      if scan = k then burst else [] := by
  rw [pings, List.filterMap_map]
  split
  · next heq => simp [heq]
  · next hne => simp [hne]

theorem count_burst {e : Effect} {scan : Nat} {ping : Bytes}
    (h : ∀ a, e ≠ .pinged scan a ping) (burst : List HostAddress) :
    (burst.map fun a => Effect.pinged scan a ping).count e = 0 := by
  rw [List.count_eq_zero]
  intro hmem
  obtain ⟨a, -, heq⟩ := List.mem_map.mp hmem
  exact h a heq.symm

theorem take_burst {α : Type} (l : List α) {n m : Nat} (h : n ≤ m) :
    l.take n ++ (l.drop n).take (m - n) = l.take m := by
  have hfront : (l.take m).take n = l.take n := by
    rw [List.take_take, Nat.min_eq_left h]
  rw [← List.drop_take, ← hfront, List.take_append_drop]

/-- A burst goes on where the last one ended. -/
theorem onSendBurst_running (h : s.Running) {running : Bool}
    (hcounts : s.Counts running) :
    s.onSendBurst.Running ∧ s.onSendBurst.Counts running ∧
      s.onSendBurst.nextIndex = min (s.nextIndex + kBurstSize) s.targets.length ∧
      s.onSendBurst.scan = s.scan ∧ s.onSendBurst.targets = s.targets ∧
      s.onSendBurst.scanning = s.scanning ∧
      (if s.onSendBurst.nextIndex = s.targets.length then
        s.onSendBurst.waitTimer = true ∧ s.onSendBurst.sendTimer = false
      else s.onSendBurst.waitTimer = s.waitTimer ∧
        s.onSendBurst.sendTimer = s.sendTimer) := by
  obtain ⟨hsocket, hpending, hsome, hreached, hpinged⟩ := h
  have hout : s.onSendBurst.out = s.out ++
      ((s.targets.drop s.nextIndex).take
        (min (s.nextIndex + kBurstSize) s.targets.length - s.nextIndex)).map
          fun a => .pinged s.scan a (buildPing s.tag) := by
    rw [onSendBurst, hsocket, ← hpending]
    simp only [Bool.not_true, Bool.false_eq_true, if_false]
    split <;> rfl
  have hnext : s.onSendBurst.nextIndex =
      min (s.nextIndex + kBurstSize) s.targets.length := by
    rw [onSendBurst, hsocket, ← hpending]
    simp only [Bool.not_true, Bool.false_eq_true, if_false]
    split <;> rfl
  obtain ⟨-, -, hscan, htargets⟩ := onSendBurst_frame s
  have hon : s.onSendBurst.socket = true ∧ s.onSendBurst.pending = s.targets ∧
      s.onSendBurst.scanning = s.scanning := by
    rw [onSendBurst, hsocket]
    simp only [Bool.not_true, Bool.false_eq_true, if_false]
    split <;> exact ⟨rfl, hpending, rfl⟩
  have hle : s.nextIndex ≤ min (s.nextIndex + kBurstSize) s.targets.length := by
    omega
  refine ⟨⟨hon.1, ?_, ?_, ?_, ?_⟩, ⟨fun k => ?_, fun k => ?_, fun k hk => ?_⟩,
    hnext, hscan, htargets, hon.2.2, ?_⟩
  · rw [hon.2.1, htargets]
  · rwa [htargets]
  · rw [hnext, htargets]
    exact Nat.min_le_right _ _
  · rw [hout, hscan, htargets, hnext, pings_append, pings_burst, if_pos rfl,
      hpinged, take_burst _ hle]
  · rw [hout, hscan, List.count_append, List.count_append,
      count_burst (by simp), count_burst (by simp)]
    exact hcounts.finished k
  · rw [hout, List.count_append, count_burst (by simp)]
    exact hcounts.started k
  · rw [hscan] at hk
    obtain ⟨hstarted, hnone⟩ := hcounts.fresh k hk
    rw [hout, List.count_append, count_burst (by simp), pings_append,
      pings_burst, if_neg (by omega), hnone]
    exact ⟨hstarted, rfl⟩
  · rw [hnext, onSendBurst, hsocket, hpending]
    simp only [Bool.not_true, Bool.false_eq_true, if_false]
    split
    · next hend =>
      rw [if_pos (by omega)]
      exact ⟨rfl, rfl⟩
    · next hmore =>
      rw [if_neg (by omega)]
      exact ⟨rfl, rfl⟩

/-- A scan ends. -/
theorem Counts.finish (h : s.Counts true) (hscan : s'.scan = s.scan)
    (hout : s'.out = s.out ++ [.finished s.scan]) : s'.Counts false := by
  have hstarted (k : Nat) :
      s'.out.count (.started k) = s.out.count (.started k) := by
    rw [hout, List.count_append, List.count_singleton]
    simp
  refine ⟨fun k => ?_, fun k => ?_, fun k hk => ?_⟩
  · have := h.finished k
    rw [hstarted, hout, List.count_append, List.count_singleton, ← this]
    by_cases heq : k = s.scan
    · simp [heq]
    · simp [heq, Ne.symm heq]
  · rw [hstarted]
    exact h.started k
  · rw [hscan] at hk
    obtain ⟨hzero, hnone⟩ := h.fresh k hk
    rw [hstarted, hout, pings_append, hnone]
    exact ⟨hzero, rfl⟩

/-- A scan begins. -/
theorem Counts.begin (h : s.Counts false) (hscan : s'.scan = s.scan + 1)
    (hout : s'.out = s.out ++ [.started (s.scan + 1)]) : s'.Counts true := by
  obtain ⟨hnew, -⟩ := h.fresh (s.scan + 1) (Nat.lt_succ_self _)
  refine ⟨fun k => ?_, fun k => ?_, fun k hk => ?_⟩
  · have := h.finished k
    rw [if_neg (by simp), Nat.add_zero] at this
    rw [hout, hscan, List.count_append, List.count_append, List.count_singleton,
      List.count_singleton, this]
    by_cases heq : k = s.scan + 1
    · simp [heq]
    · simp [heq, Ne.symm heq]
  · rw [hout, List.count_append, List.count_singleton]
    by_cases heq : s.scan + 1 = k
    · rw [← heq, hnew]
      simp
    · simpa [heq] using h.started k
  · rw [hscan] at hk
    obtain ⟨hstarted, hnone⟩ := h.fresh k (by omega)
    rw [hout, List.count_append, List.count_singleton, pings_append, hnone,
      hstarted]
    refine ⟨?_, rfl⟩
    rw [if_neg (by simpa using (by omega : s.scan + 1 ≠ k))]

theorem Counts.of_out {running : Bool} (h : s.Counts running)
    (hscan : s'.scan = s.scan) (hout : s'.out = s.out) : s'.Counts running := by
  obtain ⟨h₁, h₂, h₃⟩ := h
  refine ⟨?_, ?_, ?_⟩ <;> simp only [hscan, hout] <;> assumption

theorem Running.of_timers (h : s.Running) (hsocket : s'.socket = s.socket)
    (hpending : s'.pending = s.pending) (hnext : s'.nextIndex = s.nextIndex)
    (hscan : s'.scan = s.scan) (htargets : s'.targets = s.targets)
    (hout : s'.out = s.out) : s'.Running := by
  obtain ⟨h₁, h₂, h₃, h₄, h₅⟩ := h
  refine ⟨?_, ?_, ?_, ?_, ?_⟩ <;>
    simp only [hsocket, hpending, hnext, hscan, htargets, hout] <;> assumption

/-- A number that is passed over. -/
theorem Counts.skip (h : s.Counts false) (hscan : s'.scan = s.scan + 1)
    (hout : s'.out = s.out) : s'.Counts false := by
  refine ⟨fun k => ?_, fun k => ?_, fun k hk => ?_⟩
  · rw [hout, if_neg (by simp)]
    have := h.finished k
    rwa [if_neg (by simp)] at this
  · rw [hout]
    exact h.started k
  · rw [hout]
    exact h.fresh k (by omega)

theorem stopScanner_phase (h : s.Phase) (hon : s.scanning = true) :
    s.stopScanner.Phase ∧ s.stopScanner.scanning = false := by
  have hcounts := h.counts
  rw [hon] at hcounts
  obtain ⟨⟨-, hpending, hsome, -, -⟩, -⟩ := h.running hon
  have hstop : s.stopScanner = ({ s.teardownTimers with
      socket := false, pending := [], nextIndex := 0 } : Scan).finished := by
    rw [stopScanner]
    have : s.pending.isEmpty = false := by
      rw [hpending]
      simpa using hsome
    exact if_neg (by simpa [teardownTimers] using this)
  rw [hstop]
  refine ⟨⟨h.distinct, hcounts.finish rfl rfl, fun hrun => ?_, fun _ => ?_⟩, rfl⟩
  · cases hrun
  · exact ⟨rfl, rfl, rfl, rfl⟩

theorem onWaitElapsed_phase (h : s.Phase) (hon : s.scanning = true)
    (hwait : s.waitTimer = true) : s.onWaitElapsed.Phase := by
  have hcounts := h.counts
  rw [hon] at hcounts
  obtain ⟨-, ⟨-, hsend, -⟩ | ⟨hnone, -⟩⟩ := h.running hon
  · refine ⟨h.distinct, hcounts.finish rfl rfl, fun hrun => ?_, fun _ => ?_⟩
    · cases hrun
    · exact ⟨rfl, hsend, rfl, rfl⟩
  · rw [hnone] at hwait
    cases hwait

/-- A tick of the send timer. -/
theorem sendTimeout_phase (h : s.Phase) (hon : s.scanning = true)
    (hsend : s.sendTimer = true) :
    s.onSendBurst.Phase ∧ s.onSendBurst.scanning = true ∧
      s.onSendBurst.scan = s.scan ∧ s.onSendBurst.targets = s.targets ∧
      s.onSendBurst.nextIndex =
        min (s.nextIndex + kBurstSize) s.targets.length := by
  obtain ⟨hrunning, hticking⟩ := h.running hon
  obtain ⟨hrunning', hcounts, hnext, hscan, htargets, hscanning, htimers⟩ :=
    onSendBurst_running hrunning h.counts
  rw [hon] at hscanning
  refine ⟨⟨?_, ?_, fun _ => ⟨hrunning', ?_⟩, fun hoff => ?_⟩, hscanning, hscan,
    htargets, hnext⟩
  · rw [htargets]
    exact h.distinct
  · rw [hscanning, ← hon]
    exact hcounts
  · rcases hticking with ⟨-, hnone, -⟩ | ⟨hwait, -, -⟩
    · rw [hnone] at hsend
      cases hsend
    rw [Ticking, htargets]
    by_cases hend : s.onSendBurst.nextIndex = s.targets.length
    · rw [if_pos hend] at htimers
      exact .inl ⟨htimers.1, htimers.2, hend⟩
    · rw [if_neg hend, hwait, hsend] at htimers
      have := hrunning'.reached
      rw [htargets] at this
      exact .inr ⟨htimers.1, htimers.2, by omega⟩
  · rw [hscanning] at hoff
    cases hoff

/-- A scan before its first burst. -/
def begun (targets : List HostAddress) (tag : UInt8) (s : Scan) : Scan :=
  ({ s.teardownTimers with
    socket := true
    scan := s.scan + 1
    targets
    pending := targets
    nextIndex := 0
    tag
    lastError := "" } : Scan).emit (.started (s.scan + 1))

theorem startScanner_none {targets : List HostAddress} (hsome : targets ≠ [])
    (hstop : s.stopScanner = { s.teardownTimers with socket := false })
    (tag : UInt8) :
    s.startScanner targets none tag =
      (true,
        if (s.begun targets tag).onSendBurst.nextIndex <
            (s.begun targets tag).onSendBurst.pending.length then
          { (s.begun targets tag).onSendBurst with sendTimer := true }
        else (s.begun targets tag).onSendBurst) := by
  have hfull : ¬ targets.isEmpty = true := by simpa using hsome
  rw [startScanner, hstop, if_neg hfull]
  rfl

/-- A scan begins from rest: the first burst is out, and a timer runs. -/
theorem startScanner_phase (h : s.Phase) (hidle : s.scanning = false)
    {targets : Targets} (hsome : targets.addresses ≠ [])
    (bindError : Option String) (tag : UInt8) :
    let r := s.startScanner targets.addresses bindError tag
    r.2.targets.Nodup ∧ r.2.Counts r.1 ∧ r.2.scanning = false ∧
      (r.1 = true → r.2.Running ∧ r.2.Ticking) ∧
      (r.1 = false → r.2.Idle) := by
  have hcounts := h.counts
  rw [hidle] at hcounts
  obtain ⟨-, -, -, hpending⟩ := h.idle hidle
  have hstop : s.stopScanner = { s.teardownTimers with socket := false } := by
    rw [stopScanner]
    exact if_pos (by simp [teardownTimers, hpending])
  cases bindError with
  | some error =>
      have hfull : ¬ targets.addresses.isEmpty = true := by simpa using hsome
      unfold startScanner
      rw [hstop]
      simp only [if_neg hfull]
      refine ⟨targets.distinct, hcounts.skip rfl rfl, hidle, fun hon => ?_,
        fun _ => ⟨rfl, rfl, rfl, hpending⟩⟩
      cases hon
  | none =>
      rw [startScanner_none hsome hstop]
      simp only []
      generalize hbegun : s.begun targets.addresses tag = t
      have hbegin : t.Counts true := by
        rw [← hbegun]
        exact hcounts.begin rfl rfl
      have hrunning : t.Running := by
        rw [← hbegun]
        refine ⟨rfl, rfl, hsome, Nat.zero_le _, ?_⟩
        show pings (s.scan + 1) (s.out ++ [.started (s.scan + 1)]) = []
        rw [pings_append, (hcounts.fresh _ (Nat.lt_succ_self _)).2]
        rfl
      have hoff : t.scanning = false := by
        rw [← hbegun]
        exact hidle
      have htimers : t.sendTimer = false ∧ t.waitTimer = false ∧
          t.targets = targets.addresses := by
        rw [← hbegun]
        exact ⟨rfl, rfl, rfl⟩
      obtain ⟨hrun, hcounts', hnext, hscan, htargets, hscanning, hwait⟩ :=
        onSendBurst_running hrunning hbegin
      have hlength : t.onSendBurst.pending.length = t.targets.length := by
        rw [hrun.pending, htargets]
      split
      · next hmore =>
        rw [hlength] at hmore
        rw [if_neg (by omega), htimers.2.1] at hwait
        refine ⟨?_, hcounts'.of_out rfl rfl, hscanning.trans hoff,
          fun _ => ⟨hrun.of_timers rfl rfl rfl rfl rfl rfl, .inr ⟨hwait.1, rfl, ?_⟩⟩,
          fun hf => by cases hf⟩
        · show t.onSendBurst.targets.Nodup
          rw [htargets, htimers.2.2]
          exact targets.distinct
        · show t.onSendBurst.nextIndex < t.onSendBurst.targets.length
          rw [htargets]
          exact hmore
      · next hend =>
        rw [hlength] at hend
        have hreached := hrun.reached
        rw [htargets] at hreached
        rw [if_pos (by omega)] at hwait
        refine ⟨?_, hcounts', hscanning.trans hoff,
          fun _ => ⟨hrun, .inl ⟨hwait.1, hwait.2, ?_⟩⟩, fun hf => by cases hf⟩
        · rw [htargets, htimers.2.2]
          exact targets.distinct
        · rw [htargets]
          omega

theorem start_phase (h : s.Phase) (parsed : Except String Targets)
    (bindError : Option String) (tag : UInt8) :
    (s.start parsed bindError tag).Phase := by
  unfold start
  split
  · exact h
  next hidle =>
  have hidle : s.scanning = false := eq_false_of_ne_true hidle
  split
  · exact h.of_eq rfl rfl rfl rfl rfl rfl rfl rfl rfl
  next targets =>
  split
  · exact h.of_eq rfl rfl rfl rfl rfl rfl rfl rfl rfl
  next hsome =>
  have hcleared : ({ s with results := [] } : Scan).Phase :=
    h.of_eq rfl rfl rfl rfl rfl rfl rfl rfl rfl
  have htargets : targets.addresses ≠ [] := by simpa using hsome
  obtain ⟨hdistinct, hcounts, hoff, hrunning, hrest⟩ :=
    startScanner_phase hcleared hidle htargets bindError tag
  simp only []
  split
  · next t heq =>
    rw [heq] at hdistinct hcounts hoff hrest
    have hidle := hrest rfl
    refine ⟨hdistinct, ?_, fun hon => ?_, fun _ => ?_⟩
    · show Counts _ t.scanning
      rw [hoff]
      exact hcounts.of_out rfl rfl
    · rw [show _ = t.scanning from rfl, hoff] at hon
      cases hon
    · exact ⟨hidle.socket, hidle.sendTimer, hidle.waitTimer, hidle.pending⟩
  · next t heq =>
    rw [heq] at hdistinct hcounts hrunning
    obtain ⟨hrun, hticking⟩ := hrunning rfl
    exact ⟨hdistinct, hcounts.of_out rfl rfl, fun _ =>
      ⟨hrun.of_timers rfl rfl rfl rfl rfl rfl, hticking⟩, fun hf => by cases hf⟩

theorem step_phase (h : s.Phase) (e : Event) : (s.step e).Phase := by
  have hon {timer : Bool} (htimer : timer = true)
      (hidle : s.scanning = false → timer = false) : s.scanning = true := by
    by_contra hoff
    rw [hidle (eq_false_of_ne_true hoff)] at htimer
    cases htimer
  cases e with
  | start parsed bindError tag => exact start_phase h parsed bindError tag
  | stop =>
      simp only [step, stop]
      split
      · exact h
      · next hscan =>
        exact (stopScanner_phase h (by simpa using hscan)).1.of_eq
          rfl rfl rfl rfl rfl rfl rfl rfl rfl
  | sendTimeout =>
      simp only [step]
      split
      · next hsend =>
        exact (sendTimeout_phase h
          (hon hsend fun hoff => (h.idle hoff).sendTimer) hsend).1
      · exact h
  | waitTimeout =>
      simp only [step]
      split
      · next hwait =>
        exact onWaitElapsed_phase h
          (hon hwait fun hoff => (h.idle hoff).waitTimer) hwait
      · exact h
  | datagram source bytes =>
      simp only [step, onReadyRead]
      split
      · exact h
      · exact h.of_eq rfl rfl rfl rfl rfl rfl rfl rfl rfl
  | lookedUp id info =>
      simp only [step, onLookup]
      split
      · exact h
      · exact h.of_eq rfl rfl rfl rfl rfl rfl rfl rfl rfl
  | setSelected row selected =>
      exact h.of_eq rfl rfl rfl rfl rfl rfl rfl rfl rfl

/-- The timers bring a scan to its end, a burst at a time. -/
theorem Phase.ends (h : s.Phase) (hon : s.scanning = true) (n : Nat)
    (hleft : s.targets.length - s.nextIndex ≤ n) :
    Effect.finished s.scan ∈
      (run step s (List.replicate n .sendTimeout ++ [.waitTimeout])).out := by
  induction n generalizing s with
  | zero =>
      obtain ⟨-, ⟨hwait, -, -⟩ | ⟨-, -, hmore⟩⟩ := h.running hon
      · show Effect.finished s.scan ∈ (s.step .waitTimeout).out
        rw [step, if_pos hwait]
        exact List.mem_append_right _ (List.mem_singleton.mpr rfl)
      · omega
  | succ n ih =>
      rw [List.replicate_succ, List.cons_append, run_cons, step]
      obtain ⟨-, ⟨-, hsend, hall⟩ | ⟨-, hsend, hmore⟩⟩ := h.running hon
      · rw [if_neg (by simp [hsend])]
        exact ih h hon (by omega)
      · rw [if_pos hsend]
        obtain ⟨hphase, hscanning, hscan, htargets, hnext⟩ :=
          sendTimeout_phase h hon hsend
        have := ih hphase hscanning (by
          rw [hnext, htargets]
          simp only [kBurstSize]
          omega)
        rwa [hscan] at this

/-! ## The claims -/

theorem Kept.of (hrows : s.Rows) (hphase : s.Phase) : s.Kept := by
  refine ⟨hrows.belong, ?_, hphase.counts.finished, hphase.counts.started,
    fun hon => ?_⟩
  · exact (List.nodup_append.mp hrows.once).1
  · exact hphase.ends hon _ (Nat.sub_le _ _)

/-- When the window elapses all pings are out. -/
theorem Phase.pingsOnce (h : s.Phase) (e : Event) : s.PingsOnce e := by
  cases e with
  | waitTimeout =>
      intro hwait a
      have hon : s.scanning = true := by
        by_contra hoff
        rw [(h.idle (eq_false_of_ne_true hoff)).waitTimer] at hwait
        cases hwait
      obtain ⟨hrunning, ⟨-, -, hall⟩ | ⟨hnone, -⟩⟩ := h.running hon
      · rw [hrunning.pinged, hall, List.take_length]
        split
        · next hmem => exact List.count_eq_one_of_mem h.distinct hmem
        · next hmem => exact List.count_eq_zero.mpr hmem
      · rw [hnone] at hwait
        cases hwait
  | _ => exact trivial

theorem Rows.empty : ({} : Scan).Rows where
  belong := List.forall_mem_nil _
  awaited := List.forall_mem_nil _
  once := List.nodup_nil

theorem Phase.empty : ({} : Scan).Phase where
  distinct := List.nodup_nil
  counts :=
    { finished := fun _ => rfl
      started := fun _ => Nat.zero_le 1
      fresh := fun _ _ => ⟨rfl, rfl⟩ }
  running := fun hon => by cases hon
  idle := fun _ => ⟨rfl, rfl, rfl, rfl⟩

end Scan

/-- In every run in which a scan begins when no look-up is outstanding, and the
pongs a scan takes come from its targets, each of them once: the rows are this
scan's, one for each sender; a scan that completes has pinged each target once;
and a scan that started finishes once. -/
theorem scan_rows (es : List Event)
    (hok : ∀ x ∈ trail Scan.step {} es, x.1.Clean x.2) :
    (∀ early, early <+: es → (run Scan.step {} early).Kept) ∧
      ∀ x ∈ trail Scan.step {} es, x.1.PingsOnce x.2 := by
  have hkeeps : ∀ s e, Scan.Rows s ∧ Scan.Phase s → s.Clean e →
      (s.step e).Rows ∧ (s.step e).Phase := by
    rintro s e ⟨hrows, hphase⟩ hclean
    exact ⟨Scan.step_rows hrows hclean, Scan.step_phase hphase e⟩
  refine ⟨fun early hearly => ?_, fun x hx => ?_⟩
  · obtain ⟨hrows, hphase⟩ :=
      invariant_of_trail hkeeps ⟨.empty, .empty⟩ hok early hearly
    exact .of hrows hphase
  · exact (invariant_on_trail hkeeps ⟨.empty, .empty⟩ hok x hx).2.pingsOnce x.2

/-! ### Two scans -/

/-- A pong of a machine that is set up and listens on both ports. -/
private def pong (tag : UInt8) : Bytes :=
  [0x06, 0x00, 0x00, 0x06, 0x00, 0x00, 0x11, 0xBE, 0x40, tag, 0x00, 0x10,
    0x00, 0x00, 0x00, 0x00, 0x42, 0x60, 0xB0, 0x06, 0x00, 0x00]

private def one (a : HostAddress) : Targets := ⟨[a], List.nodup_singleton a⟩

private def noName : HostInfo := { failed := true, hostName := "" }

/-- Each has its reply, and the second is stopped. -/
theorem scan_rows_two :
    (∀ early, early <+: [.start (.ok (one 0x0A000005)) none 7,
        .datagram 0x0A000005 (pong 7), .lookedUp 0 noName, .waitTimeout,
        .start (.ok (one 0x0A000006)) none 9, .datagram 0x0A000006 (pong 9),
        .stop, .lookedUp 1 noName] → (run Scan.step {} early).Kept) ∧
      ∀ x ∈ trail Scan.step {} [.start (.ok (one 0x0A000005)) none 7,
          .datagram 0x0A000005 (pong 7), .lookedUp 0 noName, .waitTimeout,
          .start (.ok (one 0x0A000006)) none 9, .datagram 0x0A000006 (pong 9),
          .stop, .lookedUp 1 noName], x.1.PingsOnce x.2 := by
  exact scan_rows _ (by decide)

/-- The first is stopped before its look-up is answered. -/
theorem scan_rows_stale :
    ¬ ∀ es : List Event, (∀ early, early <+: es →
        (run Scan.step {} early).Kept) ∧
      ∀ x ∈ trail Scan.step {} es, x.1.PingsOnce x.2 := by
  intro h
  have hbelong := ((h [.start (.ok (one 0x0A000005)) none 7,
    .datagram 0x0A000005 (pong 7), .stop,
    .start (.ok (one 0x0A000006)) none 9,
    .lookedUp 0 noName]).1 _ (List.prefix_refl _)).belong
  revert hbelong
  decide

end QuMesh.Rmcp
