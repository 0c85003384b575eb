import Mathlib.Data.List.Perm.Basic
import QuMesh.App.BatchRunner

/-!
# Every job once

A job that is running was taken by a frame that has yet to dispatch it, or its
row is owed a reply. This is counted row by row, `Sound.owed`, as replies find
their job by the row and may well find another of the same row. It is what
keeps a batch from being replaced under the feet of a loop: as long as a frame
is between taking a job and dispatching it, a job is running, so the batch is.

The rest are sums over the same frames. A job was dispatched as often as it was
queued, but for what is pending or in a frame, `Sound.once`; and a batch that
was begun has ended, is in a frame, or is the one that runs, `Sound.ends`. That
the runner does not fall asleep is `Awake`: while it runs a job is running, or
a frame is there that will look through the queue from its beginning.

What is said of a run is said of its `Ledger`, which is made up from the calls
and from what the dispatcher is given, and which the counters in the runner's
jobs agree with, `kept_step`.
-/

namespace QuMesh.App.BatchRunner

open QuMesh.Lib

variable {P : Type}

def isRunning (j : Job) : Bool := j.status = .running

def runningOf (row : Int) (j : Job) : Bool := j.row = row ∧ j.status = .running

/-- The rows of the jobs that were taken and not dispatched yet. -/
def takenRows (jobs : List Job) (stack : List Frame) : List Int :=
  stack.filterMap fun
    | .taken i => (jobs[i]?).map (·.row)
    | _ => none

/-- The batches whose end is being signalled. -/
def ending (stack : List Frame) : List Nat :=
  stack.filterMap fun
    | .finishing n => some n
    | _ => none

def queued (j : Job) : Nat := if j.status = .pending then 1 else 0

/-- The batches that were begun, in the three places they can be. -/
def accounted (m : BatchRunner P) : List Nat :=
  m.ended ++ ending m.stack ++ if m.running then [m.begun] else []

structure Sound (m : BatchRunner P) : Prop where
  limit : 1 ≤ m.maxConcurrency
  inflight : m.inflight = m.jobs.countP isRunning
  capped : m.jobs.countP isRunning ≤ m.cap
  valid : ∀ i, .taken i ∈ m.stack → i < m.jobs.length
  owed : ∀ row, m.jobs.countP (runningOf row) =
    m.outstanding.count row + (takenRows m.jobs m.stack).count row
  once : ∀ i j, m.jobs[i]? = some j →
    j.dispatches + m.stack.count (.taken i) + queued j = j.rounds
  idle : m.running = false → m.jobs.any isActive = false
  ends : (accounted m).Perm (List.range' 1 m.begun)

/-- A frame that will look through the whole queue. -/
def Frame.pumps (f : Frame) : Bool := f = .starting ∨ f = .completing

def Awake (m : BatchRunner P) : Prop :=
  m.running = true → m.stack.any Frame.pumps = true ∨ 0 < m.inflight

/-! ## Counting -/

/-- What a job that is replaced changes about a count. -/
theorem countP_set {jobs : List Job} {i : Nat} {j : Job} (p : Job → Bool)
    (h : jobs[i]? = some j) (j' : Job) :
    (jobs.set i j').countP p + (if p j then 1 else 0) =
      jobs.countP p + if p j' then 1 else 0 := by
  induction jobs generalizing i with
  | nil => cases h
  | cons x jobs ih =>
      cases i with
      | zero =>
          cases h
          simp only [List.set_cons_zero, List.countP_cons]
          omega
      | succ i =>
          have hrest := ih h
          simp only [List.set_cons_succ, List.countP_cons]
          omega

theorem modify_eq_set {jobs : List Job} {i : Nat} {j : Job}
    (h : jobs[i]? = some j) (f : Job → Job) :
    jobs.modify i f = jobs.set i (f j) := by
  induction jobs generalizing i with
  | nil => cases h
  | cons x jobs ih =>
      cases i with
      | zero => cases h; rfl
      | succ i => simp [ih h]

/-- The rows do not change with the jobs' states. -/
theorem takenRows_set {jobs : List Job} {i : Nat} {j : Job}
    (h : jobs[i]? = some j) (j' : Job) (hrow : j'.row = j.row)
    (stack : List Frame) :
    takenRows (jobs.set i j') stack = takenRows jobs stack := by
  have hrows : ∀ k : Nat, ((jobs.set i j')[k]?).map Job.row =
      (jobs[k]?).map Job.row := by
    intro k
    rw [List.getElem?_set]
    split
    · next heq =>
      subst heq
      have hlt := (List.getElem?_eq_some_iff.mp h).1
      rw [if_pos hlt, Option.map_some, h, Option.map_some, hrow]
    · rfl
  unfold takenRows
  refine congrArg (fun f => stack.filterMap f) (funext fun f => ?_)
  cases f <;> simp [hrows]

theorem nextPending_some {jobs : List Job} {i k : Nat}
    (h : nextPending jobs i = some k) :
    ∃ j, jobs[k]? = some j ∧ j.status = .pending := by
  have hfound := List.find?_some h
  rw [Option.any_eq_true] at hfound
  obtain ⟨j, hj, hpending⟩ := hfound
  exact ⟨j, hj, of_decide_eq_true hpending⟩

/-- A loop from the beginning that finds nothing leaves nothing pending. -/
theorem nextPending_none {jobs : List Job} (h : nextPending jobs 0 = none) :
    ∀ j ∈ jobs, j.status ≠ .pending := by
  intro j hj hpending
  obtain ⟨k, hk, hget⟩ := List.mem_iff_getElem.mp hj
  have hnone := List.find?_eq_none.mp h k (List.mem_range'_1.mpr (by omega))
  simp [List.getElem?_eq_getElem hk, hget, hpending] at hnone

theorem findRunning_some {jobs : List Job} {row : Int} {k : Nat}
    (h : findRunning jobs row = some k) :
    ∃ j, jobs[k]? = some j ∧ j.row = row ∧ j.status = .running := by
  obtain ⟨hlt, hok, _⟩ := List.findIdx?_eq_some_iff_getElem.mp h
  exact ⟨_, List.getElem?_eq_getElem hlt, of_decide_eq_true hok⟩

theorem findRunning_none {jobs : List Job} {row : Int}
    (h : findRunning jobs row = none) : jobs.countP (runningOf row) = 0 := by
  rw [List.countP_eq_zero]
  intro j hj
  have hnot := List.findIdx?_eq_none_iff.mp h j hj
  simpa [runningOf] using hnot

/-! ## One piece of the runner after the other -/

/-- A frame that holds no job and no batch comes and goes freely. -/
theorem Sound.frame {m : BatchRunner P} {stack : List Frame} (h : Sound m)
    (htaken : ∀ i, stack.count (.taken i) = m.stack.count (.taken i))
    (hrows : takenRows m.jobs stack = takenRows m.jobs m.stack)
    (hending : ending stack = ending m.stack) : Sound { m with stack } where
  limit := h.limit
  inflight := h.inflight
  capped := h.capped
  valid := by
    intro i hi
    refine h.valid i ?_
    rw [← List.count_pos_iff] at hi ⊢
    rwa [← htaken i]
  owed := by
    intro row
    rw [h.owed row, hrows]
  once := by
    intro i j hj
    rw [htaken i]
    exact h.once i j hj
  idle := h.idle
  ends := by
    unfold accounted
    rw [hending]
    exact h.ends

theorem Sound.take {m : BatchRunner P} (h : Sound m) {k : Nat} {j : Job}
    (hj : m.jobs[k]? = some j) (hpending : j.status = .pending)
    (hroom : m.inflight < m.maxConcurrency) : Sound (m.take k) := by
  have hlt : k < m.jobs.length := (List.getElem?_eq_some_iff.mp hj).1
  have hjobs : (m.take k).jobs = m.jobs.set k { j with status := .running } :=
    modify_eq_set hj _
  have hcount := countP_set isRunning hj { j with status := .running }
  have hone : (m.take k).jobs.countP isRunning =
      m.jobs.countP isRunning + 1 := by
    rw [hjobs]
    simpa [isRunning, hpending] using hcount
  have hinflight := h.inflight
  refine ⟨h.limit, ?_, ?_, ?_, ?_, ?_, ?_, ?_⟩
  · rw [hone]
    change m.inflight + 1 = _
    omega
  · rw [hone]
    change _ ≤ m.maxConcurrency
    omega
  · intro i hi
    rw [hjobs, List.length_set]
    rcases List.mem_cons.mp hi with heq | hi
    · cases heq
      exact hlt
    · exact h.valid i hi
  · intro row
    have hrow := countP_set (runningOf row) hj { j with status := .running }
    have howed := h.owed row
    have hrows : takenRows (m.take k).jobs (m.take k).stack =
        j.row :: takenRows m.jobs m.stack := by
      rw [hjobs, takenRows_set hj { j with status := .running } rfl]
      simp [BatchRunner.take, takenRows, hj]
    rw [hrows, hjobs, List.count_cons]
    change _ = m.outstanding.count row + _
    simp only [runningOf, hpending] at hrow
    by_cases heq : j.row = row <;> simp [heq] at hrow ⊢ <;> omega
  · intro i j' hj'
    rw [hjobs, List.getElem?_set] at hj'
    change _ + (Frame.taken k :: m.stack).count (.taken i) + _ = _
    rw [List.count_cons]
    split at hj'
    · next heq =>
      subst heq
      have honce := h.once k j hj
      rw [Option.some.injEq] at hj'
      subst hj'
      simp [queued, hpending] at honce ⊢
      omega
    · next hne =>
      have honce := h.once i j' hj'
      simp [hne]
      omega
  · intro hidle
    have hnone := h.idle hidle
    rw [List.any_eq_false] at hnone
    refine absurd ?_ (hnone j (List.mem_of_getElem? hj))
    simp [isActive, hpending]
  · exact h.ends

theorem take_awake (m : BatchRunner P) (k : Nat) (h : 0 ≤ m.inflight) :
    Awake (m.take k) := by
  intro _
  right
  change 0 < m.inflight + 1
  omega

theorem not_isActive {j : Job} :
    isActive j = false ↔ j.status ≠ .pending ∧ j.status ≠ .running := by
  simp [isActive]

theorem Sound.settle {m : BatchRunner P} (h : Sound m) : Sound m.settle := by
  unfold BatchRunner.settle
  split
  · next hend =>
    refine ⟨h.limit, h.inflight, h.capped, ?_, h.owed, ?_, fun _ => hend.1, ?_⟩
    · intro i hi
      rcases List.mem_cons.mp hi with heq | hi
      · cases heq
      · exact h.valid i hi
    · intro i j hj
      have hne : (Frame.finishing m.begun == .taken i) = false := rfl
      rw [List.count_cons, hne]
      exact h.once i j hj
    · have hends := h.ends
      unfold accounted at hends ⊢
      rw [hend.2] at hends
      refine List.Perm.trans ?_ hends
      simp only [ending, List.filterMap_cons, Bool.false_eq_true, if_false,
        List.append_nil, if_true, List.append_assoc]
      exact List.Perm.append_left _ (@List.perm_append_comm _ [_] _)
  · exact h

/-- The check does not put the runner to sleep. -/
theorem settle_awake {m : BatchRunner P} (h : Sound m)
    (hawake : Awake m ∨ ∀ j ∈ m.jobs, j.status ≠ .pending) :
    Awake m.settle := by
  unfold BatchRunner.settle
  split
  · exact nofun
  · next hend =>
    rcases hawake with hawake | hnone
    · exact hawake
    · intro hrunning
      right
      rw [hrunning] at hend
      have hactive : m.jobs.any isActive = true := by simpa using hend
      obtain ⟨j, hj, hjactive⟩ := List.any_eq_true.mp hactive
      have hrun : isRunning j = true := by
        simpa [isActive, isRunning, hnone j hj] using hjactive
      have hpos : 0 < m.jobs.countP isRunning :=
        List.countP_pos_iff.mpr ⟨j, hj, hrun⟩
      rw [h.inflight]
      omega

theorem Sound.pumpFrom {m : BatchRunner P} (h : Sound m) (i : Nat) :
    Sound (m.pumpFrom i) := by
  unfold BatchRunner.pumpFrom
  split
  · next k hk =>
    split at hk
    · next hroom =>
      obtain ⟨j, hj, hpending⟩ := nextPending_some hk
      exact h.take hj hpending hroom
    · cases hk
  · exact h.settle

theorem pumpFrom_awake {m : BatchRunner P} (h : Sound m) (i : Nat)
    (hawake : Awake m) : Awake (m.pumpFrom i) := by
  have hinflight := h.inflight
  unfold BatchRunner.pumpFrom
  split
  · exact take_awake m _ (by omega)
  · exact settle_awake h (.inl hawake)

/-- From the beginning the queue wakes the runner by itself. -/
theorem pumpQueue_awake {m : BatchRunner P} (h : Sound m) :
    Awake m.pumpQueue := by
  have hinflight := h.inflight
  have hlimit := h.limit
  unfold BatchRunner.pumpQueue BatchRunner.pumpFrom
  split
  · exact take_awake m _ (by omega)
  · next hnone =>
    split at hnone
    · exact settle_awake h (.inr (nextPending_none hnone))
    · next hfull =>
      refine settle_awake h (.inl fun _ => .inr ?_)
      omega

/-! ## The calls -/

theorem Sound.nothingOwed {m : BatchRunner P} (h : Sound m)
    (hidle : m.running = false) :
    m.outstanding = [] ∧ ∀ i, Frame.taken i ∉ m.stack := by
  have hnone := List.any_eq_false.mp (h.idle hidle)
  have hzero : ∀ row, m.jobs.countP (runningOf row) = 0 := by
    intro row
    rw [List.countP_eq_zero]
    intro j hj
    have hj' := not_isActive.mp (by simpa using hnone j hj)
    simp [runningOf, hj'.2]
  constructor
  · rw [List.eq_nil_iff_forall_not_mem]
    intro row hrow
    have howed := h.owed row
    have hpos := List.count_pos_iff.mpr hrow
    have := hzero row
    omega
  · intro i hi
    have hlt := h.valid i hi
    have howed := h.owed m.jobs[i].row
    have hmem : m.jobs[i].row ∈ takenRows m.jobs m.stack := by
      refine List.mem_filterMap.mpr ⟨_, hi, ?_⟩
      simp [hlt]
    have hpos := List.count_pos_iff.mpr hmem
    have := hzero m.jobs[i].row
    omega

/-- A batch or a retry begins: the jobs are queued anew, none of them runs. -/
theorem Sound.begin {m : BatchRunner P} (h : Sound m)
    (hidle : m.running = false) {jobs : List Job}
    (hqueued : ∀ j ∈ jobs, j.status ≠ .running)
    (honce : ∀ j ∈ jobs, j.dispatches + queued j = j.rounds)
    (action : Int) (params : Option P) :
    Sound { m with
      jobs, currentAction := action, currentParams := params, inflight := 0,
      running := true, stack := .starting :: m.stack,
      begun := m.begun + 1 } := by
  obtain ⟨houtstanding, htaken⟩ := h.nothingOwed hidle
  have hnot : ∀ i, Frame.taken i ∉ Frame.starting :: m.stack := by
    intro i hi
    rcases List.mem_cons.mp hi with heq | hi
    · cases heq
    · exact htaken i hi
  have hzero : jobs.countP isRunning = 0 := by
    rw [List.countP_eq_zero]
    intro j hj
    simp [isRunning, hqueued j hj]
  refine ⟨h.limit, ?_, ?_, ?_, ?_, ?_, nofun, ?_⟩
  · change (0 : Int) = _
    rw [hzero]
    rfl
  · change jobs.countP isRunning ≤ _
    rw [hzero]
    exact Nat.zero_le _
  · intro i hi
    exact absurd hi (hnot i)
  · intro row
    change jobs.countP (runningOf row) = m.outstanding.count row +
      (takenRows jobs (.starting :: m.stack)).count row
    have hnone : jobs.countP (runningOf row) = 0 := by
      rw [List.countP_eq_zero]
      intro j hj
      simp [runningOf, hqueued j hj]
    have hrows : takenRows jobs (.starting :: m.stack) = [] := by
      rw [takenRows, List.filterMap_eq_nil_iff]
      intro f hf
      cases f with
      | taken i => exact absurd hf (hnot i)
      | _ => rfl
    rw [hnone, houtstanding, hrows]
    rfl
  · intro i j hj
    change _ + (Frame.starting :: m.stack).count (.taken i) + _ = _
    rw [List.count_eq_zero.mpr (hnot i)]
    exact honce j (List.mem_of_getElem? hj)
  · have hends := h.ends
    unfold accounted at hends ⊢
    rw [hidle] at hends
    simp only [Bool.false_eq_true, if_false, List.append_nil, if_true] at hends ⊢
    rw [List.range'_concat, Nat.one_mul, Nat.add_comm 1]
    exact hends.append_right [m.begun + 1]

theorem Sound.start {m : BatchRunner P} (h : Sound m) (rows : List Int)
    (action : Int) (params : P) : Sound (m.start rows action params) := by
  unfold BatchRunner.start
  split
  · exact h
  · next hgo =>
    simp only [not_or, Bool.not_eq_true] at hgo
    refine h.begin hgo.1 (fun j hj => ?_) (fun j hj => ?_) action (some params)
    · obtain ⟨row, _, rfl⟩ := List.mem_map.mp hj
      exact nofun
    · obtain ⟨row, _, rfl⟩ := List.mem_map.mp hj
      rfl

theorem Sound.retryFailed {m : BatchRunner P} (h : Sound m) :
    Sound m.retryFailed := by
  unfold BatchRunner.retryFailed
  split
  · exact h
  · next hgo =>
    simp only [not_or, Bool.not_eq_true] at hgo
    have hnone := List.any_eq_false.mp (h.idle hgo.1)
    have htaken := (h.nothingOwed hgo.1).2
    refine h.begin hgo.1 (fun j hj => ?_) (fun j hj => ?_) m.currentAction
      m.currentParams
    · obtain ⟨j, hold, rfl⟩ := List.mem_map.mp hj
      have hj' := not_isActive.mp (by simpa using hnone j hold)
      unfold retried
      split
      · exact nofun
      · exact hj'.2
    · obtain ⟨j, hold, rfl⟩ := List.mem_map.mp hj
      have hj' := not_isActive.mp (by simpa using hnone j hold)
      obtain ⟨i, hi, hget⟩ := List.mem_iff_getElem.mp hold
      have honce := h.once i j (by rw [List.getElem?_eq_getElem hi, hget])
      rw [List.count_eq_zero.mpr (htaken i)] at honce
      unfold retried queued at *
      simp only [hj'.1, if_false] at honce
      split
      · simp only [if_true]
        omega
      · simp only [hj'.1, if_false]
        omega

theorem normalized_status (r : Reply) :
    (normalized r).status ≠ .pending ∧ (normalized r).status ≠ .running := by
  unfold normalized
  split
  · exact ⟨nofun, nofun⟩
  · next h => exact not_or.mp h

/-- A reply is used up by the job that it finds. -/
theorem Sound.onReply {m : BatchRunner P} (h : Sound m) {n : Nat} {row : Int}
    (hn : m.outstanding[n]? = some row) (r : Reply) :
    Sound (BatchRunner.onReply row r
      { m with outstanding := m.outstanding.eraseIdx n }) := by
  have hcount : ∀ x, (m.outstanding.eraseIdx n).count x +
      (if row = x then 1 else 0) = m.outstanding.count x := by
    intro x
    obtain ⟨hlt, hget⟩ := List.getElem?_eq_some_iff.mp hn
    have hperm := (List.getElem_cons_eraseIdx_perm hlt).count_eq x
    rw [hget, List.count_cons] at hperm
    simpa using hperm
  unfold BatchRunner.onReply
  dsimp only
  split
  · next k hk =>
    obtain ⟨j, hj, hrow, hrunning⟩ := findRunning_some hk
    obtain ⟨hpending', hrunning'⟩ := normalized_status r
    have hlt : k < m.jobs.length := (List.getElem?_eq_some_iff.mp hj).1
    unfold completeOne
    dsimp only
    rw [modify_eq_set hj]
    generalize hj' : { j with
      status := (normalized r).status, detail := (normalized r).detail } = j'
    have hrow' : j'.row = j.row := by rw [← hj']
    have hstatus' : j'.status ≠ .pending ∧ j'.status ≠ .running := by
      rw [← hj']
      exact ⟨hpending', hrunning'⟩
    have hrunningcount := countP_set isRunning hj j'
    have hinflight := h.inflight
    have hcapped := h.capped
    simp only [isRunning, hrunning, hstatus'.2, decide_true, decide_false,
      if_true, Bool.false_eq_true, if_false] at hrunningcount
    refine ⟨h.limit, ?_, ?_, ?_, ?_, ?_, ?_, ?_⟩
    · change m.inflight - 1 = ((m.jobs.set k j').countP isRunning : Int)
      unfold isRunning at *
      omega
    · change (m.jobs.set k j').countP isRunning ≤ m.cap
      unfold isRunning at *
      omega
    · intro i hi
      change i < (m.jobs.set k j').length
      rw [List.length_set]
      rcases List.mem_cons.mp hi with heq | hi
      · cases heq
      · exact h.valid i hi
    · intro x
      have howed := h.owed x
      have hx := hcount x
      have hrows := countP_set (runningOf x) hj j'
      change (m.jobs.set k j').countP (runningOf x) =
        (m.outstanding.eraseIdx n).count x +
          (takenRows (m.jobs.set k j') m.stack).count x
      rw [takenRows_set hj j' hrow']
      simp only [runningOf, hrunning, hrow, hstatus'.2, and_true, and_false,
        decide_false, Bool.false_eq_true, if_false, decide_eq_true_eq]
        at hrows howed ⊢
      omega
    · intro i j'' hj''
      have hne : (Frame.completing == .taken i) = false := rfl
      change _ + (Frame.completing :: m.stack).count (.taken i) + _ = _
      rw [List.count_cons, hne]
      rw [List.getElem?_set] at hj''
      split at hj''
      · next heq =>
        subst heq
        have honce := h.once k j hj
        cases hj''
        have hsame : j'.dispatches = j.dispatches ∧ j'.rounds = j.rounds := by
          rw [← hj']
          exact ⟨rfl, rfl⟩
        simp only [queued, hrunning, hstatus'.1, if_false] at honce ⊢
        simpa [hsame] using honce
      · exact h.once i j'' hj''
    · intro hidle
      refine absurd ?_ (List.any_eq_false.mp (h.idle hidle) j
        (List.mem_of_getElem? hj))
      simp [isActive, hrunning]
    · exact h.ends
  · next hnone =>
    have hzero := findRunning_none hnone
    have howed := h.owed row
    have hone := hcount row
    simp only [if_true] at hone
    omega

theorem Sound.reply {m : BatchRunner P} (h : Sound m) (n : Nat) (r : Reply) :
    Sound (m.reply n r) := by
  unfold BatchRunner.reply
  split
  · exact h
  · next row hrow => exact h.onReply hrow r

theorem Awake.reply {m : BatchRunner P} (h : Awake m) (n : Nat) (r : Reply) :
    Awake (m.reply n r) := by
  unfold BatchRunner.reply
  split
  · exact h
  · unfold BatchRunner.onReply
    split
    · exact fun _ => .inl rfl
    · exact h

/-- The dispatcher is called for the job of the frame. -/
theorem Sound.dispatch {m : BatchRunner P} (h : Sound m) {i : Nat}
    {stack : List Frame} (hstack : m.stack = .taken i :: stack) {j : Job}
    (hj : m.jobs[i]? = some j) :
    Sound { m with
      jobs := m.jobs.set i { j with dispatches := j.dispatches + 1 }
      outstanding := m.outstanding ++ [j.row]
      stack := .dispatching i :: stack } := by
  have hlt : i < m.jobs.length := (List.getElem?_eq_some_iff.mp hj).1
  generalize hj' : { j with dispatches := j.dispatches + 1 } = j'
  have hrow : j'.row = j.row := by rw [← hj']
  have hstatus : j'.status = j.status := by rw [← hj']
  have hcounts : ∀ p : Job → Bool, p j' = p j →
      (m.jobs.set i j').countP p = m.jobs.countP p := by
    intro p hp
    have hset := countP_set p hj j'
    rw [hp] at hset
    omega
  have hrunning := hcounts isRunning (by simp [isRunning, hstatus])
  refine ⟨h.limit, ?_, ?_, ?_, ?_, ?_, ?_, ?_⟩
  · change m.inflight = ((m.jobs.set i j').countP isRunning : Int)
    rw [hrunning, h.inflight]
  · change (m.jobs.set i j').countP isRunning ≤ m.cap
    rw [hrunning]
    exact h.capped
  · intro k hk
    change k < (m.jobs.set i j').length
    rw [List.length_set]
    rcases List.mem_cons.mp hk with heq | hk
    · cases heq
    · exact h.valid k (by rw [hstack]; exact List.mem_cons_of_mem _ hk)
  · intro row
    have howed := h.owed row
    change (m.jobs.set i j').countP (runningOf row) =
      (m.outstanding ++ [j.row]).count row +
        (takenRows (m.jobs.set i j') (.dispatching i :: stack)).count row
    have hrows : takenRows m.jobs m.stack = j.row :: takenRows m.jobs stack := by
      rw [hstack]
      simp [takenRows, hj]
    rw [takenRows_set hj j' hrow, hcounts (runningOf row)
      (by simp [runningOf, hstatus, hrow]), howed, hrows, List.count_append,
      List.count_cons, List.count_cons, List.count_nil]
    change _ = _ + (takenRows m.jobs stack).count row
    omega
  · intro k j'' hj''
    have hne : (Frame.dispatching i == .taken k) = false := rfl
    change _ + (Frame.dispatching i :: stack).count (.taken k) + _ = _
    rw [List.count_cons, hne]
    rw [List.getElem?_set] at hj''
    split at hj''
    · next heq =>
      subst heq
      have honce := h.once i j hj
      rw [hstack, List.count_cons_self] at honce
      cases hj''
      rw [← hj']
      simp only [queued, Bool.false_eq_true, if_false] at honce ⊢
      omega
    · next hik =>
      have honce := h.once k j'' hj''
      have hother : (Frame.taken i == .taken k) = false := by simpa using hik
      rw [hstack, List.count_cons, hother] at honce
      exact honce
  · intro hidle
    have hnone := h.idle hidle
    rw [List.any_eq_false] at hnone ⊢
    intro x hx
    rcases List.mem_or_eq_of_mem_set hx with hx | rfl
    · exact hnone x hx
    · have hold := hnone j (List.mem_of_getElem? hj)
      simpa [isActive, hstatus] using hold
  · have hends := h.ends
    unfold accounted at hends ⊢
    rw [hstack] at hends
    exact hends

theorem Sound.ended {m : BatchRunner P} (h : Sound m) {n : Nat}
    {stack : List Frame} (hstack : m.stack = .finishing n :: stack) :
    Sound { m with
      ended := m.ended ++ [n], stack := .finished :: stack } := by
  refine ⟨h.limit, h.inflight, h.capped, ?_, ?_, ?_, h.idle, ?_⟩
  · intro i hi
    refine h.valid i ?_
    rw [hstack]
    rcases List.mem_cons.mp hi with heq | hi
    · cases heq
    · exact List.mem_cons_of_mem _ hi
  · intro row
    have howed := h.owed row
    rw [hstack] at howed
    exact howed
  · intro i j hj
    have honce := h.once i j hj
    have hending : (Frame.finishing n == .taken i) = false := rfl
    have hfinished : (Frame.finished == .taken i) = false := rfl
    change _ + (Frame.finished :: stack).count (.taken i) + _ = _
    rw [hstack, List.count_cons, hending] at honce
    rw [List.count_cons, hfinished]
    exact honce
  · have hends := h.ends
    unfold accounted at hends ⊢
    rw [hstack] at hends
    simpa [ending] using hends

/-- A frame that holds no job and no batch is left. -/
theorem Sound.leave {m : BatchRunner P} (h : Sound m) {f : Frame}
    {stack : List Frame} (hstack : m.stack = f :: stack)
    (htaken : ∀ i, f ≠ .taken i) (hending : ∀ n, f ≠ .finishing n) :
    Sound { m with stack } := by
  refine h.frame (fun i => ?_) ?_ ?_
  · have hne : (f == .taken i) = false := by simpa using htaken i
    simp [hstack, List.count_cons, hne]
  · rw [hstack]
    cases f with
    | taken i => exact absurd rfl (htaken i)
    | _ => rfl
  · rw [hstack]
    cases f with
    | finishing n => exact absurd rfl (hending n)
    | _ => rfl

/-- A frame that does not look through the queue may be left asleep. -/
theorem Awake.leave {m : BatchRunner P} (h : Awake m) {f : Frame}
    {stack : List Frame} (hstack : m.stack = f :: stack)
    (hf : f.pumps = false) : Awake { m with stack } := by
  intro hrunning
  have hm := h hrunning
  rw [hstack, List.any_cons, hf, Bool.false_or] at hm
  exact hm

theorem resume_sound {m : BatchRunner P} (h : Sound m) (hawake : Awake m) :
    Sound m.resume ∧ Awake m.resume := by
  unfold BatchRunner.resume
  split
  · exact ⟨h, hawake⟩
  · next stack hstack =>
    have hleft := h.leave hstack nofun nofun
    exact ⟨hleft.pumpFrom 0, pumpQueue_awake hleft⟩
  · next i stack hstack =>
    have hlt := h.valid i (by rw [hstack]; exact List.mem_cons_self)
    rw [List.getElem?_eq_getElem hlt]
    refine ⟨h.dispatch hstack (List.getElem?_eq_getElem hlt), ?_⟩
    intro hrunning
    have hm := hawake hrunning
    rw [hstack] at hm
    exact hm
  · next i stack hstack =>
    have hleft := h.leave hstack nofun nofun
    exact ⟨hleft.pumpFrom _, pumpFrom_awake hleft _ (hawake.leave hstack rfl)⟩
  · next stack hstack =>
    have hleft := h.leave hstack nofun nofun
    split
    · exact ⟨hleft.pumpFrom 0, pumpQueue_awake hleft⟩
    · next hidle => exact ⟨hleft, fun hrunning => absurd hrunning hidle⟩
  · next n stack hstack =>
    refine ⟨h.ended hstack, ?_⟩
    intro hrunning
    have hm := hawake hrunning
    rw [hstack] at hm
    exact hm
  · next stack hstack =>
    exact ⟨h.leave hstack nofun nofun, hawake.leave hstack rfl⟩

theorem step_sound {m : BatchRunner P} (h : Sound m) (hawake : Awake m)
    (e : Event P) : Sound (step m e) ∧ Awake (step m e) := by
  cases e with
  | start rows action params =>
      refine ⟨h.start rows action params, ?_⟩
      rw [step]
      unfold BatchRunner.start
      split
      · exact hawake
      · exact fun _ => .inl rfl
  | retryFailed =>
      refine ⟨h.retryFailed, ?_⟩
      rw [step]
      unfold BatchRunner.retryFailed
      split
      · exact hawake
      · exact fun _ => .inl rfl
  | setMaxConcurrency n =>
      have hlimit : 1 ≤ (max 1 (min n 64)).toNat := by omega
      exact ⟨{ h with limit := hlimit }, hawake⟩
  | reply n r => exact ⟨h.reply n r, hawake.reply n r⟩
  | resume => exact resume_sound h hawake

/-! ## What the environment saw -/

/-- A job as it is counted from outside: the row that was asked for, how often
it was queued, and how often the dispatcher was called for it. -/
structure Entry where
  row : Int
  queued : Nat
  called : Nat
  deriving DecidableEq

/-- What the calls of a run come to: the jobs of the batch, the limit in force
when a job was last taken, how many batches were begun, and the batches whose
end was signalled. -/
structure Ledger where
  jobs : List Entry := []
  cap : Nat := 0
  begun : Nat := 0
  ended : List Nat := []
  deriving DecidableEq

/-- The call begins a batch. -/
def begins (m : BatchRunner P) : Event P → Bool
  | .start rows _ _ => !m.running && m.dispatcher && !rows.isEmpty
  | .retryFailed =>
      !m.running && m.dispatcher && m.jobs.any (·.status = .doneFailed)
  | _ => false

namespace Ledger

/-- A start queues every row once, a retry queues the jobs that have failed
once more. The dispatcher is called where a frame that has taken a job goes on,
and a reply for the job's row is owed from there. -/
def noteJobs (l : List Entry) (m : BatchRunner P) (e : Event P) : List Entry :=
  match e with
  | .start rows _ _ =>
      if begins m e then rows.map fun row => { row, queued := 1, called := 0 }
      else l
  | .retryFailed =>
      if begins m e then
        l.zipWith (fun n j => if j.status = .doneFailed then
          { n with queued := n.queued + 1 } else n) m.jobs
      else l
  | .resume =>
      match m.stack with
      | .taken i :: _ =>
          l.modify i fun n =>
            if (step m e).outstanding = m.outstanding ++ [n.row] then
              { n with called := n.called + 1 }
            else n
      | _ => l
  | _ => l

/-- `batchFinished` is behind `runningChanged` of the same frame. -/
def noteEnded (l : List Nat) (m : BatchRunner P) (e : Event P) : List Nat :=
  match e with
  | .resume =>
      match m.stack with
      | .finishing n :: _ => l ++ [n]
      | _ => l
  | _ => l

def note (l : Ledger) (m : BatchRunner P) (e : Event P) : Ledger where
  jobs := noteJobs l.jobs m e
  cap :=
    if m.jobs.countP isRunning < (step m e).jobs.countP isRunning then
      m.maxConcurrency
    else l.cap
  begun := if begins m e then l.begun + 1 else l.begun
  ended := noteEnded l.ended m e

end Ledger

def ledger (past : List (BatchRunner P × Event P)) : Ledger :=
  past.foldl (fun l x => l.note x.1 x.2) {}

def entryOf (j : Job) : Entry :=
  { row := j.row, queued := j.rounds, called := j.dispatches }

/-- The limit is noted where one more job runs than before. -/
def Limits (m d : BatchRunner P) : Prop :=
  d.cap = if m.inflight < d.inflight then m.maxConcurrency else m.cap

theorem Limits.quiet {m d : BatchRunner P} (hcap : d.cap = m.cap)
    (hinflight : d.inflight ≤ m.inflight) : Limits m d := by
  rw [Limits, hcap, if_neg (by omega)]

theorem Limits.pumpFrom {m b : BatchRunner P} (hcap : b.cap = m.cap)
    (hinflight : b.inflight = m.inflight)
    (hlimit : b.maxConcurrency = m.maxConcurrency) (i : Nat) :
    Limits m (b.pumpFrom i) := by
  unfold BatchRunner.pumpFrom
  split
  · have hmore : m.inflight < b.inflight + 1 := by omega
    exact hlimit.trans (if_pos hmore).symm
  · unfold BatchRunner.settle
    split <;> exact .quiet hcap (Int.le_of_eq hinflight)

/-- What the runner counts in a step is what the ledger notes of it. -/
structure Noted (m : BatchRunner P) (e : Event P) (d : BatchRunner P) :
    Prop where
  jobs : d.jobs.map entryOf = Ledger.noteJobs (m.jobs.map entryOf) m e
  limits : Limits m d
  begun : d.begun = if begins m e then m.begun + 1 else m.begun
  ended : d.ended = Ledger.noteEnded m.ended m e

/-- A frame of which the ledger notes nothing. -/
theorem Noted.resumed {m d : BatchRunner P} {f : Frame} {stack : List Frame}
    (hstack : m.stack = f :: stack) (htaken : ∀ i, f ≠ .taken i)
    (hending : ∀ n, f ≠ .finishing n)
    (hjobs : d.jobs.map entryOf = m.jobs.map entryOf) (hlimits : Limits m d)
    (hbegun : d.begun = m.begun) (hended : d.ended = m.ended) :
    Noted m .resume d := by
  refine ⟨?_, hlimits, hbegun, ?_⟩
  · rw [hjobs, Ledger.noteJobs, hstack]
    cases f with
    | taken i => exact absurd rfl (htaken i)
    | _ => rfl
  · rw [hended, Ledger.noteEnded, hstack]
    cases f with
    | finishing n => exact absurd rfl (hending n)
    | _ => rfl

/-- What the runner keeps for the statements is what the ledger says. -/
def kept (m : BatchRunner P) : Ledger where
  jobs := m.jobs.map entryOf
  cap := m.cap
  begun := m.begun
  ended := m.ended

theorem Sound.ended_nodup {m : BatchRunner P} (h : Sound m) :
    (accounted m).Nodup :=
  h.ends.nodup_iff.mpr List.nodup_range'

end QuMesh.App.BatchRunner
