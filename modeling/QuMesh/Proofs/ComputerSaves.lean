import QuMesh.App.ComputerModel
import QuMesh.Lib.JsonText
import QuMesh.Lib.Run

/-!
# The list of computers and its file

Every call of the model ends in one of four ways. It is refused, and the list
is what it was, whether the call was turned away before it changed anything or
took its change back; it finds nothing to do; it changes the list in memory,
where there is no store; or it saves, and then the file holds the list. That
is `call_outcome`, and everything that is said about runs of calls follows
from it: `edited` is what a call makes of the list where nothing fails.
-/

namespace QuMesh.App.ComputerModel

open QuMesh.Lib

variable {json : JsonText} {aes : AesCtr}

/-- What a call makes of the rows. -/
def edited (a : Platform) (rows : List Computer) : Call → List Computer
  | .setData row value role =>
      match rowOf rows row, roleEdit value role with
      | some i, some edit => rows.modify i edit
      | _, _ => rows
  | .addTrustedFingerprint row fingerprint =>
      match rowOf rows row with
      | some i =>
          if (rows[i]?).any (·.trustedFingerprints.contains fingerprint) then
            rows
          else
            rows.modify i fun c => { c with
              trustedFingerprints := c.trustedFingerprints ++ [fingerprint] }
      | none => rows
  | .setSshConfig row cfg =>
      match rowOf rows row with
      | some i => rows.modify i (sshEdit cfg)
      | none => rows
  | .addTrustedSshHostKey row fingerprint =>
      match rowOf rows row with
      | some i =>
          if (rows[i]?).any
              (·.sshTrustedHostKeyFingerprints.contains fingerprint) then
            rows
          else
            rows.modify i fun c => { c with
              sshTrustedHostKeyFingerprints :=
                c.sshTrustedHostKeyFingerprints ++ [fingerprint] }
      | none => rows
  | .addComputer name host user pass tls =>
      rows ++ [{ id := a.fresh 0, name, host, user, pass, tls }]
  | .removeAt row =>
      match rowOf rows row with
      | some i => rows.eraseIdx i
      | none => rows
  | .applyImport plan => applyEntries a.fresh 0 rows plan

/-- What a call comes to: whether it reports success, and the model. -/
inductive Outcome (json : JsonText) (aes : AesCtr) (a : Platform)
    (m : ComputerModel) (rows : List Computer) : Bool × ComputerModel → Prop
  | refused (m' : ComputerModel) (hattached : m'.attached = m.attached)
      (hcomputers : m'.computers = m.computers)
      (hfile : m'.store.file = m.store.file)
      (hsaves : m'.store.saves = m.store.saves) :
      Outcome json aes a m rows (false, m')
  | idle (hrows : rows = m.computers) : Outcome json aes a m rows (true, m)
  | inMemory (hattached : m.attached = false) :
      Outcome json aes a m rows (true, { m with computers := rows })
  | saved (m' : ComputerModel) (hbefore : m.attached = true)
      (hattached : m'.attached = true) (hcomputers : m'.computers = rows)
      (hfile : m'.store.file =
        some (json.print false (.arr (toJsonArray aes a rows))))
      (hsaves : m'.store.saves = m.store.saves ++ [toJsonArray aes a rows]) :
      Outcome json aes a m rows (true, m')

theorem saveComputers_cases (s : ConfigStore) (arr : List Json) (w : Writing) :
    (∃ s', s.saveComputers json arr w = (false, s') ∧ s'.file = s.file ∧
      s'.saves = s.saves) ∨
    ∃ s', s.saveComputers json arr w = (true, s') ∧
      s'.file = some (json.print false (.arr arr)) ∧
      s'.saves = s.saves ++ [arr] := by
  unfold ConfigStore.saveComputers ConfigStore.writeFile
  cases w with
  | done => exact .inr ⟨_, rfl, rfl, rfl⟩
  | noDir | refused | short | uncommitted => exact .inl ⟨_, rfl, rfl, rfl⟩

/-- A change that is taken back exactly where it cannot be saved. -/
theorem mutate_outcome {a : Platform} {m : ComputerModel}
    (change undo : List Computer → List Computer)
    (hundo : undo (change m.computers) = m.computers) :
    Outcome json aes a m (change m.computers)
      (m.mutate json aes a change undo) := by
  unfold mutate persist
  dsimp only
  by_cases hattached : m.attached = true
  · rw [if_neg (by simp [hattached])]
    rcases saveComputers_cases m.store
        (toJsonArray aes a (change m.computers)) a.writing with
      ⟨s', hsave, hfile, hsaves⟩ | ⟨s', hsave, hfile, hsaves⟩
    · rw [hsave]
      exact .refused _ rfl hundo hfile hsaves
    · rw [hsave]
      exact .saved _ hattached hattached rfl hfile hsaves
  · rw [if_pos (by simp [hattached])]
    exact .inMemory (by simpa using hattached)

theorem rowOf_some {rows : List Computer} {row : Int} {i : Nat}
    (h : rowOf rows row = some i) : i < rows.length := by
  unfold rowOf at h
  split at h
  · cases h
    omega
  · cases h

/-- A row put back after it was removed. -/
theorem insertIdx_eraseIdx_self {α : Type} {l : List α} {i : Nat} {x : α}
    (h : l[i]? = some x) : (l.eraseIdx i).insertIdx i x = l := by
  induction l generalizing i with
  | nil => cases h
  | cons y l ih =>
      cases i with
      | zero =>
          cases h
          rfl
      | succ i =>
          rw [List.getElem?_cons_succ] at h
          rw [List.eraseIdx_cons_succ, List.insertIdx_succ_cons, ih h]

/-- A row put back after it was edited. -/
theorem set_modify_self {α : Type} {l : List α} {i : Nat} {x : α}
    (h : l[i]? = some x) (f : α → α) : (l.modify i f).set i x = l := by
  induction l generalizing i with
  | nil => cases h
  | cons y l ih =>
      cases i with
      | zero =>
          cases h
          rfl
      | succ i =>
          rw [List.getElem?_cons_succ] at h
          rw [List.modify_succ_cons, List.set_cons_succ, ih h]

theorem editRow_outcome {a : Platform} {m : ComputerModel} {i : Nat}
    (hi : i < m.computers.length) (edit : Computer → Computer) :
    Outcome json aes a m (m.computers.modify i edit)
      (m.editRow json aes a i edit) := by
  have hsome := List.getElem?_eq_getElem hi
  rw [editRow, hsome]
  exact mutate_outcome (·.modify i edit) (·.set i _)
    (set_modify_self hsome edit)

/-- A call that was turned away. -/
theorem Outcome.rejected {a : Platform} {m : ComputerModel}
    {rows : List Computer} : Outcome json aes a m rows (false, m) :=
  .refused m rfl rfl rfl rfl

theorem call_outcome (c : Call) (a : Platform) (m : ComputerModel) :
    Outcome json aes a m (edited a m.computers c) (m.call json aes c a) := by
  cases c with
  | setData row value role =>
      rw [call, setData, edited]
      cases hrow : rowOf m.computers row with
      | none => exact .rejected
      | some i =>
          cases hrole : roleEdit value role with
          | none => exact .rejected
          | some edit => exact editRow_outcome (rowOf_some hrow) edit
  | addTrustedFingerprint row fingerprint =>
      rw [call, addTrustedFingerprint, edited]
      cases hrow : rowOf m.computers row with
      | none => exact .rejected
      | some i =>
          dsimp only
          split
          · exact .idle rfl
          · exact editRow_outcome (rowOf_some hrow) _
  | setSshConfig row cfg =>
      rw [call, setSshConfig, edited]
      cases hrow : rowOf m.computers row with
      | none => exact .rejected
      | some i => exact editRow_outcome (rowOf_some hrow) _
  | addTrustedSshHostKey row fingerprint =>
      rw [call, addTrustedSshHostKey, edited]
      cases hrow : rowOf m.computers row with
      | none => exact .rejected
      | some i =>
          dsimp only
          split
          · exact .idle rfl
          · exact editRow_outcome (rowOf_some hrow) _
  | addComputer name host user pass tls =>
      let c : Computer := { id := a.fresh 0, name, host, user, pass, tls }
      have hmutate : Outcome json aes a m (m.computers ++ [c])
          (m.mutate json aes a (· ++ [c]) List.dropLast) :=
        mutate_outcome (· ++ [c]) List.dropLast List.dropLast_concat
      rw [call, addComputer, edited]
      dsimp only
      generalize m.mutate json aes a _ _ = r at hmutate
      obtain ⟨ok, m'⟩ := r
      cases ok with
      | false => exact hmutate
      | true =>
          have hrow : ((m.computers.length : Int) ≠ -1) = True := by
            simp only [ne_eq, eq_iff_iff, iff_true]
            omega
          simp only [hrow, decide_true]
          exact hmutate
  | removeAt row =>
      rw [call, removeAt, edited]
      cases hrow : rowOf m.computers row with
      | none => exact .rejected
      | some i =>
          have hsome := List.getElem?_eq_getElem (rowOf_some hrow)
          simp only [hsome]
          exact mutate_outcome (·.eraseIdx i) (·.insertIdx i _)
            (insertIdx_eraseIdx_self hsome)
  | applyImport plan =>
      exact mutate_outcome (fun rows => applyEntries a.fresh 0 rows plan)
        (fun _ => m.computers) rfl

/-! ## Loads -/

/-- A load of a file that reads in full. -/
theorem loadComputers_whole {s : ConfigStore} {b : Bytes} {items : List Json}
    (hfile : s.file = some b) (hb : b ≠ [])
    (hparse : json.parse b = .ok (.arr items)) :
    (s.loadComputers json (.data none)).1 = items ∧
      (s.loadComputers json (.data none)).2.file = some b := by
  simp [ConfigStore.loadComputers, ConfigStore.readFile, hfile, hb, hparse]

/-! ## Runs of calls -/

def step (json : JsonText) (aes : AesCtr) (m : ComputerModel)
    (e : Call × Platform) : ComputerModel :=
  (m.call json aes e.1 e.2).2

/-- The call puts an array in the file. -/
def Saves (json : JsonText) (aes : AesCtr)
    (x : ComputerModel × (Call × Platform)) : Bool :=
  x.1.store.saves.length < (step json aes x.1 x.2).store.saves.length

/-- What the platform answered the last call that did. -/
def lastSaved (json : JsonText) (aes : AesCtr)
    (past : List (ComputerModel × (Call × Platform))) : Option Platform :=
  (past.filter (Saves json aes)).getLast?.map fun x => x.2.2

/-- The array last passed to a save that succeeded is the JSON of the list,
under the answers that save was given, and the file is its text. Where none
succeeded, list and file are what they were. -/
def Current (json : JsonText) (aes : AesCtr) (old : ComputerModel)
    (past : List (ComputerModel × (Call × Platform))) (m : ComputerModel) :
    Prop :=
  match lastSaved json aes past with
  | some a =>
      m.store.saves.getLast? = some (toJsonArray aes a m.computers) ∧
        m.store.file =
          some (json.print false (.arr (toJsonArray aes a m.computers)))
  | none => m.computers = old.computers ∧ m.store.file = old.store.file

theorem lastSaved_saves {past : List (ComputerModel × (Call × Platform))}
    {x : ComputerModel × (Call × Platform)} (h : Saves json aes x = true) :
    lastSaved json aes (past ++ [x]) = some x.2.2 := by
  rw [lastSaved, last_filter_pos past h, Option.map_some]

theorem lastSaved_quiet {past : List (ComputerModel × (Call × Platform))}
    {x : ComputerModel × (Call × Platform)} (h : Saves json aes x = false) :
    lastSaved json aes (past ++ [x]) = lastSaved json aes past := by
  rw [lastSaved, last_filter_neg past h, lastSaved]

/-- A call that saves nothing keeps the list and the file. -/
theorem Current.quiet {old m m' : ComputerModel}
    {past : List (ComputerModel × (Call × Platform))} {e : Call × Platform}
    (h : Current json aes old past m) (hstep : step json aes m e = m')
    (hcomputers : m'.computers = m.computers)
    (hfile : m'.store.file = m.store.file)
    (hsaves : m'.store.saves = m.store.saves) :
    Current json aes old (past ++ [(m, e)]) m' := by
  have hquiet : Saves json aes (m, e) = false := by
    rw [Saves, hstep, hsaves]
    exact decide_eq_false (Nat.lt_irrefl _)
  rw [Current, lastSaved_quiet hquiet, hcomputers, hfile, hsaves]
  exact h

/-- What every call keeps, where there is a store. -/
theorem Current.step {old m : ComputerModel}
    {past : List (ComputerModel × (Call × Platform))}
    (hattached : m.attached = true) (h : Current json aes old past m)
    (e : Call × Platform) :
    (ComputerModel.step json aes m e).attached = true ∧
      Current json aes old (past ++ [(m, e)])
        (ComputerModel.step json aes m e) := by
  obtain ⟨c, a⟩ := e
  have houtcome : Outcome json aes _ _ _ _ := call_outcome c a m
  have hstep : ComputerModel.step json aes m (c, a) =
      (m.call json aes c a).2 := rfl
  generalize m.call json aes c a = r at houtcome hstep
  rw [hstep]
  cases houtcome with
  | refused m' hsame hcomputers hfile hsaves =>
      exact ⟨hsame.trans hattached, h.quiet hstep hcomputers hfile hsaves⟩
  | idle => exact ⟨hattached, h.quiet hstep rfl rfl rfl⟩
  | inMemory hnone =>
      rw [hattached] at hnone
      cases hnone
  | saved m' _ hafter hcomputers hfile hsaves =>
      refine ⟨hafter, ?_⟩
      have hsaved : Saves json aes (m, c, a) = true := by
        rw [Saves, hstep, hsaves, List.length_append]
        exact decide_eq_true (Nat.lt_succ_self _)
      rw [Current, lastSaved_saves hsaved]
      dsimp only
      rw [hcomputers, hsaves, List.getLast?_concat]
      exact ⟨rfl, hfile⟩

theorem call_failed {c : Call} {a : Platform} {m : ComputerModel}
    (h : (m.call json aes c a).1 = false) :
    (m.call json aes c a).2.computers = m.computers := by
  have houtcome : Outcome json aes _ _ _ _ := call_outcome c a m
  generalize m.call json aes c a = r at houtcome h ⊢
  cases houtcome with
  | refused m' _ hcomputers _ _ => exact hcomputers
  | idle => cases h
  | inMemory => cases h
  | saved => cases h

/-- In any run of calls, with any outcome of the saves, a call that reports
failure leaves the list as it was; and where there is a store, the list and
the file are the same after every call. -/
theorem saves_atomic (json : JsonText) (aes : AesCtr) (m : ComputerModel)
    (es : List (Call × Platform)) :
    (∀ x ∈ trail (step json aes) m es,
      (x.1.call json aes x.2.1 x.2.2).1 = false →
        (step json aes x.1 x.2).computers = x.1.computers) ∧
    (m.attached = true → ∀ early, early <+: es →
      Current json aes m (trail (step json aes) m early)
        (run (step json aes) m early)) := by
  refine ⟨fun x _ => call_failed, fun hattached early _ => ?_⟩
  have hkeeps (past : List (ComputerModel × Call × Platform))
      (d : ComputerModel) (e : Call × Platform)
      (h : d.attached = true ∧ Current json aes m past d) :
      (step json aes d e).attached = true ∧
        Current json aes m (past ++ [(d, e)]) (step json aes d e) :=
    h.2.step h.1 e
  have hrun := history (fun past d => d.attached = true ∧
    Current json aes m past d) hkeeps early ⟨hattached, rfl, rfl⟩
  exact hrun.2

/-- The platform with the master key at hand, and one uuid. -/
private def keyed : Platform where
  fresh := fun _ => .lit "1"
  secrets := fun _ _ =>
    { masterKey := List.replicate SecretCodec.kAesKeyLen 0
      v3Iv := some ⟨List.replicate SecretCodec.kAesIvLen 1, by decide⟩ }

/-- A computer is added, and its removal cannot be written out. -/
private def addAndKeep : List (Call × Platform) :=
  [(.addComputer (.lit "a") (.lit "h") (.lit "u") (.lit "p") true, keyed),
    (.removeAt 0, { writing := .short "disk full" })]

/-- The removal leaves the list as it was, and the file holds the computer
with its secrets as the platform had them wrapped when it was added. -/
theorem saves_atomic_removal :
    let step := step qtJson SecretCodec.zeroStream
    let m : ComputerModel := { attached := true }
    (run step m addAndKeep).computers.map (·.id) = [.lit "1"] ∧
      (run step m addAndKeep).store.file = some (qtJson.print false
        (.arr (toJsonArray SecretCodec.zeroStream keyed
          (run step m addAndKeep).computers))) := by
  refine ⟨by decide, ?_⟩
  have hcurrent := (saves_atomic qtJson SecretCodec.zeroStream
    { attached := true } addAndKeep).2 rfl addAndKeep List.prefix_rfl
  have hlast : lastSaved qtJson SecretCodec.zeroStream
      (trail (step qtJson SecretCodec.zeroStream) { attached := true }
        addAndKeep) = some keyed := rfl
  rw [Current, hlast] at hcurrent
  exact hcurrent.2

end QuMesh.App.ComputerModel
