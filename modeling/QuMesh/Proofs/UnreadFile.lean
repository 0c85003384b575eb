import QuMesh.App.CertModel
import QuMesh.Proofs.ComputerSaves

/-!
# Files that were not read

Both lists are written out as a whole, so a save is safe where the list stands
for everything in the file it replaces. `Stands` says that of the list the
model has: every record of the file is one of its rows, read from it by the
last load or written to it by the last save. A save makes it true, whatever
the file was; what can make it false is a load. A load that reports an error,
or that passes over a record, leaves a list that does not stand for the file,
and nothing keeps the next call from saving it.
-/

namespace QuMesh.App

open QuMesh.Lib

variable {json : JsonText} {aes : AesCtr} {p : CertParser}

/-- The file is there with nothing in it, or it is an array of records that
the list stands for. -/
def Covered (json : JsonText) (file : Option Bytes)
    (stands : List Json → Prop) : Prop :=
  ∀ b ∈ file, b = [] ∨ ∃ items, json.parse b = .ok (.arr items) ∧ stands items

theorem covered_saved {stands : List Json → Prop} {arr : List Json}
    (h : stands arr) : Covered json (some (json.print false (.arr arr))) stands := by
  rintro b ⟨⟩
  exact .inr ⟨arr, json.parse_arr false arr, h⟩

/-- A load finds no file, or nothing in it, or reads in full a JSON array of
records that satisfy a condition. -/
def Readable (json : JsonText) (ok : Json → Bool) (file : Option Bytes)
    (r : Reading) : Prop :=
  ∀ b ∈ file, b = [] ∨
    r = .data none ∧ ∃ items, json.parse b = .ok (.arr items) ∧ items.all ok

theorem Readable.covered {ok : Json → Bool} {file : Option Bytes}
    {r : Reading} (h : Readable json ok file r) {stands : List Json → Prop}
    (hstands : ∀ b items, file = some b → b ≠ [] → r = .data none →
      json.parse b = .ok (.arr items) → items.all ok → stands items) :
    Covered json file stands := by
  intro b hb
  rcases h b hb with hnil | ⟨hr, items, hparse, hall⟩
  · exact .inl hnil
  · by_cases hnil : b = []
    · exact .inl hnil
    · exact .inr ⟨items, hparse, hstands b items hb hnil hr hparse hall⟩

/-- Where every record is taken, what is taken is every record. -/
theorem map_some_filterMap {α : Type} {l : List (Option α)}
    (h : ∀ o ∈ l, o.isSome) : (l.filterMap id).map some = l := by
  induction l with
  | nil => rfl
  | cons o l ih =>
      rw [List.forall_mem_cons] at h
      obtain ⟨x, rfl⟩ := Option.isSome_iff_exists.mp h.1
      have hhead : id (some x) = some x := rfl
      rw [List.filterMap_cons_some hhead, List.map_cons, ih h.2]

namespace ComputerModel

/-- The event replaces the file. -/
def Replaces (json : JsonText) (aes : AesCtr) (m : ComputerModel)
    (e : Event × Platform) : Prop :=
  m.store.saves.length < (m.handle json aes e).store.saves.length

instance (m : ComputerModel) (e : Event × Platform) :
    Decidable (Replaces json aes m e) := Nat.decLt _ _

/-- The event takes the list from the file, or puts it there. -/
def Syncs (json : JsonText) (aes : AesCtr)
    (x : ComputerModel × (Event × Platform)) : Bool :=
  match x.2.1 with
  | .setStore present => present
  | .call _ => Replaces json aes x.1 x.2

/-- What the platform answered the last event that did. -/
def lastSynced (json : JsonText) (aes : AesCtr)
    (past : List (ComputerModel × (Event × Platform))) : Option Platform :=
  (past.filter (Syncs json aes)).getLast?.map fun x => x.2.2

/-- Each record reads as the row in its place, or was written from it. -/
def StandsFor (aes : AesCtr) (a : Platform) (rows : List Computer)
    (items : List Json) : Prop :=
  items.mapIdx (loadRow aes a) = rows.map some ∨ items = toJsonArray aes a rows

/-- The list stands for the file, under the answers of the last event that
made them one. -/
def Stands (json : JsonText) (aes : AesCtr)
    (past : List (ComputerModel × (Event × Platform))) (m : ComputerModel) :
    Prop :=
  ∃ a ∈ lastSynced json aes past,
    Covered json m.store.file (StandsFor aes a m.computers)

/-- Where the event is a load, it takes every record of the file. -/
def TakesAll (json : JsonText) (m : ComputerModel) :
    Event × Platform → Prop
  | (.setStore true, a) => Readable json Json.isObject m.store.file a.reading
  | _ => True

theorem loadComputers_same (s : ConfigStore) (r : Reading) :
    (s.loadComputers json r).2.file = s.file ∧
      (s.loadComputers json r).2.saves = s.saves := by
  have hread : (s.readFile ConfigStore.kComputersFile r).2.file = s.file ∧
      (s.readFile ConfigStore.kComputersFile r).2.saves = s.saves := by
    unfold ConfigStore.readFile
    cases hs : s.file with
    | none => simp only [and_self]
    | some b => rcases r with _ | _ | _ | _ <;> simp only [and_self]
  unfold ConfigStore.loadComputers
  dsimp only
  split
  · exact hread
  · split <;> exact hread

theorem loadRow_object {a : Platform} {i : Nat} {v : Json}
    (h : v.isObject = true) : (loadRow aes a i v).isSome := by
  cases v with
  | obj fields => rfl
  | _ => cases h

/-- A load of objects makes a row of each. -/
theorem setStore_rows {a : Platform} {m : ComputerModel} {b : Bytes}
    {items : List Json} (hfile : m.store.file = some b) (hb : b ≠ [])
    (hr : a.reading = .data none) (hparse : json.parse b = .ok (.arr items))
    (hall : items.all Json.isObject) :
    items.mapIdx (loadRow aes a) =
      (m.setStore json aes a true).computers.map some := by
  have hrows : (m.setStore json aes a true).computers =
      (((m.store.loadComputers json a.reading).1).mapIdx
        (loadRow aes a)).filterMap id := rfl
  rw [hrows, hr, (loadComputers_whole hfile hb hparse).1]
  refine (map_some_filterMap fun o ho => ?_).symm
  obtain ⟨i, hi, rfl⟩ := List.mem_mapIdx.mp ho
  exact loadRow_object (List.all_eq_true.mp hall _ (List.getElem_mem hi))

theorem lastSynced_syncs {past : List (ComputerModel × (Event × Platform))}
    {x : ComputerModel × (Event × Platform)} (h : Syncs json aes x = true) :
    lastSynced json aes (past ++ [x]) = some x.2.2 := by
  rw [lastSynced, last_filter_pos past h, Option.map_some]

theorem lastSynced_quiet {past : List (ComputerModel × (Event × Platform))}
    {x : ComputerModel × (Event × Platform)} (h : Syncs json aes x = false) :
    lastSynced json aes (past ++ [x]) = lastSynced json aes past := by
  rw [lastSynced, last_filter_neg past h, lastSynced]

/-- An event that neither loads nor saves, and keeps the list and the file. -/
theorem Stands.quiet {past : List (ComputerModel × (Event × Platform))}
    {m m' : ComputerModel} {e : Event × Platform}
    (h : Stands json aes past m) (hquiet : Syncs json aes (m, e) = false)
    (hcomputers : m'.computers = m.computers)
    (hfile : m'.store.file = m.store.file) :
    Stands json aes (past ++ [(m, e)]) m' := by
  rw [Stands, lastSynced_quiet hquiet, hcomputers, hfile]
  exact h

/-- While there is a store, the list stands for the file. -/
theorem stands_step {past : List (ComputerModel × (Event × Platform))}
    {m : ComputerModel} {e : Event × Platform}
    (h : m.attached = true → Stands json aes past m) (he : TakesAll json m e)
    (hattached : (m.handle json aes e).attached = true) :
    Stands json aes (past ++ [(m, e)]) (m.handle json aes e) := by
  obtain ⟨e, a⟩ := e
  cases e with
  | setStore present =>
      cases present with
      | false => cases hattached
      | true =>
          have hsync : Syncs json aes (m, (.setStore true, a)) = true := rfl
          refine ⟨a, lastSynced_syncs hsync, ?_⟩
          have hfile : (m.handle json aes (.setStore true, a)).store.file =
              m.store.file := (loadComputers_same m.store a.reading).1
          rw [hfile]
          refine Readable.covered he fun b items hb hnil hr hparse hall => ?_
          exact .inl (setStore_rows hb hnil hr hparse hall)
  | call c =>
      have houtcome : Outcome json aes _ _ _ _ := call_outcome c a m
      have hhandle : m.handle json aes (.call c, a) = (m.call json aes c a).2 :=
        rfl
      have hsyncs : Syncs json aes (m, (.call c, a)) =
          decide (m.store.saves.length <
            (m.call json aes c a).2.store.saves.length) := rfl
      rw [hhandle] at hattached ⊢
      generalize m.call json aes c a = r at houtcome hattached hsyncs ⊢
      have hidle {m' : ComputerModel} (hr : r.2 = m')
          (hsaves : m'.store.saves = m.store.saves) :
          Syncs json aes (m, (.call c, a)) = false := by
        rw [hsyncs, hr, hsaves]
        exact decide_eq_false (Nat.lt_irrefl _)
      cases houtcome with
      | refused m' hsame hcomputers hfile hsaves =>
          exact (h (hsame.symm.trans hattached)).quiet (hidle rfl hsaves)
            hcomputers hfile
      | idle => exact (h hattached).quiet (hidle rfl rfl) rfl rfl
      | inMemory hnone =>
          rw [hnone] at hattached
          cases hattached
      | saved m' _ _ hcomputers hfile hsaves =>
          have hsync : Syncs json aes (m, (.call c, a)) = true := by
            rw [hsyncs, hsaves, List.length_append]
            exact decide_eq_true (Nat.lt_succ_self _)
          refine ⟨a, lastSynced_syncs hsync, ?_⟩
          rw [hfile, hcomputers]
          exact covered_saved (.inr rfl)

/-- Only where there is a store is the file replaced. -/
theorem replaces_attached {m : ComputerModel} {e : Event × Platform}
    (h : Replaces json aes m e) : m.attached = true := by
  obtain ⟨e, a⟩ := e
  cases e with
  | setStore present =>
      have hsaves : (m.handle json aes (.setStore present, a)).store.saves =
          m.store.saves := by
        cases present with
        | false => rfl
        | true => exact (loadComputers_same m.store a.reading).2
      rw [Replaces, hsaves] at h
      exact absurd h (Nat.lt_irrefl _)
  | call c =>
      have houtcome : Outcome json aes _ _ _ _ := call_outcome c a m
      rw [Replaces, handle] at h
      generalize m.call json aes c a = r at houtcome h
      cases houtcome with
      | refused m' _ _ _ hsaves =>
          rw [hsaves] at h
          exact absurd h (Nat.lt_irrefl _)
      | idle _ => exact absurd h (Nat.lt_irrefl _)
      | inMemory _ => exact absurd h (Nat.lt_irrefl _)
      | saved m' hbefore => exact hbefore

/-- In front of an event that replaces the file, the list stands for it. -/
theorem stands_before {m : ComputerModel} {early : List (Event × Platform)}
    {e : Event × Platform} (hattached : m.attached = false)
    (hloads : ∀ x ∈ trail (handle json aes) m early, TakesAll json x.1 x.2)
    (h : Replaces json aes (run (handle json aes) m early) e) :
    Stands json aes (trail (handle json aes) m early)
      (run (handle json aes) m early) := by
  have hstands := (GuardedFrom.of_trail [] hloads).history
    (fun past d => d.attached = true → Stands json aes past d)
    (fun _ _ _ hd he hafter => stands_step hd he hafter) fun hat => by
      rw [hattached] at hat
      cases hat
  exact hstands (replaces_attached h)

end ComputerModel

namespace CertModel

/-- The event replaces the file. -/
def Replaces (json : JsonText) (p : CertParser) (m : CertModel) (e : Event) :
    Prop :=
  m.store.saves.length < (m.handle json p e).store.saves.length

instance (m : CertModel) (e : Event) : Decidable (Replaces json p m e) :=
  Nat.decLt _ _

/-- Each record reads as the entry in its place, or was written from it. -/
def StandsFor (p : CertParser) (entries : List CertEntry) (items : List Json) :
    Prop :=
  items.map (CertStore.loadEntry p) = entries.map some ∨
    items = CertStore.toJsonArray entries

/-- The list stands for the file. -/
def Stands (json : JsonText) (p : CertParser) (m : CertModel) : Prop :=
  Covered json m.store.file (StandsFor p m.store.entries)

/-- Where the event is a load, it takes every record of the file. -/
def TakesAll (json : JsonText) (p : CertParser) (m : CertModel) :
    Event → Prop
  | .setStorePath r | .reload r =>
      Readable json (fun v => (CertStore.loadEntry p v).isSome) m.store.file r
  | _ => True

theorem load_same (s : CertStore) (r : Reading) :
    (s.load json p r).2.file = s.file ∧ (s.load json p r).2.saves = s.saves := by
  unfold CertStore.load
  split <;> exact ⟨rfl, rfl⟩

/-- A load of records with a certificate makes an entry of each. -/
theorem load_covered {s : CertStore} {r : Reading}
    (h : Readable json (fun v => (CertStore.loadEntry p v).isSome) s.file r) :
    Covered json (s.load json p r).2.file
      (StandsFor p (s.load json p r).2.entries) := by
  rw [(load_same s r).1]
  refine h.covered fun b items hb hnil hr hparse hall => .inl ?_
  have hread : s.readArray json r = .ok items := by
    simp only [CertStore.readArray, hb, hr, Option.map_none, Option.getD_none,
      List.isEmpty_iff, hnil, if_false, hparse]
  have hentries : (s.load json p r).2.entries =
      (items.map (CertStore.loadEntry p)).filterMap id := by
    rw [CertStore.load, hread, List.filterMap_map]
    rfl
  rw [hentries]
  refine (map_some_filterMap fun o ho => ?_).symm
  obtain ⟨v, hv, rfl⟩ := List.mem_map.mp ho
  exact List.all_eq_true.mp hall v hv

/-- A save fails, or puts the entries in the file. -/
theorem save_cases (s : CertStore) (w : Writing) :
    (∃ reason s', s.save json w = (some reason, s')) ∨
    ∃ s', s.save json w = (none, s') ∧ s'.entries = s.entries ∧
      s'.file = some (json.print false (.arr (CertStore.toJsonArray s.entries))) := by
  cases w with
  | done => exact .inr ⟨_, rfl, rfl, rfl⟩
  | noDir | refused | short | uncommitted => exact .inl ⟨_, _, rfl⟩

/-- An event that is no load leaves list and file alone, or puts the list in
the file. -/
inductive Written (json : JsonText) (s : CertStore) : CertStore → Prop
  | kept : Written json s s
  | saved {s' : CertStore}
      (hfile : s'.file =
        some (json.print false (.arr (CertStore.toJsonArray s'.entries)))) :
      Written json s s'

theorem Written.of_save {s next s' : CertStore} {w : Writing}
    (h : next.save json w = (none, s')) : Written json s s' := by
  have hcases : (∃ reason s', next.save json w = (some reason, s')) ∨ _ :=
    save_cases next w
  rcases hcases with ⟨reason, t, hsave⟩ | ⟨t, hsave, hentries, hfile⟩
  · rw [h] at hsave
    cases hsave
  · rw [h] at hsave
    cases hsave
    rw [← hentries] at hfile
    exact .saved hfile

theorem importFromFile_written (w : Writing) (source : Except String Bytes)
    (suffix : String) (password : Text) (m : CertModel) :
    Written json m.store
      (m.importFromFile json p w source suffix password).2.store := by
  unfold importFromFile
  dsimp only
  split
  · exact .kept
  · next bytes =>
    generalize parseFile p suffix bytes password = parsed
    obtain ⟨e, parseErr⟩ := parsed
    dsimp only
    split
    · exact .kept
    · split
      · exact .kept
      · next store hsave => exact .of_save hsave

theorem removeAt_written (w : Writing) (row : Int) (m : CertModel) :
    Written json m.store (m.removeAt json w row).2.store := by
  unfold removeAt
  split
  · exact .kept
  · dsimp only
    split
    · exact .kept
    · next store hsave => exact .of_save hsave

theorem Written.stands {s s' : CertStore} (h : Written json s s')
    (hs : Covered json s.file (StandsFor p s.entries)) :
    Covered json s'.file (StandsFor p s'.entries) := by
  cases h with
  | kept => exact hs
  | saved hfile =>
      rw [hfile]
      exact covered_saved (.inr rfl)

/-- A load makes the list stand for the file, whatever it stood for. -/
theorem setStorePath_stands {m : CertModel} {r : Reading}
    (h : TakesAll json p m (.setStorePath r)) :
    Stands json p (m.setStorePath json p r) := by
  have hstore : (m.setStorePath json p r).store = (m.store.load json p r).2 := by
    unfold setStorePath
    split <;> next heq => rw [heq]
  rw [Stands, hstore]
  exact load_covered h

theorem setStorePath_keeps (m : CertModel) (r : Reading) :
    ¬Replaces json p m (.setStorePath r) := by
  have hsaves : (m.setStorePath json p r).store.saves = m.store.saves := by
    have hsame : (m.store.load json p r).2.file = m.store.file ∧ _ :=
      load_same m.store r
    unfold setStorePath
    split <;> next heq => rw [heq] at hsame; exact hsame.2
  rw [Replaces, handle, hsaves]
  exact Nat.lt_irrefl _

theorem stands_step {m : CertModel} {e : Event} (h : Stands json p m)
    (he : TakesAll json p m e) : Stands json p (m.handle json p e) := by
  cases e with
  | setStorePath r => exact setStorePath_stands he
  | reload r => exact load_covered he
  | importFromFile w source suffix password =>
      exact (importFromFile_written w source suffix password m).stands h
  | removeAt w row => exact (removeAt_written w row m).stands h

end CertModel

/-- In every run in which each load takes every record of its file, a file
that is replaced has no records but those the list stands for. -/
theorem unread_file_kept (json : JsonText) (aes : AesCtr) (p : CertParser) :
    (∀ (m : ComputerModel) (es : List (ComputerModel.Event × Platform)),
      m.attached = false →
      (∀ x ∈ trail (ComputerModel.handle json aes) m es,
        ComputerModel.TakesAll json x.1 x.2) →
      ∀ early e, early ++ [e] <+: es →
        ComputerModel.Replaces json aes
          (run (ComputerModel.handle json aes) m early) e →
        ComputerModel.Stands json aes
          (trail (ComputerModel.handle json aes) m early)
          (run (ComputerModel.handle json aes) m early)) ∧
    ∀ (m : CertModel) (r : Reading) (es : List CertModel.Event),
      (∀ x ∈ trail (CertModel.handle json p) m (.setStorePath r :: es),
        CertModel.TakesAll json p x.1 x.2) →
      ∀ x ∈ trail (CertModel.handle json p) m (.setStorePath r :: es),
        CertModel.Replaces json p x.1 x.2 → CertModel.Stands json p x.1 := by
  constructor
  · intro m es hattached hloads early e hearly hreplaces
    obtain ⟨late, rfl⟩ := hearly
    refine ComputerModel.stands_before hattached (fun x hx => ?_) hreplaces
    rw [List.append_assoc, trail_append] at hloads
    exact hloads x (List.mem_append_left _ hx)
  · intro m r es hloads x hx hreplaces
    rw [trail_cons, List.forall_mem_cons] at hloads
    rcases List.mem_cons.mp hx with rfl | hx
    · exact absurd hreplaces (CertModel.setStorePath_keeps m r)
    · exact invariant_on_trail (fun _ _ => CertModel.stands_step)
        (CertModel.setStorePath_stands hloads.1) hloads.2 x hx

/-- A parser that finds no certificate anywhere. -/
def noCerts : CertParser where
  isoDate date := date
  metadata _ := none
  fromPkcs12 _ _ := ({}, "")
  fromPem _ := ({}, "")
  fromDer _ := ({}, "")

/-- A computer to add. -/
def newComputer : ComputerModel.Event :=
  .call (.addComputer (.lit "b") (.lit "i") .empty .empty false)

/-- A model that is about to be given a store, with one computer in its file. -/
private def oneComputer : ComputerModel :=
  { store := { file := some (qtJson.print false
      (.arr (ComputerModel.toJsonArray SecretCodec.zeroStream {}
        [{ id := .lit "1", name := .lit "a", host := .lit "h" }]))) } }

/-- The same with a certificate. -/
private def oneCertificate : CertModel :=
  { store := { file := some (qtJson.print false
      (.arr (CertStore.toJsonArray [{ id := .lit "1", certDer := [0x30] }]))) } }

/-- The computer is loaded, and another one is added to it; the certificate is
loaded and removed. Both replace the file, and both lists stood for it. -/
theorem unread_file_kept_listed :
    let loaded := run (ComputerModel.handle qtJson SecretCodec.zeroStream)
      oneComputer [(.setStore true, {})]
    let opened := oneCertificate.handle qtJson noCerts (.setStorePath (.data none))
    (loaded.computers.map (·.name) = [.lit "a"] ∧
      ComputerModel.Replaces qtJson SecretCodec.zeroStream loaded
        (newComputer, {}) ∧
      ComputerModel.Stands qtJson SecretCodec.zeroStream
        (trail (ComputerModel.handle qtJson SecretCodec.zeroStream) oneComputer
          [(.setStore true, {})]) loaded) ∧
    opened.store.entries.map (·.id) = [.lit "1"] ∧
      CertModel.Replaces qtJson noCerts opened (.removeAt .done 0) ∧
      CertModel.Stands qtJson noCerts opened := by
  have hadds : ComputerModel.Replaces qtJson SecretCodec.zeroStream
      (run (ComputerModel.handle qtJson SecretCodec.zeroStream) oneComputer
        [(.setStore true, {})]) (newComputer, {}) := by decide +kernel
  have hremoves : CertModel.Replaces qtJson noCerts (oneCertificate.handle qtJson
      noCerts (.setStorePath (.data none))) (.removeAt .done 0) := by
    decide +kernel
  have hcomputers := (unread_file_kept qtJson SecretCodec.zeroStream noCerts).1
    oneComputer [(.setStore true, {}), (newComputer, {})] rfl (fun x hx => by
      rw [trail_cons, trail_cons, trail_nil] at hx
      rcases List.mem_cons.mp hx with rfl | hx
      · rintro b ⟨⟩
        exact .inr ⟨rfl, _, qtJson.parse_arr false _, rfl⟩
      · rw [List.mem_singleton.mp hx]
        trivial)
    [(.setStore true, {})] (newComputer, {}) List.prefix_rfl hadds
  have hcertificates := (unread_file_kept qtJson SecretCodec.zeroStream
    noCerts).2 oneCertificate (.data none) [.removeAt .done 0] (fun x hx => by
      rw [trail_cons, trail_cons, trail_nil] at hx
      rcases List.mem_cons.mp hx with rfl | hx
      · rintro b ⟨⟩
        exact .inr ⟨rfl, _, qtJson.parse_arr false _, by decide +kernel⟩
      · rw [List.mem_singleton.mp hx]
        trivial)
    (oneCertificate.handle qtJson noCerts (.setStorePath (.data none)),
      .removeAt .done 0)
    (List.mem_cons_of_mem _ List.mem_cons_self)
  dsimp only at hcertificates
  have hentries : (oneCertificate.handle qtJson noCerts
      (.setStorePath (.data none))).store.entries.map (·.id) = [.lit "1"] := by
    decide +kernel
  exact ⟨⟨by decide +kernel, hadds, hcomputers⟩, hentries, hremoves,
    hcertificates hremoves⟩

/-- A file that was cut off after its first byte: the load reports it, and the
next computer that is added replaces the file. -/
theorem unread_file_replaced :
    let handle := ComputerModel.handle qtJson SecretCodec.zeroStream
    let m : ComputerModel := { store := { file := some [0x5B] } }
    let early := [(ComputerModel.Event.setStore true, ({} : Platform))]
    (run handle m early).store.lastError ≠ "" ∧
      ComputerModel.Replaces qtJson SecretCodec.zeroStream (run handle m early)
        (newComputer, {}) ∧
      ¬ComputerModel.Stands qtJson SecretCodec.zeroStream
        (trail handle m early) (run handle m early) := by
  refine ⟨by decide, by decide, ?_⟩
  rintro ⟨a, -, h⟩
  rcases h [0x5B] rfl with hnil | ⟨items, hparse, -⟩
  · cases hnil
  · cases hparse

end QuMesh.App
