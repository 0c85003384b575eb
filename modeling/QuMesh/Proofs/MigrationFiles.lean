import QuMesh.App.Migrator
import QuMesh.App.SecretCodec
import QuMesh.Lib.JsonText

/-!
# All of the migration or nothing

A run that stops before it writes is safe, and so is one whose four writes all
reach the disk, if the iteration got as far as the last entry of the origin.
Between the two nothing is undone: the files written before the one that fails
stay written, and the first of them is the one the next launch looks for. In
`migration_stranded` the second write is refused; the next launch finds a
`computers.json` and leaves the settings where they are.

`migration_whole_iff` has the exact condition. Of a run that fails, each file
it got to must have held before what was left in it. Of one that succeeds, the
entries that were read must account for all of the origin: an entry that the
iteration did not deliver had nothing in it, and one that was replaced, because
two keys read as the same text, said the same.

That a file holds one document only is where `JsonText.PrefixFree` comes in: a
file cut short is not the file of other data.
-/

namespace QuMesh.Migrate

open QuMesh.Lib

section

variable (ssl : OpenSsl) (json : JsonText)

/-! ## What is claimed -/

/-- The entries of the origin. -/
def originEntries (opts : Options) (a : Answers) : List ChromiumEntry :=
  let start := originPrefix (originOf opts)
  (withPrefix start a.database.entries).map (entryOf start)

def isList (key : String) : Bool :=
  key = kComputersKey || key = kCertificatesKey

inductive Content
  | items (l : List Json)
  | value (v : Json)

/-- What an entry carries, if it can be read. -/
def content (e : ChromiumEntry) : Option Content :=
  if isList e.key then
    match decryptInto ssl json e with
    | .ok (items, _) => some (.items items)
    | .error _ => none
  else some (.value (.str (.ofUtf8 e.value)))

/-- The file an entry goes to. -/
def Disk.fileOf (d : Disk) (key : String) : Option Bytes :=
  if key = kComputersKey then d.computers
  else if key = kCertificatesKey then d.certificates
  else d.settings

/-- The file of an entry is a document with what it carries. -/
def Present (d : Disk) (e : ChromiumEntry) : Prop :=
  match content ssl json e with
  | some (.items items) =>
      d.fileOf e.key = some (json.print false (.arr items))
  | some (.value v) =>
      ∃ fields, d.fileOf e.key = some (json.print false (.obj fields)) ∧
        fields.lookup e.key = some v
  | none => False

structure AllOrNothing (opts : Options) (a : Answers) (d : Disk) : Prop where
  present : (run ssl json opts a d).1.ok = true →
    ∀ e ∈ originEntries opts a, Present ssl json (run ssl json opts a d).2 e
  error : (run ssl json opts a d).1.ok = false →
    (run ssl json opts a d).1.error ≠ ""
  computers : (run ssl json opts a d).1.ok = false →
    (run ssl json opts a d).2.computers = d.computers
  certificates : (run ssl json opts a d).1.ok = false →
    (run ssl json opts a d).2.certificates = d.certificates
  settings : (run ssl json opts a d).1.ok = false →
    (run ssl json opts a d).2.settings = d.settings
  /-- The next launch tries again where this one did. -/
  again : (run ssl json opts a d).1.ok = false → hasNativeConfig d = false →
    ∀ (c : MigrationController) (b : Answers), c.hasStore = true →
      (checkAndMaybeMigrate ssl json c b
        (run ssl json opts a d).2).1.state ≠ .idle

/-! ## The condition -/

/-- The entries a run gets to see. -/
def readEntries (opts : Options) (a : Answers) : List ChromiumEntry :=
  match a.fault with
  | none => originEntries opts a
  | some f => (originEntries opts a).take f.after

def gathered (opts : Options) (a : Answers) : Gathered :=
  (gather ssl json {} (readEntries opts a)).1

/-- The run stops before it writes. -/
def Stops (opts : Options) (a : Answers) (d : Disk) : Prop :=
  a.legacyIsDir = false ∨ (opts.overwrite = false ∧ d.stamp.isSome = true) ∨
    a.mkpath = false ∨ a.opened.isSome = true ∨
    (readEntries opts a = [] ∧
      (readOrigin a.database a.fault (originOf opts)).2.isSome = true) ∨
    (gather ssl json {} (readEntries opts a)).2.isSome = true

/-- The code hears of it. -/
def Write.noticed : Write → Bool
  | .refused _ | .short _ _ => true
  | .unflushed _ | .done => false

def Answers.noticed (a : Answers) : Bool :=
  a.computers.noticed || a.certificates.noticed || a.settings.noticed ||
    a.stamp.noticed

def Gathered.computersText (g : Gathered) : Bytes :=
  json.print false (.arr g.computers)

def Gathered.certificatesText (g : Gathered) : Bytes :=
  json.print false (.arr g.certificates)

def Gathered.settingsText (g : Gathered) : Bytes :=
  json.print false (.obj g.settings)

/-- Each file that a failing run got to held what was left in it. -/
def Untouched (a : Answers) (g : Gathered) (d : Disk) : Prop :=
  a.computers.leaves (g.computersText json) d.computers = d.computers ∧
    (a.computers.noticed = true ∨
      a.certificates.leaves (g.certificatesText json) d.certificates =
          d.certificates ∧
        (a.certificates.noticed = true ∨
          a.settings.leaves (g.settingsText json) d.settings = d.settings))

/-- The write of the file an entry goes to put all of it there. -/
def Flushed (a : Answers) (g : Gathered) (key : String) : Prop :=
  if key = kComputersKey then
    a.computers.leaves (g.computersText json) none = some (g.computersText json)
  else if key = kCertificatesKey then
    a.certificates.leaves (g.certificatesText json) none =
      some (g.certificatesText json)
  else
    a.settings.leaves (g.settingsText json) none = some (g.settingsText json)

/-- What the entries that were read say of a key: the last one that has it. -/
def recalled (entries : List ChromiumEntry) (key : String) : Option Content :=
  match (entries.filter fun e => e.key = key).getLast? with
  | some e => content ssl json e
  | none => if isList key then some (.items []) else none

/-- The condition. -/
def Whole (opts : Options) (a : Answers) (d : Disk) : Prop :=
  Stops ssl json opts a d ∨
    if a.noticed then Untouched json a (gathered ssl json opts a) d
    else ∀ e ∈ originEntries opts a,
      Flushed json a (gathered ssl json opts a) e.key ∧
        recalled ssl json (readEntries opts a) e.key = content ssl json e ∧
          (content ssl json e).isSome = true

/-! ## What is read -/

theorem readLoop_fst (start : Bytes) (status : Option String)
    (delivered : List (Bytes × Bytes)) :
    (readLoop start status delivered).1 =
      (delivered.takeWhile fun e => start.isPrefixOf e.1).map (entryOf start) := by
  induction delivered with
  | nil => rfl
  | cons e rest ih =>
      rw [readLoop, List.takeWhile_cons]
      cases start.isPrefixOf e.1 with
      | false => rfl
      | true => simp [ih]

theorem takeWhile_take {α : Type} (p : α → Bool) (n : Nat) (l : List α) :
    (l.take n).takeWhile p = (l.takeWhile p).take n := by
  induction l generalizing n with
  | nil => simp
  | cons x l ih =>
      cases n with
      | zero => rfl
      | succ n =>
          rw [List.take_succ_cons, List.takeWhile_cons, List.takeWhile_cons]
          split
          · rw [ih, List.take_succ_cons]
          · rfl

/-- The loop reads the entries of the origin, up to where the iterator gives
up. -/
theorem readOrigin_fst (opts : Options) (a : Answers) :
    (readOrigin a.database a.fault (originOf opts)).1 = readEntries opts a := by
  have hall := takeWhile_seek (p := originPrefix (originOf opts)) a.database.sorted
  rw [readEntries, originEntries]
  cases a.fault with
  | none =>
      refine (readLoop_fst _ none _).trans ?_
      rw [hall]
  | some f =>
      refine (readLoop_fst _ (some f.status) _).trans ?_
      rw [takeWhile_take, hall, List.map_take]

/-! ## What is gathered -/

/-- What was gathered under a key. -/
def Gathered.holds (g : Gathered) (key : String) : Option Content :=
  if key = kComputersKey then some (.items g.computers)
  else if key = kCertificatesKey then some (.items g.certificates)
  else (g.settings.lookup key).map .value

theorem lookup_filter {key other : String} (h : key ≠ other)
    (fields : List (String × Json)) :
    (fields.filter fun f => f.1 ≠ other).lookup key = fields.lookup key := by
  induction fields with
  | nil => rfl
  | cons f fields ih =>
      obtain ⟨k, v⟩ := f
      rw [List.filter_cons]
      by_cases hk : k = other
      · rw [if_neg (by simp [hk]), ih, List.lookup_cons]
        have : (key == k) = false := by simp [hk, h]
        rw [this]
      · rw [if_pos (by simp [hk]), List.lookup_cons, List.lookup_cons, ih]

theorem lookup_insertField (key other : String) (v : Json)
    (fields : List (String × Json)) :
    (insertField other v fields).lookup key =
      if key = other then some v else fields.lookup key := by
  rw [insertField, List.lookup_cons]
  split
  · next heq =>
    rw [if_pos (by simpa using heq)]
  · next hne =>
    have hne : key ≠ other := by simpa using hne
    rw [if_neg hne, lookup_filter hne]

variable {ssl json}

/-- An entry that is gathered takes the place of what was under its key. -/
theorem gather_cons {g : Gathered} {e : ChromiumEntry}
    {rest : List ChromiumEntry}
    (h : (gather ssl json g (e :: rest)).2 = none) :
    ∃ g₁, gather ssl json g (e :: rest) = gather ssl json g₁ rest ∧
      ∀ key, g₁.holds key =
        if key = e.key then content ssl json e else g.holds key := by
  rw [gather] at h ⊢
  split at h
  · next hkey =>
    cases hitems : decryptInto ssl json e with
    | error reason =>
        rw [hitems] at h
        cases h
    | ok r =>
        refine ⟨_, by rw [if_pos hkey], fun key => ?_⟩
        simp only [Gathered.holds, content, isList, hkey, hitems]
        by_cases heq : key = kComputersKey
        · simp [heq]
        · simp [heq]
  · next hother =>
    split at h
    · next hkey =>
      cases hitems : decryptInto ssl json e with
      | error reason =>
          rw [hitems] at h
          cases h
      | ok r =>
          refine ⟨_, by rw [if_neg hother, if_pos hkey], fun key => ?_⟩
          simp only [Gathered.holds, content, isList, hkey, hitems]
          by_cases heq : key = kCertificatesKey
          · simp [heq, kComputersKey, kCertificatesKey]
          · simp [heq]
    · next hlast =>
      refine ⟨_, by rw [if_neg hother, if_neg hlast], fun key => ?_⟩
      simp only [Gathered.holds, content, isList, hother, hlast,
        lookup_insertField]
      by_cases heq : key = e.key
      · simp [heq, hother, hlast]
      · simp [heq]

theorem getLast?_cons_filter (key : String) (e : ChromiumEntry)
    (rest : List ChromiumEntry) :
    ((e :: rest).filter fun e => e.key = key).getLast? =
      ((rest.filter fun e => e.key = key).getLast?).or
        (if e.key = key then some e else none) := by
  rw [List.filter_cons]
  by_cases hkey : e.key = key
  · rw [if_pos (by simpa using hkey), if_pos hkey, List.getLast?_cons]
    cases (rest.filter fun e => e.key = key).getLast? <;> rfl
  · rw [if_neg (by simpa using hkey), if_neg hkey, Option.or_none]

theorem gather_holds {g : Gathered} {entries : List ChromiumEntry}
    (h : (gather ssl json g entries).2 = none) (key : String) :
    (gather ssl json g entries).1.holds key =
      match (entries.filter fun e => e.key = key).getLast? with
      | some e => content ssl json e
      | none => g.holds key := by
  induction entries generalizing g with
  | nil => rfl
  | cons e rest ih =>
      obtain ⟨g₁, hgather, hholds⟩ := gather_cons h
      rw [hgather] at h ⊢
      rw [ih h, getLast?_cons_filter]
      cases (rest.filter fun e => e.key = key).getLast? with
      | some f => rfl
      | none =>
          simp only [Option.none_or, hholds]
          by_cases hkey : e.key = key
          · rw [if_pos hkey, if_pos hkey.symm]
          · rw [if_neg hkey, if_neg (Ne.symm hkey)]

/-- The files hold what the entries that were read say. -/
theorem gathered_holds {opts : Options} {a : Answers}
    (h : (gather ssl json {} (readEntries opts a)).2 = none) (key : String) :
    (gathered ssl json opts a).holds key =
      recalled ssl json (readEntries opts a) key := by
  rw [gathered, gather_holds h, recalled]
  cases ((readEntries opts a).filter fun e => e.key = key).getLast? with
  | some e => rfl
  | none =>
      simp only [Gathered.holds, isList]
      by_cases h₁ : key = kComputersKey
      · simp [h₁]
      · by_cases h₂ : key = kCertificatesKey
        · simp [h₂]
        · simp [h₁, h₂]

/-! ## What is written -/

theorem append_ne_empty {s : String} (h : s ≠ "") (t : String) :
    s ++ t ≠ "" := by
  rw [Ne, String.append_eq_empty_iff]
  exact fun hboth => h hboth.1

theorem writeFile_cases (path : String) (contents : Bytes) (w : Write)
    (old : Option Bytes) :
    (w.noticed = true ∧ ∃ error, error ≠ "" ∧
      writeFile path contents w old = (some error, w.leaves contents old)) ∨
    (w.noticed = false ∧
      writeFile path contents w old = (none, w.leaves contents old)) := by
  cases w with
  | refused reason =>
      refine .inl ⟨rfl, _, ?_, rfl⟩
      exact append_ne_empty (append_ne_empty (append_ne_empty (by decide) _) _) _
  | short kept reason =>
      refine .inl ⟨rfl, _, ?_, rfl⟩
      exact append_ne_empty (append_ne_empty (append_ne_empty (by decide) _) _) _
  | unflushed kept => exact .inr ⟨rfl, rfl⟩
  | done => exact .inr ⟨rfl, rfl⟩

/-- What the four writes do, and what is left where one fails. -/
structure Written (json : JsonText) (a : Answers) (g : Gathered) (d : Disk)
    (r : Option String × Disk) : Prop where
  silent : a.noticed = false → r.1 = none
  error : a.noticed = true → ∃ e, r.1 = some e ∧ e ≠ ""
  computers : r.2.computers = a.computers.leaves (g.computersText json) d.computers
  certificates : r.2.certificates =
    if a.computers.noticed then d.certificates
    else a.certificates.leaves (g.certificatesText json) d.certificates
  settings : r.2.settings =
    if a.computers.noticed || a.certificates.noticed then d.settings
    else a.settings.leaves (g.settingsText json) d.settings

theorem writeAll_written (legacyDataDir outputDir : String) (a : Answers)
    (g : Gathered) (d : Disk) :
    Written json a g d (writeAll json legacyDataDir outputDir a g d) := by
  unfold writeAll
  simp only []
  rcases writeFile_cases (outputDir ++ "/" ++ kComputersFile)
    (json.print false (.arr g.computers)) a.computers d.computers with
    ⟨h₁, error, herror, heq⟩ | ⟨h₁, heq⟩ <;> rw [heq] <;> simp only []
  · exact ⟨by simp [Answers.noticed, h₁], fun _ => ⟨error, rfl, herror⟩, rfl,
      by rw [h₁]; rfl, by rw [h₁]; rfl⟩
  rcases writeFile_cases (outputDir ++ "/" ++ kCertificatesFile)
    (json.print false (.arr g.certificates)) a.certificates d.certificates with
    ⟨h₂, error, herror, heq⟩ | ⟨h₂, heq⟩ <;> rw [heq] <;> simp only []
  · exact ⟨by simp [Answers.noticed, h₂], fun _ => ⟨error, rfl, herror⟩, rfl,
      by rw [h₁]; rfl, by rw [h₁, h₂]; rfl⟩
  rcases writeFile_cases (outputDir ++ "/" ++ kSettingsFile)
    (json.print false (.obj g.settings)) a.settings d.settings with
    ⟨h₃, error, herror, heq⟩ | ⟨h₃, heq⟩ <;> rw [heq] <;> simp only []
  · exact ⟨by simp [Answers.noticed, h₃], fun _ => ⟨error, rfl, herror⟩, rfl,
      by rw [h₁]; rfl, by rw [h₁, h₂]; rfl⟩
  rcases writeFile_cases (outputDir ++ "/" ++ kStampFile)
    (json.print false (stampOf legacyDataDir a g)) a.stamp d.stamp with
    ⟨h₄, error, herror, heq⟩ | ⟨h₄, heq⟩ <;> rw [heq] <;> simp only []
  · exact ⟨by simp [Answers.noticed, h₄], fun _ => ⟨error, rfl, herror⟩, rfl,
      by rw [h₁]; rfl, by rw [h₁, h₂]; rfl⟩
  · exact ⟨fun _ => rfl, by simp [Answers.noticed, h₁, h₂, h₃, h₄], rfl,
      by rw [h₁]; rfl, by rw [h₁, h₂]; rfl⟩

theorem decryptInto_error {e : ChromiumEntry} {reason : String}
    (h : decryptInto ssl json e = .error reason) : reason ≠ "" := by
  unfold decryptInto at h
  split at h
  · cases h
  split at h
  · cases h
    exact append_ne_empty (append_ne_empty (append_ne_empty (by decide) _) _) _
  split at h
  · cases h
    exact append_ne_empty (append_ne_empty (append_ne_empty (by decide) _) _) _
  · cases h
  · cases h
    exact append_ne_empty (append_ne_empty (by decide) _) _

theorem gather_error {g : Gathered} {entries : List ChromiumEntry}
    {reason : String} (h : (gather ssl json g entries).2 = some reason) :
    reason ≠ "" := by
  induction entries generalizing g with
  | nil => cases h
  | cons e rest ih =>
      rw [gather] at h
      split at h
      · split at h
        · next herror =>
          cases h
          exact decryptInto_error herror
        · exact ih h
      split at h
      · split at h
        · next herror =>
          cases h
          exact decryptInto_error herror
        · exact ih h
      · exact ih h

/-! ## A run -/

/-- A run that stopped: there is an error, and nothing was touched. -/
def Stopped (r : MigrationResult × Disk) (d : Disk) : Prop :=
  r.1.ok = false ∧ r.1.error ≠ "" ∧ r.2 = d

/-- A run that got to the four writes. -/
def Wrote (json : JsonText) (a : Answers) (g : Gathered) (d : Disk)
    (r : MigrationResult × Disk) : Prop :=
  ∃ w, Written json a g d w ∧ r.2 = w.2 ∧ r.1.ok = w.1.isNone ∧
    r.1.error = w.1.getD ""

theorem run_stops {opts : Options} {a : Answers} {d : Disk}
    (h : Stops ssl json opts a d) : Stopped (run ssl json opts a d) d := by
  unfold run
  simp only []
  split
  · exact ⟨rfl, append_ne_empty (by decide) _, rfl⟩
  next hdir =>
  split
  · refine ⟨rfl, ?_, rfl⟩
    rw [Ne, String.append_eq_empty_iff]
    exact fun hboth => absurd hboth.2 (by decide)
  next hstamp =>
  split
  · exact ⟨rfl, append_ne_empty (by decide) _, rfl⟩
  next hpath =>
  split
  · exact ⟨rfl, append_ne_empty (by decide) _, rfl⟩
  next hopened =>
  split
  · exact ⟨rfl, append_ne_empty (by decide) _, rfl⟩
  next entries status hnone hread =>
  have hentries : readEntries opts a = entries := by
    rw [← readOrigin_fst, hread]
  rcases h with h | h | h | h | ⟨hempty, hstatus⟩ | hgather
  · rw [h] at hdir
    exact absurd rfl hdir
  · rw [h.1, h.2] at hstamp
    exact absurd rfl hstamp
  · rw [h] at hpath
    exact absurd rfl hpath
  · rw [hopened] at h
    cases h
  · rw [hread] at hstatus
    obtain ⟨error, herror⟩ := Option.isSome_iff_exists.mp hstatus
    exact absurd (hentries.symm.trans hempty) fun hnil =>
      hnone error hnil herror
  · rw [hentries] at hgather
    obtain ⟨error, herror⟩ := Option.isSome_iff_exists.mp hgather
    rw [herror]
    exact ⟨rfl, gather_error herror, rfl⟩

theorem run_writes {opts : Options} {a : Answers} {d : Disk}
    (h : ¬ Stops ssl json opts a d) :
    Wrote json a (gathered ssl json opts a) d (run ssl json opts a d) := by
  simp only [Stops, not_or, not_and] at h
  obtain ⟨hdir, hstamp, hpath, hopened, hread, hgather⟩ := h
  unfold run
  simp only []
  rw [if_neg (by simpa using hdir), if_neg (by simpa using hstamp),
    if_neg (by simpa using hpath)]
  split
  · next error heq =>
    rw [heq] at hopened
    exact absurd rfl hopened
  split
  · next error heq =>
    rw [← readOrigin_fst, heq] at hread
    exact absurd rfl (hread rfl)
  next entries status _ heq =>
  have hentries : readEntries opts a = entries := by
    rw [← readOrigin_fst, heq]
  rw [gathered, hentries]
  rw [hentries, Option.not_isSome_iff_eq_none] at hgather
  rw [hgather]
  simp only []
  refine ⟨_, writeAll_written
    (if opts.legacyDataDir.isEmpty then a.defaultLegacyDataDir
      else opts.legacyDataDir)
    (if opts.outputDir.isEmpty then a.defaultOutputDir else opts.outputDir)
    a (gather ssl json {} entries).1 d, ?_⟩
  split
  · next hdone =>
    rw [hdone]
    exact ⟨rfl, rfl, rfl⟩
  · next hdone =>
    rw [hdone]
    exact ⟨rfl, rfl, rfl⟩

/-! ## Presence -/

/-- What a write leaves that nobody complained of. -/
theorem leaves_quiet {w : Write} (h : w.noticed = false) (contents : Bytes) :
    ∃ kept, ∀ old, w.leaves contents old = some (contents.take kept) := by
  cases w with
  | refused reason => cases h
  | short kept reason => cases h
  | unflushed kept => exact ⟨kept, fun _ => rfl⟩
  | done =>
      refine ⟨contents.length, fun _ => ?_⟩
      rw [List.take_length]
      rfl

/-- Such a file is another document in no way. -/
theorem leaves_print (hfree : json.PrefixFree) {w : Write}
    (hquiet : w.noticed = false) {x y : Json} (hx : x.isDocument = true)
    (hy : y.isDocument = true) (old : Option Bytes) :
    w.leaves (json.print false x) old = some (json.print false y) ↔
      w.leaves (json.print false x) none = some (json.print false x) ∧ x = y := by
  obtain ⟨kept, hkept⟩ := leaves_quiet hquiet (json.print false x)
  rw [hkept, hkept]
  constructor
  · intro h
    have hcut := Option.some.inj h
    have hsame : y = x := by
      refine hfree y x hy hx ?_
      rw [← hcut]
      exact List.take_prefix _ _
    subst hsame
    exact ⟨h, rfl⟩
  · rintro ⟨h, rfl⟩
    exact h

/-- An entry is in the file that was written if the file is whole and holds
what the entry carries. -/
theorem present_iff (hfree : json.PrefixFree) {a : Answers} {g : Gathered}
    {d : Disk} {r : Option String × Disk} (hr : Written json a g d r)
    (hquiet : a.noticed = false) (e : ChromiumEntry) :
    Present ssl json r.2 e ↔
      Flushed json a g e.key ∧ g.holds e.key = content ssl json e ∧
        (content ssl json e).isSome = true := by
  simp only [Answers.noticed, Bool.or_eq_false_iff] at hquiet
  obtain ⟨⟨⟨h₁, h₂⟩, h₃⟩, -⟩ := hquiet
  have hcomputers := hr.computers
  have hcertificates := hr.certificates
  have hsettings := hr.settings
  rw [h₁, if_neg (by simp)] at hcertificates
  rw [h₁, h₂, if_neg (by simp)] at hsettings
  unfold Present
  cases hcontent : content ssl json e with
  | none => simp
  | some c =>
      have hlist : isList e.key = true ↔ ∃ items, c = .items items := by
        unfold content at hcontent
        split at hcontent
        · next hlist =>
          split at hcontent
          · cases hcontent
            exact ⟨fun _ => ⟨_, rfl⟩, fun _ => hlist⟩
          · cases hcontent
        · next hlist =>
          cases hcontent
          simp [hlist]
      simp only [Option.isSome_some, and_true]
      by_cases hk₁ : e.key = kComputersKey
      · obtain ⟨items, rfl⟩ := hlist.mp (by simp [isList, hk₁])
        simp only [Disk.fileOf, Flushed, Gathered.holds, hk₁, if_true,
          hcomputers, Gathered.computersText, Option.some.injEq,
          Content.items.injEq]
        rw [leaves_print hfree h₁ rfl rfl, Json.arr.injEq]
      by_cases hk₂ : e.key = kCertificatesKey
      · obtain ⟨items, rfl⟩ := hlist.mp (by simp [isList, hk₂])
        have hother : kCertificatesKey ≠ kComputersKey := by decide
        simp only [Disk.fileOf, Flushed, Gathered.holds, hk₂, if_neg hother,
          if_true, hcertificates, Gathered.certificatesText, Option.some.injEq,
          Content.items.injEq]
        rw [leaves_print hfree h₂ rfl rfl, Json.arr.injEq]
      · have hvalue : ∃ v, c = .value v := by
          cases c with
          | items items => simpa [isList, hk₁, hk₂] using hlist.mpr ⟨items, rfl⟩
          | value v => exact ⟨v, rfl⟩
        obtain ⟨v, rfl⟩ := hvalue
        simp only [Disk.fileOf, Flushed, Gathered.holds, hk₁, hk₂, if_false,
          hsettings, Gathered.settingsText]
        constructor
        · rintro ⟨fields, hfile, hfield⟩
          rw [leaves_print hfree h₃ rfl rfl, Json.obj.injEq] at hfile
          obtain ⟨hwhole, rfl⟩ := hfile
          exact ⟨hwhole, by rw [hfield]; rfl⟩
        · rintro ⟨hwhole, hfield⟩
          obtain ⟨v', hv', heq⟩ := Option.map_eq_some_iff.mp hfield
          cases heq
          exact ⟨g.settings, (leaves_print hfree h₃ rfl rfl d.settings).mpr
            ⟨hwhole, rfl⟩, hv'⟩

/-! ## The claim of a run -/

/-- A launch that finds no `computers.json` does not stay idle. -/
theorem checkAndMaybeMigrate_again (c : MigrationController) (b : Answers)
    {d : Disk} (hnative : hasNativeConfig d = false) :
    (checkAndMaybeMigrate ssl json c b d).1.state ≠ .idle := by
  unfold checkAndMaybeMigrate
  split
  · exact State.noConfusion
  rw [if_neg (by simp [hnative])]
  simp only []
  generalize (if c.legacyDataDirOverride.isEmpty then b.defaultLegacyDataDir
    else c.legacyDataDirOverride) = legacyDir
  split
  · exact State.noConfusion
  split <;> exact State.noConfusion

theorem untouched_iff {a : Answers} {g : Gathered} {d : Disk}
    {r : Option String × Disk} (hr : Written json a g d r) :
    Untouched json a g d ↔ r.2.computers = d.computers ∧
      r.2.certificates = d.certificates ∧ r.2.settings = d.settings := by
  rw [Untouched, hr.computers, hr.certificates, hr.settings]
  cases a.computers.noticed with
  | true => simp
  | false => cases a.certificates.noticed <;> simp

end

/-- A run is all or nothing in exactly this case: it stops before it writes;
or a write fails, and each file the run got to held what is left in it; or all
writes are done, the file of each entry of the origin reached the disk as a
whole, and what was read under its key is what it carries. -/
theorem migration_whole_iff (ssl : OpenSsl) (json : JsonText)
    (hfree : json.PrefixFree) (opts : Options) (a : Answers) (d : Disk) :
    AllOrNothing ssl json opts a d ↔ Whole ssl json opts a d := by
  by_cases hstops : Stops ssl json opts a d
  · obtain ⟨hfailed, herror, hdisk⟩ := run_stops hstops
    refine ⟨fun _ => .inl hstops, fun _ => ?_⟩
    refine ⟨fun hok => ?_, fun _ => herror, ?_, ?_, ?_, fun _ hnative c b _ => ?_⟩
    · rw [hfailed] at hok
      cases hok
    · exact fun _ => by rw [hdisk]
    · exact fun _ => by rw [hdisk]
    · exact fun _ => by rw [hdisk]
    · rw [hdisk]
      exact checkAndMaybeMigrate_again c b hnative
  have hgather : (gather ssl json {} (readEntries opts a)).2 = none := by
    have hnone : ¬ (gather ssl json {} (readEntries opts a)).2.isSome := by
      intro hsome
      exact hstops (.inr (.inr (.inr (.inr (.inr hsome)))))
    exact Option.not_isSome_iff_eq_none.mp hnone
  obtain ⟨r, hr, hdisk, hok, herror⟩ := run_writes hstops
  rw [Whole, or_iff_right hstops]
  cases hnoticed : a.noticed with
  | true =>
      obtain ⟨e, he, hne⟩ := hr.error hnoticed
      rw [he] at hok herror
      simp only [if_true]
      rw [untouched_iff hr]
      constructor
      · intro h
        rw [← hdisk]
        exact ⟨h.computers hok, h.certificates hok, h.settings hok⟩
      · rintro ⟨h₁, h₂, h₃⟩
        refine ⟨fun htrue => ?_, fun _ => herror ▸ hne, fun _ => ?_, fun _ => ?_,
          fun _ => ?_, fun _ hnative c b _ => ?_⟩
        · rw [hok] at htrue
          cases htrue
        · rw [hdisk, h₁]
        · rw [hdisk, h₂]
        · rw [hdisk, h₃]
        · refine checkAndMaybeMigrate_again c b ?_
          rw [hasNativeConfig, hdisk, h₁]
          exact hnative
  | false =>
      rw [hr.silent hnoticed] at hok
      have hpresent (e : ChromiumEntry) :
          Present ssl json (run ssl json opts a d).2 e ↔
            Flushed json a (gathered ssl json opts a) e.key ∧
              (gathered ssl json opts a).holds e.key = content ssl json e ∧
                (content ssl json e).isSome = true := by
        rw [hdisk]
        exact present_iff hfree hr hnoticed e
      simp only [Bool.false_eq_true, if_false]
      constructor
      · intro h e he
        have := (hpresent e).mp (h.present hok e he)
        rwa [gathered_holds hgather] at this
      · intro h
        have hclash : (run ssl json opts a d).1.ok ≠ false := by
          rw [hok]
          simp
        refine ⟨fun _ e he => ?_, fun hf => absurd hf hclash,
          fun hf => absurd hf hclash, fun hf => absurd hf hclash,
          fun hf => absurd hf hclash, fun hf => absurd hf hclash⟩
        rw [hpresent, gathered_holds hgather]
        exact h e he

/-! ### A first launch -/

/-- AES under an all-zero key, as far as it is needed. -/
private def zeroKeySsl : OpenSsl where
  aes256Ctr key iv b := .ok (App.SecretCodec.zeroStream.crypt key iv b)
  md5 b := b

/-- `computers`, an empty list under an all-zero key, and the setting `lang`. -/
private def oldData : Database where
  entries := [
    (originPrefix [0x6F] ++ [0x63, 0x6F, 0x6D, 0x70, 0x75, 0x74, 0x65, 0x72, 0x73],
      0x01 :: kV2Prefix ++ List.replicate 96 0x30 ++ [0x38, 0x37, 0x63, 0x38]),
    (originPrefix [0x6F] ++ [0x6C, 0x61, 0x6E, 0x67], [0x01, 0x65, 0x6E])]
  sorted := by
    rw [Sorted, List.pairwise_pair]
    decide

private def firstLaunch : Options :=
  { legacyDataDir := "/old", outputDir := "/new", origin := "o" }

/-- With a fresh output directory and writes that are all done. -/
theorem migration_whole_first :
    AllOrNothing zeroKeySsl qtJson firstLaunch { database := oldData } {} := by
  refine (migration_whole_iff zeroKeySsl qtJson qtJson_prefixFree firstLaunch
    { database := oldData } {}).mpr (.inr ?_)
  have hentries : originEntries firstLaunch { database := oldData } =
      [{ key := "computers"
         value := kV2Prefix ++ List.replicate 96 0x30 ++
          [0x38, 0x37, 0x63, 0x38] },
        { key := "lang", value := [0x65, 0x6E] }] := by decide
  rw [if_neg (by decide), hentries]
  simp only [List.forall_mem_cons, List.not_mem_nil, false_imp_iff, implies_true,
    and_true]
  exact ⟨⟨rfl, rfl, rfl⟩, rfl, rfl, rfl⟩

/-- The second write is refused. -/
theorem migration_stranded :
    ¬ ∀ (ssl : OpenSsl) (json : JsonText), json.PrefixFree →
      ∀ (opts : Options) (a : Answers) (d : Disk), opts.overwrite = false →
        AllOrNothing ssl json opts a d := by
  intro h
  have hkept := (h zeroKeySsl qtJson qtJson_prefixFree firstLaunch
    { database := oldData, certificates := .refused "disk full" } {} rfl).computers
    (by decide)
  revert hkept
  decide

end QuMesh.Migrate
