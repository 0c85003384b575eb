import QuMesh.App.BackupController
import QuMesh.Lib.JsonText
import QuMesh.Proofs.ImportIds

/-!
# Backup and restore

A backup is read back if every layer is: the records, the two documents, the
base64 and the cipher, `fromPortableJson_toPortableJson` and `decode_encode`.
The plan then has a new entry for every computer where the list is empty, and where it is the
one that was exported every computer finds its own row.

What does not agree is one size. The file is bounded where it is read and not
where it is written, so the list comes back exactly when the file is not longer
than the reader takes: `backup_restored_iff`.
-/

namespace QuMesh.App

open QuMesh.Lib

/-! ## Records -/

theorem clampSshPort_number (p : Port) : clampSshPort p.number = p := by
  obtain ⟨number, hpos, hle⟩ := p
  unfold clampSshPort
  exact dif_pos ⟨Int.natCast_pos.mpr hpos, Int.ofNat_le.mpr hle⟩

theorem toInt_number (p : Port) (default : Int) :
    Json.toInt default (.int p.number) = p.number := by
  have hle : p.number ≤ 65535 := p.inRange.2
  rw [Json.toInt, if_pos ⟨by omega, by omega⟩]

theorem ofInt_toInt (mode : SshAuthMode) (default : Int) :
    SshAuthMode.ofInt (Json.toInt default (.int mode.toInt)) = mode := by
  cases mode <;> rfl

theorem strings_map (l : List Text) : strings (.arr (l.map .str)) = l := by
  rw [strings, Json.toArray, List.filterMap_map]
  exact List.filterMap_some

/-- What is written into a backup is read back, field by field. -/
theorem fromPortableJson_toPortableJson (fresh : Text) {c : Computer}
    (h : c.id.isEmpty = false) :
    Computer.fromPortableJson fresh c.toPortableJson = c := by
  unfold Computer.fromPortableJson Computer.toPortableJson parseComputer
    buildComputerJson
  simp [field, List.lookup_cons, Json.toText, Json.toBool, strings_map,
    toInt_number, clampSshPort_number, ofInt_toInt, h]

/-! ## The codec -/

namespace BackupCodec

theorem unb64_b64 (b : Bytes) : unb64 (b64 b) = some b := by
  rw [unb64, b64, Text.ofLatin1_ascii (ascii_toBase64 b),
    Text.toLatin1_ascii (ascii_toBase64 b), fromBase64_toBase64]

theorem intSize_of_lt {n : Nat} (h : n < 2 ^ 31) : intSize n = n := by
  unfold intSize
  dsimp only
  split <;> omega

/-- The cipher reads all of a document only where its size fits an `int`. -/
theorem lt_of_intSize {n : Nat} (hpos : 0 ≤ intSize n)
    (h : n ≤ (intSize n).toNat) : n < 2 ^ 31 := by
  unfold intSize at hpos h
  dsimp only at hpos h
  split at h <;> split at hpos <;> omega

variable {json : JsonText} {ssl : OpenSsl}

/-- A document that was encrypted was encrypted as a whole. -/
theorem gcmEncrypt_some {key iv pt ct tag : Bytes} (hpt : pt ≠ [])
    (h : gcmEncrypt ssl key iv pt = (ct, tag))
    (hlength : ct.length = pt.length) :
    key.length = kAesKeyLen ∧ iv.length = kGcmIvLen ∧ pt.length < 2 ^ 31 ∧
      ssl.encrypt key iv pt = some (ct, tag) := by
  have hfailed : ([], []) ≠ (ct, tag) := by
    rintro ⟨⟩
    exact hpt (List.length_eq_zero_iff.mp hlength.symm)
  unfold gcmEncrypt at h
  split at h
  · exact absurd h hfailed
  next hkey =>
  dsimp only at h
  split at h
  · exact absurd h hfailed
  next hpos =>
  cases hsealed : ssl.encrypt key iv (pt.take (intSize pt.length).toNat) with
  | none =>
      rw [hsealed] at h
      exact absurd h hfailed
  | some sealed =>
      rw [hsealed, Option.getD_some] at h
      subst h
      have hct := (ssl.encrypt_length hsealed).1
      rw [List.length_take, hlength] at hct
      have hread : pt.length ≤ (intSize pt.length).toNat :=
        Nat.le_trans (Nat.le_of_eq hct) (Nat.min_le_left _ _)
      have hsize := lt_of_intSize (Int.not_lt.mp hpos) hread
      rw [List.take_of_length_le hread] at hsealed
      rw [not_or, not_not, not_not] at hkey
      exact ⟨hkey.1, hkey.2, hsize, hsealed⟩

theorem gcmDecrypt_ok {key iv pt ct tag : Bytes}
    (hkey : key.length = kAesKeyLen) (hiv : iv.length = kGcmIvLen)
    (htag : tag.length = kGcmTagLen) (hct : ct.length < 2 ^ 31)
    (h : ssl.decrypt key iv ct tag = some pt) :
    gcmDecrypt ssl key iv ct tag = .ok pt := by
  have hsize : intSize ct.length = ct.length := intSize_of_lt hct
  have hpos : ¬ (ct.length : Int) < 0 := by omega
  unfold gcmDecrypt
  simp only [hkey, hiv, htag, hsize, ne_eq, not_true_eq_false, or_self,
    if_false, if_neg hpos, Int.toNat_natCast, List.take_length, h]

theorem derivePbkdf2_ok {password : Text} {salt : Bytes}
    {key : Block kAesKeyLen} (hpassword : password.isEmpty = false)
    (hsalt : salt.length = kSaltLen)
    (h : ssl.pbkdf2 password.utf8 salt kPbkdf2Iterations = some key) :
    derivePbkdf2 ssl password salt kPbkdf2Iterations = key := by
  unfold derivePbkdf2
  rw [if_neg, Int.toNat_natCast, h]
  rintro (hempty | hlength | hzero)
  · rw [hpassword] at hempty
    cases hempty
  · exact hlength hsalt
  · revert hzero
    decide

/-- The other way round: every document that fits an `int` is encrypted. -/
theorem gcmEncrypt_ok {key iv pt ct tag : Bytes}
    (hkey : key.length = kAesKeyLen) (hiv : iv.length = kGcmIvLen)
    (hpt : pt.length < 2 ^ 31) (h : ssl.encrypt key iv pt = some (ct, tag)) :
    gcmEncrypt ssl key iv pt = (ct, tag) := by
  have hsize : intSize pt.length = pt.length := intSize_of_lt hpt
  have hpos : ¬ (pt.length : Int) < 0 := by omega
  unfold gcmEncrypt
  simp only [hkey, hiv, hsize, ne_eq, not_true_eq_false, or_self, if_false,
    if_neg hpos, Int.toNat_natCast, List.take_length, h, Option.getD_some]

theorem encode_ok {a : Fresh} {computers : List Json} {password : Text}
    {salt : Block kSaltLen} {iv : Block kGcmIvLen} {key : Block kAesKeyLen}
    {pt ct tag : Bytes} (hsalt : a.salt = some salt) (hiv : a.iv = some iv)
    (hpassword : password.isEmpty = false)
    (hshort : textSize password ≤ kMaxPasswordChars)
    (hkey : ssl.pbkdf2 password.utf8 salt kPbkdf2Iterations = some key)
    (hpt : json.print true (payload computers) = pt)
    (hfits : pt.length < 2 ^ 31) (h : ssl.encrypt key iv pt = some (ct, tag)) :
    encode ssl json a computers password =
      .ok (json.print false (.obj (envelope a.createdAt salt iv tag ct))) := by
  obtain ⟨hct, htag⟩ := ssl.encrypt_length h
  subst hpt
  unfold encode
  rw [if_neg (by simp [hpassword]), if_neg (Nat.not_lt.mpr hshort), hsalt, hiv]
  simp only [derivePbkdf2_ok hpassword salt.2 hkey,
    gcmEncrypt_ok key.2 iv.2 hfits h, key.2, hct, htag, ne_eq,
    not_true_eq_false, or_self, if_false]

theorem readPayload_payload (computers : List Json) :
    readPayload json (json.print true (payload computers)) =
      .ok computers := by
  unfold readPayload payload
  rw [json.parse_obj]
  rfl

theorem readEnvelope_envelope (createdAt : Text) {salt iv tag : Bytes}
    (hsalt : salt.length = kSaltLen) (hiv : iv.length = kGcmIvLen)
    (htag : tag.length = kGcmTagLen) (ct : Bytes) :
    readEnvelope (envelope createdAt salt iv tag ct) = .ok
      { iterations := kPbkdf2Iterations, salt, iv, tag, ct } := by
  unfold readEnvelope envelope
  have hversion : Json.toInt 0 (.int kEnvelopeVersion) = kEnvelopeVersion := by
    decide
  have hiterations : Json.toInt 0 (.int kPbkdf2Iterations) =
      kPbkdf2Iterations := by decide
  have hmin : kPbkdf2Iterations ≠ 0 := by decide
  have hmax : ¬ (kPbkdf2MaxIterations : Int) < kPbkdf2Iterations := by decide
  simp [field, List.lookup_cons, Json.toObject, Json.toText, unb64_b64, hsalt,
    hiv, htag, hversion, hiterations, hmin, hmax]

/-- A backup is read where it is not too long. -/
theorem decode_encode {a : Fresh} {computers : List Json} {password : Text}
    {bytes : Bytes} (h : encode ssl json a computers password = .ok bytes)
    (hsize : bytes.length ≤ kMaxFileBytes) :
    decode ssl json bytes password = .ok computers := by
  unfold encode at h
  split at h
  · cases h
  next hpassword =>
  split at h
  · cases h
  next hshort =>
  split at h
  · next salt iv _ _ =>
    dsimp only at h
    split at h
    · cases h
    next hkey =>
    split at h
    · cases h
    next hsealed =>
    rw [not_not] at hkey
    rw [not_or, not_not, not_not] at hsealed
    obtain ⟨hct, htag⟩ := hsealed
    generalize hsealed : gcmEncrypt ssl _ _ _ = sealed at h hct htag
    obtain ⟨ct, tag⟩ := sealed
    obtain ⟨_, _, hfits, hencrypted⟩ :=
      gcmEncrypt_some (json.print_ne_nil _ _) hsealed hct
    have hdecrypted := gcmDecrypt_ok hkey iv.2 htag
      (Nat.lt_of_le_of_lt (Nat.le_of_eq hct) hfits)
      (ssl.decrypt_encrypt hencrypted)
    have henvelope := readEnvelope_envelope a.createdAt salt.2 iv.2 htag ct
    have hparsed : json.parse bytes =
        .ok (.obj (envelope a.createdAt salt iv tag ct)) := by
      cases h
      exact json.parse_obj _ _
    unfold decode
    rw [if_neg hpassword, if_neg hshort, if_neg (Nat.not_lt.mpr hsize),
      hparsed]
    simp only [henvelope]
    rw [if_neg (not_not.mpr hkey), hdecrypted]
    exact readPayload_payload computers
  · cases h

end BackupCodec

/-! ## Plans -/

namespace ComputerModel

variable {json : JsonText} {aes : AesCtr} {fold : Text → Text}

def newEntry (c : Computer) : ImportPlanEntry := { incoming := c }

/-- A computer that is matched with its own row. -/
def ownEntry (c : Computer) : ImportPlanEntry :=
  { incoming := c, existingId := c.id, matched := .importUpdate }

/-- No row is there to be matched with. -/
theorem planLoop_empty (claimed : List Nat) (incoming : List Computer) :
    planLoop fold [] claimed incoming = incoming.map newEntry := by
  have hnone : ∀ c, findHit fold [] claimed c = none := by
    intro c
    simp [findHit, findRow]
  induction incoming with
  | nil => rfl
  | cons c incoming ih =>
      rw [planLoop]
      simp only [planEntry, hnone]
      rw [ih]
      rfl

/-- Every computer finds its own row. -/
theorem planLoop_own {rows before rest : List Computer} (hrows : Distinct rows)
    (h : rows = before ++ rest) {claimed : List Nat}
    (hclaimed : ∀ i ∈ claimed, i < before.length) :
    planLoop fold rows claimed rest = rest.map ownEntry := by
  induction rest generalizing before claimed with
  | nil => rfl
  | cons c rest ih =>
      have hrow : rows[before.length]? = some c := by
        rw [h, List.getElem?_append_right (Nat.le_refl _), Nat.sub_self]
        rfl
      have hid : (ids rows)[before.length]? = some c.id := by
        rw [getElem?_ids, hrow]
        rfl
      have hfree : before.length ∉ claimed :=
        fun hmem => Nat.lt_irrefl _ (hclaimed _ hmem)
      have hhit : findHit fold rows claimed c = some before.length :=
        findHit_byId hrows c hfree hid
      have hsplit : rows = (before ++ [c]) ++ rest := by
        rw [h, List.append_assoc]
        rfl
      have hmore : ∀ i ∈ before.length :: claimed,
          i < (before ++ [c]).length := by
        intro i hi
        rw [List.length_append, List.length_singleton]
        rcases List.mem_cons.mp hi with rfl | hi
        · omega
        · have := hclaimed i hi
          omega
      rw [planLoop]
      simp only [planEntry, hhit, hrow]
      rw [ih hsplit hmore]
      rfl

/-- New computers are appended, in their order. -/
theorem applyEntries_new (fresh : Nat → Text) {incoming : List Computer}
    (h : ∀ id ∈ ids incoming, id.isEmpty = false) (n : Nat)
    (rows : List Computer) :
    applyEntries fresh n rows (incoming.map newEntry) = rows ++ incoming := by
  induction incoming generalizing n rows with
  | nil => simp [applyEntries]
  | cons c incoming ih =>
      have hnamed : c.id.isEmpty = false := h c.id List.mem_cons_self
      have hone : applyEntry (fresh n) rows (newEntry c) = rows ++ [c] := by
        simp [applyEntry, targetOf, newEntry, hnamed]
      rw [List.map_cons, applyEntries, hone,
        ih (fun id hid => h id (List.mem_cons_of_mem _ hid)),
        List.append_assoc]
      rfl

/-- A row is replaced by what it is. -/
theorem applyEntry_own {rows : List Computer} (hrows : Distinct rows)
    {c : Computer} (hc : c ∈ rows) (fresh : Text) :
    applyEntry fresh rows (ownEntry c) = rows := by
  obtain ⟨i, hi, hget⟩ := List.mem_iff_getElem.mp hc
  have hid : (ids rows)[i]? = some c.id := by
    rw [getElem?_ids, List.getElem?_eq_getElem hi, hget]
    rfl
  have hnamed := hrows.named c.id (List.mem_of_getElem? hid)
  have htarget : targetOf rows (ownEntry c) = some i := by
    cases htarget : targetOf rows (ownEntry c) with
    | none =>
        exact absurd (List.mem_of_getElem? hid)
          (targetOf_none.mp htarget rfl hnamed)
    | some j => rw [hrows.same _ hid (targetOf_some htarget).2]
  unfold applyEntry
  rw [htarget]
  simp only [List.getElem?_eq_getElem hi, hget, Option.getD_some, ownEntry]
  rw [← hget]
  exact List.set_getElem_self hi

theorem applyEntries_own {rows : List Computer} (hrows : Distinct rows)
    {incoming : List Computer} (h : ∀ c ∈ incoming, c ∈ rows)
    (fresh : Nat → Text) (n : Nat) :
    applyEntries fresh n rows (incoming.map ownEntry) = rows := by
  induction incoming generalizing n with
  | nil => rfl
  | cons c incoming ih =>
      rw [List.map_cons, applyEntries,
        applyEntry_own hrows (h c List.mem_cons_self)]
      exact ih (fun c hc => h c (List.mem_cons_of_mem _ hc)) (n + 1)

theorem applyImport_fst (a : Platform) (plan : List ImportPlanEntry)
    (m : ComputerModel) :
    (m.applyImport json aes a plan).1 = true ↔ ¬Unsaved a m := by
  unfold applyImport mutate persist Unsaved
  dsimp only
  by_cases hattached : m.attached = true
  · rw [if_neg (by simp [hattached])]
    have hsave : (m.store.saveComputers json (toJsonArray aes a
        (applyEntries a.fresh 0 m.computers plan)) a.writing).1 = _ :=
      saveComputers_fst _ _ _
    generalize m.store.saveComputers json _ a.writing = r at hsave
    obtain ⟨ok, s'⟩ := r
    change ok = _ at hsave
    subst hsave
    by_cases hw : a.writing = .done <;> simp [hattached, hw]
  · simp [hattached]

end ComputerModel

/-! ## The controller -/

namespace BackupController

open ComputerModel

variable {json : JsonText} {ssl : BackupCodec.OpenSsl} {aes : AesCtr}

/-- What a file was written from. -/
theorem exportTo_some {a : BackupCodec.Fresh} {w : Exporting} {url : FileUrl}
    {password : Text} {m : ComputerModel} {c : BackupController}
    {bytes : Bytes}
    (h : (exportTo json ssl a w url password (some m) c).2.2 = some bytes) :
    password.isEmpty = false ∧
      BackupCodec.encode ssl json a
        (m.computers.map fun x => .obj x.toPortableJson) password =
          .ok bytes := by
  unfold exportTo at h
  split at h
  · cases h
  dsimp only at h
  split at h
  · cases h
  next hpassword =>
  split at h
  · cases h
  split at h
  · cases h
  · next hencode =>
    cases w with
    | refused | failed => cases h
    | done =>
        cases h
        exact ⟨by simpa using hpassword, hencode⟩

theorem exportTo_done {a : BackupCodec.Fresh} {url : FileUrl} {password : Text}
    {m : ComputerModel} {c : BackupController} {bytes : Bytes}
    (hc : c.state ≠ .working) (hpassword : password.isEmpty = false)
    (hpath : url.path.isEmpty = false)
    (h : BackupCodec.encode ssl json a
      (m.computers.map fun x => .obj x.toPortableJson) password = .ok bytes) :
    ∃ c', exportTo json ssl a .done url password (some m) c =
      (true, c', some bytes) := by
  unfold exportTo
  simp [hc, hpassword, hpath, h]

theorem incomingOf_portable (fresh : Nat → Text) {rows : List Computer}
    (h : ∀ id ∈ ids rows, id.isEmpty = false) :
    incomingOf fresh (rows.map fun x => .obj x.toPortableJson) = rows := by
  have hall : (rows.map fun x => Json.obj x.toPortableJson).filter
      Json.isObject = rows.map fun x => .obj x.toPortableJson := by
    rw [List.filter_eq_self]
    intro v hv
    obtain ⟨x, _, rfl⟩ := List.mem_map.mp hv
    rfl
  rw [incomingOf, hall]
  refine List.ext_getElem (by simp) fun i hi hrow => ?_
  rw [List.getElem_mapIdx, List.getElem_map]
  refine fromPortableJson_toPortableJson (fresh i) (h _ ?_)
  exact List.mem_map_of_mem (List.getElem_mem hrow)

/-- What is planned for a file that is read. -/
theorem prepareImport_ok (fold : Text → Text) (fresh : Nat → Text)
    (url : FileUrl) {password : Text} (m : ComputerModel)
    {c : BackupController} {bytes : Bytes} {items : List Json}
    (hc : c.state ≠ .working) (hpassword : password.isEmpty = false)
    (hsize : bytes.length ≤ BackupCodec.kMaxFileBytes)
    (h : BackupCodec.decode ssl json bytes password = .ok items) :
    let r := prepareImport json ssl fold fresh (some (.of bytes)) url password
      (some m) c
    let plan := m.planImport fold (incomingOf fresh items)
    r.1 = true ∧ r.2.state = .needsConfirm ∧ r.2.pendingPlan = plan ∧
      r.2.addCount = plan.countP fun e => !isUpdate e := by
  unfold prepareImport BackupFile.of
  simp [hc, hpassword, Nat.not_lt.mpr hsize, h]

theorem prepareImport_long {fold : Text → Text} {fresh : Nat → Text}
    {url : FileUrl} {password : Text} {m : ComputerModel}
    {c : BackupController} {bytes : Bytes}
    (hsize : BackupCodec.kMaxFileBytes < bytes.length) :
    (prepareImport json ssl fold fresh (some (.of bytes)) url password
      (some m) c).1 = false := by
  unfold prepareImport BackupFile.of
  by_cases hc : c.state = .working <;>
    by_cases hpassword : password.isEmpty = true <;>
      simp [hc, hpassword, hsize]

/-- A plan that is confirmed is applied, and fails where it is not saved. -/
theorem applyImport_planned (json : JsonText) (aes : AesCtr) (a : Platform)
    (m : ComputerModel) {c : BackupController} (hc : c.state = .needsConfirm) :
    let r := applyImport json aes a (some m) c
    (r.1 = true ↔ ¬Unsaved a m) ∧ r.2.2.map (·.computers) =
      some (if Unsaved a m then m.computers
        else applyEntries a.fresh 0 m.computers c.pendingPlan) := by
  have hfst : (m.applyImport json aes a c.pendingPlan).1 = true ↔ _ :=
    applyImport_fst _ _ _
  have hrows : (m.applyImport json aes a c.pendingPlan).2.computers = _ :=
    applyImport_computers _ _ _
  unfold applyImport
  rw [if_neg (not_not.mpr hc), ← hrows, ← hfst]
  dsimp only
  generalize m.applyImport json aes a c.pendingPlan = r
  obtain ⟨ok, m'⟩ := r
  cases ok <;> simp

/-- A backup brings the list back: into a list that is empty, by a successful
import, as it was, and into the list itself without a change. -/
structure Restores (json : JsonText) (ssl : BackupCodec.OpenSsl) (aes : AesCtr)
    (bytes : Bytes) (password : Text) (m : ComputerModel) : Prop where
  empty : ∀ fold fresh url a (e : ComputerModel) (c : BackupController),
    e.computers = [] → c.state ≠ .working →
    let p := prepareImport json ssl fold fresh (some (.of bytes)) url password
      (some e) c
    let r := applyImport json aes a (some e) p.2
    p.1 = true ∧ (¬Unsaved a e →
      r.1 = true ∧ r.2.2.map (·.computers) = some m.computers)
  unchanged : ∀ fold fresh url a (c : BackupController), c.state ≠ .working →
    let p := prepareImport json ssl fold fresh (some (.of bytes)) url password
      (some m) c
    let r := applyImport json aes a (some m) p.2
    p.1 = true ∧ p.2.addCount = 0 ∧ (r.1 = true ↔ ¬Unsaved a m) ∧
      r.2.2.map (·.computers) = some m.computers

/-- An export is restored exactly where the file is not too long to be read. -/
theorem backup_restored_iff (json : JsonText) (ssl : BackupCodec.OpenSsl)
    (aes : AesCtr) (a : BackupCodec.Fresh) (w : Exporting) (url : FileUrl)
    (password : Text) (m : ComputerModel) (hm : Distinct m.computers)
    (c c' : BackupController) (bytes : Bytes)
    (hexport : exportTo json ssl a w url password (some m) c =
      (true, c', some bytes)) :
    Restores json ssl aes bytes password m ↔
      bytes.length ≤ BackupCodec.kMaxFileBytes := by
  obtain ⟨hpassword, hencode⟩ := exportTo_some
    (congrArg (fun r => r.2.2) hexport)
  constructor
  · intro h
    by_contra hlong
    have hread := (h.empty id (fun _ => .empty) {} {} {} {} rfl nofun).1
    rw [prepareImport_long (Nat.lt_of_not_le hlong)] at hread
    cases hread
  · intro hsize
    have hdecode := BackupCodec.decode_encode hencode hsize
    constructor
    · intro fold fresh url a e c he hc
      obtain ⟨hok, hstate, hplan, _⟩ :=
        prepareImport_ok fold fresh url e hc hpassword hsize hdecode
      obtain ⟨hfst, hrows⟩ := applyImport_planned json aes a e hstate
      refine ⟨hok, fun hsaved => ⟨hfst.mpr hsaved, ?_⟩⟩
      rw [hrows, if_neg hsaved, hplan, incomingOf_portable fresh hm.named,
        planImport, he, planLoop_empty, applyEntries_new _ hm.named]
      rfl
    · intro fold fresh url a c hc
      obtain ⟨hok, hstate, hplan, hadded⟩ :=
        prepareImport_ok fold fresh url m hc hpassword hsize hdecode
      obtain ⟨hfst, hrows⟩ := applyImport_planned json aes a m hstate
      have hown : m.planImport fold (incomingOf fresh
          (m.computers.map fun x => .obj x.toPortableJson)) =
            m.computers.map ownEntry := by
        rw [incomingOf_portable fresh hm.named]
        exact planLoop_own hm (List.nil_append _).symm nofun
      refine ⟨hok, ?_, hfst, ?_⟩
      · rw [hadded, hown, List.countP_map, List.countP_eq_zero]
        intro x _
        simp [isUpdate, ownEntry]
      · rw [hrows, hplan, hown, applyEntries_own hm (fun _ h => h), ite_self]

/-! ## A file that is too long -/

/-- The bytes of a number, the high ones first. -/
def bigEndian (width n : Nat) : Bytes :=
  (List.range width).map fun i => UInt8.ofNat (n / 256 ^ (width - 1 - i))

theorem length_bigEndian (width n : Nat) : (bigEndian width n).length = width :=
  by simp [bigEndian]

/-- The key that PBKDF2 derives from "pw" and a salt of zeros. -/
def zeroSaltKey : BackupCodec.Block BackupCodec.kAesKeyLen where
  val := bigEndian 32
    0x0e9e98a3e9543a7f60cb582cbe37ee16bfe69adfd9c7884186abae1a37308317
  property := length_bigEndian 32 _

/-- What that key enciphers 366 bytes with, under a vector of zeros. -/
def zeroIvStream : Bytes := [
  0xc404233d438c0b7f8c23d8b2fcc028bd525ca3b69e9d1e8d39d277f9ab0fd41e,
  0x5de6f0acfcb18e57d611a6cd914d8057036eed0594c7e637515de22dcf202d3d,
  0xe07b0e639f671b972189265b36063dd48f97e32004d950ce9288269d90c0f40b,
  0xdf6ad044b745be00e20cd0d50ae5fef6e3c809428d97a6bde840e11abb240652,
  0x28952ce323dbee3104d0802c965afb132e9456709edcee3dc0314e5f388fc938,
  0x69d19b0f0e3cb17f5508132ec1d80169eba36a77e702a2d5daaa4a7b19f7d390,
  0xf3d76d03e355e039b06062514f1d6f59ed9094a03c29c3ec3f2eb54aace40e86,
  0xeec8521986e8711354ba3326e1b1d28981dcbd268252654501391fc1e9ffddf9,
  0x7adec4123fa37255604ae75b55be3127c188f7decdcdfdc9858f840ccbda198c,
  0x6548dc9dfdd9b77b0b1c81e608d4616ab654e2df41c5f1b789ce507891d82279,
  0x2e6702bf4fb0374d579a9ea4ed7e85e31d23597088f16e43b6ff2d9a07d63719
  ].flatMap (bigEndian 32) ++ bigEndian 14 0xb571e65d1f09e61fc8788686d93e

/-- The tag of the backup of `office`. -/
def officeTag : Bytes := bigEndian 16 0xfe94c25dc33ddff38fcb418a0ceb97b2

/-- OpenSSL as it answers an export of `office`. -/
def officeSsl : BackupCodec.OpenSsl where
  pbkdf2 _ _ _ := some zeroSaltKey
  encrypt _ _ pt := some (SecretCodec.under zeroIvStream pt, officeTag)
  decrypt _ _ ct tag :=
    if tag = officeTag then some (SecretCodec.under zeroIvStream ct) else none
  encrypt_length := by
    rintro key iv pt ct tag ⟨⟩
    exact ⟨SecretCodec.length_under _ _, length_bigEndian 16 _⟩
  decrypt_encrypt := by
    rintro key iv pt ct tag ⟨⟩
    simp [SecretCodec.under_under]

def office : Computer :=
  { id := .lit "7b1f", name := .lit "Büro", host := .lit "10.0.0.5",
    pass := .lit "P@ss", tls := true, trustedFingerprints := [.lit "AB"] }

def zeroSalt : BackupCodec.Block BackupCodec.kSaltLen :=
  ⟨List.replicate 32 0, by simp [BackupCodec.kSaltLen]⟩

def zeroIv : BackupCodec.Block BackupCodec.kGcmIvLen :=
  ⟨List.replicate 12 0, by simp [BackupCodec.kGcmIvLen]⟩

/-- Salt and vector as a generator of zeros would fill them in. -/
def zeros : BackupCodec.Fresh where
  salt := some zeroSalt
  iv := some zeroIv
  createdAt := .lit "2026-01-01T00:00:00Z"

set_option maxRecDepth 10000 in
/-- An export of `office`. -/
theorem backup_restored_iff_office :
    let m : ComputerModel := { computers := [office] }
    let url : FileUrl := { toLocalFile := "/tmp/b.qumesh-backup" }
    let r := exportTo qtJson officeSsl zeros .done url (.lit "pw") (some m) {}
    Restores qtJson officeSsl SecretCodec.zeroStream (r.2.2.getD [])
        (.lit "pw") m ↔
      (r.2.2.getD []).length ≤ BackupCodec.kMaxFileBytes := by
  intro m url r
  have hall : ∀ r : Bool × BackupController × Option Bytes, r.1 = true →
      r.2.2 = some (r.2.2.getD []) →
        r = (true, r.2.1, some (r.2.2.getD [])) := by
    rintro ⟨_, c, b⟩ rfl hb
    exact congrArg (fun b => (true, c, b)) hb
  have hok : r.1 = true := by decide
  have hfile : r.2.2 = some (r.2.2.getD []) := by decide
  exact backup_restored_iff qtJson officeSsl SecretCodec.zeroStream zeros .done
    url (.lit "pw") m ⟨by decide, by decide⟩ {} r.2.1 _
    (hall r hok hfile)

/-- A machine with a name of 64 MiB. -/
def longName : Text := .ofLatin1 (List.replicate (2 ^ 26) 0x61)

def longNamed : Computer := { id := .lit "7b1f", name := longName }

theorem length_longName : longName.utf8.length = 2 ^ 26 := by
  rw [longName, Text.ofLatin1_ascii, List.length_replicate]
  intro x hx
  rw [List.eq_of_mem_replicate hx]
  decide

/-- The document that is encrypted for it. -/
def longPayload : Bytes :=
  qtJson.print true (BackupCodec.payload [.obj longNamed.toPortableJson])

theorem length_longPayload :
    2 ^ 26 < longPayload.length ∧ longPayload.length < 2 ^ 31 := by
  have hprint : longPayload = Json.printAt true 0 (BackupCodec.payload
      [.obj longNamed.toPortableJson]) := List.append_nil _
  have htexts : Json.texts (BackupCodec.payload
      [.obj longNamed.toPortableJson]) =
        [BackupCodec.kSchema, .lit "7b1f", longName, .empty, .empty, .empty,
          .empty, .empty, .empty, .empty, .empty, .empty] := rfl
  have hframe : Json.frame (BackupCodec.payload
      [.obj longNamed.toPortableJson]) < 1000 := by decide
  have hlow := Json.le_length_printAt true 0 (BackupCodec.payload
    [.obj longNamed.toPortableJson]) (t := longName) (by rw [htexts]; simp)
  have hhigh := Json.length_printAt_le 0 (BackupCodec.payload
    [.obj longNamed.toPortableJson])
  have hbytes : Json.textBytes [BackupCodec.kSchema, .lit "7b1f", longName,
      .empty, .empty, .empty, .empty, .empty, .empty, .empty, .empty, .empty] =
        18 + (4 + 2 ^ 26) := by
    have hschema : BackupCodec.kSchema.utf8.length = 18 := by decide
    have hid : (Text.lit "7b1f").utf8.length = 4 := by decide
    have hempty : Text.empty.utf8.length = 0 := rfl
    simp only [Json.textBytes_cons, Json.textBytes_nil, hschema, hid, hempty,
      length_longName, Nat.add_zero]
  rw [htexts, hbytes] at hhigh
  rw [length_longName] at hlow
  rw [← hprint] at hlow hhigh
  omega

/-- The export succeeds, and the file is longer than what is read. -/
theorem encode_long : ∃ bytes, BackupCodec.encode officeSsl qtJson zeros
    [.obj longNamed.toPortableJson] (.lit "pw") = .ok bytes ∧
      BackupCodec.kMaxFileBytes < bytes.length := by
  have hencrypt : officeSsl.encrypt zeroSaltKey zeroIv longPayload =
      some (SecretCodec.under zeroIvStream longPayload, officeTag) := rfl
  refine ⟨_, BackupCodec.encode_ok rfl rfl (by decide) (by decide) rfl
    rfl length_longPayload.2 hencrypt, ?_⟩
  have hlow := Json.le_length_printAt false 0 (.obj (BackupCodec.envelope
    zeros.createdAt zeroSalt zeroIv officeTag
      (SecretCodec.under zeroIvStream longPayload)))
    (t := BackupCodec.b64 (SecretCodec.under zeroIvStream longPayload))
    (by simp [Json.texts, Json.fieldTexts, BackupCodec.envelope])
  have hb64 := le_length_toBase64 (SecretCodec.under zeroIvStream longPayload)
  have hpayload := length_longPayload.1
  rw [BackupCodec.b64, Text.ofLatin1_ascii (ascii_toBase64 _)] at hlow
  rw [SecretCodec.length_under] at hb64
  have hmax : BackupCodec.kMaxFileBytes = 2 ^ 26 := rfl
  change _ < (Json.print false _).length
  rw [Json.print, List.length_append]
  exact Nat.lt_of_lt_of_le (by omega) (Nat.le_add_right _ _)

/-- What was exported cannot be imported, under the same password. -/
theorem backup_refused :
    let m : ComputerModel := { computers := [longNamed] }
    let url : FileUrl := { toLocalFile := "/tmp/b.qumesh-backup" }
    Distinct m.computers ∧ ∃ c' bytes,
      exportTo qtJson officeSsl zeros .done url (.lit "pw") (some m) {} =
          (true, c', some bytes) ∧
        (prepareImport qtJson officeSsl id (fun _ => .empty)
          (some (.of bytes)) url (.lit "pw") (some m) c').1 = false := by
  intro m url
  obtain ⟨bytes, hencode, hlong⟩ := encode_long
  have hpassword : (Text.lit "pw").isEmpty = false := by decide
  have hpath : url.path.isEmpty = false := by decide
  have hidle : ({} : BackupController).state ≠ .working := nofun
  obtain ⟨c', hexport⟩ :=
    exportTo_done (m := m) hidle hpassword hpath hencode
  exact ⟨⟨by decide, by decide⟩, c', bytes, hexport, prepareImport_long hlong⟩

end BackupController

end QuMesh.App
