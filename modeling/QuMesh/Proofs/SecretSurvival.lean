import QuMesh.Proofs.ComputerSaves

/-!
# Secrets across loads and saves

Every save encodes every secret of the list anew, and every load decodes every
secret of the file, so a secret survives exactly as long as each decoding gives
the plaintext back. An envelope that was written decodes to its plaintext,
`decode_encode`; what does not come back is text that begins with a byte order
mark, and a `v3:` envelope that is decoded while the key store has no key to
give. The decoder makes an empty secret of that, and the next save of any row
writes the empty secret over the envelope.
-/

namespace QuMesh.App

open QuMesh.Lib

variable {json : JsonText} {aes : AesCtr}

namespace SecretCodec

/-- `RAND_bytes` succeeds. -/
def Answers.Filled (a : Answers) : Prop :=
  a.v3Iv.isSome ∧ a.v2Key.isSome ∧ a.v2Iv.isSome

/-- The key store has the key, or none. -/
def Answers.Agrees (key : Bytes) (a : Answers) : Prop :=
  a.masterKey.length = kAesKeyLen → a.masterKey = key

theorem aes256CtrCrypt_twice {key iv : Bytes} (hkey : key.length = kAesKeyLen)
    (hiv : iv.length = kAesIvLen) (b : Bytes) :
    aes256CtrCrypt aes key iv (aes256CtrCrypt aes key iv b) = b := by
  have hok : ¬(key.length ≠ kAesKeyLen ∨ iv.length ≠ kAesIvLen) := by
    simp [hkey, hiv]
  rw [aes256CtrCrypt, if_neg hok, aes256CtrCrypt, if_neg hok]
  exact aes.crypt_crypt key iv b

theorem aes256CtrCrypt_isEmpty {key iv : Bytes}
    (hkey : key.length = kAesKeyLen) (hiv : iv.length = kAesIvLen) (b : Bytes) :
    (aes256CtrCrypt aes key iv b).isEmpty = b.isEmpty := by
  have hok : ¬(key.length ≠ kAesKeyLen ∨ iv.length ≠ kAesIvLen) := by
    simp [hkey, hiv]
  have hlength := aes.length_crypt key iv b
  rw [aes256CtrCrypt, if_neg hok, Bool.eq_iff_iff, List.isEmpty_iff_length_eq_zero,
    List.isEmpty_iff_length_eq_zero, hlength]

theorem take_toHex {b : Bytes} {n : Nat} (h : b.length = n) (t : Bytes) :
    (toHex b ++ t).take (n * 2) = toHex b ∧
      (toHex b ++ t).drop (n * 2) = t := by
  have hlength : (toHex b).length = n * 2 := by
    rw [length_toHex, h]
    omega
  exact ⟨List.take_left' hlength, List.drop_left' hlength⟩

theorem decryptV3_written {key iv : Bytes} (hkey : key.length = kAesKeyLen)
    (hiv : iv.length = kAesIvLen) (b : Bytes) :
    decryptV3 aes (toHex iv ++ toHex (aes256CtrCrypt aes key iv b)) key = b := by
  obtain ⟨htake, hdrop⟩ := take_toHex hiv (toHex (aes256CtrCrypt aes key iv b))
  have hlong : ¬(toHex iv ++ toHex (aes256CtrCrypt aes key iv b)).length <
      kIvHexLen := by
    rw [List.length_append, length_toHex, hiv, kIvHexLen]
    omega
  unfold decryptV3
  rw [if_neg hlong]
  simp only [kIvHexLen, htake, hdrop, isHex_toHex, fromHex_toHex, hiv]
  exact aes256CtrCrypt_twice hkey hiv b

theorem decryptV2_written {key iv : Bytes} (hkey : key.length = kAesKeyLen)
    (hiv : iv.length = kAesIvLen) (b : Bytes) :
    decryptV2 aes (kV2Prefix ++ toHex key ++ toHex iv ++
      toHex (aes256CtrCrypt aes key iv b)) = some b := by
  generalize hct : aes256CtrCrypt aes key iv b = ct
  obtain ⟨hkeyHex, hrest⟩ := take_toHex hkey (toHex iv ++ toHex ct)
  obtain ⟨hivHex, hctHex⟩ := take_toHex hiv (toHex ct)
  have hlong : ¬(toHex key ++ (toHex iv ++ toHex ct)).length <
      kV2KeyHexLen + kV2IvHexLen := by
    rw [List.length_append, List.length_append, length_toHex, length_toHex,
      hkey, hiv, kV2KeyHexLen, kV2IvHexLen]
    omega
  unfold decryptV2
  simp only [List.append_assoc, List.drop_left]
  rw [if_neg hlong]
  simp only [kV2KeyHexLen, kV2IvHexLen, hkeyHex, hrest, hivHex, ← List.drop_drop,
    hctHex, fromHex_toHex, hkey, hiv]
  rw [if_neg (by simp), ← hct, aes256CtrCrypt_twice hkey hiv]

theorem ascii_kV3Prefix : Text.Ascii kV3Prefix := by
  simp [Text.Ascii, kV3Prefix]

theorem ascii_kV2Prefix : Text.Ascii kV2Prefix := by
  simp [Text.Ascii, kV2Prefix]

/-- What an envelope is decoded to. -/
theorem decode_v3 {key iv : Bytes} (hkey : key.length = kAesKeyLen)
    (hiv : iv.length = kAesIvLen) (b : Bytes) :
    decode aes key (.ofLatin1 (kV3Prefix ++ toHex iv ++
      toHex (aes256CtrCrypt aes key iv b))) = .ofUtf8 b := by
  have hascii : Text.Ascii (kV3Prefix ++ toHex iv ++
      toHex (aes256CtrCrypt aes key iv b)) :=
    .append (.append ascii_kV3Prefix (ascii_toHex _)) (ascii_toHex _)
  have hbody : Text.Ascii (toHex iv ++ toHex (aes256CtrCrypt aes key iv b)) :=
    .append (ascii_toHex _) (ascii_toHex _)
  have hutf8 := Text.ofLatin1_ascii hascii
  unfold decode Text.isEmpty Text.startsWith
  rw [hutf8, List.append_assoc, if_neg (by simp [kV3Prefix]),
    if_pos (by simp [kV3Prefix]), if_neg (by simp [hkey])]
  simp only [List.drop_left]
  rw [Text.toLatin1_ascii hbody, decryptV3_written hkey hiv]

theorem decode_v2 (master : Bytes) {key iv : Bytes}
    (hkey : key.length = kAesKeyLen) (hiv : iv.length = kAesIvLen) (b : Bytes) :
    decode aes master (.ofLatin1 (kV2Prefix ++ toHex key ++ toHex iv ++
      toHex (aes256CtrCrypt aes key iv b))) = .ofUtf8 b := by
  have hascii : Text.Ascii (kV2Prefix ++ toHex key ++ toHex iv ++
      toHex (aes256CtrCrypt aes key iv b)) :=
    .append (.append (.append ascii_kV2Prefix (ascii_toHex _)) (ascii_toHex _))
      (ascii_toHex _)
  have hutf8 := Text.ofLatin1_ascii hascii
  unfold decode Text.isEmpty Text.startsWith
  rw [hutf8, Text.toLatin1_ascii hascii, decryptV2_written hkey hiv]
  simp [kV2Prefix, kV3Prefix]

theorem decode_empty (key : Bytes) : decode aes key .empty = .empty := rfl

theorem ofLatin1_isEmpty (b : Bytes) :
    (Text.ofLatin1 b).isEmpty = b.isEmpty := by
  cases b with
  | nil => rfl
  | cons x b =>
      simp only [Text.isEmpty, Text.ofLatin1, List.flatMap_cons, Text.latin1Utf8]
      split <;> rfl

/-- A secret that was written decodes to its plaintext, as it reads back from
UTF-8. -/
theorem decode_encode {key : Bytes} {a : Answers} (hagrees : a.Agrees key)
    (hfilled : a.Filled) (plaintext : Text) :
    decode aes key (encode aes a plaintext) = .ofUtf8 plaintext.utf8 := by
  obtain ⟨hv3Iv, hv2Key, hv2Iv⟩ := hfilled
  obtain ⟨iv, hiv⟩ := Option.isSome_iff_exists.mp hv3Iv
  obtain ⟨key₂, hkey₂⟩ := Option.isSome_iff_exists.mp hv2Key
  obtain ⟨iv₂, hiv₂⟩ := Option.isSome_iff_exists.mp hv2Iv
  unfold encode
  split
  · next hempty =>
    rw [decode_empty]
    have hnil : plaintext.utf8 = [] := List.isEmpty_iff.mp hempty
    rw [hnil]
    rfl
  · next hplain =>
    have hplain : plaintext.utf8.isEmpty = false :=
      Bool.eq_false_iff.mpr hplain
    dsimp only
    by_cases hmaster : a.masterKey.length = kAesKeyLen
    · -- the envelope is under the master key
      have hnonempty : (aes256CtrCrypt aes _ _ _).isEmpty = _ :=
        aes256CtrCrypt_isEmpty hmaster iv.2 plaintext.utf8
      rw [hplain] at hnonempty
      have hv3 : encryptV3 aes a plaintext.utf8 a.masterKey =
          .ofLatin1 (kV3Prefix ++ toHex iv ++ toHex
            (aes256CtrCrypt aes a.masterKey iv plaintext.utf8)) := by
        rw [encryptV3, hiv]
        simp [hnonempty]
      rw [if_pos hmaster, hv3, ofLatin1_isEmpty, if_pos (by simp [kV3Prefix]),
        ← hagrees hmaster]
      exact decode_v3 hmaster iv.2 plaintext.utf8
    · have hnonempty : (aes256CtrCrypt aes _ _ _).isEmpty = _ :=
        aes256CtrCrypt_isEmpty key₂.2 iv₂.2 plaintext.utf8
      rw [hplain] at hnonempty
      have hv2 : encryptV2 aes a plaintext.utf8 =
          kV2Prefix ++ toHex key₂ ++ toHex iv₂ ++ toHex
            (aes256CtrCrypt aes key₂ iv₂ plaintext.utf8) := by
        rw [encryptV2, hkey₂, hiv₂]
        simp [hnonempty]
      rw [if_neg hmaster, if_neg (by decide), hv2]
      exact decode_v2 key key₂.2 iv₂.2 plaintext.utf8

/-- Only a `v3:` envelope needs the key. -/
theorem decode_keyless {stored : Text} (h : stored.startsWith kV3Prefix = false)
    (key key' : Bytes) : decode aes key stored = decode aes key' stored := by
  simp [decode, h]

end SecretCodec

/-- The field a secret is stored under. -/
def Secret.key : Secret → String
  | .pass => "pass"
  | .sshPassword => "sshPassword"
  | .sshKeyPassphrase => "sshKeyPassphrase"

def Computer.secret (c : Computer) : Secret → Text
  | .pass => c.pass
  | .sshPassword => c.sshPassword
  | .sshKeyPassphrase => c.sshKeyPassphrase

theorem fromJson_secret (fresh : Text) (a : Secret → SecretCodec.Answers)
    (fields : List (String × Json)) (s : Secret) :
    (Computer.fromJson aes fresh a fields).secret s =
      SecretCodec.decode aes (a s).masterKey (field fields s.key).toText := by
  cases s <;> rfl

theorem toJson_secret (a : Secret → SecretCodec.Answers) (c : Computer)
    (s : Secret) :
    (field (c.toJson aes a) s.key).toText =
      SecretCodec.encode aes (a s) (c.secret s) := by
  cases s <;> rfl

namespace ComputerModel

open SecretCodec

/-! ## The file -/

/-- The stored secret of a row of the file. -/
def storedAt (json : JsonText) (file : Option Bytes) (row : Nat) (s : Secret) :
    Option Text :=
  match file.map json.parse with
  | some (.ok (.arr items)) =>
      match items[row]? with
      | some (.obj fields) => some (field fields s.key).toText
      | _ => none
  | _ => none

/-- The plaintext it decodes to, with the key store available. -/
def plaintextAt (json : JsonText) (aes : AesCtr) (key : Bytes)
    (file : Option Bytes) (row : Nat) (s : Secret) : Option Text :=
  (storedAt json file row s).map (decode aes key)

/-! ## Following a row -/

/-- Where a row of the file is after an event: one place further up, where a
row above it was removed. -/
def rowAfter (json : JsonText) (aes : AesCtr) (m : ComputerModel) (row : Nat) :
    Event × Platform → Nat
  | (.call (.removeAt i), a) =>
      if m.attached ∧ (m.call json aes (.removeAt i) a).1 ∧ i < row then row - 1
      else row
  | _ => row

/-- A model and the row of its file that is followed. -/
def follow (json : JsonText) (aes : AesCtr) (t : ComputerModel × Nat)
    (e : Event × Platform) : ComputerModel × Nat :=
  (t.1.handle json aes e, rowAfter json aes t.1 t.2 e)

/-- The event does not edit or remove the row: a call that reports success
leaves the computer in it as it was. -/
def Spares (json : JsonText) (aes : AesCtr) (t : ComputerModel × Nat) :
    Event × Platform → Prop
  | (.setStore _, _) => True
  | (.call c, a) =>
      t.1.attached = true → (t.1.call json aes c a).1 = true →
        (t.1.call json aes c a).2.computers[rowAfter json aes t.1 t.2
          (.call c, a)]? = t.1.computers[t.2]?

instance (t : ComputerModel × Nat) (e : Event × Platform) :
    Decidable (Spares json aes t e) :=
  match e with
  | (.setStore _, _) => .isTrue trivial
  | (.call _, _) => inferInstanceAs (Decidable (_ → _ → _ = _))

/-- The platform serves the row. What a load reads is the whole file, and the
key store has the key for each of the row's secrets that is under it; what a
call writes, it has random bytes for. -/
def Serves (json : JsonText) (aes : AesCtr) (key : Bytes)
    (t : ComputerModel × Nat) : Event × Platform → Prop
  | (.setStore _, a) => a.reading = .data none ∧
      ∀ s, (storedAt json t.1.store.file t.2 s).any (·.startsWith kV3Prefix) →
        (a.secrets t.2 s).masterKey = key
  | (.call c, a) => ∀ s,
      (a.secrets (rowAfter json aes t.1 t.2 (.call c, a)) s).Filled

/-- It is the same key whenever there is one. -/
def OneKey (key : Bytes) (e : Event × Platform) : Prop :=
  ∀ row s, (e.2.secrets row s).Agrees key

/-- The row's secrets in the file, and those of the computer in the row. -/
structure Survives (json : JsonText) (aes : AesCtr) (key : Bytes)
    (plain : Secret → Text) (t : ComputerModel × Nat) : Prop where
  inFile : ∃ objs : List (List (String × Json)),
    (∃ b, t.1.store.file = some b ∧ b ≠ [] ∧
      json.parse b = .ok (.arr (objs.map .obj))) ∧
    (t.1.attached = true → t.1.computers.length = objs.length) ∧
    ∃ fields, objs[t.2]? = some fields ∧
      ∀ s, decode aes key (field fields s.key).toText = plain s
  inMemory : t.1.attached = true → ∃ c, t.1.computers[t.2]? = some c ∧
    ∀ s, c.secret s = plain s

variable {key : Bytes} {plain : Secret → Text}

theorem Survives.plaintext {t : ComputerModel × Nat}
    (h : Survives json aes key plain t) (s : Secret) :
    plaintextAt json aes key t.1.store.file t.2 s = some (plain s) := by
  obtain ⟨objs, ⟨b, hfile, _, hparse⟩, _, fields, hrow, hplain⟩ := h.inFile
  have hitem : (objs.map Json.obj)[t.2]? = some (.obj fields) := by
    rw [List.getElem?_map, hrow]
    rfl
  simp only [plaintextAt, storedAt, hfile, Option.map_some, hparse, hitem,
    hplain]

/-! ## Loads -/

theorem loadRows_objects (a : Platform) (objs : List (List (String × Json))) :
    ((objs.map Json.obj).mapIdx (loadRow aes a)).filterMap id =
      objs.mapIdx fun i fields =>
        .fromJson aes (a.fresh i) (a.secrets i) fields := by
  have hsome : (objs.map Json.obj).mapIdx (loadRow aes a) =
      (objs.mapIdx fun i fields =>
        Computer.fromJson aes (a.fresh i) (a.secrets i) fields).map some := by
    refine List.ext_getElem? fun i => ?_
    simp only [List.getElem?_mapIdx, List.getElem?_map, Option.map_map]
    rfl
  rw [hsome, List.filterMap_map]
  exact List.filterMap_some

theorem decode_served {stored : Text} {a : SecretCodec.Answers}
    (hagrees : stored.startsWith kV3Prefix = true → a.masterKey = key) :
    decode aes a.masterKey stored = decode aes key stored := by
  cases h : stored.startsWith kV3Prefix with
  | true => rw [hagrees h]
  | false => exact decode_keyless h _ _

theorem Survives.setStore {t : ComputerModel × Nat}
    (h : Survives json aes key plain t) (present : Bool) {a : Platform}
    (hserves : Serves json aes key t (.setStore present, a)) :
    Survives json aes key plain
      (follow json aes t (.setStore present, a)) := by
  obtain ⟨hreading, hkeys⟩ := hserves
  obtain ⟨objs, ⟨b, hfile, hb, hparse⟩, _, fields, hrow, hplain⟩ := h.inFile
  have hstored : ∀ s, storedAt json t.1.store.file t.2 s =
      some (field fields s.key).toText := by
    intro s
    have hitem : (objs.map Json.obj)[t.2]? = some (.obj fields) := by
      rw [List.getElem?_map, hrow]
      rfl
    simp only [storedAt, hfile, Option.map_some, hparse, hitem]
  cases present with
  | false =>
      refine ⟨⟨objs, ⟨b, hfile, hb, hparse⟩, ?_, fields, hrow, hplain⟩, ?_⟩
      · rintro ⟨⟩
      · rintro ⟨⟩
  | true =>
      obtain ⟨hitems, hafter⟩ := loadComputers_whole hfile hb hparse
      have hstore : (t.1.setStore json aes a true).store.file = some b := by
        simp only [ComputerModel.setStore, if_true, hreading, hafter]
      have hrows : (t.1.setStore json aes a true).computers =
          objs.mapIdx fun i fields =>
            .fromJson aes (a.fresh i) (a.secrets i) fields := by
        simp only [ComputerModel.setStore, if_true, hreading, hitems,
          loadRows_objects]
      refine ⟨⟨objs, ⟨b, hstore, hb, hparse⟩, fun _ => ?_, fields, hrow,
        hplain⟩, fun _ => ?_⟩
      · exact (congrArg List.length hrows).trans List.length_mapIdx
      · refine ⟨.fromJson aes (a.fresh t.2) (a.secrets t.2) fields, ?_, ?_⟩
        · change (t.1.setStore json aes a true).computers[t.2]? = _
          rw [hrows, List.getElem?_mapIdx, hrow]
          rfl
        · intro s
          rw [fromJson_secret, ← hplain s]
          refine decode_served fun hv3 => hkeys s ?_
          rw [hstored s, Option.any_some, hv3]

/-! ## Calls -/

/-- Only a removal that is saved moves the row. -/
theorem rowAfter_same {m : ComputerModel} {row : Nat} {c : Call} {a : Platform}
    (h : ¬(m.attached = true ∧ (m.call json aes c a).1 = true)) :
    rowAfter json aes m row (.call c, a) = row := by
  cases c with
  | removeAt i =>
      refine if_neg fun hmoved => h ⟨hmoved.1, hmoved.2.1⟩
  | setData | addTrustedFingerprint | setSshConfig | addTrustedSshHostKey
  | addComputer | applyImport => rfl

/-- Nor does it move where the list is what it was. -/
theorem rowAfter_idle {m : ComputerModel} {row : Nat} {c : Call} {a : Platform}
    (hcall : (m.call json aes c a).1 = true)
    (h : edited a m.computers c = m.computers) :
    rowAfter json aes m row (.call c, a) = row := by
  cases c with
  | removeAt i =>
      rw [call, removeAt] at hcall
      rw [edited] at h
      cases hi : rowOf m.computers i with
      | none =>
          rw [hi] at hcall
          cases hcall
      | some j =>
          rw [hi] at h
          have hlength := congrArg List.length h
          have hlt := rowOf_some hi
          rw [List.length_eraseIdx_of_lt hlt] at hlength
          omega
  | setData | addTrustedFingerprint | setSshConfig | addTrustedSshHostKey
  | addComputer | applyImport => rfl

theorem toJsonArray_eq (a : Platform) (rows : List Computer) :
    toJsonArray aes a rows =
      (rows.mapIdx fun i c => c.toJson aes (a.secrets i)).map .obj := by
  refine List.ext_getElem? fun i => ?_
  simp only [toJsonArray, List.getElem?_mapIdx, List.getElem?_map,
    Option.map_map]
  rfl

theorem Survives.call {t : ComputerModel × Nat}
    (h : Survives json aes key plain t) (c : Call) {a : Platform}
    (hmarks : ∀ s, ¬(plain s).Marked) (hkey : OneKey key (.call c, a))
    (hspares : Spares json aes t (.call c, a))
    (hserves : Serves json aes key t (.call c, a)) :
    Survives json aes key plain (follow json aes t (.call c, a)) := by
  have houtcome : Outcome json aes _ _ _ _ := call_outcome c a t.1
  have hsame : _ → rowAfter json aes t.1 t.2 (.call c, a) = t.2 :=
    rowAfter_same
  have hidle : _ → _ → rowAfter json aes t.1 t.2 (.call c, a) = t.2 :=
    rowAfter_idle
  unfold follow handle
  dsimp only
  rw [Spares] at hspares
  generalize hr : t.1.call json aes c a = r at houtcome hsame hidle hspares ⊢
  cases houtcome with
  | refused m' hattached hcomputers hfile hsaves =>
      rw [hsame (by simp)]
      obtain ⟨hinFile, hinMemory⟩ := h
      exact ⟨by simpa only [hfile, hattached, hcomputers] using hinFile,
        by simpa only [hattached, hcomputers] using hinMemory⟩
  | idle hrows =>
      rw [hidle rfl hrows]
      exact h
  | inMemory hattached =>
      rw [hsame (by simp [hattached])]
      obtain ⟨objs, hfile, _, hrow⟩ := h.inFile
      refine ⟨⟨objs, hfile, fun hat => ?_, hrow⟩, fun hat => ?_⟩ <;>
      · rw [hattached] at hat
        cases hat
  | saved m' hbefore hattached hcomputers hfile hsaves =>
      obtain ⟨c₀, hc₀, hsecret⟩ := h.inMemory hbefore
      have hrow := (hspares hbefore rfl).trans hc₀
      rw [Serves] at hserves
      generalize rowAfter json aes t.1 t.2 (.call c, a) = row at hrow hserves ⊢
      refine ⟨⟨m'.computers.mapIdx fun i c => c.toJson aes (a.secrets i), ?_,
        fun _ => List.length_mapIdx.symm, c₀.toJson aes (a.secrets row), ?_, ?_⟩,
        fun _ => ⟨c₀, hrow, hsecret⟩⟩
      · rw [toJsonArray_eq, ← hcomputers] at hfile
        exact ⟨_, hfile, json.print_ne_nil _ _, json.parse_arr _ _⟩
      · rw [List.getElem?_mapIdx, hrow]
        rfl
      · intro s
        rw [toJson_secret, decode_encode (hkey row s) (hserves s), hsecret s]
        exact Text.ofUtf8_utf8 (hmarks s)

/-! ## Runs -/

/-- What is asked of an event, and what is assumed of it. -/
structure Fair (json : JsonText) (aes : AesCtr) (key : Bytes)
    (t : ComputerModel × Nat) (e : Event × Platform) : Prop where
  oneKey : OneKey key e
  spares : Spares json aes t e
  serves : Serves json aes key t e

theorem Survives.handle {t : ComputerModel × Nat} {e : Event × Platform}
    (h : Survives json aes key plain t) (hmarks : ∀ s, ¬(plain s).Marked)
    (he : Fair json aes key t e) :
    Survives json aes key plain (follow json aes t e) := by
  obtain ⟨e, a⟩ := e
  cases e with
  | setStore present => exact h.setStore present he.serves
  | call c => exact h.call c hmarks he.oneKey he.spares he.serves

/-- A file this program wrote, and the model before it is given the store. -/
theorem Survives.written {m : ComputerModel} (hattached : m.attached = false)
    {a : Platform} {rows : List Computer} {row : Nat} {c : Computer}
    (hfile : m.store.file =
      some (json.print false (.arr (toJsonArray aes a rows))))
    (hrow : rows[row]? = some c) :
    Survives json aes key (fun s => decode aes key
      (encode aes (a.secrets row s) (c.secret s))) (m, row) := by
  have hdetached : m.attached = true → False := by
    rw [hattached]
    nofun
  refine ⟨⟨rows.mapIdx fun i c => c.toJson aes (a.secrets i), ?_,
    fun hat => (hdetached hat).elim, c.toJson aes (a.secrets row), ?_, ?_⟩,
    fun hat => (hdetached hat).elim⟩
  · rw [toJsonArray_eq] at hfile
    exact ⟨_, hfile, json.print_ne_nil _ _, json.parse_arr _ _⟩
  · rw [List.getElem?_mapIdx, hrow]
    rfl
  · intro s
    rw [toJson_secret]

/-- The secrets of a row of a file that this program wrote decode to the same
plaintexts ever after, in every run that does not edit or remove the row and
in which the platform serves it, unless a plaintext begins with a byte order
mark. -/
theorem secrets_survive (json : JsonText) (aes : AesCtr) (key : Bytes)
    (m : ComputerModel) (hattached : m.attached = false) (a : Platform)
    (rows : List Computer)
    (hfile : m.store.file =
      some (json.print false (.arr (toJsonArray aes a rows))))
    (row : Nat) (hrow : row < rows.length)
    (hmarks : ∀ s, ∀ text ∈ plaintextAt json aes key m.store.file row s,
      ¬text.Marked)
    (es : List (Event × Platform)) (hkey : ∀ e ∈ es, OneKey key e)
    (hspares : ∀ x ∈ trail (follow json aes) (m, row) es,
      Spares json aes x.1 x.2)
    (hserves : ∀ x ∈ trail (follow json aes) (m, row) es,
      Serves json aes key x.1 x.2) :
    ∀ early, early <+: es → ∀ s,
      let t := run (follow json aes) (m, row) early
      plaintextAt json aes key t.1.store.file t.2 s =
        plaintextAt json aes key m.store.file row s := by
  obtain ⟨c, hc⟩ : ∃ c, rows[row]? = some c :=
    ⟨_, List.getElem?_eq_getElem hrow⟩
  have hstart : Survives json aes key _ (m, row) :=
    .written hattached hfile hc
  have hplain := hstart.plaintext
  have hunmarked : ∀ s, ¬(decode aes key
      (encode aes (a.secrets row s) (c.secret s))).Marked :=
    fun s => hmarks s _ (by rw [hplain s]; rfl)
  have hfair : ∀ x ∈ trail (follow json aes) (m, row) es,
      Fair json aes key x.1 x.2 := by
    intro x hx
    have hevents : (trail (follow json aes) (m, row) es).map Prod.snd = es :=
      trail_events _ _
    have hmem := List.mem_map_of_mem (f := Prod.snd) hx
    rw [hevents] at hmem
    exact ⟨hkey x.2 hmem, hspares x hx, hserves x hx⟩
  intro early hearly s
  have hend := invariant_of_trail (fun t e ht => ht.handle hunmarked) hstart
    hfair early hearly
  exact (hend.plaintext s).trans (hplain s).symm

/-! ## An outage -/

def zeroKey : Bytes := List.replicate kAesKeyLen 0

/-- The key store and `RAND_bytes` answer. -/
def served : SecretCodec.Answers where
  masterKey := zeroKey
  v3Iv := some ⟨List.replicate kAesIvLen 0, by decide⟩
  v2Key := some ⟨List.replicate kAesKeyLen 0, by decide⟩
  v2Iv := some ⟨List.replicate kAesIvLen 0, by decide⟩

/-- Every secret is served, or the key store is down. -/
def servedAll : Platform := { secrets := fun _ _ => served }

def keyless : Platform :=
  { secrets := fun _ _ => { served with masterKey := [] } }

def lone : Computer :=
  { id := .lit "1", name := .lit "a", host := .lit "h", pass := .lit "pw" }

/-- The model before it is given the store with the lone computer. -/
def beforeLoad : ComputerModel :=
  { store := { file := some (qtJson.print false
      (.arr (toJsonArray zeroStream servedAll [lone]))) } }

/-- An added computer. -/
def adding : Call :=
  .addComputer (.lit "b") (.lit "i") .empty .empty false

theorem oneKey_served (e : Event) : OneKey zeroKey (e, servedAll) :=
  fun _ _ _ => rfl

theorem oneKey_keyless (e : Event) : OneKey zeroKey (e, keyless) := by
  intro row s h
  cases h

/-- A load with the key store available, and a save. -/
theorem secrets_survive_served :
    let es : List (Event × Platform) :=
      [(.setStore true, servedAll), (.call adding, servedAll)]
    ∀ early, early <+: es → ∀ s,
      let t := run (follow qtJson zeroStream) (beforeLoad, 0) early
      plaintextAt qtJson zeroStream zeroKey t.1.store.file t.2 s =
        plaintextAt qtJson zeroStream zeroKey beforeLoad.store.file 0 s := by
  refine secrets_survive qtJson zeroStream zeroKey beforeLoad rfl servedAll
    [lone] rfl 0 (by decide) (fun s => ?_) _ ?_ (by decide +kernel) ?_
  · cases s <;> decide +kernel
  · simp [oneKey_served]
  · intro x hx
    rw [trail_cons, trail_cons, trail_nil] at hx
    rcases List.mem_cons.mp hx with rfl | hx
    · exact ⟨rfl, fun _ _ => rfl⟩
    · rw [List.mem_singleton.mp hx]
      exact fun _ => ⟨rfl, rfl, rfl⟩

/-- The same load while the key store is down: the password is gone with the
next save of another row. -/
theorem secrets_lost :
    let es : List (Event × Platform) :=
      [(.setStore true, keyless), (.call adding, servedAll)]
    let t := run (follow qtJson zeroStream) (beforeLoad, 0) es
    (∀ e ∈ es, OneKey zeroKey e) ∧
      (∀ x ∈ trail (follow qtJson zeroStream) (beforeLoad, 0) es,
        Spares qtJson zeroStream x.1 x.2) ∧
      plaintextAt qtJson zeroStream zeroKey beforeLoad.store.file 0 .pass =
        some (.lit "pw") ∧
      plaintextAt qtJson zeroStream zeroKey t.1.store.file t.2 .pass =
        some .empty := by
  refine ⟨?_, by decide +kernel, by decide +kernel, by decide +kernel⟩
  simp [oneKey_served, oneKey_keyless]

end ComputerModel

end QuMesh.App
