import QuMesh.App.SetupBinController
import QuMesh.Proofs.SetupBinRoundTrip

/-!
# An edit that changes nothing

An editor of the window shows a variable as a text and passes that text back
when the operator leaves it. For numbers and GUIDs the reader is the inverse
of the writer where it accepts: the label of a flag, the null GUID and a value
of the wrong length are shown as texts that are refused, and a refusal changes
nothing. For raw bytes nothing is refused, and the reader takes the text for
the bytes; it is not the inverse of the hex that bytes are shown as which are
not printable, and the text is always longer than they are.
-/

namespace QuMesh.SetupBin

open QuMesh.Lib QuMesh.Wsman

/-- Printable ASCII, the bytes that are shown as they are. -/
def Printable (value : Bytes) : Prop := ∀ b ∈ value, 0x20 ≤ b ∧ b < 0x7F

/-- Not raw bytes, or printable ones. -/
def Plain (var : SetupBinVariable) : Prop :=
  ∀ spec, findSetupBinVarSpec var.moduleId var.varId = some spec →
    spec.type = .binary → Printable var.value

theorem displayed_as_is {value : Bytes} :
    (value.any fun b => b < 0x20 || b ≥ 0x7F) = false ↔ Printable value := by
  simp only [List.any_eq_false, Bool.or_eq_true, decide_eq_true_eq, not_or,
    UInt8.not_lt, UInt8.not_le, Printable, ge_iff_le]

/-! ## Texts and the bytes they stand for -/

theorem displayBinary_printable {value : Bytes} (h : Printable value) :
    (displayBinary value).utf8 = value := by
  have hascii : Text.Ascii value := by
    intro x hx
    have hlt := (h x hx).2
    rw [UInt8.lt_iff_toNat_lt] at hlt ⊢
    exact Nat.lt_trans hlt (by decide)
  have hmark : ¬byteOrderMark <+: value := by
    rintro ⟨rest, rfl⟩
    exact absurd (hascii 0xEF (by simp [byteOrderMark])) (by decide)
  have hvalid : WellFormed value := by
    have := (Text.ofLatin1 value).valid
    rwa [Text.ofLatin1_ascii hascii] at this
  rw [displayBinary, displayed_as_is.mpr h]
  exact hvalid.fromUtf8 hmark

/-- The text of other bytes is longer than they are. -/
theorem displayBinary_longer {value : Bytes} (h : ¬Printable value) :
    value.length < (displayBinary value).utf8.length := by
  have hshown : (value.any fun b => b < 0x20 || b ≥ 0x7F) = true := by
    rw [← Bool.not_eq_false, displayed_as_is]
    exact h
  rw [displayBinary, hshown, if_pos rfl, Text.utf8_append, List.length_append,
    Text.ofLatin1_ascii (ascii_toHex value), length_toHex]
  have hmark : (Text.lit "0x").utf8.length = 2 := by decide
  omega

theorem str_number (n : Nat) : (Text.lit (toString n)).str = toString n := by
  refine Text.str_lit fun c hc => ?_
  rw [Strings.toList_toString] at hc
  have hdigit : c.isDigit = true :=
    Nat.isDigit_of_mem_toDigits (by decide) (by decide) hc
  simp only [Char.isDigit, Bool.and_eq_true, decide_eq_true_eq] at hdigit
  have hle : c.toNat ≤ 57 := hdigit.2
  omega

theorem pack_byte {b : Bytes} (h : b.length = 1) :
    [UInt8.ofNat (byteAt b 0)] = b := by
  obtain ⟨x, rfl⟩ := List.length_eq_one_iff.mp h
  simp [byteAt]

/-- Two bytes from the number they are. -/
theorem pack16Le_pair (x y : UInt8) (more : Nat) :
    pack16Le (x.toNat + 2 ^ 8 * y.toNat + 2 ^ 16 * more) = [x, y] := by
  have hx := x.toNat_lt
  have hy := y.toNat_lt
  rw [pack16Le]
  refine List.cons_eq_cons.mpr ⟨?_, List.cons_eq_cons.mpr ⟨?_, rfl⟩⟩
  · rw [← UInt8.toNat_inj, UInt8.toNat_ofNat']
    omega
  · rw [← UInt8.toNat_inj, UInt8.toNat_ofNat']
    omega

theorem pack16Le_read {b : Bytes} (h : b.length = 2) :
    read16Le b 0 < 2 ^ 16 ∧ pack16Le (read16Le b 0) = b := by
  obtain ⟨x, y, rfl⟩ := List.length_eq_two.mp h
  have hx := x.toNat_lt
  have hy := y.toNat_lt
  have hread : read16Le [x, y] 0 = x.toNat + 2 ^ 8 * y.toNat := rfl
  rw [hread]
  exact ⟨by omega, pack16Le_pair x y 0⟩

theorem pack32Le_read {b : Bytes} (h : b.length = 4) :
    read32Le b 0 < 2 ^ 32 ∧ pack32Le (read32Le b 0) = b := by
  obtain ⟨x, y, z, w, rfl⟩ : ∃ x y z w, b = [x, y, z, w] := by
    match b, h with
    | [x, y, z, w], _ => exact ⟨x, y, z, w, rfl⟩
  have hx := x.toNat_lt
  have hy := y.toNat_lt
  have hz := z.toNat_lt
  have hw := w.toNat_lt
  have hread : read32Le [x, y, z, w] 0 =
      x.toNat + 2 ^ 8 * y.toNat + 2 ^ 16 * (z.toNat + 2 ^ 8 * w.toNat) := rfl
  have hhigh : (x.toNat + 2 ^ 8 * y.toNat +
      2 ^ 16 * (z.toNat + 2 ^ 8 * w.toNat)) / 2 ^ 16 =
        z.toNat + 2 ^ 8 * w.toNat + 2 ^ 16 * 0 := by
    omega
  rw [hread]
  refine ⟨by omega, ?_⟩
  rw [pack32Le, hhigh, pack16Le_pair, pack16Le_pair]
  rfl

/-- No label of a flag is a number, and all are ASCII. -/
theorem labels_refused :
    ∀ col ∈ kEnumColumn, ∀ e ∈ col.2,
      Strings.toUInt e.label = none ∧
        (e.label.toList.all fun c => c.toNat < 0x80) = true := by
  decide

/-! ## What the switch makes of a displayed text -/

theorem mem_enumValues {spec : SetupBinVarSpec} {e : SetupBinEnumLabel}
    (h : e ∈ enumValues spec) : ∃ col ∈ kEnumColumn, e ∈ col.2 := by
  rw [enumValues] at h
  cases hlookup : kEnumColumn.lookup (spec.moduleId, spec.varId) with
  | none =>
      rw [hlookup] at h
      cases h
  | some labels =>
      rw [hlookup] at h
      obtain ⟨before, after, hcols, -⟩ := List.lookup_eq_some_iff.mp hlookup
      refine ⟨((spec.moduleId, spec.varId), labels), ?_, h⟩
      rw [hcols]
      exact List.mem_append_right _ List.mem_cons_self

/-- A number is refused or the byte it was read from. -/
theorem label_refused {spec : SetupBinVarSpec} {e : SetupBinEnumLabel}
    (h : e ∈ enumValues spec) : Strings.toUInt (Text.lit e.label).str = none := by
  obtain ⟨col, hcol, he⟩ := mem_enumValues h
  obtain ⟨hnone, hascii⟩ := labels_refused col hcol e he
  rw [Text.str_lit, hnone]
  intro c hc
  exact of_decide_eq_true (List.all_eq_true.mp hascii c hc)

theorem badLength_refused :
    Strings.toUInt (Text.lit "(bad length)").str = none ∧
      Strings.toULongLong (Text.lit "(bad length)").str = none ∧
      Uuid.ofText (Text.toLatin1 (Text.lit "(bad length)").utf8) = none := by
  decide

/-- The new value is the old one, or there is none. -/
def Same (r : Except String Bytes) (value : Bytes) : Prop :=
  r = .ok value ∨ ∃ message, r = .error message

theorem u8_refused {value : Value} (h : value.toUInt = none) :
    newValue .u8 value = .error "Value must be 0..255." := by
  simp only [newValue, h]

theorem u16_refused {value : Value} (h : value.toUInt = none) :
    newValue .u16 value = .error "Value must be 0..65535." := by
  simp only [newValue, h]

theorem u32_refused {value : Value} (h : value.toULongLong = none) :
    newValue .u32 value = .error "Value must be 0..4294967295." := by
  simp only [newValue, h]

theorem guid_text (t : Text) :
    newValue .guid (.text t) =
      match Uuid.ofText (Text.toLatin1 t.utf8) with
      | none => .error "GUID must be a valid UUID string or 16 raw bytes."
      | some b => .ok b :=
  rfl

theorem same_u8 {spec : SetupBinVarSpec} {var : SetupBinVariable}
    (hspec : findSetupBinVarSpec var.moduleId var.varId = some spec)
    (htype : spec.type = .u8) :
    Same (newValue .u8 (.text (decodeForDisplay var))) var.value := by
  simp only [decodeForDisplay, hspec, htype]
  split
  · exact Or.inr ⟨_, u8_refused badLength_refused.1⟩
  · next hlen =>
      rw [Decidable.not_not] at hlen
      have hlt := byteAt_lt var.value 0
      split
      · next e he =>
          have hmem := List.mem_of_find?_eq_some he
          exact Or.inr ⟨_, u8_refused (label_refused hmem)⟩
      · refine Or.inl ?_
        simp only [newValue, Value.toUInt, str_number,
          Strings.toUInt_toString (Nat.lt_trans hlt (by decide))]
        rw [if_neg (by omega), pack_byte hlen]

theorem same_u16 {spec : SetupBinVarSpec} {var : SetupBinVariable}
    (hspec : findSetupBinVarSpec var.moduleId var.varId = some spec)
    (htype : spec.type = .u16) :
    Same (newValue .u16 (.text (decodeForDisplay var))) var.value := by
  simp only [decodeForDisplay, hspec, htype]
  split
  · exact Or.inr ⟨_, u16_refused badLength_refused.1⟩
  · next hlen =>
      rw [Decidable.not_not] at hlen
      obtain ⟨hlt, hpack⟩ := pack16Le_read hlen
      refine Or.inl ?_
      simp only [newValue, Value.toUInt, str_number,
        Strings.toUInt_toString (Nat.lt_trans hlt (by decide))]
      rw [if_neg (by omega), hpack]

theorem same_u32 {spec : SetupBinVarSpec} {var : SetupBinVariable}
    (hspec : findSetupBinVarSpec var.moduleId var.varId = some spec)
    (htype : spec.type = .u32) :
    Same (newValue .u32 (.text (decodeForDisplay var))) var.value := by
  simp only [decodeForDisplay, hspec, htype]
  split
  · exact Or.inr ⟨_, u32_refused badLength_refused.2.1⟩
  · next hlen =>
      rw [Decidable.not_not] at hlen
      obtain ⟨hlt, hpack⟩ := pack32Le_read hlen
      refine Or.inl ?_
      simp only [newValue, Value.toULongLong, str_number,
        Strings.toULongLong_toString (Nat.lt_trans hlt (by decide))]
      rw [if_neg (by omega), hpack]

theorem ascii_uuid (b : Bytes) : Text.Ascii (Uuid.toText b) := by
  have hdash : ∀ {rest : Bytes}, Text.Ascii rest →
      Text.Ascii (0x2D :: rest) := by
    intro rest hrest x hx
    rcases List.mem_cons.mp hx with rfl | hx
    · decide
    · exact hrest x hx
  rw [Uuid.toText]
  exact (ascii_toHex _).append <| hdash <| (ascii_toHex _).append <| hdash <|
    (ascii_toHex _).append <| hdash <| (ascii_toHex _).append <| hdash <|
    ascii_toHex _

theorem same_guid {spec : SetupBinVarSpec} {var : SetupBinVariable}
    (hspec : findSetupBinVarSpec var.moduleId var.varId = some spec)
    (htype : spec.type = .guid) :
    Same (newValue .guid (.text (decodeForDisplay var))) var.value := by
  simp only [decodeForDisplay, hspec, htype]
  split
  · rw [guid_text, badLength_refused.2.2]
    exact Or.inr ⟨_, rfl⟩
  · next hlen =>
      rw [Decidable.not_not] at hlen
      have hascii := ascii_uuid var.value
      have hread : Uuid.ofText (Text.toLatin1
          (Text.ofLatin1 (Uuid.toText var.value)).utf8) =
            if Uuid.isNull var.value then none else some var.value := by
        rw [Text.ofLatin1_ascii hascii, Text.toLatin1_ascii hascii,
          Uuid.ofText_toText hlen]
      rw [guid_text, hread]
      split
      · exact Or.inr ⟨_, rfl⟩
      · next b hb =>
          split at hb
          · cases hb
          · cases hb
            exact Or.inl rfl

/-- Raw bytes are taken from any text. -/
theorem newValue_binary (t : Text) : newValue .binary (.text t) = .ok t.utf8 :=
  rfl

/-- What a displayed text is read as. -/
theorem same_iff {spec : SetupBinVarSpec} {var : SetupBinVariable}
    (hspec : findSetupBinVarSpec var.moduleId var.varId = some spec) :
    Same (newValue spec.type (.text (decodeForDisplay var))) var.value ↔
      Plain var := by
  have hplain : spec.type ≠ .binary → Plain var := by
    intro hother spec' hspec' htype
    rw [hspec] at hspec'
    cases hspec'
    exact absurd htype hother
  cases htype : spec.type with
  | u8 => exact iff_of_true (same_u8 hspec htype) (hplain (by simp [htype]))
  | u16 => exact iff_of_true (same_u16 hspec htype) (hplain (by simp [htype]))
  | u32 => exact iff_of_true (same_u32 hspec htype) (hplain (by simp [htype]))
  | guid => exact iff_of_true (same_guid hspec htype) (hplain (by simp [htype]))
  | binary =>
      have hshown : decodeForDisplay var = displayBinary var.value := by
        simp only [decodeForDisplay, hspec, htype]
      rw [newValue_binary, hshown]
      constructor
      · rintro (hsame | ⟨message, hrefused⟩)
        · intro spec' _ _
          by_contra hnot
          have hlonger := displayBinary_longer hnot
          rw [Except.ok.inj hsame] at hlonger
          exact absurd hlonger (Nat.lt_irrefl _)
        · cases hrefused
      · intro h
        exact Or.inl (congrArg Except.ok
          (displayBinary_printable (h spec hspec htype)))

/-! ## The edit -/

theorem entryAt_modify {α : Type} {l : List α} {i : Int} {x : α} (f : α → α)
    (h : entryAt l i = some x) : entryAt (l.modify i.toNat f) i = some (f x) := by
  rw [entryAt] at h ⊢
  split at h
  · next hpos =>
      rw [if_pos hpos, List.getElem?_modify_eq, h]
      rfl
  · cases h

theorem variableAt_setBytes {file : SetupBinFile} {recordIndex varIndex : Int}
    {var : SetupBinVariable} (value : Bytes)
    (h : variableAt file recordIndex varIndex = some var) :
    variableAt (setBytes file recordIndex varIndex value) recordIndex varIndex =
      some { var with value } := by
  obtain ⟨rec, hrec, hvar⟩ := Option.bind_eq_some_iff.mp h
  have hset := entryAt_modify (fun rec : SetupBinRecord =>
    { rec with vars := rec.vars.modify varIndex.toNat fun var =>
        { var with value } }) hrec
  rw [variableAt, setBytes, hset]
  exact entryAt_modify (fun var : SetupBinVariable => { var with value }) hvar

/-- A refused value leaves the file alone, any other is in the variable. -/
theorem setVariableValue_bytes {c : SetupBinController}
    {recordIndex varIndex : Int} {var : SetupBinVariable}
    (h : variableAt c.file recordIndex varIndex = some var) (value : Value) :
    ((variableAt (c.setVariableValue recordIndex varIndex value).1.file
      recordIndex varIndex).map (·.value) = some var.value) ↔
      ∀ spec, findSetupBinVarSpec var.moduleId var.varId = some spec →
        Same (newValue spec.type value) var.value := by
  cases hspec : findSetupBinVarSpec var.moduleId var.varId with
  | none =>
      refine iff_of_true ?_ fun spec hsome => by cases hsome
      simp only [SetupBinController.setVariableValue, h, hspec, Option.map_some]
  | some spec =>
      have hone : (∀ spec', some spec = some spec' →
          Same (newValue spec'.type value) var.value) ↔
            Same (newValue spec.type value) var.value := by
        constructor
        · exact fun hall => hall spec rfl
        · rintro hsame spec' hspec'
          cases hspec'
          exact hsame
      rw [hone]
      cases hnew : newValue spec.type value with
      | error message =>
          refine iff_of_true ?_ (Or.inr ⟨message, rfl⟩)
          simp only [SetupBinController.setVariableValue, h, hspec, hnew,
            Option.map_some]
      | ok bytes =>
          simp only [SetupBinController.setVariableValue, h, hspec, hnew,
            variableAt_setBytes bytes h, Option.map_some]
          constructor
          · intro hbytes
            exact Or.inl (congrArg Except.ok (Option.some.inj hbytes))
          · rintro (hsame | ⟨message, hrefused⟩)
            · exact congrArg some (Except.ok.inj hsame)
            · cases hrefused

/-- A variable keeps its bytes when the text it is shown as is passed back,
whether that is taken or refused, exactly where it is not raw bytes or they
are printable. -/
theorem edit_identity_iff (c : SetupBinController) (recordIndex varIndex : Int)
    {var : SetupBinVariable}
    (h : variableAt c.file recordIndex varIndex = some var) :
    ((variableAt (c.setVariableValue recordIndex varIndex
        (.text (decodeForDisplay var))).1.file recordIndex varIndex).map
      (·.value) = some var.value) ↔ Plain var := by
  rw [setVariableValue_bytes h]
  cases hspec : findSetupBinVarSpec var.moduleId var.varId with
  | none =>
      refine iff_of_true (fun spec hsome => by cases hsome) ?_
      intro spec hsome
      rw [hspec] at hsome
      cases hsome
  | some spec =>
      rw [← same_iff hspec]
      constructor
      · exact fun hall => hall spec rfl
      · rintro hsame spec' hspec'
        cases hspec'
        exact hsame

/-- A file with one variable, the GUID of a service provider. -/
def providerFile : SetupBinFile where
  records := [{ vars := [⟨2, 35, 1 :: List.replicate 15 0⟩] }]

theorem edit_identity_iff_guid :
    ((variableAt (({ file := providerFile } :
        SetupBinController).setVariableValue 0 0 (.text (decodeForDisplay
          ⟨2, 35, 1 :: List.replicate 15 0⟩))).1.file 0 0).map (·.value) =
      some (1 :: List.replicate 15 0)) ↔
      Plain ⟨2, 35, 1 :: List.replicate 15 0⟩ :=
  edit_identity_iff { file := providerFile } 0 0 rfl

/-- A VLAN setting; its value is edited as text. -/
def vlan : SetupBinVariable := ⟨2, 20, [0x01, 0x80]⟩

def vlanFile : SetupBinFile where
  records := [{ vars := [vlan] }]

/-- A file with the setting is accepted, and the edit makes its bytes the text
that shows them. -/
theorem vlan_rewritten :
    ¬∀ (bytes : Bytes) (file : SetupBinFile) (recordIndex varIndex : Int)
      (var : SetupBinVariable), decodeSetupBin bytes = some file →
      variableAt file recordIndex varIndex = some var →
      (variableAt (({ file } : SetupBinController).setVariableValue
        recordIndex varIndex (.text (decodeForDisplay var))).1.file
        recordIndex varIndex).map (·.value) = some var.value := by
  intro h
  have hknown : ∀ v ∈ [vlan], v.Known := by
    intro v hv
    rw [List.mem_singleton.mp hv]
    exact (by decide : (findSetupBinVarSpec 2 20).isSome = true)
  have hdecode : decodeSetupBin (encodeSetupBin .insertion vlanFile) =
      some vlanFile := by
    have hversion : vlanFile.Versioned := ⟨by decide, by decide⟩
    rw [decode_encode .insertion hversion (by simpa [vlanFile] using
      hknown), if_pos (by decide)]
    have hread := readVariables_encodeBody .insertion hknown (by decide)
    simp only [vlanFile, List.map_cons, List.map_nil, reread, hread]
    rfl
  exact absurd (h _ vlanFile 0 0 vlan hdecode rfl) (by decide)

end QuMesh.SetupBin
