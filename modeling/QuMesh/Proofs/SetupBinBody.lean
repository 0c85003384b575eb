import QuMesh.Wsman.SetupBin

/-!
# The body of a `setup.bin` record

An entry read back is the entry that was written, and what is behind it is
where the next one starts, because both ends round up to a multiple of four.
So a body that has room for its entries gives them all back, and the zeros
behind them end it. What is read never takes more than the body it is read
off, whatever the bytes, so a body without that room cannot give back what
went into it.
-/

namespace QuMesh.Wsman

open QuMesh.Lib

/-- The variable is one of the catalog. -/
def SetupBinVariable.Known (v : SetupBinVariable) : Prop :=
  (findSetupBinVarSpec v.moduleId v.varId).isSome = true

/-- What an entry takes of a body. -/
def entrySize (v : SetupBinVariable) : Nat := 8 + (v.value.length + 3) / 4 * 4

def bodySize : List SetupBinVariable → Nat
  | [] => 0
  | v :: vs => entrySize v + bodySize vs

theorem bodySize_perm {vs ws : List SetupBinVariable} (h : vs.Perm ws) :
    bodySize vs = bodySize ws := by
  induction h with
  | nil => rfl
  | cons v h ih => rw [bodySize, bodySize, ih]
  | swap v w vs => simp only [bodySize]; omega
  | trans h g ih ih' => exact ih.trans ih'

theorem length_le_bodySize (vs : List SetupBinVariable) :
    8 * vs.length ≤ bodySize vs := by
  induction vs with
  | nil => exact Nat.le_refl 0
  | cons v vs ih =>
      rw [bodySize, entrySize, List.length_cons]
      omega

theorem entrySize_le_bodySize {v : SetupBinVariable}
    {vs : List SetupBinVariable} (h : v ∈ vs) : entrySize v ≤ bodySize vs := by
  induction vs with
  | nil => cases h
  | cons w vs ih =>
      rw [bodySize]
      rcases List.mem_cons.mp h with rfl | h
      · omega
      · have := ih h
        omega

theorem padTo_length (size : Nat) (bytes : Bytes) :
    (padTo size bytes).length = max size bytes.length := by
  rw [padTo, List.length_append, List.length_replicate]
  omega

/-! ## One entry -/

namespace SetupBinVariable

theorem Known.ids {v : SetupBinVariable} (h : v.Known) :
    (1 ≤ v.moduleId ∧ v.moduleId ≤ 2) ∧ 1 ≤ v.varId ∧ v.varId ≤ 35 := by
  obtain ⟨spec, hspec⟩ := Option.isSome_iff_exists.mp h
  have hmem := List.mem_of_find?_eq_some hspec
  have hids := List.find?_some hspec
  simp only [Bool.decide_and, Bool.and_eq_true, decide_eq_true_eq] at hids
  rw [← hids.1, ← hids.2]
  have hall : ∀ spec ∈ kVarSpecs, (1 ≤ spec.moduleId ∧ spec.moduleId ≤ 2) ∧
      1 ≤ spec.varId ∧ spec.varId ≤ 35 := by decide
  exact hall spec hmem

/-- The eight bytes in front of the value. -/
def tag (v : SetupBinVariable) : Bytes :=
  pack16Le (toU16 v.moduleId) ++ pack16Le (toU16 v.varId) ++
    pack16Le v.value.length ++ pack16Le 0

end SetupBinVariable

theorem encodeEntry_eq (v : SetupBinVariable) :
    encodeEntry v = v.tag ++ (v.value ++
      List.replicate ((v.value.length + 3) / 4 * 4 - v.value.length) 0) := by
  have hlen : (v.tag ++ v.value).length = 8 + v.value.length := by
    rw [List.length_append]
    rfl
  have hpad : (8 + v.value.length + 3) / 4 * 4 - (8 + v.value.length) =
      (v.value.length + 3) / 4 * 4 - v.value.length := by omega
  have hentry : encodeEntry v = padTo
      (((v.tag ++ v.value).length + 3) / 4 * 4) (v.tag ++ v.value) := rfl
  rw [hentry, padTo, hlen, hpad, List.append_assoc]

theorem encodeEntry_length (v : SetupBinVariable) :
    (encodeEntry v).length = entrySize v := by
  rw [encodeEntry_eq, entrySize, List.length_append, List.length_append,
    List.length_replicate]
  have : v.tag.length = 8 := rfl
  omega

theorem flatMap_encodeEntry_length (vs : List SetupBinVariable) :
    (vs.flatMap encodeEntry).length = bodySize vs := by
  induction vs with
  | nil => rfl
  | cons v vs ih =>
      rw [List.flatMap_cons, List.length_append, encodeEntry_length, ih,
        bodySize]

theorem SetupBinVariable.tag_reads (v : SetupBinVariable) (rest : Bytes) :
    read16Le (v.tag ++ rest) 0 = toU16 v.moduleId % 2 ^ 16 ∧
      read16Le (v.tag ++ rest) 2 = toU16 v.varId % 2 ^ 16 ∧
      read16Le (v.tag ++ rest) 4 = v.value.length % 2 ^ 16 :=
  ⟨read16Le_pack _ (pack16Le (toU16 v.varId) ++ (pack16Le v.value.length ++
      (pack16Le 0 ++ rest))),
    read16Le_pack _ (pack16Le v.value.length ++ (pack16Le 0 ++ rest)),
    read16Le_pack _ (pack16Le 0 ++ rest)⟩

/-- An entry whose first eight bytes are there is read off what is left, as
far as its length goes in sixteen bits. -/
theorem readVariables_tag {v : SetupBinVariable} (h : v.Known) (fuel : Nat)
    (rest : Bytes) :
    readVariables (fuel + 1) (v.tag ++ rest) =
      if v.value.length % 2 ^ 16 > rest.length then []
      else
        ⟨v.moduleId, v.varId, rest.take (v.value.length % 2 ^ 16)⟩ ::
          readVariables fuel
            (rest.drop ((v.value.length % 2 ^ 16 + 3) / 4 * 4)) := by
  obtain ⟨⟨hm₁, hm₂⟩, hv₁, hv₂⟩ := h.ids
  obtain ⟨hmod, hvar, hlen⟩ := v.tag_reads rest
  have hm : ((toU16 v.moduleId % 2 ^ 16 : Nat) : Int) = v.moduleId := by
    rw [toU16]
    omega
  have hv : ((toU16 v.varId % 2 ^ 16 : Nat) : Int) = v.varId := by
    rw [toU16]
    omega
  have hsome : ¬(toU16 v.moduleId % 2 ^ 16 = 0 ∨
      toU16 v.varId % 2 ^ 16 = 0) := by omega
  have hsize : (v.tag ++ rest).length = 8 + rest.length := by
    rw [List.length_append]
    rfl
  have hshort : ¬8 + rest.length < 8 := by omega
  have hdrop (n : Nat) : (v.tag ++ rest).drop (8 + n) = rest.drop n := by
    rw [← List.drop_drop]
    rfl
  have hknown : (findSetupBinVarSpec v.moduleId v.varId).isSome = true := h
  have hleft : 8 + rest.length - 8 = rest.length := by omega
  have hvalue : (v.tag ++ rest).drop 8 = rest := hdrop 0
  simp only [readVariables, hmod, hvar, hlen, hm, hv, hsize, hshort, hsome,
    hdrop, hvalue, hknown, hleft, if_true, if_false]

/-- An entry reads back, and what follows it follows it. -/
theorem readVariables_entry {v : SetupBinVariable} (h : v.Known)
    (hlen : v.value.length < 2 ^ 16) (fuel : Nat) (rest : Bytes) :
    readVariables (fuel + 1) (encodeEntry v ++ rest) =
      v :: readVariables fuel rest := by
  have hmod : v.value.length % 2 ^ 16 = v.value.length :=
    Nat.mod_eq_of_lt hlen
  have hfits : ¬v.value.length > (v.value ++ (List.replicate
      ((v.value.length + 3) / 4 * 4 - v.value.length) 0 ++ rest)).length := by
    rw [List.length_append]
    omega
  have hpad : (v.value ++ List.replicate
      ((v.value.length + 3) / 4 * 4 - v.value.length) (0 : UInt8)).length =
      (v.value.length + 3) / 4 * 4 := by
    rw [List.length_append, List.length_replicate]
    omega
  rw [encodeEntry_eq, List.append_assoc, List.append_assoc,
    readVariables_tag h, hmod, if_neg hfits, List.take_left,
    ← List.append_assoc, List.drop_left' hpad]

theorem readVariables_zeros (fuel k : Nat) :
    readVariables fuel (List.replicate k 0) = [] := by
  cases fuel with
  | zero => rfl
  | succ fuel =>
      have hzero : read16Le (List.replicate k 0) 0 = 0 := by
        cases k with
        | zero => rfl
        | succ k =>
            cases k with
            | zero => rfl
            | succ k => rfl
      rw [readVariables]
      split
      · rfl
      · rw [if_pos (Or.inl hzero)]

/-! ## A body -/

/-- Entries that are short enough for sixteen bits read back as they are, up
to the zeros behind them. -/
theorem readVariables_entries (k : Nat) {vs : List SetupBinVariable}
    (h : ∀ v ∈ vs, v.Known ∧ v.value.length < 2 ^ 16) {fuel : Nat}
    (hfuel : vs.length ≤ fuel) :
    readVariables fuel (vs.flatMap encodeEntry ++ List.replicate k 0) =
      vs := by
  induction vs generalizing fuel with
  | nil => exact readVariables_zeros fuel k
  | cons v vs ih =>
      obtain ⟨hknown, hlen⟩ := h v List.mem_cons_self
      cases fuel with
      | zero => cases hfuel
      | succ fuel =>
          have hrest := ih (fun w hw => h w (List.mem_cons_of_mem v hw))
            (Nat.le_of_succ_le_succ hfuel)
          rw [List.flatMap_cons, List.append_assoc,
            readVariables_entry hknown hlen, hrest]

/-- Whatever the bytes, what is read off them is of the catalog, and takes no
more than they do. -/
theorem readVariables_bound (fuel : Nat) {rest : Bytes}
    (h : rest.length % 4 = 0) :
    (∀ v ∈ readVariables fuel rest, v.Known) ∧
      bodySize (readVariables fuel rest) ≤ rest.length := by
  induction fuel generalizing rest with
  | zero => exact ⟨by simp [readVariables], Nat.zero_le _⟩
  | succ fuel ih =>
      have hnil : (∀ v ∈ ([] : List SetupBinVariable), v.Known) ∧
          bodySize [] ≤ rest.length := ⟨by simp, Nat.zero_le _⟩
      rw [readVariables]
      split
      · exact hnil
      · next hroom =>
          dsimp only
          split
          · exact hnil
          · split
            · exact hnil
            · next hlen =>
                -- the next entry starts inside the body, on a multiple of four
                have hnext : (rest.drop
                    (8 + (read16Le rest 4 + 3) / 4 * 4)).length =
                    rest.length - (8 + (read16Le rest 4 + 3) / 4 * 4) :=
                  List.length_drop
                obtain ⟨hknown, hsize⟩ := @ih (rest.drop
                  (8 + (read16Le rest 4 + 3) / 4 * 4)) (by omega)
                split
                · next hspec =>
                    have hvalue : ((rest.drop 8).take
                        (read16Le rest 4)).length = read16Le rest 4 := by
                      rw [List.length_take, List.length_drop]
                      omega
                    refine ⟨fun v hv => ?_, ?_⟩
                    · rcases List.mem_cons.mp hv with rfl | hv
                      · exact hspec
                      · exact hknown v hv
                    · rw [bodySize, entrySize, hvalue]
                      omega
                · exact ⟨hknown, by omega⟩

theorem encodeBody_length (std : StdSort) (vs : List SetupBinVariable) :
    (encodeBody std vs).length = kRecordBodySize := by
  rw [encodeBody, List.length_take, padTo_length]
  omega

/-- A body gives back its entries in order, where they fit. -/
theorem readVariables_encodeBody (std : StdSort) {vs : List SetupBinVariable}
    (h : ∀ v ∈ vs, v.Known) (hfit : bodySize vs ≤ kRecordBodySize) :
    readVariables kRecordBodySize (encodeBody std vs) = std.sort vs := by
  have hperm := std.perm vs
  have hsize : bodySize (std.sort vs) ≤ 488 := bodySize_perm hperm ▸ hfit
  have hbody : encodeBody std vs = (std.sort vs).flatMap encodeEntry ++
      List.replicate
        (kRecordBodySize - ((std.sort vs).flatMap encodeEntry).length) 0 := by
    rw [encodeBody, List.take_of_length_le]
    · rfl
    · rw [padTo_length, flatMap_encodeEntry_length]
      exact Nat.max_le.mpr ⟨Nat.le_refl _, hsize⟩
  have hshort := length_le_bodySize (std.sort vs)
  have hfuel : (std.sort vs).length ≤ kRecordBodySize := by
    rw [kRecordBodySize, kRecordSize, kRecordHeaderSize]
    omega
  rw [hbody]
  refine readVariables_entries _ (fun v hv => ?_) hfuel
  have hentry := entrySize_le_bodySize hv
  rw [entrySize] at hentry
  exact ⟨h v (hperm.mem_iff.mp hv), by omega⟩

end QuMesh.Wsman
