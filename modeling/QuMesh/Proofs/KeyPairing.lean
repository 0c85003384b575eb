import Mathlib.Data.List.DropRight
import QuMesh.App.DeviceCerts
import QuMesh.Lib.FirstHit
import QuMesh.Proofs.ParallelJoin

/-!
# Certificates and their keys

A certificate and its key pair carry the same number at the end of their
InstanceIDs, the handle. The panel takes the first key pair whose InstanceID
ends with the handle of the certificate, so the handles are compared as
suffixes: 1 agrees with 11 and with 21. `matchedKey_hit` says that this is a
first hit along the order of suffixes, and the library says when first hits are
right: when every handle that is longer comes behind the one that is equal.
-/

namespace QuMesh.Details

open QuMesh.Lib QuMesh.Wsman

/-! ## The store is there once -/

theorem certKinds_all (done : CertKind → Bool) :
    certKinds.all done = true ↔ ∀ k, done k = true := by
  rw [List.all_eq_true]
  refine forall_congr' fun k => ?_
  cases k <;> simp [certKinds]

theorem certStore_stores :
    Stores CertStoreState.store CertStoreState.maybeFire CertStoreState.fired
      CertStoreState.calls fun st k => st.done k = true where
  marks {k items error st l} := by
    by_cases hl : l = k
    · rw [hl]
      simp [CertStoreState.store]
    · simp [CertStoreState.store, hl]
  comm h := by
    simp only [CertStoreState.store, Function.update_comm h]
  kept := ⟨rfl, rfl⟩
  waits {st} h := by
    rw [CertStoreState.maybeFire, if_neg (mt (certKinds_all st.done).mp h)]
    exact ite_self _
  fires {st} hfired hall := by
    rw [CertStoreState.maybeFire, hfired, if_neg Bool.false_ne_true,
      if_pos ((certKinds_all st.done).mpr hall)]
    exact ⟨_, rfl⟩
  done_fire {st} := by
    unfold CertStoreState.maybeFire
    split
    · rfl
    · split <;> rfl

/-- `getDeviceCertStore` hands over one store, whatever order its replies come
in. -/
theorem certStore_joins (answer : CertKind → Nat → Outcome) :
    JoinsOnce (Parallel.step CertStoreState.onDone answer) Parallel.ready
      (fun s => s.shared.calls) { shared := {} } := by
  refine Parallel.joinsOnce certStore_stores.join ?_ ?_ answer
  · exact ⟨fun _ => ⟨rfl, rfl⟩, fun h => absurd (h .cert) Bool.false_ne_true⟩
  · exact fun _ => Bool.false_ne_true

/-! ## Handles -/

/-- The digits at the end of an InstanceID. -/
def handle (instanceId : String) : List Char :=
  instanceId.toList.rtakeWhile Char.isDigit

/-- An InstanceID ends in a colon, a space and a handle. -/
def EndsInHandle (instanceId : String) : Prop :=
  handle instanceId ≠ [] ∧ ':' :: ' ' :: handle instanceId <:+ instanceId.toList

/-- A store whose InstanceIDs end in handles, each once among its kind. -/
structure Handled (r : DeviceCertResult) : Prop where
  certificates : ∀ c ∈ r.certificates, EndsInHandle c.instanceId
  keyPairs : ∀ k ∈ r.keyPairs, EndsInHandle k.instanceId
  certHandles : (r.certificates.map fun c => handle c.instanceId).Nodup
  keyHandles : (r.keyPairs.map fun k => handle k.instanceId).Nodup

/-- A certificate has a private key if a key pair has its handle, and the key
pairs whose handles no certificate has are the orphans. -/
structure PairsKeys (r : DeviceCertResult) (store : DeviceCertStore) :
    Prop where
  certificates : List.Forall₂ (fun row c => row.instanceId = c.instanceId ∧
    (row.hasPrivateKey = true ↔
      ∃ k ∈ r.keyPairs, handle k.instanceId = handle c.instanceId))
    store.certificates r.certificates
  orphanKeys : store.orphanKeys = r.keyPairs.filter fun k =>
    r.certificates.all fun c => handle c.instanceId ≠ handle k.instanceId

/-- Every key pair whose handle ends with that of a certificate is the
certificate's own or comes behind it. -/
def OwnKeyFirst (r : DeviceCertResult) : Prop :=
  ∀ c ∈ r.certificates, ∀ front k back, r.keyPairs = front ++ k :: back →
    handle c.instanceId <:+ handle k.instanceId →
      ∃ own ∈ front ++ [k], handle own.instanceId = handle c.instanceId

theorem isDigit_handle {instanceId : String} {c : Char}
    (hc : c ∈ handle instanceId) : c.isDigit = true :=
  List.mem_rtakeWhile_imp hc

/-- Digits at the end are digits at the end of the handle. -/
theorem suffix_handle {ds : List Char} (hds : ∀ c ∈ ds, c.isDigit = true)
    {instanceId : String} :
    ds <:+ instanceId.toList ↔ ds <:+ handle instanceId := by
  constructor
  · rintro ⟨front, hsplit⟩
    have hback : ∀ c ∈ ds.reverse, c.isDigit = true :=
      fun c hc => hds c (List.mem_reverse.mp hc)
    rw [handle, ← hsplit, List.rtakeWhile, List.reverse_append,
      List.takeWhile_append_of_pos hback, List.reverse_append,
      List.reverse_reverse]
    exact List.suffix_append _ _
  · intro h
    exact h.trans (List.rtakeWhile_suffix _ _)

/-- What is behind the last colon is the handle. -/
theorem idSuffix_handle {instanceId : String} (h : EndsInHandle instanceId) :
    (idSuffix instanceId).toList = handle instanceId := by
  obtain ⟨-, front, hsplit⟩ := h
  have hnocolon : ∀ c ∈ (handle instanceId).reverse ++ [' '], c ≠ ':' := by
    intro c hc
    rcases List.mem_append.mp hc with hdigit | hspace
    · rintro rfl
      exact absurd (isDigit_handle (List.mem_reverse.mp hdigit)) (by decide)
    · rw [List.mem_singleton.mp hspace]
      decide
  have hbehind : instanceId.toList.reverse.takeWhile (· ≠ ':') =
      (handle instanceId).reverse ++ [' '] := by
    have hback : ∀ c ∈ (handle instanceId).reverse ++ [' '],
        decide (c ≠ ':') = true :=
      fun c hc => decide_eq_true (hnocolon c hc)
    have hreverse : instanceId.toList.reverse =
        ((handle instanceId).reverse ++ [' ']) ++ ':' :: front.reverse := by
      rw [← hsplit]
      simp
    rw [hreverse, List.takeWhile_append_of_pos hback,
      List.takeWhile_cons_of_neg (by decide), List.append_nil]
  have hcolon : instanceId.toList.contains ':' = true := by
    rw [← hsplit, List.contains_iff_mem]
    simp
  have htrimmed : Strings.trimmedChars (' ' :: handle instanceId) =
      handle instanceId := by
    have hdrop : Strings.trimmedChars (' ' :: handle instanceId) =
        Strings.trimmedChars (handle instanceId) := rfl
    rw [hdrop]
    exact Strings.trimmedChars_digits fun c hc => isDigit_handle hc
  unfold idSuffix
  dsimp only
  rw [if_pos hcolon, hbehind]
  rw [Strings.trimmed, String.toList_ofList, String.toList_ofList]
  simpa using htrimmed

/-! ## What is matched -/

/-- The key that a certificate is matched with is its first hit. -/
theorem matchedKey_hit {r : DeviceCertResult} (h : Handled r)
    {c : DeviceCertificate} (hc : c ∈ r.certificates) :
    matchedKey r.keyPairs c =
      FirstHit.hit (R := (· <:+ ·)) (fun k => handle k.instanceId)
        (fun c : DeviceCertificate => handle c.instanceId) r.keyPairs c := by
  have hends := h.certificates c hc
  have hsuffix := idSuffix_handle hends
  have hgiven : ¬(idSuffix c.instanceId).isEmpty = true := by
    rw [String.isEmpty_iff]
    intro hempty
    rw [hempty] at hsuffix
    exact hends.1 hsuffix.symm
  unfold matchedKey
  dsimp only
  rw [if_neg hgiven, hsuffix, FirstHit.hit]
  congr 1
  funext k
  rw [Bool.eq_iff_iff, List.isSuffixOf_iff_suffix, decide_eq_true_eq,
    suffix_handle fun c hc => isDigit_handle hc]

/-- The InstanceID of a key pair tells it apart. -/
theorem keyPair_eq {r : DeviceCertResult} (h : Handled r) {k k' : DeviceKeyPair}
    (hk : k ∈ r.keyPairs) (hk' : k' ∈ r.keyPairs)
    (hid : k.instanceId = k'.instanceId) : k = k' :=
  List.inj_on_of_nodup_map h.keyHandles hk hk' (congrArg handle hid)

theorem mem_keysClaimedByCerts {r : DeviceCertResult} (h : Handled r)
    {k : DeviceKeyPair} (hk : k ∈ r.keyPairs) :
    (keysClaimedByCerts r).contains k.instanceId = true ↔
      ∃ c ∈ r.certificates, matchedKey r.keyPairs c = some k := by
  have hgiven : k.instanceId ≠ "" := by
    intro hempty
    have hhandle := (h.keyPairs k hk).1
    rw [hempty] at hhandle
    exact hhandle rfl
  rw [List.contains_iff_mem, keysClaimedByCerts, List.mem_filter, List.mem_map]
  constructor
  · rintro ⟨⟨k', hmatched, hid⟩, -⟩
    obtain ⟨c, hc, hkey⟩ := List.mem_filterMap.mp hmatched
    have hmem : k' ∈ r.keyPairs := by
      rw [matchedKey_hit h hc] at hkey
      exact List.mem_of_find?_eq_some hkey
    rw [keyPair_eq h hmem hk hid] at hkey
    exact ⟨c, hc, hkey⟩
  · rintro ⟨c, hc, hkey⟩
    have hmatched := List.mem_filterMap.mpr ⟨c, hc, hkey⟩
    exact ⟨⟨k, hmatched, rfl⟩, by simpa using hgiven⟩

theorem filter_eq_iff {α : Type} {l : List α} {p q : α → Bool} :
    l.filter p = l.filter q ↔ ∀ x ∈ l, p x = q x := by
  constructor
  · intro h x hx
    have hmem : x ∈ l.filter p ↔ x ∈ l.filter q := by rw [h]
    rw [List.mem_filter, List.mem_filter, and_iff_right hx,
      and_iff_right hx] at hmem
    exact Bool.eq_iff_iff.mpr hmem
  · exact List.filter_congr

/-- Rows and orphans are right if and only if the first hits are. -/
theorem pairsKeys_iff {r : DeviceCertResult} (h : Handled r) :
    PairsKeys r (deviceCertStore r) ↔
      FirstHit.Exact (R := (· <:+ ·)) (fun k => handle k.instanceId)
        (fun c : DeviceCertificate => handle c.instanceId) r.keyPairs
        r.certificates := by
  have hrows : List.Forall₂ (fun row c => row.instanceId = c.instanceId ∧
      (row.hasPrivateKey = true ↔
        ∃ k ∈ r.keyPairs, handle k.instanceId = handle c.instanceId))
      (deviceCertStore r).certificates r.certificates ↔
      ∀ c ∈ r.certificates, (matchedKey r.keyPairs c).isSome = true ↔
        ∃ k ∈ r.keyPairs, handle k.instanceId = handle c.instanceId := by
    show List.Forall₂ _ (r.certificates.map (certRow r)) _ ↔ _
    rw [List.forall₂_map_left_iff, List.forall₂_same]
    exact forall₂_congr fun c _ => and_iff_right rfl
  have horphans : (deviceCertStore r).orphanKeys = r.keyPairs.filter (fun k =>
      r.certificates.all fun c => handle c.instanceId ≠ handle k.instanceId) ↔
      ∀ k ∈ r.keyPairs,
        (∃ c ∈ r.certificates, matchedKey r.keyPairs c = some k) ↔
          ∃ c ∈ r.certificates, handle c.instanceId = handle k.instanceId := by
    show r.keyPairs.filter _ = _ ↔ _
    rw [filter_eq_iff]
    refine forall₂_congr fun k hk => ?_
    have hfree : (r.certificates.all fun c =>
        handle c.instanceId ≠ handle k.instanceId) = true ↔
          ¬∃ c ∈ r.certificates, handle c.instanceId = handle k.instanceId := by
      simp
    rw [← mem_keysClaimedByCerts h hk, Bool.eq_iff_iff, hfree,
      Bool.not_eq_true', ← Bool.not_eq_true, not_iff_not]
  have hhit := fun c hc => matchedKey_hit h (c := c) hc
  constructor
  · rintro ⟨hcertificates, horphanKeys⟩
    refine ⟨fun c hc => ?_, fun k hk => ?_⟩
    · rw [← hhit c hc]
      exact hrows.mp hcertificates c hc
    · rw [← horphans.mp horphanKeys k hk]
      exact exists_congr fun c => and_congr_right fun hc => by rw [hhit c hc]
  · rintro ⟨hpartnered, htaken⟩
    refine ⟨hrows.mpr fun c hc => ?_, horphans.mpr fun k hk => ?_⟩
    · rw [hhit c hc]
      exact hpartnered c hc
    · rw [← htaken k hk]
      exact exists_congr fun c => and_congr_right fun hc => by rw [hhit c hc]

def handleOne : DeviceKeyPair where
  instanceId := "Intel(r) AMT Key: Handle: 1"

def handleEleven : DeviceKeyPair where
  instanceId := "Intel(r) AMT Key: Handle: 11"

/-- A device with one certificate, the first. -/
def withKeys (keyPairs : List DeviceKeyPair) : DeviceCertResult where
  ok := true
  certificates := [{ instanceId := "Intel(r) AMT Certificate: Handle: 1" }]
  keyPairs := keyPairs

theorem withKeys_handled {keyPairs : List DeviceKeyPair}
    (h : keyPairs.Perm [handleOne, handleEleven]) :
    Handled (withKeys keyPairs) where
  certificates := by
    intro c hc
    rw [List.mem_singleton.mp hc]
    exact ⟨by decide, by decide⟩
  keyPairs := by
    intro k hk
    rcases List.mem_cons.mp (h.mem_iff.mp hk) with rfl | hlast
    · exact ⟨by decide, by decide⟩
    · rw [List.mem_singleton.mp hlast]
      exact ⟨by decide, by decide⟩
  certHandles := List.nodup_singleton _
  keyHandles := by
    refine (h.map _).nodup_iff.mpr ?_
    decide

/-- With key pair 11 in front the certificate takes that one, so that its own is
offered as an orphan and the orphan is hidden. -/
theorem orphan_hidden :
    Handled (withKeys [handleEleven, handleOne]) ∧
      ¬PairsKeys (withKeys [handleEleven, handleOne])
        (({} : CertPanel).onDeviceCerts
          (withKeys [handleEleven, handleOne])).deviceCertStore := by
  refine ⟨withKeys_handled (.swap _ _ _), fun h => ?_⟩
  have horphans := h.orphanKeys
  exact absurd horphans (by decide)

/-- Certificates are paired with their own keys, if and only if every key pair
whose handle ends with that of a certificate is the certificate's own or comes
behind it. -/
theorem pairs_keys_iff {r : DeviceCertResult} (h : Handled r) (p : CertPanel) :
    PairsKeys r (p.onDeviceCerts r).deviceCertStore ↔ OwnKeyFirst r := by
  show PairsKeys r (deviceCertStore r) ↔ _
  rw [pairsKeys_iff h]
  exact FirstHit.exact_iff List.suffix_refl (fun _ _ _ => List.IsSuffix.trans)
    h.keyHandles

/-- The other way round it takes its own. -/
theorem own_key_first :
    PairsKeys (withKeys [handleOne, handleEleven])
      (({} : CertPanel).onDeviceCerts
        (withKeys [handleOne, handleEleven])).deviceCertStore := by
  refine (pairs_keys_iff (withKeys_handled (.refl _)) _).mpr ?_
  refine (FirstHit.ahead_iff List.suffix_refl).mpr fun c hc k hhit => ?_
  rw [List.mem_singleton.mp hc] at hhit ⊢
  have hown : some handleOne = some k := hhit
  cases hown
  decide

end QuMesh.Details
