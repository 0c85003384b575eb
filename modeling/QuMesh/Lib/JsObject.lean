import Mathlib.Data.List.Induction
import Mathlib.Data.List.Sort
import QuMesh.Lib.Strings

/-!
# The keys of a JavaScript object

A loop with `in` goes through the own keys of an object: first those that are
array indices, from the smallest on, and then the others in the order in which
they came. A key that is put again stays where it is, and putting `__proto__`
with a value that is no object puts nothing.

So an object that stands in for a set brings its members once each, and in the
order in which they were put only where the indices came first and from the
smallest on, `keys_ofList`.
-/

namespace QuMesh.Lib

/-- The number of a key that is an array index. -/
def arrayIndex (key : String) : Option Nat :=
  match Strings.digits key.toList with
  | some n => if n < 2 ^ 32 - 1 ∧ toString n = key then some n else none
  | none => none

/-- The number is put at its place, unless it is there. -/
def insertIndex (n : Nat) : List Nat → List Nat
  | [] => [n]
  | m :: rest =>
      if n < m then n :: m :: rest
      else if n = m then m :: rest
      else m :: insertIndex n rest

theorem arrayIndex_eq_some {key : String} {n : Nat} :
    arrayIndex key = some n ↔ n < 2 ^ 32 - 1 ∧ toString n = key := by
  unfold arrayIndex
  constructor
  · intro h
    split at h
    · split at h
      · next hkey =>
        cases h
        exact hkey
      · cases h
    · cases h
  · rintro ⟨hlt, rfl⟩
    rw [Strings.digits_toString]
    exact if_pos ⟨hlt, rfl⟩

theorem mem_insertIndex {n m : Nat} {l : List Nat} :
    m ∈ insertIndex n l ↔ m = n ∨ m ∈ l := by
  induction l with
  | nil => simp [insertIndex]
  | cons k l ih =>
      rw [insertIndex]
      split
      · exact List.mem_cons
      split
      · next heq =>
        rw [heq, List.mem_cons]
        exact (or_self_left).symm
      · rw [List.mem_cons, ih, List.mem_cons]
        exact or_left_comm

theorem ascending_insertIndex {n : Nat} {l : List Nat}
    (h : l.Pairwise (· < ·)) : (insertIndex n l).Pairwise (· < ·) := by
  induction l with
  | nil => exact List.pairwise_singleton _ _
  | cons k l ih =>
      obtain ⟨hk, hl⟩ := List.pairwise_cons.mp h
      rw [insertIndex]
      split
      · next hlt =>
        refine List.pairwise_cons.mpr ⟨?_, h⟩
        exact List.forall_mem_cons.mpr
          ⟨hlt, fun m hm => Nat.lt_trans hlt (hk m hm)⟩
      split
      · exact h
      · next hge hne =>
        refine List.pairwise_cons.mpr ⟨fun m hm => ?_, ih hl⟩
        rcases mem_insertIndex.mp hm with rfl | hm
        · omega
        · exact hk m hm

/-- The own keys of an object. -/
structure JsObject where
  indices : List Nat
  names : List String
  ascending : indices.Pairwise (· < ·)
  indexed : ∀ n ∈ indices, n < 2 ^ 32 - 1
  named : ∀ k ∈ names, arrayIndex k = none

namespace JsObject

/-- `{}` -/
def empty : JsObject where
  indices := []
  names := []
  ascending := .nil
  indexed := List.forall_mem_nil _
  named := List.forall_mem_nil _

/-- `o[key] = true` -/
def put (key : String) (o : JsObject) : JsObject :=
  if key = "__proto__" then o
  else
    match h : arrayIndex key with
    | some n =>
        { o with
          indices := insertIndex n o.indices
          ascending := ascending_insertIndex o.ascending
          indexed := by
            intro m hm
            rcases mem_insertIndex.mp hm with rfl | hm
            · exact (arrayIndex_eq_some.mp h).1
            · exact o.indexed m hm }
    | none =>
        if o.names.contains key then o
        else
          { o with
            names := o.names ++ [key]
            named := by
              intro k hk
              rcases List.mem_append.mp hk with hk | hk
              · exact o.named k hk
              · rw [List.mem_singleton.mp hk]
                exact h }

/-- What a loop with `in` brings. -/
def keys (o : JsObject) : List String := o.indices.map toString ++ o.names

/-- An object with these keys, put one after the other. -/
def ofList (l : List String) : JsObject := l.foldl (fun o k => o.put k) empty

theorem ofList_append (l : List String) (k : String) :
    ofList (l ++ [k]) = (ofList l).put k :=
  List.foldl_append

theorem arrayIndex_proto : arrayIndex "__proto__" = none := by
  have hdigits : Strings.digits "__proto__".toList = none := by
    decide
  rw [arrayIndex, hdigits]

theorem put_proto (o : JsObject) : o.put "__proto__" = o := if_pos rfl

theorem put_index {key : String} {n : Nat} (h : arrayIndex key = some n)
    (o : JsObject) :
    (o.put key).indices = insertIndex n o.indices ∧
      (o.put key).names = o.names := by
  have hproto : key ≠ "__proto__" := by
    rintro rfl
    rw [arrayIndex_proto] at h
    cases h
  unfold put
  rw [if_neg hproto]
  split
  · next m hm =>
    rw [h] at hm
    cases hm
    exact ⟨rfl, rfl⟩
  · next hnone =>
    rw [h] at hnone
    cases hnone

theorem put_name {key : String} (h : arrayIndex key = none)
    (hproto : key ≠ "__proto__") (o : JsObject) :
    (o.put key).indices = o.indices ∧
      (o.put key).names =
        if o.names.contains key then o.names else o.names ++ [key] := by
  unfold put
  rw [if_neg hproto]
  split
  · next m hm =>
    rw [h] at hm
    cases hm
  · split
    · exact ⟨rfl, rfl⟩
    · exact ⟨rfl, rfl⟩

theorem mem_indices {l : List String} {n : Nat} :
    n ∈ (ofList l).indices ↔ ∃ k ∈ l, arrayIndex k = some n := by
  induction l using List.reverseRecOn with
  | nil => simp [ofList, empty]
  | append_singleton l k ih =>
      have hsplit : (∃ x ∈ l ++ [k], arrayIndex x = some n) ↔
          (∃ x ∈ l, arrayIndex x = some n) ∨ arrayIndex k = some n := by
        simp [or_and_right, exists_or]
      rw [ofList_append, hsplit, ← ih]
      cases hk : arrayIndex k with
      | some m =>
          rw [(put_index hk _).1, mem_insertIndex, Option.some_inj, or_comm,
            eq_comm]
      | none =>
          by_cases hproto : k = "__proto__"
          · rw [hproto, put_proto]
            simp
          · rw [(put_name hk hproto _).1]
            simp

theorem names_ofList (l : List String) :
    (ofList l).names = l.eraseDups.filter fun k =>
      (arrayIndex k).isNone && k ≠ "__proto__" := by
  induction l using List.reverseRecOn with
  | nil => rfl
  | append_singleton l k ih =>
      have hlast : (l ++ [k]).eraseDups =
          if k ∈ l then l.eraseDups else l.eraseDups ++ [k] := by
        rw [List.eraseDups_append]
        split
        · next hmem => simp [List.removeAll, hmem]
        · next hmem =>
          have hkept : [k].removeAll l = [k] := by simp [List.removeAll, hmem]
          rw [hkept]
          rfl
      rw [ofList_append, hlast]
      cases hk : arrayIndex k with
      | some m =>
          rw [(put_index hk _).2, ih]
          split
          · rfl
          · simp [hk]
      | none =>
          by_cases hproto : k = "__proto__"
          · rw [hproto, put_proto, ih]
            split
            · rfl
            · simp
          · have hthere : (ofList l).names.contains k = true ↔ k ∈ l := by
              rw [List.contains_iff_mem, ih, List.mem_filter, List.mem_eraseDups]
              simp [hk, hproto]
            rw [(put_name hk hproto _).2]
            by_cases hmem : k ∈ l
            · rw [if_pos (hthere.mpr hmem), if_pos hmem, ih]
            · rw [if_neg (fun h => hmem (hthere.mp h)), if_neg hmem, ih,
                List.filter_append]
              simp [hk, hproto]

end JsObject

/-! ## The order of the keys -/

/-- The indices come first, and from the smallest on. -/
def Listed (l : List String) : Prop :=
  l.Pairwise fun a b => ∀ n, arrayIndex b = some n →
    ∃ m, arrayIndex a = some m ∧ m < n

namespace JsObject

theorem listed_keys (o : JsObject) : Listed o.keys := by
  have hindex : ∀ n ∈ o.indices, arrayIndex (toString n) = some n := by
    intro n hn
    exact arrayIndex_eq_some.mpr ⟨o.indexed n hn, rfl⟩
  have hnone : ∀ k ∈ o.names, ∀ n, arrayIndex k ≠ some n := by
    intro k hk n h
    rw [o.named k hk] at h
    cases h
  refine List.pairwise_append.mpr ⟨?_, ?_, ?_⟩
  · rw [List.pairwise_map]
    refine o.ascending.imp_of_mem fun hm hn hlt k hk => ?_
    rw [hindex _ hn] at hk
    cases hk
    exact ⟨_, hindex _ hm, hlt⟩
  · refine List.pairwise_of_forall_mem_list fun a _ b hb n hn => ?_
    exact absurd hn (hnone b hb n)
  · intro a _ b hb n hn
    exact absurd hn (hnone b hb n)

theorem mem_keys {l : List String} {k : String} :
    k ∈ (ofList l).keys ↔ k ∈ l ∧ k ≠ "__proto__" := by
  rw [keys, List.mem_append, names_ofList, List.mem_filter, List.mem_eraseDups,
    List.mem_map]
  constructor
  · rintro (⟨n, hn, rfl⟩ | ⟨hk, hother⟩)
    · obtain ⟨k, hk, hindex⟩ := mem_indices.mp hn
      have hkey := (arrayIndex_eq_some.mp hindex).2
      rw [hkey]
      refine ⟨hk, ?_⟩
      rintro rfl
      rw [arrayIndex_proto] at hindex
      cases hindex
    · rw [Bool.and_eq_true, decide_eq_true_eq] at hother
      exact ⟨hk, hother.2⟩
  · rintro ⟨hk, hproto⟩
    cases hindex : arrayIndex k with
    | some n =>
        exact .inl ⟨n, mem_indices.mpr ⟨k, hk, hindex⟩,
          (arrayIndex_eq_some.mp hindex).2⟩
    | none => exact .inr ⟨hk, by simp [hproto]⟩

end JsObject

/-- What is listed so is its indices and then the rest. -/
theorem Listed.split {l : List String} (h : Listed l) :
    l = (l.filterMap arrayIndex).map toString ++
      l.filter (fun k => (arrayIndex k).isNone) := by
  induction l with
  | nil => rfl
  | cons k l ih =>
      obtain ⟨hk, hl⟩ := List.pairwise_cons.mp h
      cases hindex : arrayIndex k with
      | some n =>
          rw [List.filterMap_cons_some hindex, List.map_cons, List.cons_append,
            List.filter_cons_of_neg (by simp [hindex]), ← ih hl,
            (arrayIndex_eq_some.mp hindex).2]
      | none =>
          -- no index may follow
          have hrest : ∀ x ∈ l, arrayIndex x = none := by
            intro x hx
            cases hx' : arrayIndex x with
            | none => rfl
            | some n =>
                obtain ⟨m, hm, -⟩ := hk x hx n hx'
                rw [hindex] at hm
                cases hm
          rw [List.filterMap_cons_none hindex,
            List.filterMap_eq_nil_iff.mpr hrest, List.map_nil, List.nil_append,
            List.filter_cons_of_pos (by simp [hindex]),
            List.filter_eq_self.mpr (by simpa using hrest)]

theorem Listed.ascending {l : List String} (h : Listed l) :
    (l.filterMap arrayIndex).Pairwise (· < ·) := by
  refine List.pairwise_filterMap.mpr (h.imp fun hab n hn m hm => ?_)
  obtain ⟨k, hk, hlt⟩ := hab m hm
  have hsame : n = k := Option.some_inj.mp (hn.symm.trans hk)
  omega

/-- The keys are the list, each key once, if and only if the list is in the
order of keys and `__proto__` is not in it. -/
theorem JsObject.keys_ofList {l : List String} :
    (ofList l).keys = l.eraseDups ↔
      "__proto__" ∉ l ∧ Listed l.eraseDups := by
  constructor
  · intro h
    refine ⟨fun hmem => ?_, h ▸ listed_keys _⟩
    have hkey : "__proto__" ∈ (ofList l).keys := by
      rw [h, List.mem_eraseDups]
      exact hmem
    exact (mem_keys.mp hkey).2 rfl
  · rintro ⟨hproto, hlisted⟩
    have hindices : (ofList l).indices = l.eraseDups.filterMap arrayIndex := by
      refine (ofList l).ascending.eq_of_mem_iff hlisted.ascending fun n => ?_
      rw [mem_indices, List.mem_filterMap]
      simp only [List.mem_eraseDups]
    have hnames : (ofList l).names =
        l.eraseDups.filter fun k => (arrayIndex k).isNone := by
      rw [names_ofList]
      refine List.filter_congr fun k hk => ?_
      have hne : k ≠ "__proto__" := by
        rintro rfl
        exact hproto (List.mem_eraseDups.mp hk)
      simp [hne]
    rw [keys, hindices, hnames, ← hlisted.split]

end QuMesh.Lib
