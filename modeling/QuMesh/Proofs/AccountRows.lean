import Mathlib.Data.Multiset.Count
import Mathlib.Algebra.BigOperators.Group.Multiset.Basic
import QuMesh.Proofs.ParallelJoin
import QuMesh.Proofs.SoapTrees
import QuMesh.Wsman.UserAccounts

/-!
# The rows of the user accounts

A reply takes its request out of those that are out, puts in the ones that it
opens, and edits rows. `step_after` says a step in these terms, and then the
counters are seen to count: `Counted`, and the callback is run when there is
nothing left to wait for.

Two edits can be made in either order if they are edits of different rows, or
the two of one handle, which write to different fields. A page makes the rows of
its handles anew, so what the edits need is that a handle stands on one page
only and in one place there, and that it is not the one under which the row of
the administrator is kept.
-/

namespace QuMesh.Wsman

open QuMesh.Lib QuMesh.Lib.Xml

namespace AclRequest

def isAdmin : AclRequest → Bool
  | .getAdminAclEntry => true
  | _ => false

def isPage : AclRequest → Bool
  | .enumerateUserAclEntries _ => true
  | _ => false

/-- The page and the place of a request for one handle, and the handle. -/
def placed : AclRequest → Option (Nat × Nat × Int)
  | .getUserAclEntryEx p i h | .getAclEnabledState p i h => some (p, i, h)
  | _ => none

def isPerHandle (r : AclRequest) : Bool := r.placed.isSome

end AclRequest

section

variable (answer : AclRequest → Outcome)

/-- The handles on a page. -/
def pageHandles (p : Nat) : List Int :=
  match (answer (.enumerateUserAclEntries p)).response with
  | .ok soap => parseAclHandles soap.bodyXml
  | .error _ => []

/-- The pages that are asked for. -/
inductive AskedPage : Nat → Prop
  | first : AskedPage 1
  | next {p : Nat} (h : AskedPage p) (hfull : 50 ≤ (pageHandles answer p).length) :
      AskedPage (p + (pageHandles answer p).length)

/-- The condition: no handle is listed twice, and none is the one of the
administrator. -/
structure ListedOnce : Prop where
  admin : ∀ {p}, AskedPage answer p → -1 ∉ pageHandles answer p
  place : ∀ {p q i j : Nat} {h : Int}, AskedPage answer p → AskedPage answer q →
    (pageHandles answer p)[i]? = some h → (pageHandles answer q)[j]? = some h →
    p = q ∧ i = j

namespace AccountsRead

/-! ## What a reply does -/

/-- The requests for the handles of a page. -/
def handleRequests (p : Nat) (handles : List (Int × Nat)) :
    Multiset AclRequest :=
  (handles.map fun h =>
    ({.getUserAclEntryEx p h.2 h.1, .getAclEnabledState p h.2 h.1} :
      Multiset AclRequest)).sum

/-- The requests that a reply opens. -/
def opened : AclRequest → Multiset AclRequest
  | .enumerateUserAclEntries p =>
      handleRequests p (pageHandles answer p).zipIdx +
        if 50 ≤ (pageHandles answer p).length then
          {.enumerateUserAclEntries (p + (pageHandles answer p).length)}
        else 0
  | _ => 0

/-- The empty rows of a page. -/
def stubs (handles : List (Int × Nat)) (rows : Rows) : Rows :=
  handles.foldl (fun rows h => rows.insert h.1 { handle := h.1 }) rows

/-- What a reply does to the rows. -/
def edit (r : AclRequest) (rows : Rows) : Rows :=
  match r, (answer r).response with
  | .enumerateUserAclEntries p, _ => stubs (pageHandles answer p).zipIdx rows
  | _, .error _ => rows
  | .getAdminAclEntry, .ok soap => adminRow soap.bodyXml rows
  | .getUserAclEntryEx _ _ h, .ok soap => rows.modify h (entryRow soap.bodyXml)
  | .getAclEnabledState _ _ h, .ok soap =>
      rows.modify h (enabledRow soap.bodyXml)

/-- The error of a page that failed. -/
def failure (r : AclRequest) : String :=
  match r, (answer r).response with
  | .enumerateUserAclEntries _, .error error => error
  | _, _ => ""

/-- How far a reply moves the count. -/
def moved : AclRequest → Int
  | .getAdminAclEntry => 0
  | .enumerateUserAclEntries p => 2 * (pageHandles answer p).length
  | .getUserAclEntryEx .. | .getAclEnabledState .. => -1

/-- No page follows. -/
def isLast : AclRequest → Bool
  | .enumerateUserAclEntries p => (pageHandles answer p).length < 50
  | _ => false

/-- The state that a reply leaves, before it is asked whether all is done. -/
def after (acc : AccountsRead) (r : AclRequest) : AccountsRead :=
  { acc with
    byHandle := edit answer r acc.byHandle
    pendingPerHandle := acc.pendingPerHandle + moved answer r
    adminDone := acc.adminDone || r.isAdmin
    enumDone := acc.enumDone || isLast answer r
    error := if acc.error = "" then failure answer r else acc.error
    outstanding := acc.outstanding.erase r + opened answer r }

theorem kick_foldl (p : Nat) (handles : List (Int × Nat))
    (acc : AccountsRead) :
    handles.foldl (kick p) acc =
      { acc with
        pendingPerHandle := acc.pendingPerHandle + 2 * handles.length
        byHandle := stubs handles acc.byHandle
        outstanding := acc.outstanding + handleRequests p handles } := by
  induction handles generalizing acc with
  | nil => simp [stubs, handleRequests]
  | cons h handles ih =>
      rw [List.foldl_cons, ih]
      simp only [kick, stubs, handleRequests, List.foldl_cons, List.map_cons,
        List.sum_cons, List.length_cons, Multiset.add_assoc, mk.injEq, true_and,
        and_true]
      push_cast
      omega

theorem maybeFire_open {acc : AccountsRead} (h : acc.enumDone = false) :
    acc.maybeFire = acc := by
  have hopen : (!acc.adminDone || !acc.enumDone) = true := by
    rw [h, Bool.not_false, Bool.or_true]
  unfold maybeFire
  rw [if_pos hopen]
  exact ite_self _

/-- Where nothing failed the error is what it was. -/
theorem error_kept (error : String) :
    (if error = "" then "" else error) = error := by
  split
  · next h => exact h.symm
  · rfl

/-- A step: the request is taken out and the reply is worked in, and then it is
asked whether all is done. -/
theorem step_after (acc : AccountsRead) (r : AclRequest)
    (h : r.isPage = true → acc.enumDone = false) :
    step answer acc r = (acc.after answer r).maybeFire := by
  cases r with
  | getAdminAclEntry =>
      cases hr : (answer .getAdminAclEntry).response <;>
        simp [step, adminReply, after, edit, failure, moved, isLast, opened,
          AclRequest.isAdmin, hr, error_kept]
  | enumerateUserAclEntries p =>
      have hopen : acc.enumDone = false := h rfl
      cases hr : (answer (.enumerateUserAclEntries p)).response with
      | error error =>
          simp [step, pageReply, after, edit, failure, moved, isLast, opened,
            AclRequest.isAdmin, hr, pageHandles, stubs, handleRequests]
      | ok soap =>
          have hhandles : pageHandles answer p = parseAclHandles soap.bodyXml := by
            rw [pageHandles, hr]
          simp only [step, pageReply, after, edit, failure, moved, isLast,
            opened, AclRequest.isAdmin, hr, hhandles, kick_foldl,
            List.length_zipIdx, error_kept, hopen, Bool.or_false]
          by_cases hfull : 50 ≤ (parseAclHandles soap.bodyXml).length
          · have hlast : decide ((parseAclHandles soap.bodyXml).length < 50) =
                false := by simpa using hfull
            rw [if_pos hfull, if_pos hfull, hlast, maybeFire_open rfl,
              Multiset.add_assoc]
            rfl
          · have hlast : decide ((parseAclHandles soap.bodyXml).length < 50) =
                true := by simpa using hfull
            rw [if_neg hfull, if_neg hfull, hlast, Multiset.add_zero]
            rfl
  | getUserAclEntryEx p i handle =>
      cases hr : (answer (.getUserAclEntryEx p i handle)).response <;>
        simp [step, handleReply, after, edit, failure, moved, isLast, opened,
          AclRequest.isAdmin, hr, error_kept, Int.sub_eq_add_neg]
  | getAclEnabledState p i handle =>
      cases hr : (answer (.getAclEnabledState p i handle)).response <;>
        simp [step, handleReply, after, edit, failure, moved, isLast, opened,
          AclRequest.isAdmin, hr, error_kept, Int.sub_eq_add_neg]

/-! ## What is counted -/

variable {answer}

@[simp] theorem maybeFire_outstanding (acc : AccountsRead) :
    acc.maybeFire.outstanding = acc.outstanding := by
  unfold maybeFire
  split
  · rfl
  · split
    · rfl
    · split <;> rfl

/-- The counters count the requests that are out. -/
structure Counted (acc : AccountsRead) : Prop where
  admin : acc.outstanding.countP (·.isAdmin) = if acc.adminDone then 0 else 1
  page : acc.outstanding.countP (·.isPage) = if acc.enumDone then 0 else 1
  perHandle : acc.pendingPerHandle =
    (acc.outstanding.countP (·.isPerHandle) : Int)

/-- Every request is counted by one of them. -/
theorem card_counts (m : Multiset AclRequest) :
    m.card = m.countP (·.isAdmin) + m.countP (·.isPage) +
      m.countP (·.isPerHandle) := by
  induction m using Multiset.induction_on with
  | empty => rfl
  | cons r m ih =>
      rw [Multiset.card_cons, Multiset.countP_cons, Multiset.countP_cons,
        Multiset.countP_cons, ih]
      cases r <;>
        simp only [AclRequest.isAdmin, AclRequest.isPage,
          AclRequest.isPerHandle, AclRequest.placed, Option.isSome,
          if_true, if_false, Bool.false_eq_true] <;>
        omega

/-- The counters are at their ends where nothing is out. -/
theorem Counted.done_iff {acc : AccountsRead} (h : acc.Counted) :
    acc.outstanding = 0 ↔ acc.adminDone = true ∧ acc.enumDone = true ∧
      ¬acc.pendingPerHandle > 0 := by
  have hcard := card_counts acc.outstanding
  have hadmin := h.admin
  have hpage := h.page
  have hper := h.perHandle
  rw [← Multiset.card_eq_zero]
  generalize acc.outstanding.countP (·.isAdmin) = admins at hcard hadmin
  generalize acc.outstanding.countP (·.isPage) = pages at hcard hpage
  cases ha : acc.adminDone <;> cases he : acc.enumDone <;>
    simp only [ha, he, if_true, Bool.false_eq_true, if_false, true_and,
      false_and, iff_false] at hadmin hpage ⊢ <;>
    omega

/-- Where the counters count, the callback is run when nothing is out. -/
theorem Counted.settle {acc : AccountsRead} (h : acc.Counted)
    (hfired : acc.fired = false) :
    acc.maybeFire =
      if acc.outstanding = 0 then
        { acc with fired := true, calls := acc.calls ++ [acc.result] }
      else acc := by
  have hdone := h.done_iff
  unfold maybeFire
  rw [hfired, if_neg Bool.false_ne_true]
  by_cases hzero : acc.outstanding = 0
  · obtain ⟨hadmin, henum, hper⟩ := hdone.mp hzero
    rw [if_pos hzero, hadmin, henum, if_neg (by decide), if_neg hper]
  · rw [if_neg hzero]
    by_cases hflags : (!acc.adminDone || !acc.enumDone) = true
    · rw [if_pos hflags]
    · simp only [Bool.or_eq_true, Bool.not_eq_true', not_or,
        Bool.not_eq_false] at hflags
      have hper : acc.pendingPerHandle > 0 := by
        by_contra hper
        exact hzero (hdone.mpr ⟨hflags.1, hflags.2, hper⟩)
      rw [if_neg (by rw [hflags.1, hflags.2]; decide), if_pos hper]

theorem count_handleRequests (p : Nat) (handles : List (Int × Nat)) :
    (handleRequests p handles).countP (·.isAdmin) = 0 ∧
      (handleRequests p handles).countP (·.isPage) = 0 ∧
      (handleRequests p handles).countP (·.isPerHandle) =
        2 * handles.length := by
  induction handles with
  | nil => exact ⟨rfl, rfl, rfl⟩
  | cons h handles ih =>
      simp only [handleRequests, List.map_cons, List.sum_cons] at ih ⊢
      obtain ⟨hadmin, hpage, hper⟩ := ih
      rw [Multiset.countP_add, Multiset.countP_add, Multiset.countP_add, hadmin,
        hpage, hper]
      refine ⟨rfl, rfl, ?_⟩
      rw [List.length_cons, Nat.mul_succ, Nat.add_comm]
      rfl

/-- What a reply opens: no request for the administrator, a page where it was
one and another follows, and so many requests for handles as the count is moved
by. -/
theorem count_opened (r : AclRequest) :
    (opened answer r).countP (·.isAdmin) = 0 ∧
      (opened answer r).countP (·.isPage) + (if isLast answer r then 1 else 0) =
        (if r.isPage then 1 else 0) ∧
      ((opened answer r).countP (·.isPerHandle) : Int) =
        moved answer r + if r.isPerHandle then 1 else 0 := by
  cases r with
  | getAdminAclEntry => exact ⟨rfl, rfl, rfl⟩
  | getUserAclEntryEx p i handle => exact ⟨rfl, rfl, rfl⟩
  | getAclEnabledState p i handle => exact ⟨rfl, rfl, rfl⟩
  | enumerateUserAclEntries p =>
      obtain ⟨hadmin, hpage, hper⟩ :=
        count_handleRequests p (pageHandles answer p).zipIdx
      rw [List.length_zipIdx] at hper
      have hmoved : moved answer (.enumerateUserAclEntries p) +
          (if (AclRequest.enumerateUserAclEntries p).isPerHandle then 1 else 0) =
            2 * ((pageHandles answer p).length : Int) := Int.add_zero _
      rw [opened, Multiset.countP_add, Multiset.countP_add, Multiset.countP_add,
        hadmin, hpage, hper, hmoved, isLast]
      by_cases hfull : 50 ≤ (pageHandles answer p).length
      · rw [if_pos hfull, decide_eq_false (by omega)]
        exact ⟨rfl, rfl, rfl⟩
      · rw [if_neg hfull, decide_eq_true (by omega)]
        exact ⟨rfl, rfl, rfl⟩

/-- Before the callback is run the counters count still. -/
theorem Counted.after {acc : AccountsRead} (h : acc.Counted) {r : AclRequest}
    (hr : r ∈ acc.outstanding) : (acc.after answer r).Counted := by
  obtain ⟨rest, hrest⟩ := Multiset.exists_cons_of_mem hr
  obtain ⟨hadmin, hpage, hper⟩ := h
  obtain ⟨hopenAdmin, hopenPage, hopenPer⟩ := @count_opened answer r
  have hout : (acc.after answer r).outstanding = rest + opened answer r := by
    rw [AccountsRead.after, hrest, Multiset.erase_cons_head]
  rw [hrest, Multiset.countP_cons] at hadmin hpage hper
  refine ⟨?_, ?_, ?_⟩
  · rw [hout, Multiset.countP_add, hopenAdmin]
    show _ = if acc.adminDone || r.isAdmin then 0 else 1
    cases hkind : r.isAdmin <;> cases hdone : acc.adminDone <;>
      simp only [hkind, hdone, if_true, if_false, Bool.false_eq_true,
        Bool.or_true, Bool.or_false] at hadmin ⊢ <;>
      omega
  · rw [hout, Multiset.countP_add]
    show _ = if acc.enumDone || isLast answer r then 0 else 1
    cases hkind : r.isPage <;> cases hlast : isLast answer r <;>
      cases hdone : acc.enumDone <;>
      simp only [hkind, hlast, hdone, if_true, if_false, Bool.false_eq_true,
        Bool.or_true, Bool.or_false] at hpage hopenPage ⊢ <;>
      omega
  · rw [hout, Multiset.countP_add]
    show acc.pendingPerHandle + moved answer r = _
    cases hkind : r.isPerHandle <;>
      simp only [hkind, if_true, if_false, Bool.false_eq_true] at hper hopenPer <;>
      omega

/-! ## Where the requests come from -/

/-- A page that is out is one that is asked for, and a request for a handle that
is out is for one of a page before those that are out. -/
structure Placed (answer : AclRequest → Outcome) (acc : AccountsRead) :
    Prop where
  page : ∀ p, .enumerateUserAclEntries p ∈ acc.outstanding → AskedPage answer p
  place : ∀ r ∈ acc.outstanding, ∀ p i h, r.placed = some (p, i, h) →
    AskedPage answer p ∧ (pageHandles answer p)[i]? = some h ∧
      ∀ q, .enumerateUserAclEntries q ∈ acc.outstanding → p < q

theorem mem_handleRequests {p : Nat} {handles : List (Int × Nat)}
    {r : AclRequest} (h : r ∈ handleRequests p handles) :
    ∃ x ∈ handles, r.placed = some (p, x.2, x.1) := by
  induction handles with
  | nil => exact absurd h (Multiset.notMem_zero r)
  | cons x handles ih =>
      rw [handleRequests, List.map_cons, List.sum_cons, Multiset.mem_add] at h
      rcases h with h | h
      · refine ⟨x, List.mem_cons_self, ?_⟩
        rcases Multiset.mem_cons.mp h with rfl | h
        · rfl
        · rw [Multiset.mem_singleton.mp h]
          rfl
      · obtain ⟨y, hy, hplaced⟩ := ih h
        exact ⟨y, List.mem_cons_of_mem x hy, hplaced⟩

/-- What a reply opens: the next page, or something for a handle of this
one. -/
theorem mem_opened {r e : AclRequest} (h : e ∈ opened answer r) :
    ∃ p, r = .enumerateUserAclEntries p ∧
      ((e = .enumerateUserAclEntries (p + (pageHandles answer p).length) ∧
          50 ≤ (pageHandles answer p).length) ∨
        ∃ i handle, e.placed = some (p, i, handle) ∧
          (pageHandles answer p)[i]? = some handle) := by
  cases r with
  | getAdminAclEntry => exact absurd h (Multiset.notMem_zero e)
  | getUserAclEntryEx p i handle => exact absurd h (Multiset.notMem_zero e)
  | getAclEnabledState p i handle => exact absurd h (Multiset.notMem_zero e)
  | enumerateUserAclEntries p =>
      refine ⟨p, rfl, ?_⟩
      rw [opened, Multiset.mem_add] at h
      rcases h with h | h
      · obtain ⟨⟨handle, i⟩, hx, hplaced⟩ := mem_handleRequests h
        exact .inr ⟨i, handle, hplaced, List.mem_zipIdx_iff_getElem?.mp hx⟩
      · split at h
        · next hfull => exact .inl ⟨Multiset.mem_singleton.mp h, hfull⟩
        · exact absurd h (Multiset.notMem_zero e)

/-- There is one page out at most. -/
theorem Counted.page_one {acc : AccountsRead} (h : acc.Counted) {p : Nat}
    (hp : .enumerateUserAclEntries p ∈ acc.outstanding) :
    ∀ q, .enumerateUserAclEntries q ∉
      acc.outstanding.erase (.enumerateUserAclEntries p) := by
  intro q hq
  obtain ⟨rest, hrest⟩ := Multiset.exists_cons_of_mem hp
  rw [hrest, Multiset.erase_cons_head] at hq
  obtain ⟨rest', hrest'⟩ := Multiset.exists_cons_of_mem hq
  have hpage := h.page
  rw [hrest, hrest', Multiset.countP_cons, Multiset.countP_cons] at hpage
  simp only [AclRequest.isPage, if_true] at hpage
  split at hpage <;> omega

theorem Placed.after {acc : AccountsRead} (hplaced : acc.Placed answer)
    (hcounted : acc.Counted) {r : AclRequest} (hr : r ∈ acc.outstanding) :
    (acc.after answer r).Placed answer := by
  have hmem : ∀ e, e ∈ (acc.after answer r).outstanding →
      e ∈ acc.outstanding.erase r ∨ e ∈ opened answer r :=
    fun e he => Multiset.mem_add.mp he
  refine ⟨fun p hp => ?_, fun e he p i h hp => ?_⟩
  · rcases hmem _ hp with hold | hnew
    · exact hplaced.page p (Multiset.mem_of_mem_erase hold)
    · obtain ⟨q, rfl, ⟨heq, hfull⟩ | ⟨i, handle, hnone, -⟩⟩ := mem_opened hnew
      · cases heq
        exact .next (hplaced.page q hr) hfull
      · cases hnone
  · -- the pages that are out now are those from before, or the next one
    have hpages : ∀ q, .enumerateUserAclEntries q ∈
        (acc.after answer r).outstanding →
        .enumerateUserAclEntries q ∈ acc.outstanding.erase r ∨
          ∃ m, r = .enumerateUserAclEntries m ∧ m < q := by
      intro q hq
      rcases hmem _ hq with hold | hnew
      · exact .inl hold
      · obtain ⟨m, rfl, ⟨heq, hfull⟩ | ⟨i, handle, hnone, -⟩⟩ := mem_opened hnew
        · cases heq
          exact .inr ⟨m, rfl, by omega⟩
        · cases hnone
    rcases hmem e he with hold | hnew
    · obtain ⟨hasked, hget, hbefore⟩ :=
        hplaced.place e (Multiset.mem_of_mem_erase hold) p i h hp
      refine ⟨hasked, hget, fun q hq => ?_⟩
      rcases hpages q hq with hq | ⟨m, rfl, hm⟩
      · exact hbefore q (Multiset.mem_of_mem_erase hq)
      · exact Nat.lt_trans (hbefore m hr) hm
    · obtain ⟨m, rfl, ⟨rfl, -⟩ | ⟨i', handle, hplace, hget⟩⟩ := mem_opened hnew
      · cases hp
      · rw [hplace] at hp
        cases hp
        refine ⟨hplaced.page p hr, hget, fun q hq => ?_⟩
        rcases hpages q hq with hq | ⟨m', hm', hlt⟩
        · exact absurd hq (hcounted.page_one hr q)
        · cases hm'
          exact hlt

/-! ## The rows -/

variable (answer) in
/-- The handles whose rows a reply may write. -/
def touches (r : AclRequest) (k : Int) : Prop :=
  match r with
  | .getAdminAclEntry => k = -1
  | .enumerateUserAclEntries p => k ∈ pageHandles answer p
  | .getUserAclEntryEx _ _ h | .getAclEnabledState _ _ h => k = h

theorem insert_getElem (rows : Rows) (h k : Int) (u : UserAccount) :
    (rows.insert h u)[k]? = if k = h then some u else rows[k]? := by
  simp only [Std.ExtTreeMap.getElem?_insert, Std.compare_eq_iff_eq,
    eq_comm (a := k)]

theorem modify_getElem (rows : Rows) (h k : Int)
    (f : UserAccount → UserAccount) :
    (rows.modify h f)[k]? = if k = h then rows[k]?.map f else rows[k]? := by
  rw [Std.ExtTreeMap.getElem?_modify]
  by_cases hk : k = h
  · simp only [hk, Std.compare_eq_iff_eq, if_true]
  · have hne : ¬h = k := fun heq => hk heq.symm
    simp only [hk, hne, Std.compare_eq_iff_eq, if_false]

theorem stubs_getElem (handles : List (Int × Nat)) (rows : Rows) (k : Int) :
    (stubs handles rows)[k]? =
      if k ∈ handles.map Prod.fst then some { handle := k } else rows[k]? := by
  induction handles generalizing rows with
  | nil => rfl
  | cons x handles ih =>
      rw [stubs, List.foldl_cons, ← stubs, ih, insert_getElem]
      simp only [List.map_cons, List.mem_cons]
      by_cases hmem : k ∈ handles.map Prod.fst
      · simp only [hmem, or_true, if_true]
      · by_cases hk : k = x.1
        · simp only [hk, true_or, if_true, ite_self]
        · simp only [hmem, hk, or_false, if_false]

/-- Each row is edited by itself, and only the ones that the reply may write. -/
theorem edit_getElem (r : AclRequest) (k : Int) :
    ∃ f : Option UserAccount → Option UserAccount,
      (∀ rows, (edit answer r rows)[k]? = f rows[k]?) ∧
        (¬touches answer r k → f = id) := by
  have hone : ∀ (h : Int) (g : Option UserAccount → Option UserAccount),
      (touches answer r k ↔ k = h) →
      (∀ rows, (edit answer r rows)[k]? =
        if k = h then g rows[k]? else rows[k]?) →
      ∃ f : Option UserAccount → Option UserAccount,
        (∀ rows, (edit answer r rows)[k]? = f rows[k]?) ∧
          (¬touches answer r k → f = id) := by
    intro h g htouches hedit
    refine ⟨fun row => if k = h then g row else row, hedit, fun hnot => ?_⟩
    funext row
    exact if_neg (mt htouches.mpr hnot)
  have hsame : (∀ rows, edit answer r rows = rows) →
      ∃ f : Option UserAccount → Option UserAccount,
        (∀ rows, (edit answer r rows)[k]? = f rows[k]?) ∧
          (¬touches answer r k → f = id) :=
    fun hedit => ⟨id, fun rows => by rw [hedit, id], fun _ => rfl⟩
  cases hr : (answer r).response with
  | error error =>
      cases r with
      | enumerateUserAclEntries p =>
          refine hsame fun rows => ?_
          simp [edit, stubs, pageHandles, hr]
      | getAdminAclEntry => exact hsame fun rows => by simp [edit, hr]
      | getUserAclEntryEx p i h => exact hsame fun rows => by simp [edit, hr]
      | getAclEnabledState p i h => exact hsame fun rows => by simp [edit, hr]
  | ok soap =>
      cases r with
      | getUserAclEntryEx p i h =>
          refine hone h (Option.map (entryRow soap.bodyXml)) Iff.rfl fun rows => ?_
          simp only [edit, hr]
          exact modify_getElem rows h k _
      | getAclEnabledState p i h =>
          refine hone h (Option.map (enabledRow soap.bodyXml)) Iff.rfl
            fun rows => ?_
          simp only [edit, hr]
          exact modify_getElem rows h k _
      | enumerateUserAclEntries p =>
          refine ⟨fun row => if k ∈ pageHandles answer p then
            some { handle := k } else row, fun rows => ?_, fun hnot => ?_⟩
          · simp [edit, stubs_getElem]
          · funext row
            exact if_neg hnot
      | getAdminAclEntry =>
          by_cases hu : findScalar soap.bodyXml "Username" = ""
          · exact hsame fun rows => by simp [edit, hr, adminRow, hu]
          · refine hone (-1)
              (fun _ => some (adminAccount (findScalar soap.bodyXml "Username")))
              Iff.rfl fun rows => ?_
            simp only [edit, hr, adminRow, if_neg hu]
            exact insert_getElem rows (-1) k _

/-- The two edits of one row write to different fields. -/
theorem entryRow_enabledRow (b b' : List Token) (u : UserAccount) :
    entryRow b (enabledRow b' u) = enabledRow b' (entryRow b u) := by
  unfold entryRow enabledRow
  cases Strings.toInt (findScalar b "AccessPermission") <;> dsimp only <;>
    split <;> rfl

theorem modify_comm (rows : Rows) (h : Int) (f g : UserAccount → UserAccount)
    (hfg : ∀ u, f (g u) = g (f u)) :
    (rows.modify h f).modify h g = (rows.modify h g).modify h f := by
  refine Std.ExtTreeMap.ext_getElem? fun k => ?_
  simp only [modify_getElem]
  split
  · rw [Option.map_map, Option.map_map]
    exact congrFun (congrArg Option.map (funext fun u => (hfg u).symm)) _
  · rfl

/-- The entry of a handle and its state can come in either order. -/
theorem edit_same_handle (p i p' i' : Nat) (h : Int) (rows : Rows) :
    edit answer (.getUserAclEntryEx p i h)
        (edit answer (.getAclEnabledState p' i' h) rows) =
      edit answer (.getAclEnabledState p' i' h)
        (edit answer (.getUserAclEntryEx p i h) rows) := by
  unfold edit
  cases (answer (.getUserAclEntryEx p i h)).response with
  | error error => rfl
  | ok soap =>
      cases (answer (.getAclEnabledState p' i' h)).response with
      | error error => rfl
      | ok soap' =>
          exact modify_comm rows h _ _ fun u =>
            (entryRow_enabledRow soap.bodyXml soap'.bodyXml u).symm

/-- Edits of different rows can be made in either order. -/
theorem edit_apart {e f : AclRequest}
    (h : ∀ k, touches answer e k → ¬touches answer f k) (rows : Rows) :
    edit answer f (edit answer e rows) = edit answer e (edit answer f rows) := by
  refine Std.ExtTreeMap.ext_getElem? fun k => ?_
  obtain ⟨ge, hge, hide⟩ := @edit_getElem answer e k
  obtain ⟨gf, hgf, hidf⟩ := @edit_getElem answer f k
  rw [hge, hgf, hgf, hge]
  by_cases hk : touches answer e k
  · rw [hidf (h k hk)]
    rfl
  · rw [hide hk]
    rfl

/-! ## Every order -/

/-- The counters count, the requests are placed, and the callback has been run
when there is nothing out. -/
structure Inv (answer : AclRequest → Outcome) (acc : AccountsRead) : Prop where
  counted : acc.Counted
  placed : acc.Placed answer
  waits : acc.outstanding ≠ 0 → acc.fired = false ∧ acc.calls = []
  fires : acc.outstanding = 0 → acc.fired = true ∧ acc.calls = [acc.result]

theorem ne_zero_of_mem {acc : AccountsRead} {r : AclRequest}
    (hr : r ∈ acc.outstanding) : acc.outstanding ≠ 0 := by
  intro hzero
  rw [hzero] at hr
  exact Multiset.notMem_zero r hr

theorem start_outstanding : ({} : AccountsRead).outstanding =
    .getAdminAclEntry ::ₘ {.enumerateUserAclEntries 1} := rfl

theorem inv_start : ({} : AccountsRead).Inv answer := by
  refine ⟨⟨rfl, rfl, rfl⟩, ⟨fun p hp => ?_, fun r hr p i h hp => ?_⟩,
    fun _ => ⟨rfl, rfl⟩, fun hzero => ?_⟩
  · rw [start_outstanding] at hp
    rcases Multiset.mem_cons.mp hp with h | h
    · cases h
    · cases Multiset.mem_singleton.mp h
      exact .first
  · rw [start_outstanding] at hr
    rcases Multiset.mem_cons.mp hr with rfl | h
    · cases hp
    · cases Multiset.mem_singleton.mp h
      cases hp
  · have hmem : AclRequest.getAdminAclEntry ∈
        ({} : AccountsRead).outstanding := by
      rw [start_outstanding]
      exact Multiset.mem_cons_self _ _
    exact absurd hzero (ne_zero_of_mem hmem)

/-- A page is out only while the enumeration goes on. -/
theorem Inv.enumDone {acc : AccountsRead} (h : acc.Inv answer) {r : AclRequest}
    (hr : r ∈ acc.outstanding) (hpage : r.isPage = true) :
    acc.enumDone = false := by
  have hcount := h.counted.page
  have hpos : 0 < acc.outstanding.countP (·.isPage) :=
    Multiset.countP_pos.mpr ⟨r, hr, hpage⟩
  cases hdone : acc.enumDone with
  | false => rfl
  | true =>
      rw [hdone, if_pos rfl] at hcount
      omega

/-- A step, with what it calls. -/
theorem Inv.step_eq {acc : AccountsRead} (h : acc.Inv answer) {r : AclRequest}
    (hr : r ∈ acc.outstanding) :
    step answer acc r =
      if (acc.after answer r).outstanding = 0 then
        { acc.after answer r with
          fired := true, calls := [(acc.after answer r).result] }
      else acc.after answer r := by
  obtain ⟨hfired, hcalls⟩ := h.waits (ne_zero_of_mem hr)
  rw [step_after answer acc r (h.enumDone hr),
    (h.counted.after hr).settle hfired]
  show (if (acc.after answer r).outstanding = 0 then
      ({ acc.after answer r with
        fired := true
        calls := acc.calls ++ [(acc.after answer r).result] } : AccountsRead)
    else acc.after answer r) = _
  rw [hcalls]
  rfl

theorem Inv.step {acc : AccountsRead} (h : acc.Inv answer) {r : AclRequest}
    (hr : r ∈ acc.outstanding) : (step answer acc r).Inv answer := by
  have hwaits := h.waits (ne_zero_of_mem hr)
  have hcounted := @Counted.after answer acc h.counted r hr
  have hplaced := h.placed.after h.counted hr
  rw [h.step_eq hr]
  split
  · next hzero =>
    exact ⟨⟨hcounted.admin, hcounted.page, hcounted.perHandle⟩,
      ⟨hplaced.page, hplaced.place⟩, fun hopen => absurd hzero hopen,
      fun _ => ⟨rfl, rfl⟩⟩
  · next hopen =>
    exact ⟨hcounted, hplaced, fun _ => hwaits, fun hzero => absurd hzero hopen⟩

/-- What determines a state: all but the counters and the calls. -/
theorem Inv.ext {s t : AccountsRead} (hs : s.Inv answer) (ht : t.Inv answer)
    (hout : s.outstanding = t.outstanding) (hrows : s.byHandle = t.byHandle)
    (herror : s.error = t.error) : s = t := by
  have hadmin : s.adminDone = t.adminDone := by
    have h := hs.counted.admin
    rw [hout, ht.counted.admin] at h
    cases hsd : s.adminDone <;> cases htd : t.adminDone <;> simp_all
  have henum : s.enumDone = t.enumDone := by
    have h := hs.counted.page
    rw [hout, ht.counted.page] at h
    cases hsd : s.enumDone <;> cases htd : t.enumDone <;> simp_all
  have hper : s.pendingPerHandle = t.pendingPerHandle := by
    rw [hs.counted.perHandle, hout, ht.counted.perHandle]
  have hend : s.fired = t.fired ∧ s.calls = t.calls := by
    by_cases hzero : s.outstanding = 0
    · obtain ⟨hfired, hcalls⟩ := hs.fires hzero
      obtain ⟨hfired', hcalls'⟩ := ht.fires (hout ▸ hzero)
      rw [hfired, hfired', hcalls, hcalls', result, result, hrows, herror]
      exact ⟨rfl, rfl⟩
    · obtain ⟨hfired, hcalls⟩ := hs.waits hzero
      obtain ⟨hfired', hcalls'⟩ := ht.waits (hout ▸ hzero)
      rw [hfired, hfired', hcalls, hcalls']
      exact ⟨rfl, rfl⟩
  cases s
  cases t
  cases hout
  cases hrows
  cases herror
  cases hadmin
  cases henum
  cases hper
  cases hend.1
  cases hend.2
  rfl

theorem Inv.step_fields {acc : AccountsRead} (h : acc.Inv answer)
    {r : AclRequest} (hr : r ∈ acc.outstanding) :
    (AccountsRead.step answer acc r).outstanding =
        acc.outstanding.erase r + opened answer r ∧
      (AccountsRead.step answer acc r).byHandle = edit answer r acc.byHandle ∧
      (AccountsRead.step answer acc r).error =
        if acc.error = "" then failure answer r else acc.error := by
  rw [h.step_eq hr]
  split <;> exact ⟨rfl, rfl, rfl⟩

/-- The row of a handle that is asked about is not touched by a page, nor by the
reply for the administrator. -/
theorem Inv.handle_apart {acc : AccountsRead} (h : acc.Inv answer)
    (hlisted : ListedOnce answer) {e f : AclRequest} (he : e ∈ acc.outstanding)
    (hf : f ∈ acc.outstanding) {p i : Nat} {handle : Int}
    (hplaced : e.placed = some (p, i, handle)) (hnone : f.placed = none) :
    ¬touches answer f handle := by
  obtain ⟨hasked, hget, hbefore⟩ := h.placed.place e he p i handle hplaced
  cases f with
  | getAdminAclEntry =>
      intro hadmin
      cases hadmin
      exact hlisted.admin hasked (List.mem_of_getElem? hget)
  | enumerateUserAclEntries q =>
      intro hmem
      obtain ⟨j, hj⟩ := List.getElem?_of_mem hmem
      obtain ⟨hpq, -⟩ := hlisted.place hasked (h.placed.page q hf) hget hj
      have := hbefore q hf
      omega
  | getUserAclEntryEx q j handle' => cases hnone
  | getAclEnabledState q j handle' => cases hnone

theorem touches_placed {e : AclRequest} {p i : Nat} {handle k : Int}
    (h : e.placed = some (p, i, handle)) : touches answer e k ↔ k = handle := by
  cases e with
  | getAdminAclEntry => cases h
  | enumerateUserAclEntries q => cases h
  | getUserAclEntryEx q j handle' =>
      cases h
      exact Iff.rfl
  | getAclEnabledState q j handle' =>
      cases h
      exact Iff.rfl

/-- Two requests that are out edit different rows, or they are the two of one
handle. -/
theorem Inv.edit_comm {acc : AccountsRead} (h : acc.Inv answer)
    (hlisted : ListedOnce answer) {e f : AclRequest} (he : e ∈ acc.outstanding)
    (hf : f ∈ acc.outstanding) (hef : e ≠ f) (rows : Rows) :
    edit answer f (edit answer e rows) = edit answer e (edit answer f rows) := by
  cases hpe : e.placed with
  | some x =>
      obtain ⟨p, i, handle⟩ := x
      cases hpf : f.placed with
      | none =>
          refine edit_apart (fun k hk => ?_) rows
          rw [(touches_placed hpe).mp hk]
          exact h.handle_apart hlisted he hf hpe hpf
      | some y =>
          obtain ⟨q, j, handle'⟩ := y
          by_cases hsame : handle = handle'
          · cases hsame
            obtain ⟨haske, hgete, -⟩ := h.placed.place e he p i handle hpe
            obtain ⟨haskf, hgetf, -⟩ := h.placed.place f hf q j handle hpf
            obtain ⟨rfl, rfl⟩ := hlisted.place haske haskf hgete hgetf
            cases e <;> cases f <;> cases hpe <;> cases hpf
            · exact absurd rfl hef
            · exact (edit_same_handle p i p i handle rows).symm
            · exact edit_same_handle p i p i handle rows
            · exact absurd rfl hef
          · refine edit_apart (fun k hke hkf => hsame ?_) rows
            rw [← (touches_placed hpe).mp hke, (touches_placed hpf).mp hkf]
  | none =>
      cases hpf : f.placed with
      | some y =>
          obtain ⟨q, j, handle⟩ := y
          refine (edit_apart (fun k hk => ?_) rows).symm
          rw [(touches_placed hpf).mp hk]
          exact h.handle_apart hlisted hf he hpf hpe
      | none =>
          cases e <;> cases f <;> cases hpe <;> cases hpf
          · exact absurd rfl hef
          · next q =>
            refine edit_apart (fun k hk hmem => ?_) rows
            cases hk
            exact hlisted.admin (h.placed.page q hf) hmem
          · next p =>
            refine edit_apart (fun k hmem hk => ?_) rows
            cases hk
            exact hlisted.admin (h.placed.page p he) hmem
          · next p q =>
            have hq := (Multiset.mem_erase_of_ne fun h => hef h.symm).mpr hf
            exact absurd hq (h.counted.page_one he q)

/-- Only a page fails. -/
theorem failure_of_not_page {r : AclRequest} (h : r.isPage = false) :
    failure answer r = "" := by
  cases r with
  | enumerateUserAclEntries p => cases h
  | getAdminAclEntry =>
      unfold failure
      split
      · next heq _ => cases heq
      · rfl
  | getUserAclEntryEx p i handle => rfl
  | getAclEnabledState p i handle => rfl

/-- One of two requests that are out is no page. -/
theorem Inv.one_page {acc : AccountsRead} (h : acc.Inv answer)
    {e f : AclRequest} (he : e ∈ acc.outstanding) (hf : f ∈ acc.outstanding)
    (hef : e ≠ f) : e.isPage = false ∨ f.isPage = false := by
  cases e <;> cases f <;> first | exact .inl rfl | exact .inr rfl | skip
  next p q =>
  have hq := (Multiset.mem_erase_of_ne fun h => hef h.symm).mpr hf
  exact absurd hq (h.counted.page_one he q)

theorem exchange (hlisted : ListedOnce answer) :
    Exchange (AccountsRead.step answer) (fun acc r => r ∈ acc.outstanding)
      (Inv answer) where
  keeps h hr := h.step hr
  stays {acc e f} h he hf hef := by
    rw [(h.step_fields he).1]
    exact Multiset.mem_add.mpr
      (.inl ((Multiset.mem_erase_of_ne fun heq => hef heq.symm).mpr hf))
  comm {acc e f} h he hf hef := by
    have hf' : f ∈ acc.outstanding.erase e :=
      (Multiset.mem_erase_of_ne fun heq => hef heq.symm).mpr hf
    have he' : e ∈ acc.outstanding.erase f :=
      (Multiset.mem_erase_of_ne hef).mpr he
    obtain ⟨houte, hrowse, herrore⟩ := h.step_fields he
    obtain ⟨houtf, hrowsf, herrorf⟩ := h.step_fields hf
    have hine : f ∈ (AccountsRead.step answer acc e).outstanding := by
      rw [houte]
      exact Multiset.mem_add.mpr (.inl hf')
    have hinf : e ∈ (AccountsRead.step answer acc f).outstanding := by
      rw [houtf]
      exact Multiset.mem_add.mpr (.inl he')
    obtain ⟨houtef, hrowsef, herroref⟩ := (h.step he).step_fields hine
    obtain ⟨houtfe, hrowsfe, herrorfe⟩ := (h.step hf).step_fields hinf
    refine ((h.step he).step hine).ext ((h.step hf).step hinf) ?_ ?_ ?_
    · rw [houtef, houtfe, houte, houtf, Multiset.erase_add_left_pos _ hf',
        Multiset.erase_add_left_pos _ he', Multiset.erase_comm,
        add_right_comm]
    · rw [hrowsef, hrowsfe, hrowse, hrowsf]
      exact h.edit_comm hlisted he hf hef acc.byHandle
    · rw [herroref, herrorfe, herrore, herrorf]
      rcases h.one_page he hf hef with hnone | hnone <;>
        rw [failure_of_not_page hnone] <;>
        by_cases hempty : acc.error = "" <;>
        simp only [hempty, if_true, if_false] <;>
        split <;> simp_all

end AccountsRead

/-- Where no handle is listed twice, and none is the one of the administrator,
the callback is called once, when nothing is out, and whatever order the replies
came in. -/
theorem accounts_join (hlisted : ListedOnce answer) :
    JoinsOnce (AccountsRead.step answer) (fun acc r => r ∈ acc.outstanding)
      AccountsRead.calls {} := by
  refine (AccountsRead.exchange hlisted).joinsOnce ?_ ?_ AccountsRead.inv_start
  · intro acc h hopen
    have hout : acc.outstanding ≠ 0 := fun hzero =>
      hopen fun r hr => AccountsRead.ne_zero_of_mem hr hzero
    exact (h.waits hout).2
  · intro acc h hend
    have hout : acc.outstanding = 0 :=
      Multiset.eq_zero_of_forall_notMem fun r hr => hend r hr
    rw [(h.fires hout).2]
    rfl

end

/-! ## The three reads -/

/-- The three reads that run side by side are joined. The replies are those
that are still out when `sendEnvelope` has returned: one that reports an error
inside the call has no one listening yet, and is never heard. -/
theorem reads_join (toLower : String → String) (isDigit : Char → Bool)
    (users : AclRequest → Outcome) (hardware : HardwareKind → Nat → Outcome)
    (ethernet : EthernetKind → Nat → Outcome) (hlisted : ListedOnce users) :
    JoinsOnce (AccountsRead.step users) (fun acc r => r ∈ acc.outstanding)
        AccountsRead.calls {} ∧
      JoinsOnce (Parallel.step (HardwareState.onDone toLower) hardware)
        Parallel.ready (fun s => s.shared.calls) { shared := {} } ∧
      JoinsOnce (Parallel.step (EthernetAcc.onDone isDigit) ethernet)
        Parallel.ready (fun s => s.shared.calls) { shared := {} } :=
  ⟨accounts_join users hlisted, hardware_joins toLower hardware,
    ethernet_joins isDigit ethernet⟩

/-- A reply with one output element, and texts in elements in it. -/
def scalarsReply (name : String) (scalars : List (String × String)) : Outcome :=
  { xml := (({ body := [.element "" name [] (scalars.map fun s =>
      .element "" s.1 [] [.text s.2])] } : Envelope).node).tokens }

/-- A device with an administrator and these handles on one page, which answers
nothing about them. -/
def aclDevice (handles : List String) : AclRequest → Outcome
  | .getAdminAclEntry =>
      scalarsReply "GetAdminAclEntry_OUTPUT" [("Username", "admin")]
  | .enumerateUserAclEntries _ =>
      scalarsReply "EnumerateUserAclEntries_OUTPUT"
        (handles.map fun h => ("Handles", h))
  | _ => { errorString := "timeout" }

theorem aclDevice_handles (handles : List String) (p : Nat) :
    pageHandles (aclDevice handles) p = pageHandles (aclDevice handles) 1 :=
  rfl

/-- Two handles, each listed once. -/
theorem reads_join_two :
    JoinsOnce (AccountsRead.step (aclDevice ["1", "2"]))
      (fun acc r => r ∈ acc.outstanding) AccountsRead.calls {} := by
  have hpage : ∀ p, pageHandles (aclDevice ["1", "2"]) p = [1, 2] := by
    intro p
    rw [aclDevice_handles]
    decide
  have hasked : ∀ {p}, AskedPage (aclDevice ["1", "2"]) p → p = 1 := by
    intro p hp
    cases hp with
    | first => rfl
    | next h hfull =>
        rw [hpage] at hfull
        exact absurd hfull (by decide)
  refine (reads_join id Char.isDigit (aclDevice ["1", "2"]) (fun _ _ => {})
    (fun _ _ => {}) ⟨fun hp => ?_, fun hp hq hi hj => ?_⟩).1
  · rw [hpage]
    decide
  · refine ⟨(hasked hp).trans (hasked hq).symm, ?_⟩
    rw [hpage] at hi hj
    exact (List.getElem?_inj (List.getElem?_eq_some_iff.mp hi).1
      (by decide)).mp (hi.trans hj.symm)

/-- The handle of a user is the one that is kept for the administrator: the row
is that of the reply that came last. -/
theorem reserved_handle : ¬∀ users : AclRequest → Outcome,
    JoinsOnce (AccountsRead.step users) (fun acc r => r ∈ acc.outstanding)
      AccountsRead.calls {} := by
  intro h
  let ending := [AclRequest.getUserAclEntryEx 1 0 (-1), .getAclEnabledState 1 0 (-1)]
  let device := aclDevice ["-1"]
  have hdone : ∀ es, (run (AccountsRead.step device) {} es).outstanding = 0 →
      Finished (fun acc r => r ∈ acc.outstanding)
        (run (AccountsRead.step device) {} es) := by
    intro es hzero r hr
    exact AccountsRead.ne_zero_of_mem hr hzero
  have hsame := (h device).same
    (.getAdminAclEntry :: .enumerateUserAclEntries 1 :: ending)
    (.enumerateUserAclEntries 1 :: .getAdminAclEntry :: ending)
    (by unfold Schedule; decide) (by unfold Schedule; decide)
    (hdone _ (by decide)) (hdone _ (by decide))
  revert hsame
  decide

end QuMesh.Wsman
