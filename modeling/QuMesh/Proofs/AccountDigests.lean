import QuMesh.App.Accounts

/-!
# Accounts and their digests

The device checks a login against the digest of the name the account has, and
the digest it keeps was made for the name the account had, or was believed to
have, when the password was set. A patch of the dialog may carry one of the two
without the other. A name alone leaves the digest behind, as in
`account_locked_out`, where renaming an account locks it; a password alone comes
with a digest for the name in the cached list, which another write may have
changed.

Whatever is accepted, the digest of an account stays the one its credential
makes; that much is an invariant of every run, `Kept`. So an account can be
logged into while the name in its credential and the name on the device make
the same digest, and `accounts_usable_iff` says that this is kept by exactly the
runs whose accepted writes keep it where they land.
-/

namespace QuMesh.Accounts

open QuMesh.Lib QuMesh.Lib.Strings QuMesh.Wsman

variable (md5 : Bytes → Bytes)

def Credential.digest (realm : String) (c : Credential) : String :=
  computeDigestPassword md5 c.name realm c.password

/-- The device lets a login in. -/
def Entry.logsIn (realm password : String) (e : Entry) : Prop :=
  e.digest = computeDigestPassword md5 e.name realm password

namespace Session

/-- Each account lets its own name in with the password that was set last. -/
def Usable (s : Session) : Prop :=
  ∀ h e c, s.accounts h = some e → s.set h = some c →
    e.logsIn md5 s.realm c.password

/-- What the account of a write will have been given its digest from. -/
def credentialAfter (q : Request) (h : Int) (s : Session) : Option Credential :=
  q.made <|> s.set h

/-- The condition: where the device accepts a write, the name that the account
then has makes the digest that the account then has. It does when the write
carries both or neither, when the account has no password of the operator's, and
otherwise when the digest was made for that name. -/
def Binds (s : Session) : Event → Prop
  | .serve id returnValue newHandle =>
      ∀ q, s.request id = some q → q.served = none → returnValue = 0 →
        ∀ h e, q.write.target newHandle s.accounts = some (h, e) →
          ∀ c, s.credentialAfter q h = some c →
            computeDigestPassword md5 e.name s.realm c.password =
              c.digest md5 s.realm
  | _ => True

end Session

/-! ## What a write carries -/

/-- The name a write carries. -/
def Write.name : Write → Option String
  | addUserAclEntryEx u _ _ _ => some u
  | updateUserAclEntryEx _ p => p.digestUsername
  | setAdminAclEntryEx u _ => some u

def Write.digest : Write → Option String
  | addUserAclEntryEx _ d _ _ => some d
  | updateUserAclEntryEx _ p => p.digestPassword
  | setAdminAclEntryEx _ d => some d

theorem target_digest {w : Write} {newHandle h : Int}
    {accounts : Int → Option Entry} {e : Entry} {d : String}
    (ht : w.target newHandle accounts = some (h, e)) (hd : w.digest = some d) :
    e.digest = d := by
  cases w with
  | addUserAclEntryEx u d' a rs =>
      obtain ⟨-, ht⟩ := Option.ite_none_right_eq_some.mp ht
      cases ht
      exact Option.some.inj hd
  | updateUserAclEntryEx h' p =>
      obtain ⟨old, -, ht⟩ := Option.map_eq_some_iff.mp ht
      cases ht
      have hp : p.digestPassword = some d := hd
      simp [Entry.patched, hp]
  | setAdminAclEntryEx u d' =>
      obtain ⟨old, -, ht⟩ := Option.map_eq_some_iff.mp ht
      cases ht
      exact Option.some.inj hd

/-- A write without a digest leaves the one that is there. -/
theorem target_keeps {w : Write} {newHandle h : Int}
    {accounts : Int → Option Entry} {e : Entry}
    (ht : w.target newHandle accounts = some (h, e)) (hd : w.digest = none) :
    ∃ old, accounts h = some old ∧ e.digest = old.digest := by
  cases w with
  | addUserAclEntryEx u d' a rs => cases hd
  | updateUserAclEntryEx h' p =>
      obtain ⟨old, hold, ht⟩ := Option.map_eq_some_iff.mp ht
      cases ht
      have hp : p.digestPassword = none := hd
      exact ⟨old, hold, by simp [Entry.patched, hp]⟩
  | setAdminAclEntryEx u d' => cases hd

/-- The digest of a write was made from its credential, and for the name that
it carries, if it carries one. -/
structure Request.Sound (realm : String) (q : Request) : Prop where
  made : q.write.digest = q.made.map (·.digest md5 realm)
  named : ∀ c n, q.made = some c → q.write.name = some n → c.name = n

namespace Session

/-- What holds in every run: the realm is the device's once it is known, the
writes are sound, and the digest of an account is that of its credential. -/
structure Kept (s : Session) : Prop where
  known : s.digestRealm = "" ∨ s.digestRealm = s.realm
  sound : ∀ q ∈ s.writes, q.Sound md5 s.realm
  bound : ∀ h e c, s.accounts h = some e → s.set h = some c →
    e.digest = c.digest md5 s.realm

variable {md5}

/-! ## Steps that leave the accounts alone -/

/-- The device was not changed, and nothing unsound was sent. -/
structure Still (md5 : Bytes → Bytes) (s t : Session) : Prop where
  realm : t.realm = s.realm
  digestRealm : t.digestRealm = s.digestRealm
  accounts : t.accounts = s.accounts
  set : t.set = s.set
  writes : ∀ q ∈ t.writes, q ∈ s.writes ∨ q.Sound md5 s.realm

theorem Still.refl (s : Session) : s.Still md5 s :=
  ⟨rfl, rfl, rfl, rfl, fun _ hq => .inl hq⟩

theorem Still.trans {s t u : Session} (h : s.Still md5 t) (g : t.Still md5 u) :
    s.Still md5 u := by
  refine ⟨g.realm.trans h.realm, g.digestRealm.trans h.digestRealm,
    g.accounts.trans h.accounts, g.set.trans h.set, ?_⟩
  intro q hq
  rcases g.writes q hq with hold | hnew
  · exact h.writes q hold
  · rw [h.realm] at hnew
    exact .inr hnew

theorem Kept.still {s t : Session} (hs : s.Kept md5) (h : s.Still md5 t) :
    t.Kept md5 := by
  refine ⟨?_, ?_, ?_⟩
  · rw [h.realm, h.digestRealm]
    exact hs.known
  · rw [h.realm]
    intro q hq
    rcases h.writes q hq with hold | hnew
    · exact hs.sound q hold
    · exact hnew
  · rw [h.realm, h.accounts, h.set]
    exact hs.bound

theorem Usable.still {s t : Session} (hs : s.Usable md5) (h : s.Still md5 t) :
    t.Usable md5 := by
  rw [Usable, h.realm, h.accounts, h.set]
  exact hs

/-- The same fields the invariant reads. -/
theorem Still.of_eq {s t : Session} (hrealm : t.realm = s.realm)
    (hdigest : t.digestRealm = s.digestRealm)
    (haccounts : t.accounts = s.accounts) (hset : t.set = s.set)
    (hwrites : t.writes = s.writes) : s.Still md5 t :=
  ⟨hrealm, hdigest, haccounts, hset, fun _ hq => .inl (hwrites ▸ hq)⟩

theorem setLastError_still (text : String) (s : Session) :
    s.Still md5 (s.setLastError text) := .of_eq rfl rfl rfl rfl rfl

theorem closed_still (s : Session) : s.Still md5 { s with dialog := none } :=
  .of_eq rfl rfl rfl rfl rfl

theorem refreshUserAccounts_still (s : Session) :
    s.Still md5 s.refreshUserAccounts := by
  unfold refreshUserAccounts
  split
  · exact .of_eq rfl rfl rfl rfl rfl
  · split
    · exact setLastError_still _ s
    · exact .of_eq rfl rfl rfl rfl rfl

theorem send_still {s : Session} {write : Write} {made : Option Credential}
    (h : (⟨s.nextId, write, made, none, false⟩ : Request).Sound md5 s.realm) :
    s.Still md5 (s.send write made) := by
  refine ⟨rfl, rfl, rfl, rfl, fun q hq => ?_⟩
  rcases List.mem_append.mp hq with hold | hnew
  · exact .inl hold
  · rw [List.mem_singleton.mp hnew]
    exact .inr h

/-- What is known of the realm where a digest is made. -/
theorem Kept.realm_eq {s : Session} (hs : s.Kept md5)
    (h : s.digestRealm ≠ "") : s.digestRealm = s.realm :=
  hs.known.resolve_left h

theorem addUserAccount_still {s : Session} (hs : s.Kept md5)
    (digestUsername password : String) (access : Int) (realms : List Int) :
    s.Still md5 (s.addUserAccount md5 digestUsername password access realms) := by
  have herror : ∀ text : String,
      s.Still md5 ((s.setLastError "").setLastError text) := fun text =>
    (setLastError_still "" s).trans (setLastError_still text _)
  simp only [addUserAccount]
  split
  · exact herror _
  split
  · exact herror _
  split
  · exact herror _
  next hrealm =>
    split
    · exact herror _
    · refine (setLastError_still "" s).trans (send_still ⟨?_, ?_⟩)
      · have heq : (s.setLastError "").digestRealm = s.realm :=
          hs.realm_eq hrealm
        rw [heq]
        rfl
      · intro c n hc hn
        cases hc
        exact Option.some.inj hn

theorem setAdminPassword_still {s : Session} (hs : s.Kept md5)
    (username newPassword : String) :
    s.Still md5 (s.setAdminPassword md5 username newPassword) := by
  have herror : ∀ text : String,
      s.Still md5 ((s.setLastError "").setLastError text) := fun text =>
    (setLastError_still "" s).trans (setLastError_still text _)
  simp only [setAdminPassword]
  split
  · exact herror _
  split
  · exact herror _
  split
  · exact herror _
  next hrealm =>
    split
    · exact herror _
    · refine (setLastError_still "" s).trans (send_still ⟨?_, ?_⟩)
      · have heq : (s.setLastError "").digestRealm = s.realm :=
          hs.realm_eq hrealm
        rw [heq]
        rfl
      · intro c n hc hn
        cases hc
        exact Option.some.inj hn

/-- A name that a patch carries is the one its digest is made for. -/
theorem digestName_patched {handle : Int} {patch : Patch} {s : Session}
    {n : String} (h : patch.digestUsername = some n) (hn : n ≠ "") :
    s.digestName handle patch = n := by
  rw [digestName, h]
  exact if_neg hn

theorem updateUserAccount_still {s : Session} (hs : s.Kept md5) {handle : Int}
    {patch : Patch} (hname : patch.digestUsername ≠ some "") :
    s.Still md5 (s.updateUserAccount md5 handle patch) := by
  have herror : ∀ text : String,
      s.Still md5 ((s.setLastError "").setLastError text) := fun text =>
    (setLastError_still "" s).trans (setLastError_still text _)
  simp only [updateUserAccount]
  split
  · exact herror _
  split
  · exact herror _
  split
  · refine (setLastError_still "" s).trans (send_still ⟨rfl, ?_⟩)
    intro c n hc
    cases hc
  split
  · exact herror _
  next hrealm =>
    split
    · exact herror _
    · refine (setLastError_still "" s).trans (send_still ⟨?_, ?_⟩)
      · have heq : (s.setLastError "").digestRealm = s.realm :=
          hs.realm_eq hrealm
        rw [heq]
        rfl
      · intro c n hc hn
        cases hc
        have hpatch : patch.digestUsername = some n := hn
        refine digestName_patched hpatch ?_
        rintro rfl
        exact hname hpatch

/-- The dialog does not let an empty name through. -/
theorem submitIfReady_still {s : Session} (hs : s.Kept md5) (d : Draft) :
    s.Still md5 (s.submitIfReady md5 d) := by
  unfold submitIfReady
  split
  · exact .refl s
  next root hroot =>
    split
    next hready =>
      have hnonempty : d.username ≠ "" := by
        simp only [Dialog.ready, Bool.and_eq_true, decide_eq_true_eq] at hready
        exact hready.1
      unfold commit
      split
      · have hadd := addUserAccount_still hs d.username d.password
          d.accessPermission d.realmsArray
        exact hadd.trans (closed_still _)
      split
      · exact closed_still s
      · refine (updateUserAccount_still hs ?_).trans (closed_still _)
        simp only [Dialog.patch]
        split
        · exact fun h => hnonempty (Option.some.inj h)
        · exact fun h => nomatch h
    · exact .refl s

theorem written_still (q : Request) (reply : Except String Unit) (s : Session) :
    s.Still md5 (s.written q reply) := by
  unfold written
  split
  · exact refreshUserAccounts_still s
  · exact setLastError_still _ s

theorem accountsRead_still (reply : Except String (List UserAccount))
    (s : Session) : s.Still md5 (s.accountsRead reply) := by
  unfold accountsRead
  split
  · exact .of_eq rfl rfl rfl rfl rfl
  · split
    · exact .refl s
    · exact setLastError_still _ s

/-- How far a write has come does not matter to what it carries. -/
theorem alter_still {s : Session} (hs : s.Kept md5) (id : Nat)
    {f : Request → Request} (hwrite : ∀ q, (f q).write = q.write)
    (hmade : ∀ q, (f q).made = q.made) : s.Still md5 (s.alter id f) := by
  refine ⟨rfl, rfl, rfl, rfl, fun p hp => .inr ?_⟩
  obtain ⟨q, hq, rfl⟩ := List.mem_map.mp hp
  have hsound := hs.sound q hq
  split
  · refine ⟨?_, ?_⟩
    · rw [hwrite, hmade]
      exact hsound.made
    · rw [hwrite, hmade]
      exact hsound.named
  · exact hsound

theorem deliver_still {s : Session} (hs : s.Kept md5) (id : Nat)
    (lost : Option String) : s.Still md5 (s.deliver id lost) := by
  have halter : s.Still md5 (s.alter id fun q => { q with answered := true }) :=
    alter_still hs id (fun _ => rfl) (fun _ => rfl)
  unfold deliver
  split
  · exact .refl s
  split
  · exact .refl s
  dsimp only
  split
  · exact halter.trans (written_still _ _ _)
  · exact halter.trans (written_still _ _ _)
  · exact halter.trans (written_still _ _ _)
  · exact .refl s

theorem listed_still (id : Nat) (lost : Option String) (s : Session) :
    s.Still md5 (s.listed id lost) := by
  unfold listed
  split
  · exact .refl s
  next r _ =>
    have hdone : s.Still md5
        { s with reads := s.reads.filter fun r => r.id ≠ id } :=
      .of_eq rfl rfl rfl rfl rfl
    dsimp only
    split
    · exact hdone.trans (accountsRead_still _ _)
    · exact hdone.trans (accountsRead_still _ _)

/-! ## Accepted writes -/

/-- The digest of the account is that of the credential it then has. -/
theorem Kept.target_bound {s : Session} (hs : s.Kept md5) {q : Request}
    (hq : q.Sound md5 s.realm) {newHandle h : Int} {e : Entry}
    (ht : q.write.target newHandle s.accounts = some (h, e)) {c : Credential}
    (hc : s.credentialAfter q h = some c) :
    e.digest = c.digest md5 s.realm := by
  have hmade := hq.made
  cases hm : q.made with
  | some c' =>
      rw [credentialAfter, hm] at hc
      cases hc
      rw [hm] at hmade
      exact target_digest ht hmade
  | none =>
      rw [credentialAfter, hm] at hc
      rw [hm] at hmade
      obtain ⟨old, hold, heq⟩ := target_keeps ht hmade
      rw [heq]
      exact hs.bound h old c hold hc

theorem apply_set (q : Request) (h : Int) (e : Entry) (s : Session) :
    (s.apply q h e).set h = s.credentialAfter q h := by
  unfold apply credentialAfter
  cases q.made <;> simp

theorem apply_set_of_ne {h h' : Int} (hne : h' ≠ h) (q : Request) (e : Entry)
    (s : Session) : (s.apply q h e).set h' = s.set h' := by
  unfold apply
  cases q.made <;> simp [hne]

theorem apply_accounts (q : Request) (h : Int) (e : Entry) (s : Session) :
    (s.apply q h e).accounts h = some e := by
  simp [apply]

theorem apply_accounts_of_ne {h h' : Int} (hne : h' ≠ h) (q : Request)
    (e : Entry) (s : Session) :
    (s.apply q h e).accounts h' = s.accounts h' := by
  simp [apply, hne]

theorem Kept.apply {s : Session} (hs : s.Kept md5) {q : Request}
    (hq : q.Sound md5 s.realm) {newHandle h : Int} {e : Entry}
    (ht : q.write.target newHandle s.accounts = some (h, e)) :
    (s.apply q h e).Kept md5 := by
  refine ⟨hs.known, hs.sound, fun h' e' c he' hc => ?_⟩
  by_cases hh : h' = h
  · subst hh
    rw [apply_accounts] at he'
    cases he'
    rw [apply_set] at hc
    exact hs.target_bound hq ht hc
  · rw [apply_accounts_of_ne hh] at he'
    rw [apply_set_of_ne hh] at hc
    exact hs.bound h' e' c he' hc

/-- An accepted write leaves the accounts usable if and only if the name its
account then has makes the same digest as the name in the credential. -/
theorem apply_usable_iff {s : Session} (hs : s.Kept md5) (hu : s.Usable md5)
    {q : Request} (hq : q.Sound md5 s.realm) {newHandle h : Int} {e : Entry}
    (ht : q.write.target newHandle s.accounts = some (h, e)) :
    (s.apply q h e).Usable md5 ↔
      ∀ c, s.credentialAfter q h = some c →
        computeDigestPassword md5 e.name s.realm c.password =
          c.digest md5 s.realm := by
  constructor
  · intro huse c hc
    have hlogin : e.digest =
        computeDigestPassword md5 e.name s.realm c.password :=
      huse h e c (apply_accounts q h e s) (by rw [apply_set, hc])
    rw [← hlogin]
    exact hs.target_bound hq ht hc
  · intro hbinds h' e' c he' hc
    by_cases hh : h' = h
    · subst hh
      rw [apply_accounts] at he'
      cases he'
      rw [apply_set] at hc
      exact (hs.target_bound hq ht hc).trans (hbinds c hc).symm
    · rw [apply_accounts_of_ne hh] at he'
      rw [apply_set_of_ne hh] at hc
      exact hu h' e' c he' hc

/-- Serving a write leaves the accounts alone, or applies it. -/
theorem serve_cases (id returnValue : Nat) (newHandle : Int) (s : Session) :
    (s.serve id returnValue newHandle = s ∨
      s.serve id returnValue newHandle =
        s.alter id fun q => { q with served := some returnValue }) ∧
      s.Binds md5 (.serve id returnValue newHandle) ∨
    ∃ q h e, s.request id = some q ∧ q.served = none ∧ returnValue = 0 ∧
      q.write.target newHandle s.accounts = some (h, e) ∧
      s.serve id returnValue newHandle =
        (s.alter id fun q => { q with served := some 0 }).apply q h e := by
  unfold serve
  split
  next hnone =>
    refine .inl ⟨.inl rfl, ?_⟩
    intro q hq
    rw [hnone] at hq
    cases hq
  next q hq =>
    split
    next hserved =>
      refine .inl ⟨.inl rfl, ?_⟩
      intro p hp hopen
      rw [hq] at hp
      cases hp
      rw [hopen] at hserved
      cases hserved
    next hopen =>
      split
      next hzero =>
        split
        next hnone =>
          refine .inl ⟨.inl rfl, ?_⟩
          intro p hp _ _ h e ht
          rw [hq] at hp
          cases hp
          rw [hnone] at ht
          cases ht
        next h e ht =>
          have hserved : q.served = none := by simpa using hopen
          exact .inr ⟨q, h, e, hq, hserved, hzero, ht, rfl⟩
      next hrefused =>
        refine .inl ⟨.inr rfl, ?_⟩
        intro p _ _ hzero
        exact absurd hzero hrefused

theorem Kept.request_sound {s : Session} (hs : s.Kept md5) {id : Nat}
    {q : Request} (hq : s.request id = some q) : q.Sound md5 s.realm :=
  hs.sound q (List.mem_of_find?_eq_some hq)

/-- One served write. -/
theorem serve_usable_iff {s : Session} (hs : s.Kept md5) (hu : s.Usable md5)
    (id returnValue : Nat) (newHandle : Int) :
    (s.serve id returnValue newHandle).Kept md5 ∧
      ((s.serve id returnValue newHandle).Usable md5 ↔
        s.Binds md5 (.serve id returnValue newHandle)) := by
  have halter : ∀ rv : Nat,
      s.Still md5 (s.alter id fun q => { q with served := some rv }) :=
    fun rv => alter_still hs id (fun _ => rfl) (fun _ => rfl)
  rcases @serve_cases md5 id returnValue newHandle s with
    ⟨heq | heq, hbinds⟩ | ⟨q, h, e, hq, hopen, hzero, ht, heq⟩
  · rw [heq]
    exact ⟨hs, iff_of_true hu hbinds⟩
  · rw [heq]
    exact ⟨hs.still (halter returnValue),
      iff_of_true (hu.still (halter returnValue)) hbinds⟩
  · rw [heq]
    have hks := hs.still (halter 0)
    have hsound := hs.request_sound hq
    refine ⟨hks.apply hsound ht, ?_⟩
    refine (apply_usable_iff hks (hu.still (halter 0)) hsound ht).trans ?_
    constructor
    · intro hall p hp _ _ h' e' ht' c hc
      rw [hq] at hp
      cases hp
      rw [ht] at ht'
      cases ht'
      exact hall c hc
    · intro hbinds c hc
      exact hbinds q hq hopen hzero h e ht c hc

/-! ## One event -/

theorem step_other {s : Session} (hs : s.Kept md5) {e : Event}
    (he : ∀ id rv newHandle, e ≠ .serve id rv newHandle)
    (hsettings : e ≠ .generalSettings) : s.Still md5 (s.step md5 e) := by
  cases e with
  | serve id rv newHandle => exact absurd rfl (he id rv newHandle)
  | generalSettings => exact absurd rfl hsettings
  | submitIfReady draft => exact submitIfReady_still hs draft
  | setAdminPassword username newPassword =>
      exact setAdminPassword_still hs username newPassword
  | deliver id lost => exact deliver_still hs id lost
  | listed id lost => exact listed_still id lost s
  | refreshUserAccounts => exact refreshUserAccounts_still s
  | openForEdit row =>
      simp only [step]
      split
      · split
        · exact .refl s
        · exact .of_eq rfl rfl rfl rfl rfl
      · exact .refl s
  | sshConnected =>
      simp only [step]
      split
      · have hcleared : s.Still md5 { s with
            sshConnecting := false, pendingUserAccounts := false } :=
          .of_eq rfl rfl rfl rfl rfl
        exact hcleared.trans (refreshUserAccounts_still _)
      · exact .of_eq rfl rfl rfl rfl rfl
  | openForAdd | rejected | setHost _ | sshConnecting | sshDown
  | readRow _ _ _ => exact .of_eq rfl rfl rfl rfl rfl

/-- One event keeps the invariant, and the accounts usable exactly where the
condition holds. -/
theorem step_usable_iff {s : Session} (hs : s.Kept md5) (hu : s.Usable md5)
    (e : Event) :
    (s.step md5 e).Kept md5 ∧ ((s.step md5 e).Usable md5 ↔ s.Binds md5 e) := by
  by_cases hserve : ∃ id rv newHandle, e = .serve id rv newHandle
  · obtain ⟨id, rv, newHandle, rfl⟩ := hserve
    exact serve_usable_iff hs hu id rv newHandle
  have hbinds : s.Binds md5 e := by
    cases e with
    | serve id rv newHandle => exact absurd ⟨id, rv, newHandle, rfl⟩ hserve
    | _ => trivial
  by_cases hsettings : e = .generalSettings
  · subst hsettings
    exact ⟨⟨.inr rfl, hs.sound, hs.bound⟩, iff_of_true hu hbinds⟩
  · have hstill := step_other hs
      (fun id rv newHandle h => hserve ⟨id, rv, newHandle, h⟩) hsettings
    exact ⟨hs.still hstill, iff_of_true (hu.still hstill) hbinds⟩

end Session

/-! ## Runs -/

/-- A controller that was just opened on a device with these accounts. -/
def opened (realm : String) (accounts : Int → Option Entry) : Session :=
  { realm, accounts }

theorem opened_kept (realm : String) (accounts : Int → Option Entry) :
    (opened realm accounts).Kept md5 := by
  refine ⟨.inl rfl, fun q hq => ?_, fun h e c _ hc => ?_⟩
  · exact absurd hq List.not_mem_nil
  · cases hc

theorem opened_usable (realm : String) (accounts : Int → Option Entry) :
    (opened realm accounts).Usable md5 := by
  intro h e c _ hc
  cases hc

/-- The accounts are usable after every event of a run if and only if every
accepted write binds name and digest where it lands. -/
theorem accounts_usable_iff (realm : String) (accounts : Int → Option Entry)
    (es : List Event) :
    (∀ early, early <+: es →
        (run (Session.step md5) (opened realm accounts) early).Usable md5) ↔
      ∀ x ∈ trail (Session.step md5) (opened realm accounts) es,
        x.1.Binds md5 x.2 := by
  have hopened : (opened realm accounts).Kept md5 ∧
      (opened realm accounts).Usable md5 :=
    ⟨opened_kept md5 realm accounts, opened_usable md5 realm accounts⟩
  refine always_iff (fun s hs => And.right hs) ?_ ?_ es hopened
  · intro s e ⟨hkept, husable⟩ hbinds
    have hstep := Session.step_usable_iff hkept husable e
    exact ⟨hstep.1, hstep.2.mpr hbinds⟩
  · intro s e ⟨hkept, husable⟩ hbinds huse
    exact hbinds ((Session.step_usable_iff hkept husable e).2.mp huse)

/-! ## An account that is locked out -/

/-- MD5, of the two inputs that are digested below. -/
def md5Here (b : Bytes) : Bytes :=
  if b = toUtf8 "alice:Digest:4C2F:Passw0rd!" then
    [0x0D, 0x51, 0x46, 0x2A, 0x67, 0xEB, 0xD7, 0x85,
      0x8E, 0x0A, 0x32, 0x63, 0x7D, 0xAE, 0x42, 0x2C]
  else if b = toUtf8 "bob:Digest:4C2F:Passw0rd!" then
    [0x9E, 0x79, 0x8F, 0x2D, 0xFC, 0xBC, 0x47, 0xD5,
      0xB1, 0x98, 0xFF, 0xDA, 0x70, 0x8E, 0x44, 0x24]
  else []

/-- The account of alice is added, and given the name bob. -/
def renamed : List Event :=
  [.generalSettings, .openForAdd,
    .submitIfReady ⟨"alice", "Passw0rd!", "Passw0rd!", 2, [3]⟩,
    .serve 0 0 1, .deliver 0 none,
    .readRow 1 1 false, .listed 1 none, .openForEdit 0,
    .submitIfReady ⟨"bob", "", "", 2, [3]⟩, .serve 2 0 0]

/-- Nobody can log in as bob with the password that was set for the account. -/
theorem account_locked_out :
    ¬ ∀ (md5 : Bytes → Bytes) (realm : String) (accounts : Int → Option Entry)
      (es : List Event),
      (run (Session.step md5) (opened realm accounts) es).Usable md5 := by
  intro h
  have hlogin := h md5Here "Digest:4C2F" (fun _ => none) renamed 1
    ⟨"bob", fromLatin1 (toBase64 (md5Here
      (toUtf8 "alice:Digest:4C2F:Passw0rd!"))), 2, [3]⟩
    ⟨"alice", "Passw0rd!"⟩ (by decide) (by decide)
  have hdigest : fromLatin1 (toBase64 (md5Here
        (toUtf8 "alice:Digest:4C2F:Passw0rd!"))) =
      computeDigestPassword md5Here "bob" "Digest:4C2F" "Passw0rd!" := hlogin
  revert hdigest
  decide

end QuMesh.Accounts
