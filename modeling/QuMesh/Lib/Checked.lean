import Mathlib.Tactic.Common

/-!
# Code that can go wrong

Where a language leaves an operation undefined, its model stops with a fault:
signed arithmetic that leaves its width, an index outside of its array. Code is
safe if it comes to an end without one, and `Safe` says so together with
what the code returns, because that is what the operations behind it rely on.
The rules are one for each way code is put together: a sequence, a loop over a
range of `int`s, and a run over a list of inputs. The last one is an
equivalence: where a condition says exactly which inputs a step can take, a
run goes through just if all its inputs meet the condition where they land.
-/

namespace QuMesh.Lib

inductive Fault where
  | overflow
  | outside
  deriving DecidableEq, Repr

def intMax : Int := 2147483647

def intMin : Int := -2147483648

/-- What an `int` expression of this value evaluates to. -/
def int32 (n : Int) : Except Fault Int :=
  if intMin ≤ n ∧ n ≤ intMax then .ok n else .error .overflow

section

variable {α : Type}

def readAt (xs : Array α) (i : Int) : Except Fault α :=
  if h : 0 ≤ i ∧ i.toNat < xs.size then
    have := h.2
    .ok xs[i.toNat]
  else .error .outside

def writeAt (xs : Array α) (i : Int) (x : α) : Except Fault (Array α) :=
  if 0 ≤ i ∧ i.toNat < xs.size then .ok (xs.setIfInBounds i.toNat x)
  else .error .outside

end

section

variable {ε σ : Type}

/-- So many rounds of a loop that counts up from `i`. -/
def forInt (body : Int → σ → Except ε σ) : Nat → Int → σ → Except ε σ
  | 0, _, s => .ok s
  | n + 1, i, s => body i s >>= forInt body n (i + 1)

/-- `for (int i = lo; i < hi; ++i)`. -/
def forRange (lo hi : Int) (body : Int → σ → Except ε σ) (s : σ) :
    Except ε σ :=
  forInt body (hi - lo).toNat lo s

end

/-! ## Rules -/

section

variable {ε α β σ : Type}

def Safe (m : Except ε α) (P : α → Prop) : Prop := ∃ a, m = .ok a ∧ P a

theorem Safe.ok {a : α} {P : α → Prop} (h : P a) :
    Safe (.ok a : Except ε α) P :=
  ⟨a, rfl, h⟩

@[simp] theorem ok_bind (a : α) (f : α → Except ε β) :
    ((.ok a : Except ε α) >>= f) = f a := rfl

theorem Safe.bind {m : Except ε α} {f : α → Except ε β} {P : α → Prop}
    {Q : β → Prop} (h : Safe m P) (hf : ∀ a, P a → Safe (f a) Q) :
    Safe (m >>= f) Q := by
  obtain ⟨a, rfl, ha⟩ := h
  exact hf a ha

theorem Safe.mono {m : Except ε α} {P Q : α → Prop} (h : Safe m P)
    (hPQ : ∀ a, P a → Q a) : Safe m Q := by
  obtain ⟨a, hm, ha⟩ := h
  exact ⟨a, hm, hPQ a ha⟩

theorem Safe.of_eq {m : Except ε α} {P : α → Prop} {a : α} (h : Safe m P)
    (hm : m = .ok a) : P a := by
  obtain ⟨b, hb, hP⟩ := h
  rw [hm] at hb
  cases hb
  exact hP

/-- Safe in just one case; in any other it stops with a fault. -/
structure SafeIff (m : Except ε α) (P : α → Prop) (p : Prop) : Prop where
  safe : p → Safe m P
  fault : ¬p → ∃ e, m = .error e

theorem SafeIff.of_safe {m : Except ε α} {P : α → Prop} {p : Prop}
    (h : Safe m P) (hp : p) : SafeIff m P p :=
  ⟨fun _ => h, fun hn => absurd hp hn⟩

theorem SafeIff.of_fault {m : Except ε α} {P : α → Prop} {p : Prop} {e : ε}
    (h : m = .error e) (hp : ¬p) : SafeIff m P p :=
  ⟨fun hp' => absurd hp' hp, fun _ => ⟨e, h⟩⟩

theorem SafeIff.congr {m : Except ε α} {P : α → Prop} {p q : Prop}
    (h : SafeIff m P p) (hpq : p ↔ q) : SafeIff m P q :=
  ⟨fun hq => h.safe (hpq.mpr hq), fun hq => h.fault fun hp => hq (hpq.mp hp)⟩

theorem SafeIff.of_eq {m : Except ε α} {P : α → Prop} {p : Prop} {a : α}
    (h : SafeIff m P p) (hm : m = .ok a) : p ∧ P a := by
  by_cases hp : p
  · exact ⟨hp, (h.safe hp).of_eq hm⟩
  · obtain ⟨e, he⟩ := h.fault hp
    rw [hm] at he
    cases he

theorem SafeIff.iff {m : Except ε α} {P : α → Prop} {p : Prop}
    (h : SafeIff m P p) : Safe m P ↔ p :=
  ⟨fun hm => (h.of_eq hm.choose_spec.1).1, h.safe⟩

/-- What comes behind a fault does not run. -/
theorem bind_error {m : Except ε α} {f : α → Except ε β} {e : ε}
    (hm : m = .error e) : (m >>= f) = .error e := by
  rw [hm]
  rfl

theorem bind_ok {m : Except ε α} {f : α → Except ε β} {b : β}
    (h : (m >>= f) = .ok b) : ∃ a, m = .ok a ∧ f a = .ok b := by
  cases m with
  | error e => cases h
  | ok a => exact ⟨a, rfl, h⟩

theorem SafeIff.map {m : Except ε α} {f : α → β} {P : β → Prop} {p : Prop}
    (h : SafeIff m (fun a => P (f a)) p) :
    SafeIff (m >>= fun a => pure (f a)) P p := by
  refine ⟨fun hp => .bind (h.safe hp) fun a ha => .ok ha, fun hp => ?_⟩
  obtain ⟨e, he⟩ := h.fault hp
  exact ⟨e, bind_error he⟩

theorem SafeIff.mono {m : Except ε α} {P Q : α → Prop} {p : Prop}
    (h : SafeIff m P p) (hPQ : ∀ a, P a → Q a) : SafeIff m Q p :=
  ⟨fun hp => (h.safe hp).mono hPQ, h.fault⟩

/-- Safe in just one case, and in any other it stops with a known fault. -/
structure SafeElse (e : ε) (m : Except ε α) (P : α → Prop) (p : Prop) :
    Prop where
  safe : p → Safe m P
  fault : ¬p → m = .error e

namespace SafeElse

variable {e : ε} {m : Except ε α} {P Q : α → Prop} {p q : Prop}

theorem of_safe (h : Safe m P) (hp : p) : SafeElse e m P p :=
  ⟨fun _ => h, fun hn => absurd hp hn⟩

theorem of_fault (h : m = .error e) (hp : ¬p) : SafeElse e m P p :=
  ⟨fun hp' => absurd hp' hp, fun _ => h⟩

theorem congr (h : SafeElse e m P p) (hpq : p ↔ q) : SafeElse e m P q :=
  ⟨fun hq => h.safe (hpq.mpr hq), fun hq => h.fault fun hp => hq (hpq.mp hp)⟩

theorem mono (h : SafeElse e m P p) (hPQ : ∀ a, P a → Q a) :
    SafeElse e m Q p :=
  ⟨fun hp => (h.safe hp).mono hPQ, h.fault⟩

theorem iff (h : SafeElse e m P p) : Safe m P ↔ p := by
  refine ⟨fun hm => ?_, h.safe⟩
  by_contra hp
  obtain ⟨a, ha, -⟩ := hm
  rw [h.fault hp] at ha
  cases ha

theorem of_ok {a : α} (h : SafeElse e m P p) (hm : m = .ok a) : P a := by
  by_cases hp : p
  · exact (h.safe hp).of_eq hm
  · rw [h.fault hp] at hm
    cases hm

theorem ne_error (h : SafeElse e m P p) {e' : ε} (he : e ≠ e') :
    m ≠ .error e' := by
  intro hm
  by_cases hp : p
  · obtain ⟨a, ha, -⟩ := h.safe hp
    rw [hm] at ha
    cases ha
  · rw [h.fault hp] at hm
    cases hm
    exact he rfl

/-- A fault of the first part, or of the second. -/
theorem bind {f : α → Except ε β} {R : β → Prop} (h : SafeElse e m P p)
    (hf : ∀ a, P a → SafeElse e (f a) R q) :
    SafeElse e (m >>= f) R (p ∧ q) := by
  by_cases hp : p
  · obtain ⟨a, rfl, ha⟩ := h.safe hp
    exact (hf a ha).congr (and_iff_right hp).symm
  · refine of_fault ?_ fun hpq => hp hpq.1
    rw [h.fault hp]
    rfl

theorem bind_safe {f : α → Except ε β} {R : β → Prop} (h : Safe m P)
    (hf : ∀ a, P a → SafeElse e (f a) R q) : SafeElse e (m >>= f) R q := by
  obtain ⟨a, rfl, ha⟩ := h
  exact hf a ha

end SafeElse

theorem int32_eq {n : Int} (hlo : intMin ≤ n) (hhi : n ≤ intMax) :
    int32 n = .ok n :=
  if_pos ⟨hlo, hhi⟩

theorem int32_overflow {n : Int} (h : intMax < n) :
    int32 n = .error .overflow := by
  unfold int32
  rw [if_neg]
  omega

theorem int32_safeElse {n : Int} (hlo : intMin ≤ n) :
    SafeElse .overflow (int32 n) (· = n) (n ≤ intMax) := by
  by_cases hhi : n ≤ intMax
  · exact .of_safe ⟨n, int32_eq hlo hhi, rfl⟩ hhi
  · exact .of_fault (int32_overflow (by omega)) hhi

theorem readAt_safe {xs : Array α} {i : Int} (hlo : 0 ≤ i)
    (hhi : i < xs.size) : Safe (readAt xs i) fun _ => True := by
  have hi : i.toNat < xs.size := by omega
  exact ⟨xs[i.toNat], dif_pos ⟨hlo, hi⟩, trivial⟩

theorem writeAt_safe {xs : Array α} {i : Int} (x : α) (hlo : 0 ≤ i)
    (hhi : i < xs.size) :
    Safe (writeAt xs i x) fun ys => ys.size = xs.size := by
  refine ⟨xs.setIfInBounds i.toNat x, if_pos ?_, Array.size_setIfInBounds⟩
  omega

/-- A loop whose body is safe and keeps an invariant is safe and keeps it. -/
theorem forInt_safe {body : Int → σ → Except ε σ} {Inv : σ → Prop} {n : Nat}
    {lo : Int} (hbody : ∀ i s, lo ≤ i → i < lo + n → Inv s →
      Safe (body i s) Inv) {s : σ} (hs : Inv s) :
    Safe (forInt body n lo s) Inv := by
  induction n generalizing lo s with
  | zero => exact .ok hs
  | succ n ih =>
      rw [forInt]
      refine .bind (hbody lo s (by omega) (by omega) hs) fun t ht => ih ?_ ht
      intro i u hlo hhi hu
      exact hbody i u (by omega) (by omega) hu

/-- The same with an invariant that goes along with the counter. -/
theorem forInt_counted {body : Int → σ → Except ε σ} {Inv : Int → σ → Prop}
    {n : Nat} {lo : Int} (hbody : ∀ i s, lo ≤ i → i < lo + n → Inv i s →
      Safe (body i s) (Inv (i + 1))) {s : σ} (hs : Inv lo s) :
    Safe (forInt body n lo s) (Inv (lo + n)) := by
  induction n generalizing lo s with
  | zero => exact .ok (by simpa using hs)
  | succ n ih =>
      rw [forInt]
      refine .bind (hbody lo s (by omega) (by omega) hs) fun t ht => ?_
      have hsum : lo + (n + 1 : Nat) = lo + 1 + n := by omega
      rw [hsum]
      refine ih (fun i u hlo hhi hu => ?_) ht
      exact hbody i u (by omega) (by omega) hu

theorem forRange_safe {body : Int → σ → Except ε σ} {Inv : σ → Prop}
    {lo hi : Int} (hbody : ∀ i s, lo ≤ i → i < hi → Inv s →
      Safe (body i s) Inv) {s : σ} (hs : Inv s) :
    Safe (forRange lo hi body s) Inv := by
  refine forInt_safe (fun i t hlo hhi ht => ?_) hs
  exact hbody i t hlo (by omega) ht

end

/-! ## Runs -/

section

variable {ε σ ι : Type} {ok : σ → ι → Prop} {step : σ → ι → Except ε σ}

/-- Every input of a run meets a condition where it lands. -/
def MeetsAll (ok : σ → ι → Prop) (step : σ → ι → Except ε σ) :
    σ → List ι → Prop
  | _, [] => True
  | s, i :: is =>
      ok s i ∧
        match step s i with
        | .ok t => MeetsAll ok step t is
        | .error _ => True

instance MeetsAll.decidable [∀ s i, Decidable (ok s i)] :
    ∀ s is, Decidable (MeetsAll ok step s is)
  | _, [] => .isTrue trivial
  | s, i :: is =>
      have : Decidable (match step s i with
          | .ok t => MeetsAll ok step t is
          | .error _ => True) :=
        match step s i with
        | .ok t => MeetsAll.decidable t is
        | .error _ => .isTrue trivial
      inferInstanceAs (Decidable (_ ∧ _))

theorem meetsAll_cons {s : σ} {i : ι} {is : List ι} {t : σ}
    (h : step s i = .ok t) :
    MeetsAll ok step s (i :: is) ↔ ok s i ∧ MeetsAll ok step t is := by
  rw [MeetsAll, h]

/-- A run goes through just if all its inputs meet the condition that is
exact for one step. -/
theorem foldlM_safeIff {Inv : σ → Prop} {dom : ι → Prop}
    (hstep : ∀ s i, Inv s → dom i → SafeIff (step s i) Inv (ok s i))
    {is : List ι} (hdom : ∀ i ∈ is, dom i) {s : σ} (hs : Inv s) :
    SafeIff (is.foldlM step s) Inv (MeetsAll ok step s is) := by
  induction is generalizing s with
  | nil => exact .of_safe (.ok hs) trivial
  | cons i is ih =>
      have hi := hstep s i hs (hdom i List.mem_cons_self)
      have htail := fun j hj => hdom j (List.mem_cons_of_mem i hj)
      rw [List.foldlM_cons]
      cases h : step s i with
      | error e =>
          refine .of_fault rfl fun hall => ?_
          obtain ⟨t, ht, -⟩ := hi.safe hall.1
          rw [h] at ht
          cases ht
      | ok t =>
          obtain ⟨hok, ht⟩ := hi.of_eq h
          rw [ok_bind, meetsAll_cons h]
          exact (ih htail ht).congr (and_iff_right hok).symm

end

end QuMesh.Lib
