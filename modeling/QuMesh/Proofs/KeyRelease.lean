import QuMesh.App.KvmViewer
import QuMesh.Lib.Run
import QuMesh.Proofs.KvmSteps

/-!
# Keys that stay down

A viewer does not remember which keysym it sent when a key went down: it works
the keysym out again from the key and the text of the release. The two agree
for every key of the `switch`, for the function keys and for keys without
text, but the text of a letter changes with the modifiers held, and these may
be let go first.

`Desk` puts beside the viewer what is pressed on the operator's side: for each
press whose key has not been let go since, the key and the keysym that press
was worked out to. As long as each release is worked out to the keysym of the
presses it ends, every keysym that is down on the target belongs to one of
these, `handle_covered`. Where every pressed key is let go, the list is empty
in the end, `run_down`, and nothing is down.
-/

namespace QuMesh.Viewer

open QuMesh.Kvm QuMesh.Lib

variable {z : Zlib}

structure KeyEvent where
  down : Bool
  key : Int
  text : List UInt16 := []
  deriving DecidableEq, Repr

def KeyEvent.sym (e : KeyEvent) : UInt32 := qtKeyToKeysym e.key e.text

/-- The viewer, and the presses whose keys are still held. -/
structure Desk (z : Zlib) where
  viewer : KvmViewer z
  down : List (Int × UInt32) := []

def Desk.handle (link : Link) (d : Desk z) (e : KeyEvent) : Desk z :=
  if e.down then
    { viewer := d.viewer.keyPressEvent link e.key e.text
      down := (e.key, e.sym) :: d.down }
  else
    { viewer := d.viewer.keyReleaseEvent link e.key e.text
      down := d.down.filter fun x => x.1 ≠ e.key }

/-- Every pressed key is later released, whatever the text. -/
def Released : List KeyEvent → Prop
  | [] => True
  | e :: es =>
      (e.down = true → ∃ e' ∈ es, e'.down = false ∧ e'.key = e.key) ∧
        Released es

instance Released.decidable : ∀ es, Decidable (Released es)
  | [] => .isTrue trivial
  | _ :: es =>
      have := Released.decidable es
      inferInstanceAs (Decidable (_ ∧ _))

/-- A release is worked out to the keysym of the presses it ends. -/
def Steady (d : Desk z) (e : KeyEvent) : Prop :=
  e.down = false → ∀ x ∈ d.down, x.1 = e.key → x.2 = 0 ∨ x.2 = e.sym

instance (d : Desk z) (e : KeyEvent) : Decidable (Steady d e) :=
  inferInstanceAs (Decidable (_ → _))

/-! ## What the target was told -/

def keyMessage : Effect → Option (UInt32 × Bool)
  | .wrote (.keyEvent sym down) => some (sym, down)
  | _ => none

/-- The key messages of a session, in order. -/
def sentKeys : Option (Session z) → List (UInt32 × Bool)
  | none => []
  | some s => s.out.filterMap keyMessage

/-- The connection broke while the messages were written. -/
def Lost (o : Option (Session z)) : Prop :=
  o.map (·.state) = some .failed

/-- The session is where it passes messages on. -/
def Carries (o : Option (Session z)) : Prop :=
  o.map (·.state) = some .frameLoop

instance (o : Option (Session z)) : Decidable (Lost o) :=
  inferInstanceAs (Decidable (_ = _))

instance (o : Option (Session z)) : Decidable (Carries o) :=
  inferInstanceAs (Decidable (_ = _))

/-- A keysym that was sent down and not up since. -/
def Stuck (ms : List (UInt32 × Bool)) (sym : UInt32) : Prop :=
  ∃ before after, ms = before ++ (sym, true) :: after ∧ (sym, false) ∉ after

theorem not_stuck_nil (sym : UInt32) : ¬Stuck [] sym := by
  rintro ⟨before, after, h, -⟩
  simp at h

/-- A split of a list with one more entry is at that entry or before it. -/
theorem split_concat {α : Type} {xs before after : List α} {x a : α}
    (h : xs ++ [x] = before ++ a :: after) :
    (x = a ∧ after = []) ∨
      ∃ after', after = after' ++ [x] ∧ xs = before ++ a :: after' := by
  rcases List.eq_nil_or_concat after with rfl | ⟨after', y, rfl⟩
  · obtain ⟨-, hlast⟩ := List.append_inj' h rfl
    exact Or.inl ⟨List.singleton_inj.mp hlast, rfl⟩
  · have hsplit : xs ++ [x] = (before ++ a :: after') ++ [y] := by
      simpa using h
    obtain ⟨hxs, hlast⟩ := List.append_inj' hsplit rfl
    have hy : x = y := List.singleton_inj.mp hlast
    exact Or.inr ⟨after', by simp [hy], hxs⟩

/-- What one more message does to the keys that are down. -/
theorem stuck_concat {ms : List (UInt32 × Bool)} {m : UInt32 × Bool}
    {sym : UInt32} (h : Stuck (ms ++ [m]) sym) :
    m = (sym, true) ∨ (Stuck ms sym ∧ m ≠ (sym, false)) := by
  obtain ⟨before, after, hsplit, hup⟩ := h
  rcases split_concat hsplit with ⟨hm, -⟩ | ⟨after', rfl, hms⟩
  · exact Or.inl hm
  · rw [List.mem_append, not_or, List.mem_singleton] at hup
    exact Or.inr ⟨⟨before, after', hms, hup.1⟩, Ne.symm hup.2⟩

/-! ## One key event -/

theorem session_sendKey (link : Link) (sym : UInt32) (down : Bool)
    (v : KvmViewer z) :
    ({ v with controller := v.controller.map (·.sendKey link sym down) } :
      KvmViewer z).session = v.session.map (·.sendKey link sym down) := by
  simp only [KvmViewer.session]
  cases v.controller <;> rfl

/-- A frame was handed out and taken, or the connection is lost. -/
theorem writeFrame_cases (link : Link) (frame : Frame) (s : Session z) :
    (s.writeFrame link frame).state = .failed ∨
      s.writeFrame link frame = s.handOut frame := by
  rw [Session.writeFrame]
  split
  · exact Or.inr rfl
  · exact Or.inl (Session.state_fail _ _)

/-- A session passes a frame on where it is in its frame loop. -/
theorem pass_cases {link : Link} {frame : Frame} {f : Session z → Session z}
    (hf : ∀ s, f s =
      if s.state ≠ .frameLoop then s else s.writeFrame link frame)
    (o : Option (Session z)) :
    Lost (o.map f) ∨
      (Carries (o.map f) ∧ ∃ s, o = some s ∧ o.map f = some (s.handOut frame)) ∨
      (¬Carries o ∧ o.map f = o) := by
  cases o with
  | none => exact Or.inr (Or.inr ⟨by simp [Carries], rfl⟩)
  | some s =>
      by_cases hs : s.state = .frameLoop
      · have hsend : f s = s.writeFrame link frame := by simp [hf, hs]
        rcases writeFrame_cases link frame s with hw | hw
        · exact Or.inl (by simp [Lost, hsend, hw])
        · refine Or.inr (Or.inl ⟨?_, s, rfl, by simp [hsend, hw]⟩)
          simp [Carries, hsend, hw, Session.state_handOut, hs]
      · refine Or.inr (Or.inr ⟨by simp [Carries, hs], ?_⟩)
        simp [hf, hs]

/-- A key message is passed on, loses the connection, or finds a session that
is not passing messages on. -/
theorem sendKey_cases (link : Link) (sym : UInt32) (down : Bool)
    (o : Option (Session z)) :
    Lost (o.map (·.sendKey link sym down)) ∨
      (Carries (o.map (·.sendKey link sym down)) ∧
        sentKeys (o.map (·.sendKey link sym down)) =
          sentKeys o ++ [(sym, down)]) ∨
      (¬Carries o ∧ o.map (·.sendKey link sym down) = o) := by
  rcases pass_cases (f := fun s => s.sendKey link sym down) (fun _ => rfl) o
    with hlost | ⟨hc, s, rfl, hs⟩ | hidle
  · exact Or.inl hlost
  · refine Or.inr (Or.inl ⟨hc, ?_⟩)
    rw [hs]
    simp [sentKeys, Session.handOut, Session.emit, keyMessage]
  · exact Or.inr (Or.inr hidle)

/-- A lost connection stays lost. -/
theorem sendKey_lost {o : Option (Session z)} (h : Lost o) (link : Link)
    (sym : UInt32) (down : Bool) :
    Lost (o.map (·.sendKey link sym down)) := by
  cases o with
  | none => exact h
  | some s =>
      have hs : s.state = .failed := by simpa [Lost] using h
      simp [Lost, Session.sendKey, hs]

/-- The session after one event of the keyboard. -/
theorem Desk.handle_session (link : Link) (d : Desk z) (e : KeyEvent) :
    (d.handle link e).viewer.session =
      if e.sym = 0 then d.viewer.session
      else d.viewer.session.map (·.sendKey link e.sym e.down) := by
  by_cases hsym : qtKeyToKeysym e.key e.text = 0
  · cases hdown : e.down <;>
      simp [Desk.handle, hdown, KvmViewer.keyPressEvent,
        KvmViewer.keyReleaseEvent, KeyEvent.sym, hsym]
  · cases hdown : e.down <;>
      simp [Desk.handle, hdown, KvmViewer.keyPressEvent,
        KvmViewer.keyReleaseEvent, KeyEvent.sym, hsym, session_sendKey]

@[simp] theorem Desk.handle_down (link : Link) (d : Desk z) (e : KeyEvent) :
    (d.handle link e).down =
      if e.down then (e.key, e.sym) :: d.down
      else d.down.filter fun x => x.1 ≠ e.key := by
  rw [Desk.handle]
  split <;> rfl

/-! ## What is down belongs to a key that is held -/

/-- Every keysym that is down was sent for a press whose key is held. -/
def Covered (sent : List (UInt32 × Bool)) (down : List (Int × UInt32)) :
    Prop :=
  ∀ sym, Stuck sent sym → sym ≠ 0 ∧ ∃ x ∈ down, x.2 = sym

/-- A press whose keysym was sent. -/
theorem Covered.press {sent : List (UInt32 × Bool)}
    {down : List (Int × UInt32)} (h : Covered sent down) (key : Int)
    {sym : UInt32} (hsym : sym ≠ 0) :
    Covered (sent ++ [(sym, true)]) ((key, sym) :: down) := by
  intro sym' hstuck
  rcases stuck_concat hstuck with hm | ⟨hstuck, -⟩
  · obtain ⟨rfl, -⟩ := Prod.mk.injEq _ _ _ _ |>.mp hm
    exact ⟨hsym, _, List.mem_cons_self, rfl⟩
  · obtain ⟨hne, x, hx, hxs⟩ := h sym' hstuck
    exact ⟨hne, x, List.mem_cons_of_mem _ hx, hxs⟩

/-- A press for which nothing was sent. -/
theorem Covered.cons {sent : List (UInt32 × Bool)}
    {down : List (Int × UInt32)} (h : Covered sent down) (x : Int × UInt32) :
    Covered sent (x :: down) := by
  intro sym hstuck
  obtain ⟨hne, y, hy, hys⟩ := h sym hstuck
  exact ⟨hne, y, List.mem_cons_of_mem _ hy, hys⟩

/-- The presses that a release ends may go where none of them is down. -/
theorem Covered.let_go {sent : List (UInt32 × Bool)}
    {down : List (Int × UInt32)} {key : Int} (h : Covered sent down)
    (hkey : ∀ x ∈ down, x.1 = key → ¬Stuck sent x.2) :
    Covered sent (down.filter fun x => x.1 ≠ key) := by
  intro sym hstuck
  obtain ⟨hne, x, hx, rfl⟩ := h sym hstuck
  have hother : x.1 ≠ key := fun he => hkey x hx he hstuck
  exact ⟨hne, x, List.mem_filter.mpr ⟨hx, by simpa using hother⟩, rfl⟩

/-- A release whose keysym was sent. -/
theorem Covered.release {sent : List (UInt32 × Bool)}
    {down : List (Int × UInt32)} (h : Covered sent down) {key : Int}
    {sym : UInt32} (hkey : ∀ x ∈ down, x.1 = key → x.2 = 0 ∨ x.2 = sym) :
    Covered (sent ++ [(sym, false)]) (down.filter fun x => x.1 ≠ key) := by
  have hup : Covered (sent ++ [(sym, false)]) down := by
    intro sym' hstuck
    rcases stuck_concat hstuck with hm | ⟨hstuck, -⟩
    · cases hm
    · exact h sym' hstuck
  refine hup.let_go fun x hx hk hstuck => ?_
  rcases hkey x hx hk with h0 | hs
  · exact (hup x.2 hstuck).1 h0
  · rcases stuck_concat hstuck with hm | ⟨-, hne⟩
    · cases hm
    · exact hne (by rw [hs])

/-- An event that is worked out to no keysym sends nothing. -/
theorem Covered.silent {sent : List (UInt32 × Bool)} {d : Desk z}
    {e : KeyEvent} (h : Covered sent d.down) (hsym : e.sym = 0)
    (hsteady : Steady d e) (link : Link) :
    Covered sent (d.handle link e).down := by
  rw [Desk.handle_down]
  cases hdown : e.down with
  | true => exact h.cons _
  | false =>
      refine h.let_go fun x hx hk hstuck => (h x.2 hstuck).1 ?_
      rcases hsteady hdown x hx hk with h0 | hs
      · exact h0
      · rw [hs, hsym]

/-- An event whose message was passed on. -/
theorem Covered.passed {sent : List (UInt32 × Bool)} {d : Desk z}
    {e : KeyEvent} (h : Covered sent d.down) (hsym : e.sym ≠ 0)
    (hsteady : Steady d e) (link : Link) :
    Covered (sent ++ [(e.sym, e.down)]) (d.handle link e).down := by
  rw [Desk.handle_down]
  cases hdown : e.down with
  | true => exact h.press e.key hsym
  | false => exact h.release (hsteady hdown)

/-- What holds of the desk after every event: the connection is lost, or what
was sent since the beginning is covered, or nothing is passed on at all. -/
def Sound (v : KvmViewer z) (d : Desk z) : Prop :=
  Lost d.viewer.session ∨
    (∃ sent, sentKeys d.viewer.session = sentKeys v.session ++ sent ∧
      Covered sent d.down ∧ (sent = [] ∨ Carries d.viewer.session))

/-- The step: each event keeps what is down covered. -/
theorem handle_covered (link : Link) (v : KvmViewer z) (d : Desk z)
    (e : KeyEvent) (h : Sound v d) (hsteady : Steady d e) :
    Sound v (d.handle link e) := by
  rcases h with hlost | ⟨sent, hsent, hcov, hcarry⟩
  · refine Or.inl ?_
    rw [Desk.handle_session]
    split
    · exact hlost
    · exact sendKey_lost hlost _ _ _
  by_cases hsym : e.sym = 0
  · -- nothing is sent; a key that had a keysym keeps it
    refine Or.inr ⟨sent, ?_, ?_, ?_⟩
    · rw [Desk.handle_session, if_pos hsym]
      exact hsent
    · exact hcov.silent hsym hsteady link
    · rw [Desk.handle_session, if_pos hsym]
      exact hcarry
  · have hsession := Desk.handle_session link d e
    rw [if_neg hsym] at hsession
    rw [Sound, hsession]
    rcases sendKey_cases link e.sym e.down d.viewer.session with
      hl | ⟨hc, hs⟩ | ⟨hn, hs⟩
    · exact Or.inl hl
    · refine Or.inr ⟨sent ++ [(e.sym, e.down)], ?_, ?_, Or.inr hc⟩
      · rw [hs, hsent, List.append_assoc]
      · exact hcov.passed hsym hsteady link
    · have hnil : sent = [] := hcarry.resolve_right hn
      refine Or.inr ⟨[], ?_, ?_, Or.inl rfl⟩
      · rw [hs, hsent, hnil]
      · exact fun sym hstuck => absurd hstuck (not_stuck_nil sym)

/-- Where each release finds the keysym of its presses and every pressed key
is released, no key is down in the end. -/
theorem run_down (link : Link) {d : Desk z} {es : List KeyEvent}
    (hreleased : Released es)
    (hdown : ∀ x ∈ d.down, ∃ e ∈ es, e.down = false ∧ e.key = x.1) :
    (run (Desk.handle link) d es).down = [] := by
  induction es generalizing d with
  | nil =>
      rw [run_nil, List.eq_nil_iff_forall_not_mem]
      intro x hx
      obtain ⟨e, he, -⟩ := hdown x hx
      cases he
  | cons e es ih =>
      rw [run_cons]
      refine ih hreleased.2 fun x hx => ?_
      rw [Desk.handle_down] at hx
      split at hx
      · next hpress =>
          rcases List.mem_cons.mp hx with rfl | hx
          · exact hreleased.1 hpress
          · obtain ⟨e', he', hup, hkey⟩ := hdown x hx
            rcases List.mem_cons.mp he' with rfl | he'
            · rw [hpress] at hup
              cases hup
            · exact ⟨e', he', hup, hkey⟩
      · obtain ⟨hx, hother⟩ := List.mem_filter.mp hx
        obtain ⟨e', he', hup, hkey⟩ := hdown x hx
        rcases List.mem_cons.mp he' with rfl | he'
        · exact absurd hkey.symm (by simpa using hother)
        · exact ⟨e', he', hup, hkey⟩

/-- Unless the connection broke, what was sent down between the two has been
sent up since. -/
def NothingStuck (v v' : KvmViewer z) : Prop :=
  Lost v'.session ∨
    ∃ sent, sentKeys v'.session = sentKeys v.session ++ sent ∧
      ∀ sym, ¬Stuck sent sym

/-- In every run of key events in which each release is worked out to the
keysym of the presses it ends, and every pressed key is released, no keysym
stays down. -/
theorem no_key_stuck (link : Link) (v : KvmViewer z) (es : List KeyEvent)
    (hreleased : Released es)
    (hsteady : ∀ x ∈ trail (Desk.handle link) ⟨v, []⟩ es, Steady x.1 x.2) :
    NothingStuck v (run (Desk.handle link) ⟨v, []⟩ es).viewer := by
  have hstart : Sound v ⟨v, []⟩ := by
    refine Or.inr ⟨[], (List.append_nil _).symm, ?_, Or.inl rfl⟩
    exact fun sym hstuck => absurd hstuck (not_stuck_nil sym)
  have hend : Sound v (run (Desk.handle link) ⟨v, []⟩ es) :=
    invariant_of_trail (handle_covered link v) hstart hsteady es
      List.prefix_rfl
  have hdown : (run (Desk.handle link) ⟨v, []⟩ es).down = [] :=
    run_down link hreleased (List.forall_mem_nil _)
  rcases hend with hlost | ⟨sent, hsent, hcov, -⟩
  · exact Or.inl hlost
  · refine Or.inr ⟨sent, hsent, fun sym hstuck => ?_⟩
    rw [hdown] at hcov
    obtain ⟨-, x, hx, -⟩ := hcov sym hstuck
    cases hx

/-- A viewer whose session passes messages on. -/
def watching : KvmViewer .stored :=
  { controller := some { session := some { state := .frameLoop } } }

/-- Shift and A go down; A goes up while shift is still held. -/
theorem no_key_stuck_capital :
    NothingStuck watching (run (Desk.handle .open) ⟨watching, []⟩
      [⟨true, Qt.Key_Shift, []⟩, ⟨true, Qt.Key_A, [65]⟩,
        ⟨false, Qt.Key_A, [65]⟩, ⟨false, Qt.Key_Shift, []⟩]).viewer :=
  no_key_stuck .open watching _ (by decide) (by decide)

/-- Shift goes up first: A went down as `A` and goes up as `a`. -/
def shiftFirst : List KeyEvent :=
  [⟨true, Qt.Key_Shift, []⟩, ⟨true, Qt.Key_A, [65]⟩,
    ⟨false, Qt.Key_Shift, []⟩, ⟨false, Qt.Key_A, [97]⟩]

/-- The capital letter stays down on the target. -/
theorem capital_stuck :
    ¬(Released shiftFirst → NothingStuck watching
      (run (Desk.handle .open) ⟨watching, []⟩ shiftFirst).viewer) := by
  intro h
  have hkeys : sentKeys
      (run (Desk.handle .open) ⟨watching, []⟩ shiftFirst).viewer.session =
        [(kXkShiftL, true), (65, true), (kXkShiftL, false), (97, false)] := by
    decide
  rcases h (by decide) with hlost | ⟨sent, hsent, hup⟩
  · exact absurd hlost (by decide)
  · rw [hkeys] at hsent
    have hnew : sent =
        [(kXkShiftL, true)] ++ (65, true) :: [(kXkShiftL, false), (97, false)] :=
      hsent.symm
    exact hup 65 ⟨_, _, hnew, by decide⟩

end QuMesh.Viewer
