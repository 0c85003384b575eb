import QuMesh.Proofs.KeyRelease

/-!
# The pointer of the target

`Mouse` puts beside the viewer the buttons physically held, and its events say
what the hand did; the buttons Qt reports for a mouse or wheel event are the
ones held. A hover event reports none, and the viewer sends none for it.

The one thing to carry along a run is that the viewer's cache of what it sent
last is right, `Synced`: only then may a message be left out. The wheel writes
past the cache, and the cache stays right because the wheel leaves the pointer
where it was. Along a run the target then follows the mouse at every event but
three: a hover with a button held, which lets the button go on the target; a
wheel turn at a position the viewer has not been told; and a sideways turn,
for which nothing is sent, where the last message does not fit already.
-/

namespace QuMesh.Viewer

open QuMesh.Kvm QuMesh.Lib

variable {z : Zlib} {P : Type}

/-- What the hand does. -/
inductive MouseEvent (P : Type)
  | press (button : UInt32) (pos : P)
  | release (button : UInt32) (pos : P)
  | move (pos : P)
  | hover (pos : P)
  | wheel (dy : Int) (pos : P)
  deriving DecidableEq, Repr

def MouseEvent.pos : MouseEvent P → P
  | .press _ pos | .release _ pos | .move pos | .hover pos | .wheel _ pos => pos

/-- The buttons held after an event. -/
def MouseEvent.held (held : UInt32) : MouseEvent P → UInt32
  | .press button _ => held ||| button
  | .release button _ => held &&& ~~~button
  | _ => held

/-- The viewer, and the buttons held. -/
structure Mouse (z : Zlib) where
  viewer : KvmViewer z
  held : UInt32 := Qt.NoButton

/-- The viewer's answer, with the buttons held after the event. -/
def answer (map : CoordMap P) (link : Link) (v : KvmViewer z) (held : UInt32) :
    MouseEvent P → KvmViewer z
  | .press _ pos => v.mousePressEvent map link pos held
  | .release _ pos => v.mouseReleaseEvent map link pos held
  | .move pos => v.mouseMoveEvent map link pos held
  | .hover pos => v.hoverMoveEvent map link pos
  | .wheel dy _ => v.wheelEvent link dy held

def Mouse.handle (map : CoordMap P) (link : Link) (m : Mouse z)
    (e : MouseEvent P) : Mouse z :=
  { viewer := answer map link m.viewer (e.held m.held) e
    held := e.held m.held }

/-! ## What the target was told -/

structure Pointer where
  mask : UInt8
  x : UInt16
  y : UInt16
  deriving DecidableEq, Repr

def pointerMessage : Effect → Option Pointer
  | .wrote (.pointerEvent mask x y) => some ⟨mask, x, y⟩
  | _ => none

/-- The pointer messages of a session, in order. -/
def sentPointers : Option (Session z) → List Pointer
  | none => []
  | some s => s.out.filterMap pointerMessage

/-- The two bits that stand for a turn of the wheel. -/
def Pointer.wheel (p : Pointer) : UInt8 := p.mask &&& 0x18

/-- The last message shows the buttons held and a position. -/
def Shows (ms : List Pointer) (held : UInt32) (pos : Int × Int) : Prop :=
  ∃ p, ms.getLast? = some p ∧ p.mask = mouseButtons held ∧
    ((p.x.toNat : Int), (p.y.toNat : Int)) = pos

/-- The new messages let go of no button that is held. -/
def Holds (new : List Pointer) (held : UInt32) : Prop :=
  ∀ p ∈ new, p.mask &&& mouseButtons held = mouseButtons held

/-- Every turn of the wheel is taken back. -/
def TakenBack (new : List Pointer) : Prop :=
  ∀ before p after, new = before ++ p :: after → p.wheel ≠ 0 →
    ∃ q ∈ after, q.wheel = 0

/-- Unless the connection broke, the target follows the mouse at this event. -/
def Follows (map : CoordMap P) (link : Link) (m : Mouse z)
    (e : MouseEvent P) : Prop :=
  Lost (m.handle map link e).viewer.session ∨
    ∃ new, sentPointers (m.handle map link e).viewer.session =
        sentPointers m.viewer.session ++ new ∧
      Holds new (e.held m.held) ∧ TakenBack new ∧
      Shows (sentPointers (m.handle map link e).viewer.session)
        (e.held m.held) (map.coords e.pos)

/-- No hover while a forwarded button is held; a wheel turn where the viewer
knows the pointer to be; a wheel event without a turn where the target is up
to date. -/
def Plain (map : CoordMap P) (m : Mouse z) : MouseEvent P → Prop
  | .hover _ => mouseButtons m.held = 0
  | .wheel dy pos =>
      if dy = 0 then
        Shows (sentPointers m.viewer.session) m.held (map.coords pos)
      else map.coords pos = m.viewer.lastFbPos
  | _ => True

/-! ## Sending -/

/-- A position as the wire has it. -/
def pointerAt (mask : UInt8) (pos : Int × Int) : Pointer :=
  ⟨mask, KvmController.clamp16 pos.1, KvmController.clamp16 pos.2⟩

/-- A position in the picture. -/
def Fits (pos : Int × Int) : Prop :=
  (0 ≤ pos.1 ∧ pos.1 ≤ 65535) ∧ 0 ≤ pos.2 ∧ pos.2 ≤ 65535

theorem toNat_clamp16 {v : Int} (h : 0 ≤ v ∧ v ≤ 65535) :
    ((KvmController.clamp16 v).toNat : Int) = v := by
  have hmin : min v 65535 = v := by omega
  rw [KvmController.clamp16, hmin, UInt16.toNat_ofNat']
  omega

theorem pointerAt_pos {pos : Int × Int} (h : Fits pos) (mask : UInt8) :
    (((pointerAt mask pos).x.toNat : Int), ((pointerAt mask pos).y.toNat : Int)) =
      pos := by
  rw [pointerAt, toNat_clamp16 h.1, toNat_clamp16 h.2]

/-- A mask survives its way through an `int`. -/
theorem mask_int (mask : UInt8) :
    UInt8.ofNat ((mask.toNat : Int) % 256).toNat = mask := by
  have hlt := mask.toNat_lt
  have hmod : (mask.toNat : Int) % 256 = (mask.toNat : Int) := by omega
  rw [hmod, Int.toNat_natCast, UInt8.ofNat_toNat]

theorem session_pointer (link : Link) (mask : UInt8) (pos : Int × Int)
    (c : KvmController z) :
    (c.sendPointer link mask.toNat pos.1 pos.2).session =
      c.session.map (·.sendPointer link mask (KvmController.clamp16 pos.1)
        (KvmController.clamp16 pos.2)) := by
  simp only [KvmController.sendPointer, mask_int]

/-- A controller whose session passes messages on passes this one on, or loses
the connection. -/
theorem pointer_cases (link : Link) (mask : UInt8) (pos : Int × Int)
    {c : KvmController z} (hc : Carries c.session) :
    Lost (c.sendPointer link mask.toNat pos.1 pos.2).session ∨
      (Carries (c.sendPointer link mask.toNat pos.1 pos.2).session ∧
        sentPointers (c.sendPointer link mask.toNat pos.1 pos.2).session =
          sentPointers c.session ++ [pointerAt mask pos]) := by
  rw [session_pointer]
  rcases pass_cases (f := fun s => s.sendPointer link mask
      (KvmController.clamp16 pos.1) (KvmController.clamp16 pos.2))
      (fun _ => rfl) c.session with hlost | ⟨hc', s, ho, hs⟩ | ⟨hidle, -⟩
  · exact Or.inl hlost
  · refine Or.inr ⟨hc', ?_⟩
    rw [hs, ho]
    simp [sentPointers, Session.handOut, Session.emit, pointerMessage,
      pointerAt]
  · exact absurd hc hidle

theorem pointer_lost {c : KvmController z} (h : Lost c.session) (link : Link)
    (mask : UInt8) (pos : Int × Int) :
    Lost (c.sendPointer link mask.toNat pos.1 pos.2).session := by
  rw [session_pointer]
  generalize c.session = o at h ⊢
  cases o with
  | none => exact h
  | some s =>
      have hs : s.state = .failed := by simpa [Lost] using h
      simp [Lost, Session.sendPointer, hs]

/-- The cache holds the last message, if it holds anything. -/
def CacheRight (v : KvmViewer z) : Prop :=
  v.lastSentFbPos = (-1, -1) ∨
    (sentPointers v.session).getLast? =
      some (pointerAt v.lastSentMask v.lastSentFbPos)

/-- The target has been told the position of the viewer and these buttons. -/
structure Told (v v' : KvmViewer z) (buttons : UInt32) : Prop where
  carries : Carries v'.session
  pos : v'.lastFbPos = v.lastFbPos
  sentPos : v'.lastSentFbPos = v.lastFbPos
  sentMask : v'.lastSentMask = mouseButtons buttons
  new : ∃ new, sentPointers v'.session = sentPointers v.session ++ new ∧
    ∀ p ∈ new, p = pointerAt (mouseButtons buttons) v.lastFbPos
  last : (sentPointers v'.session).getLast? =
    some (pointerAt (mouseButtons buttons) v.lastFbPos)

/-- What `sendPointer` does: a message is left out only where it was the last
one. -/
theorem sendPointer_told (link : Link) (buttons : UInt32) {v : KvmViewer z}
    (hc : Carries v.session) (hfits : Fits v.lastFbPos)
    (hcache : CacheRight v) :
    Lost (v.sendPointer link buttons).session ∨
      Told v (v.sendPointer link buttons) buttons := by
  obtain ⟨c, hcontroller⟩ : ∃ c, v.controller = some c := by
    cases h : v.controller with
    | none => simp [Carries, KvmViewer.session, h] at hc
    | some c => exact ⟨c, rfl⟩
  have hsession : v.session = c.session := by
    simp [KvmViewer.session, hcontroller]
  rw [KvmViewer.sendPointer, hcontroller]
  dsimp only
  split
  · next hsame =>
      obtain ⟨hpos, hmask⟩ := hsame
      refine Or.inr ⟨hc, rfl, hpos.symm, hmask.symm, ⟨[], by simp, by simp⟩, ?_⟩
      rcases hcache with hnone | hlast
      · rw [hpos, hnone] at hfits
        exact absurd hfits.1.1 (by decide)
      · rw [hlast, hmask, hpos]
  · rw [hsession] at hc
    rcases pointer_cases link (mouseButtons buttons) v.lastFbPos hc with
      hlost | ⟨hcarries, hsent⟩
    · exact Or.inl hlost
    · refine Or.inr ⟨hcarries, rfl, rfl, rfl,
        ⟨[pointerAt (mouseButtons buttons) v.lastFbPos], ?_, by simp⟩, ?_⟩
      · rw [hsession]
        exact hsent
      · show (sentPointers (KvmController.session _)).getLast? = _
        rw [hsent, List.getLast?_concat]

/-! ## One event -/

theorem mouseButtons_wheel (held : UInt32) : mouseButtons held &&& 0x18 = 0 := by
  rw [mouseButtons]
  split <;> split <;> split <;> decide

/-- A message for the turn of the wheel shows the buttons held too. -/
theorem wheel_holds (held : UInt32) (bit : UInt8)
    (hbit : bit = 0x08 ∨ bit = 0x10) :
    (mouseButtons held ||| bit) &&& mouseButtons held = mouseButtons held := by
  rw [mouseButtons]
  rcases hbit with rfl | rfl <;> split <;> split <;> split <;> decide

/-- What holds of the viewer while the connection does. -/
structure Synced (v : KvmViewer z) (held : UInt32) : Prop where
  carries : Carries v.session
  fits : Fits v.lastFbPos
  cache : v.lastSentFbPos = (-1, -1) ∨
    (v.lastSentFbPos = v.lastFbPos ∧ v.lastSentMask = mouseButtons held ∧
      (sentPointers v.session).getLast? =
        some (pointerAt (mouseButtons held) v.lastFbPos))

theorem Synced.cacheRight {v : KvmViewer z} {held : UInt32}
    (h : Synced v held) : CacheRight v := by
  rcases h.cache with hnone | ⟨hpos, hmask, hlast⟩
  · exact Or.inl hnone
  · exact Or.inr (by rw [hlast, hpos, hmask])

theorem Told.synced {v v' : KvmViewer z} {buttons held : UInt32}
    (h : Told v v' buttons) (hfits : Fits v.lastFbPos)
    (heq : mouseButtons buttons = mouseButtons held) : Synced v' held where
  carries := h.carries
  fits := by rw [h.pos]; exact hfits
  cache := Or.inr ⟨by rw [h.sentPos, h.pos], by rw [h.sentMask, heq],
    by rw [h.last, heq, h.pos]⟩

/-- Told the buttons held and the position, the target follows. -/
theorem Told.shows {v v' : KvmViewer z} {buttons held : UInt32}
    (h : Told v v' buttons) (hfits : Fits v.lastFbPos)
    (heq : mouseButtons buttons = mouseButtons held) :
    ∃ new, sentPointers v'.session = sentPointers v.session ++ new ∧
      Holds new held ∧ TakenBack new ∧
      Shows (sentPointers v'.session) held v.lastFbPos := by
  obtain ⟨new, hnew, hall⟩ := h.new
  refine ⟨new, hnew, ?_, ?_, ?_⟩
  · intro p hp
    rw [hall p hp, ← heq]
    exact UInt8.and_self
  · intro before p after hsplit hwheel
    have hp : p ∈ new := by rw [hsplit]; simp
    rw [hall p hp] at hwheel
    exact absurd (mouseButtons_wheel buttons) hwheel
  · exact ⟨_, h.last, heq, pointerAt_pos hfits _⟩

/-- A mouse or hover event at a position tells the target the buttons it
reports. -/
theorem told_at (map : CoordMap P) (link : Link) (pos : P) (buttons : UInt32)
    {v : KvmViewer z} {held : UInt32} (h : Synced v held) :
    Lost ({ v with lastFbPos := map.coords pos }.sendPointer link
      buttons).session ∨
      Told { v with lastFbPos := map.coords pos }
        ({ v with lastFbPos := map.coords pos }.sendPointer link buttons)
        buttons :=
  sendPointer_told link buttons h.carries (map.fits pos) h.cacheRight

/-- An event that tells the target the buttons held. -/
theorem follows_told (map : CoordMap P) (link : Link) {m : Mouse z}
    {e : MouseEvent P} {buttons : UInt32} (hs : Synced m.viewer m.held)
    (hanswer : answer map link m.viewer (e.held m.held) e =
      { m.viewer with lastFbPos := map.coords e.pos }.sendPointer link buttons)
    (heq : mouseButtons buttons = mouseButtons (e.held m.held)) :
    Follows map link m e ∧
      (Lost (m.handle map link e).viewer.session ∨
        Synced (m.handle map link e).viewer (e.held m.held)) := by
  rw [Follows, Mouse.handle]
  dsimp only
  rw [hanswer]
  rcases told_at map link e.pos buttons hs with hlost | htold
  · exact ⟨Or.inl hlost, Or.inl hlost⟩
  · exact ⟨Or.inr (htold.shows (map.fits e.pos) heq),
      Or.inr (htold.synced (map.fits e.pos) heq)⟩

/-- A hover with a forwarded button held: the last message does not show it. -/
theorem hover_lets_go (map : CoordMap P) (link : Link) {m : Mouse z} {pos : P}
    (hs : Synced m.viewer m.held) (hheld : mouseButtons m.held ≠ 0)
    (hfollows : Follows map link m (.hover pos)) :
    Lost (m.handle map link (.hover pos)).viewer.session := by
  rcases told_at map link pos Qt.NoButton hs with hlost | htold
  · exact hlost
  · rcases hfollows with hlost | ⟨-, -, -, -, p, hlast, hmask, -⟩
    · exact hlost
    · have hp : p = pointerAt (mouseButtons Qt.NoButton) (map.coords pos) :=
        Option.some.inj (hlast.symm.trans htold.last)
      rw [hp] at hmask
      exact absurd hmask.symm hheld

/-- The two messages of a turn of the wheel. -/
def turn (v : KvmViewer z) (dy : Int) (held : UInt32) : List Pointer :=
  [pointerAt (mouseButtons held ||| if dy > 0 then 0x08 else 0x10) v.lastFbPos,
    pointerAt (mouseButtons held) v.lastFbPos]

theorem wheel_told (link : Link) {v : KvmViewer z} {held : UInt32} {dy : Int}
    (hc : Carries v.session) (hdy : dy ≠ 0) :
    Lost (v.wheelEvent link dy held).session ∨
      (Carries (v.wheelEvent link dy held).session ∧
        sentPointers (v.wheelEvent link dy held).session =
          sentPointers v.session ++ turn v dy held) := by
  obtain ⟨c, hcontroller⟩ : ∃ c, v.controller = some c := by
    cases h : v.controller with
    | none => simp [Carries, KvmViewer.session, h] at hc
    | some c => exact ⟨c, rfl⟩
  have hsession : v.session = c.session := by
    simp [KvmViewer.session, hcontroller]
  rw [hsession] at hc ⊢
  rw [KvmViewer.wheelEvent, hcontroller]
  dsimp only
  rw [if_neg hdy]
  rcases pointer_cases link _ v.lastFbPos hc with hlost | ⟨hc₁, hsent₁⟩
  · exact Or.inl (pointer_lost hlost link _ v.lastFbPos)
  · rcases pointer_cases link (mouseButtons held) v.lastFbPos hc₁ with
      hlost | ⟨hc₂, hsent₂⟩
    · exact Or.inl hlost
    · refine Or.inr ⟨hc₂, ?_⟩
      show sentPointers (KvmController.session _) = _
      rw [hsent₂, hsent₁, List.append_assoc]
      rfl

/-- The wheel moves neither the viewer's position nor its cache. -/
theorem wheel_cache (link : Link) (v : KvmViewer z) (held : UInt32) (dy : Int) :
    (v.wheelEvent link dy held).lastFbPos = v.lastFbPos ∧
      (v.wheelEvent link dy held).lastSentFbPos = v.lastSentFbPos ∧
      (v.wheelEvent link dy held).lastSentMask = v.lastSentMask := by
  rw [KvmViewer.wheelEvent]
  split
  · exact ⟨rfl, rfl, rfl⟩
  · split <;> exact ⟨rfl, rfl, rfl⟩

theorem turn_holds (v : KvmViewer z) (dy : Int) (held : UInt32) :
    Holds (turn v dy held) held := by
  intro p hp
  rcases List.mem_cons.mp hp with rfl | hp
  · refine wheel_holds held _ ?_
    split
    · exact Or.inl rfl
    · exact Or.inr rfl
  · rw [List.mem_singleton.mp hp]
    exact UInt8.and_self

theorem turn_takenBack (v : KvmViewer z) (dy : Int) (held : UInt32) :
    TakenBack (turn v dy held) := by
  intro before p after hsplit hwheel
  have hback : (pointerAt (mouseButtons held) v.lastFbPos).wheel = 0 :=
    mouseButtons_wheel held
  rcases @split_concat _ [pointerAt _ _] _ _ _ _ hsplit with
    ⟨rfl, -⟩ | ⟨after', rfl, -⟩
  · exact absurd hback hwheel
  · exact ⟨_, by simp, hback⟩

/-- A turn of the wheel: the target follows where the viewer knows the pointer
to be. -/
theorem follows_turn (map : CoordMap P) (link : Link) {m : Mouse z} {dy : Int}
    {pos : P} (hs : Synced m.viewer m.held) (hdy : dy ≠ 0) :
    (Follows map link m (.wheel dy pos) ↔
      Lost (m.handle map link (.wheel dy pos)).viewer.session ∨
        map.coords pos = m.viewer.lastFbPos) ∧
      (Lost (m.handle map link (.wheel dy pos)).viewer.session ∨
        Synced (m.handle map link (.wheel dy pos)).viewer m.held) := by
  obtain ⟨hpos, hsentPos, hsentMask⟩ := wheel_cache link m.viewer m.held dy
  rcases @wheel_told _ link _ m.held _ hs.carries hdy with
    hlost | ⟨hcarries, hsent⟩
  · exact ⟨iff_of_true (Or.inl hlost) (Or.inl hlost), Or.inl hlost⟩
  have hlast : (sentPointers (m.viewer.wheelEvent link dy m.held).session).getLast? =
      some (pointerAt (mouseButtons m.held) m.viewer.lastFbPos) := by
    rw [hsent]
    simp [turn]
  refine ⟨or_congr_right ⟨?_, fun hat => ?_⟩, Or.inr ⟨hcarries, ?_, ?_⟩⟩
  · rintro ⟨-, -, -, -, p, hp, -, hat⟩
    have hlast' : p = pointerAt (mouseButtons m.held) m.viewer.lastFbPos :=
      Option.some.inj (hp.symm.trans hlast)
    rw [hlast', pointerAt_pos hs.fits] at hat
    exact hat.symm
  · exact ⟨_, hsent, turn_holds _ _ _, turn_takenBack _ _ _, _, hlast, rfl,
      (pointerAt_pos hs.fits _).trans hat.symm⟩
  · show Fits (m.viewer.wheelEvent link dy m.held).lastFbPos
    rw [hpos]
    exact hs.fits
  · rcases hs.cache with hnone | ⟨hcpos, hcmask, -⟩
    · exact Or.inl (hsentPos.trans hnone)
    · refine Or.inr ⟨(hsentPos.trans hcpos).trans hpos.symm,
        hsentMask.trans hcmask, hlast.trans ?_⟩
      rw [← hpos]
      rfl

/-- A wheel event without a turn sends nothing. -/
theorem follows_sideways (map : CoordMap P) (link : Link) {m : Mouse z}
    {pos : P} :
    m.handle map link (.wheel 0 pos) = m ∧
      (Follows map link m (.wheel 0 pos) ↔
        Lost (m.handle map link (.wheel 0 pos)).viewer.session ∨
          Shows (sentPointers m.viewer.session) m.held (map.coords pos)) := by
  have hsame : m.handle map link (.wheel 0 pos) = m := by
    show (⟨m.viewer.wheelEvent link 0 m.held, m.held⟩ : Mouse z) = m
    rw [KvmViewer.wheelEvent]
    split <;> rfl
  refine ⟨hsame, or_congr_right ?_⟩
  rw [hsame]
  constructor
  · rintro ⟨-, -, -, -, hshows⟩
    exact hshows
  · intro hshows
    refine ⟨[], by simp, List.forall_mem_nil _, ?_, hshows⟩
    intro before p after hsplit
    simp at hsplit

/-- A lost connection stays lost. -/
theorem handle_lost (map : CoordMap P) (link : Link) {m : Mouse z}
    (h : Lost m.viewer.session) (e : MouseEvent P) :
    Lost (m.handle map link e).viewer.session := by
  have hsend : ∀ (v : KvmViewer z) (buttons : UInt32), Lost v.session →
      Lost (v.sendPointer link buttons).session := by
    intro v buttons hv
    rw [KvmViewer.sendPointer]
    split
    · exact hv
    · next c hc =>
        dsimp only
        split
        · exact hv
        · refine pointer_lost ?_ link (mouseButtons buttons) v.lastFbPos
          simpa [KvmViewer.session, hc] using hv
  cases e with
  | wheel dy pos =>
      show Lost (m.viewer.wheelEvent link dy m.held).session
      rw [KvmViewer.wheelEvent]
      split
      · exact h
      · next c hc =>
          split
          · exact h
          · refine pointer_lost (pointer_lost ?_ link _ m.viewer.lastFbPos)
              link (mouseButtons m.held) m.viewer.lastFbPos
            simpa [KvmViewer.session, hc] using h
  | press button pos => exact hsend _ _ h
  | release button pos => exact hsend _ _ h
  | move pos => exact hsend _ _ h
  | hover pos => exact hsend _ _ h

/-! ## Every run -/

/-- What holds before every event. -/
def Mouse.Sound (m : Mouse z) : Prop :=
  Lost m.viewer.session ∨ Synced m.viewer m.held

/-- The step: the target follows exactly the plain events, and these keep the
cache right. -/
theorem follows_step (map : CoordMap P) (link : Link) (m : Mouse z)
    (e : MouseEvent P) (h : m.Sound) :
    (Follows map link m e ↔
      Lost (m.handle map link e).viewer.session ∨ Plain map m e) ∧
      (Lost (m.handle map link e).viewer.session ∨ Plain map m e →
        (m.handle map link e).Sound) := by
  rcases h with hlost | hs
  · have hnext := handle_lost map link hlost e
    exact ⟨iff_of_true (Or.inl hnext) (Or.inl hnext), fun _ => Or.inl hnext⟩
  cases e with
  | press button pos =>
      obtain ⟨hfollows, hnext⟩ := follows_told map link hs
        (e := .press button pos) rfl rfl
      exact ⟨iff_of_true hfollows (Or.inr trivial), fun _ => hnext⟩
  | release button pos =>
      obtain ⟨hfollows, hnext⟩ := follows_told map link hs
        (e := .release button pos) rfl rfl
      exact ⟨iff_of_true hfollows (Or.inr trivial), fun _ => hnext⟩
  | move pos =>
      obtain ⟨hfollows, hnext⟩ := follows_told map link hs
        (e := .move pos) rfl rfl
      exact ⟨iff_of_true hfollows (Or.inr trivial), fun _ => hnext⟩
  | hover pos =>
      by_cases hheld : mouseButtons m.held = 0
      · obtain ⟨hfollows, hnext⟩ := follows_told map link hs
          (e := .hover pos) rfl hheld.symm
        exact ⟨iff_of_true hfollows (Or.inr hheld), fun _ => hnext⟩
      · refine ⟨⟨fun hf => Or.inl (hover_lets_go map link hs hheld hf), ?_⟩, ?_⟩
        · exact fun hg => Or.inl (hg.resolve_right hheld)
        · exact fun hg => Or.inl (hg.resolve_right hheld)
  | wheel dy pos =>
      by_cases hdy : dy = 0
      · subst hdy
        obtain ⟨hsame, hiff⟩ := @follows_sideways _ _ map link m pos
        refine ⟨hiff, fun _ => ?_⟩
        rw [hsame]
        exact Or.inr hs
      · obtain ⟨hiff, hnext⟩ := @follows_turn _ _ map link _ _ pos hs hdy
        rw [Plain, if_neg hdy]
        exact ⟨hiff, fun _ => hnext⟩

/-- A viewer that has just been given its controller. -/
def fresh (c : KvmController z) : Mouse z :=
  { viewer := { controller := some c } }

/-- A run of a fresh viewer whose session passes messages on: the target
follows the mouse at every event exactly if each is plain, as long as the
connection holds. -/
theorem pointer_follows_iff (map : CoordMap P) (link : Link)
    (c : KvmController z) (hc : Carries c.session) (es : List (MouseEvent P)) :
    (∀ x ∈ trail (Mouse.handle map link) (fresh c) es,
        Follows map link x.1 x.2) ↔
      ∀ x ∈ trail (Mouse.handle map link) (fresh c) es,
        Lost (x.1.handle map link x.2).viewer.session ∨ Plain map x.1 x.2 := by
  have hfits : Fits (0, 0) := by simp [Fits]
  have hstart : (fresh c).Sound := Or.inr ⟨hc, hfits, Or.inl rfl⟩
  exact forall_trail_iff (fun m e h => (follows_step map link m e h).1)
    (fun m e h => (follows_step map link m e h).2) hstart

/-- Positions that are in the picture already. -/
def inPicture : CoordMap (UInt16 × UInt16) where
  coords p := (p.1.toNat, p.2.toNat)
  fits p := by
    have hx := p.1.toNat_lt
    have hy := p.2.toNat_lt
    refine ⟨⟨?_, ?_⟩, ?_, ?_⟩ <;> dsimp only <;> omega

/-- A controller whose session passes messages on. -/
def carrying : KvmController .stored :=
  { session := some { state := .frameLoop } }

/-- A drag without hover events, and a turn of the wheel where it ends. -/
theorem pointer_follows_iff_drag :
    (∀ x ∈ trail (Mouse.handle inPicture .open) (fresh carrying)
        [.press Qt.LeftButton (5, 5), .move (6, 5), .wheel 120 (6, 5)],
        Follows inPicture .open x.1 x.2) ↔
      ∀ x ∈ trail (Mouse.handle inPicture .open) (fresh carrying)
        [.press Qt.LeftButton (5, 5), .move (6, 5), .wheel 120 (6, 5)],
        Lost (x.1.handle inPicture .open x.2).viewer.session ∨
          Plain inPicture x.1 x.2 :=
  pointer_follows_iff inPicture .open carrying (by decide) _

/-- A hover event during a drag lets the button go on the target. -/
theorem drag_let_go :
    ¬∀ x ∈ trail (Mouse.handle inPicture .open) (fresh carrying)
      [.press Qt.LeftButton (5, 5), .hover (6, 5)],
      Follows inPicture .open x.1 x.2 := by
  intro h
  let m := (fresh carrying).handle inPicture .open (.press Qt.LeftButton (5, 5))
  have hlast : (sentPointers
      (m.handle inPicture .open (.hover (6, 5))).viewer.session).getLast? =
        some ⟨0, 6, 5⟩ := by
    decide
  rcases h (m, .hover (6, 5)) (by simp [m]) with
    hlost | ⟨-, -, -, -, p, hp, hmask, -⟩
  · exact absurd hlost (by decide)
  · rw [Option.some.inj (hp.symm.trans hlast)] at hmask
    exact absurd hmask (by decide)

end QuMesh.Viewer
