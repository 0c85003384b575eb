import QuMesh.Kvm.Session

/-!
# Keys and the pointer of a KVM viewer

`KvmViewer` turns Qt's input events into the key and pointer messages of the
session its controller holds. A key event carries a Qt key code and the text
Qt computed for it, as UTF-16 units; a mouse event carries the buttons Qt
reports, as `Qt::MouseButtons` flags.

`toFramebufferCoords` scales in floating point and clamps into the picture. It
is a parameter here: a map into coordinates that fit the 16 bits in which the
sizes of the picture came.
-/

namespace QuMesh.Viewer

open QuMesh.Kvm

variable {z : Zlib} {P : Type}

/-! ## The controller's side -/

structure KvmController (z : Zlib) where
  session : Option (Session z) := none

namespace KvmController

def sendKey (link : Link) (keysym : UInt32) (down : Bool)
    (c : KvmController z) : KvmController z :=
  { c with session := c.session.map (·.sendKey link keysym down) }

/-- `std::clamp(v, 0, 65535)` as a `quint16`. -/
def clamp16 (v : Int) : UInt16 := UInt16.ofNat (min v 65535).toNat

def sendPointer (link : Link) (buttonMask x y : Int) (c : KvmController z) :
    KvmController z :=
  let mask := UInt8.ofNat (buttonMask % 256).toNat
  { c with session :=
      c.session.map (·.sendPointer link mask (clamp16 x) (clamp16 y)) }

end KvmController

/-! ## Key codes -/

def kXkBackspace : UInt32 := 0xFF08
def kXkTab : UInt32 := 0xFF09
def kXkReturn : UInt32 := 0xFF0D
def kXkEscape : UInt32 := 0xFF1B
def kXkDelete : UInt32 := 0xFFFF
def kXkHome : UInt32 := 0xFF50
def kXkLeft : UInt32 := 0xFF51
def kXkUp : UInt32 := 0xFF52
def kXkRight : UInt32 := 0xFF53
def kXkDown : UInt32 := 0xFF54
def kXkPageUp : UInt32 := 0xFF55
def kXkPageDown : UInt32 := 0xFF56
def kXkEnd : UInt32 := 0xFF57
def kXkInsert : UInt32 := 0xFF63
def kXkF1Base : UInt32 := 0xFFBE
def kXkShiftL : UInt32 := 0xFFE1
def kXkControlL : UInt32 := 0xFFE3
def kXkAltL : UInt32 := 0xFFE9
def kXkMetaL : UInt32 := 0xFFE7

namespace Qt

def Key_0 : Int := 0x30
def Key_9 : Int := 0x39
def Key_A : Int := 0x41
def Key_Z : Int := 0x5A
def Key_Escape : Int := 0x01000000
def Key_Tab : Int := 0x01000001
def Key_Backspace : Int := 0x01000003
def Key_Return : Int := 0x01000004
def Key_Enter : Int := 0x01000005
def Key_Insert : Int := 0x01000006
def Key_Delete : Int := 0x01000007
def Key_Home : Int := 0x01000010
def Key_End : Int := 0x01000011
def Key_Left : Int := 0x01000012
def Key_Up : Int := 0x01000013
def Key_Right : Int := 0x01000014
def Key_Down : Int := 0x01000015
def Key_PageUp : Int := 0x01000016
def Key_PageDown : Int := 0x01000017
def Key_Shift : Int := 0x01000020
def Key_Control : Int := 0x01000021
def Key_Meta : Int := 0x01000022
def Key_Alt : Int := 0x01000023
def Key_F1 : Int := 0x01000030
def Key_F12 : Int := 0x0100003B

def NoButton : UInt32 := 0
def LeftButton : UInt32 := 1
def RightButton : UInt32 := 2
def MiddleButton : UInt32 := 4

end Qt

open Qt

/-- The cases of the `switch`. -/
def namedKeys : List (Int × UInt32) :=
  [(Key_Backspace, kXkBackspace), (Key_Tab, kXkTab), (Key_Return, kXkReturn),
    (Key_Enter, kXkReturn), (Key_Escape, kXkEscape), (Key_Delete, kXkDelete),
    (Key_Home, kXkHome), (Key_Left, kXkLeft), (Key_Up, kXkUp),
    (Key_Right, kXkRight), (Key_Down, kXkDown), (Key_PageUp, kXkPageUp),
    (Key_PageDown, kXkPageDown), (Key_End, kXkEnd), (Key_Insert, kXkInsert),
    (Key_Shift, kXkShiftL), (Key_Control, kXkControlL), (Key_Alt, kXkAltL),
    (Key_Meta, kXkMetaL)]

/-- The first unit of the text, where X11 has a keysym of the same number. -/
def latinKeysym (text : List UInt16) : Option UInt32 :=
  match text with
  | [] => none
  | u :: _ =>
      if 0x20 ≤ u ∧ u ≤ 0x7E ∨ 0xA0 ≤ u ∧ u ≤ 0xFF then some u.toUInt32
      else none

def qtKeyToKeysym (key : Int) (text : List UInt16) : UInt32 :=
  match namedKeys.lookup key with
  | some sym => sym
  | none =>
      if Key_F1 ≤ key ∧ key ≤ Key_F12 then
        kXkF1Base + UInt32.ofNat (key - Key_F1).toNat
      else
        match latinKeysym text with
        | some sym => sym
        | none =>
            if Key_A ≤ key ∧ key ≤ Key_Z then
              UInt32.ofNat (key - Key_A + 0x61).toNat
            else if Key_0 ≤ key ∧ key ≤ Key_9 then
              UInt32.ofNat (key - Key_0 + 0x30).toNat
            else 0

/-! ## The item -/

structure KvmViewer (z : Zlib) where
  controller : Option (KvmController z) := none
  lastFbPos : Int × Int := (0, 0)
  lastSentFbPos : Int × Int := (-1, -1)
  lastSentMask : UInt8 := 0

/-- `toFramebufferCoords`, for positions of any type. -/
structure CoordMap (P : Type) where
  coords : P → Int × Int
  fits : ∀ p, (0 ≤ (coords p).1 ∧ (coords p).1 ≤ 65535) ∧
    0 ≤ (coords p).2 ∧ (coords p).2 ≤ 65535

def mouseButtons (buttons : UInt32) : UInt8 :=
  (if buttons &&& LeftButton ≠ 0 then 0x01 else 0) |||
    (if buttons &&& MiddleButton ≠ 0 then 0x02 else 0) |||
    (if buttons &&& RightButton ≠ 0 then 0x04 else 0)

namespace KvmViewer

/-- The session behind the controller. -/
def session (v : KvmViewer z) : Option (Session z) :=
  v.controller.bind (·.session)

def keyPressEvent (link : Link) (key : Int) (text : List UInt16)
    (v : KvmViewer z) : KvmViewer z :=
  let sym := qtKeyToKeysym key text
  if sym = 0 then v
  else { v with controller := v.controller.map (·.sendKey link sym true) }

def keyReleaseEvent (link : Link) (key : Int) (text : List UInt16)
    (v : KvmViewer z) : KvmViewer z :=
  let sym := qtKeyToKeysym key text
  if sym = 0 then v
  else { v with controller := v.controller.map (·.sendKey link sym false) }

def sendPointer (link : Link) (buttons : UInt32) (v : KvmViewer z) :
    KvmViewer z :=
  match v.controller with
  | none => v
  | some c =>
      let mask := mouseButtons buttons
      -- some platforms deliver a hover and a move for one physical move
      if v.lastFbPos = v.lastSentFbPos ∧ mask = v.lastSentMask then v
      else
        let c := c.sendPointer link mask.toNat v.lastFbPos.1 v.lastFbPos.2
        { v with
          lastSentFbPos := v.lastFbPos
          lastSentMask := mask
          controller := some c }

/-- `mousePressEvent`, `mouseReleaseEvent` and `mouseMoveEvent` do the same. -/
def mouseEvent (map : CoordMap P) (link : Link) (pos : P) (buttons : UInt32)
    (v : KvmViewer z) : KvmViewer z :=
  { v with lastFbPos := map.coords pos }.sendPointer link buttons

def mousePressEvent (map : CoordMap P) (link : Link) (pos : P)
    (buttons : UInt32) (v : KvmViewer z) : KvmViewer z :=
  v.mouseEvent map link pos buttons

def mouseReleaseEvent (map : CoordMap P) (link : Link) (pos : P)
    (buttons : UInt32) (v : KvmViewer z) : KvmViewer z :=
  v.mouseEvent map link pos buttons

def mouseMoveEvent (map : CoordMap P) (link : Link) (pos : P)
    (buttons : UInt32) (v : KvmViewer z) : KvmViewer z :=
  v.mouseEvent map link pos buttons

def hoverMoveEvent (map : CoordMap P) (link : Link) (pos : P)
    (v : KvmViewer z) : KvmViewer z :=
  { v with lastFbPos := map.coords pos }.sendPointer link NoButton

/-- The event's own position is not looked at. -/
def wheelEvent (link : Link) (dy : Int) (buttons : UInt32)
    (v : KvmViewer z) : KvmViewer z :=
  match v.controller with
  | none => v
  | some c =>
      if dy = 0 then v
      else
        let base := mouseButtons buttons
        let wheelBit : UInt8 := if dy > 0 then 0x08 else 0x10
        let x := v.lastFbPos.1
        let y := v.lastFbPos.2
        let c := c.sendPointer link (base ||| wheelBit).toNat x y
        { v with controller := some (c.sendPointer link base.toNat x y) }

end KvmViewer

end QuMesh.Viewer
