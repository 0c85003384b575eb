import QuMesh.Kvm.Codec

/-!
# `KvmSession`

The RFB client on top of an authenticated redirection client. A member
function is a function on the session under its own name; a signal is an entry
of `out`, a frame handed to `writeRaw` an entry of `frames`, in order. The
link answers the n-th write: with nothing when it took the frame, and with the
client's `lastError` when it took no byte of it, which is what `writeFrame`
looks at.

Events are what the event loop may call: the slots behind the client's
`rawBytes` and `failed`, a `drainInbox` the session posted to itself, and the
public functions the controller calls. A call that a handler makes from inside
a signal is an event after the slot that emitted it.
-/

namespace QuMesh.Kvm

open QuMesh.Lib

inductive State
  | idle
  | version
  | security
  | authResult
  | serverInit
  | frameLoop
  | failed
  deriving DecidableEq, Repr

/-- Why a session failed. -/
inductive Reason
  | notAuthenticated
  | authResult
  | unsupportedEncoding (encoding : Int)
  | unsupportedSubencoding
  | malformedRect (encoding : Int)
  | cutTextTooLarge (len : Nat)
  | unknownMessage (tag : Nat)
  | desktopTooLarge (w h needed : Nat) (forced : Bool)
  | writeFailed (error : String)
  | client (reason : String)
  deriving DecidableEq, Repr

/-- `n / 1048576` with one decimal, as `arg(…, 'f', 1)` prints it: a tie goes
to the even digit. -/
def megabytes (n : Nat) : String :=
  let tenths := n * 10 / 1048576
  let rest := n * 10 % 1048576
  let tenths :=
    if rest > 524288 ∨ (rest = 524288 ∧ tenths % 2 = 1) then tenths + 1
    else tenths
  s!"{tenths / 10}.{tenths % 10}"

def Reason.text : Reason → String
  | .notAuthenticated => "client not authenticated"
  | .authResult => "KVM auth result failed"
  | .unsupportedEncoding encoding => s!"unsupported KVM encoding {encoding}"
  | .unsupportedSubencoding => "unsupported KVM RLE subencoding"
  | .malformedRect encoding => s!"malformed KVM rect (encoding {encoding})"
  | .cutTextTooLarge len => s!"ServerCutText length too large: {len}"
  | .unknownMessage tag =>
      let digits := (Nat.toDigits 16 tag).leftpad 2 '0'
      s!"unknown KVM server message 0x{String.ofList digits}"
  | .desktopTooLarge w h needed forced =>
      let depth := if forced then " at the colour depth you selected" else ""
      let auto := if forced then " or switch colour depth back to Auto" else ""
      s!"The {w}×{h} desktop needs {megabytes needed} MB of Intel AMT KVM " ++
      s!"display buffer, over the firmware's {megabytes kMaxDisplayBufferBytes}" ++
      s!" MB limit{depth}. Lower the target's resolution{auto}."
  | .writeFailed error => s!"KVM write failed: {error}"
  | .client reason => reason

inductive Effect
  | stateChanged (state : State)
  | desktopResized (w h : Nat)
  | pixelFormatChanged (format : PixelFormat)
  | tileUpdated (x y : Nat) (tile : Image)
  | bell
  | closed (reason : Reason)
  /-- Not signals: a call of `start`, and a frame handed to the client, for
  the order of things. -/
  | started
  | wrote (frame : Frame)
  deriving DecidableEq, Repr

/-- How the client's socket answers the n-th `writeRaw`. -/
abbrev Link := Nat → Option String

/-- A link that takes everything. -/
def Link.open : Link := fun _ => none

structure Session (z : Zlib) where
  inbox : Bytes := []
  state : State := .idle
  lastError : Option Reason := none
  width : Nat := 0
  height : Nat := 0
  format : PixelFormat := .rgb565
  preferredFormat : Option PixelFormat := none
  pendingRects : Nat := 0
  inflate : InflateStream z := {}
  compressionEnabled : Bool := true
  /-- How many frames were handed to the client. -/
  writes : Nat := 0
  /-- The pictures decoded, with the format each was decoded in. The source does
  not keep them. -/
  decoded : List (RectHeader × PixelFormat) := []
  out : List Effect := []

namespace Session

variable {z : Zlib}

def emit (e : Effect) (s : Session z) : Session z :=
  { s with out := s.out ++ [e] }

def setState (st : State) (s : Session z) : Session z :=
  if st = s.state then s else ({ s with state := st }).emit (.stateChanged st)

def fail (reason : Reason) (s : Session z) : Session z :=
  (({ s with lastError := some reason }).setState .failed).emit
    (.closed reason)

/-- The frame as the client is handed it. -/
def handOut (frame : Frame) (s : Session z) : Session z :=
  ({ s with writes := s.writes + 1 }).emit (.wrote frame)

def writeFrame (link : Link) (frame : Frame) (s : Session z) : Session z :=
  match link s.writes with
  | none => s.handOut frame
  | some error => (s.handOut frame).fail (.writeFailed error)

/-- `m_inbox.remove(0, n)`. -/
def remove (n : Nat) (s : Session z) : Session z :=
  { s with inbox := s.inbox.drop n }

def resize (w h : Nat) (s : Session z) : Session z :=
  ({ s with width := w, height := h }).emit (.desktopResized w h)

/-- Whether the client was authenticated, and the environment's switch. -/
def start (authenticated compression : Bool) (s : Session z) : Session z :=
  let s := s.emit .started
  if !authenticated then s.fail .notAuthenticated
  else
    ({ s with
      inflate := s.inflate.reset
      format := .rgb565
      compressionEnabled := compression }).setState .version

/-- The format a desktop of this size is asked for in. -/
def wantedFormat (w h : Nat) (s : Session z) : PixelFormat :=
  s.preferredFormat.getD (chooseFormatFor w h)

/-- Pin a format and tell the server. -/
def pinFormat (link : Link) (wanted : PixelFormat) (s : Session z) :
    Session z :=
  let changed : Bool := wanted ≠ s.format
  let s := ({ s with format := wanted }).writeFrame link (.setPixelFormat wanted)
  if changed then s.emit (.pixelFormatChanged wanted) else s

/-- False, after `fail`, when no format fits. -/
def negotiatePixelFormat (link : Link) (w h : Nat) (s : Session z) :
    Session z × Bool :=
  if w = 0 ∨ h = 0 then (s, true)
  else
    let wanted := s.wantedFormat w h
    let needed := displayBufferBytes wanted w h
    if needed > kMaxDisplayBufferBytes then
      (s.fail (.desktopTooLarge w h needed s.preferredFormat.isSome), false)
    else (s.pinFormat link wanted, true)

def requestIncremental (link : Link) (s : Session z) : Session z :=
  s.writeFrame link (.framebufferUpdateRequest true 0 0 s.width s.height)

def requestFull (link : Link) (s : Session z) : Session z :=
  s.writeFrame link (.framebufferUpdateRequest false 0 0 s.width s.height)

/-- `stepHandshake` once the desktop's format is settled. -/
def configure (link : Link) (s : Session z) : Session z :=
  let s := s.writeFrame link .setEncodings
  let s := s.writeFrame link
    (.kvmExtCmd 4 (if s.compressionEnabled then 1 else 0))
  (s.requestFull link).setState .frameLoop

def stepHandshake (link : Link) (s : Session z) : Session z × Bool :=
  match s.state with
  | .version =>
      if s.inbox.length < 12 then (s, false)
      else
        (((s.remove 12).writeFrame link .versionResponse).setState .security,
          true)
  | .security =>
      let n := tryParseSecurityTypes s.inbox
      if n = 0 then (s, false)
      else
        (((s.remove n).writeFrame link .securityChoice).setState .authResult,
          true)
  | .authResult =>
      match tryParseSecurityResult s.inbox with
      | (ok, consumed) =>
          if consumed = 0 then (s, false)
          else if !ok then (s.fail .authResult, false)
          else
            (((s.remove consumed).writeFrame link .clientInit).setState
              .serverInit, true)
  | .serverInit =>
      match tryParseServerInit s.inbox with
      | none => (s, false)
      | some (info, consumed) =>
          let s := (s.remove consumed).resize info.width info.height
          match s.negotiatePixelFormat link info.width info.height with
          | (s, false) => (s, false)
          | (s, true) => (s.configure link, true)
  | _ => (s, false)

/-- One rectangle off the inbox and off the update. -/
def takeRect (n : Nat) (s : Session z) : Session z :=
  { s.remove n with pendingRects := s.pendingRects - 1 }

def showTile (rect : RectHeader) (image : Option Image) (s : Session z) :
    Session z :=
  match image with
  | none => s
  | some image =>
      ({ s with decoded := s.decoded ++ [(rect, s.format)] }).emit
        (.tileUpdated rect.x rect.y image)

/-- `stepFrameLoop` once a rectangle of `n` bytes is decoded. -/
def applyRect (link : Link) (rect : RectHeader) (n : Nat) (dr : DecodedRect)
    (s : Session z) : Session z × Bool :=
  if dr.isDesktopSize then
    match (s.resize rect.w rect.h).negotiatePixelFormat link rect.w rect.h with
    | (s, false) => (s, false)
    | (s, true) =>
        let s := s.takeRect n
        (if s.pendingRects = 0 then s.requestFull link else s, true)
  else
    let s := (s.showTile rect dr.image).takeRect n
    (if s.pendingRects = 0 then s.requestIncremental link else s, true)

/-- `stepFrameLoop` on what became of a rectangle. -/
def onDecoding (link : Link) (rect : RectHeader) (rectConsumed : Nat)
    (d : Decoding z) (s : Session z) : Session z × Bool :=
  let s := { s with inflate := d.inflate.getD s.inflate }
  match d.status with
  | .needMore => (s, false)
  | .unsupportedEncoding =>
      (s.fail (.unsupportedEncoding rect.encoding), false)
  | .unsupportedSubencoding => (s.fail .unsupportedSubencoding, false)
  | .malformed => (s.fail (.malformedRect rect.encoding), false)
  | .ok => s.applyRect link rect (rectConsumed + d.consumed) d.rect

/-- `stepFrameLoop` inside an update. -/
def stepRect (link : Link) (s : Session z) : Session z × Bool :=
  match tryParseRectHeader s.inbox with
  | none => (s, false)
  | some (rect, rectConsumed) =>
      s.onDecoding link rect rectConsumed
        (tryDecodeRect (s.inbox.drop rectConsumed) rect (some s.inflate)
          s.format)

def kServerCutTextMax : Nat := 1024 * 1024

def beginUpdate (numRects n : Nat) (s : Session z) : Session z :=
  { s.remove n with pendingRects := numRects }

/-- `stepFrameLoop` between updates, on an inbox that is not empty. -/
def stepMessage (s : Session z) : Session z × Bool :=
  let tag := byteAt s.inbox 0
  if tag = 0 then
    match tryParseFrameUpdate s.inbox with
    | none => (s, false)
    | some (numRects, consumed) => (s.beginUpdate numRects consumed, true)
  else if tag = 2 then ((s.remove 1).emit .bell, true)
  else if tag = 3 then
    if s.inbox.length < 8 then (s, false)
    else
      let len := read32Be s.inbox 4
      if len > kServerCutTextMax then (s.fail (.cutTextTooLarge len), false)
      else if s.inbox.length < 8 + len then (s, false)
      else (s.remove (8 + len), true)
  else (s.fail (.unknownMessage tag), false)

def stepFrameLoop (link : Link) (s : Session z) : Session z × Bool :=
  if s.pendingRects > 0 then s.stepRect link
  else if s.inbox.isEmpty then (s, false)
  else s.stepMessage

/-- One round of the loop in `drainInbox`. -/
def step (link : Link) (s : Session z) : Session z × Bool :=
  match s.state with
  | .version | .security | .authResult | .serverInit => s.stepHandshake link
  | .frameLoop => s.stepFrameLoop link
  | .idle | .failed => (s, false)

def kMaxStepsPerCall : Nat := 16

/-- The loop: whether its budget ran out before a round stopped it. -/
def drainSteps (link : Link) : Nat → Session z → Session z × Bool
  | 0, s => (s, true)
  | n + 1, s =>
      match s.step link with
      | (s, true) => drainSteps link n s
      | (s, false) => (s, false)

/-- Whether it leaves a call of itself in the event queue. -/
def drainInbox (link : Link) (s : Session z) : Session z × Bool :=
  match s.drainSteps link kMaxStepsPerCall with
  | (s, true) => (s, !s.inbox.isEmpty)
  | (s, false) => (s, false)

def onRawBytes (link : Link) (chunk : Bytes) (s : Session z) :
    Session z × Bool :=
  ({ s with inbox := s.inbox ++ chunk }).drainInbox link

def sendKey (link : Link) (keysym : UInt32) (down : Bool) (s : Session z) :
    Session z :=
  if s.state ≠ .frameLoop then s
  else s.writeFrame link (.keyEvent keysym down)

def sendPointer (link : Link) (buttonMask : UInt8) (x y : UInt16)
    (s : Session z) : Session z :=
  if s.state ≠ .frameLoop then s
  else s.writeFrame link (.pointerEvent buttonMask x y)

def sendCtrlAltDel (link : Link) (s : Session z) : Session z :=
  let kCtrl := 0xFFE3
  let kAlt := 0xFFE9
  let kDel := 0xFFFF
  let keys := [(kCtrl, true), (kAlt, true), (kDel, true), (kDel, false),
    (kAlt, false), (kCtrl, false)]
  keys.foldl (fun s key => s.sendKey link key.1 key.2) s

def requestFullRefresh (link : Link) (s : Session z) : Session z :=
  if s.state ≠ .frameLoop then s else s.requestFull link

end Session

inductive Event
  | setPreferredPixelFormat (f : Option PixelFormat)
  | start (authenticated compression : Bool)
  | rawBytes (chunk : Bytes)
  | continuation
  | clientFailed (reason : String)
  | sendKey (keysym : UInt32) (down : Bool)
  | sendPointer (buttonMask : UInt8) (x y : UInt16)
  | sendCtrlAltDel
  | requestFullRefresh
  deriving DecidableEq, Repr

/-- A session and the calls of its `drainInbox` in the event queue. -/
structure Loop (z : Zlib) where
  session : Session z := {}
  queued : Nat := 0

namespace Loop

variable {z : Zlib}

/-- What a drain leaves behind. -/
def settle (l : Loop z) (r : Session z × Bool) : Loop z :=
  { session := r.1, queued := l.queued + if r.2 then 1 else 0 }

def handle (link : Link) (l : Loop z) : Event → Loop z
  | .rawBytes chunk => l.settle (l.session.onRawBytes link chunk)
  | .continuation =>
      if l.queued = 0 then l
      else
        ({ l with queued := l.queued - 1 }).settle (l.session.drainInbox link)
  | .setPreferredPixelFormat f =>
      { l with session := { l.session with preferredFormat := f } }
  | .start authenticated compression =>
      { l with session := l.session.start authenticated compression }
  | .clientFailed reason => { l with session := l.session.fail (.client reason) }
  | .sendKey keysym down => { l with session := l.session.sendKey link keysym down }
  | .sendPointer buttonMask x y =>
      { l with session := l.session.sendPointer link buttonMask x y }
  | .sendCtrlAltDel => { l with session := l.session.sendCtrlAltDel link }
  | .requestFullRefresh => { l with session := l.session.requestFullRefresh link }

end Loop

end QuMesh.Kvm
