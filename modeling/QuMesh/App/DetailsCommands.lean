import QuMesh.App.DetailsRefresh
import QuMesh.Lib.Text
import QuMesh.Wsman.BootActions
import QuMesh.Wsman.WatchdogIds

/-!
# Commands of `MachineDetailsController`

The commands that take what the operator typed, check some of it, and have
requests sent whose replies decide how they go on. The requests of the
refreshes are those of `Machine`; `inflight` counts the commands that wait for
a reply, and the signals are those of a power change.
-/

namespace QuMesh.Details

open QuMesh.Lib QuMesh.Wsman

inductive PowerSignal
  | powerChangeRequested (code : Int)
  | powerChangeCompleted (code : Int) (ok : Bool) (error : String)
  deriving DecidableEq, Repr

structure Panel where
  machine : Machine := {}
  inflight : Nat := 0
  signals : List PowerSignal := []

namespace Panel

def host (p : Panel) : String := p.machine.host

def lastError (p : Panel) : String := p.machine.lastError

def emit (signal : PowerSignal) (p : Panel) : Panel :=
  { p with signals := p.signals ++ [signal] }

def setLastError (e : String) (p : Panel) : Panel :=
  { p with machine := p.machine.setLastError e }

def incInflight (p : Panel) : Panel := { p with inflight := p.inflight + 1 }

def decInflight (p : Panel) : Panel := { p with inflight := p.inflight - 1 }

def refreshPower (p : Panel) : Panel :=
  { p with machine := p.machine.refreshPower }

end Panel

/-! ## Booting a recovery image -/

/-- The arguments of `bootToOcrHttpsUrl`. -/
structure OcrHttpsBoot where
  reset : Bool
  url : Text
  hashAlg : String
  hashHex : Units
  pinnedServerCertHashAlg : String
  pinnedServerCertHashHex : Units
  username : Text
  password : Text

/-- `QChar::toCaseFolded`. The long s is the one character outside ASCII that
folds to a letter of `https`; the others are left as they are. -/
def toCaseFolded (c : Char) : Char :=
  if c.toNat = 0x17F then 's' else c.toLower

/-- `QString::startsWith`, without regard to case, of a mark in lower case. -/
def startsWithFolded (s mark : String) : Bool :=
  mark.toList.isPrefixOf (s.toList.map toCaseFolded)

namespace OcrHttpsBoot

def code (b : OcrHttpsBoot) : Int := if b.reset then 10 else 2

/-- With the hashes decoded. -/
def pinned (b : OcrHttpsBoot) : HttpsBootPinned where
  url := b.url
  hashAlg := b.hashAlg
  imageHash := fromHex (unitsToLatin1 b.hashHex)
  pinnedServerCertHashAlg := b.pinnedServerCertHashAlg
  pinnedServerCertHash := fromHex (unitsToLatin1 b.pinnedServerCertHashHex)
  username := b.username
  password := b.password

def tlv (b : OcrHttpsBoot) : TlvBlob := buildOcrHttpsBootPinnedTlv b.pinned

def params (b : OcrHttpsBoot) : BootActionParams where
  targetPowerState := b.code
  amtBootSource := "Force OCR UEFI HTTPS Boot"
  oneClickRecovery := true
  ocrTlvBase64 := Strings.fromLatin1 (toBase64 b.tlv.blob)
  ocrTlvCount := b.tlv.count

end OcrHttpsBoot

namespace Panel

/-- The action that is started, if one is: the client is always there. -/
def bootToOcrHttpsUrl (b : OcrHttpsBoot) (p : Panel) :
    Panel × Option BootChain :=
  if p.host.isEmpty then
    (p.emit (.powerChangeCompleted 0 false "Host is empty"), none)
  else if !startsWithFolded b.url.str "https://" then
    let p := p.setLastError "Boot to OCR HTTPS: URL must start with https://"
    (p.emit (.powerChangeCompleted 0 false p.lastError), none)
  else
    let p := (p.setLastError "").emit (.powerChangeRequested b.code)
    (p.incInflight, some (performBootAction true b.params))

/-- What the action calls in the end. -/
def bootToOcrHttpsUrlDone (code : Int) (r : InvokeResult) (p : Panel) : Panel :=
  let p := p.decInflight
  if !r.ok then
    (p.setLastError ("Boot to OCR HTTPS: " ++ r.error)).emit
      (.powerChangeCompleted code false r.error)
  else (p.emit (.powerChangeCompleted code true "")).refreshPower

end Panel

end QuMesh.Details
