import QuMesh.App.DetailsCommands

/-!
# The recovery prompt

`OcrPrompt` as it stands when its button is pressed: the three variants, what
is typed for them, and what is asked of the controller. A hash that is typed
has to look like one before the button is enabled, and the hash of the server's
certificate only if an algorithm is chosen for it.
-/

namespace QuMesh.Details

open QuMesh.Lib QuMesh.Wsman

/-- What `\s` matches, a UTF-16 unit at a time. -/
def isJsSpace (u : UInt16) : Bool :=
  u = 0x20 || (0x09 ≤ u && u ≤ 0x0D) || u = 0xA0 || u = 0x1680 ||
    (0x2000 ≤ u && u ≤ 0x200A) || u = 0x2028 || u = 0x2029 || u = 0x202F ||
    u = 0x205F || u = 0x3000 || u = 0xFEFF

/-- The text without what `[\s:]` matches. -/
def hexTrimmed (s : Units) : Units :=
  s.filter fun u => !(isJsSpace u || u = 0x3A)

structure OcrPrompt where
  canWinRE : Bool := true
  canLocalPBA : Bool := true
  canHttps : Bool := true
  resetFlavour : Bool := true
  variant : Int := 0
  pbaIndex : Int := 1
  httpsUrl : Text := Text.lit "https://"
  hashAlg : String := "sha256"
  hashHex : Units := []
  pinnedCertHashAlg : String := ""
  pinnedCertHashHex : Units := []
  httpsUsername : Text := .empty
  httpsPassword : Text := .empty

/-- The signals, each with what the window calls for it. -/
inductive Confirm
  | winRE (reset : Bool)
  | localPBA (reset : Bool) (pbaIndex : Int)
  | https (boot : OcrHttpsBoot)

namespace OcrPrompt

def looksLikeHex (s : Units) (requiredBytes : Nat) : Bool :=
  if s.isEmpty then false
  else
    let trimmed := hexTrimmed s
    if trimmed.length ≠ requiredBytes * 2 then false
    else !trimmed.isEmpty && trimmed.all fun u => (hexUnit u).isSome

def hashBytesForAlg (alg : String) : Nat :=
  if alg = "sha256" then 32
  else if alg = "sha384" then 48
  else if alg = "sha512" then 64
  else 0

def enabled (p : OcrPrompt) : Bool :=
  if p.variant = 0 then p.canWinRE
  else if p.variant = 1 then p.canLocalPBA
  else if p.variant = 2 then
    if !p.canHttps then false
    else if !p.httpsUrl.startsWith (Text.lit "https://").utf8 then false
    else if !p.hashHex.isEmpty &&
        !looksLikeHex p.hashHex (hashBytesForAlg p.hashAlg) then false
    else if !p.pinnedCertHashAlg.isEmpty && !p.pinnedCertHashHex.isEmpty &&
        !looksLikeHex p.pinnedCertHashHex
          (hashBytesForAlg p.pinnedCertHashAlg) then false
    else true
  else false

def onClicked (p : OcrPrompt) : Option Confirm :=
  if p.variant = 0 then some (.winRE p.resetFlavour)
  else if p.variant = 1 then some (.localPBA p.resetFlavour p.pbaIndex)
  else if p.variant = 2 then
    some (.https
      { reset := p.resetFlavour
        url := p.httpsUrl
        hashAlg := if !p.hashHex.isEmpty then p.hashAlg else ""
        hashHex := p.hashHex
        pinnedServerCertHashAlg := p.pinnedCertHashAlg
        pinnedServerCertHashHex := p.pinnedCertHashHex
        username := p.httpsUsername
        password := p.httpsPassword })
  else none

/-- A press of the button. -/
def press (p : OcrPrompt) : Option Confirm :=
  if p.enabled then p.onClicked else none

end OcrPrompt

end QuMesh.Details
