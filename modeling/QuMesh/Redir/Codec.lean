import QuMesh.Lib.Utf8

/-!
# The redirection port's frames

`redir_codec.cpp`, the half of it the handshake uses: the protocol selectors,
the `0x11` and `0x14` replies, and the `0x13` frames the client answers with.
Text is its UTF-8 bytes, so `toUtf8` is nothing and `QString::fromUtf8` is
`fromUtf8`. A parser that returns `false` leaves `consumed` at zero, so it is
an option here; a parser that returns `true` hands back what it decoded and
how many bytes that took.
-/

namespace QuMesh.Redir

open QuMesh.Lib

inductive Protocol
  | sol
  | kvm
  | ider
  deriving DecidableEq, Repr

def buildSelector : Protocol → Bytes
  | .sol => [0x10, 0x00, 0x00, 0x00, 0x53, 0x4F, 0x4C, 0x20]
  | .kvm => [0x10, 0x01, 0x00, 0x00, 0x4B, 0x56, 0x4D, 0x52]
  | .ider => [0x10, 0x00, 0x00, 0x00, 0x49, 0x44, 0x45, 0x52]

/-- The status byte of a `0x11`. The cast in the parser admits every byte;
`other` is what the enumeration does not name. -/
inductive StartSessionStatus
  | success
  | busy
  | unsupported
  | unknownError
  | other (b : UInt8)
  deriving DecidableEq, Repr

def StartSessionStatus.ofByte (b : UInt8) : StartSessionStatus :=
  if b = 0 then .success
  else if b = 2 then .busy
  else if b = 3 then .unsupported
  else if b = 0xFF then .unknownError
  else .other b

structure StartSessionReply where
  status : StartSessionStatus
  oemData : Bytes
  deriving DecidableEq, Repr

def kStartReplyFixedSize : Nat := 13

def kAuthReplyFixedSize : Nat := 9

def tryParseStartSessionReply (buffer : Bytes) :
    Option (StartSessionReply × Nat) :=
  if buffer.length < 1 then none
  else if byteAt buffer 0 ≠ 0x11 then none
  else if buffer.length < kStartReplyFixedSize then none
  else
    let oemLen := byteAt buffer 12
    if buffer.length < kStartReplyFixedSize + oemLen then none
    else
      some (⟨.ofByte (buffer.getD 1 0),
          (buffer.drop kStartReplyFixedSize).take oemLen⟩,
        kStartReplyFixedSize + oemLen)

/-! ## The client's `0x13` frames -/

/-- `appendLp`: a length byte and the text. The source asserts that the text
is at most 255 bytes long and masks the length in a release build. -/
def lengthPrefixed (s : Bytes) : Bytes := UInt8.ofNat s.length :: s

def buildAuthFrame (type : UInt8) (authData : Bytes) : Bytes :=
  [0x13, 0x00, 0x00, 0x00, type] ++ pack32Le authData.length ++ authData

def buildAuthQuery : Bytes := buildAuthFrame 0 []

def buildDigestQuery (user authUri : Bytes) : Bytes :=
  buildAuthFrame 4 <|
    lengthPrefixed user ++ lengthPrefixed [] ++ lengthPrefixed [] ++
    lengthPrefixed authUri ++ lengthPrefixed [] ++ lengthPrefixed [] ++
    lengthPrefixed [] ++ lengthPrefixed []

def buildDigestResponse (user realm nonce authUri cnonce nc response
    qop : Bytes) : Bytes :=
  buildAuthFrame 4 <|
    lengthPrefixed user ++ lengthPrefixed realm ++ lengthPrefixed nonce ++
    lengthPrefixed authUri ++ lengthPrefixed cnonce ++ lengthPrefixed nc ++
    lengthPrefixed response ++ lengthPrefixed qop

/-! ## The device's `0x14` -/

structure AuthCapabilities where
  hasBasic : Bool := false
  hasKerberos : Bool := false
  hasDigestNoQop : Bool := false
  hasDigestWithQop : Bool := false
  deriving DecidableEq, Repr

structure AuthReply where
  status : UInt8
  authType : UInt8
  caps : AuthCapabilities
  realm : Bytes
  nonce : Bytes
  qop : Bytes
  deriving DecidableEq, Repr

def kAuthReplyMaxData : Nat := 64 * 1024

/-- The query body: one byte for each supported type. -/
def readCapabilities (data : Bytes) : AuthCapabilities :=
  { hasBasic := data.contains 1
    hasKerberos := data.contains 2
    hasDigestNoQop := data.contains 3
    hasDigestWithQop := data.contains 4 }

/-- `readLp`: one length-prefixed string, and what follows it. -/
def readLp : Bytes → Option (Bytes × Bytes)
  | [] => none
  | n :: rest =>
      if rest.length < n.toNat then none
      else some (fromUtf8 (rest.take n.toNat), rest.drop n.toNat)

/-- The challenge body, `<realm><nonce>[<qop>]`. A missing or truncated
realm or nonce refuses the frame; a missing qop stays empty. -/
def readChallenge (authType : UInt8) (data : Bytes) :
    Option (Bytes × Bytes × Bytes) := do
  let (realm, data) ← readLp data
  let (nonce, data) ← readLp data
  let qop :=
    if authType = 4 then ((readLp data).map Prod.fst).getD [] else []
  return (realm, nonce, qop)

def tryParseAuthReply (buffer : Bytes) : Option (AuthReply × Nat) :=
  if buffer.length < 1 then none
  else if byteAt buffer 0 ≠ 0x14 then none
  else if buffer.length < kAuthReplyFixedSize then none
  else
    let dataLen := read32Le buffer 5
    if dataLen > kAuthReplyMaxData then none
    else if buffer.length < kAuthReplyFixedSize + dataLen then none
    else
      let status := buffer.getD 1 0
      let authType := buffer.getD 4 0
      let data := (buffer.drop kAuthReplyFixedSize).take dataLen
      let consumed := kAuthReplyFixedSize + dataLen
      if authType = 0 then
        some (⟨status, authType, readCapabilities data, [], [], []⟩, consumed)
      else if (authType = 4 ∨ authType = 3) ∧ status = 1 then
        match readChallenge authType data with
        | none => none
        | some (realm, nonce, qop) =>
            some (⟨status, authType, {}, realm, nonce, qop⟩, consumed)
      else some (⟨status, authType, {}, [], [], []⟩, consumed)

/-- `computeDigest`, over whatever MD5 with lower-case hex output is. -/
def computeDigest (md5Hex : Bytes → Bytes)
    (user realm pass nonce nc cnonce qop authUri : Bytes) : Bytes :=
  let colon : Bytes := [0x3A]
  let ha1 := md5Hex (user ++ colon ++ realm ++ colon ++ pass)
  -- "POST:"
  let ha2 := md5Hex ([0x50, 0x4F, 0x53, 0x54, 0x3A] ++ authUri)
  md5Hex (ha1 ++ colon ++ nonce ++ colon ++ nc ++ colon ++ cnonce ++ colon ++
    qop ++ colon ++ ha2)

/-! ## What a parsed frame takes off the inbox -/

theorem tryParseStartSessionReply_consumed {b : Bytes}
    {r : StartSessionReply} {n : Nat}
    (h : tryParseStartSessionReply b = some (r, n)) :
    0 < n ∧ n ≤ b.length := by
  simp only [tryParseStartSessionReply] at h
  split at h
  · cases h
  · split at h
    · cases h
    · split at h
      · cases h
      · split at h
        · cases h
        · next hlen =>
            cases h
            exact ⟨by rw [kStartReplyFixedSize]; omega, by omega⟩

theorem tryParseAuthReply_consumed {b : Bytes} {r : AuthReply} {n : Nat}
    (h : tryParseAuthReply b = some (r, n)) : 0 < n ∧ n ≤ b.length := by
  simp only [tryParseAuthReply] at h
  split at h
  · cases h
  · split at h
    · cases h
    · split at h
      · cases h
      · split at h
        · cases h
        · split at h
          · cases h
          · next hlen =>
              have hn : n = kAuthReplyFixedSize + read32Le b 5 := by
                split at h
                · cases h; rfl
                · split at h
                  · split at h
                    · cases h
                    · cases h; rfl
                  · cases h; rfl
              subst hn
              exact ⟨by rw [kAuthReplyFixedSize]; omega, by omega⟩

end QuMesh.Redir
