import QuMesh.Lib.Text
import QuMesh.Redir.Codec

/-!
# What the device reads out of a digest response

The client answers a challenge with the realm and the nonce it was sent. Both
went through text on the way: bytes that are not UTF-8 were mended, and a mark
at the front was dropped. A field that was mended is up to three times as long,
its length byte wraps, and the device reads something else from there on.

A field comes back as it was sent just if it reads as itself, `field_iff`. The
one thing to rule out is that a wrapped length gives back the field by accident:
it would then be the front of the text it was mended to, and bytes at the front
of what they are read as have hardly grown.
-/

namespace QuMesh.Redir

open QuMesh.Lib

/-! ## The device's reading -/

/-- The fields of a body, up to its end. A round takes a byte at least. -/
def readFieldsLoop : Nat → Bytes → Option (List Bytes)
  | _, [] => some []
  | 0, _ :: _ => none
  | fuel + 1, n :: rest =>
      if rest.length < n.toNat then none
      else
        (readFieldsLoop fuel (rest.drop n.toNat)).map (rest.take n.toNat :: ·)

def readFields (data : Bytes) : Option (List Bytes) :=
  readFieldsLoop data.length data

/-- The fields of a `0x13` frame, up to its `dataLen`. -/
def frameFields (frame : Bytes) : Option (List Bytes) :=
  if frame.length < 9 then none
  else
    let dataLen := read32Le frame 5
    if frame.length < 9 + dataLen then none
    else readFields ((frame.drop 9).take dataLen)

theorem readFieldsLoop_fuel {fuel : Nat} {data : Bytes}
    (h : data.length ≤ fuel) : readFieldsLoop fuel data = readFields data := by
  have hany : ∀ (fuel fuel' : Nat) (data : Bytes), data.length ≤ fuel →
      data.length ≤ fuel' → readFieldsLoop fuel data = readFieldsLoop fuel' data := by
    intro fuel
    induction fuel with
    | zero =>
        intro fuel' data h h'
        rw [List.length_eq_zero_iff.mp (Nat.le_zero.mp h)]
        cases fuel' <;> rfl
    | succ fuel ih =>
        intro fuel' data h h'
        cases data with
        | nil => cases fuel' <;> rfl
        | cons n rest =>
            cases fuel' with
            | zero => simp at h'
            | succ fuel' =>
                rw [List.length_cons] at h h'
                have hdrop : (rest.drop n.toNat).length ≤ rest.length := by
                  rw [List.length_drop]
                  omega
                rw [readFieldsLoop, readFieldsLoop,
                  ih fuel' (rest.drop n.toNat) (by omega) (by omega)]
  exact hany fuel data.length data h (Nat.le_refl _)

theorem readFields_cons (n : UInt8) (rest : Bytes) :
    readFields (n :: rest) =
      if rest.length < n.toNat then none
      else (readFields (rest.drop n.toNat)).map (rest.take n.toNat :: ·) := by
  have hdrop : (rest.drop n.toNat).length ≤ rest.length := by
    rw [List.length_drop]
    omega
  rw [readFields, List.length_cons, readFieldsLoop, readFieldsLoop_fuel hdrop]

/-- A field that its length byte can tell. -/
theorem readFields_field {s : Bytes} (hs : s.length ≤ 255) (rest : Bytes) :
    readFields (lengthPrefixed s ++ rest) =
      (readFields rest).map (s :: ·) := by
  have hn : (UInt8.ofNat s.length).toNat = s.length := by
    rw [UInt8.toNat_ofNat']
    omega
  rw [lengthPrefixed, List.cons_append, readFields_cons, hn, List.length_append,
    if_neg (by omega), List.drop_left, List.take_left]

theorem cons_iff {o : Option (List Bytes)} {f : Bytes} {fs : List Bytes} :
    o.map (f :: ·) = some (f :: fs) ↔ o = some fs := by
  cases o with
  | none => simp
  | some l => simp

/-- A field that was read before it is written comes back just if it reads as
itself. -/
theorem field_iff {raw : Bytes} (hraw : raw.length ≤ 255) (rest : Bytes)
    (fs : List Bytes) :
    readFields (lengthPrefixed (fromUtf8 raw) ++ rest) = some (raw :: fs) ↔
      fromUtf8 raw = raw ∧ readFields rest = some fs := by
  by_cases hsame : fromUtf8 raw = raw
  · rw [hsame, readFields_field hraw, cons_iff]
    simp
  · refine iff_of_false (fun hread => ?_) fun h => hsame h.1
    by_cases hfits : (fromUtf8 raw).length ≤ 255
    · rw [readFields_field hfits] at hread
      obtain ⟨l, -, hl⟩ := Option.map_eq_some_iff.mp hread
      exact hsame (List.cons.inj hl).1
    · -- The length wraps, and what is read is the front of the text.
      have hn : (UInt8.ofNat (fromUtf8 raw).length).toNat =
          (fromUtf8 raw).length % 256 := UInt8.toNat_ofNat'
      rw [lengthPrefixed, List.cons_append, readFields_cons, hn,
        List.length_append, if_neg (by omega)] at hread
      obtain ⟨l, -, hl⟩ := Option.map_eq_some_iff.mp hread
      have hfront : (fromUtf8 raw).take ((fromUtf8 raw).length % 256) = raw := by
        have hhead := (List.cons.inj hl).1
        rwa [List.take_append_of_le_length (by omega)] at hhead
      have hgrown := length_fromUtf8_prefix
        (hfront ▸ List.take_prefix _ (fromUtf8 raw))
      have hlength := congrArg List.length hfront
      rw [List.length_take] at hlength
      omega

/-- The last field is whole just if its length byte can tell. -/
theorem last_field_iff (q : Bytes) :
    readFields (lengthPrefixed q) = some [q] ↔ q.length ≤ 255 := by
  constructor
  · intro hread
    by_contra hlong
    have hn : (UInt8.ofNat q.length).toNat = q.length % 256 := UInt8.toNat_ofNat'
    rw [lengthPrefixed, readFields_cons, hn, if_neg (by omega)] at hread
    obtain ⟨l, -, hl⟩ := Option.map_eq_some_iff.mp hread
    have hlength := congrArg List.length (List.cons.inj hl).1
    rw [List.length_take] at hlength
    omega
  · intro hq
    have hfield := readFields_field hq []
    rw [List.append_nil] at hfield
    rw [hfield]
    rfl

/-! ## What the device sent -/

/-- `readLp`, before the bytes are text. -/
def sentLp : Bytes → Option (Bytes × Bytes)
  | [] => none
  | n :: rest =>
      if rest.length < n.toNat then none
      else some (rest.take n.toNat, rest.drop n.toNat)

/-- Realm, nonce and qop as they were sent; a qop that is not there is empty. -/
def sentChallenge (authType : UInt8) (data : Bytes) :
    Option (Bytes × Bytes × Bytes) := do
  let (realm, data) ← sentLp data
  let (nonce, data) ← sentLp data
  let qop :=
    if authType = 4 then ((sentLp data).map Prod.fst).getD [] else []
  return (realm, nonce, qop)

theorem readLp_sent (data : Bytes) :
    readLp data = (sentLp data).map fun p => (fromUtf8 p.1, p.2) := by
  cases data with
  | nil => rfl
  | cons n rest =>
      rw [readLp, sentLp]
      split <;> rfl

theorem sentLp_length {data s rest : Bytes} (h : sentLp data = some (s, rest)) :
    s.length ≤ 255 := by
  cases data with
  | nil => cases h
  | cons n tail =>
      rw [sentLp] at h
      split at h
      · cases h
      · cases h
        have hn : n.toNat < 256 := n.toNat_lt
        rw [List.length_take]
        omega

theorem readChallenge_sent (authType : UInt8) (data : Bytes) :
    readChallenge authType data = (sentChallenge authType data).map fun p =>
      (fromUtf8 p.1, fromUtf8 p.2.1, fromUtf8 p.2.2) := by
  unfold readChallenge sentChallenge
  rw [readLp_sent]
  cases sentLp data with
  | none => rfl
  | some p =>
      obtain ⟨realm, data⟩ := p
      simp only [Option.map_some, Option.bind_eq_bind, Option.bind_some]
      rw [readLp_sent]
      cases sentLp data with
      | none => rfl
      | some q =>
          obtain ⟨nonce, data⟩ := q
          simp only [Option.map_some, Option.bind_some]
          rw [readLp_sent]
          split
          · cases sentLp data <;> rfl
          · rfl

/-- The three of a whole `0x14` frame. -/
def sentFields (buffer : Bytes) : Option (Bytes × Bytes × Bytes) :=
  sentChallenge (buffer.getD 4 0)
    ((buffer.drop kAuthReplyFixedSize).take (read32Le buffer 5))

/-- The qop the client answers with: "auth" where it was sent none. -/
def qopInUse (reply : AuthReply) : Bytes :=
  if reply.qop.isEmpty then [0x61, 0x75, 0x74, 0x68] else reply.qop

theorem challenge_sent {buffer : Bytes} {reply : AuthReply} {n : Nat}
    (h : tryParseAuthReply buffer = some (reply, n))
    (hchallenge : (reply.authType = 4 ∨ reply.authType = 3) ∧ reply.status = 1) :
    ∃ realm nonce qop, sentFields buffer = some (realm, nonce, qop) ∧
      reply.realm = fromUtf8 realm ∧ reply.nonce = fromUtf8 nonce ∧
      reply.qop = fromUtf8 qop := by
  unfold tryParseAuthReply at h
  dsimp only at h
  repeat' first
    | (cases h; done)
    | (split at h)
  next hquery =>
    cases h
    obtain ⟨h4 | h3, -⟩ := hchallenge
    · exact absurd (hquery.symm.trans h4) (by decide)
    · exact absurd (hquery.symm.trans h3) (by decide)
  next hkind realm nonce qop hread =>
    cases h
    rw [readChallenge_sent] at hread
    obtain ⟨⟨realm', nonce', qop'⟩, hsent, hfields⟩ :=
      Option.map_eq_some_iff.mp hread
    cases hfields
    exact ⟨realm', nonce', qop', hsent, rfl, rfl, rfl⟩
  next hother =>
    cases h
    exact absurd hchallenge hother

theorem sentFields_length {buffer realm nonce qop : Bytes}
    (h : sentFields buffer = some (realm, nonce, qop)) :
    realm.length ≤ 255 ∧ nonce.length ≤ 255 ∧ qop.length ≤ 255 := by
  unfold sentFields sentChallenge at h
  obtain ⟨⟨realm', rest⟩, hrealm, h⟩ := Option.bind_eq_some_iff.mp h
  obtain ⟨⟨nonce', rest'⟩, hnonce, h⟩ := Option.bind_eq_some_iff.mp h
  cases h
  refine ⟨sentLp_length hrealm, sentLp_length hnonce, ?_⟩
  split
  · cases hqop : sentLp rest' with
    | none => simp
    | some p => exact sentLp_length hqop
  · simp

/-! ## The frame -/

theorem frameFields_built {data : Bytes} (hdata : data.length < 2 ^ 32)
    (type : UInt8) : frameFields (buildAuthFrame type data) = readFields data := by
  have hlen : (pack32Le data.length).length = 4 := rfl
  have hread : read32Le (buildAuthFrame type data) 5 = data.length := by
    have hpast := read32Le_past [0x13, 0x00, 0x00, 0x00, type]
      (pack32Le data.length ++ data) 0
    rw [read32Le_pack, Nat.mod_eq_of_lt hdata, ← List.append_assoc] at hpast
    exact hpast
  have hdrop : (buildAuthFrame type data).drop 9 = data := rfl
  have htotal : (buildAuthFrame type data).length = 9 + data.length := by
    rw [buildAuthFrame, List.length_append, List.length_append, hlen]
    rfl
  unfold frameFields
  dsimp only
  rw [hread, hdrop, htotal, if_neg (by omega), if_neg (by omega),
    List.take_length]

/-- The device reads the eight fields back, with the realm and the nonce it
sent, just if those two read as themselves and the qop as text is short enough
for its length byte. -/
theorem response_fields_iff {buffer : Bytes} {reply : AuthReply} {n : Nat}
    (hparse : tryParseAuthReply buffer = some (reply, n))
    (hchallenge : (reply.authType = 4 ∨ reply.authType = 3) ∧ reply.status = 1)
    {user authUri cnonce nc response : Bytes} (huser : user.length ≤ 255)
    (huri : authUri.length ≤ 255) (hcnonce : cnonce.length ≤ 255)
    (hnc : nc.length ≤ 255) (hresponse : response.length ≤ 255) :
    ∃ realm nonce qop, sentFields buffer = some (realm, nonce, qop) ∧
      (frameFields (buildDigestResponse user reply.realm reply.nonce authUri
          cnonce nc response (qopInUse reply)) =
          some [user, realm, nonce, authUri, cnonce, nc, response,
            qopInUse reply] ↔
        fromUtf8 realm = realm ∧ fromUtf8 nonce = nonce ∧
          (fromUtf8 qop).length ≤ 255) := by
  obtain ⟨realm, nonce, qop, hsent, hrealm, hnonce, hqop⟩ :=
    challenge_sent hparse hchallenge
  obtain ⟨hrealm255, hnonce255, hqop255⟩ := sentFields_length hsent
  have hrealm3 := length_fromUtf8_le realm
  have hnonce3 := length_fromUtf8_le nonce
  have hqop3 := length_fromUtf8_le qop
  have huse : (qopInUse reply).length ≤ 765 ∧
      ((qopInUse reply).length ≤ 255 ↔ (fromUtf8 qop).length ≤ 255) := by
    unfold qopInUse
    rw [hqop]
    split
    next hempty =>
      rw [List.isEmpty_iff.mp hempty]
      decide
    next => omega
  refine ⟨realm, nonce, qop, hsent, ?_⟩
  unfold buildDigestResponse
  rw [frameFields_built, hrealm, hnonce]
  · simp only [List.append_assoc]
    rw [readFields_field huser, cons_iff, field_iff hrealm255,
      field_iff hnonce255, readFields_field huri, cons_iff,
      readFields_field hcnonce, cons_iff, readFields_field hnc, cons_iff,
      readFields_field hresponse, cons_iff, last_field_iff, huse.2]
  · simp only [lengthPrefixed, List.length_append, List.length_cons, hrealm,
      hnonce]
    omega

/-- A challenge with a realm of one byte, the nonce "n" and the qop "auth". -/
def shortChallenge (realm : UInt8) : Bytes :=
  [0x14, 1, 0, 0, 4, 9, 0, 0, 0, 1, realm, 1, 0x6E, 4, 0x61, 0x75, 0x74, 0x68]

theorem response_fields_plain :
    frameFields (buildDigestResponse [0x61] [0x72] [0x6E] [0x2F] [0x63] [0x31]
        [0x64] [0x61, 0x75, 0x74, 0x68]) =
      some [[0x61], [0x72], [0x6E], [0x2F], [0x63], [0x31], [0x64],
        [0x61, 0x75, 0x74, 0x68]] := by
  obtain ⟨realm, nonce, qop, hsent, hiff⟩ :=
    @response_fields_iff (shortChallenge 0x72)
      ⟨1, 4, {}, [0x72], [0x6E], [0x61, 0x75, 0x74, 0x68]⟩ 18 (by decide)
      (by decide) [0x61] [0x2F] [0x63] [0x31] [0x64] (by decide) (by decide)
      (by decide) (by decide) (by decide)
  have hfields : sentFields (shortChallenge 0x72) =
      some ([0x72], [0x6E], [0x61, 0x75, 0x74, 0x68]) := by decide
  rw [hfields] at hsent
  cases hsent
  exact hiff.mpr (by decide)

/-- A realm that is no UTF-8 is answered with U+FFFD. -/
theorem response_fields_mended :
    tryParseAuthReply (shortChallenge 0xFF) =
        some (⟨1, 4, {}, [0xEF, 0xBF, 0xBD], [0x6E], [0x61, 0x75, 0x74, 0x68]⟩,
          18) ∧
      sentFields (shortChallenge 0xFF) =
        some ([0xFF], [0x6E], [0x61, 0x75, 0x74, 0x68]) ∧
      frameFields (buildDigestResponse [0x61] [0xEF, 0xBF, 0xBD] [0x6E] [0x2F]
          [0x63] [0x31] [0x64] [0x61, 0x75, 0x74, 0x68]) ≠
        some [[0x61], [0xFF], [0x6E], [0x2F], [0x63], [0x31], [0x64],
          [0x61, 0x75, 0x74, 0x68]] := by
  decide

end QuMesh.Redir
