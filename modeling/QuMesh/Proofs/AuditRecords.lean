import QuMesh.Wsman.AuditLog

/-!
# Records of the audit log

A record is laid out in order, and each field behind the initiator is read only
if all of it is there. So of a record that is cut off the fields are those of
the whole record as far as they go, `parseAuditRecord_take`, and the whole record
is what is left if nothing is cut off. A cut before the end of the initiator
leaves no entry.

Two things do not come back. A name or an address that begins with a byte order
mark loses it, as `QString::fromUtf8` takes it for the mark of the encoding; and
the domain of a Kerberos initiator is passed over.

That nothing is read outside of the record is said of a decoder that checks each
of its reads, `checkedRecord`: it never fails, and finds the same.
-/

namespace QuMesh.Wsman

open QuMesh.Lib

/-! ## Reads inside the record -/

/-- A byte of the record. -/
def checkedByte (raw : Bytes) (i : Nat) : Option Nat :=
  raw[i]?.map UInt8.toNat

/-- A number of bytes of the record. -/
def checkedSlice (raw : Bytes) (i n : Nat) : Option Bytes :=
  if i + n ≤ raw.length then some ((raw.drop i).take n) else none

def checkedU16 (raw : Bytes) (off : Nat) : Option Nat :=
  if off + 1 ≥ raw.length then some 0
  else do
    let high ← checkedByte raw off
    let low ← checkedByte raw (off + 1)
    return 2 ^ 8 * high + low

def checkedU32 (raw : Bytes) (off : Nat) : Option Nat :=
  if off + 3 ≥ raw.length then some 0
  else do
    let b0 ← checkedByte raw off
    let b1 ← checkedByte raw (off + 1)
    let b2 ← checkedByte raw (off + 2)
    let b3 ← checkedByte raw (off + 3)
    return 2 ^ 16 * (2 ^ 8 * b0 + b1) + (2 ^ 8 * b2 + b3)

/-- `parseInitiator`; nothing on the outside is a read outside the record. -/
def checkedInitiator (raw : Bytes) (initiatorType : Nat) :
    Option (Option (Text × Nat)) :=
  match initiatorType with
  | 0 =>
      if 5 ≥ raw.length then some none
      else do
        let userlen ← checkedByte raw 5
        if 6 + userlen > raw.length then return none
        let name ← checkedSlice raw 6 userlen
        return some (Text.ofUtf8 name, 6 + userlen)
  | 1 =>
      if 5 + 5 > raw.length then some none
      else do
        let userlen ← checkedByte raw 9
        if 10 + userlen > raw.length then return none
        let sid ← checkedSlice raw 10 userlen
        return some (Text.ofLatin1 (toHex sid), 10 + userlen)
  | _ => some (parseInitiator raw initiatorType)

/-- `parseAuditTail` -/
def checkedTail (raw : Bytes) (ptr : Nat) (out : AuditLogEntry) :
    Option AuditLogEntry := do
  if ptr + 4 > raw.length then return out
  let out := { out with unixSeconds := ← checkedU32 raw ptr }
  if ptr + 4 ≥ raw.length then return out
  let out := { out with mcLocationType := ← checkedByte raw (ptr + 4) }
  if ptr + 5 ≥ raw.length then return out
  let netlen ← checkedByte raw (ptr + 5)
  let ptr := ptr + 6
  if ptr + netlen > raw.length then return out
  let out :=
    { out with netAddress := Text.ofUtf8 (← checkedSlice raw ptr netlen) }
  let ptr := ptr + netlen
  if ptr ≥ raw.length then return out
  let exlen ← checkedByte raw ptr
  if ptr + 1 + exlen > raw.length then return out
  return { out with ex := ← checkedSlice raw (ptr + 1) exlen }

/-- `parseAuditRecord` -/
def checkedRecord (raw : Bytes) : Option (Option AuditLogEntry) := do
  if raw.length < 5 then return none
  let auditAppId ← checkedU16 raw 0
  let eventId ← checkedU16 raw 2
  let initiatorType ← checkedByte raw 4
  let eventLabel := auditLookup (auditAppId * 100 + eventId)
  match ← checkedInitiator raw initiatorType with
  | none => return none
  | some (initiator, ptr) =>
      return some (← checkedTail raw ptr
        { auditAppId
          eventId
          initiatorType
          auditAppLabel := auditLookup auditAppId
          eventLabel := if eventLabel = "" then s!"#{eventId}" else eventLabel
          initiator })

theorem checkedByte_eq {raw : Bytes} {i : Nat} (h : i < raw.length) :
    checkedByte raw i = some (byteAt raw i) := by
  rw [checkedByte, List.getElem?_eq_getElem h, Option.map_some, byteAt,
    List.getD_eq_getElem _ _ h]

theorem checkedSlice_eq {raw : Bytes} {i n : Nat} (h : i + n ≤ raw.length) :
    checkedSlice raw i n = some ((raw.drop i).take n) := if_pos h

theorem checkedU16_eq (raw : Bytes) (off : Nat) :
    checkedU16 raw off = some (readBeU16 raw off) := by
  unfold checkedU16 readBeU16
  split
  · rfl
  · rw [checkedByte_eq (by omega), checkedByte_eq (by omega)]
    rfl

theorem checkedU32_eq (raw : Bytes) (off : Nat) :
    checkedU32 raw off = some (readBeU32 raw off) := by
  unfold checkedU32 readBeU32
  split
  · rfl
  · rw [checkedByte_eq (by omega), checkedByte_eq (by omega),
      checkedByte_eq (by omega), checkedByte_eq (by omega)]
    rfl

theorem checkedInitiator_eq (raw : Bytes) (initiatorType : Nat) :
    checkedInitiator raw initiatorType =
      some (parseInitiator raw initiatorType) := by
  unfold checkedInitiator
  split
  · unfold parseInitiator
    split
    · rfl
    · rw [checkedByte_eq (by omega)]
      show (if _ then _ else _) = _
      dsimp only
      split
      · rfl
      · rw [checkedSlice_eq (by omega)]
        rfl
  · unfold parseInitiator
    split
    · rfl
    · rw [checkedByte_eq (by omega)]
      show (if _ then _ else _) = _
      dsimp only
      split
      · rfl
      · rw [checkedSlice_eq (by omega)]
        rfl
  · rfl

theorem checkedTail_eq (raw : Bytes) (ptr : Nat) (out : AuditLogEntry) :
    checkedTail raw ptr out = some (parseAuditTail raw ptr out) := by
  unfold checkedTail parseAuditTail
  split
  · rfl
  rw [checkedU32_eq]
  simp only [Option.bind_eq_bind, Option.bind_some, Option.pure_def]
  split
  · rfl
  rw [checkedByte_eq (by omega), Option.bind_some]
  split
  · rfl
  rw [checkedByte_eq (by omega), Option.bind_some]
  split
  · rfl
  rw [checkedSlice_eq (by omega), Option.bind_some]
  split
  · rfl
  rw [checkedByte_eq (by omega), Option.bind_some]
  split
  · rfl
  rw [checkedSlice_eq (by omega), Option.bind_some]

/-- No read is outside of the record. -/
theorem checkedRecord_eq (raw : Bytes) :
    checkedRecord raw = some (parseAuditRecord raw) := by
  unfold checkedRecord parseAuditRecord
  split
  · rfl
  rw [checkedU16_eq, checkedU16_eq, checkedByte_eq (by omega)]
  simp only [Option.bind_eq_bind, Option.bind_some, Option.pure_def,
    checkedInitiator_eq]
  cases parseInitiator raw (byteAt raw 4) with
  | none => rfl
  | some p =>
      dsimp only
      rw [checkedTail_eq]
      rfl

/-! ## How a record is laid out -/

inductive Initiator where
  | digest (name : Text)
  | kerberos (domain : UInt32) (sid : Bytes)
  | other (type : UInt8)
  deriving DecidableEq

namespace Initiator

def type : Initiator → UInt8
  | .digest _ => 0
  | .kerberos _ _ => 1
  | .other type => type

/-- What stands behind the type. -/
def bytes : Initiator → Bytes
  | .digest name => UInt8.ofNat name.utf8.length :: name.utf8
  | .kerberos domain sid =>
      pack32Be domain.toNat ++ UInt8.ofNat sid.length :: sid
  | .other _ => []

/-- What is shown of it. -/
def text : Initiator → Text
  | .digest name => name
  | .kerberos _ sid => Text.ofLatin1 (toHex sid)
  | .other type =>
      if type = 2 then Text.lit "Local"
      else if type = 3 then Text.lit "KVM Default Port"
      else
        let n := type.toNat
        Text.lit s!"Unknown initiator {n}"

structure WellFormed (i : Initiator) : Prop where
  digest : ∀ name, i = .digest name → name.utf8.length < 256
  kerberos : ∀ domain sid, i = .kerberos domain sid → sid.length < 256
  other : ∀ type, i = .other type → type ≠ 0 ∧ type ≠ 1

end Initiator

structure AuditRecord where
  auditAppId : UInt16
  eventId : UInt16
  initiator : Initiator
  unixSeconds : UInt32
  mcLocationType : UInt8
  netAddress : Text
  ex : Bytes
  deriving DecidableEq

namespace AuditRecord

structure WellFormed (r : AuditRecord) : Prop where
  initiator : r.initiator.WellFormed
  netAddress : r.netAddress.utf8.length < 256
  ex : r.ex.length < 256

/-- No text begins with a byte order mark. -/
structure Unmarked (r : AuditRecord) : Prop where
  initiator : ∀ name, r.initiator = .digest name → ¬name.Marked
  netAddress : ¬r.netAddress.Marked

/-- What stands behind the initiator. -/
def tail (r : AuditRecord) : Bytes :=
  pack32Be r.unixSeconds.toNat ++ r.mcLocationType ::
    UInt8.ofNat r.netAddress.utf8.length ::
      (r.netAddress.utf8 ++ UInt8.ofNat r.ex.length :: r.ex)

def head (r : AuditRecord) : Bytes :=
  pack16Be r.auditAppId.toNat ++ pack16Be r.eventId.toNat ++
    r.initiator.type :: r.initiator.bytes

def layout (r : AuditRecord) : Bytes := r.head ++ r.tail

/-- The entry for the whole record. -/
def entry (r : AuditRecord) : AuditLogEntry :=
  let auditAppId := r.auditAppId.toNat
  let eventId := r.eventId.toNat
  let eventLabel := auditLookup (auditAppId * 100 + eventId)
  { auditAppId
    eventId
    auditAppLabel := auditLookup auditAppId
    eventLabel := if eventLabel = "" then s!"#{eventId}" else eventLabel
    initiatorType := r.initiator.type.toNat
    initiator := r.initiator.text
    unixSeconds := r.unixSeconds.toNat
    mcLocationType := r.mcLocationType.toNat
    netAddress := r.netAddress
    ex := r.ex }

/-- The fields behind the initiator, of which there are `m` bytes. -/
def cutTail (r : AuditRecord) (m : Nat) (out : AuditLogEntry) :
    AuditLogEntry :=
  let net := r.netAddress.utf8.length
  { out with
    unixSeconds := if 4 ≤ m then r.unixSeconds.toNat else out.unixSeconds
    mcLocationType :=
      if 5 ≤ m then r.mcLocationType.toNat else out.mcLocationType
    netAddress := if 6 + net ≤ m then r.netAddress else out.netAddress
    ex := if 7 + net + r.ex.length ≤ m then r.ex else out.ex }

/-- The entry for the first `n` bytes of the record: none if they do not go
beyond the initiator, else the fields that are wholly among them. -/
def cut (r : AuditRecord) (n : Nat) : Option AuditLogEntry :=
  if n < r.head.length then none
  else
    some (r.cutTail (n - r.head.length) { r.entry with
      unixSeconds := 0
      mcLocationType := 0
      netAddress := Text.empty
      ex := [] })

/-! ## A record that is cut off -/

theorem toNat_length {n : Nat} (h : n < 256) : (UInt8.ofNat n).toNat = n :=
  UInt8.toNat_ofNat_of_lt' h

theorem tail_length (r : AuditRecord) :
    r.tail.length = 7 + r.netAddress.utf8.length + r.ex.length := by
  simp only [tail, pack32Be, pack16Be, List.length_append, List.length_cons,
    List.length_nil]
  omega

/-- The fields of the tail, where they stand. -/
structure Fields (r : AuditRecord) (b : Bytes) : Prop where
  unixSeconds : read32Be b 0 = r.unixSeconds.toNat
  mcLocationType : byteAt b 4 = r.mcLocationType.toNat
  netlen : byteAt b 5 = r.netAddress.utf8.length
  netAddress : (b.drop 6).take r.netAddress.utf8.length = r.netAddress.utf8
  exlen : byteAt b (6 + r.netAddress.utf8.length) = r.ex.length
  ex : (b.drop (7 + r.netAddress.utf8.length)).take r.ex.length = r.ex

theorem tail_fields {r : AuditRecord} (hr : r.WellFormed) :
    r.Fields r.tail := by
  have hfront : r.tail = (pack32Be r.unixSeconds.toNat ++
      [r.mcLocationType, UInt8.ofNat r.netAddress.utf8.length]) ++
        (r.netAddress.utf8 ++ UInt8.ofNat r.ex.length :: r.ex) := by
    simp [tail]
  have hback : r.tail = (pack32Be r.unixSeconds.toNat ++
      [r.mcLocationType, UInt8.ofNat r.netAddress.utf8.length] ++
        r.netAddress.utf8) ++ UInt8.ofNat r.ex.length :: r.ex := by
    simp [tail]
  have hsix : (pack32Be r.unixSeconds.toNat ++
      [r.mcLocationType, UInt8.ofNat r.netAddress.utf8.length]).length = 6 :=
    rfl
  have hback6 : (pack32Be r.unixSeconds.toNat ++
      [r.mcLocationType, UInt8.ofNat r.netAddress.utf8.length] ++
        r.netAddress.utf8).length = 6 + r.netAddress.utf8.length := by
    rw [List.length_append, hsix]
  refine ⟨?_, rfl, toNat_length hr.netAddress, ?_, ?_, ?_⟩
  · rw [tail, read32Be_pack]
    exact Nat.mod_eq_of_lt r.unixSeconds.toNat_lt
  · have h := slice_past (pack32Be r.unixSeconds.toNat ++
      [r.mcLocationType, UInt8.ofNat r.netAddress.utf8.length])
      (r.netAddress.utf8 ++ UInt8.ofNat r.ex.length :: r.ex) 0
      r.netAddress.utf8.length
    rw [← hfront, hsix] at h
    rw [h, List.drop_zero, List.take_left]
  · have h := byteAt_past (pack32Be r.unixSeconds.toNat ++
      [r.mcLocationType, UInt8.ofNat r.netAddress.utf8.length] ++
        r.netAddress.utf8) (UInt8.ofNat r.ex.length :: r.ex) 0
    rw [← hback, hback6] at h
    exact h.trans (toNat_length hr.ex)
  · have h := slice_past (pack32Be r.unixSeconds.toNat ++
      [r.mcLocationType, UInt8.ofNat r.netAddress.utf8.length] ++
        r.netAddress.utf8) (UInt8.ofNat r.ex.length :: r.ex) 1 r.ex.length
    rw [← hback, hback6] at h
    have hseven : 7 + r.netAddress.utf8.length =
        6 + r.netAddress.utf8.length + 1 := by omega
    rw [hseven, h, List.drop_one, List.tail_cons, List.take_length]

/-- What stands behind the initiator is read as far as it goes. -/
theorem parseAuditTail_take {r : AuditRecord} (hr : r.WellFormed)
    (hmark : r.Unmarked) (b : Bytes) (m : Nat) (out : AuditLogEntry) :
    parseAuditTail (b ++ r.tail.take m) b.length out = r.cutTail m out := by
  have hlength : (b ++ r.tail.take m).length =
      b.length + min m (7 + r.netAddress.utf8.length + r.ex.length) := by
    rw [List.length_append, List.length_take, tail_length]
  have hbyte : ∀ off < m, byteAt (b ++ r.tail.take m) (b.length + off) =
      byteAt r.tail off := by
    intro off hoff
    rw [byteAt_past, byteAt_take hoff]
  have hslice : ∀ off k, off + k ≤ m →
      ((b ++ r.tail.take m).drop (b.length + off)).take k =
        (r.tail.drop off).take k := by
    intro off k h
    rw [slice_past, slice_take h]
  obtain ⟨hunix, hmc, hnetlen, hnet, hexlen, hex⟩ := tail_fields hr
  have hnetText : Text.ofUtf8 r.netAddress.utf8 = r.netAddress :=
    Text.ofUtf8_utf8 hmark.netAddress
  have hseconds : 4 ≤ m → read32Be (b ++ r.tail.take m) b.length =
      r.unixSeconds.toNat := by
    intro hm
    have hzero := hbyte 0 (by omega)
    rw [Nat.add_zero] at hzero
    rw [← hunix, read32Be_eq, read32Be_eq, hzero, hbyte 1 (by omega),
      hbyte 2 (by omega), hbyte 3 (by omega)]
  generalize b ++ r.tail.take m = raw at hlength hbyte hslice hseconds ⊢
  unfold parseAuditTail readBeU32 cutTail
  dsimp only
  by_cases h4 : 4 ≤ m
  · rw [if_neg (show ¬b.length + 4 > raw.length by omega),
      if_neg (show ¬b.length + 3 ≥ raw.length by omega), hseconds h4,
      if_pos h4]
    by_cases h5 : 5 ≤ m
    · rw [if_neg (show ¬b.length + 4 ≥ raw.length by omega), hbyte 4 (by omega),
        hmc, if_pos h5]
      by_cases h6 : 6 ≤ m
      · rw [if_neg (show ¬b.length + 5 ≥ raw.length by omega),
          hbyte 5 (by omega), hnetlen]
        by_cases hn : 6 + r.netAddress.utf8.length ≤ m
        · rw [if_neg (show ¬b.length + 6 + r.netAddress.utf8.length >
              raw.length by omega), hslice 6 _ hn, hnet, hnetText, if_pos hn]
          have hptr : b.length + 6 + r.netAddress.utf8.length =
              b.length + (6 + r.netAddress.utf8.length) := by omega
          rw [hptr]
          by_cases h7 : 7 + r.netAddress.utf8.length ≤ m
          · rw [if_neg (show ¬b.length + (6 + r.netAddress.utf8.length) ≥
                raw.length by omega), hbyte _ (by omega), hexlen]
            have hnext : b.length + (6 + r.netAddress.utf8.length) + 1 =
                b.length + (7 + r.netAddress.utf8.length) := by omega
            rw [hnext]
            by_cases he : 7 + r.netAddress.utf8.length + r.ex.length ≤ m
            · rw [if_neg (show ¬b.length + (7 + r.netAddress.utf8.length) +
                  r.ex.length > raw.length by omega), hslice _ _ he, hex,
                if_pos he]
            · rw [if_pos (show b.length + (7 + r.netAddress.utf8.length) +
                  r.ex.length > raw.length by omega), if_neg he]
          · rw [if_pos (show b.length + (6 + r.netAddress.utf8.length) ≥
                raw.length by omega), if_neg (by omega)]
        · rw [if_pos (show b.length + 6 + r.netAddress.utf8.length >
              raw.length by omega), if_neg hn, if_neg (by omega)]
      · rw [if_pos (show b.length + 5 ≥ raw.length by omega),
          if_neg (show ¬6 + r.netAddress.utf8.length ≤ m by omega),
          if_neg (by omega)]
    · rw [if_pos (show b.length + 4 ≥ raw.length by omega), if_neg h5,
        if_neg (show ¬6 + r.netAddress.utf8.length ≤ m by omega),
        if_neg (by omega)]
  · rw [if_pos (show b.length + 4 > raw.length by omega), if_neg h4,
      if_neg (show ¬5 ≤ m by omega),
      if_neg (show ¬6 + r.netAddress.utf8.length ≤ m by omega),
      if_neg (by omega)]

theorem head_length (r : AuditRecord) :
    r.head.length = 5 + r.initiator.bytes.length := by
  simp only [head, pack16Be, List.length_append, List.length_cons,
    List.length_nil]
  omega

theorem layout_length (r : AuditRecord) :
    r.layout.length = 5 + r.initiator.bytes.length + r.tail.length := by
  rw [layout, List.length_append, head_length]

/-- The initiator stands behind five bytes. -/
theorem layout_initiator (r : AuditRecord) : r.layout =
    (pack16Be r.auditAppId.toNat ++ pack16Be r.eventId.toNat ++
      [r.initiator.type]) ++ (r.initiator.bytes ++ r.tail) := by
  simp [layout, head]

/-- What stands in the initiator. -/
theorem slice_initiator (r : AuditRecord) (off : Nat) {k n : Nat}
    (hk : off + k ≤ r.initiator.bytes.length) (hn : 5 + off + k ≤ n) :
    ((r.layout.take n).drop (5 + off)).take k =
      (r.initiator.bytes.drop off).take k := by
  have hfive : (pack16Be r.auditAppId.toNat ++ pack16Be r.eventId.toNat ++
      [r.initiator.type]).length = 5 := rfl
  have h := slice_past (pack16Be r.auditAppId.toNat ++
    pack16Be r.eventId.toNat ++ [r.initiator.type])
    (r.initiator.bytes ++ r.tail) off k
  rw [← layout_initiator, hfive] at h
  rw [slice_take hn, h, List.drop_append_of_le_length (by omega),
    List.take_append_of_le_length (by rw [List.length_drop]; omega)]

theorem byteAt_initiator (r : AuditRecord) (off : Nat) {n : Nat}
    (hoff : off < r.initiator.bytes.length) (hn : 5 + off < n) :
    byteAt (r.layout.take n) (5 + off) = byteAt r.initiator.bytes off := by
  have h := byteAt_past (pack16Be r.auditAppId.toNat ++
    pack16Be r.eventId.toNat ++ [r.initiator.type])
    (r.initiator.bytes ++ r.tail) off
  rw [← layout_initiator] at h
  rw [byteAt_take hn]
  exact h.trans (byteAt_append hoff _)

/-- The initiator is read if all of it is there. -/
theorem parseInitiator_take {r : AuditRecord} (hr : r.WellFormed)
    (hmark : r.Unmarked) {n : Nat} (hn : 5 ≤ n) :
    parseInitiator (r.layout.take n) r.initiator.type.toNat =
      if n < r.head.length then none
      else some (r.initiator.text, r.head.length) := by
  have hlength : (r.layout.take n).length =
      min n (5 + r.initiator.bytes.length + r.tail.length) := by
    rw [List.length_take, layout_length]
  have htail := tail_length r
  have hbyte := r.byteAt_initiator
  have hslice := r.slice_initiator
  rw [head_length]
  generalize hraw : r.layout.take n = raw at hlength ⊢
  cases hinitiator : r.initiator with
  | digest name =>
      have hname := toNat_length (hr.initiator.digest name hinitiator)
      rw [hinitiator] at hlength hbyte hslice
      have hbytes : (Initiator.digest name).bytes.length =
          1 + name.utf8.length := by
        rw [Initiator.bytes, List.length_cons]
        omega
      rw [hbytes] at hlength ⊢
      show (if 5 ≥ raw.length then none else _) = _
      by_cases h6 : 6 ≤ n
      · have hlen : byteAt raw 5 = name.utf8.length := by
          rw [← hraw]
          exact (hbyte 0 (by omega) (by omega)).trans hname
        rw [if_neg (show ¬5 ≥ raw.length by omega), hlen]
        by_cases hall : 6 + name.utf8.length ≤ n
        · have hslice' : (raw.drop 6).take name.utf8.length = name.utf8 := by
            rw [← hraw]
            refine (hslice 1 (by omega) (by omega)).trans ?_
            exact List.take_length
          have htext : Text.ofUtf8 name.utf8 = name :=
            Text.ofUtf8_utf8 (hmark.initiator name hinitiator)
          have hsum : 5 + (1 + name.utf8.length) = 6 + name.utf8.length := by
            omega
          rw [if_neg (show ¬6 + name.utf8.length > raw.length by omega),
            hslice', htext, hsum, if_neg (by omega)]
          rfl
        · rw [if_pos (show 6 + name.utf8.length > raw.length by omega),
            if_pos (by omega)]
      · rw [if_pos (show 5 ≥ raw.length by omega), if_pos (by omega)]
  | kerberos domain sid =>
      have hsid := toNat_length (hr.initiator.kerberos domain sid hinitiator)
      rw [hinitiator] at hlength hbyte hslice
      have hbytes : (Initiator.kerberos domain sid).bytes.length =
          5 + sid.length := by
        rw [Initiator.bytes, List.length_append, List.length_cons]
        show 4 + _ = _
        omega
      rw [hbytes] at hlength ⊢
      show (if 5 + 5 > raw.length then none else _) = _
      by_cases h10 : 10 ≤ n
      · have hlen : byteAt raw 9 = sid.length := by
          rw [← hraw]
          exact (hbyte 4 (by omega) (by omega)).trans hsid
        rw [if_neg (show ¬5 + 5 > raw.length by omega), hlen]
        by_cases hall : 10 + sid.length ≤ n
        · have hslice' : (raw.drop 10).take sid.length = sid := by
            rw [← hraw]
            refine (hslice 5 (by omega) (by omega)).trans ?_
            exact List.take_length
          have hsum : 5 + (5 + sid.length) = 10 + sid.length := by omega
          rw [if_neg (show ¬10 + sid.length > raw.length by omega), hslice',
            hsum, if_neg (by omega)]
          rfl
        · rw [if_pos (show 10 + sid.length > raw.length by omega),
            if_pos (by omega)]
      · rw [if_pos (show 5 + 5 > raw.length by omega), if_pos (by omega)]
  | other type =>
      obtain ⟨h0, h1⟩ := hr.initiator.other type hinitiator
      rw [if_neg (by simp only [Initiator.bytes, List.length_nil]; omega)]
      have htype : (Initiator.other type).type.toNat = type.toNat := rfl
      have hne (k : UInt8) (hk : type ≠ k) : type.toNat ≠ k.toNat :=
        fun h => hk (UInt8.toNat_inj.mp h)
      rw [htype, parseInitiator.eq_def]
      split
      · next h => exact absurd h (hne 0 h0)
      · next h => exact absurd h (hne 1 h1)
      · next h =>
        have htwo : type = 2 := UInt8.toNat_inj.mp h
        rw [htwo]
        rfl
      · next h =>
        have hthree : type = 3 := UInt8.toNat_inj.mp h
        rw [hthree]
        rfl
      · next h2 h3 =>
        have hne2 : type ≠ 2 := fun h => h2 (by rw [h]; rfl)
        have hne3 : type ≠ 3 := fun h => h3 (by rw [h]; rfl)
        rw [Initiator.text, if_neg hne2, if_neg hne3]
        rfl

/-- A record that is cut off. -/
theorem parseAuditRecord_cut {r : AuditRecord} (hr : r.WellFormed)
    (hmark : r.Unmarked) (n : Nat) :
    parseAuditRecord (r.layout.take n) = r.cut n := by
  have hhead := head_length r
  have htail := tail_length r
  have hlength : (r.layout.take n).length = min n (r.layout.length) :=
    List.length_take
  rw [layout_length] at hlength
  unfold parseAuditRecord cut
  by_cases h5 : 5 ≤ n
  · have happ : readBeU16 (r.layout.take n) 0 = r.auditAppId.toNat := by
      rw [readBeU16, if_neg (show ¬0 + 1 ≥ (r.layout.take n).length by omega),
        read16Be, byteAt_take (by omega), byteAt_take (by omega)]
      exact (read16Be_pack r.auditAppId.toNat _).trans
        (Nat.mod_eq_of_lt r.auditAppId.toNat_lt)
    have hevent : readBeU16 (r.layout.take n) 2 = r.eventId.toNat := by
      rw [readBeU16, if_neg (show ¬2 + 1 ≥ (r.layout.take n).length by omega),
        read16Be, byteAt_take (by omega), byteAt_take (by omega)]
      exact (read16Be_pack r.eventId.toNat
        (r.initiator.type :: r.initiator.bytes ++ r.tail)).trans
          (Nat.mod_eq_of_lt r.eventId.toNat_lt)
    have htype : byteAt (r.layout.take n) 4 = r.initiator.type.toNat := by
      rw [byteAt_take (by omega)]
      rfl
    rw [if_neg (show ¬(r.layout.take n).length < 5 by omega)]
    dsimp only
    rw [happ, hevent, htype, parseInitiator_take hr hmark h5]
    by_cases hn : n < r.head.length
    · rw [if_pos hn, if_pos hn]
    · rw [if_neg hn, if_neg hn]
      have hsplit : r.layout.take n =
          r.head ++ r.tail.take (n - r.head.length) := by
        rw [layout, List.take_append, List.take_of_length_le (by omega)]
      dsimp only
      rw [hsplit, parseAuditTail_take hr hmark]
      rfl
  · rw [if_pos (show (r.layout.take n).length < 5 by omega),
      if_pos (by omega)]

theorem cut_all (r : AuditRecord) : r.cut r.layout.length = some r.entry := by
  have hhead := head_length r
  have htail := tail_length r
  have hlength := layout_length r
  unfold cut cutTail
  rw [if_neg (by omega)]
  dsimp only
  rw [if_pos (by omega), if_pos (by omega), if_pos (by omega),
    if_pos (by omega)]
  rfl

end AuditRecord

/-- No read is outside of the record; a record is read as it was laid out; and
what is left of one that is cut off is read as far as it goes. -/
theorem parseAuditRecord_take :
    (∀ raw, checkedRecord raw = some (parseAuditRecord raw)) ∧
      ∀ r : AuditRecord, r.WellFormed → r.Unmarked →
        parseAuditRecord r.layout = some r.entry ∧
          ∀ n, parseAuditRecord (r.layout.take n) = r.cut n := by
  refine ⟨checkedRecord_eq, fun r hr hmark => ⟨?_, fun n => ?_⟩⟩
  · have hall := AuditRecord.parseAuditRecord_cut hr hmark r.layout.length
    rwa [List.take_length, AuditRecord.cut_all] at hall
  · exact AuditRecord.parseAuditRecord_cut hr hmark n

/-- A record of a login under this name. -/
def loginRecord (name : Text) : AuditRecord where
  auditAppId := 16
  eventId := 4
  initiator := .digest name
  unixSeconds := 1700000000
  mcLocationType := 1
  netAddress := Text.lit "10.0.0.2"
  ex := [1, 2, 3]

theorem loginRecord_wellFormed {name : Text} (h : name.utf8.length < 256) :
    (loginRecord name).WellFormed := by
  have haddress : (Text.lit "10.0.0.2").utf8.length < 256 := by decide
  have hex : ([1, 2, 3] : Bytes).length < 256 := by decide
  refine ⟨⟨?_, nofun, nofun⟩, haddress, hex⟩
  rintro _ ⟨rfl⟩
  exact h

/-- Twelve bytes of a record of the admin. -/
theorem parseAuditRecord_take_admin :
    checkedRecord [] = some (parseAuditRecord []) ∧
      parseAuditRecord (loginRecord (Text.lit "admin")).layout =
          some (loginRecord (Text.lit "admin")).entry ∧
        parseAuditRecord ((loginRecord (Text.lit "admin")).layout.take 12) =
          (loginRecord (Text.lit "admin")).cut 12 := by
  have hmark : (loginRecord (Text.lit "admin")).Unmarked := by
    refine ⟨?_, by decide⟩
    rintro _ ⟨rfl⟩
    decide
  have h := parseAuditRecord_take.2 (loginRecord (Text.lit "admin"))
    (loginRecord_wellFormed (by decide)) hmark
  exact ⟨parseAuditRecord_take.1 [], h.1, h.2 12⟩

/-- A name that begins with a byte order mark loses it; and two bytes of a
record are no entry, though the initiator is not cut. -/
theorem parseAuditRecord_marked :
    let name := Text.append ⟨byteOrderMark, by decide⟩ (Text.lit "admin")
    let r := loginRecord name
    r.WellFormed ∧ parseAuditRecord r.layout ≠ some r.entry ∧
      (parseAuditRecord r.layout).map (·.initiator) =
          some (Text.lit "admin") ∧
        parseAuditRecord (r.layout.take 2) = none := by
  refine ⟨loginRecord_wellFormed (by decide), by decide,
    by decide, by decide⟩

end QuMesh.Wsman
