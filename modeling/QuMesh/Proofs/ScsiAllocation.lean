import QuMesh.Proofs.ScsiCompletion

/-!
# The allocation length of a SCSI command

Six commands say how many bytes of their reply the host has room for. Two of
their handlers cut the reply to that, but answer a length of zero with eight
bytes; four do not look at the length at all. So a reply keeps to it just if it
would have fitted anyhow, or if one of the two cuts it.

`fullReply` is what a command is answered with where there is room for all of
it, and nothing where the handler has an error instead.
-/

namespace QuMesh.Ider

open QuMesh.Lib

/-- The bytes a frame carries to the host. -/
def Effect.data? : Effect → Option Bytes
  | .wrote (.sendDataToHost _ _ _ data _) _ => some data
  | _ => none

/-- The commands that carry an allocation length. -/
def allocating : List UInt8 :=
  [kModeSense6, kModeSense10, kReadToc, kGetConfiguration, kGetEventStatus,
    kReadFormatCapacities]

def opcode (cdb : Bytes) : UInt8 := cdb.getD 0 0

/-- Byte 4 of MODE SENSE(6), bytes 7 and 8 of the others. -/
def allocation (cdb : Bytes) : Nat :=
  if opcode cdb = kModeSense6 then byteAt cdb 4 else read16Be cdb 7

namespace Session

/-- What was sent to the host on the way from `s` to `d`. -/
def dataSent (s d : Session) : List Bytes :=
  (d.out.drop s.out.length).filterMap Effect.data?

/-! ## The full replies -/

def fullModeSense6 (cdb : Bytes) (dev : UInt8) (s : Session) : Option Bytes :=
  if cdb.getD 2 0 = 0x3F ∧ cdb.getD 3 0 = 0x00 then
    if dev = kDeviceCdRom then
      if s.isoFile.isNone then none else some [0x00, 0x05, 0x80, 0x00]
    else none
  else none

def fullModeSense10 (cdb : Bytes) (dev : UInt8) : Option Bytes :=
  let r := modeSensePage dev (cdb.getD 2 0 &&& 0x3F)
  if r.isEmpty then none else some r

def fullReadToc (cdb : Bytes) (dev : UInt8) : Option Bytes :=
  if dev ≠ kDeviceCdRom then none
  else
    let msf := cdb.getD 1 0 &&& 0x02 ≠ 0
    let format := cdb.getD 2 0 &&& 0x07
    let format :=
      if format = 0 ∧ cdb.length > 9 then cdb.getD 9 0 >>> 6 else format
    if format = 1 then some tocSingleTrack
    else if format = 0 then some (if msf then tocMsf else tocLba)
    else none

def fullGetConfiguration (cdb : Bytes) : Bytes :=
  let sendAll := cdb.getD 1 0 != 2
  let firstCode := read16Be cdb 2
  let body := pack32Be 0x00000008 ++
    (if firstCode = 0 then configProfileList else []) ++
    featureBlock sendAll firstCode 0x1 configCore ++
    featureBlock sendAll firstCode 0x2 configMorphing ++
    featureBlock sendAll firstCode 0x3 configRemovable ++
    featureBlock sendAll firstCode 0x10 configRandom ++
    featureBlock sendAll firstCode 0x1E configRead ++
    featureBlock sendAll firstCode 0x100 configPowerManagement ++
    featureBlock sendAll firstCode 0x105 configTimeout
  pack32Be body.length ++ body

def fullGetEventStatus (cdb : Bytes) (dev : UInt8) (s : Session) :
    Option Bytes :=
  if cdb.getD 1 0 ≠ 0x01 ∧ cdb.getD 4 0 ≠ 0x10 then none
  else
    some [0x00, if dev = kDeviceCdRom ∧ s.isoFile.isSome then 0x02 else 0x00,
      0x80, 0x00]

def fullReadFormatCapacities (dev : UInt8) (s : Session) : Option Bytes :=
  if dev ≠ kDeviceCdRom ∨ s.isoFile.isNone ∨ s.isoSize = 0 then none
  else
    some [0x00, 0x00, 0x00, 0x08, 0x00, 0x00, 0x0B, 0x40, 0x02, 0x00, 0x02, 0x00]

def fullReply (cmd : ScsiCommand) (s : Session) : Option Bytes :=
  let cdb := cmd.cdb
  let dev := device cmd
  if opcode cdb = kModeSense6 then s.fullModeSense6 cdb dev
  else if opcode cdb = kModeSense10 then fullModeSense10 cdb dev
  else if opcode cdb = kReadToc then fullReadToc cdb dev
  else if opcode cdb = kGetConfiguration then some (fullGetConfiguration cdb)
  else if opcode cdb = kGetEventStatus then s.fullGetEventStatus cdb dev
  else s.fullReadFormatCapacities dev

/-- Everything sent in reply keeps to the allocation length, and it is the front
of the full reply. -/
def Respects (env : Env) (cmd : ScsiCommand) (s : Session) : Prop :=
  ∀ data ∈ s.dataSent (s.handleScsi env cmd),
    data.length ≤ allocation cmd.cdb ∧
      ∃ full, s.fullReply cmd = some full ∧ data <+: full

/-- MODE SENSE(10) and GET CONFIGURATION are given room for something, the
others for all there is. -/
def Fits (cmd : ScsiCommand) (s : Session) : Prop :=
  if opcode cmd.cdb = kModeSense10 ∨ opcode cmd.cdb = kGetConfiguration then
    allocation cmd.cdb ≠ 0
  else
    ∀ full, s.fullReply cmd = some full → full.length ≤ allocation cmd.cdb

/-! ## What the handlers send -/

theorem dataSent_append {s d : Session} {new : List Effect}
    (h : d.out = s.out ++ new) : s.dataSent d = new.filterMap Effect.data? := by
  rw [dataSent, h, List.drop_left]

theorem fail_data (reason : String) (s : Session) :
    ∃ new, (s.fail reason).out = s.out ++ new ∧
      new.filterMap Effect.data? = [] := by
  rw [Session.fail]
  dsimp only
  split
  · exact ⟨[.enabledChanged false, .closed reason], by simp [Session.emit], rfl⟩
  · exact ⟨[.closed reason], rfl, rfl⟩

theorem writeFrame_data (env : Env) (frame : Frame) (s : Session) :
    ∃ new, (s.writeFrame env frame).out = s.out ++ new ∧
      new.filterMap Effect.data? = (Effect.data? (.wrote frame 1)).toList := by
  have hframe (result : Int) : [Effect.wrote frame result].filterMap
      Effect.data? = (Effect.data? (.wrote frame 1)).toList := by
    cases frame <;> rfl
  rw [Session.writeFrame]
  dsimp only
  generalize hu : ({ s with writes := s.writes + 1 } : Session).emit
    (.wrote frame (env.writeRaw s.writes frame.bytes)) = u
  have hout : u.out =
      s.out ++ [.wrote frame (env.writeRaw s.writes frame.bytes)] := by
    rw [← hu]
    rfl
  split
  · obtain ⟨new, hnew, hnone⟩ :=
      fail_data s!"write failed: {env.lastError u.writes}" u
    refine ⟨[.wrote frame (env.writeRaw s.writes frame.bytes)] ++ new, ?_, ?_⟩
    · rw [hnew, hout, List.append_assoc]
    · rw [List.filterMap_append, hnone, List.append_nil, hframe]
  · refine ⟨[.wrote frame (env.writeRaw s.writes frame.bytes)] ++
      [.statsChanged (u.bytesSentToAmt + frame.bytes.length)
        u.bytesReceivedFromAmt], ?_, ?_⟩
    · rw [← List.append_assoc, ← hout]
      rfl
    · rw [List.filterMap_append, hframe]
      exact List.append_nil _

/-- A frame's data, whether or not its write succeeds. -/
theorem dataSent_writeNumbered (env : Env) (frame : Nat → Frame) (s : Session) :
    s.dataSent (s.writeNumbered env frame) =
      (Effect.data? (.wrote (frame s.outSequence) 1)).toList := by
  obtain ⟨new, hnew, hdata⟩ := writeFrame_data env (frame s.outSequence)
    { s with outSequence := (s.outSequence + 1) % 2 ^ 32 }
  exact (dataSent_append (s := s) hnew).trans hdata

/-- From `s` to `d` one frame was written, with this data or with none. -/
def Sends (s d : Session) (data : Option Bytes) : Prop :=
  s.dataSent d = data.toList

theorem sends_data (env : Env) (dev : UInt8) (data : Bytes) (dma : Bool)
    (s : Session) : s.Sends (s.sendData env dev true data dma) (some data) :=
  dataSent_writeNumbered env _ s

theorem sends_error (env : Env) (dev sense asc asq : UInt8) (s : Session) :
    s.Sends (s.sendError env dev sense asc asq) none :=
  dataSent_writeNumbered env _ s

theorem Sends.ite {c : Prop} [Decidable c] {s a b : Session}
    {x y : Option Bytes} (ha : s.Sends a x) (hb : s.Sends b y) :
    s.Sends (if c then a else b) (if c then x else y) := by
  split
  · exact ha
  · exact hb

section

variable (env : Env) {cdb : Bytes} (dev fr : UInt8) (s : Session)

theorem sends_modeSense6 (h : 4 ≤ cdb.length) :
    s.Sends (s.scsiModeSense6 env cdb dev fr) (s.fullModeSense6 cdb dev) := by
  rw [scsiModeSense6, if_neg (by omega)]
  exact .ite (.ite (.ite (sends_error ..) (sends_data ..)) (sends_error ..))
    (sends_error ..)

/-- What a length of zero is answered with. -/
def zeroReply : Bytes := pack32Be 0x003C0000 ++ pack32Be 0x00000008

theorem sends_modeSense10 (h : 8 ≤ cdb.length) :
    s.Sends (s.scsiModeSense10 env cdb dev fr)
      (if read16Be cdb 7 = 0 then some zeroReply
        else (fullModeSense10 cdb dev).map (·.take (read16Be cdb 7))) := by
  rw [scsiModeSense10, if_neg (by omega)]
  refine .ite (sends_data ..) ?_
  unfold fullModeSense10
  dsimp only
  split
  · exact sends_error ..
  · exact sends_data ..

theorem sends_readToc :
    s.Sends (s.scsiReadToc env cdb dev fr) (fullReadToc cdb dev) := by
  rw [scsiReadToc]
  exact .ite (sends_error ..)
    (.ite (sends_data ..) (.ite (sends_data ..) (sends_error ..)))

theorem sends_getConfiguration (h : 9 ≤ cdb.length) :
    s.Sends (s.scsiGetConfiguration env cdb dev fr)
      (if read16Be cdb 7 = 0 then some zeroReply
        else some ((fullGetConfiguration cdb).take (read16Be cdb 7))) := by
  rw [scsiGetConfiguration, if_neg (by omega)]
  exact .ite (sends_data ..) (sends_data ..)

theorem sends_getEventStatus (h : 10 ≤ cdb.length) :
    s.Sends (s.scsiGetEventStatus env cdb dev fr)
      (s.fullGetEventStatus cdb dev) := by
  rw [scsiGetEventStatus, fullGetEventStatus]
  by_cases hbad : cdb.getD 1 0 ≠ 0x01 ∧ cdb.getD 4 0 ≠ 0x10
  · rw [if_pos (.inr hbad), if_pos hbad]
    exact sends_error ..
  · rw [if_neg (not_or.mpr ⟨by omega, hbad⟩), if_neg hbad]
    exact sends_data ..

theorem sends_readFormatCapacities :
    s.Sends (s.scsiReadFormatCapacities env dev fr)
      (s.fullReadFormatCapacities dev) := by
  rw [scsiReadFormatCapacities]
  exact .ite (sends_error ..) (sends_data ..)

end

/-- What a command is answered with: the two that cut their reply, and the four
that do not. -/
def reply (cmd : ScsiCommand) (s : Session) : Option Bytes :=
  if opcode cmd.cdb = kModeSense10 ∨ opcode cmd.cdb = kGetConfiguration then
    if allocation cmd.cdb = 0 then some zeroReply
    else (s.fullReply cmd).map (·.take (allocation cmd.cdb))
  else s.fullReply cmd

theorem sends_reply (env : Env) {cmd : ScsiCommand} (s : Session)
    (hcdb : cmd.cdb.length = 12) (hop : opcode cmd.cdb ∈ allocating) :
    s.Sends (s.handleScsi env cmd) (s.reply cmd) := by
  obtain ⟨op, rest, hcons⟩ : ∃ op rest, cmd.cdb = op :: rest :=
    List.exists_cons_of_length_eq_add_one hcdb
  have hopcode : opcode cmd.cdb = op := by
    rw [hcons]
    rfl
  rw [hopcode] at hop
  simp only [allocating, List.mem_cons, List.not_mem_nil, or_false] at hop
  unfold reply fullReply allocation handleScsi
  rw [hopcode]
  rw [hcons] at hcdb ⊢
  rcases hop with rfl | rfl | rfl | rfl | rfl | rfl
  · exact sends_modeSense6 env _ _ s (by omega)
  · exact sends_modeSense10 env _ _ s (by omega)
  · exact sends_readToc env _ _ s
  · exact sends_getConfiguration env _ _ s (by omega)
  · exact sends_getEventStatus env _ _ s (by omega)
  · exact sends_readFormatCapacities env _ _ s

/-- A reply keeps to the allocation length just if there is room for all of it,
or if its handler cuts it and there is room for something. -/
theorem allocation_respected_iff (env : Env) {cmd : ScsiCommand} (s : Session)
    (hcdb : cmd.cdb.length = 12) (hop : opcode cmd.cdb ∈ allocating) :
    s.Respects env cmd ↔ s.Fits cmd := by
  have hsends := sends_reply env s hcdb hop
  unfold Sends at hsends
  unfold Respects Fits
  rw [hsends, reply]
  split
  · by_cases hzero : allocation cmd.cdb = 0
    · rw [if_pos hzero, hzero]
      refine iff_of_false (fun hall => ?_) fun h => h rfl
      have hlength := (hall zeroReply (by simp)).1
      revert hlength
      decide
    · rw [if_neg hzero]
      refine iff_of_true ?_ hzero
      intro data hdata
      rw [Option.mem_toList, Option.map_eq_some_iff] at hdata
      obtain ⟨full, hfull, rfl⟩ := hdata
      exact ⟨by rw [List.length_take]; omega, full, hfull, List.take_prefix _ _⟩
  · constructor
    · intro hall full hfull
      exact (hall full (by rw [hfull]; simp)).1
    · intro hfits data hdata
      have hfull := Option.mem_toList.mp hdata
      exact ⟨hfits data hfull, data, hfull, List.prefix_refl data⟩

end Session

/-- READ TOC of the CD-ROM, with room for so many bytes. -/
def readToc (room : UInt8) : ScsiCommand where
  deviceFlags := 0x10
  cdb := [kReadToc, 0, 0, 0, 0, 0, 0, 0, room, 0, 0, 0]

theorem readToc_room :
    ({} : Session).Respects .plain (readToc 20) :=
  (Session.allocation_respected_iff .plain {} rfl (by decide)).mpr (by
    intro full hfull
    cases hfull
    decide)

/-- Room for the header alone, and all of the table is sent. -/
theorem readToc_overrun :
    ¬({} : Session).Respects .plain (readToc 4) := by
  intro hall
  have hsent := @Session.sends_reply .plain (readToc 4) {} rfl (by decide)
  have hlength := (hall Session.tocLba (by rw [hsent]; decide)).1
  revert hlength
  decide

end QuMesh.Ider
