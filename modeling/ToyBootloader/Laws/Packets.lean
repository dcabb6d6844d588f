import ToyBootloader.Laws.Footprint
import ToyBootloader.Memory.Fields
import ToyBootloader.Resumption.Trace

/-!
# Command packets

The driver's commands pack their parameters into the bytes the controller reads.
`decode` is the controller's side: the command from the lower five bits of the
first byte, the modifier flags from its upper three, the parameters from where the
command has them. It undoes the packing of eleven commands, so nothing is lost on
the way and no two calls look alike.

FIX DRIVE DATA is the twelfth, and it does lose something: one of its parameters is
not in its packet.
-/

namespace ToyBootloader

open Resumption Code Memory

/-! ## Calls -/

/-- A call of one of the driver's commands, with its parameters. -/
inductive Call where
  | readtrack (p : FpyCmdReadtrackParams)
  | writeSector (p : FpyCmdWriteSectorParams)
  | readSector (p : FpyCmdReadSectorParams)
  | writeDeletedSector (p : FpyCmdWriteSectorParams)
  | readDeletedSector (p : FpyCmdReadSectorParams)
  | checkDriveStatus (p : FpyCmdHeadParam)
  | calibrateDrive (p : FpyCmdHeadParam)
  | readSectorId (p : FpyCmdHeadParam)
  | seekHead (p : FpyCmdSeekHeadParams)
  | configure (p : FpyCmdConfigureParams)
  | checkInterrupt
  deriving DecidableEq, Repr

namespace Call

/-- The function that is called; what it returns does not matter here. -/
def code : Call → Code Unit
  | .readtrack p => do let _ ← fpyCmdReadtrack p
  | .writeSector p => do let _ ← fpyCmdWriteSector p
  | .readSector p => do let _ ← fpyCmdReadSector p
  | .writeDeletedSector p => do let _ ← fpyCmdWriteDeletedSector p
  | .readDeletedSector p => do let _ ← fpyCmdReadDeletedSector p
  | .checkDriveStatus p => do let _ ← fpyCmdCheckDriveStatus p
  | .calibrateDrive p => do let _ ← fpyCmdCalibrateDrive p
  | .readSectorId p => do let _ ← fpyCmdReadSectorId p
  | .seekHead p => do let _ ← fpyCmdSeekHead p
  | .configure p => do let _ ← fpyCmdConfigure p
  | .checkInterrupt => do let _ ← fpyCmdCheckInterrupt

/-- The array it sends. -/
def cmd : Call → List UInt8
  | .readtrack p => p.cmd
  | .writeSector p => p.cmd .writeSect
  | .readSector p => p.cmd .readSect
  | .writeDeletedSector p => p.cmd .writeDeletedSect
  | .readDeletedSector p => p.cmd .readDeletedSect
  | .checkDriveStatus p => [FpyCmd.checkStat.val, driveHead p.drive p.headNumber]
  | .calibrateDrive p => [FpyCmd.calibrate.val, driveHead p.drive p.headNumber]
  | .readSectorId p => readSectorIdCmd p
  | .seekHead p => p.cmd
  | .configure p => p.cmd
  | .checkInterrupt => [FpyCmd.checkInt.val]

/-- The command it is. -/
def opcode : Call → FpyCmd
  | .readtrack _ => .readTrack
  | .writeSector _ => .writeSect
  | .readSector _ => .readSect
  | .writeDeletedSector _ => .writeDeletedSect
  | .readDeletedSector _ => .readDeletedSect
  | .checkDriveStatus _ => .checkStat
  | .calibrateDrive _ => .calibrate
  | .readSectorId _ => .readSectorId
  | .seekHead _ => .seek
  | .configure _ => .configure
  | .checkInterrupt => .checkInt

/-- The parameters are in the ranges of the hardware's fields: two bits of a drive, one
of a head, and a threshold of 1 to 16. A byte is in its range. -/
def InRange : Call → Prop
  | .readtrack p => p.drive < 4 ∧ p.headNumber < 2
  | .writeSector p | .writeDeletedSector p => p.drive < 4 ∧ p.headNumber < 2
  | .readSector p | .readDeletedSector p => p.drive < 4 ∧ p.headNumber < 2
  | .checkDriveStatus p | .calibrateDrive p | .readSectorId p => p.drive < 4 ∧ p.headNumber < 2
  | .seekHead p => p.drive < 4 ∧ p.headNumber < 2
  | .configure p => 1 ≤ p.tresholdVal ∧ p.tresholdVal ≤ 16
  | .checkInterrupt => True

end Call

/-! ## The controller's side -/

/-- The commands that are decoded. -/
def commands : List FpyCmd :=
  [.readTrack, .writeSect, .readSect, .writeDeletedSect, .readDeletedSect, .checkStat, .calibrate,
    .readSectorId, .seek, .configure, .checkInt]

/-- The command of a first byte, by its lower five bits. -/
def commandOf (b : UInt8) : Option FpyCmd := commands.find? fun op => op.val = b &&& 0x1f

/-- A modifier flag of a first byte, or another flag of a byte. -/
def flagSet (b mask : UInt8) : Bool := b &&& mask ≠ 0

/-- The drive and the head of a byte that holds both. -/
def driveOf (b : UInt8) : UInt8 := b &&& 3
def headOf (b : UInt8) : UInt8 := (b >>> 2) &&& 1

/-- The eight bytes behind a data transfer's first. -/
structure Operands where
  driveHead : UInt8
  cylinder : UInt8
  head : UInt8
  sector : UInt8
  sectorSize : UInt8
  trackLength : UInt8
  lengthOfGap3 : UInt8
  dataLength : UInt8

def operands : List UInt8 → Option Operands
  | [driveHead, cylinder, head, sector, sectorSize, trackLength, lengthOfGap3, dataLength] =>
    some ⟨driveHead, cylinder, head, sector, sectorSize, trackLength, lengthOfGap3, dataLength⟩
  | _ => none

namespace Operands

/-- The parameters of READ TRACK, with the flags of the first byte. -/
def readtrack (o : Operands) (b : UInt8) : FpyCmdReadtrackParams where
  drive := driveOf o.driveHead
  doubleDensity := flagSet b 0x40
  skipMode := flagSet b 0x20
  headNumber := headOf o.driveHead
  cylinder := o.cylinder
  head := o.head
  sector := o.sector
  sectorSize := o.sectorSize
  trackLength := o.trackLength
  lengthOfGap3 := o.lengthOfGap3
  dataLength := o.dataLength

/-- Those of the two writes. -/
def writeSector (o : Operands) (b : UInt8) : FpyCmdWriteSectorParams where
  drive := driveOf o.driveHead
  doubleDensity := flagSet b 0x40
  multitrack := flagSet b 0x80
  headNumber := headOf o.driveHead
  cylinder := o.cylinder
  head := o.head
  sector := o.sector
  sectorSize := o.sectorSize
  trackLength := o.trackLength
  lengthOfGap3 := o.lengthOfGap3
  dataLength := o.dataLength

/-- Those of the two reads. -/
def readSector (o : Operands) (b : UInt8) : FpyCmdReadSectorParams where
  drive := driveOf o.driveHead
  doubleDensity := flagSet b 0x40
  multitrack := flagSet b 0x80
  skipMode := flagSet b 0x20
  headNumber := headOf o.driveHead
  cylinder := o.cylinder
  head := o.head
  sector := o.sector
  sectorSize := o.sectorSize
  trackLength := o.trackLength
  lengthOfGap3 := o.lengthOfGap3
  dataLength := o.dataLength

end Operands

/-- The drive and the head of a packet of two bytes. -/
def headParam : List UInt8 → Option FpyCmdHeadParam
  | [d] => some ⟨driveOf d, headOf d⟩
  | _ => none

/-- The parameters of SEEK. -/
def seekParams : List UInt8 → Option FpyCmdSeekHeadParams
  | [d, cylinder] => some ⟨driveOf d, headOf d, cylinder⟩
  | _ => none

/-- The parameters of CONFIGURE; its second byte is not used. -/
def configureParams : List UInt8 → Option FpyCmdConfigureParams
  | [_, b, precompVal] =>
    some ⟨flagSet b 0x40, flagSet b 0x20, flagSet b 0x10, (b &&& 0xf) + 1, precompVal⟩
  | _ => none

/-- The parameters of a command, from its packet. -/
def decodeAs (b : UInt8) (rest : List UInt8) : FpyCmd → Option Call
  | .readTrack => (operands rest).map fun o => .readtrack (o.readtrack b)
  | .writeSect => (operands rest).map fun o => .writeSector (o.writeSector b)
  | .readSect => (operands rest).map fun o => .readSector (o.readSector b)
  | .writeDeletedSect => (operands rest).map fun o => .writeDeletedSector (o.writeSector b)
  | .readDeletedSect => (operands rest).map fun o => .readDeletedSector (o.readSector b)
  | .checkStat => (headParam rest).map .checkDriveStatus
  | .calibrate => (headParam rest).map .calibrateDrive
  | .readSectorId => (headParam rest).map .readSectorId
  | .seek => (seekParams rest).map .seekHead
  | .configure => (configureParams rest).map .configure
  | .checkInt => if rest = [] then some .checkInterrupt else none
  | _ => none

/-- A packet taken apart. -/
def decode : List UInt8 → Option Call
  | [] => none
  | b :: rest => (commandOf b).bind (decodeAs b rest)

/-! ## Bytes -/

/-- A byte of four drives and two heads gives both back. -/
theorem driveHead_decodes {drive head : UInt8} (hd : drive < 4) (hh : head < 2) :
    driveOf (driveHead drive head) = drive ∧ headOf (driveHead drive head) = head := by
  refine forall_byte_lt (k := 2) head hh ?_
  exact forall_byte_lt (k := 4) drive hd (by decide)

/-- No flag meets a bit of the opcode, nor another flag. -/
theorem first_readSector : ∀ op ∈ [FpyCmd.readSect, .readDeletedSect], ∀ density multitrack skip,
    let b := op.val ||| ext density FPY_CMD_EXT_DENSITY ||| ext multitrack FPY_CMD_EXT_MULTITRACK
      ||| ext skip FPY_CMD_EXT_SKIP
    commandOf b = some op ∧ flagSet b 0x40 = density ∧ flagSet b 0x80 = multitrack ∧
      flagSet b 0x20 = skip := by
  decide

theorem first_writeSector : ∀ op ∈ [FpyCmd.writeSect, .writeDeletedSect], ∀ density multitrack,
    let b := op.val ||| ext density FPY_CMD_EXT_DENSITY ||| ext multitrack FPY_CMD_EXT_MULTITRACK
    commandOf b = some op ∧ flagSet b 0x40 = density ∧ flagSet b 0x80 = multitrack := by
  decide

theorem first_readtrack : ∀ density skip,
    let b := FpyCmd.readTrack.val ||| ext density FPY_CMD_EXT_DENSITY ||| ext skip FPY_CMD_EXT_SKIP
    commandOf b = some .readTrack ∧ flagSet b 0x40 = density ∧ flagSet b 0x20 = skip := by
  decide

/-- The third byte of CONFIGURE: the threshold less one, and a flag in each of the three
bits above it. -/
theorem third_configure {treshold : UInt8} (h : 1 ≤ treshold ∧ treshold ≤ 16)
    (polling fifo seek : Bool) :
    let b := (treshold - (1 : UInt8)) ||| (ext polling 1 <<< (4 : UInt8))
      ||| (ext fifo 1 <<< (5 : UInt8)) ||| (ext seek 1 <<< (6 : UInt8))
    flagSet b 0x40 = seek ∧ flagSet b 0x20 = fifo ∧ flagSet b 0x10 = polling ∧
      (b &&& 0xf) + 1 = treshold := by
  obtain ⟨low, high⟩ := h
  revert low polling fifo seek
  exact forall_byte_lt (k := 17) treshold (Nat.lt_succ_of_le high) (by decide +kernel)

/-- Opcodes differ in their lower five bits. -/
theorem commandOf_val : ∀ op, op ∈ commands → commandOf op.val = some op := by
  decide

/-- The first byte names the command, whatever its flags. -/
theorem commandOf_cmd (c : Call) : commandOf (c.cmd.headD 0) = some c.opcode := by
  cases c with
  | readtrack p => exact (first_readtrack p.doubleDensity p.skipMode).1
  | writeSector p => exact (first_writeSector .writeSect (by decide) p.doubleDensity p.multitrack).1
  | readSector p =>
    exact (first_readSector .readSect (by decide) p.doubleDensity p.multitrack p.skipMode).1
  | writeDeletedSector p =>
    exact (first_writeSector .writeDeletedSect (by decide) p.doubleDensity p.multitrack).1
  | readDeletedSector p =>
    exact (first_readSector .readDeletedSect (by decide) p.doubleDensity p.multitrack p.skipMode).1
  | checkDriveStatus p => exact commandOf_val .checkStat (by decide)
  | calibrateDrive p => exact commandOf_val .calibrate (by decide)
  | readSectorId p => exact commandOf_val .readSectorId (by decide)
  | seekHead p => exact commandOf_val .seek (by decide)
  | configure p => exact commandOf_val .configure (by decide)
  | checkInterrupt => exact commandOf_val .checkInt (by decide)

/-- A first byte of a command says which way the rest is taken. -/
theorem decode_of_commandOf {b : UInt8} {op : FpyCmd} (h : commandOf b = some op)
    (rest : List UInt8) : decode (b :: rest) = decodeAs b rest op := by
  rw [decode, h]
  rfl

/-- THE DECODING undoes the packing. -/
theorem decode_cmd (c : Call) (h : c.InRange) : decode c.cmd = some c := by
  cases c with
  | readtrack p =>
    obtain ⟨hd, hh⟩ := driveHead_decodes h.1 h.2
    obtain ⟨op, density, skip⟩ := first_readtrack p.doubleDensity p.skipMode
    apply (decode_of_commandOf op _).trans
    simp only [decodeAs, operands, Operands.readtrack, Option.map_some, density, skip, hd, hh]
  | writeSector p =>
    obtain ⟨hd, hh⟩ := driveHead_decodes h.1 h.2
    obtain ⟨op, density, multitrack⟩ :=
      first_writeSector .writeSect (by decide) p.doubleDensity p.multitrack
    apply (decode_of_commandOf op _).trans
    simp only [decodeAs, operands, Operands.writeSector, Option.map_some, density, multitrack, hd, hh]
  | readSector p =>
    obtain ⟨hd, hh⟩ := driveHead_decodes h.1 h.2
    obtain ⟨op, density, multitrack, skip⟩ :=
      first_readSector .readSect (by decide) p.doubleDensity p.multitrack p.skipMode
    apply (decode_of_commandOf op _).trans
    simp only [decodeAs, operands, Operands.readSector, Option.map_some, density, multitrack, skip,
      hd, hh]
  | writeDeletedSector p =>
    obtain ⟨hd, hh⟩ := driveHead_decodes h.1 h.2
    obtain ⟨op, density, multitrack⟩ :=
      first_writeSector .writeDeletedSect (by decide) p.doubleDensity p.multitrack
    apply (decode_of_commandOf op _).trans
    simp only [decodeAs, operands, Operands.writeSector, Option.map_some, density, multitrack, hd, hh]
  | readDeletedSector p =>
    obtain ⟨hd, hh⟩ := driveHead_decodes h.1 h.2
    obtain ⟨op, density, multitrack, skip⟩ :=
      first_readSector .readDeletedSect (by decide) p.doubleDensity p.multitrack p.skipMode
    apply (decode_of_commandOf op _).trans
    simp only [decodeAs, operands, Operands.readSector, Option.map_some, density, multitrack, skip,
      hd, hh]
  | checkDriveStatus p | calibrateDrive p | readSectorId p =>
    obtain ⟨hd, hh⟩ := driveHead_decodes h.1 h.2
    apply (decode_of_commandOf (commandOf_val _ (by decide)) _).trans
    simp only [decodeAs, headParam, Option.map_some, hd, hh]
  | seekHead p =>
    obtain ⟨hd, hh⟩ := driveHead_decodes h.1 h.2
    apply (decode_of_commandOf (commandOf_val _ (by decide)) _).trans
    simp only [decodeAs, seekParams, Option.map_some, hd, hh]
  | configure p =>
    obtain ⟨seek, fifo, polling, treshold⟩ :=
      third_configure h p.drivePollingDisable p.fifoDisable p.impliedSeekEnable
    apply (decode_of_commandOf (commandOf_val _ (by decide)) _).trans
    simp only [decodeAs, configureParams, Option.map_some, seek, fifo, polling, treshold]
  | checkInterrupt => rfl

/-! ## What a call puts in the FIFO -/

/-- What is seen at the FIFO: its bytes, and that a command's last one is out. -/
inductive FifoEvent where
  | byte (b : UInt8)
  | sent
  deriving DecidableEq, Repr

/-- The events of an operation. -/
def Op.fifo : Op → List FifoEvent
  | .outb port b => if port = FPY_FIFO then [.byte b] else []
  | .mark (.sent none) => [.sent]
  | _ => []

/-- The bytes of a trace. -/
def fifoBytes (t : List FifoEvent) : List UInt8 :=
  t.filterMap fun
    | .byte b => some b
    | .sent => none

/-- The command is sent, or an error cuts it short. -/
def Sends (cmd : List UInt8) (t : List FifoEvent) : Prop :=
  t = cmd.map .byte ++ [.sent] ∨ ∃ bs, bs <+: cmd ∧ t = bs.map .byte

theorem fifoBytes_map (bs : List UInt8) : fifoBytes (bs.map .byte) = bs := by
  unfold fifoBytes
  rw [List.filterMap_map]
  exact List.filterMap_some

theorem fifoBytes_of_sends {cmd : List UInt8} {t : List FifoEvent} (h : Sends cmd t)
    (sent : .sent ∈ t) : fifoBytes t = cmd := by
  rcases h with rfl | ⟨bs, -, rfl⟩
  · unfold fifoBytes
    rw [List.filterMap_append]
    exact (List.append_nil _).trans (fifoBytes_map cmd)
  · obtain ⟨b, -, hb⟩ := List.mem_map.mp sent
    cases hb

/-- Operations that are not seen there. -/
abbrev Silent {α : Type} (p : Code α) : Prop := Only (S := ops) (fun op : Op => op.fifo = []) p

theorem silent_of_input {op : Op} (h : op.isInput) : op.fifo = [] := by
  cases op with
  | inb port => rfl
  | _ => cases h

theorem silent_of_wait {op : Op} (h : op.isWait) : op.fifo = [] := by
  cases op with
  | received | testReceived | setReceived r => rfl
  | _ => cases h

theorem silent_fpyReadData : Silent fpyReadData := input_fpyReadData.mono fun _ => silent_of_input

theorem emits_fpySendCommandByteLoop (b : UInt8) (n : Nat) :
    Emits Op.fifo (fpySendCommandByteLoop b n)
      fun e u => e = noErr ∧ u = [.byte b] ∨ e ≠ noErr ∧ u = [] := by
  induction n with
  | zero =>
    apply emits_pure
    exact .inr ⟨nofun, rfl⟩
  | succ n ih =>
    unfold fpySendCommandByteLoop
    apply Emits.after (p := fpyReadStatus) ⟨rfl, fun _ => trivial⟩
    intro msr
    split
    · apply emits_vis
      intro _
      exact emits_pure (.inl ⟨rfl, rfl⟩)
    · exact ih

/-- The bytes that are left go out in order, up to one that times out. -/
theorem emits_fpySendCommandLoop (msr : UInt8) (wait : Bool) (bs : List UInt8) :
    Emits Op.fifo (fpySendCommandLoop msr wait bs)
      fun e u => ∃ out, out <+: bs ∧ u = out.map .byte ∧ (e = noErr → out = bs) := by
  induction bs with
  | nil =>
    have silent : Silent (fpySendCommandLoop msr wait []) := by
      cases wait with
      | true => exact ⟨rfl, fun _ => trivial⟩
      | false => trivial
    apply (emits_nothing silent).mono
    rintro e _ rfl
    exact ⟨[], List.nil_prefix, rfl, fun _ => rfl⟩
  | cons b bs ih =>
    unfold fpySendCommandLoop
    apply emits_poll rfl
    intro _
    split
    · exact emits_pure ⟨[], List.nil_prefix, rfl, nofun⟩
    · apply (emits_fpySendCommandByteLoop b 1000).bind
      rintro e _ (⟨rfl, rfl⟩ | ⟨he, rfl⟩)
      · apply ih.mono
        rintro e _ ⟨out, hout, rfl, hall⟩
        refine ⟨b :: out, List.cons_prefix_cons.mpr ⟨rfl, hout⟩, rfl, ?_⟩
        intro he
        rw [hall he]
      · cases e with
        | none => exact absurd rfl he
        | some e => exact emits_pure ⟨[], List.nil_prefix, rfl, nofun⟩

/-- A command is sent, or cut short. -/
theorem emits_sends (cmd : List UInt8) (wait : Bool) :
    Emits Op.fifo (fpySendCommand cmd wait) fun _ => Sends cmd := by
  have body : Emits Op.fifo (fpySendCommandBody cmd wait)
      fun e u => ∃ out, out <+: cmd ∧ u = out.map .byte ∧ (e = noErr → out = cmd) := by
    unfold fpySendCommandBody
    apply Emits.after (p := fpyReadStatus) ⟨rfl, fun _ => trivial⟩
    intro msr
    split
    · exact emits_pure ⟨[], List.nil_prefix, rfl, nofun⟩
    · exact emits_fpySendCommandLoop msr wait cmd
  apply emits_vis
  intro _
  apply body.bind
  rintro e _ ⟨out, hout, rfl, hall⟩
  apply emits_vis
  intro _
  apply emits_pure
  cases e with
  | none =>
    obtain rfl := hall rfl
    exact .inl rfl
  | some e => exact .inr ⟨out, hout, List.append_nil _⟩

/-- A command sent, and then nothing that is seen. -/
theorem sends_bind {α : Type} {cmd : List UInt8} {wait : Bool} {k : ErrT → Code α}
    (silent : ∀ e, Silent (k e)) :
    Emits Op.fifo ((fpySendCommand cmd wait).bind k) fun _ => Sends cmd := by
  apply (emits_sends cmd wait).bind
  intro e u hu
  apply (emits_nothing (silent e)).mono
  rintro _ _ rfl
  rw [List.append_nil]
  exact hu

theorem silent_fpyCmdGenRes : Silent fpyCmdGenRes :=
  only_fpyCmdGenRes (fun _ => silent_of_input) fun _ => rfl

theorem sends_dataTransfer (cmd : List UInt8) :
    Emits Op.fifo (dataTransfer cmd) fun _ => Sends cmd := by
  apply sends_bind
  intro e
  cases e with
  | some e => trivial
  | none => exact silent_fpyCmdGenRes

theorem sends_fpyCmdReadSector (p : FpyCmdReadSectorParams) :
    Emits Op.fifo (fpyCmdReadSector p) fun _ => Sends (p.cmd .readSect) := by
  apply Emits.after (p := fpyPrepareIrqNoHandle) ⟨rfl, fun _ => trivial⟩
  intro _
  apply sends_bind
  intro e
  cases e with
  | some e => trivial
  | none => exact (wait_fpyWaitIrq.mono fun _ => silent_of_wait).bind fun _ => silent_fpyCmdGenRes

theorem sends_fpyCmdReadSectorId (p : FpyCmdHeadParam) :
    Emits Op.fifo (fpyCmdReadSectorId p) fun _ => Sends (readSectorIdCmd p) := by
  have refused : ∀ {check : UInt8 → ErrT} {k : UInt8 → ErrT → Code FpyCmdReadSectorIdRes},
      (∀ st e, Silent (k st e)) →
        Silent (fpyReadData.bind fun st => (checked (check st)).bind (k st)) := by
    intro check k h
    refine only_status (fun _ => silent_of_input) (fun _ => rfl) (fun st e => ?_) fun st => ?_
    · exact h st (some e)
    · exact h st none
  apply sends_bind
  rintro (_ | e)
  · trivial
  apply (wait_fpyWaitIrq.mono fun _ => silent_of_wait).bind
  rintro (_ | e)
  · trivial
  apply refused
  rintro st0 (_ | e)
  · trivial
  apply refused
  rintro st1 (_ | e)
  · trivial
  apply refused
  rintro st2 (_ | e)
  · trivial
  exact silent_fpyReadData.bind fun _ => silent_fpyReadData.bind fun _ =>
    silent_fpyReadData.bind fun _ => silent_fpyReadData.bind fun _ => trivial

/-- Whatever call, what is seen is its array. -/
theorem sends_code (c : Call) : Emits Op.fifo c.code fun _ => Sends c.cmd := by
  have drop : ∀ {α : Type} {p : Code α} {cmd : List UInt8},
      Emits Op.fifo p (fun _ => Sends cmd) →
        Emits Op.fifo (p.bind fun _ => .pure ()) fun _ => Sends cmd := by
    intro α p cmd h
    apply h.bind
    intro _ u hu
    apply emits_pure
    rw [List.append_nil]
    exact hu
  cases c with
  | readtrack p | writeSector p | writeDeletedSector p | readDeletedSector p =>
    exact drop (sends_dataTransfer _)
  | readSector p => exact drop (sends_fpyCmdReadSector p)
  | readSectorId p => exact drop (sends_fpyCmdReadSectorId p)
  | calibrateDrive p | seekHead p | configure p => exact drop (emits_sends _ _)
  | checkDriveStatus p =>
    apply drop
    apply sends_bind
    intro e
    cases e with
    | some e => trivial
    | none => exact silent_fpyReadData.bind fun _ => ⟨rfl, fun _ => trivial⟩
  | checkInterrupt =>
    apply drop
    apply sends_bind
    intro e
    cases e with
    | some e => trivial
    | none =>
      refine only_status (fun _ => silent_of_input) (fun _ => rfl) (fun _ _ => ?_) fun st0 => ?_
      · trivial
      · exact silent_fpyReadData.bind fun _ => trivial

/-! ## The law -/

/-- Runs of calls, seen from the FIFO. A run that sends its command whole is told by
`sent`; one that is cut short by an error has put out less. -/
structure UniquelyDecodable : Prop where
  /-- What is put in the FIFO is the call's array, or its beginning. -/
  emitted : ∀ {c : Call} {t : List FifoEvent}, Exec (Traced Op.fifo) c.code [] () t →
    fifoBytes t <+: c.cmd ∧ (.sent ∈ t → fifoBytes t = c.cmd)
  /-- The lower five bits of the first byte are the command's alone. -/
  command : ∀ c : Call, commandOf (c.cmd.headD 0) = some c.opcode
  /-- The array gives back the command, its flags and its parameters. -/
  decoded : ∀ c : Call, c.InRange → decode c.cmd = some c
  /-- Two calls that send the same bytes are one. -/
  unique : ∀ {c c' : Call} {t t' : List FifoEvent}, c.InRange → c'.InRange →
    Exec (Traced Op.fifo) c.code [] () t → .sent ∈ t →
      Exec (Traced Op.fifo) c'.code [] () t' → .sent ∈ t' → fifoBytes t = fifoBytes t' → c = c'

theorem prefix_of_sends {cmd : List UInt8} {t : List FifoEvent} (h : Sends cmd t) :
    fifoBytes t <+: cmd := by
  rcases h with rfl | ⟨bs, hbs, rfl⟩
  · have whole : fifoBytes _ = cmd :=
      fifoBytes_of_sends (.inl rfl) (List.mem_append_right _ (List.mem_singleton_self _))
    exact ⟨[], (List.append_nil _).trans whole⟩
  · rw [fifoBytes_map]
    exact hbs

/-- PACKETS ARE UNIQUELY DECODABLE. -/
theorem packets_uniquelyDecodable : UniquelyDecodable where
  emitted {c} _ run :=
    have sends := (sends_code c).exec run
    ⟨prefix_of_sends sends, fifoBytes_of_sends sends⟩
  command := commandOf_cmd
  decoded := decode_cmd
  unique {c c' t t'} hc hc' run sent run' sent' heq := by
    rw [fifoBytes_of_sends ((sends_code c).exec run) sent,
      fifoBytes_of_sends ((sends_code c').exec run') sent'] at heq
    have both := decode_cmd c hc
    rw [heq, decode_cmd c' hc'] at both
    exact (Option.some.inj both).symm

/-! ## FIX DRIVE DATA -/

namespace FpyCmdFixDriveDataParams

/-- The parameters are in the ranges of the controller's fields. -/
def InRange (p : FpyCmdFixDriveDataParams) : Prop :=
  p.stepRate < 16 ∧ p.headUnloadTime < 16 ∧ p.headLoadTime < 128

/-- The controller's side: the step rate above the head unload time, the head load
time above the flag. -/
def ofBytes : List UInt8 → Option FpyCmdFixDriveDataParams
  | [_, times, load] => some
    { stepRate := times >>> 4, headUnloadTime := times &&& 0xf, headLoadTime := load >>> 1
      ndm := flagSet load 1 }
  | _ => none

/-- The upper half of the second byte: the step rate, or-ed with what the head load time
has above its lower four bits. -/
def sentRate (p : FpyCmdFixDriveDataParams) : UInt8 := p.stepRate ||| (p.headLoadTime >>> 4)

/-- The second byte: its lower half is the head load time's. -/
theorem second_byte {step : UInt8} (hs : step < 16) (load : UInt8) :
    (load ||| (step <<< 4)) >>> 4 = step ||| (load >>> 4) ∧
      (load ||| (step <<< 4)) &&& 0xf = load &&& 0xf := by
  obtain ⟨rate, clear⟩ : (step <<< 4) >>> 4 = step ∧ (step <<< 4) &&& 0xf = 0 :=
    forall_byte_lt (k := 16) step hs (by decide +kernel)
  rw [UInt8.shiftRight_or, rate, UInt8.or_comm, or_and, clear, UInt8.or_zero]
  exact ⟨rfl, rfl⟩

/-- The third byte holds what it should. -/
theorem third_byte {load : UInt8} (hl : load < 128) (ndm : Bool) :
    (ext ndm 1 ||| (load <<< 1)) >>> 1 = load ∧ flagSet (ext ndm 1 ||| (load <<< 1)) 1 = ndm := by
  revert ndm
  exact forall_byte_lt (k := 128) load hl (by decide +kernel)

/-- A byte is its two halves. -/
theorem byte_ext {a b : UInt8} (high : a >>> 4 = b >>> 4) (low : a &&& 0xf = b &&& 0xf) :
    a = b := by
  have halves : ∀ c : UInt8, c = (c >>> 4) <<< 4 ||| (c &&& 0xf) :=
    fun c => forall_byte c (by decide +kernel)
  rw [halves a, halves b, high, low]

/-- What the controller makes of the packet. -/
theorem ofBytes_cmd {p : FpyCmdFixDriveDataParams} (h : p.InRange) :
    ofBytes p.cmd = some { p with
      stepRate := p.sentRate, headUnloadTime := p.headLoadTime &&& 0xf } := by
  obtain ⟨hs, -, hl⟩ := h
  obtain ⟨rate, unload⟩ := second_byte hs p.headLoadTime
  obtain ⟨load, ndm⟩ := third_byte hl p.ndm
  simp only [cmd, ofBytes, sentRate, rate, unload, load, ndm]

/-- The packets of two blocks are the same where these three are. -/
theorem cmd_eq_iff {p q : FpyCmdFixDriveDataParams} (hp : p.InRange) (hq : q.InRange) :
    p.cmd = q.cmd ↔
      p.sentRate = q.sentRate ∧ p.headLoadTime = q.headLoadTime ∧ p.ndm = q.ndm := by
  constructor
  · intro heq
    have both := ofBytes_cmd hp
    rw [heq, ofBytes_cmd hq] at both
    have same := Option.some.inj both
    simp only [mk.injEq] at same
    exact ⟨same.1.symm, same.2.2.1.symm, same.2.2.2.symm⟩
  · rintro ⟨rate, load, ndm⟩
    have second : p.headLoadTime ||| (p.stepRate <<< 4) = q.headLoadTime ||| (q.stepRate <<< 4) := by
      apply byte_ext
      · rw [(second_byte hp.1 _).1, (second_byte hq.1 _).1]
        exact rate
      · rw [(second_byte hp.1 _).2, (second_byte hq.1 _).2, load]
    unfold cmd
    rw [second, load, ndm]

/-- The three bytes sent are read back as the four parameters. -/
def Transmits (p : FpyCmdFixDriveDataParams) : Prop := ofBytes p.cmd = some p

theorem transmits_iff {p : FpyCmdFixDriveDataParams} (h : p.InRange) : p.Transmits ↔
    p.headUnloadTime = p.headLoadTime &&& 0xf ∧ p.stepRate ||| (p.headLoadTime >>> 4) = p.stepRate := by
  unfold Transmits
  rw [ofBytes_cmd h, Option.some.injEq]
  cases p
  simp only [sentRate, mk.injEq, and_true]
  exact ⟨fun h => ⟨h.2.symm, h.1⟩, fun h => ⟨h.2, h.1.symm⟩⟩

/-- THE LAW of FIX DRIVE DATA: its packet is sent as it is built, it gives back the
parameters exactly when two of them happen to agree with the head load time, and two
blocks have different packets exactly when what is left of them differs. -/
theorem fixDriveData_transmits_iff (p q : FpyCmdFixDriveDataParams) (e : ErrT)
    (t : List FifoEvent) :
    (Exec (Traced Op.fifo) (fpyCmdFixDriveData p) [] e t → .sent ∈ t → fifoBytes t = p.cmd) ∧
    (p.InRange → (p.Transmits ↔
      p.headUnloadTime = p.headLoadTime &&& 0xf ∧
        p.stepRate ||| (p.headLoadTime >>> 4) = p.stepRate)) ∧
    (p.InRange → q.InRange → (p.cmd ≠ q.cmd ↔
      p.stepRate ||| (p.headLoadTime >>> 4) ≠ q.stepRate ||| (q.headLoadTime >>> 4) ∨
        p.headLoadTime ≠ q.headLoadTime ∨ p.ndm ≠ q.ndm)) := by
  refine ⟨fun run sent => ?_, transmits_iff, fun hp hq => ?_⟩
  · exact fifoBytes_of_sends ((emits_sends p.cmd true).exec run) sent
  · rw [Ne, cmd_eq_iff hp hq, not_and_or, not_and_or]
    exact Iff.rfl

/-- What `floppy_init` asks for is not what the controller is told: it asks for a head
unload time of 0 and sends one of 5. -/
theorem fixDriveData_drops :
    ¬ ((∀ p : FpyCmdFixDriveDataParams, p.InRange → p.Transmits) ∧
      ∀ p q : FpyCmdFixDriveDataParams, p.InRange → q.InRange → p ≠ q → p.cmd ≠ q.cmd) := by
  rintro ⟨transmits, -⟩
  have back := transmits { stepRate := 8, ndm := false, headUnloadTime := 0, headLoadTime := 5 }
    ⟨by decide, by decide, by decide⟩
  revert back
  unfold Transmits
  decide

end FpyCmdFixDriveDataParams

end ToyBootloader
