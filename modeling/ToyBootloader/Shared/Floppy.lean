import ToyBootloader.Ops

/-!
# `shared/floppy.h` and `shared/floppy_impl.h`

The floppy controller's driver, function by function, as it is compiled into
stage 3 and into loader_protected. A command array is a list and its `size` the
list's length; `for` loops with a constant bound are recursions on what is left
of the bound, and the two loops with none are busy waits.

The source's `err_t` is a pointer to a text that names the file and the line,
and so is the one here: `mkErr` is `MK_ERR` at a line of `floppy_impl.h`.
-/

namespace ToyBootloader

open Code

/-! ## Ports, opcodes and error texts -/

def FPY_DOR : UInt16 := 0x3f2
def FPY_MSR : UInt16 := 0x3f4
def FPY_DSR : UInt16 := 0x3f4
def FPY_FIFO : UInt16 := 0x3f5

/-- `enum fpy_cmd`. -/
inductive FpyCmd where
  | readTrack | fixDriveData | checkStat | writeSect | readSect | calibrate
  | checkInt | writeDeletedSect | readSectorId | readDeletedSect | formatTrack
  | seek | version | configure | unlock | lock
  deriving DecidableEq, Repr

/-- The enumeration's values. -/
def FpyCmd.val : FpyCmd → UInt8
  | .readTrack => 0x2
  | .fixDriveData => 0x3
  | .checkStat => 0x4
  | .writeSect => 0x5
  | .readSect => 0x6
  | .calibrate => 0x7
  | .checkInt => 0x8
  | .writeDeletedSect => 0x9
  | .readSectorId => 0xa
  | .readDeletedSect => 0xc
  | .formatTrack => 0xd
  | .seek => 0xf
  | .version => 0x10
  | .configure => 0x13
  | .unlock => 0x14
  | .lock => 0x94

def FPY_CMD_EXT_SKIP : UInt8 := 0x20
def FPY_CMD_EXT_DENSITY : UInt8 := 0x40
def FPY_CMD_EXT_MULTITRACK : UInt8 := 0x80

/-- `MK_ERR(err)` at `line` of `shared/floppy_impl.h`. -/
def mkErr (line : Nat) (err : String) : String :=
  "(../shared/floppy_impl.h)-(l." ++ toString line ++ ") : " ++ err

/-! ## Status registers -/

/-- `mrq`, the main status register's bit 7. -/
def mrq (msr : UInt8) : Bool := msr &&& 0x80 != 0

/-- `dataio`, its bit 6. -/
def dataio (msr : UInt8) : Bool := msr &&& 0x40 != 0

/-- `fpy_read_status` -/
def fpyReadStatus : Code UInt8 := inb FPY_MSR

/-- `TEST_BIT(VAL, BIT)` -/
def testBit (val : UInt8) (bit : UInt8) : Bool := val &&& ((1 : UInt8) <<< bit) != 0

/-- `MUST_FALSE(V, BIT, ERR)` and `MUST_TRUE(V, BIT, ERR)` at a line: the bit,
the value it must have, and what is said of a register that has the other. -/
structure MustBe where
  line : Nat
  bit : UInt8
  value : Bool
  err : String

/-- The text of the two macros: `V`, `BIT` and `ERR` spelled into it. -/
def MustBe.text (m : MustBe) (reg : String) : String :=
  mkErr m.line ("bad bit in register " ++ reg ++ " expected bit " ++
    toString m.bit.toNat ++ " (" ++ m.err ++ ") to be " ++ toString m.value)

/-- A list of the macros, run in order: the first that fails returns. -/
def mustBe (reg : String) (v : UInt8) : List MustBe → ErrT
  | [] => noErr
  | m :: ms => if testBit v m.bit = m.value then mustBe reg v ms else some (m.text reg)

/-- `fpy_check_st0` -/
def fpyCheckSt0 (st0 : UInt8) : ErrT :=
  match mustBe "st0" st0 [⟨126, 3, false, "NR"⟩] with
  | some e => some e
  | none =>
    match (st0 &&& 0xC0) >>> 6 with
    | 1 => some (mkErr 130 "bad IC value in register st0 : 1 (abnormal termination)")
    | 2 => some (mkErr 131 "bad IC value in register st0 : 2 (invalid command)")
    | 3 => some (mkErr 132 "bad IC value in register st0 : 3 (abnormal termination by polling)")
    | _ => noErr

/-- `fpy_check_st1` -/
def fpyCheckSt1 (st1 : UInt8) : ErrT :=
  mustBe "st1" st1 [⟨138, 5, false, "DE"⟩, ⟨139, 4, false, "TO"⟩, ⟨140, 2, false, "NDAT"⟩,
    ⟨141, 1, false, "NW"⟩, ⟨142, 0, false, "NID"⟩]

/-- `fpy_check_st2` -/
def fpyCheckSt2 (st2 : UInt8) : ErrT :=
  mustBe "st2" st2 [⟨147, 5, false, "CRCE"⟩, ⟨148, 4, false, "WCYL"⟩, ⟨149, 1, false, "BCYL"⟩,
    ⟨150, 0, false, "NDAM"⟩]

/-- `fpy_check_st3` -/
def fpyCheckSt3 (st3 : UInt8) : ErrT :=
  mustBe "st3" st3 [⟨155, 7, false, "ESIG"⟩, ⟨156, 5, true, "RDY"⟩, ⟨157, 1, false, "BCYL"⟩]

/-- A status check as a call of the driver makes it. -/
def checked (err : ErrT) : Code ErrT := do
  mark (.checked err)
  return err

/-! ## Bytes to and from the controller -/

/-- The loop of `fpy_read_data`: `n` rounds are left. -/
def fpyReadDataLoop : Nat → Code UInt8
  | 0 => return 0xFF
  | n + 1 => do
    if mrq (← fpyReadStatus) then inb FPY_FIFO else fpyReadDataLoop n

/-- `fpy_read_data` -/
def fpyReadData : Code UInt8 := fpyReadDataLoop 1000

/-- The loop of `fpy_send_command_byte`: `n` rounds are left. -/
def fpySendCommandByteLoop (cmd : UInt8) : Nat → Code ErrT
  | 0 => return some (mkErr 186 "timeout")
  | n + 1 => do
    if mrq (← fpyReadStatus) then
      outb FPY_FIFO cmd
      return noErr
    else fpySendCommandByteLoop cmd n

/-- `fpy_send_command_byte` -/
def fpySendCommandByte (cmd : UInt8) : Code ErrT := fpySendCommandByteLoop cmd 1000

/-- The loop of `fpy_send_command` over the bytes that are left, and its final
wait. `msr` is the status read on entry: the loop never reads it again, so its
test of `dataio` is made on the old value. -/
def fpySendCommandLoop (msr : UInt8) (wait : Bool) : List UInt8 → Code ErrT
  | [] => do
    if wait then
      let _ ← inbUntil FPY_MSR mrq
    return noErr
  | b :: bs => do
    let _ ← inbUntil FPY_MSR mrq
    if dataio msr then return some (mkErr 198 "msr.dataio")
    else
      match ← fpySendCommandByte b with
      | some e => return some e
      | none => fpySendCommandLoop msr wait bs

/-- `fpy_send_command`, between its call and its return. -/
def fpySendCommandBody (cmd : List UInt8) (wait : Bool) : Code ErrT := do
  let msr ← fpyReadStatus
  if !mrq msr || dataio msr then return some (mkErr 193 "bad msr values")
  else fpySendCommandLoop msr wait cmd

/-- `fpy_send_command(size, cmd, mrq)` -/
def fpySendCommand (cmd : List UInt8) (wait : Bool) : Code ErrT := do
  mark (.send cmd)
  let err ← fpySendCommandBody cmd wait
  mark (.sent err)
  return err

/-! ## Results -/

/-- `struct fpy_cmd_readtrack_res`, the result of every data transfer. A member
the source leaves unset on an error reads 0. -/
structure FpyCmdReadtrackRes where
  error : ErrT
  st0 : UInt8 := 0
  st1 : UInt8 := 0
  st2 : UInt8 := 0
  cylinder : UInt8 := 0
  head : UInt8 := 0
  sector : UInt8 := 0
  sectorSize : UInt8 := 0
  deriving DecidableEq, Repr

/-- `fpy_cmd_gen_res`: each status byte is checked as it is read, and a bad one
returns without reading the rest. -/
def fpyCmdGenRes : Code FpyCmdReadtrackRes := do
  let st0 ← fpyReadData
  match ← checked (fpyCheckSt0 st0) with
  | some e => return { error := some e, st0 }
  | none =>
    let st1 ← fpyReadData
    match ← checked (fpyCheckSt1 st1) with
    | some e => return { error := some e, st0, st1 }
    | none =>
      let st2 ← fpyReadData
      match ← checked (fpyCheckSt2 st2) with
      | some e => return { error := some e, st0, st1, st2 }
      | none =>
        let cylinder ← fpyReadData
        let head ← fpyReadData
        let sector ← fpyReadData
        let sectorSize ← fpyReadData
        return { error := noErr, st0, st1, st2, cylinder, head, sector, sectorSize }

/-! ## Commands -/

/-- A modifier flag of a command's first byte. -/
def ext (on : Bool) (flag : UInt8) : UInt8 := if on then flag else 0

/-- The second byte of every command that names a drive and a head. -/
def driveHead (drive head_number : UInt8) : UInt8 := drive ||| (head_number <<< 2)

/-- `struct fpy_cmd_head_param` -/
structure FpyCmdHeadParam where
  drive : UInt8
  headNumber : UInt8
  deriving DecidableEq, Repr

/-- `struct fpy_cmd_readtrack_params` -/
structure FpyCmdReadtrackParams where
  drive : UInt8
  doubleDensity : Bool
  skipMode : Bool
  headNumber : UInt8
  cylinder : UInt8
  head : UInt8
  sector : UInt8
  sectorSize : UInt8
  trackLength : UInt8
  lengthOfGap3 : UInt8
  dataLength : UInt8
  deriving DecidableEq, Repr

/-- `struct fpy_cmd_write_sector_params` -/
structure FpyCmdWriteSectorParams where
  drive : UInt8
  doubleDensity : Bool
  multitrack : Bool
  headNumber : UInt8
  cylinder : UInt8
  head : UInt8
  sector : UInt8
  sectorSize : UInt8
  trackLength : UInt8
  lengthOfGap3 : UInt8
  dataLength : UInt8
  deriving DecidableEq, Repr

/-- `struct fpy_cmd_read_sector_params` -/
structure FpyCmdReadSectorParams where
  drive : UInt8
  doubleDensity : Bool
  multitrack : Bool
  skipMode : Bool
  headNumber : UInt8
  cylinder : UInt8
  head : UInt8
  sector : UInt8
  sectorSize : UInt8
  trackLength : UInt8
  lengthOfGap3 : UInt8
  dataLength : UInt8
  deriving DecidableEq, Repr

/-- The array of `fpy_cmd_readtrack`. -/
def FpyCmdReadtrackParams.cmd (p : FpyCmdReadtrackParams) : List UInt8 :=
  [FpyCmd.readTrack.val ||| ext p.doubleDensity FPY_CMD_EXT_DENSITY
      ||| ext p.skipMode FPY_CMD_EXT_SKIP,
    driveHead p.drive p.headNumber, p.cylinder, p.head, p.sector, p.sectorSize,
    p.trackLength, p.lengthOfGap3, p.dataLength]

/-- The array of `fpy_cmd_write_sector` and `fpy_cmd_write_deleted_sector`,
which differ in the opcode only. -/
def FpyCmdWriteSectorParams.cmd (op : FpyCmd) (p : FpyCmdWriteSectorParams) : List UInt8 :=
  [op.val ||| ext p.doubleDensity FPY_CMD_EXT_DENSITY
      ||| ext p.multitrack FPY_CMD_EXT_MULTITRACK,
    driveHead p.drive p.headNumber, p.cylinder, p.head, p.sector, p.sectorSize,
    p.trackLength, p.lengthOfGap3, p.dataLength]

/-- The array of `fpy_cmd_read_sector` and `fpy_cmd_read_deleted_sector`, which
differ in the opcode only. -/
def FpyCmdReadSectorParams.cmd (op : FpyCmd) (p : FpyCmdReadSectorParams) : List UInt8 :=
  [op.val ||| ext p.doubleDensity FPY_CMD_EXT_DENSITY
      ||| ext p.multitrack FPY_CMD_EXT_MULTITRACK ||| ext p.skipMode FPY_CMD_EXT_SKIP,
    driveHead p.drive p.headNumber, p.cylinder, p.head, p.sector, p.sectorSize,
    p.trackLength, p.lengthOfGap3, p.dataLength]

/-- A data transfer that does not wait for its interrupt: send the array, and
read the result. -/
def dataTransfer (cmd : List UInt8) : Code FpyCmdReadtrackRes := do
  match ← fpySendCommand cmd true with
  | some e => return { error := some e }
  | none => fpyCmdGenRes

/-- `fpy_cmd_readtrack` -/
def fpyCmdReadtrack (p : FpyCmdReadtrackParams) : Code FpyCmdReadtrackRes :=
  dataTransfer p.cmd

/-- `fpy_cmd_write_sector` -/
def fpyCmdWriteSector (p : FpyCmdWriteSectorParams) : Code FpyCmdReadtrackRes :=
  dataTransfer (p.cmd .writeSect)

/-- `fpy_cmd_write_deleted_sector` -/
def fpyCmdWriteDeletedSector (p : FpyCmdWriteSectorParams) : Code FpyCmdReadtrackRes :=
  dataTransfer (p.cmd .writeDeletedSect)

/-- `fpy_cmd_read_deleted_sector` -/
def fpyCmdReadDeletedSector (p : FpyCmdReadSectorParams) : Code FpyCmdReadtrackRes :=
  dataTransfer (p.cmd .readDeletedSect)

/-- `fpy_prepare_irq_no_handle` -/
def fpyPrepareIrqNoHandle : Code Unit := set .fpyIrqHandleState 1

/-- The text at address 1, for whoever takes the pointer that says ok for an error's. It is an
error like any other: its pointer is not null. -/
def textAtOne : String := ""

/-- The pointer of `fpy_irq_received` cast to an `err_t`. -/
def Received.toErr : Received → ErrT
  | .err e => some e
  | .ok => some textAtOne
  | .wait => noErr

/-- The error `fpy_wait_irq` returns: the pointer, read once more, unless it was
the one that says ok. It may say so by now. -/
def irqErr : Code ErrT := do
  if (← received) ≠ .ok then return (← received).toErr
  else return noErr

/-- `fpy_wait_irq`: wait for the pointer to be set, keep it when it is an
error's, and clear it. -/
def fpyWaitIrq : Code ErrT := do
  let _ ← untilReceived
  let err ← irqErr
  setReceived .wait
  return err

/-- `fpy_cmd_read_sector`, the one transfer that waits for its interrupt. What
the wait returns is dropped. -/
def fpyCmdReadSector (p : FpyCmdReadSectorParams) : Code FpyCmdReadtrackRes := do
  fpyPrepareIrqNoHandle
  match ← fpySendCommand (p.cmd .readSect) true with
  | some e => return { error := some e }
  | none =>
    let _ ← fpyWaitIrq
    fpyCmdGenRes

/-- `struct fpy_cmd_fix_drive_data_params` -/
structure FpyCmdFixDriveDataParams where
  stepRate : UInt8
  headUnloadTime : UInt8
  headLoadTime : UInt8
  ndm : Bool
  deriving DecidableEq, Repr

/-- The array of `fpy_cmd_fix_drive_data`. `head_unload_time` is not in it: the
source writes `head_load_time` to both bytes. -/
def FpyCmdFixDriveDataParams.cmd (p : FpyCmdFixDriveDataParams) : List UInt8 :=
  [FpyCmd.fixDriveData.val, p.headLoadTime ||| (p.stepRate <<< 4),
    ext p.ndm 1 ||| (p.headLoadTime <<< 1)]

/-- `fpy_cmd_fix_drive_data` -/
def fpyCmdFixDriveData (p : FpyCmdFixDriveDataParams) : Code ErrT :=
  fpySendCommand p.cmd true

/-- `struct fpy_cmd_check_drive_status_res` -/
structure FpyCmdCheckDriveStatusRes where
  error : ErrT
  st3 : UInt8 := 0
  deriving DecidableEq, Repr

/-- `fpy_cmd_check_drive_status` -/
def fpyCmdCheckDriveStatus (p : FpyCmdHeadParam) : Code FpyCmdCheckDriveStatusRes := do
  match ← fpySendCommand [FpyCmd.checkStat.val, driveHead p.drive p.headNumber] true with
  | some e => return { error := some e }
  | none =>
    let st3 ← fpyReadData
    let error ← checked (fpyCheckSt3 st3)
    return { error, st3 }

/-- `fpy_cmd_calibrate_drive` -/
def fpyCmdCalibrateDrive (p : FpyCmdHeadParam) : Code ErrT :=
  fpySendCommand [FpyCmd.calibrate.val, driveHead p.drive p.headNumber] false

/-- `struct fpy_cmd_check_interrupt_res` -/
structure FpyCmdCheckInterruptRes where
  error : ErrT
  st0 : UInt8 := 0
  currentCylinder : UInt8 := 0
  deriving DecidableEq, Repr

/-- `fpy_cmd_check_interrupt` -/
def fpyCmdCheckInterrupt : Code FpyCmdCheckInterruptRes := do
  match ← fpySendCommand [FpyCmd.checkInt.val] true with
  | some e => return { error := some e }
  | none =>
    let st0 ← fpyReadData
    match ← checked (fpyCheckSt0 st0) with
    | some e => return { error := some e, st0 }
    | none =>
      let currentCylinder ← fpyReadData
      return { error := noErr, st0, currentCylinder }

/-- `struct fpy_cmd_read_sector_id_res`. A member the source leaves unset reads
0. -/
structure FpyCmdReadSectorIdRes where
  succcess : Bool
  st0 : UInt8 := 0
  st1 : UInt8 := 0
  st2 : UInt8 := 0
  cylinder : UInt8 := 0
  head : UInt8 := 0
  sector : UInt8 := 0
  sectorSize : UInt8 := 0
  deriving DecidableEq, Repr

/-- The array of `fpy_cmd_read_sector_id`. -/
def readSectorIdCmd (p : FpyCmdHeadParam) : List UInt8 :=
  [FpyCmd.readSectorId.val, driveHead p.drive p.headNumber]

/-- `fpy_cmd_read_sector_id`. The `err_t` of each step is assigned to the `bool`
`succcess`, which an error's text makes true and `NO_ERR` false, and the function
goes on where it is true. -/
def fpyCmdReadSectorId (p : FpyCmdHeadParam) : Code FpyCmdReadSectorIdRes := do
  let succcess := (← fpySendCommand (readSectorIdCmd p) false).isSome
  if !succcess then return { succcess }
  else
    let succcess := (← fpyWaitIrq).isSome
    if !succcess then return { succcess }
    else
      let st0 ← fpyReadData
      let succcess := (← checked (fpyCheckSt0 st0)).isSome
      if !succcess then return { succcess, st0 }
      else
        let st1 ← fpyReadData
        let succcess := (← checked (fpyCheckSt1 st1)).isSome
        if !succcess then return { succcess, st0, st1 }
        else
          let st2 ← fpyReadData
          let succcess := (← checked (fpyCheckSt2 st2)).isSome
          if !succcess then return { succcess, st0, st1, st2 }
          else
            let cylinder ← fpyReadData
            let head ← fpyReadData
            let sector ← fpyReadData
            let sectorSize ← fpyReadData
            return { succcess, st0, st1, st2, cylinder, head, sector, sectorSize }

/-- `struct fpy_cmd_seek_head_params` -/
structure FpyCmdSeekHeadParams where
  drive : UInt8
  headNumber : UInt8
  cylinder : UInt8
  deriving DecidableEq, Repr

/-- The array of `fpy_cmd_seek_head`. -/
def FpyCmdSeekHeadParams.cmd (p : FpyCmdSeekHeadParams) : List UInt8 :=
  [FpyCmd.seek.val, driveHead p.drive p.headNumber, p.cylinder]

/-- `fpy_cmd_seek_head`: sent, and not waited for. -/
def fpyCmdSeekHead (p : FpyCmdSeekHeadParams) : Code ErrT := fpySendCommand p.cmd true

/-- `fpy_cmd_check_version` -/
def fpyCmdCheckVersion : Code ErrT := do
  match ← fpySendCommandByte FpyCmd.version.val with
  | some e => return some e
  | none =>
    if (← fpyReadData) = 0x90 then return noErr
    else return some (mkErr 522 "bad version")

/-- `struct fpy_cmd_configure_params` -/
structure FpyCmdConfigureParams where
  impliedSeekEnable : Bool
  fifoDisable : Bool
  drivePollingDisable : Bool
  tresholdVal : UInt8
  precompVal : UInt8
  deriving DecidableEq, Repr

/-- The array of `fpy_cmd_configure`. -/
def FpyCmdConfigureParams.cmd (p : FpyCmdConfigureParams) : List UInt8 :=
  [FpyCmd.configure.val, 0,
    (p.tresholdVal - (1 : UInt8)) ||| (ext p.drivePollingDisable 1 <<< (4 : UInt8))
      ||| (ext p.fifoDisable 1 <<< (5 : UInt8)) ||| (ext p.impliedSeekEnable 1 <<< (6 : UInt8)),
    p.precompVal]

/-- `fpy_cmd_configure` -/
def fpyCmdConfigure (p : FpyCmdConfigureParams) : Code ErrT := fpySendCommand p.cmd true

/-! ## The drive's motor -/

/-- `fpy_get_dor_mask_drive` -/
def fpyGetDorMaskDrive (driveNumber : UInt8) : UInt8 :=
  match driveNumber with
  | 0 => 16
  | 1 => 32
  | 2 => 64
  | 3 => 128
  | _ => 0xFF

/-- `fpy_write_dsr` -/
def fpyWriteDsr (v : UInt8) : Code Unit := outb FPY_DSR v

/-- `fpy_motor_enable` -/
def fpyMotorEnable : Code Unit := do
  let drive ← get .driveNumber
  outb FPY_DOR (drive ||| fpyGetDorMaskDrive (← get .driveNumber) ||| 4 ||| 8)

/-! ## The interrupt -/

/-- `fpy_interrupt_handler`: with `fpy_irq_handle_state` set it only wakes the
waiter and clears the state; otherwise it senses the interrupt and leaves the
outcome. Either way it ends with the end-of-interrupt. -/
def fpyInterruptHandler : Code Unit := do
  if (← get .fpyIrqHandleState) ≠ 0 then
    set .fpyIrqHandleState 0
    setReceived .ok
  else
    let r ← fpyCmdCheckInterrupt
    setReceived (match r.error with | some e => .err e | none => .ok)
  outb 0x20 0x20

end ToyBootloader
