import ToyBootloader.Shared.FloppyRead

/-!
# `stage3/floppy.c` and `shared/dma.h`

The tasks that bring the floppy controller up: reset and calibration, the DMA
channel, and two test reads. What they print is left out; every early return is
there.
-/

namespace ToyBootloader

open Code

/-! ## `shared/dma.h` -/

/-- `union dma_control`. -/
def dmaControl (chan : UInt8) (disable : Bool) : UInt8 :=
  (chan &&& 3) ||| (ext disable 1 <<< (2 : UInt8))

/-- `dma_mask_channel` -/
def dmaMaskChannel (chan : UInt8) : Code Unit := outb 0x0a (dmaControl chan true)

/-- `dma_unmask_channel` -/
def dmaUnmaskChannel (chan : UInt8) : Code Unit := outb 0x0a (dmaControl chan false)

/-- `dma_get_port_address` -/
def dmaGetPortAddress (chan : UInt8) : UInt16 :=
  [0x00, 0x02, 0x04, 0x06, 0xC0, 0xC4, 0xC8, 0xCC].getD chan.toNat 0

/-- `dma_get_port_count` -/
def dmaGetPortCount (chan : UInt8) : UInt16 :=
  [0x01, 0x03, 0x05, 0x07, 0xC2, 0xC6, 0xCA, 0xCE].getD chan.toNat 0

/-- `dma_get_port_page` -/
def dmaGetPortPage (chan : UInt8) : UInt16 :=
  [0x87, 0x83, 0x81, 0x81, 0x8F, 0x8B, 0x89, 0x8A].getD chan.toNat 0

/-- `dma_setup_address` -/
def dmaSetupAddress (chan : UInt8) (addr : UInt16) : Code Unit := do
  outb (dmaGetPortAddress chan) addr.toUInt8
  outb (dmaGetPortAddress chan) (addr >>> 8).toUInt8

/-- `dma_setup_count` -/
def dmaSetupCount (chan : UInt8) (count : UInt16) : Code Unit := do
  outb (dmaGetPortCount chan) count.toUInt8
  outb (dmaGetPortCount chan) (count >>> 8).toUInt8

/-- `dma_setup_page` -/
def dmaSetupPage (chan val : UInt8) : Code Unit := outb (dmaGetPortPage chan) val

/-- `dma_reset_flipflop` -/
def dmaResetFlipflop (chan : UInt8) : Code Unit := outb (if chan > 3 then 0xD8 else 0x0C) 0xFF

/-- `dma_set_mode`, with the four enumerations as their values. -/
def dmaSetMode (chan sel incdec autoinit transfer : UInt8) : Code Unit :=
  let channel : UInt8 := if chan > 3 then chan - 4 else chan
  outb (if chan > 3 then 0xD6 else 0x0B)
    ((channel &&& 3) ||| ((transfer &&& 3) <<< (2 : UInt8)) ||| ((autoinit &&& 1) <<< (4 : UInt8))
      ||| ((incdec &&& 1) <<< (5 : UInt8)) ||| ((sel &&& 3) <<< (6 : UInt8)))

/-! ## The tasks -/

/-- `floppy_dma` -/
def floppyDma : Code Unit := do
  dmaMaskChannel FPY_DMA_PORT
  dmaResetFlipflop FPY_DMA_PORT
  dmaSetupAddress FPY_DMA_PORT 0x1000
  dmaResetFlipflop FPY_DMA_PORT
  dmaSetupCount FPY_DMA_PORT (0x300 - 1)
  dmaSetupPage FPY_DMA_PORT 0
  dmaUnmaskChannel FPY_DMA_PORT

/-- `floppy_dma_setup_read`: single mode, incrementing, auto-init, read. -/
def floppyDmaSetupRead : Code Unit := do
  dmaMaskChannel FPY_DMA_PORT
  dmaSetMode FPY_DMA_PORT 1 0 1 1
  dmaUnmaskChannel FPY_DMA_PORT

/-- Run `p` and go on with `k` unless it failed: the shape of
`if ((err = p)) return CMD_ERROR(...)`. -/
def orReturn (p : Code ErrT) (k : Code Unit) : Code Unit := do
  match ← p with
  | some _ => return ()
  | none => k

/-- The CALIBRATE block of `floppy_init`, one head after the other; each waits
for its interrupt. -/
def floppyCalibrate : Code Unit := do
  let drive ← get .driveNumber
  orReturn (fpyCmdCalibrateDrive { drive, headNumber := 0 }) do
    orReturn fpyWaitIrq do
      orReturn (fpyCmdCalibrateDrive { drive, headNumber := 1 }) do
        orReturn fpyWaitIrq (return ())

/-- `floppy_init` -/
def floppyInit : Code Unit := do
  fpySetupIdt
  orReturn fpyCmdCheckVersion do
    fpyWriteDsr 3
    fpyMotorEnable
    orReturn (fpyCmdFixDriveData
        { stepRate := 8, ndm := false, headUnloadTime := 0, headLoadTime := 5 }) do
      orReturn (fpyCmdConfigure
          { impliedSeekEnable := true, fifoDisable := false, drivePollingDisable := true,
            tresholdVal := 1, precompVal := 0 }) do
        floppyCalibrate

/-- The parameters `floppy_test` reads the boot sector with. -/
def testParams (drive : UInt8) (a : Chs) : FpyCmdReadSectorParams where
  multitrack := true
  doubleDensity := true
  skipMode := false
  drive
  headNumber := a.h.toUInt8
  cylinder := a.c.toUInt8
  head := a.h.toUInt8
  sector := a.s.toUInt8
  sectorSize := 2
  trackLength := 1
  lengthOfGap3 := 0x1b
  dataLength := 0xff

/-- `floppy_test`; the signature it then reads from the buffer is only
compared and reported. -/
def floppyTest : Code Unit := do
  let a ← lbaToChs 0
  let drive ← get .driveNumber
  let res ← fpyCmdReadSector (testParams drive a)
  match res.error with
  | some _ => return ()
  | none =>
    let _ ← load 0x11FE
    let _ ← load 0x11FF
    return ()

end ToyBootloader
