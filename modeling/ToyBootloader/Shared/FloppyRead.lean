import ToyBootloader.Shared.Floppy

/-!
# `shared/floppy_read.h`

`fpy_copy_bytes`: a range of sectors read one by one through the transfer
buffer. The driver's geometry is read from the shared globals on every round,
and both divisors are: a zero there is a divide error, not a zero quotient.
-/

namespace ToyBootloader

open Resumption Code

/-- `TRANSFER_BUFFER` -/
def TRANSFER_BUFFER : Nat := 0x1000

/-- `FPY_DMA_PORT` -/
def FPY_DMA_PORT : UInt8 := 2

/-- `FLOPPY_IRQ` -/
def FLOPPY_IRQ : UInt8 := 38

/-- `fpy_setup_idt`: clear the flag and install the handler. -/
def fpySetupIdt : Code Unit := do
  setReceived .wait
  setInterrupt FLOPPY_IRQ .fpyInterruptHandler

/-- A cylinder, a head and a sector, as computed. -/
structure Chs where
  c : UInt32
  h : UInt32
  s : UInt32
  deriving DecidableEq, Repr

/-- The three lines of `fpy_copy_bytes` and of `floppy_test` that turn an `lba`
into its cylinder, head and sector. -/
def lbaToChs (lba : UInt32) : Code Chs := do
  let heads ← get .maxHeadNumber
  let sectors ← get .maxSectorNumber
  let c ← udiv lba (heads.toUInt32 * sectors.toUInt32)
  let sectors ← get .maxSectorNumber
  let track ← udiv lba sectors.toUInt32
  let heads ← get .maxHeadNumber
  let h ← umod track heads.toUInt32
  let sectors ← get .maxSectorNumber
  let s ← umod lba sectors.toUInt32
  return { c, h, s := s + 1 }

/-- The copy loop of one sector: bytes `i` to `i + n - 1` of the buffer. -/
def copySector (dest : Nat) : (n i : Nat) → Code Unit
  | 0, _ => return ()
  | n + 1, i => do
    let b ← load (TRANSFER_BUFFER + i)
    store (dest + i) b
    copySector dest n (i + 1)

/-- `uint16_t copy_count = count > 0x200 ? 0x200 : count` -/
def copyCount (count : Int) : Nat := if count > 0x200 then 0x200 else count.toNat

/-- The parameters `fpy_copy_bytes` reads a sector with. -/
def copyParams (drive trackLength : UInt8) (a : Chs) : FpyCmdReadSectorParams where
  multitrack := true
  doubleDensity := true
  skipMode := false
  drive
  headNumber := a.h.toUInt8
  cylinder := a.c.toUInt8
  head := a.h.toUInt8
  sector := a.s.toUInt8
  sectorSize := 2
  trackLength
  lengthOfGap3 := 0x1b
  dataLength := 0xff

/-- One round of the loop up to the copy: seek, and read into the buffer. -/
def readOneSector (sector : UInt8) : Code ErrT := do
  let a ← lbaToChs sector.toUInt32
  let drive ← get .driveNumber
  match ← fpyCmdSeekHead { drive, headNumber := a.h.toUInt8, cylinder := a.c.toUInt8 } with
  | some e => return some e
  | none =>
    let drive ← get .driveNumber
    let trackLength ← get .maxSectorNumber
    let res ← fpyCmdReadSector (copyParams drive trackLength a)
    return res.error

/-- The loop of `fpy_copy_bytes`. `sector` is a `uint8_t` and is incremented as
one; `count` is a `long`. -/
def fpyCopyBytesLoop (sector : UInt8) (dest : Nat) (count : Int) : Code ErrT :=
  if count > 0 then do
    match ← readOneSector sector with
    | some e => return some e
    | none =>
      copySector dest (copyCount count) 0
      fpyCopyBytesLoop (sector + 1) (dest + 0x200) (count - 0x200)
  else return noErr
termination_by count.toNat

/-- `fpy_copy_bytes(sector, dest, count)` -/
def fpyCopyBytes (sector : UInt8) (dest : Nat) (count : Int) : Code ErrT := do
  let err ← fpyCopyBytesLoop sector dest count
  mark (.copied err)
  return err

/-- A copy of one byte, without its loop. -/
theorem fpyCopyBytes_one (sector : UInt8) (dest : Nat) :
    fpyCopyBytes sector dest 1 = (do
      let err ← (do
        match ← readOneSector sector with
        | some e => return some e
        | none =>
          copySector dest 1 0
          return noErr)
      mark (.copied err)
      return err) := by
  have last : fpyCopyBytesLoop (sector + 1) (dest + 0x200) (1 - 0x200) = pure noErr := by
    rw [fpyCopyBytesLoop, if_neg (by decide)]
  rw [fpyCopyBytes, fpyCopyBytesLoop, if_pos (by decide), last]
  rfl

end ToyBootloader
