import ToyBootloader.Linker

/-!
# `stage1/boot.c`

The boot sector: `copy_kernel` reads sectors with the BIOS, and `init` loads the
shared data, stage 2 and stage 3 with it. Registers an `asm` block does not set
are given as 0, no service used here reads them.

What stage 2 and stage 3 do when they are entered is a parameter of `init`: the
linker script ties the knot.
-/

namespace ToyBootloader

open Code

/-- A cylinder, a head and a sector in `copy_kernel`'s `uint8_t` variables. -/
structure Chs8 where
  c : UInt8
  h : UInt8
  s : UInt8
  deriving DecidableEq, Repr

/-- The conversion of `copy_kernel`, guarded: with the number of heads unknown
the index is taken for a sector of the first track. -/
def copyKernelChs (index : UInt8) : Code Chs8 := do
  if (← get .maxHeadNumber) ≠ 0 then
    let heads ← get .maxHeadNumber
    let sectors ← get .maxSectorNumber
    let c ← udiv index.toUInt32 (heads.toUInt32 * sectors.toUInt32)
    let sectors ← get .maxSectorNumber
    let track ← udiv index.toUInt32 sectors.toUInt32
    let heads ← get .maxHeadNumber
    let h ← umod track heads.toUInt32
    let sectors ← get .maxSectorNumber
    let s ← umod index.toUInt32 sectors.toUInt32
    return { c := c.toUInt8, h := h.toUInt8, s := (s + 1).toUInt8 }
  else return { c := 0, h := 0, s := index + 1 }

/-- `int $0x13` with `AH` = 0: reset the disk system. -/
def resetRegs (drive : UInt8) : Regs16 := { ax := 0, bx := 0, cx := 0, dx := drive.toUInt16 }

/-- `int $0x13` with `AH` = 2: read `count` sectors to `dest`. -/
def readRegs (drive : UInt8) (a : Chs8) (count : UInt8) (dest : Nat) : Regs16 where
  ax := 0x0200 ||| count.toUInt16
  bx := UInt16.ofNat dest
  cx := ((a.c.toUInt16 &&& 0xFF) <<< 8) ||| ((a.c.toUInt16 &&& 0x300) >>> 2)
    ||| (a.s.toUInt16 &&& 0x3f)
  dx := (a.h.toUInt16 <<< 8) ||| drive.toUInt16

/-- A read request of the disk service, told by `AH`. -/
def Regs16.isRead (r : Regs16) : Bool := r.ax &&& 0xFF00 = 0x0200

/-- `AL` of a read request: how many sectors it asks for. -/
def Regs16.count (r : Regs16) : Nat := (r.ax &&& 0xFF).toNat

/-- `ax & 0xFF00`: the service reports an error. -/
def Regs16.failed (r : Regs16) : Bool := r.ax &&& 0xFF00 ≠ 0

/-- The requests of `copy_kernel` are reads, of the count it was called with. -/
theorem isRead_readRegs (drive : UInt8) (a : Chs8) (count : UInt8) (dest : Nat) :
    (readRegs drive a count dest).isRead = true ∧
      (readRegs drive a count dest).count = count.toNat := by
  have bits : ∀ n : Fin 256, (0x0200 ||| n.val) &&& 0xFF00 = 0x0200 ∧
      (0x0200 ||| n.val) &&& 0xFF = n.val := by decide +kernel
  have hbits := bits ⟨count.toNat, count.toNat_lt⟩
  exact ⟨decide_eq_true (UInt16.toNat_inj.mp hbits.1), hbits.2⟩

/-- And its resets are not. -/
theorem isRead_resetRegs (drive : UInt8) : (resetRegs drive).isRead = false :=
  decide_eq_false (show ¬ (0 : UInt16) &&& 0xFF00 = 0x0200 by decide)

/-- The `do … while` of `copy_kernel`; `tries` is the variable at its top. -/
def copyKernelLoop (a : Chs8) (count : UInt8) (dest : Nat) : (tries : Nat) → Code Unit
  | 0 => return ()
  | tries + 1 => do
    let drive ← get .driveNumber
    let _ ← int13 (resetRegs drive)
    let drive ← get .driveNumber
    let r ← int13 (readRegs drive a count dest)
    if tries ≠ 0 && r.failed then copyKernelLoop a count dest tries
    else return ()  -- `if (!tries)`: TODO error

/-- `copy_kernel(index, count, dest)` -/
def copyKernel (index count : UInt8) (dest : Nat) : Code Unit := do
  let a ← copyKernelChs index
  copyKernelLoop a count dest 3

/-- The parts `copy_kernel` loads. -/
def Part.byBios : Part → Bool
  | .shared | .stage2 | .stage3 => true
  | .loaderProtected | .stage4 | .stage5 => false

/-- A load of a part by `copy_kernel`, with the linker's symbols for the part
passed as its `uint8_t` arguments. -/
def copyKernelPart (L : Sizes) (p : Part) : Code Unit := do
  mark (.load p)
  copyKernel (UInt8.ofNat (L.firstSectionIndex p)) (UInt8.ofNat (L.loadCount p)) (L.runAddr p)

/-- `init`; `stage2_load` returns, `stage3_start` does not. -/
def init (L : Sizes) (stage2Load stage3Start : Code Unit) : Code Unit := do
  copyKernelPart L .shared
  copyKernelPart L .stage2
  mark (.enter .stage2)
  stage2Load
  copyKernelPart L .stage3
  mark (.enter .stage3)
  stage3Start

/-- `main_asm`: the drive number `DL` was left with is stored before `init`. -/
def mainAsm (L : Sizes) (dl : UInt8) (stage2Load stage3Start : Code Unit) : Code Unit := do
  set .driveNumber dl
  init L stage2Load stage3Start

end ToyBootloader
