import ToyBootloader.Ops

/-!
# `stage2/disk_props.c`

The drive's geometry, as INT 13h AH=08h reports it.
-/

namespace ToyBootloader

open Code

/-- `HIGH(A)` -/
def HIGH (a : UInt16) : UInt8 := ((a >>> 8) &&& 0xFF).toUInt8

/-- `LOW(A)` -/
def LOW (a : UInt16) : UInt8 := (a &&& 0xFF).toUInt8

/-- `disk_props`. An error status returns before any of the globals is
assigned. -/
def diskProps : Code Unit := do
  let drive ← get .driveNumber
  let r ← int13 { ax := 0x0800, bx := 0, cx := 0, dx := drive.toUInt16 }
  if HIGH r.ax ≠ 0 then return ()
  else
    set .driveTypes (LOW r.bx)
    setCylinder (HIGH r.cx).toUInt16
    let cylinder ← getCylinder
    setCylinder (cylinder ||| (((LOW r.cx) >>> 5).toUInt16 <<< 8))
    set .maxSectorNumber (LOW r.cx &&& 0x3F)
    set .maxHeadNumber (HIGH r.dx + 1)
    set .numberOfDrives (LOW r.dx)

end ToyBootloader
