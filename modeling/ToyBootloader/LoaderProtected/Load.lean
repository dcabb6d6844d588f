import ToyBootloader.Linker
import ToyBootloader.Shared.FloppyRead

/-!
# `loader_protected/load.c`

The last loader: it reads stages 4 and 5 over stage 3, whose code it was jumped
to from, clears stage 4's `.bss` and enters stage 4.
-/

namespace ToyBootloader

open Code

/-- `while (start < end) *(start++) = 0;`, with `n` bytes left. -/
def clearBytes : (start n : Nat) → Code Unit
  | _, 0 => return ()
  | start, n + 1 => do
    store start 0
    clearBytes (start + 1) n

/-- `reset_bss(start, end)` -/
def resetBss (start stop : Nat) : Code Unit := clearBytes start (stop - start)

/-- A load of a part by `fpy_copy_bytes`, with the linker's symbols for the part
as its arguments: `sector` is converted to a `uint8_t`. -/
def fpyCopyPart (L : Sizes) (p : Part) : Code ErrT := do
  mark (.load p)
  fpyCopyBytes (UInt8.ofNat (L.firstSectionIndex p)) (L.runAddr p) (L.size p)

/-- `load_protected`; what the two copies return is dropped. -/
def loadProtected (L : Sizes) : Code Unit := do
  fpySetupIdt
  let _ ← fpyCopyPart L .stage4
  let _ ← fpyCopyPart L .stage5
  resetBss L.stage4BssStart L.stage4BssEnd
  mark (.enter .stage4)

end ToyBootloader
