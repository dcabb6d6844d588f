import ToyBootloader.Ops

/-!
# `stage5/start.S`

The segment registers are loaded from the shared objects once more, the data segments' and the
stack's with `mov` and the code segment's with a far return.
-/

namespace ToyBootloader

open Code

/-- `stage5_start`, to its jump to `stage5_load`. -/
def stage5Start : Code Unit := do
  let _ ← fetch .segSs
  let _ ← fetch .segEs
  let _ ← fetch .segFs
  let _ ← fetch .segGs
  let _ ← fetch .segDs
  let _ ← fetch .segCs
  return ()

end ToyBootloader
