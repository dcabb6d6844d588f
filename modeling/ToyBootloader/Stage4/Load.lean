import ToyBootloader.Linker
import ToyBootloader.Stage4.Paging

/-!
# `stage4/load.c`

Stage 4 turns long mode on. Its call of `setup_idt` is commented out, so the
descriptor table and the handlers it finds are the ones it leaves.
-/

namespace ToyBootloader

/-- `stage4_load`, to its jump to stage 5. -/
def stage4Load (t : Tables) : Code Unit := setupPaging t

/-- An address with the whole of its page in stage 4's `.bss`. -/
def Sizes.InStage4Bss (L : Sizes) (a : Nat) : Prop :=
  L.stage4BssStart ≤ a ∧ a + 0x1000 ≤ L.stage4BssEnd

/-- The page tables of a build: they have no initializer, so the linker script
places them in `.bss.stage4`. -/
structure Sizes.Stage4Tables (L : Sizes) extends Tables where
  pml4_placed : L.InStage4Bss pml4
  pdp_placed : L.InStage4Bss pdp
  pd_placed : L.InStage4Bss pd

end ToyBootloader
