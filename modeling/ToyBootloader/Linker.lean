import ToyBootloader.Ops
import ToyBootloader.Placement.Extent

/-!
# `linker.ld` and `shared/linker.ld`

Where every part of the boot lies, on the disk and in memory, as the linker
script computes it from the sizes of its sections. A section has two addresses:
the one it is LOADED at, which is its place in the image and so on the disk, and
the one it RUNS at. The image starts at `0x7C00`, so a load address minus
`0x7C00` is an offset on the disk.

The sizes are what a build supplies; `Sizes` carries the two that the script or
the format refuses otherwise.
-/

namespace ToyBootloader

open Placement

/-- The objects of `shared/Makefile`, in its order. -/
inductive SharedObject where
  | gdt | cpuid | mem | diskProps | floppy | idt | idtHandlers32
  deriving DecidableEq, Repr

/-- `OBJS` of `shared/Makefile`. -/
def sharedObjects : List SharedObject :=
  [.gdt, .cpuid, .mem, .diskProps, .floppy, .idt, .idtHandlers32]

/-- The object that defines a global. -/
def Var.object : Var → SharedObject
  | .fpyIrqHandleState => .floppy
  | _ => .diskProps

/-- What a build supplies to the linker script. -/
structure Sizes where
  stage1 : Nat
  /-- `.data_shared.load`. -/
  sharedLoad : Nat
  /-- Each object's share of `.data_shared.bss`. -/
  sharedBss : SharedObject → Section
  sharedBssAlignment : Nat
  /-- Where the compiler puts a global in its object's `.bss`. -/
  varOffset : Var → Nat
  stage2 : Nat
  stage3 : Nat
  stage3Bss : Section
  stage4 : Nat
  stage5 : Section
  stage4Bss : Section
  loaderProtected : Nat
  sharedBss_aligned : 0 < sharedBssAlignment
  /-- `memory_layout` is `mem.c`'s only global: 50 sections of 24 bytes. -/
  memoryLayout_size : (sharedBss .mem).size = 1200
  varOffset_lt : ∀ v, varOffset v < (sharedBss v.object).size
  varOffset_inj : ∀ v w, v.object = w.object → varOffset v = varOffset w → v = w
  /-- Stage 1 ends before the signature at `0x7DFE`. -/
  stage1_fits : stage1 ≤ 0x1FE
  /-- The script's `ASSERT`. -/
  loaderProtected_fits : loaderProtected < 0xE00

namespace Sizes

variable (L : Sizes)

/-! ## `.shared` -/

/-- `_shared_start` -/
def sharedStart : Nat := 0x7E00

/-- `_shared_end_load` -/
def sharedEndLoad : Nat := sharedStart + L.sharedLoad

/-- Where `*(.data_shared.bss)` is placed. -/
def sharedBssStart : Nat := alignUp L.sharedBssAlignment L.sharedEndLoad

/-- The size of `.data_shared.bss`, the objects' one after another. -/
def sharedBssSize : Nat := counter 0 (sharedObjects.map L.sharedBss)

/-- `SIZEOF(.shared)` -/
def shared : Nat := L.sharedBssStart + L.sharedBssSize - sharedStart

/-- Where an object's `.bss` is in `.data_shared.bss`. -/
def bssOffset (o : SharedObject) : Nat :=
  alignUp (L.sharedBss o).alignment
    (counter 0 ((sharedObjects.takeWhile (· ≠ o)).map L.sharedBss))

/-- The address of a global. -/
def addr (v : Var) : Nat := L.sharedBssStart + L.bssOffset v.object + L.varOffset v

/-- `_content_start` -/
def contentStart : Nat := alignUp 512 (sharedStart + L.shared)

/-! ## Load addresses -/

/-- `SIZEOF` of a part's section. -/
def size : Part → Nat
  | .shared => L.shared
  | .stage2 => L.stage2
  | .stage3 => L.stage3
  | .stage4 => L.stage4
  | .stage5 => L.stage5.size
  | .loaderProtected => L.loaderProtected

/-- `AT(ALIGN((LOADADDR(sec) + SIZEOF(sec)), 512))` -/
def after (lma size : Nat) : Nat := alignUp 512 (lma + size)

def sharedLoadAddr : Nat := 0x7E00

def stage2LoadAddr : Nat := after sharedLoadAddr L.shared

def stage3LoadAddr : Nat := after L.stage2LoadAddr L.stage2

def stage4LoadAddr : Nat := after L.stage3LoadAddr L.stage3

def stage5LoadAddr : Nat := after L.stage4LoadAddr L.stage4

def loaderProtectedLoadAddr : Nat := after L.stage5LoadAddr L.stage5.size

/-- `LOADADDR` of a part's section. -/
def loadAddr : Part → Nat
  | .shared => sharedLoadAddr
  | .stage2 => L.stage2LoadAddr
  | .stage3 => L.stage3LoadAddr
  | .stage4 => L.stage4LoadAddr
  | .stage5 => L.stage5LoadAddr
  | .loaderProtected => L.loaderProtectedLoadAddr

/-- `_*_first_section_index` -/
def firstSectionIndex (p : Part) : Nat := (L.loadAddr p - 0x7C00) / 512

/-- What is loaded of a part: of `.shared` the load part, of the others all. -/
def loadSize : Part → Nat
  | .shared => L.sharedEndLoad - sharedStart
  | p => L.size p

/-- `_*_load_count` -/
def loadCount (p : Part) : Nat := (511 + L.loadSize p) / 512

/-! ## Run addresses -/

/-- `_stage_3_bss_start`: the section follows `.stage3`. -/
def stage3BssStart : Nat := alignUp L.stage3Bss.alignment (L.contentStart + L.stage3)

/-- `_stage_3_bss_end` -/
def stage3BssEnd : Nat := L.stage3BssStart + L.stage3Bss.size

/-- `_stage_5_start`: the section follows `.stage4` at its own alignment. -/
def stage5Start : Nat := alignUp L.stage5.alignment (L.contentStart + L.stage4)

/-- `_stage_4_bss_start`: the section follows `.stage5`. -/
def stage4BssStart : Nat :=
  alignUp L.stage4Bss.alignment (L.stage5Start + L.stage5.size)

/-- `_stage_4_bss_end` -/
def stage4BssEnd : Nat := L.stage4BssStart + L.stage4Bss.size

/-- Where a part runs: `_shared_start`, `_content_start`, `_stage_5_start` and
`_loader_protected_start`. -/
def runAddr : Part → Nat
  | .shared => sharedStart
  | .stage2 | .stage3 | .stage4 => L.contentStart
  | .stage5 => L.stage5Start
  | .loaderProtected => 0x7000

/-- A build with one byte of code in every part. -/
def oneByte : Sizes where
  stage1 := 1
  sharedLoad := 1
  sharedBss o := ⟨match o with | .mem => 1200 | .diskProps => 8 | _ => 1, 1, by decide⟩
  sharedBssAlignment := 1
  varOffset v := match v with
    | .driveNumber | .fpyIrqHandleState => 0
    | .driveTypes => 1
    | .maxSectorNumber => 4
    | .maxHeadNumber => 5
    | .numberOfDrives => 6
  stage2 := 1
  stage3 := 1
  stage3Bss := ⟨1, 1, by decide⟩
  stage4 := 1
  stage5 := ⟨1, 1, by decide⟩
  stage4Bss := ⟨1, 1, by decide⟩
  loaderProtected := 1
  sharedBss_aligned := by decide
  memoryLayout_size := rfl
  varOffset_lt v := by cases v <;> decide
  varOffset_inj v w := by cases v <;> cases w <;> decide
  stage1_fits := by decide
  loaderProtected_fits := by decide

end Sizes

end ToyBootloader
