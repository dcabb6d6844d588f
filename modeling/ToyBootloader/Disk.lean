import ToyBootloader.Memory.Bytes
import ToyBootloader.Placement.Extent
import ToyBootloader.Shared.FloppyRead

/-!
# Sectors, and the READ that brings them

A disk is its bytes, 512 to a sector, and its geometry says which sector a
cylinder, a head and a sector number name. `Geometry.index_chs` is the fact the
address conversion of `fpy_copy_bytes` rests on: the three numbers it computes
name the sector it was given.

`Serves` is what a copy relies on. Memory answers loads with what was stored,
nothing but a store changes it outside what the DMA channel is set up for, and a
READ that succeeds has left its sector in the transfer buffer. The device, its
interrupts and their handler are otherwise free.
-/

namespace ToyBootloader

open Resumption Memory Placement

/-! ## Geometry -/

/-- What `disk_props` finds out about a disk, when there is one. -/
structure Geometry where
  maxSectorNumber : UInt8
  maxHeadNumber : UInt8
  sector_ne : maxSectorNumber ≠ 0
  sector_le : maxSectorNumber.toNat ≤ 63
  head_ne : maxHeadNumber ≠ 0

namespace Geometry

/-- Sectors to a cylinder. -/
def perCylinder (g : Geometry) : Nat := g.maxHeadNumber.toNat * g.maxSectorNumber.toNat

/-- Which sector of the disk an address names; sectors of a track count from
1. -/
def index (g : Geometry) (cylinder head sector : Nat) : Nat :=
  (cylinder * g.maxHeadNumber.toNat + head) * g.maxSectorNumber.toNat + (sector - 1)

/-- The address of a sector. -/
def chs (g : Geometry) (lba : UInt32) : Chs where
  c := lba / (g.maxHeadNumber.toUInt32 * g.maxSectorNumber.toUInt32)
  h := lba / g.maxSectorNumber.toUInt32 % g.maxHeadNumber.toUInt32
  s := lba % g.maxSectorNumber.toUInt32 + 1

/-- The address of a sector names the sector. -/
theorem index_div_mod (g : Geometry) (n : Nat) :
    g.index (n / g.perCylinder) (n / g.maxSectorNumber.toNat % g.maxHeadNumber.toNat)
      (n % g.maxSectorNumber.toNat + 1) = n := by
  have hcylinder : n / g.perCylinder = n / g.maxSectorNumber.toNat / g.maxHeadNumber.toNat := by
    rw [perCylinder, Nat.mul_comm, Nat.div_div_eq_div_mul]
  have htrack := Nat.div_add_mod' (n / g.maxSectorNumber.toNat) g.maxHeadNumber.toNat
  have hsector := Nat.div_add_mod' n g.maxSectorNumber.toNat
  rw [index, hcylinder, htrack, Nat.add_sub_cancel, hsector]

/-- The three numbers of a sector's address. -/
theorem chs_toNat (g : Geometry) (lba : UInt8) :
    (g.chs lba.toUInt32).c.toNat = lba.toNat / g.perCylinder ∧
      (g.chs lba.toUInt32).h.toNat =
        lba.toNat / g.maxSectorNumber.toNat % g.maxHeadNumber.toNat ∧
      (g.chs lba.toUInt32).s.toNat = lba.toNat % g.maxSectorNumber.toNat + 1 := by
  have hlt := Nat.mod_lt lba.toNat (Code.toNat_pos g.sector_ne)
  have hle := g.sector_le
  unfold chs perCylinder
  rw [UInt32.toNat_div, Code.toNat_mul_toUInt32, UInt32.toNat_mod, UInt32.toNat_div,
    UInt32.toNat_add, UInt32.toNat_mod, UInt8.toNat_toUInt32, UInt8.toNat_toUInt32,
    UInt8.toNat_toUInt32, UInt32.toNat_one]
  refine ⟨rfl, rfl, ?_⟩
  omega

/-- They are small, so bytes hold them. -/
theorem chs_lt (g : Geometry) (lba : UInt8) : (g.chs lba.toUInt32).c.toNat < 256 ∧
    (g.chs lba.toUInt32).h.toNat < 256 ∧ (g.chs lba.toUInt32).s.toNat < 256 := by
  have hlba := lba.toNat_lt
  have hheads := g.maxHeadNumber.toNat_lt
  have hcylinder := Nat.div_le_self lba.toNat g.perCylinder
  have hhead := Nat.mod_lt (lba.toNat / g.maxSectorNumber.toNat) (Code.toNat_pos g.head_ne)
  have hsector := Nat.mod_lt lba.toNat (Code.toNat_pos g.sector_ne)
  have hle := g.sector_le
  obtain ⟨hc, hh, hs⟩ := g.chs_toNat lba
  rw [hc, hh, hs]
  omega

/-- The address of a sector below 256 survives the bytes it is sent in. -/
theorem index_chs (g : Geometry) (sector : UInt8) :
    g.index (g.chs sector.toUInt32).c.toUInt8.toNat (g.chs sector.toUInt32).h.toUInt8.toNat
      (g.chs sector.toUInt32).s.toUInt8.toNat = sector.toNat := by
  obtain ⟨hc, hh, hs⟩ := g.chs_lt sector
  rw [UInt32.toNat_toUInt8, UInt32.toNat_toUInt8, UInt32.toNat_toUInt8, Nat.mod_eq_of_lt hc,
    Nat.mod_eq_of_lt hh, Nat.mod_eq_of_lt hs]
  obtain ⟨cylinder, head, number⟩ := g.chs_toNat sector
  rw [cylinder, head, number, index_div_mod]

end Geometry

/-! ## What a copy relies on -/

/-- Stores. -/
def Op.isStore : Op → Prop
  | .store _ _ => True
  | _ => False

/-- The memory the DMA channel is set up to transfer to: `floppy_dma`'s count
from `TRANSFER_BUFFER` on. A sector is less. -/
def dmaBuffer : Extent := ⟨TRANSFER_BUFFER, 0x300⟩

/-- An address the device does not write to. -/
def OutsideBuffer (a : Nat) : Prop := a < dmaBuffer.start ∨ dmaBuffer.stop ≤ a

theorem outsideBuffer_iff {a : Nat} :
    OutsideBuffer a ↔ a < TRANSFER_BUFFER ∨ TRANSFER_BUFFER + 0x300 ≤ a := Iff.rfl

/-- A machine whose memory is `mem`, with the disk `image` of geometry `g`
behind its controller. -/
structure Serves {σ : Type} (g : Geometry) (image : Nat → UInt8) (M : Machine ops σ)
    (mem : σ → Mem) : Prop where
  sectors : ∀ {s s' x}, M s (.get .maxSectorNumber) x s' → x = g.maxSectorNumber
  heads : ∀ {s s' x}, M s (.get .maxHeadNumber) x s' → x = g.maxHeadNumber
  load : ∀ {s s' a x}, M s (.load a) x s' → x = mem s a ∧ mem s' = mem s
  store : ∀ {s s' a b u}, M s (.store a b) u s' → mem s' = (mem s).set a b
  /-- The device writes to the memory it is set up for only. -/
  device : ∀ {s op x s'}, M s op x s' → ¬ op.isStore →
    ∀ a, OutsideBuffer a → mem s' a = mem s a
  /-- A READ of 512 bytes that succeeds leaves the sector in the buffer. -/
  read : ∀ {s p res s'}, Exec M (fpyCmdReadSector p) s res s' → p.sectorSize = 2 →
    res.error = noErr → ∀ j < 0x200, mem s' (TRANSFER_BUFFER + j) =
      image (0x200 * g.index p.cylinder.toNat p.head.toNat p.sector.toNat + j)

end ToyBootloader
