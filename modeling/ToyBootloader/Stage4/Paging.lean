import ToyBootloader.Memory.Bytes
import ToyBootloader.Stage2.Tasks

/-!
# `stage4/paging.c`

The page tables of long mode. A `struct pg_base` is eight bytes: an address is
stored over all of them at once, and then single bits are set. The three flags
used lie in the entry's first byte.
-/

namespace ToyBootloader

open Code Memory

/-- The tables of `paging.c`, by their addresses. They are aligned and apart by
their declarations, and stage 4's pointers have 32 bits. -/
structure Tables where
  pml4 : Nat
  pdp : Nat
  pd : Nat
  pml4_aligned : 0x1000 ∣ pml4
  pdp_aligned : 0x1000 ∣ pdp
  pd_aligned : 0x1000 ∣ pd
  pml4_lt : pml4 < 2 ^ 32
  pdp_lt : pdp < 2 ^ 32
  pd_lt : pd < 2 ^ 32
  pml4_ne_pdp : pml4 ≠ pdp
  pml4_ne_pd : pml4 ≠ pd
  pdp_ne_pd : pdp ≠ pd

/-- Bytes stored one after another. -/
def storeBytes : (addr : Nat) → List UInt8 → Code Unit
  | _, [] => return ()
  | addr, b :: bs => do
    store addr b
    storeBytes (addr + 1) bs

/-- `set_addr(pg, addr)`: the `uint64_t` of a 32-bit pointer. -/
def setAddr (pg addr : Nat) : Code Unit := storeBytes pg (bytesLE (addr % 2 ^ 32) 8)

/-- `pg->flag = 1` for a flag of the first byte. -/
def setFlag (pg : Nat) (bit : UInt8) : Code Unit := do
  let b ← load pg
  store pg (b ||| (1 <<< bit))

/-- `present`, `writable` and `huge_null` of `struct pg_base`. -/
def PG_PRESENT : UInt8 := 0
def PG_WRITABLE : UInt8 := 1
def PG_HUGE_NULL : UInt8 := 7

/-- The loop of `setup_paging` over the page directory; `n` entries are left,
from `i` on. -/
def setupPd (pd : Nat) : (n i : Nat) → Code Unit
  | 0, _ => return ()
  | n + 1, i => do
    setAddr (pd + 8 * i) (0x200000 * i)
    setFlag (pd + 8 * i) PG_PRESENT
    setFlag (pd + 8 * i) PG_WRITABLE
    setFlag (pd + 8 * i) PG_HUGE_NULL
    setupPd pd n (i + 1)

/-- `setup_paging` -/
def setupPaging (t : Tables) : Code Unit := do
  setAddr t.pml4 t.pdp
  setFlag t.pml4 PG_PRESENT
  setFlag t.pml4 PG_WRITABLE
  setAddr t.pdp t.pd
  setFlag t.pdp PG_PRESENT
  setFlag t.pdp PG_WRITABLE
  setupPd t.pd 512 0
  writeCr 3 (UInt32.ofNat t.pml4)
  setCrBit 4 5
  let msr ← rdmsr 0xC0000080
  wrmsr (msr ||| ((1 : UInt32) <<< (8 : UInt32)))
  setCrBit 0 31
  assign .segEs (segRegister 2)
  assign .segFs (segRegister 2)
  assign .segGs (segRegister 2)
  assign .segDs (segRegister 2)
  assign .segSs (segRegister 2)
  assign .segCs (segRegister 3)

end ToyBootloader
