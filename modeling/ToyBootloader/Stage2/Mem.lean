import ToyBootloader.Stage2.Printf

/-!
# `print_mem_sec`

A section of memory as the BIOS reports it, and the line that is printed of it. A 64-bit
argument is two words on the stack, the lower one first.
-/

namespace ToyBootloader

open Memory Printf

/-- `struct mem_sec`, the fields that are printed. -/
structure MemSec where
  base : UInt64
  length : UInt64
  type : UInt32
  deriving DecidableEq, Repr

/-- A `uint64_t` as it is pushed. -/
def words64 (x : UInt64) : List UInt32 := [x.toUInt32, (x >>> 32).toUInt32]

/-- The format. -/
def memSecFormat : List UInt8 := text "[base:0x%lp, length:0x%lx, type:%d]\n"

/-- The arguments, and above them what else is on the stack. -/
def memSecArgs (m : MemSec) (above : Stream' UInt32) : Stream' UInt32 :=
  (words64 m.base ++ words64 m.length ++ [m.type]) ++ₛ above

/-- `print_mem_sec` -/
def printMemSec (m : MemSec) (above : Stream' UInt32) (memory : Mem32) (t : Console) :
    Mem32 × Console :=
  printf memSecFormat (memSecArgs m above) memory t

end ToyBootloader
