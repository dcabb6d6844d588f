import Mathlib.Logic.Function.Basic
import ToyBootloader.Memory.Fields
import ToyBootloader.Stage3.Load

/-!
# What the processor reads in a descriptor

The eight bytes of an entry of the global descriptor table or of the interrupt
descriptor table are one 64-bit number to the processor, cut into fields at fixed
bits. The two structures here are that reading. They know nothing of the packed
structs the boot code fills in, whose layout is the compiler's.

The tables themselves are `IdtTables`: the interrupt descriptors, the handlers called
through them, and the code segment's selector that every gate is made with.
-/

namespace ToyBootloader

open Resumption Memory

/-! ## Segments -/

/-- A segment descriptor: its base and limit, put together from their pieces, and the
bits between them. -/
structure Segment where
  base : Nat
  limit : Nat
  accessed : Bool
  /-- Of a code segment readable, of a data segment writable. -/
  readWrite : Bool
  /-- Of a code segment conforming, of a data segment growing down. -/
  conforming : Bool
  executable : Bool
  /-- Not a system segment. -/
  codeOrData : Bool
  privilege : Nat
  present : Bool
  available : Bool
  long : Bool
  /-- 32-bit operands and addresses. -/
  big : Bool
  granular : Bool
  deriving DecidableEq, Repr

/-- A field of one bit. -/
def bit (lo n : Nat) : Bool := field lo 1 n = 1

/-- The segment that eight bytes describe. -/
def Segment.ofBytes (bs : List UInt8) : Segment :=
  let n := number bs
  { base := field 16 24 n + 2 ^ 24 * field 56 8 n
    limit := field 0 16 n + 2 ^ 16 * field 48 4 n
    accessed := bit 40 n
    readWrite := bit 41 n
    conforming := bit 42 n
    executable := bit 43 n
    codeOrData := bit 44 n
    privilege := field 45 2 n
    present := bit 47 n
    available := bit 52 n
    long := bit 53 n
    big := bit 54 n
    granular := bit 55 n }

/-- The greatest offset in the segment: the limit counts bytes or, with granularity,
pages of 4096. -/
def Segment.effectiveLimit (s : Segment) : Nat :=
  if s.granular then s.limit * 4096 + 4095 else s.limit

/-! ## Gates -/

/-- An interrupt or trap gate of 32 bits. -/
structure Gate where
  offset : Nat
  selector : Nat
  /-- The byte that is to be zero. -/
  zero : Nat
  kind : Nat
  privilege : Nat
  present : Bool
  deriving DecidableEq, Repr

/-- The five bits of a gate's kind: 32-bit interrupt gate, 32-bit trap gate. -/
def INTERRUPT_GATE : Nat := 0xE
def TRAP_GATE : Nat := 0xF

/-- The gate that eight bytes describe. -/
def Gate.ofBytes (bs : List UInt8) : Gate :=
  let n := number bs
  { offset := field 0 16 n + 2 ^ 16 * field 48 16 n
    selector := field 16 16 n
    zero := field 32 8 n
    kind := field 40 5 n
    privilege := field 45 2 n
    present := bit 47 n }

/-! ## The tables -/

/-- The bytes of a selector. -/
def selectorBytes (x : UInt16) : List UInt8 := [x.toUInt8, (x >>> 8).toUInt8]

/-- `g_idt`, `idt_handlers_32`, where a null pointer is none, and `seg_cs`. -/
structure IdtTables where
  gates : UInt8 → List UInt8
  handlers : UInt8 → Option Handler
  segCs : UInt16

namespace IdtTables

/-- An entry assigned. -/
def setGate (t : IdtTables) (n : UInt8) (bs : List UInt8) : IdtTables :=
  { t with gates := Function.update t.gates n bs }

/-- The tables, kept. Nothing else is answered. -/
def sim : Simulator ops IdtTables := fun t op =>
  match op with
  | .fetch .segCs => some (selectorBytes t.segCs, t)
  | .assign (.gIdt n) bs => some ((), t.setGate n bs)
  | .setInterrupt n h => some ((), { t with handlers := Function.update t.handlers n (some h) })
  | _ => none

abbrev machine : Machine ops IdtTables := sim.machine

/-- Nothing is set. -/
def zeroed (segCs : UInt16) : IdtTables where
  gates _ := List.replicate 8 0
  handlers _ := none
  segCs

end IdtTables

end ToyBootloader
