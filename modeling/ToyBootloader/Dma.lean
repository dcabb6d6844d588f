import Mathlib.Logic.Function.Basic
import ToyBootloader.Resumption.Simulate
import ToyBootloader.Stage3.Floppy

/-!
# The DMA controllers

The two 8237s and the page registers, as the bus addresses them. Channels 0 to 3
are on the first controller, 4 to 7 on the second, whose registers are two ports
apart. A sixteen-bit register is written through one port, a byte at a time: the
controller's flip-flop says which byte is next. Which channel a mask or a mode is
for is in the low two bits of the byte.
-/

namespace ToyBootloader

open Resumption Code

/-! ## Registers -/

/-- A channel. A write to its address or its count goes to the base register and to
the current one. -/
structure Channel where
  masked : Bool
  mode : UInt8
  baseAddress : UInt16
  address : UInt16
  baseCount : UInt16
  count : UInt16
  page : UInt8
  deriving DecidableEq, Repr

/-- Both controllers: their channels, and the flip-flop of each. -/
structure Dma where
  channels : Fin 8 → Channel
  flipflop : Fin 2 → Bool

/-- What a port writes. -/
inductive DmaReg where
  | address (a : Fin 8)
  | count (a : Fin 8)
  | page (a : Fin 8)
  /-- The single mask register of a controller. -/
  | mask (controller : Fin 2)
  | mode (controller : Fin 2)
  | clearFlipflop (controller : Fin 2)
  deriving DecidableEq, Repr

/-- The floppy controller's channel. -/
def floppyChannel : Fin 8 := 2

namespace Dma

/-- The controller a channel is on. -/
def controller (a : Fin 8) : Fin 2 := if a.val < 4 then 0 else 1

/-- The channel of a controller the byte names. -/
def named (controller : Fin 2) (v : UInt8) : Fin 8 :=
  if controller = 0 then Fin.ofNat 8 (v &&& 3).toNat else Fin.ofNat 8 (4 + (v &&& 3).toNat)

/-- The ports. -/
def ports : List (UInt16 × DmaReg) :=
  [(0x00, .address 0), (0x02, .address 1), (0x04, .address 2), (0x06, .address 3),
    (0xC0, .address 4), (0xC4, .address 5), (0xC8, .address 6), (0xCC, .address 7),
    (0x01, .count 0), (0x03, .count 1), (0x05, .count 2), (0x07, .count 3),
    (0xC2, .count 4), (0xC6, .count 5), (0xCA, .count 6), (0xCE, .count 7),
    (0x87, .page 0), (0x83, .page 1), (0x81, .page 2), (0x82, .page 3),
    (0x8F, .page 4), (0x8B, .page 5), (0x89, .page 6), (0x8A, .page 7),
    (0x0A, .mask 0), (0xD4, .mask 1), (0x0B, .mode 0), (0xD6, .mode 1),
    (0x0C, .clearFlipflop 0), (0xD8, .clearFlipflop 1)]

/-- One byte of a sixteen-bit register. -/
def setByte (high : Bool) (w : UInt16) (v : UInt8) : UInt16 :=
  if high then (w &&& 0x00FF) ||| (v.toUInt16 <<< (8 : UInt16)) else (w &&& 0xFF00) ||| v.toUInt16

/-- A channel is changed. -/
def on (d : Dma) (a : Fin 8) (f : Channel → Channel) : Dma :=
  { d with channels := Function.update d.channels a (f (d.channels a)) }

/-- A byte of one of the channel's sixteen-bit registers was written. -/
def toggle (d : Dma) (a : Fin 8) : Dma :=
  { d with flipflop := Function.update d.flipflop (controller a) (!d.flipflop (controller a)) }

/-- A register is written. -/
def write (d : Dma) (r : DmaReg) (v : UInt8) : Dma :=
  match r with
  | .address a =>
    let high := d.flipflop (controller a)
    (d.on a fun ch => { ch with baseAddress := setByte high ch.baseAddress v
                                address := setByte high ch.address v }).toggle a
  | .count a =>
    let high := d.flipflop (controller a)
    (d.on a fun ch => { ch with baseCount := setByte high ch.baseCount v
                                count := setByte high ch.count v }).toggle a
  | .page a => d.on a fun ch => { ch with page := v }
  | .mask c => d.on (named c v) fun ch => { ch with masked := testBit v 2 }
  | .mode c => d.on (named c v) fun ch => { ch with mode := v &&& 0xFC }
  | .clearFlipflop c => { d with flipflop := Function.update d.flipflop c false }

/-- The controllers on the bus. -/
def sim : Simulator ops Dma := fun d op =>
  match op with
  | .outb port v => (ports.lookup port).map fun r => ((), d.write r v)
  | _ => none

end Dma

/-! ## Calls -/

/-- A call of one of the helpers of `shared/dma.h`, but for the channel. -/
inductive DmaCall where
  | maskChannel
  | unmaskChannel
  | resetFlipflop
  | setupAddress (addr : UInt16)
  | setupCount (count : UInt16)
  | setupPage (val : UInt8)
  | setMode (sel incdec autoinit transfer : UInt8)

namespace DmaCall

/-- The call's code. -/
def code (chan : UInt8) : DmaCall → Code Unit
  | .maskChannel => dmaMaskChannel chan
  | .unmaskChannel => dmaUnmaskChannel chan
  | .resetFlipflop => dmaResetFlipflop chan
  | .setupAddress addr => dmaSetupAddress chan addr
  | .setupCount count => dmaSetupCount chan count
  | .setupPage val => dmaSetupPage chan val
  | .setMode sel incdec autoinit transfer => dmaSetMode chan sel incdec autoinit transfer

/-- The mask bit the calls ask for: the last mask or unmask decides, and what was
there before when there is none. -/
def askedMask (before : Bool) : List DmaCall → Bool
  | [] => before
  | .maskChannel :: cs => askedMask true cs
  | .unmaskChannel :: cs => askedMask false cs
  | _ :: cs => askedMask before cs

/-- The page the calls ask for. -/
def askedPage (before : UInt8) : List DmaCall → UInt8
  | [] => before
  | .setupPage val :: cs => askedPage val cs
  | _ :: cs => askedPage before cs

end DmaCall

end ToyBootloader
