import Mathlib.Data.Fintype.Basic
import ToyBootloader.Dma
import ToyBootloader.Memory.Fields
import ToyBootloader.Resumption.Waiting

/-!
# Isolation of the DMA channels

What a call of `shared/dma.h` does to the channels: it changes its own one, with two
exceptions. A mask and an unmask go to the first controller whatever the channel is,
so a call about one of channels 4 to 7 is a call about the channel four below it; and
channel 3's page is written to the port of channel 2's.
-/

namespace ToyBootloader

open Resumption Code Memory

/-! ## What is asked of a channel -/

/-- A channel with its mask bit and its page as the calls asked, where they reach
it. -/
def Channel.asked (ch : Channel) (mask page : Prop) [Decidable mask] [Decidable page]
    (calls : List DmaCall) : Channel :=
  { ch with masked := if mask then DmaCall.askedMask ch.masked calls else ch.masked
            page := if page then DmaCall.askedPage ch.page calls else ch.page }

namespace DmaCall

theorem askedMask_cons (before : Bool) (c : DmaCall) (cs : List DmaCall) :
    askedMask before (c :: cs) = askedMask (askedMask before [c]) cs := by
  cases c <;> rfl

theorem askedPage_cons (before : UInt8) (c : DmaCall) (cs : List DmaCall) :
    askedPage before (c :: cs) = askedPage (askedPage before [c]) cs := by
  cases c <;> rfl

end DmaCall

namespace Dma

/-! ## Writes -/

@[simp] theorem toggle_channels (d : Dma) (a : Fin 8) : (d.toggle a).channels = d.channels := rfl

theorem on_channels (d : Dma) (a b : Fin 8) (f : Channel → Channel) :
    (d.on a f).channels b = if b = a then f (d.channels b) else d.channels b := by
  unfold on
  by_cases h : b = a
  · rw [if_pos h, h]
    exact Function.update_self ..
  · rw [if_neg h]
    exact Function.update_of_ne h ..

theorem exec_outb {d d' : Dma} {port : UInt16} {v : UInt8} {r : DmaReg} {u : Unit}
    (h : ports.lookup port = some r) :
    Exec sim.machine (outb port v) d u d' ↔ d' = d.write r v := by
  have settles : Settles sim.machine (.outb port v) (fun _ => ()) fun d => d.write r v := by
    intro d u d'
    apply Simulator.machine_iff
    rw [sim, h, Option.map_some]
  exact settles.exec_vis.trans (exec_pure.trans (and_iff_right rfl))

/-- The lower byte and then the upper one, to one port. -/
theorem exec_outb_halves {d d' : Dma} {port : UInt16} {r : DmaReg} {u : Unit}
    (h : ports.lookup port = some r) (x : UInt16) :
    Exec sim.machine (do outb port x.toUInt8; outb port (x >>> 8).toUInt8) d u d' ↔
      d' = (d.write r x.toUInt8).write r (x >>> 8).toUInt8 := by
  simp only [Prog.bind_eq, exec_bind, exec_outb h]
  constructor
  · rintro ⟨-, d₁, rfl, rfl⟩
    rfl
  · intro written
    exact ⟨(), _, rfl, written⟩

/-! ## Calls -/

/-- The channel a mask or an unmask is for. -/
def maskedBy (a : Fin 8) : Fin 8 := ⟨a.val % 4, by omega⟩

/-- The channel whose page a call writes. -/
def pagedBy (a : Fin 8) : Fin 8 := if a.val = 3 then floppyChannel else a

/-- The byte `dma_set_mode` writes. -/
def modeByte (a : Fin 8) (sel incdec autoinit transfer : UInt8) : UInt8 :=
  ((if UInt8.ofNat a > 3 then UInt8.ofNat a - 4 else UInt8.ofNat a) &&& 3)
    ||| ((transfer &&& 3) <<< (2 : UInt8)) ||| ((autoinit &&& 1) <<< (4 : UInt8))
    ||| ((incdec &&& 1) <<< (5 : UInt8)) ||| ((sel &&& 3) <<< (6 : UInt8))

/-- The registers a call writes, in order. -/
def writes (a : Fin 8) : DmaCall → List (DmaReg × UInt8)
  | .maskChannel => [(.mask ⟨0, by decide⟩, dmaControl (UInt8.ofNat a) true)]
  | .unmaskChannel => [(.mask ⟨0, by decide⟩, dmaControl (UInt8.ofNat a) false)]
  | .resetFlipflop => [(.clearFlipflop (controller a), 0xFF)]
  | .setupAddress addr => [(.address a, addr.toUInt8), (.address a, (addr >>> 8).toUInt8)]
  | .setupCount count => [(.count a, count.toUInt8), (.count a, (count >>> 8).toUInt8)]
  | .setupPage val => [(.page (pagedBy a), val)]
  | .setMode sel incdec autoinit transfer =>
    [(.mode (controller a), modeByte a sel incdec autoinit transfer)]

/-- What a call leaves. -/
def after (a : Fin 8) (d : Dma) (c : DmaCall) : Dma :=
  (writes a c).foldl (fun d w => d.write w.1 w.2) d

/-- The ports of the three tables, and those the second controller has a register
of its own for. -/
theorem lookup_ports : ∀ a : Fin 8,
    ports.lookup (dmaGetPortAddress (UInt8.ofNat a)) = some (.address a) ∧
    ports.lookup (dmaGetPortCount (UInt8.ofNat a)) = some (.count a) ∧
    ports.lookup (dmaGetPortPage (UInt8.ofNat a)) = some (.page (pagedBy a)) ∧
    ports.lookup (if UInt8.ofNat a > 3 then 0xD8 else 0x0C) = some (.clearFlipflop (controller a)) ∧
    ports.lookup (if UInt8.ofNat a > 3 then 0xD6 else 0x0B) = some (.mode (controller a)) := by
  decide

theorem exec_code {d d' : Dma} {a : Fin 8} {c : DmaCall} {u : Unit} :
    Exec sim.machine (c.code (UInt8.ofNat a)) d u d' ↔ d' = after a d c := by
  obtain ⟨address, count, page, clear, mode⟩ := lookup_ports a
  have mask : ports.lookup 0x0A = some (.mask 0) := by decide
  cases c with
  | maskChannel => exact exec_outb mask
  | unmaskChannel => exact exec_outb mask
  | resetFlipflop => exact exec_outb clear
  | setupAddress addr => exact exec_outb_halves address addr
  | setupCount n => exact exec_outb_halves count n
  | setupPage val => exact exec_outb page
  | setMode sel incdec autoinit transfer => exact exec_outb mode

theorem exec_calls {d d' : Dma} {a : Fin 8} {calls : List DmaCall} {u : Unit} :
    Exec sim.machine (calls.forM (DmaCall.code (UInt8.ofNat a))) d u d' ↔
      d' = calls.foldl (after a) d := by
  induction calls generalizing d with
  | nil => simp only [List.forM, Prog.pure_eq, exec_pure, List.foldl_nil, true_and]
  | cons c calls ih =>
    simp only [List.forM, Prog.bind_eq, exec_bind, exec_code, ih, List.foldl_cons,
      exists_eq_left, exists_const]

/-! ## What a call does to the channels -/

/-- A field that stands left of the channel's two bits leaves them alone. -/
theorem shifted_and_three {k : UInt8} (hlo : 2 ≤ k) (hhi : k < 8) (v : UInt8) :
    (v <<< k) &&& 3 = 0 := by
  have hk : k.toNat % 8 = k.toNat := Nat.mod_eq_of_lt hhi
  obtain ⟨m, hm⟩ : ∃ m, k.toNat = 2 + m := Nat.exists_eq_add_of_le (show 2 ≤ k.toNat from hlo)
  apply UInt8.toNat_inj.mp
  rw [UInt8.toNat_and, UInt8.toNat_shiftLeft, hk, hm, Nat.shiftLeft_eq, Nat.pow_add]
  change _ &&& 2 ^ 2 - 1 = 0
  rw [Nat.and_two_pow_sub_one_eq_mod, Nat.mod_mod_of_dvd _ (by decide), Nat.mul_left_comm]
  exact Nat.mul_mod_right ..

/-- Which channel the mask's byte names. -/
theorem named_dmaControl : ∀ a : Fin 8, ∀ disable,
    named 0 (dmaControl (UInt8.ofNat a) disable) = maskedBy a ∧
      testBit (dmaControl (UInt8.ofNat a) disable) 2 = disable := by
  decide

/-- Which channel the mode's byte names. -/
theorem named_modeByte (a : Fin 8) (sel incdec autoinit transfer : UInt8) :
    named (controller a) (modeByte a sel incdec autoinit transfer) = a := by
  have channel : ∀ a : Fin 8, named (controller a)
      (if UInt8.ofNat a > 3 then UInt8.ofNat a - 4 else UInt8.ofNat a) = a := by
    decide
  have low : modeByte a sel incdec autoinit transfer &&& 3 =
      (if UInt8.ofNat a > 3 then UInt8.ofNat a - 4 else UInt8.ofNat a) &&& 3 := by
    simp only [modeByte, or_and, shifted_and_three (k := 2) (by decide) (by decide),
      shifted_and_three (k := 4) (by decide) (by decide),
      shifted_and_three (k := 5) (by decide) (by decide),
      shifted_and_three (k := 6) (by decide) (by decide), UInt8.or_zero, UInt8.and_assoc,
      UInt8.and_self]
  rw [named, low]
  exact channel a

theorem after_maskChannel (a : Fin 8) (d : Dma) :
    after a d .maskChannel = d.on (maskedBy a) fun ch => { ch with masked := true } := by
  obtain ⟨hnamed, hbit⟩ := named_dmaControl a true
  change d.on (named 0 (dmaControl (UInt8.ofNat a) true))
    (fun ch => { ch with masked := testBit (dmaControl (UInt8.ofNat a) true) 2 }) = _
  rw [hnamed, hbit]

theorem after_unmaskChannel (a : Fin 8) (d : Dma) :
    after a d .unmaskChannel = d.on (maskedBy a) fun ch => { ch with masked := false } := by
  obtain ⟨hnamed, hbit⟩ := named_dmaControl a false
  change d.on (named 0 (dmaControl (UInt8.ofNat a) false))
    (fun ch => { ch with masked := testBit (dmaControl (UInt8.ofNat a) false) 2 }) = _
  rw [hnamed, hbit]

theorem after_setupPage (a : Fin 8) (d : Dma) (val : UInt8) :
    after a d (.setupPage val) = d.on (pagedBy a) fun ch => { ch with page := val } := rfl

theorem after_setMode (a : Fin 8) (d : Dma) (sel incdec autoinit transfer : UInt8) :
    after a d (.setMode sel incdec autoinit transfer) =
      d.on a fun ch => { ch with mode := modeByte a sel incdec autoinit transfer &&& 0xFC } := by
  change d.on (named (controller a) (modeByte a sel incdec autoinit transfer))
    (fun ch => { ch with mode := modeByte a sel incdec autoinit transfer &&& 0xFC }) = _
  rw [named_modeByte]

/-- The two bytes of an address or of a count change the channel's own registers. -/
theorem channels_setup (a : Fin 8) (d : Dma) {c : DmaCall}
    (hc : (∃ addr, c = .setupAddress addr) ∨ ∃ count, c = .setupCount count) :
    (∀ b ≠ a, (after a d c).channels b = d.channels b) ∧
      ((after a d c).channels a).masked = (d.channels a).masked := by
  rcases hc with ⟨addr, rfl⟩ | ⟨count, rfl⟩
  · constructor
    · intro b hb
      simp only [after, writes, List.foldl, write, toggle_channels, on_channels, if_neg hb]
    · simp only [after, writes, List.foldl, write, toggle_channels, on_channels, if_true]
  · constructor
    · intro b hb
      simp only [after, writes, List.foldl, write, toggle_channels, on_channels, if_neg hb]
    · simp only [after, writes, List.foldl, write, toggle_channels, on_channels, if_true]

/-- A call about channel `a`, as another channel sees it: it may reach its mask bit
and its page, and nothing else. -/
theorem channels_after (d : Dma) (a : Fin 8) (c : DmaCall) {b : Fin 8} (hb : b ≠ a) :
    (after a d c).channels b = (d.channels b).asked (b = maskedBy a) (b = pagedBy a) [c] := by
  unfold Channel.asked
  cases c with
  | maskChannel =>
    rw [after_maskChannel, on_channels]
    simp only [DmaCall.askedMask, DmaCall.askedPage, ite_self]
    split <;> rfl
  | unmaskChannel =>
    rw [after_unmaskChannel, on_channels]
    simp only [DmaCall.askedMask, DmaCall.askedPage, ite_self]
    split <;> rfl
  | resetFlipflop =>
    simp only [DmaCall.askedMask, DmaCall.askedPage, ite_self]
    rfl
  | setupAddress addr =>
    simp only [DmaCall.askedMask, DmaCall.askedPage, ite_self]
    exact (channels_setup a d (.inl ⟨addr, rfl⟩)).1 b hb
  | setupCount count =>
    simp only [DmaCall.askedMask, DmaCall.askedPage, ite_self]
    exact (channels_setup a d (.inr ⟨count, rfl⟩)).1 b hb
  | setupPage val =>
    rw [after_setupPage, on_channels]
    simp only [DmaCall.askedMask, DmaCall.askedPage, ite_self]
    split <;> rfl
  | setMode sel incdec autoinit transfer =>
    rw [after_setMode, on_channels, if_neg hb]
    simp only [DmaCall.askedMask, DmaCall.askedPage, ite_self]

/-- And as the channel itself does. -/
theorem masked_after (d : Dma) (a : Fin 8) (c : DmaCall) :
    ((after a d c).channels a).masked =
      if a = maskedBy a then DmaCall.askedMask (d.channels a).masked [c]
      else (d.channels a).masked := by
  cases c with
  | maskChannel =>
    rw [after_maskChannel, on_channels]
    split <;> rfl
  | unmaskChannel =>
    rw [after_unmaskChannel, on_channels]
    split <;> rfl
  | resetFlipflop =>
    simp only [DmaCall.askedMask, ite_self]
    rfl
  | setupAddress addr =>
    simp only [DmaCall.askedMask, ite_self]
    exact (channels_setup a d (.inl ⟨addr, rfl⟩)).2
  | setupCount count =>
    simp only [DmaCall.askedMask, ite_self]
    exact (channels_setup a d (.inr ⟨count, rfl⟩)).2
  | setupPage val =>
    rw [after_setupPage, on_channels]
    simp only [DmaCall.askedMask, ite_self]
    split <;> rfl
  | setMode sel incdec autoinit transfer =>
    rw [after_setMode, on_channels, if_pos rfl]
    simp only [DmaCall.askedMask, ite_self]

/-! ## A register set -/

/-- Both bytes of a register written, the low one first. -/
theorem setByte_setByte (w v : UInt16) :
    setByte true (setByte false w v.toUInt8) (v >>> 8).toUInt8 = v := by
  have low : ∀ i < 16, (0x00FF : UInt16).toBitVec.getLsbD i = decide (i < 8) := by decide
  have high : ∀ i < 16, (0xFF00 : UInt16).toBitVec.getLsbD i = decide (8 ≤ i) := by decide
  have shift : ((8 : UInt16).toBitVec % 16 : BitVec 16).toNat = 8 := rfl
  apply UInt16.toBitVec_inj.mp
  apply BitVec.eq_of_getLsbD_eq
  intro i hi
  simp only [setByte, if_true, Bool.false_eq_true, if_false, UInt16.toBitVec_or,
    UInt16.toBitVec_and, UInt16.toBitVec_shiftLeft, UInt8.toBitVec_toUInt16,
    UInt16.toBitVec_toUInt8, UInt16.toBitVec_shiftRight, BitVec.getLsbD_or, BitVec.getLsbD_and,
    low i hi, high i hi, BitVec.getLsbD_setWidth, BitVec.shiftLeft_eq', BitVec.ushiftRight_eq',
    BitVec.getLsbD_shiftLeft, BitVec.getLsbD_ushiftRight, hi, decide_true, Bool.true_and, shift]
  by_cases h : i < 8
  · have hge : ¬ 8 ≤ i := Nat.not_le.mpr h
    simp [h, hge]
  · have hsub : 8 + (i - 8) = i := by omega
    have hlt : i - 8 < 8 := by omega
    have hlt' : i - 8 < 16 := by omega
    simp [h, hsub, hlt, hlt']

/-- An address set with the flip-flop clear is the channel's address. -/
theorem setupAddress_after_reset (a : Fin 8) (d : Dma) (addr : UInt16) :
    (after a (after a d .resetFlipflop) (.setupAddress addr)).channels a =
      { d.channels a with baseAddress := addr, address := addr } := by
  simp only [after, writes, List.foldl, write, toggle, on, Function.update_self, Bool.not_false,
    setByte_setByte]

theorem setupCount_after_reset (a : Fin 8) (d : Dma) (count : UInt16) :
    (after a (after a d .resetFlipflop) (.setupCount count)).channels a =
      { d.channels a with baseCount := count, count := count } := by
  simp only [after, writes, List.foldl, write, toggle, on, Function.update_self, Bool.not_false,
    setByte_setByte]

/-! ## Sequences of calls -/

/-- Another channel after any calls about channel `a`. -/
theorem channels_calls (d : Dma) (a : Fin 8) (calls : List DmaCall) {b : Fin 8} (hb : b ≠ a) :
    (calls.foldl (after a) d).channels b =
      (d.channels b).asked (b = maskedBy a) (b = pagedBy a) calls := by
  induction calls generalizing d with
  | nil =>
    simp only [List.foldl_nil, Channel.asked, DmaCall.askedMask, DmaCall.askedPage, ite_self]
  | cons c calls ih =>
    rw [List.foldl_cons, ih, channels_after d a c hb]
    unfold Channel.asked
    rw [DmaCall.askedMask_cons _ c calls, DmaCall.askedPage_cons _ c calls]
    congr 1
    · split <;> rfl
    · split <;> rfl

/-- The mask bit of channel `a` itself. -/
theorem masked_calls (d : Dma) (a : Fin 8) (calls : List DmaCall) :
    ((calls.foldl (after a) d).channels a).masked =
      if a = maskedBy a then DmaCall.askedMask (d.channels a).masked calls
      else (d.channels a).masked := by
  induction calls generalizing d with
  | nil => simp only [List.foldl_nil, DmaCall.askedMask, ite_self]
  | cons c calls ih =>
    rw [List.foldl_cons, ih, masked_after, DmaCall.askedMask_cons _ c calls]
    split <;> rfl

/-- The channels are isolated: after the calls on channel `a` every other channel is
what it was, and the mask bit of `a` is the one last asked for. -/
def Isolated (d : Dma) (a : Fin 8) (calls : List DmaCall) : Prop :=
  ∀ d', Exec sim.machine (calls.forM (DmaCall.code (UInt8.ofNat a))) d () d' →
    (∀ b, b ≠ a → d'.channels b = d.channels b) ∧
      (d'.channels a).masked = DmaCall.askedMask (d.channels a).masked calls

private theorem maskedBy_high : ∀ a : Fin 8, 4 ≤ a → maskedBy a = a - 4 ∧ a - 4 ≠ a := by decide

private theorem pagedBy_cases : ∀ a : Fin 8, (a = 3 → pagedBy a = 2) ∧ (a ≠ 3 → pagedBy a = a) := by
  decide

/-- Where the channels are isolated, nothing was asked for that changes another's mask. -/
theorem Isolated.askedMask_eq {d : Dma} {a : Fin 8} {calls : List DmaCall} (h : d.Isolated a calls)
    (ha : 4 ≤ a) : DmaCall.askedMask (d.channels (a - 4)).masked calls = (d.channels (a - 4)).masked ∧
      DmaCall.askedMask (d.channels a).masked calls = (d.channels a).masked := by
  obtain ⟨others, own⟩ := h _ (exec_calls.mpr rfl)
  obtain ⟨hm, hne⟩ := maskedBy_high a ha
  have other := congrArg Channel.masked (others _ hne)
  rw [channels_calls d a calls hne, ← hm] at other
  simp only [Channel.asked, if_true] at other
  rw [masked_calls, hm, if_neg hne.symm] at own
  exact ⟨hm ▸ other, own.symm⟩

/-- Nor another's page. -/
theorem Isolated.askedPage_eq {d : Dma} {calls : List DmaCall} (h : d.Isolated 3 calls) :
    DmaCall.askedPage (d.channels 2).page calls = (d.channels 2).page := by
  obtain ⟨others, -⟩ := h _ (exec_calls.mpr rfl)
  have other := congrArg Channel.page (others 2 (by decide))
  rw [channels_calls d 3 calls (by decide)] at other
  rw [(pagedBy_cases 3).1 rfl] at other
  simpa only [Channel.asked, if_true] using other

/-- From every state, for every channel and every sequence of calls on it: the
channels are isolated exactly when, of channel 4 and above, the last mask or unmask
asks for what that channel and the one four below are already, and, of channel 3,
the last page is the one channel 2 has already. -/
theorem isolated_iff (d : Dma) (a : Fin 8) (calls : List DmaCall) :
    d.Isolated a calls ↔
      (4 ≤ a → DmaCall.askedMask (d.channels (a - 4)).masked calls = (d.channels (a - 4)).masked ∧
        DmaCall.askedMask (d.channels a).masked calls = (d.channels a).masked) ∧
      (a = 3 → DmaCall.askedPage (d.channels 2).page calls = (d.channels 2).page) := by
  have low : ∀ a : Fin 8, ¬ 4 ≤ a → maskedBy a = a := by decide
  constructor
  · intro h
    refine ⟨h.askedMask_eq, ?_⟩
    rintro rfl
    exact h.askedPage_eq
  · rintro ⟨mask, page⟩ d' run
    rw [exec_calls.mp run]
    constructor
    · intro b hb
      rw [channels_calls d a calls hb]
      have hmask : (if b = maskedBy a then DmaCall.askedMask (d.channels b).masked calls
          else (d.channels b).masked) = (d.channels b).masked := by
        by_cases hbm : b = maskedBy a
        · have ha : 4 ≤ a := by
            by_contra ha
            exact hb (hbm.trans (low a ha))
          rw [if_pos hbm, hbm, (maskedBy_high a ha).1]
          exact (mask ha).1
        · rw [if_neg hbm]
      have hpage : (if b = pagedBy a then DmaCall.askedPage (d.channels b).page calls
          else (d.channels b).page) = (d.channels b).page := by
        by_cases hbp : b = pagedBy a
        · have ha : a = 3 := by
            by_contra ha
            exact hb (hbp.trans ((pagedBy_cases a).2 ha))
          rw [if_pos hbp, hbp, (pagedBy_cases a).1 ha]
          exact page ha
        · rw [if_neg hbp]
      rw [Channel.asked, hmask, hpage]
    · rw [masked_calls]
      by_cases ha : 4 ≤ a
      · obtain ⟨hm, hne⟩ := maskedBy_high a ha
        rw [hm, if_neg hne.symm]
        exact (mask ha).2.symm
      · rw [low a ha, if_pos rfl]

/-- Masking channel 6 masks channel 2, the floppy's. -/
theorem mask_reaches_floppy :
    ¬ Isolated ⟨fun _ => ⟨false, 0, 0, 0, 0, 0, 0⟩, fun _ => false⟩ 6 [.maskChannel] := by
  intro h
  exact Bool.noConfusion (h.askedMask_eq (by decide)).1

end Dma

end ToyBootloader
