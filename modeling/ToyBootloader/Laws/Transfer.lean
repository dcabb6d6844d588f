import ToyBootloader.Laws.Conversion
import ToyBootloader.Laws.Dma
import ToyBootloader.Transfer

/-!
# Reading sectors through DMA

Stage 3 programs channel 2 for three quarters of a kilobyte, one and a half sectors,
and the copies take 512 bytes of each. A READ that has a sector to follow is stopped
at terminal count, halfway through it, and the channel is reloaded for the next. The
last sector of a cylinder has none: the controller runs out at 512 bytes, and the
READ ends abnormally with its sector in the buffer.
-/

namespace ToyBootloader

open Resumption Memory Code

/-! ## Transfers of a channel -/

namespace Channel

/-- A channel that counts its address up to a reload, without a wrap on the way. -/
structure Upward (ch : Channel) : Prop where
  unmasked : ch.masked = false
  toMemory : ch.toMemory = true
  autoInit : ch.autoInit = true
  increments : ch.decrements = false
  fits : ch.address.toNat + ch.count.toNat < 0x10000

/-- The registers as they were programmed. -/
def reload (ch : Channel) : Channel := { ch with address := ch.baseAddress, count := ch.baseCount }

theorem advance_zero {ch : Channel} (h : ch.Upward) (hc : ch.count = 0) :
    ch.advance = ch.reload := if_pos ⟨hc, h.autoInit⟩

/-- A byte before the last: the next one goes to the next address. -/
theorem advance_upward {ch : Channel} (h : ch.Upward) (hc : ch.count ≠ 0) :
    ch.advance.Upward ∧ ch.advance.target = ch.target + 1 ∧
      ch.advance.count.toNat + 1 = ch.count.toNat ∧ ch.advance.reload = ch.reload := by
  have hpos : 0 < ch.count.toNat := Nat.pos_of_ne_zero fun h0 => hc (UInt16.toNat_inj.mp h0)
  have hadv : ch.advance = { ch with address := ch.address + 1, count := ch.count - 1 } := by
    rw [advance, if_neg fun h0 => hc h0.1, h.increments]
    rfl
  have haddr : (ch.address + 1).toNat = ch.address.toNat + 1 := by
    have hlt := h.fits
    rw [UInt16.toNat_add]
    exact Nat.mod_eq_of_lt (show ch.address.toNat + 1 < 0x10000 by omega)
  have hcount : (ch.count - 1).toNat + 1 = ch.count.toNat := by
    have hle : 1 ≤ ch.count := UInt16.le_iff_toNat_le.mpr hpos
    rw [UInt16.toNat_sub_of_le _ _ hle]
    exact Nat.sub_add_cancel hpos
  rw [hadv]
  refine ⟨⟨h.unmasked, h.toMemory, h.autoInit, h.increments, ?_⟩, ?_, hcount, rfl⟩
  · have hlt := h.fits
    change (ch.address + 1).toNat + (ch.count - 1).toNat < 0x10000
    omega
  · change _ * _ + (ch.address + 1).toNat = _ + 1
    rw [haddr, ← Nat.add_assoc]
    rfl

/-- More bytes than the count has left: the transfer ends at terminal count, with the
bytes in memory and the channel reloaded. -/
theorem feed_of_lt {ch : Channel} (h : ch.Upward) (m : Mem) {bs : List UInt8}
    (hlen : ch.count.toNat < bs.length) :
    ch.feed m bs = ⟨ch.reload, m.write ch.target (bs.take (ch.count.toNat + 1)), true⟩ := by
  induction bs generalizing ch m with
  | nil => exact absurd hlen (Nat.not_lt_zero _)
  | cons b bs ih =>
    rw [feed, if_neg (by rw [h.unmasked]; exact Bool.false_ne_true), h.toMemory]
    by_cases hc : ch.count = 0
    · simp only [if_true, if_pos hc, advance_zero h hc]
      rw [hc]
      rfl
    · obtain ⟨hadv, htarget, hcount, hreload⟩ := advance_upward h hc
      have hrest : ch.advance.count.toNat < bs.length := by
        rw [List.length_cons] at hlen
        omega
      simp only [if_true, if_neg hc]
      rw [ih hadv (m.set ch.target b) hrest, htarget, hreload, ← hcount]
      rfl

/-- No more bytes than the count has left to skip: terminal count is not reached. -/
theorem feed_of_le {ch : Channel} (h : ch.Upward) (m : Mem) {bs : List UInt8}
    (hlen : bs.length ≤ ch.count.toNat) : (ch.feed m bs).terminalCount = false := by
  induction bs generalizing ch m with
  | nil => rfl
  | cons b bs ih =>
    rw [List.length_cons] at hlen
    have hc : ch.count ≠ 0 := by
      intro h0
      rw [h0] at hlen
      exact absurd hlen (Nat.not_succ_le_zero _)
    obtain ⟨hadv, -, hcount, -⟩ := advance_upward h hc
    rw [feed, if_neg (by rw [h.unmasked]; exact Bool.false_ne_true)]
    simp only [if_neg hc]
    exact ih hadv _ (by omega)

end Channel

/-! ## The channel stage 3 sets up -/

/-- Channel 2 after `floppy_dma` and `floppy_dma_setup_read`. -/
def readChannel : Channel := ⟨false, 0x54, 0x1000, 0x1000, 0x2FF, 0x2FF, 0⟩

theorem upward_readChannel : readChannel.Upward := ⟨rfl, rfl, rfl, rfl, by decide⟩

namespace Dma

/-- The calls of the two functions. -/
def setUp : List DmaCall :=
  [.maskChannel, .resetFlipflop, .setupAddress 0x1000, .resetFlipflop, .setupCount (0x300 - 1),
    .setupPage 0, .unmaskChannel, .maskChannel, .setMode 1 0 1 1, .unmaskChannel]

theorem setUp_eq : (do floppyDma; floppyDmaSetupRead) =
    setUp.forM (DmaCall.code (UInt8.ofNat floppyChannel)) := rfl

/-- Whatever the controllers held, the calls leave channel 2 as stage 3 wants it. -/
theorem channels_setUp (d : Dma) :
    (setUp.foldl (after floppyChannel) d).channels floppyChannel = readChannel := by
  have hmask : maskedBy floppyChannel = floppyChannel := by decide
  have hpage : pagedBy floppyChannel = floppyChannel := by decide
  have hmode : modeByte floppyChannel 1 0 1 1 &&& 0xFC = 0x54 := by decide
  simp only [setUp, List.foldl, after_unmaskChannel, after_setMode, after_maskChannel,
    after_setupPage, on_channels, hmask, hpage, hmode, if_true, setupCount_after_reset,
    setupAddress_after_reset]
  rfl

end Dma

/-! ## What a READ offers -/

theorem length_trackFrom (h s trackLength : UInt8) :
    (trackFrom h s trackLength).length = trackLength.toNat + 1 - s.toNat := by
  rw [trackFrom, List.length_map, List.length_range']

theorem Platter.length_sector (disk : Platter) (c h s : UInt8) :
    (disk.sector c h s).length = 0x200 := by
  rw [sector, List.length_map, List.length_range]

theorem Platter.length_sectors (disk : Platter) (c : UInt8) (as : List (UInt8 × UInt8)) :
    (as.flatMap fun a => disk.sector c a.1 a.2).length = 0x200 * as.length := by
  induction as with
  | nil => rfl
  | cons a as ih =>
    rw [List.flatMap_cons, List.length_append, ih, disk.length_sector, List.length_cons]
    omega

/-- The sector asked for is offered first. -/
theorem Platter.offered_eq (disk : Platter) (c h : UInt8) {s trackLength : UInt8}
    (hs : s.toNat ≤ trackLength.toNat) :
    ∃ rest, disk.offered true c h s trackLength = disk.sector c h s ++ rest := by
  have hn : trackLength.toNat + 1 - s.toNat = (trackLength.toNat - s.toNat) + 1 := by omega
  rw [offered, sectorsFrom, trackFrom, hn, List.range'_succ, List.map_cons, List.cons_append,
    List.flatMap_cons, UInt8.ofNat_toNat]
  exact ⟨_, rfl⟩

/-- How much is offered: to the end of the track, and of the other one on head 0. -/
theorem Platter.length_offered (disk : Platter) (c h s trackLength : UInt8) :
    (disk.offered true c h s trackLength).length =
      0x200 * (trackLength.toNat + 1 - s.toNat + if h = 0 then trackLength.toNat else 0) := by
  rw [offered, disk.length_sectors, sectorsFrom, List.length_append, length_trackFrom]
  congr 2
  by_cases h0 : h = 0
  · rw [if_pos h0, h0]
    exact length_trackFrom 1 1 trackLength
  · have hbeq : (h == 0) = false := beq_eq_false_iff_ne.mpr h0
    rw [if_neg h0, hbeq]
    rfl

/-! ## Addresses -/

namespace TwoHeaded

variable (g : TwoHeaded)

/-- The address of a sector, as the copies compute it. -/
def chs (sector : UInt8) : Chs where
  c := sector.toUInt32 / ((2 : UInt8).toUInt32 * g.sectors.toUInt32)
  h := sector.toUInt32 / g.sectors.toUInt32 % (2 : UInt8).toUInt32
  s := sector.toUInt32 % g.sectors.toUInt32 + 1

/-- The sector is the last of its cylinder. -/
def IsLast (sector : UInt8) : Prop :=
  sector.toNat % (2 * g.sectors.toNat) = 2 * g.sectors.toNat - 1

theorem sectors_pos : 0 < g.sectors.toNat := Nat.lt_of_lt_of_le Nat.zero_lt_two g.two_le

theorem sectors_ne : g.sectors ≠ 0 := by
  intro h
  have hpos := g.sectors_pos
  rw [h] at hpos
  exact Nat.lt_irrefl 0 hpos

theorem toNat_head (sector : UInt8) :
    (g.chs sector).h.toUInt8.toNat = sector.toNat / g.sectors.toNat % 2 := by
  rw [chs, UInt32.toNat_toUInt8, UInt32.toNat_mod, UInt32.toNat_div, UInt8.toNat_toUInt32,
    UInt8.toNat_toUInt32]
  exact Nat.mod_eq_of_lt (Nat.lt_of_lt_of_le (Nat.mod_lt _ Nat.zero_lt_two) (by decide))

theorem toNat_sector (sector : UInt8) :
    (g.chs sector).s.toUInt8.toNat = sector.toNat % g.sectors.toNat + 1 := by
  have hlt := Nat.mod_lt sector.toNat g.sectors_pos
  have hle := g.sectors.toNat_lt
  rw [chs, UInt32.toNat_toUInt8, UInt32.toNat_add, UInt32.toNat_mod, UInt8.toNat_toUInt32,
    UInt8.toNat_toUInt32, UInt32.toNat_one]
  omega

/-- The last sector of a cylinder is the last of head 1. -/
theorem isLast_iff (sector : UInt8) :
    g.IsLast sector ↔
      sector.toNat / g.sectors.toNat % 2 = 1 ∧
        sector.toNat % g.sectors.toNat + 1 = g.sectors.toNat := by
  have hlt := Nat.mod_lt sector.toNat g.sectors_pos
  rw [IsLast, Nat.mul_comm 2, Nat.mod_mul]
  rcases Nat.mod_two_eq_zero_or_one (sector.toNat / g.sectors.toNat) with h | h
  · rw [h]
    omega
  · rw [h]
    omega

/-- A READ of it offers one sector, of any other at least two. -/
theorem length_offered_chs (disk : Platter) (c sector : UInt8) :
    (g.IsLast sector → (disk.offered true c (g.chs sector).h.toUInt8 (g.chs sector).s.toUInt8
        g.sectors).length = 0x200) ∧
      (¬ g.IsLast sector → 0x400 ≤ (disk.offered true c (g.chs sector).h.toUInt8
        (g.chs sector).s.toUInt8 g.sectors).length) := by
  have hlt := Nat.mod_lt sector.toNat g.sectors_pos
  have hhead : ((g.chs sector).h.toUInt8 = 0) = (sector.toNat / g.sectors.toNat % 2 = 0) := by
    rw [← g.toNat_head, ← UInt8.toNat_inj]
    rfl
  have htwo := g.two_le
  rw [disk.length_offered, g.toNat_sector, g.isLast_iff]
  simp only [hhead]
  constructor
  · rintro ⟨h1, hs⟩
    rw [if_neg (by omega)]
    omega
  · intro hlast
    split <;> omega

end TwoHeaded

/-! ## The driver on the machine -/

namespace Bench

variable {g : TwoHeaded} {disk : Platter} {drive : UInt8} {s : Bench}

/-- What a run does to the DMA controllers alone, it does to them here. -/
theorem exec_of_dma {α : Type} {p : Code α} {d d' : Dma} {a : α}
    (run : Exec Dma.sim.machine p d a d') (s : Bench) :
    Exec (sim g disk drive).machine p { s with dma := d } a { s with dma := d' } := by
  have fifo : Dma.ports.lookup FPY_FIFO = none := by decide
  have step : ∀ {d d₁ : Dma} {op : Op} {x : op.Ans}, Dma.sim d op = some (x, d₁) →
      sim g disk drive { s with dma := d } op = some (x, { s with dma := d₁ }) := by
    intro d d₁ op x h
    cases op with
    | outb port v =>
      obtain ⟨r, hr, heq⟩ := Option.map_eq_some_iff.mp h
      cases heq
      have hport : port ≠ FPY_FIFO := by
        rintro rfl
        rw [fifo] at hr
        cases hr
      simp only [sim, if_neg hport, hr, Option.map_some]
    | _ => cases h
  induction run with
  | pure => exact .pure
  | vis hm _ ih => exact .vis (step hm) ih
  | hit hm hr _ ih => exact .hit (step hm) hr ih
  | miss hm hr _ ih => exact .miss (step hm) hr ih

/-- The DMA set-up: channel 2 is as stage 3 wants it, and nothing else moves. -/
theorem returns_setUp :
    (sim g disk drive).Returns (do floppyDma; floppyDmaSetupRead)
      (fun _ s' => s'.dma.channels floppyChannel = readChannel ∧ s'.phase = s.phase ∧
        s'.reads = s.reads) s := by
  have run : Exec Dma.sim.machine (Dma.setUp.forM (DmaCall.code (UInt8.ofNat floppyChannel)))
      s.dma () (Dma.setUp.foldl (Dma.after floppyChannel) s.dma) := Dma.exec_calls.mpr rfl
  rw [Dma.setUp_eq]
  exact ⟨(), _, exec_of_dma run s, Dma.channels_setUp s.dma, rfl, rfl⟩

/-! ### Commands -/

/-- A status read, and the wait for `mrq`. -/
theorem answer_status : sim g disk drive s (.inb FPY_MSR) = some (s.phase.status, s) := rfl

/-- The marks of a call are not noted. -/
theorem answer_mark {e : Event} (h : s.note e = s) :
    sim g disk drive s (.mark e) = some ((), s) := by
  simp only [sim, h]

theorem returns_inbUntil {α : Type} {k : UInt8 → Code α} {Q : α → Bench → Prop}
    (h : (sim g disk drive).Returns (k s.phase.status) Q s) :
    (sim g disk drive).Returns ((inbUntil FPY_MSR mrq).bind k) Q s :=
  returns_poll answer_status s.phase.mrq_status h

theorem returns_fpySendCommandByteLoop (b : UInt8) (n : Nat) :
    (sim g disk drive).Returns (fpySendCommandByteLoop b (n + 1))
      (fun e s' => e = noErr ∧ s' = s.write disk b) s := by
  simp only [fpySendCommandByteLoop, fpyReadStatus, Prog.bind_eq, inb_bind]
  apply returns_vis answer_status
  rw [s.phase.mrq_status, if_pos rfl]
  exact returns_vis rfl (returns_pure ⟨rfl, rfl⟩)

/-- The bytes that are left of a command, sent in the command phase. -/
theorem returns_fpySendCommandLoop {msr : UInt8} (hmsr : dataio msr = false) (wait : Bool)
    {b : UInt8} {bs : List UInt8} (got : List UInt8) (hcmd : WholeCommand (got ++ b :: bs))
    (hs : s.phase = .command got) :
    (sim g disk drive).Returns (fpySendCommandLoop msr wait (b :: bs))
      (fun e s' => e = noErr ∧ s' = s.serve disk (got ++ b :: bs)) s := by
  induction bs generalizing b got s with
  | nil =>
    apply returns_inbUntil
    rw [hmsr, if_neg Bool.false_ne_true]
    refine (returns_fpySendCommandByteLoop b 999).bind ?_
    rintro e s₁ ⟨rfl, rfl⟩
    have served : s.write disk b = s.serve disk (got ++ [b]) := by
      rw [write, hs, Phase.completes_last hcmd]
    cases wait with
    | true => exact returns_inbUntil (returns_pure ⟨rfl, served⟩)
    | false => exact returns_pure ⟨rfl, served⟩
  | cons c cs ih =>
    have hsplit : got ++ b :: c :: cs = (got ++ [b]) ++ c :: cs := by
      rw [List.append_assoc, List.singleton_append]
    have written : s.write disk b = { s with phase := .command (got ++ [b]) } := by
      rw [write, hs, Phase.completes_of_lt hcmd]
      simp only [Phase.write, Phase.completes_of_lt hcmd]
    apply returns_inbUntil
    rw [hmsr, if_neg Bool.false_ne_true]
    refine (returns_fpySendCommandByteLoop b 999).bind ?_
    rintro e s₁ ⟨rfl, rfl⟩
    rw [written]
    rw [hsplit] at hcmd ⊢
    exact ih (got ++ [b]) hcmd rfl

/-- A whole command sent between two commands is served. -/
theorem returns_fpySendCommand {cmd : List UInt8} (hcmd : WholeCommand cmd) (wait : Bool)
    (hs : s.phase = .idle) :
    (sim g disk drive).Returns (fpySendCommand cmd wait)
      (fun e s' => e = noErr ∧ s' = s.serve disk cmd) s := by
  obtain ⟨b, bs, rfl⟩ := List.exists_cons_of_ne_nil hcmd.1
  have hmsr : dataio s.phase.status = false := by
    rw [s.phase.dataio_status, hs, Phase.isResult_command]
  simp only [fpySendCommand, fpySendCommandBody, fpyReadStatus, Prog.bind_eq, mark_bind, inb_bind]
  apply returns_vis (answer_mark rfl)
  apply returns_vis answer_status
  dsimp only
  rw [s.phase.mrq_status, hmsr, Bool.not_true, Bool.or_self, if_neg Bool.false_ne_true]
  refine (returns_fpySendCommandLoop hmsr wait [] hcmd hs).bind ?_
  rintro e s₁ ⟨rfl, rfl⟩
  exact returns_vis (answer_mark rfl) (returns_pure ⟨rfl, rfl⟩)

/-- A command sent in the result phase is refused. -/
theorem returns_fpySendCommand_refused (cmd : List UInt8) (wait : Bool)
    (hs : s.phase.isResult = true) :
    (sim g disk drive).Returns (fpySendCommand cmd wait)
      (fun e s' => e ≠ noErr ∧ s' = s) s := by
  have hmsr : dataio s.phase.status = true := by rw [s.phase.dataio_status, hs]
  simp only [fpySendCommand, fpySendCommandBody, fpyReadStatus, Prog.bind_eq, mark_bind, inb_bind]
  apply returns_vis (answer_mark rfl)
  apply returns_vis answer_status
  dsimp only
  rw [s.phase.mrq_status, hmsr, Bool.or_true, if_pos rfl]
  exact returns_vis (answer_mark rfl) (returns_pure ⟨Option.some_ne_none _, rfl⟩)

/-! ### Results -/

theorem returns_fpyReadDataLoop {b : UInt8} {rest : List UInt8} (hs : s.phase = .result b rest)
    (n : Nat) :
    (sim g disk drive).Returns (fpyReadDataLoop (n + 1))
      (fun a s' => a = b ∧ s' = { s with phase := .ofResult rest }) s := by
  have answer : sim g disk drive s (.inb FPY_FIFO) =
      some (b, { s with phase := .ofResult rest }) := by
    simp only [sim, hs]
    rfl
  simp only [fpyReadDataLoop, fpyReadStatus, Prog.bind_eq, inb_bind]
  apply returns_vis answer_status
  rw [s.phase.mrq_status, if_pos rfl]
  exact returns_vis answer (returns_pure ⟨rfl, rfl⟩)

/-- One byte of a result. -/
theorem returns_readResult {α : Type} {b : UInt8} {rest : List UInt8} {k : UInt8 → Code α}
    {Q : α → Bench → Prop} (hs : s.phase = .result b rest)
    (h : (sim g disk drive).Returns (k b) Q { s with phase := .ofResult rest }) :
    (sim g disk drive).Returns (fpyReadData.bind k) Q s := by
  refine (returns_fpyReadDataLoop hs 999).bind ?_
  rintro a s₁ ⟨rfl, rfl⟩
  exact h

/-- A check that passes. -/
theorem returns_checked {α : Type} {k : ErrT → Code α} {Q : α → Bench → Prop} {err : ErrT}
    (hq : err = noErr) (h : (sim g disk drive).Returns (k noErr) Q s) :
    (sim g disk drive).Returns ((checked err).bind k) Q s := by
  subst hq
  exact returns_vis (answer_mark rfl) h

/-- A result with nothing wrong. -/
theorem returns_fpyCmdGenRes {st0 st1 st2 c h r n : UInt8} (h₀ : fpyCheckSt0 st0 = noErr)
    (h₁ : fpyCheckSt1 st1 = noErr) (h₂ : fpyCheckSt2 st2 = noErr)
    (hs : s.phase = .ofResult [st0, st1, st2, c, h, r, n]) :
    (sim g disk drive).Returns fpyCmdGenRes
      (fun res s' => res.error = noErr ∧ s' = { s with phase := .idle }) s := by
  simp only [fpyCmdGenRes, Prog.bind_eq]
  apply returns_readResult hs
  apply returns_checked h₀
  apply returns_readResult rfl
  apply returns_checked h₁
  apply returns_readResult rfl
  apply returns_checked h₂
  apply returns_readResult rfl
  apply returns_readResult rfl
  apply returns_readResult rfl
  apply returns_readResult rfl
  exact returns_pure ⟨rfl, rfl⟩

/-- A result whose `st0` is refused: the rest is left unread. -/
theorem returns_fpyCmdGenRes_refused {st0 b : UInt8} {bs : List UInt8} {e : String}
    (h₀ : fpyCheckSt0 st0 = some e) (hs : s.phase = .ofResult (st0 :: b :: bs)) :
    (sim g disk drive).Returns fpyCmdGenRes (fun res s' => res.error = some e ∧
      s' = { s with phase := .result b bs }.note (.checked (some e))) s := by
  simp only [fpyCmdGenRes, Prog.bind_eq]
  apply returns_readResult hs
  rw [h₀]
  apply returns_vis (t := { s with phase := .result b bs }.note (.checked (some e))) rfl
  exact returns_pure ⟨rfl, rfl⟩

theorem returns_fpyWaitIrq : (sim g disk drive).Returns fpyWaitIrq (fun _ s' => s' = s) s := by
  simp only [fpyWaitIrq, irqErr, Prog.bind_eq, untilReceived_bind, received_bind]
  apply returns_poll (t := s) (x := Received.ok) rfl rfl
  apply returns_vis (t := s) (x := Received.ok) rfl
  exact returns_vis rfl (returns_pure rfl)

/-! ### READs -/

/-- What a READ of a copy leaves when it is complete. -/
theorem serve_read (trackLength : UInt8) (a : Chs) :
    let fed := (s.dma.channels floppyChannel).feed s.memory
      (disk.offered true a.c.toUInt8 a.h.toUInt8 a.s.toUInt8 trackLength)
    s.serve disk ((copyParams drive trackLength a).cmd .readSect) =
      { dma := s.dma.on floppyChannel fun _ => fed.channel
        memory := fed.memory
        phase := .ofResult (readResult (driveHead drive a.h.toUInt8) a.c.toUInt8 a.h.toUInt8
          a.s.toUInt8 2 fed.terminalCount)
        reads := { cylinder := a.c.toUInt8, head := a.h.toUInt8, sector := a.s.toUInt8
                   buffer := buffer fed.memory } :: s.reads } := by
  have read : (FpyCmd.readSect.val ||| ext true FPY_CMD_EXT_DENSITY
      ||| ext true FPY_CMD_EXT_MULTITRACK ||| ext false FPY_CMD_EXT_SKIP) &&& 0x1F =
        FpyCmd.readSect.val := by decide
  have multitrack : ((FpyCmd.readSect.val ||| ext true FPY_CMD_EXT_DENSITY
      ||| ext true FPY_CMD_EXT_MULTITRACK ||| ext false FPY_CMD_EXT_SKIP)
        &&& FPY_CMD_EXT_MULTITRACK != 0) = true := by decide
  simp only [FpyCmdReadSectorParams.cmd, copyParams, serve, read, if_true, multitrack]

/-- The buffer holds what was written to it. -/
theorem buffer_write (m : Mem) {bs : List UInt8} (h : 0x200 ≤ bs.length) :
    buffer (m.write TRANSFER_BUFFER bs) = bs.take 0x200 := by
  apply List.ext_getElem
  · rw [buffer, List.length_map, List.length_range, List.length_take, Nat.min_eq_left h]
  · intro i hi hi'
    rw [buffer, List.length_map, List.length_range] at hi
    simp only [buffer, List.getElem_map, List.getElem_range, List.getElem_take]
    exact Mem.write_inside m TRANSFER_BUFFER (Nat.lt_of_lt_of_le hi h)

/-- With enough on offer the transfer ends at terminal count, its sector in the
buffer and the channel set for the next. -/
theorem feed_readChannel (m : Mem) {sector rest : List UInt8} (hsector : sector.length = 0x200)
    (hlen : 0x400 ≤ (sector ++ rest).length) :
    (readChannel.feed m (sector ++ rest)).channel = readChannel ∧
      (readChannel.feed m (sector ++ rest)).terminalCount = true ∧
      buffer (readChannel.feed m (sector ++ rest)).memory = sector := by
  have fed := Channel.feed_of_lt upward_readChannel m
    (show readChannel.count.toNat < (sector ++ rest).length from
      Nat.lt_of_lt_of_le (by decide) hlen)
  have hcount : readChannel.count.toNat + 1 = 0x300 := rfl
  have htaken : 0x200 ≤ ((sector ++ rest).take 0x300).length := by
    rw [List.length_take]
    omega
  rw [fed, hcount]
  refine ⟨rfl, rfl, ?_⟩
  change buffer (m.write TRANSFER_BUFFER _) = sector
  rw [buffer_write m htaken, List.take_take]
  exact List.take_left' hsector

/-! ### The copies -/

theorem returns_lbaToChs (sector : UInt8) :
    (sim g disk drive).Returns (lbaToChs sector.toUInt32)
      (fun a s' => a = g.chs sector ∧ s' = s) s := by
  have reads : ReadsGeometry (sim g disk drive).machine 2 g.sectors s :=
    ⟨Simulator.machine_iff rfl, Simulator.machine_iff rfl⟩
  exact ⟨_, s, (reads.exec_lbaToChs (by decide) g.sectors_ne).mpr ⟨rfl, rfl⟩, rfl, rfl⟩

theorem wholeCommand_seek (p : FpyCmdSeekHeadParams) : WholeCommand p.cmd :=
  wholeCommand_cons (show commandLength FpyCmd.seek.val = 3 by decide)

theorem serve_seek (p : FpyCmdSeekHeadParams) : s.serve disk p.cmd = { s with phase := .idle } := by
  have none : resultLength (opcode p.cmd) = 0 := show resultLength FpyCmd.seek.val = 0 by decide
  rw [FpyCmdSeekHeadParams.cmd] at none ⊢
  simp only [serve, none]
  rfl

/-- Between two commands, with the channel set for a READ. -/
def Ready (s : Bench) : Prop := s.phase = .idle ∧ s.dma.channels floppyChannel = readChannel

/-- Every READ so far is right. -/
def AllRight (disk : Platter) (s : Bench) : Prop := ∀ r ∈ s.reads, r.Right disk

/-- A READ went wrong, and its result stays unread. -/
def Lost (disk : Platter) (s : Bench) : Prop :=
  s.phase.isResult = true ∧ ∃ r ∈ s.reads, ¬ r.Right disk

/-- What a call leaves that reads the last sector of a cylinder, or that does not. -/
def Outcome (disk : Platter) (last : Prop) (s : Bench) : Prop :=
  (last → s.Lost disk) ∧ (¬ last → s.Ready ∧ s.AllRight disk)

/-- The `st0` of a READ that ended normally. -/
theorem check_normal (dh : UInt8) : fpyCheckSt0 (dh &&& 7) = noErr := by
  have ready : testBit (dh &&& 7) 3 = false := by
    have apart : (7 : UInt8) &&& ((1 : UInt8) <<< (3 : UInt8)) = 0 := by decide
    rw [testBit, UInt8.and_assoc, apart, UInt8.and_zero]
    rfl
  have code : (dh &&& 7) &&& 0xC0 = 0 := by
    have apart : (7 : UInt8) &&& 0xC0 = 0 := by decide
    rw [UInt8.and_assoc, apart, UInt8.and_zero]
  simp only [fpyCheckSt0, mustBe, ready, if_true, code]
  rfl

/-- And of one that ran out of sectors. -/
theorem check_abnormal (dh : UInt8) : ∃ e, fpyCheckSt0 (0x40 ||| (dh &&& 7)) = some e := by
  have ready : testBit (0x40 ||| (dh &&& 7)) 3 = false := by
    have apart : (7 : UInt8) &&& ((1 : UInt8) <<< (3 : UInt8)) = 0 := by decide
    rw [testBit, or_and, UInt8.and_assoc, apart, UInt8.and_zero]
    rfl
  have code : (0x40 ||| (dh &&& 7)) &&& 0xC0 = 0x40 := by
    have apart : (7 : UInt8) &&& 0xC0 = 0 := by decide
    rw [or_and, UInt8.and_assoc, apart, UInt8.and_zero]
    rfl
  simp only [fpyCheckSt0, mustBe, ready, if_true, code]
  exact ⟨_, rfl⟩

/-- A READ of the last sector of a cylinder runs out of sectors. -/
theorem returns_readLast {sector : UInt8} (hlast : g.IsLast sector) (hs : s.Ready) :
    (sim g disk drive).Returns (fpyCmdReadSector (copyParams drive g.sectors (g.chs sector)))
      (fun res s' => res.error ≠ noErr ∧ s'.Lost disk) s := by
  have hlen := (g.length_offered_chs disk (g.chs sector).c.toUInt8 sector).1 hlast
  have short : (readChannel.feed s.memory (disk.offered true (g.chs sector).c.toUInt8
      (g.chs sector).h.toUInt8 (g.chs sector).s.toUInt8 g.sectors)).terminalCount = false :=
    Channel.feed_of_le upward_readChannel s.memory (hlen.trans_le (by decide))
  obtain ⟨e, he⟩ := check_abnormal (driveHead drive (g.chs sector).h.toUInt8)
  apply returns_vis (t := s) rfl
  have transfer := (FpyCmdReadSectorParams.isTransfer (.inl rfl)
    (copyParams drive g.sectors (g.chs sector))).1
  apply (returns_fpySendCommand transfer true hs.1).bind
  intro e' s₁ sent
  obtain ⟨rfl, rfl⟩ := sent
  rw [serve_read, hs.2]
  simp only [short, readResult, Bool.false_eq_true, if_false]
  refine returns_fpyWaitIrq.bind ?_
  rintro - s₁ rfl
  refine (returns_fpyCmdGenRes_refused he rfl).mono ?_
  rintro res s' ⟨hres, rfl⟩
  refine ⟨by rw [hres]; exact Option.some_ne_none e, rfl, _, List.mem_cons_self, ?_⟩
  exact fun right => Option.some_ne_none e right.1

/-- A READ of any other is right. -/
theorem returns_readOther {sector : UInt8} (hlast : ¬ g.IsLast sector) (hs : s.Ready)
    (hr : s.AllRight disk) :
    (sim g disk drive).Returns (fpyCmdReadSector (copyParams drive g.sectors (g.chs sector)))
      (fun res s' => res.error = noErr ∧ s'.Ready ∧ s'.AllRight disk) s := by
  have hle : (g.chs sector).s.toUInt8.toNat ≤ g.sectors.toNat := by
    rw [g.toNat_sector]
    exact Nat.mod_lt _ g.sectors_pos
  obtain ⟨rest, offered⟩ := disk.offered_eq (g.chs sector).c.toUInt8 (g.chs sector).h.toUInt8 hle
  have hlen := (g.length_offered_chs disk (g.chs sector).c.toUInt8 sector).2 hlast
  rw [offered] at hlen
  obtain ⟨channel, full, buffered⟩ := feed_readChannel s.memory (disk.length_sector ..) hlen
  apply returns_vis (t := s) rfl
  have transfer := (FpyCmdReadSectorParams.isTransfer (.inl rfl)
    (copyParams drive g.sectors (g.chs sector))).1
  apply (returns_fpySendCommand transfer true hs.1).bind
  rintro e s₁ ⟨rfl, rfl⟩
  rw [serve_read, hs.2, offered]
  simp only [channel, full, buffered, readResult, if_true]
  refine returns_fpyWaitIrq.bind ?_
  rintro - s₁ rfl
  have st1 : fpyCheckSt1 0 = noErr := rfl
  have st2 : fpyCheckSt2 0 = noErr := rfl
  refine (returns_fpyCmdGenRes (check_normal _) st1 st2 rfl).mono ?_
  rintro res s' ⟨hres, rfl⟩
  refine ⟨hres, ⟨rfl, ?_⟩, ?_⟩
  · rw [Dma.on_channels, if_pos rfl]
  · intro r hr'
    cases hr' with
    | head =>
      refine ⟨rfl, ?_⟩
      dsimp only
    | tail _ hr' => exact hr r hr'

/-- One round of a copy up to the bytes it copies. -/
theorem returns_readOneSector (sector : UInt8) (hs : s.Ready) (hr : s.AllRight disk) :
    (sim g disk drive).Returns (readOneSector sector) (fun e s' =>
      (g.IsLast sector → e ≠ noErr ∧ s'.Lost disk) ∧
        (¬ g.IsLast sector → e = noErr ∧ s'.Ready ∧ s'.AllRight disk)) s := by
  refine (returns_lbaToChs sector).bind ?_
  rintro a s₁ ⟨rfl, rfl⟩
  apply returns_vis (t := s₁) (x := drive) rfl
  refine (returns_fpySendCommand (wholeCommand_seek _) true hs.1).bind ?_
  rintro e s₂ ⟨rfl, rfl⟩
  rw [serve_seek]
  have ready : ({ s₁ with phase := .idle } : Bench).Ready := ⟨rfl, hs.2⟩
  apply returns_vis (t := { s₁ with phase := .idle }) (x := drive) rfl
  apply returns_vis (t := { s₁ with phase := .idle }) (x := g.sectors) rfl
  by_cases hlast : g.IsLast sector
  · refine (returns_readLast hlast ready).bind ?_
    intro res s' h
    exact returns_pure ⟨fun _ => h, fun hn => absurd hlast hn⟩
  · refine (returns_readOther hlast ready hr).bind ?_
    intro res s' h
    exact returns_pure ⟨fun hl => absurd hl hlast, fun _ => h⟩

/-- The copy of a sector changes memory only. -/
theorem returns_copySector (dest n i : Nat) :
    (sim g disk drive).Returns (copySector dest n i)
      (fun _ s' => ∃ m, s' = { s with memory := m }) s := by
  induction n generalizing i s with
  | zero => exact returns_pure ⟨s.memory, rfl⟩
  | succ n ih =>
    apply returns_vis (t := s) rfl
    apply returns_vis (t := { s with memory := s.memory.set (dest + i) _ }) rfl
    refine (ih (i + 1)).mono ?_
    rintro u s' ⟨m, rfl⟩
    exact ⟨m, rfl⟩

/-- The loop reads a last sector when this round does or a later one. -/
theorem reads_last_iff {sector : UInt8} {count : Int} (hpos : count > 0) (dest : Nat) :
    (∃ last, g.IsLast last ∧ CopyCall.Reads ⟨sector, dest, count⟩ last) ↔
      g.IsLast sector ∨
        ∃ last, g.IsLast last ∧ CopyCall.Reads ⟨sector + 1, dest + 0x200, count - 0x200⟩ last := by
  have next : ∀ k : Nat, sector + UInt8.ofNat (k + 1) = sector + 1 + UInt8.ofNat k := by
    intro k
    rw [UInt8.ofNat_add, UInt8.add_comm (UInt8.ofNat k), ← UInt8.add_assoc]
    rfl
  constructor
  · rintro ⟨last, hlast, k, hk, hsector⟩
    have hk : 0x200 * (k : Int) < count := hk
    have hsector : last = sector + UInt8.ofNat k := hsector
    cases k with
    | zero =>
      have first : last = sector := hsector.trans (UInt8.add_zero sector)
      exact .inl (first ▸ hlast)
    | succ k =>
      refine .inr ⟨last, hlast, k, ?_, hsector.trans (next k)⟩
      change 0x200 * (k : Int) < count - 0x200
      omega
  · rintro (hlast | ⟨last, hlast, k, hk, hsector⟩)
    · exact ⟨sector, hlast, 0, hpos, (UInt8.add_zero sector).symm⟩
    · have hk : 0x200 * (k : Int) < count - 0x200 := hk
      refine ⟨last, hlast, k + 1, ?_, hsector.trans (next k).symm⟩
      change 0x200 * ((k + 1 : Nat) : Int) < count
      omega

theorem returns_fpyCopyBytesLoop (sector : UInt8) (dest : Nat) (count : Int) (hs : s.Ready)
    (hr : s.AllRight disk) :
    (sim g disk drive).Returns (fpyCopyBytesLoop sector dest count) (fun _ s' =>
      s'.Outcome disk (∃ last, g.IsLast last ∧ CopyCall.Reads ⟨sector, dest, count⟩ last)) s := by
  induction sector, dest, count using fpyCopyBytesLoop.induct generalizing s with
  | case1 sector dest count hpos ih =>
    rw [fpyCopyBytesLoop, if_pos hpos]
    refine (returns_readOneSector sector hs hr).bind ?_
    rintro e s₁ ⟨lost, right⟩
    rw [reads_last_iff hpos]
    by_cases hlast : g.IsLast sector
    · obtain ⟨he, hlost⟩ := lost hlast
      cases e with
      | none => exact absurd rfl he
      | some e => exact returns_pure ⟨fun _ => hlost, fun hn => absurd (.inl hlast) hn⟩
    · obtain ⟨rfl, hs₁, hr₁⟩ := right hlast
      simp only [hlast, false_or]
      refine (returns_copySector dest _ 0).bind ?_
      rintro u s₂ ⟨m, rfl⟩
      exact ih hs₁ hr₁
  | case2 sector dest count hpos =>
    rw [fpyCopyBytesLoop, if_neg hpos]
    refine returns_pure ⟨?_, fun _ => ⟨hs, hr⟩⟩
    rintro ⟨last, -, k, hk, -⟩
    have hk : 0x200 * (k : Int) < count := hk
    omega

/-- A copy, from a machine that is ready. -/
theorem returns_copy (c : CopyCall) (hs : s.Ready) (hr : s.AllRight disk) :
    (sim g disk drive).Returns c.code
      (fun _ s' => s'.Outcome disk (∃ last, g.IsLast last ∧ c.Reads last)) s := by
  refine ((returns_fpyCopyBytesLoop c.sector c.dest c.count hs hr).bind fun e s₁ h => ?_).bind
    fun e s₁ h => returns_pure h
  exact returns_vis (answer_mark rfl) (returns_pure h)

/-- A copy, from a machine whose controller has a result to be read: its SEEK is
refused. -/
theorem returns_copy_lost (c : CopyCall) (hs : s.Lost disk) :
    (sim g disk drive).Returns c.code (fun _ s' => s'.Lost disk) s := by
  have loop : (sim g disk drive).Returns (fpyCopyBytesLoop c.sector c.dest c.count)
      (fun _ s' => s'.Lost disk) s := by
    rw [fpyCopyBytesLoop]
    split
    · refine Simulator.Returns.bind (R := fun e s' => e ≠ noErr ∧ s' = s) ?_ ?_
      · refine (returns_lbaToChs c.sector).bind ?_
        rintro a s₁ ⟨rfl, rfl⟩
        apply returns_vis (t := s₁) (x := drive) rfl
        refine (returns_fpySendCommand_refused _ true hs.1).bind ?_
        rintro e s₂ ⟨he, rfl⟩
        cases e with
        | none => exact absurd rfl he
        | some e => exact returns_pure ⟨he, rfl⟩
      · rintro e s₁ ⟨he, rfl⟩
        cases e with
        | none => exact absurd rfl he
        | some e => exact returns_pure hs
    · exact returns_pure hs
  refine (loop.bind fun e s₁ h => ?_).bind fun e s₁ h => returns_pure h
  exact returns_vis (answer_mark rfl) (returns_pure h)

theorem returns_copies_lost (copies : List CopyCall) (hs : s.Lost disk) :
    (sim g disk drive).Returns (copies.forM CopyCall.code) (fun _ s' => s'.Lost disk) s := by
  induction copies generalizing s with
  | nil => exact returns_pure hs
  | cons c copies ih => exact (returns_copy_lost c hs).bind fun u s₁ h => ih h

/-- Copies, from a machine that is ready: once one reads the last sector of a
cylinder, the rest is lost. -/
theorem returns_copies (copies : List CopyCall) (hs : s.Ready) (hr : s.AllRight disk) :
    (sim g disk drive).Returns (copies.forM CopyCall.code) (fun _ s' =>
      s'.Outcome disk (∃ c ∈ copies, ∃ last, g.IsLast last ∧ c.Reads last)) s := by
  induction copies generalizing s with
  | nil =>
    refine returns_pure ⟨?_, fun _ => ⟨hs, hr⟩⟩
    rintro ⟨c, hc, -⟩
    exact absurd hc List.not_mem_nil
  | cons c copies ih =>
    refine (returns_copy c hs hr).bind ?_
    rintro u s₁ ⟨lost, right⟩
    simp only [List.exists_mem_cons_iff]
    by_cases hc : ∃ last, g.IsLast last ∧ c.Reads last
    · refine (returns_copies_lost copies (lost hc)).mono ?_
      exact fun u s' h => ⟨fun _ => h, fun hn => absurd (.inl hc) hn⟩
    · obtain ⟨hs₁, hr₁⟩ := right hc
      simp only [hc, false_or]
      exact ih hs₁ hr₁

/-- Every READ of the copies is right: from these DMA registers and this memory, the
copies come to an end with every READ ended without an error and its sector in the
buffer. -/
def ReadsRight (g : TwoHeaded) (disk : Platter) (drive : UInt8) (d : Dma) (m : Mem)
    (copies : List CopyCall) : Prop :=
  ∃ s', Exec (sim g disk drive).machine (CopyCall.throughDma copies)
    { dma := d, memory := m } () s' ∧ s'.AllRight disk

/-- The set-up and the copies come to an end, and what comes of them is told by the sectors they
read. -/
theorem returns_throughDma (g : TwoHeaded) (disk : Platter) (drive : UInt8) (d : Dma) (m : Mem)
    (copies : List CopyCall) : (sim g disk drive).Returns (CopyCall.throughDma copies)
      (fun _ s' => s'.Outcome disk (∃ c ∈ copies, ∃ last, g.IsLast last ∧ c.Reads last))
      { dma := d, memory := m } := by
  have split : CopyCall.throughDma copies = (do floppyDma; floppyDmaSetupRead).bind
      fun _ => copies.forM CopyCall.code := rfl
  rw [split]
  refine returns_setUp.bind ?_
  rintro u s₁ ⟨hchannel, hphase, hreads⟩
  refine returns_copies copies ⟨hphase, hchannel⟩ ?_
  intro r hr
  rw [hreads] at hr
  exact absurd hr List.not_mem_nil

/-- Where every READ was right, none was of a last sector. -/
theorem ReadsRight.not_isLast {g : TwoHeaded} {disk : Platter} {drive : UInt8} {d : Dma} {m : Mem}
    {copies : List CopyCall} (h : ReadsRight g disk drive d m copies) {c : CopyCall}
    (hc : c ∈ copies) {sector : UInt8} (hreads : c.Reads sector) : ¬ g.IsLast sector := by
  intro hlast
  obtain ⟨s', run, right⟩ := h
  obtain ⟨-, s'', -, hright, lost, -⟩ :=
    (show (sim g disk drive).Returns _ (fun _ s' => s'.AllRight disk) _ from
      ⟨(), s', run, right⟩).and (returns_throughDma g disk drive d m copies)
  obtain ⟨-, r, hr, wrong⟩ := lost ⟨c, hc, sector, hlast, hreads⟩
  exact wrong (hright r hr)

/-- From every DMA state and memory, for every disk of two heads and every sequence
of copies: every READ is right exactly when no copy reads the last sector of a
cylinder. -/
theorem readsRight_iff (g : TwoHeaded) (disk : Platter) (drive : UInt8) (d : Dma) (m : Mem)
    (copies : List CopyCall) : ReadsRight g disk drive d m copies ↔
      ∀ c ∈ copies, ∀ sector, c.Reads sector → ¬ g.IsLast sector := by
  constructor
  · exact fun h c hc sector hreads => h.not_isLast hc hreads
  · intro h
    obtain ⟨u, s', run, -, right⟩ := returns_throughDma g disk drive d m copies
    refine ⟨s', run, (right ?_).2⟩
    rintro ⟨c, hc, sector, hlast, hreads⟩
    exact h c hc sector hreads hlast

/-- On a disk of eighteen sectors to a track, sector 35 is the last of cylinder 0. -/
theorem last_sector_not_right :
    ¬ ReadsRight ⟨18, by decide⟩ (fun _ _ _ _ => 0) 0
      ⟨fun _ => ⟨true, 0, 0, 0, 0, 0, 0⟩, fun _ => false⟩ (fun _ => 0) [⟨35, 0x7000, 0x200⟩] := by
  intro h
  have reads : (⟨35, 0x7000, 0x200⟩ : CopyCall).Reads 35 := ⟨0, by decide, by decide⟩
  exact h.not_isLast List.mem_cons_self reads (by decide : 35 % 36 = 35)

end Bench

end ToyBootloader
