import ToyBootloader.Disk
import ToyBootloader.Laws.FirstLoads

/-!
# One address for a sector

Stage 1 and the driver each turn the number of a sector into a cylinder, a head
and a sector, in different integer types and without knowing of each other:
`copy_kernel` for the BIOS, packed into CX and DX, and `fpy_copy_bytes` for the
controller, one byte each. Both compute the address of `Geometry.address`, and it
names the sector it was computed from.

Nothing is assumed of the disk but that its geometry is the one the globals hold
while a conversion reads them.
-/

namespace ToyBootloader

open Resumption Code

/-! ## What is asked for -/

namespace Regs16

/-- The cylinder a read request names: CH, and the upper two bits of CL. -/
def cylinder (r : Regs16) : Nat := r.cx.toNat / 64 % 4 * 256 + r.cx.toNat / 256

/-- The sector: the lower six bits of CL. -/
def sector (r : Regs16) : Nat := r.cx.toNat % 64

/-- The head: DH. -/
def head (r : Regs16) : Nat := r.dx.toNat / 256

end Regs16

/-- An operation that asks for a sector asks for the one at `a`: a read request of
the BIOS unpacks to it, and a command sent is a SEEK or a READ of it. -/
def Op.asksFor (a : Chs8) (trackLength : UInt8) : Op → Prop
  | .int13 q => q.isRead = true →
      q.cylinder = a.c.toNat ∧ q.head = a.h.toNat ∧ q.sector = a.s.toNat
  | .mark (.send cmd) => ∃ drive : UInt8,
      cmd = FpyCmdSeekHeadParams.cmd { drive, headNumber := a.h, cylinder := a.c } ∨
      cmd = (copyParams drive trackLength ⟨a.c.toUInt32, a.h.toUInt32, a.s.toUInt32⟩).cmd .readSect
  | _ => True

/-- The two registers of a request unpack to the address that was packed. -/
theorem unpack_readRegs (drive : UInt8) (a : Chs8) (count : UInt8) (dest : Nat)
    (hs : a.s.toNat ≤ 63) :
    (readRegs drive a count dest).cylinder = a.c.toNat ∧
      (readRegs drive a count dest).head = a.h.toNat ∧
      (readRegs drive a count dest).sector = a.s.toNat := by
  have hdrive := drive.toNat_lt
  unfold Regs16.cylinder Regs16.head Regs16.sector
  rw [Ram.toNat_cx, Ram.toNat_dx, Nat.mod_eq_of_lt (Nat.lt_succ_of_le hs)]
  omega

/-! ## The address -/

theorem chs8_ext {a b : Chs8} (hc : a.c.toNat = b.c.toNat) (hh : a.h.toNat = b.h.toNat)
    (hs : a.s.toNat = b.s.toNat) : a = b := by
  have hc := UInt8.toNat_inj.mp hc
  have hh := UInt8.toNat_inj.mp hh
  have hs := UInt8.toNat_inj.mp hs
  cases a
  cases b
  cases hc
  cases hh
  cases hs
  rfl

namespace Geometry

variable (g : Geometry) (lba : UInt8)

/-- The address of a sector, in bytes. -/
def address : Chs8 := Ram.chs8 g.maxHeadNumber g.maxSectorNumber lba

theorem address_eq : g.address lba = ⟨(g.chs lba.toUInt32).c.toUInt8,
    (g.chs lba.toUInt32).h.toUInt8, (g.chs lba.toUInt32).s.toUInt8⟩ := by
  unfold address Ram.chs8
  rw [if_neg g.head_ne]
  rfl

/-- What the 32-bit conversion leaves is the bytes it is sent in. -/
theorem chs_eq : g.chs lba.toUInt32 =
    ⟨(g.address lba).c.toUInt32, (g.address lba).h.toUInt32, (g.address lba).s.toUInt32⟩ := by
  obtain ⟨hc, hh, hs⟩ := g.chs_lt lba
  have fits : ∀ x : UInt32, x.toNat < 256 → x = x.toUInt8.toUInt32 := by
    intro x hx
    apply UInt32.toNat_inj.mp
    rw [UInt8.toNat_toUInt32, UInt32.toNat_toUInt8, Nat.mod_eq_of_lt hx]
  rw [address_eq]
  dsimp only
  rw [← fits _ hc, ← fits _ hh, ← fits _ hs]

theorem address_toNat : (g.address lba).c.toNat = lba.toNat / g.perCylinder ∧
    (g.address lba).h.toNat = lba.toNat / g.maxSectorNumber.toNat % g.maxHeadNumber.toNat ∧
    (g.address lba).s.toNat = lba.toNat % g.maxSectorNumber.toNat + 1 := by
  rw [← UInt8.toNat_toUInt32 (g.address lba).c, ← UInt8.toNat_toUInt32 (g.address lba).h,
    ← UInt8.toNat_toUInt32 (g.address lba).s]
  have numbers := g.chs_toNat lba
  rw [chs_eq] at numbers
  exact numbers

/-- The address is one of the disk's. -/
theorem address_valid : (g.address lba).h.toNat < g.maxHeadNumber.toNat ∧
    1 ≤ (g.address lba).s.toNat ∧ (g.address lba).s.toNat ≤ g.maxSectorNumber.toNat := by
  obtain ⟨-, hh, hs⟩ := g.address_toNat lba
  have hhead := Nat.mod_lt (lba.toNat / g.maxSectorNumber.toNat) (toNat_pos g.head_ne)
  have hsector := Nat.mod_lt lba.toNat (toNat_pos g.sector_ne)
  omega

/-- It names the sector. -/
theorem index_address : g.index (g.address lba).c.toNat (g.address lba).h.toNat
    (g.address lba).s.toNat = lba.toNat := by
  obtain ⟨hc, hh, hs⟩ := g.address_toNat lba
  rw [hc, hh, hs]
  exact g.index_div_mod lba.toNat

/-- So two sectors have two addresses. -/
theorem address_injective : Function.Injective g.address := by
  intro lba lba' h
  apply UInt8.toNat_inj.mp
  rw [← g.index_address lba, ← g.index_address lba', h]

/-- Without heads, an index that fits a track has its address nevertheless. -/
theorem chs8_unknown (sectors : UInt8) (h : lba.toNat < g.maxSectorNumber.toNat) :
    Ram.chs8 0 sectors lba = g.address lba := by
  obtain ⟨hc, hh, hs⟩ := g.address_toNat lba
  have hle := g.sector_le
  have track : lba.toNat / g.maxSectorNumber.toNat = 0 := Nat.div_eq_of_lt h
  have cylinder : lba.toNat / g.perCylinder = 0 := by
    rw [perCylinder, Nat.mul_comm, ← Nat.div_div_eq_div_mul, track, Nat.zero_div]
  rw [cylinder] at hc
  rw [track, Nat.zero_mod] at hh
  rw [Nat.mod_eq_of_lt h] at hs
  have first : (lba + 1).toNat = lba.toNat + 1 := by
    rw [UInt8.toNat_add, UInt8.toNat_one]
    omega
  apply chs8_ext
  · exact hc.symm
  · exact hh.symm
  · exact first.trans hs.symm

/-! ## The two conversions -/

/-- `copy_kernel`'s, with both branches. -/
theorem exec_copyKernelChs {heads sectors : UInt8} (h : heads = 0 ∨ sectors ≠ 0) {a : Chs8} :
    Exec (GeometryIs heads sectors) (copyKernelChs lba) () a () ↔
      a = Ram.chs8 heads sectors lba :=
  (Ram.exec_chs8 (readsGeometry_geometryIs heads sectors) h).trans (and_iff_left rfl)

/-- The driver's. -/
theorem exec_lbaToChs {n : UInt32} {a : Chs} :
    Exec (GeometryIs g.maxHeadNumber g.maxSectorNumber) (lbaToChs n) () a () ↔ a = g.chs n := by
  have reads := readsGeometry_geometryIs g.maxHeadNumber g.maxSectorNumber
  exact (reads.exec_lbaToChs g.head_ne g.sector_ne).trans (and_iff_left rfl)

/-! ## What is asked for -/

/-- Every operation of a walk asks for the sector of `lba`, if it asks for one. -/
abbrev AsksFor {α : Type} (p : Code α) : Prop :=
  Follows (GeometryIs g.maxHeadNumber g.maxSectorNumber)
    (fun _ => Op.asksFor (g.address lba) g.maxSectorNumber) p (fun _ _ => True) ()

/-- The operations that ask for no sector. -/
theorem asksFor_of_port {a : Chs8} {trackLength : UInt8} {op : Op} (h : op.isPort) :
    op.asksFor a trackLength := by
  cases op with
  | inb port | outb port b => trivial
  | _ => cases h

theorem asksFor_of_arith {a : Chs8} {trackLength : UInt8} {op : Op} (h : op.isArith) :
    op.asksFor a trackLength := by
  cases op with
  | get v | divideError => trivial
  | _ => cases h

theorem asksFor_of_wait {a : Chs8} {trackLength : UInt8} {op : Op} (h : op.isWait) :
    op.asksFor a trackLength := by
  cases op with
  | received | testReceived | setReceived r => trivial
  | _ => cases h

/-- A command asks for what its array does. -/
theorem asksFor_fpySendCommand {a : Chs8} {trackLength : UInt8} {cmd : List UInt8} (wait : Bool)
    (h : (Op.mark (.send cmd)).asksFor a trackLength) :
    Only (Op.asksFor a trackLength) (fpySendCommand cmd wait) := by
  have body : Only (Op.asksFor a trackLength) (fpySendCommandBody cmd wait) :=
    (port_fpySendCommandBody cmd wait).mono fun _ => asksFor_of_port
  exact ⟨h, fun _ => body.bind fun _ => ⟨trivial, fun _ => trivial⟩⟩

/-- A READ asks for its own sector. -/
theorem asksFor_fpyCmdReadSector {a : Chs8} {trackLength : UInt8} {p : FpyCmdReadSectorParams}
    (h : (Op.mark (.send (p.cmd .readSect))).asksFor a trackLength) :
    Only (Op.asksFor a trackLength) (fpyCmdReadSector p) := by
  apply Only.bind (p := fpyPrepareIrqNoHandle) ⟨trivial, fun _ => trivial⟩
  intro _
  apply (asksFor_fpySendCommand true h).bind
  intro e
  cases e with
  | some e => trivial
  | none =>
    apply (wait_fpyWaitIrq.mono fun _ => asksFor_of_wait).bind
    intro _
    apply only_fpyCmdGenRes
    · intro op hop
      exact asksFor_of_port hop.isPort
    · intro e
      trivial

/-- What asks for the right sector asks for it here. -/
theorem asksFor_of_only {α : Type} {p : Code α}
    (h : Only (Op.asksFor (g.address lba) g.maxSectorNumber) p) : g.AsksFor lba p :=
  h.follows (I := fun _ => True) (fun _ _ hop _ => hop) (fun _ _ _ _ _ _ _ => trivial) trivial

/-- A round of `fpy_copy_bytes` asks for its sector. -/
theorem asksFor_readOneSector : g.AsksFor lba (readOneSector lba) := by
  have convert : Follows (GeometryIs g.maxHeadNumber g.maxSectorNumber)
      (fun _ => Op.asksFor (g.address lba) g.maxSectorNumber) (lbaToChs lba.toUInt32)
      (fun a _ => a = g.chs lba.toUInt32) () :=
    (arith_lbaToChs _).follows_exec (fun _ _ => asksFor_of_arith)
      fun _ _ run => g.exec_lbaToChs.mp run
  apply convert.bind
  rintro a _ rfl
  rw [chs_eq]
  simp only [Prog.bind_eq, get_bind, UInt8.toUInt8_toUInt32]
  refine ⟨trivial, fun drive _ _ => ?_⟩
  apply (g.asksFor_of_only lba (asksFor_fpySendCommand true ⟨drive, .inl rfl⟩)).bind
  intro e _ _
  cases e with
  | some e => trivial
  | none =>
    refine ⟨trivial, fun drive _ _ => ⟨trivial, fun trackLength _ hsectors => ?_⟩⟩
    obtain rfl := hsectors
    apply (g.asksFor_of_only lba (asksFor_fpyCmdReadSector ⟨drive, .inr rfl⟩)).bind
    intro res _ _
    trivial

/-- `copy_kernel` asks for its sector. -/
theorem asksFor_copyKernel (count : UInt8) (dest : Nat) :
    g.AsksFor lba (copyKernel lba count dest) := by
  have convert : Follows (GeometryIs g.maxHeadNumber g.maxSectorNumber)
      (fun _ => Op.asksFor (g.address lba) g.maxSectorNumber) (copyKernelChs lba)
      (fun a _ => a = g.address lba) () :=
    (arith_copyKernelChs _).follows_exec (fun _ _ => asksFor_of_arith)
      fun _ _ run => (exec_copyKernelChs lba (.inr g.sector_ne)).mp run
  apply convert.bind
  rintro a _ rfl
  obtain ⟨-, -, hsector⟩ := g.address_valid lba
  have unpacks : ∀ drive, (Op.int13 (readRegs drive (g.address lba) count dest)).asksFor
      (g.address lba) g.maxSectorNumber := fun drive _ =>
    unpack_readRegs drive _ count dest (Nat.le_trans hsector g.sector_le)
  have resets : ∀ drive, (Op.int13 (resetRegs drive)).asksFor (g.address lba)
      g.maxSectorNumber := by
    intro drive hread
    rw [isRead_resetRegs] at hread
    cases hread
  apply g.asksFor_of_only
  generalize 3 = tries
  induction tries with
  | zero => trivial
  | succ tries ih =>
    simp only [copyKernelLoop, Prog.bind_eq, get_bind, int13_bind, only_vis]
    refine ⟨trivial, fun drive => ⟨resets drive, fun _ => ?_⟩⟩
    refine ⟨trivial, fun drive => ⟨unpacks drive, fun r => ?_⟩⟩
    split
    · exact ih
    · trivial

end Geometry

/-! ## The law -/

/-- The two conversions, of every sector a byte can number. -/
structure Addresses (g : Geometry) : Prop where
  /-- `copy_kernel` comes to the address, always. -/
  stage1 : ∀ {lba : UInt8} {a : Chs8},
    Exec (GeometryIs g.maxHeadNumber g.maxSectorNumber) (copyKernelChs lba) () a () ↔
      a = g.address lba
  /-- The driver comes to the same one, always: no number is cut short. -/
  driver : ∀ {lba : UInt8} {a : Chs},
    Exec (GeometryIs g.maxHeadNumber g.maxSectorNumber) (lbaToChs lba.toUInt32) () a () ↔
      a = ⟨(g.address lba).c.toUInt32, (g.address lba).h.toUInt32, (g.address lba).s.toUInt32⟩
  /-- It is an address of the disk. -/
  valid : ∀ lba : UInt8, (g.address lba).h.toNat < g.maxHeadNumber.toNat ∧
    1 ≤ (g.address lba).s.toNat ∧ (g.address lba).s.toNat ≤ g.maxSectorNumber.toNat
  /-- It names its sector. -/
  inverse : ∀ lba : UInt8, ((g.address lba).c.toNat * g.maxHeadNumber.toNat +
    (g.address lba).h.toNat) * g.maxSectorNumber.toNat + ((g.address lba).s.toNat - 1) = lba.toNat
  injective : Function.Injective g.address
  /-- What `copy_kernel` asks the BIOS for, in any of its tries, unpacks to it. -/
  requests : ∀ {lba count : UInt8} {dest : Nat} {op : Op} {k : op.Ans → Code Unit},
    Reach (GeometryIs g.maxHeadNumber g.maxSectorNumber) (copyKernel lba count dest, ())
      (.vis (S := ops) op k, ()) → op.asksFor (g.address lba) g.maxSectorNumber
  /-- The commands of a round of `fpy_copy_bytes` are for it. -/
  commands : ∀ {lba : UInt8} {op : Op} {k : op.Ans → Code ErrT},
    Reach (GeometryIs g.maxHeadNumber g.maxSectorNumber) (readOneSector lba, ())
      (.vis (S := ops) op k, ()) → op.asksFor (g.address lba) g.maxSectorNumber
  /-- Before the geometry is known, an index of the first track has its address all
  the same. -/
  unknown : ∀ {sectors lba : UInt8} {a : Chs8}, lba.toNat < g.maxSectorNumber.toNat →
    (Exec (GeometryIs 0 sectors) (copyKernelChs lba) () a () ↔ a = g.address lba)

/-- THE CONVERSIONS AGREE, for every geometry, and can be undone. -/
theorem conversions_agree (g : Geometry) : Addresses g where
  stage1 := Geometry.exec_copyKernelChs _ (.inr g.sector_ne)
  driver {lba a} := by rw [g.exec_lbaToChs, g.chs_eq]
  valid := g.address_valid
  inverse := g.index_address
  injective := g.address_injective
  requests run := ((g.asksFor_copyKernel _ _ _).reach run).ok_vis
  commands run := ((g.asksFor_readOneSector _).reach run).ok_vis
  unknown {sectors lba a} h := by
    rw [Geometry.exec_copyKernelChs lba (.inl rfl), g.chs8_unknown lba sectors h]

end ToyBootloader
