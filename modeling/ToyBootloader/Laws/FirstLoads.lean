import ToyBootloader.Laws.Conversion
import ToyBootloader.Laws.Layout
import ToyBootloader.Controller
import ToyBootloader.Memory.Bytes
import ToyBootloader.Memory.Fields

/-!
# What RAM held at power-on

The shared `.bss` is not in the image and nothing clears it. Two of its globals
are read before anything has assigned them: the geometry, by `copy_kernel` of
stage 1, and `fpy_irq_handle_state`, by the interrupt handler during
`floppy_init`.

Here a global IS its byte of memory, at the address the linker script gives it,
and everything outside the program answers as a function of what it was asked.
Two boots then differ only in what RAM held, and they go the same way exactly
when three bytes agree as far as they are looked at.
-/

namespace ToyBootloader

open Resumption Placement Memory Code

/-! ## The machine -/

/-- What answers the program from outside, as functions of what was asked so
far, the last first. -/
structure Env where
  inb : List Op → UInt16 → UInt8
  int13 : List Op → Regs16 → Regs16
  int15 : List Op → Regs32 → Regs32
  cpuid : List Op → UInt32 → Regs32
  readCr : List Op → Nat → UInt32
  rdmsr : List Op → UInt32 → UInt32
  /-- The disk: the bytes a read request brings. -/
  image : Regs16 → Nat → UInt8

/-- Memory, with the globals in it, and what has been asked. -/
structure Ram where
  mem : Mem
  objs : Obj → List UInt8
  cylinder : UInt16
  received : Received
  past : List Op := []
  /-- The part whose load is going on. -/
  loading : Option Part := none
  sending : Sending := {}

namespace Ram

/-- Something is asked. -/
def asked (s : Ram) (op : Op) : Ram := { s with past := op :: s.past }

/-- Memory after a read request that succeeds: its sectors are where the part
runs. -/
def loaded (L : Sizes) (env : Env) (s : Ram) (q : Regs16) : Mem :=
  match s.loading with
  | some p => fun a =>
    if L.runAddr p ≤ a ∧ a < L.runAddr p + 512 * q.count then env.image q (a - L.runAddr p)
    else s.mem a
  | none => s.mem

/-- The machine. A division by zero is not answered. -/
def sim (L : Sizes) (env : Env) : Simulator ops Ram := fun s op =>
  match op with
  | .inb port => some (env.inb s.past port, s.asked (.inb port))
  | .outb port b =>
    some ((), { s.asked (.outb port b) with sending := s.sending.next (.outb port b) })
  | .int13 q =>
    let r := env.int13 s.past q
    some (r, { s.asked (.int13 q) with
      mem := if q.isRead && !r.failed then s.loaded L env q else s.mem })
  | .int15 q => some (env.int15 s.past q, s.asked (.int15 q))
  | .cpuid n => some (env.cpuid s.past n, s.asked (.cpuid n))
  | .get v => some (s.mem (L.addr v), s)
  | .set v x => some ((), { s with mem := s.mem.set (L.addr v) x })
  | .getCylinder => some (s.cylinder, s)
  | .setCylinder x => some ((), { s with cylinder := x })
  | .received | .testReceived => some (s.received, s)
  | .setReceived r => some ((), { s with received := r })
  | .load a => some (s.mem a, s)
  | .store a x => some ((), { s with mem := s.mem.set a x })
  | .fetch o => some (s.objs o, s)
  | .assign o bs => some ((), { s with objs := fun o' => if o' = o then bs else s.objs o' })
  | .setInterrupt _ _ => some ((), s)
  | .readCr n => some (env.readCr s.past n, s.asked (.readCr n))
  | .writeCr n x => some ((), s.asked (.writeCr n x))
  | .rdmsr n => some (env.rdmsr s.past n, s.asked (.rdmsr n))
  | .wrmsr x => some ((), s.asked (.wrmsr x))
  | .sti => some ((), s.asked .sti)
  | .divideError => none
  | .mark e => some ((), { s with
      sending := s.sending.next (.mark e)
      loading := match e with | .load p => some p | _ => s.loading })

abbrev machine (L : Sizes) (env : Env) : Machine ops Ram := (sim L env).machine

/-! ## What has to be the same -/

/-- The boot up to `stage2_load`. -/
def beforeStage2 (L : Sizes) (dl : UInt8) : Code Unit := do
  Code.set .driveNumber dl
  copyKernelPart L .shared
  copyKernelPart L .stage2

/-- The boot up to the end of `floppy_init`. -/
def untilFloppyInit (L : Sizes) (stub : UInt8 → UInt32) (dl : UInt8) : Code Unit := do
  beforeStage2 L dl
  mark (.enter .stage2)
  stage2Load
  copyKernelPart L .stage3
  mark (.enter .stage3)
  stage3Setup L stub
  floppyInit

theorem boot_eq (L : Sizes) (stub : UInt8 → UInt32) (dl : UInt8) :
    boot L stub dl = (untilFloppyInit L stub dl).bind fun _ => stage3Rest L := by
  simp only [boot, mainAsm, init, untilFloppyInit, beforeStage2, stage3Start_eq, Prog.bind_eq,
    Prog.bind_assoc]

/-- At power-on, with `m` in memory and nothing asked. -/
def Fresh (m : Mem) (s : Ram) : Prop :=
  s.mem = m ∧ s.past = [] ∧ s.loading = none ∧ s.sending = {}

/-- The machine switched on. -/
def powerOn (m : Mem) : Ram where
  mem := m
  objs _ := []
  cylinder := 0
  received := .wait

theorem fresh_powerOn (m : Mem) : Fresh m (powerOn m) := ⟨rfl, rfl, rfl, rfl⟩

/-- The read requests among what was asked. -/
def reads (past : List Op) : List Regs16 :=
  past.filterMap fun op => match op with
    | .int13 q => if q.isRead then some q else none
    | _ => none

/-- The run is over, at its end or at a division by zero. -/
def Stops {α : Type} (L : Sizes) (env : Env) (p : Code α) (s t : Ram) : Prop :=
  ∃ p', Reach (machine L env) (p, s) (p', t) ∧ ∀ c, ¬ Step (machine L env) (p', t) c

/-- `rs` are the read requests issued before `stage2_load`. -/
def Issues (L : Sizes) (dl : UInt8) (env : Env) (s : Ram) (rs : List Regs16) : Prop :=
  ∃ t, Stops L env (beforeStage2 L dl) s t ∧ reads t.past = rs

/-- A CALIBRATE was sent whole, and nothing since: its interrupt may come. -/
def Calibrating (s : Ram) : Prop :=
  opcode s.sending.cmd &&& 0x1f = FpyCmd.calibrate.val ∧ s.sending.left = []

/-- The first interrupt of `floppy_init` may come in `t`. -/
def Interrupted (L : Sizes) (stub : UInt8 → UInt32) (dl : UInt8) (env : Env) (s t : Ram) : Prop :=
  Visits (machine L env) (untilFloppyInit L stub dl) s t ∧ t.Calibrating

/-- The handler takes the branch that sends CHECK_INT. -/
def Senses (L : Sizes) (env : Env) (t : Ram) : Prop :=
  ∃ cmd k t', Reach (machine L env) (fpyInterruptHandler, t) (.vis (S := ops) (.mark (.send cmd)) k, t')

/-- The boot goes the same way from both memories, in every environment. -/
structure SameBoot (L : Sizes) (stub : UInt8 → UInt32) (dl : UInt8) (m₁ m₂ : Mem) : Prop where
  requests : ∀ env s₁ s₂, Fresh m₁ s₁ → Fresh m₂ s₂ →
    ∀ rs, Issues L dl env s₁ rs ↔ Issues L dl env s₂ rs
  branch : ∀ env s₁ s₂ t₁ t₂, Fresh m₁ s₁ → Fresh m₂ s₂ →
    Interrupted L stub dl env s₁ t₁ → Interrupted L stub dl env s₂ t₂ →
    (Senses L env t₁ ↔ Senses L env t₂)

/-- What `copy_kernel` asks for when it reads from section `i` with this
geometry: cylinder, head, and the six bits of the sector. With a number of heads
and no sectors it divides by zero. -/
def address (heads sectors : UInt8) (i : Nat) : Option (Nat × Nat × Nat) :=
  if heads = 0 then some (0, 0, (i + 1) % 64)
  else if sectors = 0 then none
  else some (i / (heads.toNat * sectors.toNat), i / sectors.toNat % heads.toNat,
    (i % sectors.toNat + 1) % 64)

/-- The address of a part's first section, with the geometry a memory holds. -/
def partAddress (L : Sizes) (m : Mem) (p : Part) : Option (Nat × Nat × Nat) :=
  address (m (L.addr .maxHeadNumber)) (m (L.addr .maxSectorNumber)) (L.firstSectionIndex p % 256)

/-- The memories agree as far as the boot looks: both geometries, whatever they
are, send the first two loads to the same sectors, and the flag is clear in
both or in neither. -/
structure Alike (L : Sizes) (m₁ m₂ : Mem) : Prop where
  shared : partAddress L m₁ .shared = partAddress L m₂ .shared
  stage2 : partAddress L m₁ .stage2 = partAddress L m₂ .stage2
  flag : partAddress L m₁ .shared ≠ none →
    (m₁ (L.addr .fpyIrqHandleState) = 0 ↔ m₂ (L.addr .fpyIrqHandleState) = 0)

/-! ## A request and its address -/

/-- The two registers of a request hold the address and the drive. -/
theorem toNat_cx (drive : UInt8) (a : Chs8) (count : UInt8) (dest : Nat) :
    (readRegs drive a count dest).cx.toNat = 256 * a.c.toNat + a.s.toNat % 64 := by
  have hc := a.c.toNat_lt
  have packed := packed_cx (c := a.c.toNat) (by omega) a.s.toNat
  change ((a.c.toNat &&& 0xFF) <<< 8 % 65536 ||| (a.c.toNat &&& 0x300) >>> 2)
    ||| (a.s.toNat &&& 0x3f) = _
  rw [packed]
  omega

theorem toNat_dx (drive : UInt8) (a : Chs8) (count : UInt8) (dest : Nat) :
    (readRegs drive a count dest).dx.toNat = 256 * a.h.toNat + drive.toNat :=
  toNat_pair a.h drive

/-- Two requests of one load are the same exactly when their addresses are. -/
theorem readRegs_eq_iff {drive : UInt8} {a b : Chs8} {count : UInt8} {dest : Nat} :
    readRegs drive a count dest = readRegs drive b count dest ↔
      (a.c.toNat, a.h.toNat, a.s.toNat % 64) = (b.c.toNat, b.h.toNat, b.s.toNat % 64) := by
  have hcx := toNat_cx drive a count dest
  have hcx' := toNat_cx drive b count dest
  have hdx := toNat_dx drive a count dest
  have hdx' := toNat_dx drive b count dest
  simp only [Prod.mk.injEq]
  constructor
  · intro h
    rw [h, hcx'] at hcx
    rw [h, hdx'] at hdx
    omega
  · rintro ⟨hc, hh, hs⟩
    rw [hc, hs, ← hcx'] at hcx
    rw [hh, ← hdx'] at hdx
    have hcx := UInt16.toNat_inj.mp hcx
    have hdx := UInt16.toNat_inj.mp hdx
    simp only [readRegs, Regs16.mk.injEq, true_and] at hcx hdx ⊢
    exact ⟨hcx, hdx⟩

/-- The address `copy_kernel` computes. -/
def chs8 (heads sectors i : UInt8) : Chs8 :=
  if heads = 0 then { c := 0, h := 0, s := i + 1 }
  else
    { c := (i.toUInt32 / (heads.toUInt32 * sectors.toUInt32)).toUInt8
      h := (i.toUInt32 / sectors.toUInt32 % heads.toUInt32).toUInt8
      s := (i.toUInt32 % sectors.toUInt32 + 1).toUInt8 }

/-- It does, wherever it reads them. -/
theorem exec_chs8 {σ : Type} {M : Machine ops σ} {heads sectors i : UInt8} {s s' : σ} {a : Chs8}
    (reads : ReadsGeometry M heads sectors s) (h : heads = 0 ∨ sectors ≠ 0) :
    Exec M (copyKernelChs i) s a s' ↔ a = chs8 heads sectors i ∧ s' = s := by
  unfold chs8
  by_cases hz : heads = 0
  · rw [hz] at reads
    rw [if_pos hz]
    exact reads.exec_copyKernelChs_unknown
  · rw [if_neg hz]
    exact reads.exec_copyKernelChs hz (h.resolve_left hz)

/-- Without a division by zero it is the address. -/
theorem address_eq {heads sectors : UInt8} (h : heads = 0 ∨ sectors ≠ 0) (i : UInt8) :
    address heads sectors i.toNat = some ((chs8 heads sectors i).c.toNat,
      (chs8 heads sectors i).h.toNat, (chs8 heads sectors i).s.toNat % 64) := by
  have hi := i.toNat_lt
  by_cases hz : heads = 0
  · simp only [address, chs8, hz, if_true, UInt8.toNat_add, UInt8.toNat_zero, UInt8.toNat_one]
    congr 3
    omega
  · have hs : sectors ≠ 0 := h.resolve_left hz
    have hpos := toNat_pos hs
    have hquot := Nat.div_le_self i.toNat (heads.toNat * sectors.toNat)
    have hhead := Nat.mod_lt (i.toNat / sectors.toNat) (toNat_pos hz)
    have hlt := heads.toNat_lt
    have hsector := Nat.mod_lt i.toNat hpos
    have hslt := sectors.toNat_lt
    simp only [address, chs8, if_neg hz, if_neg hs, UInt32.toNat_toUInt8, UInt32.toNat_div,
      UInt32.toNat_mod, UInt32.toNat_add, toNat_mul_toUInt32, UInt8.toNat_toUInt32,
      UInt32.toNat_one, Option.some.injEq, Prod.mk.injEq]
    refine ⟨?_, ?_, ?_⟩
    · exact (Nat.mod_eq_of_lt (by omega)).symm
    · exact (Nat.mod_eq_of_lt (by omega)).symm
    · omega

theorem address_eq_none {heads sectors : UInt8} {i : Nat} :
    address heads sectors i = none ↔ heads ≠ 0 ∧ sectors = 0 := by
  unfold address
  split
  · simp_all
  · split <;> simp_all

/-! ## One load -/

variable {L : Sizes} {env : Env} {m : Mem} {dl : UInt8} {s : Ram}

/-- What the boot has assigned so far: the drive number, and no other global. -/
def Holds (L : Sizes) (m : Mem) (dl : UInt8) (s : Ram) : Prop :=
  s.mem (L.addr .driveNumber) = dl ∧ ∀ v, v ≠ .driveNumber → s.mem (L.addr v) = m (L.addr v)

/-- `copy_kernel`'s loads do not reach a global. -/
theorem loaded_addr {p : Part} (hp : p.byBios = true) (hs : s.loading = some p) {q : Regs16}
    (hq : q.count ≤ L.loadCount p) (v : Var) : s.loaded L env q (L.addr v) = s.mem (L.addr v) := by
  have hshared := L.shared_copy_le_addr v
  have hcontent := L.addr_lt_contentStart v
  rw [loaded, hs]
  refine if_neg ?_
  cases p with
  | shared =>
    rintro ⟨-, hhi⟩
    simp only [Sizes.runAddr] at hhi
    omega
  | stage2 | stage3 =>
    rintro ⟨hlo, -⟩
    simp only [Sizes.runAddr] at hlo
    omega
  | _ => cases hp

/-- The globals after a part's read request: no sector reaches them. -/
theorem mem_int13 {p : Part} (hp : p.byBios = true) (hs : s.loading = some p) {q : Regs16}
    (hq : q.isRead = true → q.count ≤ L.loadCount p) {r : Regs16} {s' : Ram}
    (h : machine L env s (.int13 q) r s') (v : Var) : s'.mem (L.addr v) = s.mem (L.addr v) := by
  cases h
  show (if q.isRead && _ then s.loaded L env q else s.mem) (L.addr v) = _
  split
  · rename_i hread
    exact loaded_addr hp hs (hq (Bool.and_eq_true_iff.mp hread).1) v
  · rfl

/-- The conversion, with the geometry that memory holds. -/
theorem exec_copyKernelChs (i : UInt8)
    (h : s.mem (L.addr .maxHeadNumber) = 0 ∨ s.mem (L.addr .maxSectorNumber) ≠ 0) :
    Exec (machine L env) (copyKernelChs i) s
      (chs8 (s.mem (L.addr .maxHeadNumber)) (s.mem (L.addr .maxSectorNumber)) i) s := by
  have reads : ReadsGeometry (machine L env) (s.mem (L.addr .maxHeadNumber))
      (s.mem (L.addr .maxSectorNumber)) s :=
    ⟨Simulator.machine_iff rfl, Simulator.machine_iff rfl⟩
  exact (exec_chs8 reads h).mpr ⟨rfl, rfl⟩

/-- What has been asked after `n` tries, each a reset and a request. -/
def tries (env : Env) (reset q : Regs16) : Nat → List Op → List Op
  | 0, past => past
  | n + 1, past =>
    if n ≠ 0 && (env.int13 (.int13 reset :: past) q).failed then
      tries env reset q n (.int13 q :: .int13 reset :: past)
    else .int13 q :: .int13 reset :: past

/-- The state after a load. -/
structure After (L : Sizes) (m : Mem) (dl : UInt8) (s : Ram) (past : List Op) (s' : Ram) :
    Prop where
  holds : Holds L m dl s'
  past : s'.past = past
  loading : s'.loading = s.loading
  sending : s'.sending = s.sending

variable (env) in
/-- A request during a load. -/
theorem exists_int13 {p : Part} (hp : p.byBios = true) (hs : Holds L m dl s)
    (hl : s.loading = some p) {q : Regs16} (hq : q.isRead = true → q.count ≤ L.loadCount p) :
    ∃ s', machine L env s (.int13 q) (env.int13 s.past q) s' ∧
      After L m dl s (.int13 q :: s.past) s' := by
  refine ⟨_, rfl, ⟨?_, fun v hv => ?_⟩, rfl, rfl, rfl⟩
  · exact (mem_int13 hp hl hq rfl .driveNumber).trans hs.1
  · exact (mem_int13 hp hl hq rfl v).trans (hs.2 v hv)

theorem get_driveNumber (hs : Holds L m dl s) : machine L env s (.get .driveNumber) dl s := by
  show some (s.mem (L.addr .driveNumber), s) = some (dl, s)
  rw [hs.1]

variable (env) in
/-- The loop of `copy_kernel`: what it asks depends on the address alone. -/
theorem exec_copyKernelLoop {p : Part} (hp : p.byBios = true) (a : Chs8) (dest : Nat) :
    ∀ (n : Nat) {s : Ram}, Holds L m dl s → s.loading = some p →
      ∃ s', Exec (machine L env) (copyKernelLoop a (UInt8.ofNat (L.loadCount p)) dest n) s () s' ∧
        After L m dl s (tries env (resetRegs dl)
          (readRegs dl a (UInt8.ofNat (L.loadCount p)) dest) n s.past) s'
  | 0, s, hs, _ => ⟨s, .pure, hs, rfl, rfl, rfl⟩
  | n + 1, s, hs, hl => by
    have hreset : (resetRegs dl).isRead = true → (resetRegs dl).count ≤ L.loadCount p := by
      rw [isRead_resetRegs]
      exact nofun
    have hcount : (readRegs dl a (UInt8.ofNat (L.loadCount p)) dest).count ≤ L.loadCount p := by
      rw [(isRead_readRegs _ _ _ _).2, UInt8.toNat_ofNat']
      exact Nat.mod_le _ _
    obtain ⟨s₁, h₁, ⟨hs₁, hpast₁, hl₁, hsend₁⟩⟩ := exists_int13 env hp hs hl hreset
    obtain ⟨s₂, h₂, ⟨hs₂, hpast₂, hl₂, hsend₂⟩⟩ :=
      exists_int13 env hp hs₁ (hl₁.trans hl) fun _ => hcount
    rw [hpast₁] at h₂ hpast₂
    simp only [copyKernelLoop, Prog.bind_eq, get_bind, int13_bind, exec_vis, tries]
    split
    · rename_i hagain
      obtain ⟨s', run, hs', hpast', hl', hsend'⟩ :=
        exec_copyKernelLoop hp a dest n hs₂ (hl₂.trans (hl₁.trans hl))
      refine ⟨s', ⟨dl, s, get_driveNumber hs, _, s₁, h₁,
        dl, s₁, get_driveNumber hs₁, _, s₂, h₂, ?_⟩, hs', ?_, hl'.trans (hl₂.trans hl₁), hsend'.trans (hsend₂.trans hsend₁)⟩
      · rw [if_pos hagain]
        exact run
      · rw [hpast', hpast₂]
    · rename_i hdone
      refine ⟨s₂, ⟨dl, s, get_driveNumber hs, _, s₁, h₁,
        dl, s₁, get_driveNumber hs₁, _, s₂, h₂, ?_⟩, hs₂, hpast₂, hl₂.trans hl₁, hsend₂.trans hsend₁⟩
      rw [if_neg hdone]
      exact .pure

/-- The request of a part's load. -/
def request (L : Sizes) (m : Mem) (dl : UInt8) (p : Part) : Regs16 :=
  readRegs dl (chs8 (m (L.addr .maxHeadNumber)) (m (L.addr .maxSectorNumber))
    (UInt8.ofNat (L.firstSectionIndex p))) (UInt8.ofNat (L.loadCount p)) (L.runAddr p)

/-- The geometry memory holds can be divided by, or is not looked at. -/
def Divides (L : Sizes) (m : Mem) : Prop :=
  m (L.addr .maxHeadNumber) = 0 ∨ m (L.addr .maxSectorNumber) ≠ 0

variable (env) in
theorem exec_copyKernelPart {p : Part} (hp : p.byBios = true) (hm : Divides L m)
    (hs : Holds L m dl s) :
    ∃ s', Exec (machine L env) (copyKernelPart L p) s () s' ∧ Holds L m dl s' ∧
      s'.past = tries env (resetRegs dl) (request L m dl p) 3 s.past ∧ s'.sending = s.sending := by
  have hheads := hs.2 .maxHeadNumber nofun
  have hsectors := hs.2 .maxSectorNumber nofun
  let s₁ : Ram := { s with loading := some p }
  have hmark : machine L env s (.mark (.load p)) () s₁ := rfl
  have hchs : Exec (machine L env) (copyKernelChs (UInt8.ofNat (L.firstSectionIndex p))) s₁
      (chs8 (m (L.addr .maxHeadNumber)) (m (L.addr .maxSectorNumber))
        (UInt8.ofNat (L.firstSectionIndex p))) s₁ := by
    rw [Divides] at hm
    rw [← hheads, ← hsectors] at hm ⊢
    exact exec_copyKernelChs (s := s₁) _ hm
  obtain ⟨s', run, hs', hpast, -, hsend⟩ :=
    exec_copyKernelLoop env hp _ (L.runAddr p) 3 (s := s₁) hs rfl
  refine ⟨s', .vis hmark ?_, hs', hpast, hsend⟩
  exact (exec_bind (p := copyKernelChs _)).mpr ⟨_, s₁, hchs, run⟩

/-- Everything asked before `stage2_load`. -/
def issued (L : Sizes) (env : Env) (m : Mem) (dl : UInt8) : List Op :=
  tries env (resetRegs dl) (request L m dl .stage2) 3
    (tries env (resetRegs dl) (request L m dl .shared) 3 [])

/-- The drive number is assigned, and no other global. -/
theorem holds_set (L : Sizes) (dl : UInt8) (hs : Fresh m s) :
    Holds L m dl { s with mem := s.mem.set (L.addr .driveNumber) dl } := by
  obtain ⟨rfl, -⟩ := hs
  exact ⟨Mem.set_self _ _ _, fun v hv => Mem.set_ne _ _ fun h => hv (L.addr_inj h)⟩

variable (env dl) in
theorem exec_beforeStage2 (hm : Divides L m) (hs : Fresh m s) :
    ∃ s', Exec (machine L env) (beforeStage2 L dl) s () s' ∧ Holds L m dl s' ∧
      s'.past = issued L env m dl ∧ s'.sending = {} := by
  have hset := holds_set L dl hs
  obtain ⟨-, hpast, -, hsend⟩ := hs
  obtain ⟨s₁, run₁, hs₁, hpast₁, hsend₁⟩ :=
    exec_copyKernelPart env (p := .shared) rfl hm hset
  obtain ⟨s₂, run₂, hs₂, hpast₂, hsend₂⟩ :=
    exec_copyKernelPart env (p := .stage2) rfl hm hs₁
  have set : Exec (machine L env) (Code.set .driveNumber dl) s () _ := .vis rfl .pure
  refine ⟨s₂, exec_bind.mpr ⟨(), _, set, exec_bind.mpr ⟨(), s₁, run₁, run₂⟩⟩, hs₂, ?_,
    hsend₂.trans (hsend₁.trans hsend)⟩
  rw [hpast₂, hpast₁, issued, hpast]

/-- With a geometry to divide by, the requests are these. -/
theorem issues_iff (hm : Divides L m) (hs : Fresh m s) {rs : List Regs16} :
    Issues L dl env s rs ↔ rs = reads (issued L env m dl) := by
  obtain ⟨s', run, -, hpast, -⟩ := exec_beforeStage2 env dl hm hs
  have stop : ∀ c, ¬ Step (machine L env) (.pure (), s') c := nofun
  rw [← hpast]
  constructor
  · rintro ⟨t, ⟨p', run', stop'⟩, rfl⟩
    cases Simulator.stop_unique run' stop' run.reach stop
    rfl
  · rintro rfl
    exact ⟨s', ⟨.pure (), run.reach, stop⟩, rfl⟩

/-! ## A division by zero -/

variable (env) in
/-- With heads and no sectors, the first conversion is the end. -/
theorem reach_divideError {α : Type} (i : UInt8) (f : Chs8 → Code α)
    (hheads : s.mem (L.addr .maxHeadNumber) ≠ 0) (hsectors : s.mem (L.addr .maxSectorNumber) = 0) :
    ∃ k, Reach (machine L env) ((copyKernelChs i).bind f, s)
      (.vis (S := ops) .divideError k, s) := by
  have read : ∀ v (g : UInt8 → Code α),
      (∃ k, Reach (machine L env) (g (s.mem (L.addr v)), s) (.vis (S := ops) .divideError k, s)) →
        ∃ k, Reach (machine L env) (.vis (S := ops) (.get v) g, s)
          (.vis (S := ops) .divideError k, s) :=
    fun _ _ h => h.imp fun _ run => .head (.vis rfl) run
  have hzero : (s.mem (L.addr .maxHeadNumber)).toUInt32 *
      (s.mem (L.addr .maxSectorNumber)).toUInt32 = 0 := by
    rw [hsectors]
    exact UInt32.mul_zero
  simp only [copyKernelChs, Prog.bind_eq, get_bind, Prog.vis_bind]
  refine read _ _ ?_
  rw [if_pos hheads]
  refine read _ _ (read _ _ ?_)
  simp only [hzero, udiv_zero_bind, Prog.vis_bind]
  exact ⟨_, .refl⟩

/-- And on the way to it no state changes. -/
theorem follows_divideError {ok : Ram → Op → Prop} (hok : ∀ op, ok s op) (i : UInt8)
    (hheads : s.mem (L.addr .maxHeadNumber) ≠ 0) (hsectors : s.mem (L.addr .maxSectorNumber) = 0) :
    Follows (machine L env) ok (copyKernelChs i) (fun _ _ => False) s := by
  have hzero : (s.mem (L.addr .maxHeadNumber)).toUInt32 *
      (s.mem (L.addr .maxSectorNumber)).toUInt32 = 0 := by
    rw [hsectors]
    exact UInt32.mul_zero
  simp only [copyKernelChs, Prog.bind_eq, get_bind, follows_vis]
  refine ⟨hok _, ?_⟩
  rintro _ _ ⟨⟩
  rw [if_pos hheads]
  refine ⟨hok _, ?_⟩
  rintro _ _ ⟨⟩
  refine ⟨hok _, ?_⟩
  rintro _ _ ⟨⟩
  simp only [hzero, udiv_zero_bind]
  exact ⟨hok _, Empty.rec⟩

variable (env dl) in
/-- Such a boot comes to nothing but the divide error, and has asked nothing. -/
theorem faults_beforeStage2 (hm : ¬ Divides L m) (hs : Fresh m s) :
    ∃ k s', Reach (machine L env) (beforeStage2 L dl, s) (.vis (S := ops) .divideError k, s') ∧
      s'.past = [] := by
  obtain ⟨hheads, hsectors⟩ := not_or.mp hm
  have hset := holds_set L dl hs
  obtain ⟨-, hpast, -, -⟩ := hs
  let s₁ : Ram := { s with mem := s.mem.set (L.addr .driveNumber) dl, loading := some .shared }
  obtain ⟨k, run⟩ := reach_divideError env (L := L) (s := s₁)
    (UInt8.ofNat (L.firstSectionIndex .shared))
    (fun a => copyKernelLoop a (UInt8.ofNat (L.loadCount .shared)) (L.runAddr .shared) 3)
    ((hset.2 .maxHeadNumber nofun).trans_ne hheads)
    ((hset.2 .maxSectorNumber nofun).trans (not_not.mp hsectors))
  exact ⟨_, s₁, .head (.vis rfl) (.head (.vis rfl) (run.bind fun _ => copyKernelPart L .stage2)),
    hpast⟩

theorem issues_of_not_divides (hm : ¬ Divides L m) (hs : Fresh m s) {rs : List Regs16} :
    Issues L dl env s rs ↔ rs = [] := by
  obtain ⟨k, s', run, hpast⟩ := faults_beforeStage2 env dl hm hs
  have stop : ∀ c, ¬ Step (machine L env) (.vis (S := ops) .divideError k, s') c := by
    rintro c ⟨⟨⟩⟩
  have hreads : reads s'.past = [] := by
    rw [hpast]
    rfl
  constructor
  · rintro ⟨t, ⟨p', run', stop'⟩, rfl⟩
    cases Simulator.stop_unique run' stop' run stop
    exact hreads
  · rintro rfl
    exact ⟨s', ⟨_, run, stop⟩, hreads⟩

/-! ## The requests, from two memories -/

theorem divides_iff (p : Part) : Divides L m ↔ partAddress L m p ≠ none := by
  rw [Ne, partAddress, address_eq_none, not_and_or, not_not, Divides]

variable (dl) in
/-- Two memories to divide by send a part's load to the same sectors exactly
when they have the same address for it. -/
theorem request_eq_iff {m₁ m₂ : Mem} (h₁ : Divides L m₁) (h₂ : Divides L m₂) (p : Part) :
    request L m₁ dl p = request L m₂ dl p ↔ partAddress L m₁ p = partAddress L m₂ p := by
  have hindex : L.firstSectionIndex p % 256 = (UInt8.ofNat (L.firstSectionIndex p)).toNat :=
    UInt8.toNat_ofNat'.symm
  rw [request, request, readRegs_eq_iff, partAddress, partAddress, hindex, address_eq h₁,
    address_eq h₂, Option.some.injEq]

/-- A disk that fails every request, under a controller that answers every
one. -/
def dead : Env where
  inb _ port := if port = FPY_MSR then 0x80 else 0x90
  int13 _ _ := ⟨0x8000, 0, 0, 0⟩
  int15 _ _ := ⟨1, 0, 0, 0, false⟩
  cpuid _ _ := ⟨0, 0, 0, 0, false⟩
  readCr _ _ := 0
  rdmsr _ _ := 0
  image _ _ := 0

/-- It is asked three times for either part. -/
theorem reads_issued_dead : reads (issued L dead m dl) =
    .replicate 3 (request L m dl .stage2) ++ .replicate 3 (request L m dl .shared) := by
  have hread : ∀ p, (request L m dl p).isRead = true := fun _ => (isRead_readRegs _ _ _ _).1
  have hfailed : (⟨0x8000, 0, 0, 0⟩ : Regs16).failed = true := by decide
  simp [issued, tries, reads, dead, isRead_resetRegs, hread, hfailed, List.replicate]

/-- The read requests do not depend on which of the two memories it is exactly
when both addresses do not. -/
theorem requests_iff (L : Sizes) (dl : UInt8) (m₁ m₂ : Mem) :
    (∀ env s₁ s₂, Fresh m₁ s₁ → Fresh m₂ s₂ →
      ∀ rs, Issues L dl env s₁ rs ↔ Issues L dl env s₂ rs) ↔
    partAddress L m₁ .shared = partAddress L m₂ .shared ∧
      partAddress L m₁ .stage2 = partAddress L m₂ .stage2 := by
  have missing : ∀ {m} p, ¬ Divides L m → partAddress L m p = none :=
    fun p h => not_not.mp fun hp => h ((divides_iff p).mpr hp)
  by_cases h₁ : Divides L m₁ <;> by_cases h₂ : Divides L m₂
  · rw [← request_eq_iff dl h₁ h₂, ← request_eq_iff dl h₁ h₂]
    constructor
    · intro h
      have heq := (h dead _ _ (fresh_powerOn m₁) (fresh_powerOn m₂) (reads (issued L dead m₁ dl))).mp
        ((issues_iff h₁ (fresh_powerOn m₁)).mpr rfl)
      rw [issues_iff h₂ (fresh_powerOn m₂), reads_issued_dead, reads_issued_dead] at heq
      simp only [List.replicate, List.cons_append, List.nil_append, List.cons.injEq] at heq
      exact ⟨heq.2.2.2.1, heq.1⟩
    · rintro ⟨hshared, hstage2⟩ env s₁ s₂ hs₁ hs₂ rs
      rw [issues_iff h₁ hs₁, issues_iff h₂ hs₂, issued, issued, hshared, hstage2]
  · refine ⟨fun h => ?_, fun h => absurd ((divides_iff .shared).mp h₁) ?_⟩
    · have heq := (h dead _ _ (fresh_powerOn m₁) (fresh_powerOn m₂) []).mpr
        ((issues_of_not_divides h₂ (fresh_powerOn m₂)).mpr rfl)
      rw [issues_iff h₁ (fresh_powerOn m₁), reads_issued_dead] at heq
      cases heq
    · exact not_not.mpr (h.1.trans (missing .shared h₂))
  · refine ⟨fun h => ?_, fun h => absurd ((divides_iff .shared).mp h₂) ?_⟩
    · have heq := (h dead _ _ (fresh_powerOn m₁) (fresh_powerOn m₂) []).mp
        ((issues_of_not_divides h₁ (fresh_powerOn m₁)).mpr rfl)
      rw [issues_iff h₂ (fresh_powerOn m₂), reads_issued_dead] at heq
      cases heq
    · exact not_not.mpr (h.1.symm.trans (missing .shared h₁))
  · refine ⟨fun _ => ⟨(missing _ h₁).trans (missing _ h₂).symm,
      (missing _ h₁).trans (missing _ h₂).symm⟩, ?_⟩
    rintro - env s₁ s₂ hs₁ hs₂ rs
    rw [issues_of_not_divides h₁ hs₁, issues_of_not_divides h₂ hs₂]

end Ram

end ToyBootloader
