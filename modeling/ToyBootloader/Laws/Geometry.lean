import ToyBootloader.Laws.Footprint

/-!
# Division by the geometry

`disk_props` fills the geometry in from one BIOS reply, and three functions
divide by it afterwards: `copy_kernel`, behind a guard, and `floppy_test` and
`fpy_copy_bytes`, with none. A reply decides which: an error status leaves the
zeros there were, a sector field of 0 is taken as it is, and a head field of 255
wraps to no heads at all.

Interrupts are not mentioned because they do not matter here: the handler
divides by nothing and assigns no geometry, and the one global it shares with
the main program answers anything.
-/

namespace ToyBootloader

open Resumption Code

/-- The globals' values. -/
abbrev Globals := Var → UInt8

namespace Globals

/-- The globals of the geometry hold what was last assigned to them, INT 13h
AH=08h is answered with `reply`, and everything else answers anything. -/
def machine (reply : Regs16) : Machine ops Globals := fun s op =>
  match op with
  | .get v => fun x s' => s' = s ∧ (v ≠ .fpyIrqHandleState → x = s v)
  | .set v x => fun _ s' => s' = fun w => if w = v then x else s w
  | .int13 q => fun a s' => s' = s ∧ (q.ax = 0x0800 → a = reply)
  | _ => fun _ s' => s' = s

/-- No operation of a walk is the divide error. -/
abbrev Divides {α : Type} (reply : Regs16) (p : Code α) (Q : α → Globals → Prop) (s : Globals) :
    Prop :=
  Follows (machine reply) (fun _ op => op ≠ .divideError) p Q s

/-- Both divisors are there. -/
def Known (s : Globals) : Prop := s .maxHeadNumber ≠ 0 ∧ s .maxSectorNumber ≠ 0

variable {reply : Regs16} {s : Globals}

/-! ## With the geometry known -/

theorem divides_udiv {α : Type} {a b : UInt32} (hb : b ≠ 0) {k : UInt32 → Code α}
    {Q : α → Globals → Prop} (h : Divides reply (k (a / b)) Q s) :
    Divides reply ((udiv a b).bind k) Q s := by
  rw [udiv_bind hb]
  exact h

theorem divides_umod {α : Type} {a b : UInt32} (hb : b ≠ 0) {k : UInt32 → Code α}
    {Q : α → Globals → Prop} (h : Divides reply (k (a % b)) Q s) :
    Divides reply ((umod a b).bind k) Q s := by
  rw [umod_bind hb]
  exact h

/-- A global of the geometry read. -/
theorem divides_get {α : Type} {v : Var} (hv : v ≠ .fpyIrqHandleState) {k : UInt8 → Code α}
    {Q : α → Globals → Prop} (h : Divides reply (k (s v)) Q s) :
    Divides reply ((Code.get v).bind k) Q s := by
  refine ⟨Op.noConfusion, ?_⟩
  rintro x _ ⟨rfl, hx⟩
  rw [hx hv]
  exact h

/-- The conversion both functions of the driver share. -/
theorem divides_lbaToChs (lba : UInt32) (hs : s.Known) :
    Divides reply (lbaToChs lba) (fun _ => (· = s)) s := by
  obtain ⟨hh, hn⟩ := hs
  simp only [lbaToChs, Prog.bind_eq]
  refine divides_get (by decide) (divides_get (by decide) ?_)
  refine divides_udiv (mul_toUInt32_ne_zero hh hn) ?_
  refine divides_get (by decide) (divides_udiv (toUInt32_ne_zero hn) ?_)
  refine divides_get (by decide) (divides_umod (toUInt32_ne_zero hh) ?_)
  exact divides_get (by decide) (divides_umod (toUInt32_ne_zero hn) rfl)

/-- The driver's commands divide by nothing and leave the geometry alone. -/
theorem divides_driver {α : Type} {p : Code α} (hp : Driver p) (hs : s.Known) :
    Divides reply p (fun _ => Known) s := by
  refine Only.follows (K := Op.isDriver) hp ?_ ?_ hs
  · rintro s op hop - rfl
    exact hop
  · intro s op x s' hop hs hm
    cases op with
    | set v x =>
      cases v with
      | fpyIrqHandleState => exact hm ▸ hs
      | _ => exact hop.elim
    | get v => exact hm.1 ▸ hs
    | int13 q => exact hop.elim
    | _ => exact hm ▸ hs

theorem divides_readOneSector (sector : UInt8) (hs : s.Known) :
    Divides reply (readOneSector sector) (fun _ => Known) s := by
  apply (divides_lbaToChs _ hs).to
  intro a
  refine divides_get (by decide) ?_
  refine (divides_driver (driver_fpyCmdSeekHead _) hs).bind ?_
  rintro e s₁ hs₁
  cases e with
  | some e => exact hs₁
  | none =>
    refine divides_get (by decide) (divides_get (by decide) ?_)
    exact (divides_driver (driver_fpyCmdReadSector _) hs₁).bind fun _ _ h => h

theorem divides_copySector (dest : Nat) : ∀ (n i : Nat) {s : Globals}, s.Known →
    Divides reply (copySector dest n i) (fun _ => Known) s
  | 0, _, _, hs => hs
  | n + 1, i, s, hs => by
    simp only [copySector, Prog.bind_eq, load_bind, store_bind]
    apply follows_to Op.noConfusion fun _ _ h => h
    intro b
    apply follows_to Op.noConfusion fun _ _ h => h
    intro _
    exact divides_copySector dest n (i + 1) hs

theorem divides_fpyCopyBytesLoop (sector : UInt8) (dest : Nat) (count : Int) :
    ∀ {s : Globals}, s.Known → Divides reply (fpyCopyBytesLoop sector dest count)
      (fun _ => Known) s := by
  induction sector, dest, count using fpyCopyBytesLoop.induct with
  | case1 sector dest count hpos ih =>
    intro s hs
    rw [fpyCopyBytesLoop, if_pos hpos]
    refine (divides_readOneSector sector hs).bind ?_
    rintro e s₁ hs₁
    cases e with
    | some e => exact hs₁
    | none => exact (divides_copySector dest _ 0 hs₁).bind fun _ _ => ih
  | case2 sector dest count hpos =>
    intro s hs
    rw [fpyCopyBytesLoop, if_neg hpos]
    exact hs

theorem divides_fpyCopyBytes (sector : UInt8) (dest : Nat) (count : Int) (hs : s.Known) :
    Divides reply (fpyCopyBytes sector dest count) (fun _ => Known) s := by
  refine (divides_fpyCopyBytesLoop sector dest count hs).bind ?_
  rintro e s₁ hs₁
  apply follows_to Op.noConfusion fun _ _ h => h
  intro _
  exact hs₁

theorem divides_floppyTest (hs : s.Known) : Divides reply floppyTest (fun _ => Known) s := by
  apply (divides_lbaToChs _ hs).to
  intro a
  refine divides_get (by decide) ?_
  refine (divides_driver (driver_fpyCmdReadSector _) hs).bind ?_
  rintro res s₁ hs₁
  cases res.error with
  | some e => exact hs₁
  | none =>
    apply follows_to Op.noConfusion fun _ _ h => h
    intro b
    apply follows_to Op.noConfusion fun _ _ h => h
    intro b
    exact hs₁

/-- `copy_kernel` divides behind its guard. -/
theorem divides_copyKernel (index count : UInt8) (dest : Nat) (hs : s.Known) :
    Divides reply (copyKernel index count dest) (fun _ => Known) s := by
  have loop : ∀ (a : Chs8) (tries : Nat),
      Divides reply (copyKernelLoop a count dest tries) (fun _ => Known) s := by
    intro a tries
    induction tries with
    | zero => exact hs
    | succ tries ih =>
      simp only [copyKernelLoop, Prog.bind_eq, int13_bind]
      refine divides_get (by decide) ⟨Op.noConfusion, ?_⟩
      rintro r _ ⟨rfl, -⟩
      refine divides_get (by decide) ⟨Op.noConfusion, ?_⟩
      rintro r _ ⟨rfl, -⟩
      beta_reduce
      split
      · exact ih
      · exact hs
  obtain ⟨hh, hn⟩ := hs
  refine Follows.bind (R := fun _ => (· = s)) ?_ fun a _ h => h ▸ loop a 3
  refine divides_get (by decide) ?_
  rw [if_pos hh]
  refine divides_get (by decide) (divides_get (by decide) ?_)
  refine divides_udiv (mul_toUInt32_ne_zero hh hn) ?_
  refine divides_get (by decide) (divides_udiv (toUInt32_ne_zero hn) ?_)
  refine divides_get (by decide) (divides_umod (toUInt32_ne_zero hh) ?_)
  exact divides_get (by decide) (divides_umod (toUInt32_ne_zero hn) rfl)

/-! ## What `disk_props` leaves -/

/-- A reply whose geometry the three functions can divide by: no error, a sector
number, and a head number that has a successor. -/
def Usable (reply : Regs16) : Prop :=
  HIGH reply.ax = 0 ∧ LOW reply.cx &&& 0x3F ≠ 0 ∧ HIGH reply.dx ≠ 0xFF

instance (reply : Regs16) : Decidable (Usable reply) := inferInstanceAs (Decidable (_ ∧ _))

/-- The geometry before stage 2: all zero. -/
def Zeroed (s : Globals) : Prop :=
  s .driveTypes = 0 ∧ s .maxSectorNumber = 0 ∧ s .maxHeadNumber = 0 ∧ s .numberOfDrives = 0

/-- The heads `disk_props` stores for a head field wrap only at 255. -/
theorem heads_eq_zero_iff {h : UInt8} : h + 1 = 0 ↔ h = 0xFF := by
  constructor
  · intro h0
    have hsum := congrArg UInt8.toNat h0
    have hlt := h.toNat_lt
    rw [UInt8.toNat_add] at hsum
    apply UInt8.toNat_inj.mp
    simp only [UInt8.reduceToNat] at hsum ⊢
    omega
  · rintro rfl
    rfl

/-- After `disk_props` the geometry is known exactly when the reply is usable,
and otherwise one of the two divisors is zero. -/
theorem divides_diskProps (hs : s.Zeroed) :
    Divides reply diskProps (fun _ s' => s'.Known ↔ Usable reply) s := by
  simp only [diskProps, Prog.bind_eq, int13_bind]
  refine divides_get (by decide) ⟨Op.noConfusion, ?_⟩
  rintro r _ ⟨rfl, hr⟩
  obtain rfl := hr rfl
  beta_reduce
  split
  · rename_i herr
    exact ⟨fun h => absurd hs.2.2.1 h.1, fun h => absurd h.1 herr⟩
  · rename_i hok
    simp only [set_bind, setCylinder_bind, getCylinder_bind, follows_vis]
    refine ⟨Op.noConfusion, ?_⟩
    rintro - _ rfl
    refine ⟨Op.noConfusion, ?_⟩
    rintro - _ rfl
    refine ⟨Op.noConfusion, ?_⟩
    rintro cyl _ rfl
    refine ⟨Op.noConfusion, ?_⟩
    rintro - _ rfl
    refine ⟨Op.noConfusion, ?_⟩
    rintro - _ rfl
    refine ⟨Op.noConfusion, ?_⟩
    rintro - _ rfl
    apply follows_to Op.noConfusion fun _ _ h => h
    intro _
    simp [Known, Usable, heads_eq_zero_iff, not_not.mp hok, and_comm]

/-- The operations of `disk_props`. -/
def isDiskPropsOp : Op → Prop
  | .get _ | .set _ _ | .int13 _ | .getCylinder | .setCylinder _ => True
  | _ => False

theorem machine_answers (reply : Regs16) (s : Globals) (op : Op) (h : isDiskPropsOp op) :
    ∃ x s', machine reply s op x s' := by
  cases op with
  | get v => exact ⟨s v, s, rfl, fun _ => rfl⟩
  | int13 q => exact ⟨reply, s, rfl, fun _ => rfl⟩
  | getCylinder => exact ⟨0, s, rfl⟩
  | set v x => exact ⟨(), _, rfl⟩
  | setCylinder x => exact ⟨(), s, rfl⟩
  | _ => cases h

theorem straight_diskProps : Straight isDiskPropsOp diskProps := by
  simp only [diskProps, Prog.bind_eq, get_bind, int13_bind]
  refine ⟨trivial, fun drive => ⟨trivial, fun r => ?_⟩⟩
  beta_reduce
  split
  · trivial
  · exact ⟨trivial, fun _ => ⟨trivial, fun _ => ⟨trivial, fun _ => ⟨trivial, fun _ =>
      ⟨trivial, fun _ => ⟨trivial, fun _ => ⟨trivial, fun _ => trivial⟩⟩⟩⟩⟩⟩⟩

/-! ## With a divisor missing -/

/-- There is no guard: without the geometry an address is not found without a division by
zero. -/
theorem lbaToChs_faults (reply : Regs16) (hs : ¬ s.Known) (lba : UInt32) {α : Type}
    (f : Chs → Code α) :
    ∃ k, Reach (machine reply) ((lbaToChs lba).bind f, s) (.vis (S := ops) .divideError k, s) := by
  have hzero : (s .maxHeadNumber).toUInt32 * (s .maxSectorNumber).toUInt32 = 0 := by
    rcases Decidable.not_and_iff_or_not.mp hs with h | h
    · simp [not_not.mp h]
    · simp [not_not.mp h]
  obtain ⟨c, run, k, rfl⟩ : ∃ c, Reach (machine reply) ((lbaToChs lba).bind f, s) c ∧
      ∃ k, c = (.vis (S := ops) .divideError k, s) := by
    refine ⟨_, .head (.vis ⟨rfl, fun _ => rfl⟩) (.head (.vis ⟨rfl, fun _ => rfl⟩) .refl), ?_⟩
    simp only [Prog.pure_bind, Prog.bind_eq, hzero, udiv_zero_bind, Prog.vis_bind]
    exact ⟨_, rfl⟩
  exact ⟨k, run⟩

/-- So does a copy of anything. -/
theorem fpyCopyBytes_faults (reply : Regs16) (hs : ¬ s.Known) {count : Int} (some : 0 < count)
    (sector : UInt8) (dest : Nat) {α : Type} (f : ErrT → Code α) :
    ∃ k, Reach (machine reply) ((fpyCopyBytes sector dest count).bind f, s)
      (.vis (S := ops) .divideError k, s) := by
  rw [fpyCopyBytes, fpyCopyBytesLoop, if_pos some]
  simp only [readOneSector, Prog.bind_eq, Prog.bind_assoc]
  exact lbaToChs_faults reply hs _ _

/-! ## The law -/

/-- The functions that divide by the geometry. -/
inductive GeometryCall where
  | copyKernel (index count : UInt8) (dest : Nat)
  | floppyTest
  | fpyCopyBytes (sector : UInt8) (dest : Nat) (count : Int)

def GeometryCall.code : GeometryCall → Code Unit
  | .copyKernel index count dest => ToyBootloader.copyKernel index count dest
  | .floppyTest => ToyBootloader.floppyTest
  | .fpyCopyBytes sector dest count => do
    let _ ← ToyBootloader.fpyCopyBytes sector dest count
    return ()

/-- Calls one after another. -/
def runCalls : List GeometryCall → Code Unit
  | [] => return ()
  | call :: calls => do
    call.code
    runCalls calls

/-- `disk_props` and any calls after it. -/
def session (calls : List GeometryCall) : Code Unit := do
  diskProps
  runCalls calls

theorem divides_call (call : GeometryCall) (hs : s.Known) :
    Divides reply call.code (fun _ => Known) s := by
  cases call with
  | copyKernel index count dest => exact divides_copyKernel index count dest hs
  | floppyTest => exact divides_floppyTest hs
  | fpyCopyBytes sector dest count =>
    exact (divides_fpyCopyBytes sector dest count hs).bind fun _ _ h => h

theorem divides_runCalls : ∀ (calls : List GeometryCall) {s : Globals}, s.Known →
    Divides reply (runCalls calls) (fun _ => Known) s
  | [], _, hs => hs
  | call :: calls, _, hs => (divides_call call hs).bind fun _ _ => divides_runCalls calls

/-- No run of `disk_props` and calls after it, from zeroed geometry, comes to a
division by zero. -/
def NeverDividesByZero (reply : Regs16) : Prop :=
  ∀ (calls : List GeometryCall) (s s' : Globals) (k : Empty → Code Unit), s.Zeroed →
    ¬ Reach (machine reply) (session calls, s) (.vis (S := ops) .divideError k, s')

/-- With an unusable reply a copy of one byte faults. -/
theorem faults_of_not_usable (h : ¬ Usable reply) (hs : s.Zeroed) (sector : UInt8) (dest : Nat) :
    ∃ s' k, Reach (machine reply) (session [.fpyCopyBytes sector dest 1], s)
      (.vis (S := ops) .divideError k, s') := by
  obtain ⟨_, s₁, run⟩ := straight_diskProps.exists_exec (machine_answers reply) s
  have hunknown : ¬ s₁.Known := fun hk => h (((divides_diskProps hs).exec run).mp hk)
  have one : (0 : Int) < 1 := by decide
  obtain ⟨k, hfault⟩ := fpyCopyBytes_faults reply hunknown one sector dest fun _ => runCalls []
  have reach := run.reach_bind fun _ => runCalls [.fpyCopyBytes sector dest 1]
  have split : runCalls [.fpyCopyBytes sector dest 1] =
      (fpyCopyBytes sector dest 1).bind fun _ => runCalls [] := by
    simp only [runCalls, GeometryCall.code, Prog.bind_eq, Prog.pure_eq, Prog.bind_assoc,
      Prog.pure_bind]
  rw [← split] at hfault
  exact ⟨s₁, k, reach.trans hfault⟩

/-- THE LAW of the divisors: a reply is divided by safely exactly when it is
usable. -/
theorem neverDividesByZero_iff_usable (reply : Regs16) :
    NeverDividesByZero reply ↔ Usable reply := by
  constructor
  · intro hsafe
    by_contra hunusable
    have hzero : Zeroed fun _ => 0 := ⟨rfl, rfl, rfl, rfl⟩
    obtain ⟨s', k, hfault⟩ := faults_of_not_usable hunusable hzero 0 0x7000
    exact hsafe [.fpyCopyBytes 0 0x7000 1] _ s' k hzero hfault
  · intro husable calls s s' k hs hreach
    have walk : Divides reply (session calls) (fun _ => Known) s :=
      (divides_diskProps hs).bind fun _ _ hk => divides_runCalls calls (hk.mpr husable)
    exact (walk.reach hreach).ok_vis rfl

/-- A drive that is not ready: `AH` is `0x80` and the geometry stays zero. -/
def notReady : Regs16 := ⟨0x8000, 0, 0, 0⟩

/-- The first copy after it divides by zero. -/
theorem notReady_divides_by_zero : ¬ ∀ reply : Regs16, NeverDividesByZero reply := by
  intro h
  have hzero : Zeroed fun _ => 0 := ⟨rfl, rfl, rfl, rfl⟩
  have hunusable : ¬ Usable notReady := by decide
  obtain ⟨s', k, hfault⟩ := faults_of_not_usable hunusable hzero 0 0x7000
  exact h notReady [.fpyCopyBytes 0 0x7000 1] _ s' k hzero hfault

end Globals

end ToyBootloader
