import ToyBootloader.Laws.FirstLoads

/-!
# The first interrupt

The second half of the two runs. `fpy_irq_handle_state` is not assigned before
`floppy_init` waits for its first interrupt, so the handler then finds what RAM
held at power-on, and nothing else: no store and no sector on the way reaches a
global.

That the handler comes to look at all needs a run that gets there, and the disk
that fails every request is enough: nothing on the way returns early.
-/

namespace ToyBootloader

open Resumption Placement Memory Code

namespace Ram

variable {L : Sizes} {env : Env} {m : Mem} {stub : UInt8 → UInt32} {dl : UInt8} {s t : Ram}

/-! ## What reaches no global -/

/-- Operations that leave every global alone. -/
def isQuiet (L : Sizes) : Op → Prop
  | .set _ _ | .divideError => False
  | .store a _ => L.contentStart ≤ a
  | .int13 q => q.isRead = false
  | _ => True

theorem mem_quiet {op : Op} {x : ops.Ans op} {s' : Ram} (hop : isQuiet L op)
    (h : machine L env s op x s') (v : Var) : s'.mem (L.addr v) = s.mem (L.addr v) := by
  cases op with
  | set v x | divideError => cases hop
  | store a x =>
    cases h
    exact Mem.set_ne _ _ (Nat.ne_of_lt (Nat.lt_of_lt_of_le (L.addr_lt_contentStart v) hop))
  | int13 q =>
    cases h
    show (if q.isRead && _ then s.loaded L env q else s.mem) (L.addr v) = _
    rw [show q.isRead = false from hop]
    rfl
  | _ =>
    cases h
    rfl

theorem quiet_of_setup {op : Op} (h : op.isSetup L.contentStart) : isQuiet L op := by
  cases op with
  | set v x | int13 q | divideError => cases h
  | store a x => exact h
  | _ => trivial

theorem quiet_of_floppyInit {op : Op} (h : op.isFloppyInit) : isQuiet L op := by
  cases op with
  | set v x | int13 q | store a x | divideError => exact (h.elim id id).elim
  | _ => trivial

theorem contentStart_le_bssStart : L.contentStart ≤ L.stage3BssStart :=
  Nat.le_trans (Nat.le_add_right _ _) (le_alignUp L.stage3Bss.aligned)

/-! ## The flag -/

/-- The flag holds what RAM held. -/
def FlagKept (L : Sizes) (m : Mem) (s : Ram) : Prop :=
  s.mem (L.addr .fpyIrqHandleState) = m (L.addr .fpyIrqHandleState)

/-- Operations that leave the flag alone. -/
def sparesFlag (L : Sizes) : Op → Prop
  | .set v _ => v ≠ .fpyIrqHandleState
  | op => isQuiet L op

theorem sparesFlag_of_quiet {op : Op} (h : isQuiet L op) : sparesFlag L op := by
  cases op with
  | set v x => cases h
  | _ => exact h

theorem mem_set (v : Var) (x : UInt8) {w : Var} (h : v ≠ w) :
    s.mem.set (L.addr v) x (L.addr w) = s.mem (L.addr w) :=
  Mem.set_ne _ _ fun heq => h (L.addr_inj heq).symm

theorem flagKept_next {op : Op} {x : ops.Ans op} {s' : Ram} (hop : sparesFlag L op)
    (hs : FlagKept L m s) (h : machine L env s op x s') : FlagKept L m s' := by
  cases op with
  | set v x =>
    cases h
    exact (mem_set v x hop).trans hs
  | _ =>
    refine (mem_quiet ?_ h .fpyIrqHandleState).trans hs
    exact hop

/-- A walk that keeps the flag. -/
abbrev Keeps {α : Type} (L : Sizes) (env : Env) (m : Mem) (p : Code α) (s : Ram) : Prop :=
  Follows (machine L env) (fun s _ => FlagKept L m s) p (fun _ => FlagKept L m) s

theorem keeps_of_only {α : Type} {p : Code α} (h : Only (sparesFlag L) p) (hs : FlagKept L m s) :
    Keeps L env m p s :=
  h.follows (fun _ _ _ hs => hs) (fun _ _ _ _ hop hs hm => flagKept_next hop hs hm) hs

/-- A load by `copy_kernel` keeps it: its sectors do not reach a global. -/
theorem keeps_copyKernelPart {p : Part} (hp : p.byBios = true) (hs : FlagKept L m s) :
    Keeps L env m (copyKernelPart L p) s := by
  refine ⟨hs, ?_⟩
  rintro - _ ⟨⟩
  refine Follows.mono (Only.follows (I := fun s => FlagKept L m s ∧ s.loading = some p)
    (bios_copyKernel _ _ _) (fun _ _ _ h => h.1) ?_ ⟨hs, rfl⟩) fun _ _ h => h.1
  rintro s op x s' hop ⟨hs, hl⟩ hm
  cases op with
  | int13 q =>
    have hcount : q.isRead = true → q.count ≤ L.loadCount p := by
      intro hread
      rw [hop hread, UInt8.toNat_ofNat']
      exact Nat.mod_le _ _
    refine ⟨(mem_int13 hp hl hcount hm .fpyIrqHandleState).trans hs, ?_⟩
    cases hm
    exact hl
  | get v =>
    cases hm
    exact ⟨hs, hl⟩
  | divideError => cases hm
  | _ => cases hop

theorem spares_diskProps : Only (sparesFlag L) diskProps := by
  simp only [diskProps, Prog.bind_eq, get_bind, int13_bind, only_vis]
  refine ⟨trivial, fun drive => ⟨?_, fun r => ?_⟩⟩
  · exact decide_eq_false (show ¬ (0x0800 : UInt16) &&& 0xFF00 = 0x0200 by decide)
  · split
    · trivial
    · exact ⟨Var.noConfusion, fun _ => ⟨trivial, fun _ => ⟨trivial, fun _ => ⟨trivial, fun _ =>
        ⟨Var.noConfusion, fun _ => ⟨Var.noConfusion, fun _ => ⟨Var.noConfusion, fun _ => trivial⟩⟩⟩⟩⟩⟩⟩

/-- From power-on to `floppy_init`'s end, the flag is not assigned. -/
theorem keeps_untilFloppyInit (hs : Fresh m s) :
    Keeps L env m (untilFloppyInit L stub dl) s := by
  have start : FlagKept L m s := by
    obtain ⟨rfl, -⟩ := hs
    rfl
  have setup : ∀ op, op.isSetup L.contentStart → sparesFlag L op := fun _ h =>
    sparesFlag_of_quiet (quiet_of_setup h)
  have enter : ∀ st, Only (sparesFlag L) (mark (.enter st)) := fun _ => ⟨trivial, fun _ => trivial⟩
  have drive : Only (sparesFlag L) (Code.set .driveNumber dl) :=
    ⟨Var.noConfusion, fun _ => trivial⟩
  have first : Keeps L env m (beforeStage2 L dl) s := by
    refine (keeps_of_only drive start).bind fun _ s hs => ?_
    exact (keeps_copyKernelPart rfl hs).bind fun _ s hs => keeps_copyKernelPart rfl hs
  refine first.bind fun _ s hs => (keeps_of_only (enter _) hs).bind fun _ s hs => ?_
  refine (keeps_of_only (only_stage2Load setup spares_diskProps) hs).bind fun _ s hs => ?_
  refine (keeps_copyKernelPart rfl hs).bind fun _ s hs => ?_
  refine (keeps_of_only (enter _) hs).bind fun _ s hs => ?_
  have hsetup := (setup_stage3Setup stub (contentStart_le_bssStart (L := L))).only.mono setup
  refine (keeps_of_only hsetup hs).bind fun _ s hs => ?_
  have floppy : Only (sparesFlag L) floppyInit :=
    only_floppyInit.mono fun _ h => sparesFlag_of_quiet (quiet_of_floppyInit h)
  exact keeps_of_only floppy hs

theorem flagKept_of_interrupted (hs : Fresh m s) (h : Interrupted L stub dl env s t) :
    FlagKept L m t := by
  obtain ⟨⟨p, run⟩, -⟩ := h
  exact Follows.here (J := FlagKept L m) (fun _ _ h => h) (fun _ _ h => h)
    ((keeps_untilFloppyInit hs).reach run)

/-- The branch is the flag's. -/
theorem senses_iff : Senses L env t ↔ t.mem (L.addr .fpyIrqHandleState) = 0 := by
  have hget : machine L env t (.get .fpyIrqHandleState) (t.mem (L.addr .fpyIrqHandleState)) t := rfl
  constructor
  · rintro ⟨cmd, k, t', run⟩
    by_contra hflag
    have walk : Follows (machine L env) (fun _ op => ∀ cmd, op ≠ .mark (.send cmd))
        fpyInterruptHandler (fun _ _ => True) t := by
      simp only [fpyInterruptHandler, Prog.bind_eq, get_bind, follows_vis]
      refine ⟨fun _ => Op.noConfusion, ?_⟩
      rintro _ _ ⟨⟩
      rw [if_pos hflag]
      exact ⟨fun _ => Op.noConfusion, fun _ _ _ => ⟨fun _ => Op.noConfusion, fun _ _ _ =>
        ⟨fun _ => Op.noConfusion, fun _ _ _ => trivial⟩⟩⟩
    exact (walk.reach run).ok_vis cmd rfl
  · intro hflag
    have sense : ∀ f : FpyCmdCheckInterruptRes → Code Unit, ∃ cmd k t',
        Reach (machine L env) (fpyCmdCheckInterrupt.bind f, t)
          (.vis (S := ops) (.mark (.send cmd)) k, t') := fun _ => ⟨_, _, t, .refl⟩
    have read : ∀ g : UInt8 → Code Unit,
        (∃ cmd k t', Reach (machine L env) (g (t.mem (L.addr .fpyIrqHandleState)), t)
          (.vis (S := ops) (.mark (.send cmd)) k, t')) →
        ∃ cmd k t', Reach (machine L env) (.vis (S := ops) (.get .fpyIrqHandleState) g, t)
          (.vis (S := ops) (.mark (.send cmd)) k, t') := by
      rintro g ⟨cmd, k, t', run⟩
      exact ⟨cmd, k, t', .head (.vis hget) run⟩
    simp only [Senses, fpyInterruptHandler, Prog.bind_eq, get_bind]
    refine read _ ?_
    rw [if_neg (not_not.mpr hflag)]
    exact sense _

/-! ## A boot that gets there -/

/-- What the dead environment answers. -/
def deadAnswers : (op : Op) → ops.Ans op → Prop
  | .inb port, x => x = if port = FPY_MSR then 0x80 else 0x90
  | .int13 _, r => r = ⟨0x8000, 0, 0, 0⟩
  | .int15 _, r => r = ⟨1, 0, 0, 0, false⟩
  | _, _ => True

/-- With these answers `p` waits for nothing and ends in `Q`. -/
abbrev Arrives {α : Type} (L : Sizes) (p : Code α) (Q : α → Prop) : Prop :=
  Ends (isQuiet L) deadAnswers p Q

/-- The globals stay as they are meanwhile. -/
theorem Arrives.exists_exec {α : Type} {p : Code α} {Q : α → Prop} (hp : Arrives L p Q)
    (hs : Holds L m dl s) :
    ∃ a s', Exec (machine L dead) p s a s' ∧ Q a ∧ Holds L m dl s' := by
  refine Ends.exists_exec (fun s op hs hop => ?_) hp hs
  have answered : ∃ x s', machine L dead s op x s' ∧ deadAnswers op x := by
    cases op with
    | set v x | divideError => cases hop
    | inb port | int13 q | int15 q => exact ⟨_, _, rfl, rfl⟩
    | _ => exact ⟨_, _, rfl, trivial⟩
  obtain ⟨x, s', hm, hx⟩ := answered
  refine ⟨x, s', hm, hx, (mem_quiet hop hm .driveNumber).trans hs.1, fun v hv => ?_⟩
  exact (mem_quiet hop hm v).trans (hs.2 v hv)

theorem arrives_setup {α : Type} {p : Code α} (hp : Setup L.contentStart p) :
    Arrives L p fun _ => True :=
  hp.ends fun _ => quiet_of_setup

/-- The BIOS has already enabled the A20 line, and has no geometry to report. -/
theorem arrives_stage2Load : Arrives L stage2Load fun _ => True := by
  have a20 : Arrives L a20 fun _ => True := by
    refine Ends.bind (p := a20Int15) (R := fun x => x ≠ 0) ?_ fun x hx => ?_
    · refine ⟨trivial, fun _ _ => ⟨trivial, ?_⟩⟩
      rintro r rfl
      exact (by decide : (1 : UInt32).toUInt16 ≠ 0)
    · rw [if_pos hx]
      trivial
  have props : Arrives L diskProps fun _ => True := by
    refine ⟨trivial, fun drive _ => ⟨?_, ?_⟩⟩
    · exact decide_eq_false (show ¬ (0x0800 : UInt16) &&& 0xFF00 = 0x0200 by decide)
    · rintro r rfl
      trivial
  refine (arrives_setup setup_setMemorySize).bind fun _ _ => ?_
  refine (arrives_setup setup_cpuid0x80000000).bind fun _ _ => ?_
  refine (arrives_setup setup_cpuid0x80000001).bind fun _ _ => ?_
  refine (arrives_setup setup_cpuid1).bind fun _ _ => a20.bind fun _ _ => ?_
  exact (arrives_setup setup_gdtSetup).bind fun _ _ => props

theorem arrives_fpySendCommandByte (b : UInt8) :
    Arrives L (fpySendCommandByte b) (· = noErr) := by
  refine ⟨trivial, ?_⟩
  rintro x rfl
  exact ⟨trivial, fun _ _ => rfl⟩

theorem arrives_fpyReadData : Arrives L fpyReadData (· = 0x90) := by
  refine ⟨trivial, ?_⟩
  rintro x rfl
  exact ⟨trivial, fun _ h => h⟩

/-- The controller takes every byte at once. -/
theorem arrives_fpySendCommandLoop (wait : Bool) : ∀ bs : List UInt8,
    Arrives L (fpySendCommandLoop 0x80 wait bs) (· = noErr)
  | [] => by
    cases wait with
    | true =>
      refine ⟨trivial, ?_⟩
      rintro x rfl
      exact ⟨rfl, rfl⟩
    | false => rfl
  | b :: bs => by
    refine ⟨trivial, ?_⟩
    rintro x rfl
    refine ⟨rfl, (arrives_fpySendCommandByte b).bind ?_⟩
    rintro _ rfl
    exact arrives_fpySendCommandLoop wait bs

theorem arrives_fpySendCommand (cmd : List UInt8) (wait : Bool) :
    Arrives L (fpySendCommand cmd wait) (· = noErr) := by
  have body : Arrives L (fpySendCommandBody cmd wait) (· = noErr) := by
    refine ⟨trivial, ?_⟩
    rintro x rfl
    exact arrives_fpySendCommandLoop wait cmd
  refine ⟨trivial, fun _ _ => body.bind ?_⟩
  rintro _ rfl
  exact ⟨trivial, fun _ _ => rfl⟩

theorem arrives_fpyCmdCheckVersion : Arrives L fpyCmdCheckVersion (· = noErr) := by
  refine (arrives_fpySendCommandByte _).bind ?_
  rintro _ rfl
  refine arrives_fpyReadData.bind ?_
  rintro _ rfl
  rfl

/-- A command that returned no error was sent whole. -/
theorem sending_fpySendCommand {cmd : List UInt8} {wait : Bool}
    (run : Exec (machine L env) (fpySendCommand cmd wait) s noErr t) : t.sending = ⟨cmd, []⟩ := by
  have walk : Follows (machine L env) (fun _ _ => True) (fpySendCommand cmd wait)
      (fun e s => ∃ b, s.sending = b ∧ (e = noErr → b = ⟨cmd, []⟩)) s := by
    refine Only.simulate (R := fun (s : Ram) b => s.sending = b) ?_ (fun _ _ _ => trivial)
      (command_fpySendCommand cmd wait) rfl (Sending.sends_fpySendCommand cmd wait s.sending)
    rintro s _ op x s' rfl hop hm
    refine ⟨_, rfl, ?_⟩
    cases op with
    | inb port | outb port b | mark e =>
      cases hm
      rfl
    | _ => cases hop
  obtain ⟨b, hb, hwhole⟩ := walk.exec run
  rw [hb, hwhole rfl]

theorem visits_orReturn {p : Code ErrT} {k : Code Unit} {s₁ : Ram}
    (h : Exec (machine L env) p s noErr s₁) (hk : Visits (machine L env) k s₁ t) :
    Visits (machine L env) (orReturn p k) s t :=
  h.visits_bind hk

/-- Of `floppy_init`, up to the first CALIBRATE. -/
theorem exists_calibrating (hs : Holds L m dl s) :
    ∃ t, Visits (machine L dead) floppyInit s t ∧ t.Calibrating := by
  have setup : Arrives L fpySetupIdt fun _ => True :=
    ⟨trivial, fun _ _ => ⟨trivial, fun _ _ => trivial⟩⟩
  have dsr : Arrives L (fpyWriteDsr 3) fun _ => True := ⟨trivial, fun _ _ => trivial⟩
  have drive : Arrives L (Code.get .driveNumber) fun _ => True := ⟨trivial, fun _ _ => trivial⟩
  obtain ⟨_, s₁, run₁, -, hs⟩ := setup.exists_exec hs
  obtain ⟨_, s₂, run₂, rfl, hs⟩ := arrives_fpyCmdCheckVersion.exists_exec hs
  obtain ⟨_, s₃, run₃, -, hs⟩ := dsr.exists_exec hs
  obtain ⟨_, s₄, run₄, -, hs⟩ := (arrives_setup setup_fpyMotorEnable).exists_exec hs
  obtain ⟨_, s₅, run₅, rfl, hs⟩ := (arrives_fpySendCommand _ true).exists_exec hs
  obtain ⟨_, s₆, run₆, rfl, hs⟩ := (arrives_fpySendCommand _ true).exists_exec hs
  obtain ⟨drive, s₇, run₇, -, hs⟩ := drive.exists_exec hs
  obtain ⟨_, t, run, rfl, -⟩ := (arrives_fpySendCommand _ false).exists_exec hs
  refine ⟨t, run₁.visits_bind (visits_orReturn run₂ (run₃.visits_bind (run₄.visits_bind
    (visits_orReturn run₅ (visits_orReturn run₆ (run₇.visits_bind
      (visits_orReturn run ⟨_, .refl⟩))))))), ?_⟩
  rw [Calibrating, sending_fpySendCommand run]
  exact ⟨(by decide : FpyCmd.calibrate.val &&& 0x1f = FpyCmd.calibrate.val), rfl⟩

variable (stub dl) in
/-- With a geometry to divide by, the boot comes to its first interrupt. -/
theorem exists_interrupted (hm : Divides L m) (hs : Fresh m s) :
    ∃ t, Interrupted L stub dl dead s t := by
  have enter : ∀ st, Arrives L (mark (.enter st)) fun _ => True := fun _ =>
    ⟨trivial, fun _ _ => trivial⟩
  obtain ⟨s₁, run₁, hs, -⟩ := exec_beforeStage2 dead dl hm hs
  obtain ⟨_, s₂, run₂, -, hs⟩ := (enter .stage2).exists_exec hs
  obtain ⟨_, s₃, run₃, -, hs⟩ := arrives_stage2Load.exists_exec hs
  obtain ⟨s₄, run₄, hs, -⟩ := exec_copyKernelPart dead (p := .stage3) rfl hm hs
  obtain ⟨_, s₅, run₅, -, hs⟩ := (enter .stage3).exists_exec hs
  obtain ⟨_, s₆, run₆, -, hs⟩ :=
    (arrives_setup (setup_stage3Setup stub contentStart_le_bssStart)).exists_exec hs
  obtain ⟨t, visit, hcalibrating⟩ := exists_calibrating hs
  exact ⟨t, run₁.visits_bind (run₂.visits_bind (run₃.visits_bind (run₄.visits_bind
    (run₅.visits_bind (run₆.visits_bind visit))))), hcalibrating⟩

/-- Without one it never does. -/
theorem not_interrupted (hm : ¬ Divides L m) (hs : Fresh m s) :
    ¬ Interrupted L stub dl env s t := by
  rintro ⟨⟨p, run⟩, hcmd, -⟩
  obtain ⟨hheads, hsectors⟩ := not_or.mp hm
  have hset := holds_set L dl hs
  obtain ⟨-, -, -, hsend⟩ := hs
  have idle : Follows (machine L env) (fun s _ => s.sending = {}) (untilFloppyInit L stub dl)
      (fun _ s => s.sending = {}) s := by
    refine Follows.bind (p := beforeStage2 L dl) (R := fun _ _ => False) ?_ fun _ _ => False.elim
    refine ⟨hsend, ?_⟩
    rintro - _ ⟨⟩
    refine Follows.bind (p := copyKernelPart L .shared) (R := fun _ _ => False) ?_
      fun _ _ => False.elim
    refine ⟨hsend, ?_⟩
    rintro - _ ⟨⟩
    refine Follows.bind (p := copyKernelChs _) (R := fun _ _ => False) ?_ fun _ _ => False.elim
    exact follows_divideError (fun _ => hsend) _ ((hset.2 .maxHeadNumber nofun).trans_ne hheads)
      ((hset.2 .maxSectorNumber nofun).trans (not_not.mp hsectors))
  have hidle : t.sending = {} := Follows.here (J := fun s : Ram => s.sending = {})
    (fun _ _ h => h) (fun _ _ h => h) (idle.reach run)
  rw [hidle] at hcmd
  cases hcmd

/-! ## The law -/

/-- THE LAW of power-on. Two memories boot the same way, in every environment,
exactly when the three bytes nothing has assigned agree as far as the boot
looks. -/
theorem sameBoot_iff_alike (L : Sizes) (stub : UInt8 → UInt32) (dl : UInt8) (m₁ m₂ : Mem) :
    SameBoot L stub dl m₁ m₂ ↔ Alike L m₁ m₂ := by
  constructor
  · rintro ⟨requests, branch⟩
    obtain ⟨hshared, hstage2⟩ := (requests_iff L dl m₁ m₂).mp requests
    refine ⟨hshared, hstage2, fun hne => ?_⟩
    have hs₁ := fresh_powerOn m₁
    have hs₂ := fresh_powerOn m₂
    obtain ⟨t₁, ht₁⟩ := exists_interrupted stub dl ((divides_iff .shared).mpr hne) hs₁
    obtain ⟨t₂, ht₂⟩ :=
      exists_interrupted stub dl ((divides_iff .shared).mpr (hshared ▸ hne)) hs₂
    have h := branch dead _ _ t₁ t₂ hs₁ hs₂ ht₁ ht₂
    rwa [senses_iff, senses_iff, flagKept_of_interrupted hs₁ ht₁,
      flagKept_of_interrupted hs₂ ht₂] at h
  · rintro ⟨hshared, hstage2, hflag⟩
    refine ⟨(requests_iff L dl m₁ m₂).mpr ⟨hshared, hstage2⟩, ?_⟩
    intro env s₁ s₂ t₁ t₂ hs₁ hs₂ ht₁ ht₂
    have hdivides : Divides L m₁ := by
      by_contra hm
      exact not_interrupted hm hs₁ ht₁
    rw [senses_iff, senses_iff, flagKept_of_interrupted hs₁ ht₁, flagKept_of_interrupted hs₂ ht₂]
    exact hflag ((divides_iff .shared).mp hdivides)

/-- Zeros, and ones above the boot sector: with one head and one sector a track
the shared part is read from cylinder 1. -/
def onesAbove : Mem := fun a => if a < 0x7E00 then 0 else 1

/-- The boot sector alone does not decide what is read. -/
theorem power_on_memory_matters : ¬ ∀ (L : Sizes) (stub : UInt8 → UInt32) (dl : UInt8)
    (m₁ m₂ : Mem), (∀ a, 0x7C00 ≤ a → a < 0x7E00 → m₁ a = m₂ a) → SameBoot L stub dl m₁ m₂ := by
  intro h
  have hagree : ∀ a, 0x7C00 ≤ a → a < 0x7E00 → (fun _ => 0 : Mem) a = onesAbove a :=
    fun a _ ha => (if_pos ha).symm
  have hsame := (h Sizes.oneByte (fun _ => 0) 0 _ _ hagree).requests
  exact absurd ((requests_iff _ _ _ _).mp hsame).1 (by decide)

end Ram

end ToyBootloader
