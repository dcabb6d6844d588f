import ToyBootloader.Arrivals
import ToyBootloader.Laws.Descriptors
import ToyBootloader.Laws.HandOver

/-!
# Every interrupt that arrives is handled

`init_8259` finds the controllers in any state, even in the middle of an initialization, and
leaves them in one. What it gives their lines are the vectors that `idt` has entries for,
but for line 2 of the master, which has none: the slave is there, and it is its own vectors
that the processor is told. So whenever an interrupt arrives, between any two operations of
stage 3 or of the last loader, it is led to the stub of its vector and a handler is there.
-/

namespace ToyBootloader

open Resumption Code Devices

/-! ## The tasks -/

/-- The operations of the tasks that follow `init_8259`, and of the last loader: ports that are
not the controllers', the driver's globals and memory, and of the handlers those of vectors that
do not arrive, and the floppy's. -/
def Op.isTask : Op → Prop
  | .outb port _ => port ∉ Arrivals.picPorts
  | .setInterrupt n h => n ∉ Arrivals.arriving ∨ n = FLOPPY_IRQ ∧ h = .fpyInterruptHandler
  | .inb _ | .get _ | .set _ _ | .received | .testReceived | .setReceived _ => True
  | .mark (.enter st) => st = .loaderProtected ∨ st = .stage4
  | .load _ | .store _ _ | .divideError | .mark _ => True
  | _ => False

theorem task_of_talks {op : Op} (h : op.isFifoCommand) : op.isTask := by
  cases op with
  | outb port v =>
    obtain rfl : port = FPY_FIFO := h
    show FPY_FIFO ∉ Arrivals.picPorts
    decide
  | assign o bs => exact absurd h id
  | setInterrupt n h' => exact absurd h id
  | sti => exact absurd h id
  | mark e =>
    cases e with
    | send cmd | sent e | checked e => trivial
    | _ => cases h
  | _ => trivial

theorem task_of_wait {op : Op} (h : op.isWait) : op.isTask := by
  cases op with
  | received | testReceived | setReceived r => trivial
  | _ => cases h

theorem task_of_arith {op : Op} (h : op.isArith) : op.isTask := by
  cases op with
  | get v | divideError => trivial
  | _ => cases h

/-- Code of such a task. -/
abbrev IsTask {α : Type} (p : Code α) : Prop := Only Op.isTask p

theorem task_fpySendCommand (cmd : List UInt8) (mrq : Bool) :
    IsTask (fpySendCommand cmd mrq) :=
  (talks_fpySendCommand cmd mrq).mono fun _ => task_of_talks

theorem task_fpyWaitIrq : IsTask fpyWaitIrq :=
  wait_fpyWaitIrq.mono fun _ => task_of_wait

theorem task_fpyCmdReadSector (p : FpyCmdReadSectorParams) :
    IsTask (fpyCmdReadSector p) := by
  refine ⟨trivial, fun _ => (task_fpySendCommand _ true).bind fun e => ?_⟩
  cases e with
  | some e => trivial
  | none =>
    exact task_fpyWaitIrq.bind fun _ =>
      talks_fpyCmdGenRes.mono fun _ => task_of_talks

theorem task_lbaToChs (lba : UInt32) : IsTask (lbaToChs lba) :=
  (arith_lbaToChs lba).mono fun _ => task_of_arith

theorem task_readOneSector (sector : UInt8) : IsTask (readOneSector sector) := by
  refine (task_lbaToChs _).bind fun a => ⟨trivial, fun drive => ?_⟩
  refine (task_fpySendCommand _ true).bind fun e => ?_
  cases e with
  | some e => trivial
  | none =>
    refine ⟨trivial, fun _ => ⟨trivial, fun _ => ?_⟩⟩
    exact (task_fpyCmdReadSector _).bind fun _ => trivial

theorem task_fpyCopyBytesLoop (sector : UInt8) (dest : Nat) (count : Int) :
    IsTask (fpyCopyBytesLoop sector dest count) := by
  induction sector, dest, count using fpyCopyBytesLoop.induct with
  | case1 sector dest count more ih =>
    rw [fpyCopyBytesLoop, if_pos more]
    refine (task_readOneSector sector).bind fun e => ?_
    cases e with
    | some e => trivial
    | none =>
      exact (only_copySector (fun _ => trivial) _ 0 fun _ _ _ _ => trivial).bind fun _ => ih
  | case2 sector dest count done =>
    rw [fpyCopyBytesLoop, if_neg done]
    trivial

theorem task_fpyCopyPart (L : Sizes) (part : Part) : IsTask (fpyCopyPart L part) :=
  ⟨trivial, fun _ => (task_fpyCopyBytesLoop _ _ _).bind fun _ => ⟨trivial, fun _ => trivial⟩⟩

theorem task_clearBytes (start n : Nat) : IsTask (clearBytes start n) :=
  only_clearBytes _ _ fun _ _ _ => trivial

theorem task_floppyTest : IsTask floppyTest := by
  refine (task_lbaToChs 0).bind fun a => ⟨trivial, fun drive => ?_⟩
  refine (task_fpyCmdReadSector _).bind fun res => ?_
  split
  · trivial
  · exact ⟨trivial, fun _ => ⟨trivial, fun _ => trivial⟩⟩

/-- A port that is none of the controllers' four. -/
theorem task_outb {port : UInt16} {v : UInt8} (h : port ∉ Arrivals.picPorts) :
    IsTask (outb port v) :=
  ⟨h, fun _ => trivial⟩

theorem task_floppyDma : IsTask floppyDma := by
  simp only [floppyDma, dmaMaskChannel, dmaResetFlipflop, dmaSetupAddress, dmaSetupCount,
    dmaSetupPage, dmaUnmaskChannel, Prog.bind_eq, Prog.vis_bind, outb_bind, only_vis,
    forall_const, Op.isTask]
  exact ⟨by decide, by decide, by decide, by decide, by decide, by decide, by decide, by decide,
    task_outb (by decide)⟩

theorem task_floppyDmaSetupRead : IsTask floppyDmaSetupRead := by
  simp only [floppyDmaSetupRead, dmaMaskChannel, dmaSetMode, dmaUnmaskChannel, Prog.bind_eq,
    outb_bind, only_vis, forall_const, Op.isTask]
  exact ⟨by decide, by decide, task_outb (by decide)⟩

theorem task_fpySetupIdt : IsTask fpySetupIdt :=
  ⟨trivial, fun _ => ⟨.inr ⟨rfl, rfl⟩, fun _ => trivial⟩⟩

theorem task_fpyCmdCheckVersion : IsTask fpyCmdCheckVersion := by
  have fifo : ∀ op : Op, op.isFifo → op.isTask := fun _ h =>
    task_of_talks h.isFifoCommand
  refine ((fifo_fpySendCommandByteLoop _ 1000).mono fifo).bind fun e => ?_
  cases e with
  | some e => trivial
  | none =>
    refine (talks_fpyReadData.mono fun _ => task_of_talks).bind fun x => ?_
    split <;> trivial

theorem task_fpyMotorEnable : IsTask fpyMotorEnable :=
  ⟨trivial, fun _ => ⟨trivial, fun _ => task_outb (by decide)⟩⟩

theorem task_floppyInit : IsTask floppyInit := by
  refine task_fpySetupIdt.bind fun _ => only_orReturn task_fpyCmdCheckVersion ?_
  refine Only.bind (p := fpyWriteDsr 3) (task_outb (by decide)) fun _ => ?_
  refine task_fpyMotorEnable.bind fun _ => ?_
  refine only_orReturn (task_fpySendCommand _ _) ?_
  refine only_orReturn (task_fpySendCommand _ _) ⟨trivial, fun drive => ?_⟩
  refine only_orReturn (task_fpySendCommand _ _) (only_orReturn task_fpyWaitIrq ?_)
  exact only_orReturn (task_fpySendCommand _ _) (only_orReturn task_fpyWaitIrq trivial)

theorem task_stage3Rest (L : Sizes) : IsTask (stage3Rest L) := by
  refine task_floppyDma.bind fun _ => task_floppyDmaSetupRead.bind fun _ => ?_
  refine task_floppyTest.bind fun _ => task_floppyTest.bind fun _ => ?_
  refine Only.bind (p := copyStage4 L) ((task_fpyCopyPart L _).bind fun _ => trivial)
    fun _ => ⟨.inl rfl, fun _ => task_fpySetupIdt.bind fun _ => ?_⟩
  refine (task_fpyCopyPart L _).bind fun _ => (task_fpyCopyPart L _).bind fun _ => ?_
  exact (task_clearBytes _ _).bind fun _ => ⟨.inr rfl, fun _ => trivial⟩

theorem task_breakpointInstr : IsTask breakpointInstr :=
  ⟨.inl (by decide), fun _ => trivial⟩

/-- `setup_timer`, but for the mask. -/
theorem task_initTimer : IsTask (do setInterrupt TIMER_INT .handleTimerInterrupt; initTimer 10) :=
  ⟨.inl (by decide), fun _ => (task_outb (by decide)).bind fun _ =>
    (task_outb (by decide)).bind fun _ => task_outb (by decide)⟩

/-! ## What is kept -/

/-- What changes nothing that arrives: not a byte for the controllers, no table's entry but such a
handler, and not `sti`. -/
def Op.sparesIrqs : Op → Prop
  | .outb port _ => port ∉ Arrivals.picPorts
  | .setInterrupt n h => n ∉ Arrivals.arriving ∨ n = FLOPPY_IRQ ∧ h = .fpyInterruptHandler
  | .assign _ _ | .sti => False
  | _ => True

theorem Op.isTask.sparesIrqs {op : Op} (h : op.isTask) : op.sparesIrqs := by
  cases op with
  | outb port v | setInterrupt n f => exact h
  | assign o bs | sti => cases h
  | _ => trivial

namespace Arrivals

variable {stub : UInt8 → UInt32} {s s' : Arrivals} {op : Op}

/-- As `init_8259` leaves the controllers: every line has a vector of its own from 0x20 on, and
the first of each is masked. -/
def programmed : Pair where
  master := ⟨.mask, 0x20, 0x04, false, 0x01, fun _ => false⟩
  slave := ⟨.mask, 0x28, 0x02, false, 0x01, fun _ => false⟩

/-- What is called for a vector that arrives: the floppy's can be the driver's. -/
def Serves (v : UInt8) (f : Option Handler) : Prop :=
  f = some .interruptPanic ∨ v = FLOPPY_IRQ ∧ f = some .fpyInterruptHandler

/-- Every vector that arrives has its gate and a handler. -/
def Tabled (stub : UInt8 → UInt32) (t : IdtTables) : Prop :=
  ∀ v ∈ arriving, t.gates v = idtEvent v (stub v) (selectorBytes t.segCs) ∧
    Serves v (t.handlers v)

/-- The controllers are programmed, and nothing is in service; and there are the tables. -/
structure Ready (stub : UInt8 → UInt32) (s : Arrivals) : Prop where
  pics : s.pics = programmed
  tabled : Tabled stub s.tables

/-- Wherever the main program stands. -/
def Inv (stub : UInt8 → UInt32) (s : Arrivals) : Prop := s.enabled = true → Ready stub s

theorem programmed_wired : programmed.Wired cascadeLine where
  lines := by decide
  number := rfl

/-! ## The main program -/

theorem Tabled.setInterrupt {t : IdtTables} (h : Tabled stub t) {n : UInt8} {f : Handler}
    (spares : n ∉ arriving ∨ n = FLOPPY_IRQ ∧ f = .fpyInterruptHandler) :
    Tabled stub { t with handlers := Function.update t.handlers n (some f) } := by
  intro v hv
  obtain ⟨gate, handler⟩ := h v hv
  refine ⟨gate, ?_⟩
  show Serves v (Function.update t.handlers n (some f) v)
  by_cases same : v = n
  · subst same
    obtain absent | ⟨rfl, rfl⟩ := spares
    · exact absurd hv absent
    · exact .inr ⟨rfl, Function.update_self ..⟩
  · rw [Function.update_of_ne same]
    exact handler

/-- What a sparing operation leaves alone. -/
theorem next_spares (h : op.sparesIrqs) : (s.next op).pics = s.pics ∧
    (s.next op).enabled = s.enabled ∧
      ∀ {stub}, Tabled stub s.tables → Tabled stub (s.next op).tables := by
  cases op with
  | outb port v =>
    have off : port ∉ picPorts := h
    simp only [picPorts, List.mem_cons, List.not_mem_nil, or_false, not_or] at off
    simp [next, send, off]
  | setInterrupt n f => exact ⟨rfl, rfl, fun tabled => tabled.setInterrupt h⟩
  | assign o bs | sti => cases h
  | _ => exact ⟨rfl, rfl, id⟩

theorem Inv.next (h : Inv stub s) (spares : op.sparesIrqs) : Inv stub (s.next op) := by
  obtain ⟨pics, enabled, tabled⟩ := next_spares (s := s) spares
  intro on
  rw [enabled] at on
  exact ⟨pics.trans (h on).pics, tabled (h on).tabled⟩

/-- A walk of the main program, or of a part of it. -/
abbrev Walks (stub : UInt8 → UInt32) {α : Type} (p : Code α) (Q : Arrivals → Prop)
    (s : Arrivals) : Prop :=
  Follows machine (fun s _ => Inv stub s) p (fun _ => Q) s

theorem walks_spares {α : Type} {p : Code α} (h : Only Op.sparesIrqs p) (on : Inv stub s) :
    Walks stub p (fun s' => s'.enabled = s.enabled ∧ Inv stub s') s := by
  apply h.follows (I := fun s' => s'.enabled = s.enabled ∧ Inv stub s') ?_ ?_ ⟨rfl, on⟩
  · intro s' op _ inv
    exact inv.2
  · intro s₁ op x s₂ spares inv step
    rw [step.2]
    exact ⟨(next_spares spares).2.1.trans inv.1, inv.2.next spares⟩

theorem walks_task {α : Type} {p : Code α} (h : IsTask p) (on : Inv stub s) :
    Walks stub p (fun s' => s'.enabled = s.enabled ∧ Inv stub s') s :=
  walks_spares (h.mono fun _ => Op.isTask.sparesIrqs) on

theorem inv_of_off (off : s.enabled = false) : Inv stub s := by
  intro on
  rw [off] at on
  cases on

/-- An entry of `idt`, here. -/
theorem next_idtEntry (s : Arrivals) (e : UInt8) :
    (s.next (.assign (.gIdt e) (idtEvent e (stub e) (selectorBytes s.tables.segCs)))).next
        (.setInterrupt e .interruptPanic) =
      { s with tables := s.tables.filled stub [e] } := by
  have alone : Exec IdtTables.machine (idtEntry stub e) s.tables ()
      { s.tables.setGate e (idtEvent e (stub e) (selectorBytes s.tables.segCs)) with
        handlers := Function.update s.tables.handlers e (some .interruptPanic) } :=
    .vis rfl (.vis rfl (.vis rfl .pure))
  obtain ⟨-, same⟩ :=
    alone.deterministic Simulator.machine_deterministic IdtTables.exec_idtEntry
  exact (congrArg (fun tables => { s with tables }) same).symm

/-- `idt` fills the tables before anything arrives. -/
theorem walks_idtEntries (es : List UInt8) (off : s.enabled = false) :
    Walks stub (es.forM (idtEntry stub))
      (fun s' => s' = { s with tables := s.tables.filled stub es }) s := by
  induction es generalizing s with
  | nil => simp [IdtTables.filled]
  | cons e es ih =>
    refine ⟨inv_of_off off, fun selector s₁ fetched => ?_⟩
    obtain rfl : selector = selectorBytes s.tables.segCs := fetched.1
    obtain rfl : s = s₁ := fetched.2.symm
    refine ⟨inv_of_off off, fun _ s₂ assigned => ?_⟩
    rw [assigned.2]
    refine ⟨inv_of_off off, fun _ s₃ installed => ?_⟩
    rw [installed.2, next_idtEntry, ← IdtTables.filled_cons]
    exact ih (s := { s with tables := s.tables.filled stub [e] }) off

theorem tabled_filled (t : IdtTables) : Tabled stub (t.filled stub idtEntries) := by
  intro v hv
  have listed : v ∈ idtEntries := (List.mem_filter.mp hv).1
  exact ⟨if_pos listed, .inl (if_pos listed)⟩

/-- Whatever the controllers were in the middle of, `init_8259` leaves them programmed, and it
lets interrupts in when it is done. -/
theorem walks_init8259 (off : s.enabled = false) :
    Walks stub init8259 (fun s' => s' = { s with pics := programmed, enabled := true }) s := by
  have write : ∀ {k : Unit → Code Unit} {Q : Arrivals → Prop} {port : UInt16} {v : UInt8}
      {s : Arrivals}, s.enabled = false → Walks stub (k ()) Q (s.next (.outb port v)) →
        Walks stub ((outb port v).bind k) Q s := by
    intro k Q port v s off rest
    refine ⟨inv_of_off off, fun _ s' step => ?_⟩
    rw [step.2]
    exact rest
  refine write off (write off (write off (write off (write off (write off ?_)))))
  refine write off (write off (write off (write off ⟨inv_of_off off, fun _ s' step => ?_⟩)))
  rw [step.2]
  have master := Pic.data_command s.pics.master 0x20 0x04 0x01 0x01
  have slave := Pic.data_command s.pics.slave 0x28 0x02 0x01 0x01
  exact congrArg₂ (fun m n => (⟨⟨m, n⟩, s.tables, true⟩ : Arrivals)) master slave

theorem Ready.inv (h : Ready stub s) : Inv stub s := fun _ => h

/-- `irq_unmask(0)` goes to the slave, and writes what it has read there. -/
theorem walks_setupTimer (on : s.enabled = true) (ready : Ready stub s) :
    Walks stub setupTimer (fun s' => s'.enabled = true ∧ Ready stub s') s := by
  apply (walks_task task_initTimer ready.inv).bind
  intro _ s₁ h₁
  have on₁ : s₁.enabled = true := h₁.1.trans on
  have ready₁ : Ready stub s₁ := h₁.2 on₁
  refine ⟨ready₁.inv, fun curr s₂ read => ?_⟩
  obtain rfl : s₁ = s₂ := read.2.symm
  refine ⟨ready₁.inv, fun _ s₃ written => ?_⟩
  have pics : send (irqPort 0).1 (curr &&& ~~~ irqBit (irqPort 0).2) s₁.pics = programmed := by
    rw [read.1.2 rfl, ready₁.pics]
    rfl
  rw [written.2]
  exact ⟨on₁, pics, ready₁.tabled⟩

/-- From `cli` on, whatever is there before. -/
theorem walks_stage3Setup (L : Sizes) (off : s.enabled = false) :
    Walks stub (stage3Setup L stub) (fun s' => s'.enabled = true ∧ Ready stub s') s := by
  have split : stage3Setup L stub = (stage3Reset L).bind fun _ => (idt stub).bind fun _ =>
      init8259.bind fun _ => breakpointInstr.bind fun _ => setupTimer := by
    simp only [stage3Setup, stage3Reset, Prog.bind_eq, Prog.bind_assoc]
  rw [split]
  have reset : Only Op.sparesIrqs (stage3Reset L) := by
    apply (Ledger.untabled_stage3Reset L).mono
    intro op h
    cases op with
    | store a x | readCr n | writeCr n x | fetch o => trivial
    | _ => cases h
  apply (walks_spares reset (inv_of_off off)).bind
  intro _ s₁ h₁
  have off₁ : s₁.enabled = false := h₁.1.trans off
  apply Follows.to (walks_idtEntries idtEntries off₁)
  intro _
  apply Follows.to
    (walks_init8259 (s := { s₁ with tables := s₁.tables.filled stub idtEntries }) off₁)
  intro _
  have ready : Ready stub { s₁ with pics := programmed, enabled := true
                                    tables := s₁.tables.filled stub idtEntries } :=
    ⟨rfl, tabled_filled s₁.tables⟩
  apply (walks_task task_breakpointInstr ready.inv).bind
  intro _ s₂ h₂
  exact walks_setupTimer h₂.1 (h₂.2 h₂.1)

theorem walks_stage3Start (L : Sizes) (off : s.enabled = false) :
    Walks stub (stage3Start L stub) (Inv stub) s := by
  rw [stage3Start_eq]
  apply (walks_stage3Setup L off).bind
  intro _ s₁ h₁
  apply (walks_task (task_floppyInit.bind fun _ => task_stage3Rest L) h₁.2.inv).mono
  exact fun _ _ h => h.2

/-! ## The handlers -/

theorem next_talks (h : op.isFifoCommand) : s.next op = s := by
  cases op with
  | outb port v =>
    obtain rfl : port = FPY_FIFO := h
    rfl
  | assign o bs | setInterrupt n f | sti => cases h
  | _ => rfl

/-- The one handler that returns ends its interrupt, on both branches. -/
theorem follows_fpyInterruptHandler {Q : Arrivals → Prop}
    (h : Q (s.next (.outb 0x20 0x20))) :
    Follows machine (fun _ _ => True) fpyInterruptHandler (fun _ => Q) s := by
  have eoi : Follows machine (fun _ _ => True) (outb 0x20 0x20) (fun _ => Q) s := by
    refine ⟨trivial, fun _ s' step => ?_⟩
    rw [step.2]
    exact h
  simp only [fpyInterruptHandler, Prog.bind_eq, get_bind, follows_vis]
  refine ⟨trivial, fun st s₁ step => ?_⟩
  rw [step.2]
  split
  · refine ⟨trivial, fun _ s₂ step => ?_⟩
    rw [step.2]
    refine ⟨trivial, fun _ s₃ step => ?_⟩
    rw [step.2]
    exact eoi
  · have sense : Follows machine (fun _ _ => True) fpyCmdCheckInterrupt (fun _ s' => s' = s) s :=
      talks_fpyCmdCheckInterrupt.follows (I := fun s' => s' = s) (fun _ _ _ _ => trivial)
        (fun t op x t' hop same step => by rw [step.2, same, next_talks hop]) rfl
    apply Follows.to sense
    intro r
    refine ⟨trivial, fun _ s₂ step => ?_⟩
    rw [step.2]
    exact eoi

/-! ## The vectors -/

/-- The controllers name the vectors of `arriving`, each of them, and no other. -/
theorem acknowledges_programmed {v : UInt8} :
    (∃ pics, programmed.Acknowledges cascadeLine v pics) ↔ v ∈ arriving := by
  constructor
  · rintro ⟨pics, ack⟩
    have master : ∀ n, n ≠ cascadeLine ∧ Pic.bit programmed.master.mask n = false ∨ n = Pic.last →
        programmed.master.vector n ∈ arriving := by decide
    have slave : ∀ n, Pic.bit programmed.slave.mask n = false ∨ n = Pic.last →
        programmed.slave.vector n ∈ arriving := by decide
    obtain ⟨n, line, rfl, -⟩ | ⟨n, line, rfl⟩ := ack.cases_of_wired programmed_wired
    · exact master n line
    · exact slave n line
  · intro hv
    have lines : (arriving.all fun v => decide ((∃ n, Pic.bit programmed.master.mask n = false ∧
          Pic.bit programmed.master.cascade n = false ∧ programmed.master.vector n = v) ∨
        ∃ n, Pic.bit programmed.slave.mask n = false ∧ programmed.slave.vector n = v)) = true := by
      decide
    have line := of_decide_eq_true (List.all_eq_true.mp lines v hv)
    obtain ⟨n, unmasked, own, rfl⟩ | ⟨n, unmasked, rfl⟩ := line
    · exact ⟨_, .master n ⟨rfl, unmasked, fun _ _ => rfl⟩ own⟩
    · exact ⟨_, .slave n ⟨rfl, rfl, fun _ _ => rfl⟩ rfl rfl ⟨rfl, unmasked, fun _ _ => rfl⟩⟩

/-- The floppy's vector is line 6 of the master, and the end of its interrupt leaves the
controllers as they were. -/
theorem eoi_of_acknowledges {pics : Pair}
    (ack : programmed.Acknowledges cascadeLine FLOPPY_IRQ pics) :
    send 0x20 0x20 pics = programmed := by
  have idle : programmed.master.Idle := fun _ => rfl
  obtain ⟨n, -, -, slave, master⟩ | ⟨n, -, vector⟩ := ack.cases_of_wired programmed_wired
  · have ended : pics.master.eoi = programmed.master := by
      obtain same | accepted := master
      · rw [same]
        rfl
      · rw [accepted]
        exact Pic.eoi_accept idle n
    exact congrArg₂ Pair.mk ended slave
  · have none : ∀ n, FLOPPY_IRQ ≠ programmed.slave.vector n := by decide
    exact absurd vector (none n)

/-! ## The law -/

/-- What there is for every interrupt that can arrive. -/
structure Attends (stub : UInt8 → UInt32) (s : Arrivals) : Prop where
  /-- These vectors, each of them, and no others. -/
  vectors : ∀ v, (∃ pics, s.pics.Acknowledges cascadeLine v pics) ↔ v ∈ arriving
  /-- An interrupt gate to the stub of its vector. -/
  gate : ∀ v ∈ arriving, Gate.ofBytes (s.tables.gates v) =
    { offset := (stub v).toNat, selector := s.tables.segCs.toNat, zero := 0
      kind := INTERRUPT_GATE, privilege := 0, present := true }
  handler : ∀ v ∈ arriving, Serves v (s.tables.handlers v)
  /-- No interrupt that was handled is still in service. -/
  idle : s.pics.master.Idle ∧ s.pics.slave.Idle

theorem Ready.attends (h : Ready stub s) : Attends stub s where
  vectors v := by
    rw [h.pics]
    exact acknowledges_programmed
  gate v hv := by
    have interrupts : arriving.all isInterrupt = true := by decide
    have interrupt : isInterrupt v = true := List.all_eq_true.mp interrupts v hv
    have made := gate_bytes v (stub v) s.tables.segCs
    rw [(h.tabled v hv).1, made, gateFor, if_pos interrupt]
  handler v hv := (h.tabled v hv).2
  idle := by
    rw [h.pics]
    exact ⟨fun _ => rfl, fun _ => rfl⟩

/-- EVERY INTERRUPT THAT ARRIVES IS HANDLED. Stage 3 is entered with the controllers and the
tables in any state. Wherever the main program stands afterwards with interrupts on, and however
many were handled on the way, the vectors that the controllers can name are the listed ones, each
of them has its gate and its handler, and the controllers hold none of them back. -/
theorem arrivals_attended {L : Sizes} (off : s.enabled = false) {p : Code Unit}
    (run : system.Reach (.main (stage3Start L stub), s) (.main p, s')) (on : s'.enabled = true) :
    Attends stub s' := by
  have here : ∀ {q : Code Unit} {s : Arrivals}, Walks stub q (Inv stub) s → Inv stub s :=
    fun walk => walk.here (J := Inv stub) (fun _ _ h => h) fun _ _ h => h
  have keeps : system.Keeps (fun _ _ => True) (fun q s => Walks stub q (Inv stub) s)
      (.main p, s') := by
    apply Vectored.invariant ?_ ?_ (walks_stage3Start L off) run
    · exact fun walk step => walk.step step
    · rintro q ⟨v, f⟩ s₁ s₂ walk ⟨enabled, -, installed, returns, pics, ack, rfl⟩
      have ready : Ready stub s₁ := here walk enabled
      rw [ready.pics] at ack
      have serves : Serves v (s₁.tables.handlers v) :=
        (ready.tabled v (acknowledges_programmed.mp ⟨pics, ack⟩)).2
      rw [installed] at serves
      obtain panic | ⟨rfl, floppy⟩ := serves
      · cases panic
        cases returns
      · cases floppy
        have restored : ({ s₁ with pics } : Arrivals).next (.outb 0x20 0x20) = s₁ := by
          have pics := (eoi_of_acknowledges ack).trans ready.pics.symm
          exact congrArg (fun pics => { s₁ with pics }) pics
        apply follows_fpyInterruptHandler
        rw [restored]
        exact walk
  exact (here keeps on).attends

/-! ## A run past `sti` -/

theorem answers_setup {lo : Nat} (s : Arrivals) {op : Op} (h : op.isSetup lo) :
    ∃ x s', machine s op x s' := by
  cases op with
  | inb port =>
    by_cases master : port = PIC_MASTER_B
    · subst master
      exact ⟨s.pics.master.mask, s, ⟨fun _ => rfl, fun h => absurd h (by decide)⟩, rfl⟩
    · exact ⟨s.pics.slave.mask, s, ⟨fun h => absurd h master, fun _ => rfl⟩, rfl⟩
  | fetch o =>
    cases o with
    | segCs => exact ⟨_, s, rfl, rfl⟩
    | gIdt n => exact ⟨_, s, rfl, rfl⟩
    | _ => exact ⟨[], s, trivial, rfl⟩
  | get v => exact ⟨0, _, trivial, rfl⟩
  | int15 r => exact ⟨r, _, trivial, rfl⟩
  | cpuid eax => exact ⟨⟨0, 0, 0, 0, false⟩, _, trivial, rfl⟩
  | readCr n => exact ⟨0, _, trivial, rfl⟩
  | setReceived r | outb port v | assign o bs | setInterrupt n f | writeCr n x | sti
  | store a x => exact ⟨(), _, trivial, rfl⟩
  | _ => cases h

/-- A pair that was initialized halfway, and tables of zeros. -/
def halfway : Arrivals where
  pics := ⟨⟨.cascade true, 0x70, 0, true, 0xFF, fun _ => true⟩, ⟨.mask, 0, 0, false, 0, fun _ => true⟩⟩
  tables := .zeroed 8
  enabled := false

/-- A run to `floppy_init`, with interrupts on. -/
theorem arrivals_attended_halfway : ∃ p s',
    system.Reach (.main (stage3Start .oneByte fun _ => 0x8000), halfway) (.main p, s') ∧
      s'.enabled = true ∧ Attends (fun _ => 0x8000) s' := by
  obtain ⟨_, s', run⟩ := Straight.exists_exec (fun s _ => answers_setup s)
    (setup_stage3Setup (L := .oneByte) (fun _ => 0x8000) (Nat.zero_le _)) halfway
  have on : s'.enabled = true := ((walks_stage3Setup .oneByte rfl).exec run).1
  have reach := Vectored.reach_main (Y := system)
    (run.reach_bind fun _ => floppyInit.bind fun _ => stage3Rest .oneByte)
  rw [← stage3Start_eq] at reach
  exact ⟨_, s', reach, on, arrivals_attended rfl reach on⟩

end Arrivals

end ToyBootloader
