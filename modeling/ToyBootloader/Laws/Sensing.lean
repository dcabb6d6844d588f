import ToyBootloader.Controller
import ToyBootloader.Irq
import ToyBootloader.Laws.Footprint

/-!
# Which interrupts the handler senses

A SEEK's or a CALIBRATE's interrupt has to be answered with CHECK_INT, a data
transfer's must not be. The handler decides by `fpy_irq_handle_state` alone, and
whether its CHECK_INT gets through is the controller's phase.

The flag is one-shot. `fpy_cmd_read_sector` sets it before it sends its READ DATA, no
other command does, and the next interrupt, whoever's it is, uses it up. What the
handler does about an interrupt therefore hangs on two things of the interleaving:
whether a `fpy_cmd_read_sector` has begun since the interrupt before, and what the
controller is doing.
-/

namespace ToyBootloader

open Resumption Code

/-! ## The controller, with its interrupts -/

/-- What the controller is doing: taking a command or handing out a result, or
executing a data transfer whose result is still to come. -/
inductive Activity where
  | ready (ph : Phase)
  | executing (next : UInt8) (rest : List UInt8)
  deriving DecidableEq, Repr

/-- The controller, and the interrupts it has raised that are not delivered. -/
structure Device where
  activity : Activity
  heads : Nat := 0
  transfers : Nat := 0
  deriving DecidableEq, Repr

namespace Device

/-- What a whole command starts. -/
def start (d : Device) (cmd res : List UInt8) : Device :=
  match raises cmd, res with
  | some .transfer, b :: bs => { d with activity := .executing b bs }
  | some .head, _ => { d with activity := .ready (.ofResult res), heads := d.heads + 1 }
  | _, _ => { d with activity := .ready (.ofResult res) }

/-- An execution ends: the result phase starts, and raises an interrupt. -/
def Ends (d d' : Device) : Prop :=
  ∃ b bs, d.activity = .executing b bs ∧
    d' = { d with activity := .ready (.result b bs), transfers := d.transfers + 1 }

/-- What a status read answers: no `mrq` while a command executes. -/
def Status (d : Device) (a : UInt8) : Prop :=
  match d.activity with
  | .ready ph => mrq a = true ∧ dataio a = ph.isResult
  | .executing _ _ => mrq a = false

/-- The FIFO read. -/
def Reads (d : Device) (a : UInt8) (d' : Device) : Prop :=
  match d.activity with
  | .ready ph => ph.Answers a ∧ d' = { d with activity := .ready ph.read }
  | .executing _ _ => d' = d

/-- The FIFO written. A byte that completes a command makes the controller
choose a result of the command's length. -/
def Writes (d : Device) (b : UInt8) (d' : Device) : Prop :=
  match d.activity with
  | .ready ph =>
    match ph.completes b with
    | some cmd => ∃ res, res.length = resultLength (opcode cmd) ∧ d' = d.start cmd res
    | none => d' = { d with activity := .ready (ph.write b []) }
  | .executing _ _ => d' = d

/-- The controller on the bus. An execution may have ended by the time the
status is read. -/
def machine : Machine ops Device := fun d op =>
  match op with
  | .inb port => fun a d' =>
    if port = FPY_MSR then (d' = d ∨ d.Ends d') ∧ d'.Status a
    else if port = FPY_FIFO then d.Reads a d' else d' = d
  | .outb port b => fun _ d' => if port = FPY_FIFO then d.Writes b d' else d' = d
  | _ => fun _ d' => d' = d

/-- The command a byte written now completes. -/
def completes (d : Device) (b : UInt8) : Option (List UInt8) :=
  match d.activity with
  | .ready ph => ph.completes b
  | .executing _ _ => none

/-- An interrupt of `src` is taken off those raised. -/
def delivers (d : Device) : Source → Option Device
  | .head => if d.heads = 0 then none else some { d with heads := d.heads - 1 }
  | .transfer => if d.transfers = 0 then none else some { d with transfers := d.transfers - 1 }

end Device

/-! ## The board -/

/-- A run of the handler: whose interrupt it is, what it was entered in, and what it has
done to the controller. -/
structure HandlerRun where
  src : Source
  /-- A `fpy_cmd_read_sector` had begun since the interrupt before. -/
  begun : Bool
  activity : Activity
  /-- The bytes it has written to the FIFO. -/
  wrote : List UInt8 := []
  /-- One of them was taken for CHECK_INT. -/
  sensed : Bool := false
  deriving DecidableEq, Repr

/-- A SEEK's interrupt is sensed, and a data transfer's is not touched. -/
def HandlerRun.Right (r : HandlerRun) : Prop :=
  match r.src with
  | .head => r.sensed = true
  | .transfer => r.wrote = []

/-- The interrupt comes when it should: a SEEK's between two commands of the controller,
before the next `fpy_cmd_read_sector` begins; a data transfer's after one has begun, or
while the controller takes no command bytes. -/
def HandlerRun.Timely (r : HandlerRun) : Prop :=
  match r.src with
  | .head => r.begun = false ∧ r.activity = .ready .idle
  | .transfer => r.begun = true ∨ ∀ got, r.activity ≠ .ready (.command got)

instance : DecidablePred HandlerRun.Right := fun r =>
  match r with
  | ⟨.head, _, _, _, sensed⟩ => inferInstanceAs (Decidable (sensed = true))
  | ⟨.transfer, _, _, wrote, _⟩ => inferInstanceAs (Decidable (wrote = []))

instance (a : Activity) : Decidable (∀ got, a ≠ .ready (.command got)) :=
  match a with
  | .ready (.command got) => isFalse fun h => h got rfl
  | .ready (.result _ _) => isTrue fun _ => nofun
  | .executing _ _ => isTrue fun _ => nofun

instance : DecidablePred HandlerRun.Timely := fun r =>
  match r with
  | ⟨.head, begun, a, _, _⟩ => inferInstanceAs (Decidable (begun = false ∧ a = .ready .idle))
  | ⟨.transfer, begun, a, _, _⟩ =>
    inferInstanceAs (Decidable (begun = true ∨ ∀ got, a ≠ .ready (.command got)))

/-- The array `fpy_send_command` was last called with, what is left of it, and whether
the flag was set for it: between that call and the one before. -/
structure Packet where
  sending : Sending := {}
  flagged : Bool := false
  /-- The flag was set since that call. -/
  next : Bool := false
  deriving DecidableEq, Repr

/-- What an operation of the main program does to it. -/
def Packet.after (b : Packet) (op : Op) : Packet :=
  match op with
  | .mark (.send _) => { sending := b.sending.next op, flagged := b.next }
  | op => { b with sending := b.sending.next op, next := b.next || op.begins }

/-- A byte that may be written to the FIFO: the next of the array, for which the flag was
set if it is a READ DATA and only then, or the one byte of VERSION, for which
`fpy_send_command` is not called. -/
def Packet.Takes (b : Packet) (x : UInt8) : Prop :=
  (b.sending.left.head? = some x ∧ (b.flagged = true ↔ IsReadData b.sending.cmd)) ∨
    x = FpyCmd.version.val

/-- The shared globals, the controller, what the main program has done since the last
interrupt and for its last command, and the handler's runs, the last first. -/
structure Board where
  vars : IrqVars
  dev : Device := ⟨.ready .idle, 0, 0⟩
  /-- The main program has begun a `fpy_cmd_read_sector`, by setting the flag, since the
  last interrupt. -/
  begun : Bool := false
  packet : Packet := {}
  runs : List HandlerRun := []
  deriving DecidableEq, Repr

namespace Board

/-- Before anything has happened. A flag that is set then counts as set by a
`fpy_cmd_read_sector`. -/
def start (vars : IrqVars) : Board := { vars, begun := vars.handleState != 0 }

/-- What an operation of the handler adds to its run. -/
def logged (dev : Device) (op : Op) (r : HandlerRun) : HandlerRun :=
  match op with
  | .outb port b =>
    if port = FPY_FIFO then
      { r with
        wrote := r.wrote ++ [b]
        sensed := r.sensed || dev.completes b = some [FpyCmd.checkInt.val] }
    else r
  | _ => r

/-- The last run with an operation added. -/
def log (s : Board) (op : Op) : List HandlerRun :=
  match s.runs with
  | [] => []
  | r :: rs => logged s.dev op r :: rs

/-- The handler's run as it is entered. -/
def entered (src : Source) (s : Board) : HandlerRun :=
  { src, begun := s.begun, activity := s.dev.activity }

/-- The driver and its handler on the board. A delivery comes any time after the
interrupt was raised, or at once when an execution ends. -/
def system : System ops Board where
  main s op a s' := IrqVars.machine s.vars op a s'.vars ∧ Device.machine s.dev op a s'.dev ∧
    s'.begun = (s.begun || op.begins) ∧ s'.packet = s.packet.after op ∧ s'.runs = s.runs
  isr s op a s' := IrqVars.machine s.vars op a s'.vars ∧ Device.machine s.dev op a s'.dev ∧
    s'.begun = s.begun ∧ s'.packet = s.packet ∧ s'.runs = s.log op
  deliver s s' := ∃ d src, (d = s.dev ∨ s.dev.Ends d) ∧ d.delivers src = some s'.dev ∧
    s'.vars = s.vars ∧ s'.begun = false ∧ s'.packet = s.packet ∧
    s'.runs = entered src { s with dev := d } :: s.runs
  handler := fpyInterruptHandler

/-- A walk of the handler. -/
abbrev Runs {α : Type} (p : Code α) (Q : Board → Prop) (s : Board) : Prop :=
  Follows system.isr (fun _ _ => True) p (fun _ => Q) s

/-- Operations that write nothing to the FIFO. -/
def writesNothing : Op → Prop
  | .outb port _ => port ≠ FPY_FIFO
  | _ => True

theorem log_of_writesNothing {s : Board} {op : Op} (h : writesNothing op) :
    s.log op = s.runs := by
  rw [log]
  cases s.runs with
  | nil => rfl
  | cons r rs =>
    cases op with
    | outb port b => simp only [logged, if_neg h]
    | _ => rfl

/-- Code that writes nothing leaves the runs alone. -/
theorem runs_keep {α : Type} {p : Code α} (h : Only writesNothing p) {L : List HandlerRun}
    {s : Board} (hs : s.runs = L) : Runs p (fun s' => s'.runs = L) s := by
  refine Only.follows (I := fun s : Board => s.runs = L) h (fun _ _ _ _ => trivial) ?_ hs
  rintro s op x s' hop hL ⟨-, -, -, -, hruns⟩
  rw [hruns, log_of_writesNothing hop]
  exact hL

theorem writesNothing_of_input {α : Type} {p : Code α} (h : Only Op.isInput p) :
    Only writesNothing p := by
  refine h.mono fun op hop => ?_
  cases op with
  | outb port b => cases hop
  | _ => trivial

theorem writesNothing_checked (err : ErrT) : Only writesNothing (checked err) :=
  ⟨trivial, fun _ => trivial⟩

/-- A run with CHECK_INT offered to the controller: it is written only to a
controller that is taking a command. -/
def offered (dev : Device) (r : HandlerRun) : HandlerRun :=
  match dev.activity with
  | .ready (.command _) => logged dev (.outb FPY_FIFO FpyCmd.checkInt.val) r
  | _ => r

theorem offered_of_other {d : Device} {r : HandlerRun}
    (hd : ∀ got, d.activity ≠ .ready (.command got)) : offered d r = r := by
  rw [offered]
  cases hact : d.activity with
  | executing b bs => rfl
  | ready ph =>
    cases ph with
    | command got => exact absurd hact (hd got)
    | result b bs => rfl

/-- An operation of the handler other than a write, walked. -/
theorem runs_vis {α : Type} {op : Op} {k : ops.Ans op → Code α} {Q : Board → Prop} {s : Board}
    (hop : writesNothing op)
    (h : ∀ x s', Device.machine s.dev op x s'.dev → s'.runs = s.runs → Runs (k x) Q s') :
    Runs (.vis (S := ops) op k) Q s :=
  ⟨trivial, fun x s' hm => h x s' hm.2.1 (hm.2.2.2.2.trans (log_of_writesNothing hop))⟩

/-- The status read by a controller that takes a command. -/
theorem status_of_command {d d' : Device} {a : UInt8} {got : List UInt8}
    (hd : d.activity = .ready (.command got))
    (h : Device.machine d (.inb FPY_MSR) a d') : d' = d ∧ mrq a = true ∧ dataio a = false := by
  obtain ⟨rfl | ⟨b, bs, hex, -⟩, hstatus⟩ := h
  · rw [Device.Status, hd] at hstatus
    exact ⟨rfl, hstatus⟩
  · rw [hd] at hex
    cases hex

/-- The status read by any other: it is refused on that. -/
theorem status_of_other {d d' : Device} {a : UInt8}
    (hd : ∀ got, d.activity ≠ .ready (.command got))
    (h : Device.machine d (.inb FPY_MSR) a d') : (!mrq a || dataio a) = true := by
  obtain ⟨rfl | ⟨b, bs, hex, rfl⟩, hstatus⟩ := h
  · rw [Device.Status] at hstatus
    cases hact : d'.activity with
    | executing b bs =>
      rw [hact] at hstatus
      simp only [hstatus, Bool.not_false, Bool.true_or]
    | ready ph =>
      cases ph with
      | command got => exact absurd hact (hd got)
      | result b bs =>
        rw [hact] at hstatus
        simp only [hstatus.2, Phase.isResult_result, Bool.or_true]
  · simp only [Device.Status] at hstatus
    simp only [hstatus.2, Phase.isResult_result, Bool.or_true]

/-- The byte, written to a controller that takes it. -/
theorem follows_byte (n : Nat) {t : Board} {r : HandlerRun} {rs : List HandlerRun}
    {got : List UInt8} (hgot : t.dev.activity = .ready (.command got)) (ht : t.runs = r :: rs) :
    Follows system.isr (fun _ _ => True) (fpySendCommandByteLoop FpyCmd.checkInt.val (n + 1))
      (fun e t' => e = noErr ∧ t'.runs = offered t.dev r :: rs) t := by
  simp only [fpySendCommandByteLoop, fpyReadStatus, Prog.bind_eq, inb_bind]
  refine ⟨trivial, ?_⟩
  rintro a t₁ ⟨-, hdev, -, -, hruns⟩
  obtain ⟨hsame, hmrq, -⟩ := status_of_command hgot hdev
  simp only [hmrq, if_true]
  refine ⟨trivial, ?_⟩
  rintro - t₂ ⟨-, -, -, -, hlog⟩
  refine ⟨rfl, ?_⟩
  have hlog₁ : t.log (.inb FPY_MSR) = t.runs := log_of_writesNothing trivial
  rw [hlog, log, hruns, hlog₁, ht, hsame]
  simp only [offered, hgot]

/-- CHECK_INT, as the handler sends it. -/
theorem runs_send {s : Board} {r : HandlerRun} {rs : List HandlerRun} (hs : s.runs = r :: rs) :
    Runs (fpySendCommand [FpyCmd.checkInt.val] true)
      (fun s' => s'.runs = offered s.dev r :: rs) s := by
  simp only [fpySendCommand, fpySendCommandBody, fpyReadStatus, Prog.bind_eq, mark_bind, inb_bind,
    Prog.vis_bind]
  refine runs_vis trivial fun _ s₁ hd₁ hr₁ => ?_
  obtain hd₁ : s₁.dev = s.dev := hd₁
  refine runs_vis trivial fun a s₂ hd₂ hr₂ => ?_
  rw [hd₁] at hd₂
  have hr : s₂.runs = r :: rs := hr₂.trans (hr₁.trans hs)
  -- what follows the last write writes nothing
  have done : ∀ (e : ErrT) {t : Board} {L : List HandlerRun}, t.runs = L →
      Runs (.vis (S := ops) (.mark (.sent e)) fun _ => .pure e) (fun t' => t'.runs = L) t :=
    fun e t L ht => runs_keep (p := .vis (S := ops) (.mark (.sent e)) fun _ => .pure e)
      ⟨trivial, fun _ => trivial⟩ ht
  by_cases hcmd : ∃ got, s.dev.activity = .ready (.command got)
  · obtain ⟨got, hgot⟩ := hcmd
    obtain ⟨hsame, hmrq, hdata⟩ := status_of_command hgot hd₂
    simp only [hmrq, hdata, Bool.not_true, Bool.or_self, Bool.false_eq_true, if_false]
    refine Follows.bind (R := fun _ s' => s'.runs = offered s.dev r :: rs) ?_
      fun e t ht => done e ht
    -- the wait for `mrq` before the byte: the first read ends it
    refine follows_poll (fun t => t.dev = s.dev ∧ t.runs = r :: rs) ⟨hsame, hr⟩
      (fun _ _ => trivial) ?_ ?_
    · rintro t x t' ⟨hdev, hruns⟩ ⟨-, hm, -, -, hlog⟩ -
      rw [hdev] at hm
      obtain ⟨hdev', -, -⟩ := status_of_command hgot hm
      have hruns' : t'.runs = r :: rs :=
        (hlog.trans (log_of_writesNothing trivial)).trans hruns
      simp only [hdata, Bool.false_eq_true, if_false]
      refine (follows_byte 999 (hdev' ▸ hgot) hruns').bind ?_
      rintro e t'' ⟨rfl, ht''⟩
      rw [hdev'] at ht''
      exact runs_keep (p := fpySendCommandLoop a true []) ⟨trivial, fun _ => trivial⟩ ht''
    · rintro t x t' ⟨hdev, hruns⟩ ⟨-, hm, -, -, hlog⟩ -
      rw [hdev] at hm
      exact ⟨(status_of_command hgot hm).1,
        (hlog.trans (log_of_writesNothing trivial)).trans hruns⟩
  · have hother : ∀ got, s.dev.activity ≠ .ready (.command got) := fun got h => hcmd ⟨got, h⟩
    simp only [status_of_other hother hd₂, if_true]
    rw [offered_of_other hother]
    exact done _ hr

/-- CHECK_INT and its result: after the command nothing more is written. -/
theorem runs_fpyCmdCheckInterrupt {s : Board} {r : HandlerRun} {rs : List HandlerRun}
    (hs : s.runs = r :: rs) :
    Runs fpyCmdCheckInterrupt (fun s' => s'.runs = offered s.dev r :: rs) s := by
  refine (runs_send hs).bind fun e t ht => ?_
  have read := writesNothing_of_input input_fpyReadData
  cases e with
  | some e => exact ht
  | none =>
    refine (runs_keep read ht).bind fun st0 t ht => ?_
    refine (runs_keep (writesNothing_checked _) ht).bind fun e t ht => ?_
    cases e with
    | some e => exact ht
    | none => exact (runs_keep read ht).bind fun _ _ h => h

/-- Sensing leaves the flag alone. -/
theorem clear_fpyCmdCheckInterrupt {s : Board} (hs : s.vars.handleState = 0) :
    Runs fpyCmdCheckInterrupt (fun s' => s'.vars.handleState = 0) s := by
  refine command_fpyCmdCheckInterrupt.follows (I := fun s : Board => s.vars.handleState = 0)
    (fun _ _ _ _ => trivial) ?_ hs
  rintro s op x s' hop hclear ⟨hvars, -⟩
  cases op with
  | inb port | outb port b => rw [show s'.vars = s.vars from hvars, hclear]
  | mark e => rw [show s'.vars = s.vars from hvars, hclear]
  | _ => cases hop

/-- One run of the handler: with the flag set it writes nothing, with the flag clear it
offers CHECK_INT, and it leaves the flag clear. -/
theorem runs_handler {s : Board} {r : HandlerRun} {rs : List HandlerRun} (hs : s.runs = r :: rs) :
    Runs fpyInterruptHandler (fun t => t.runs =
      (if s.vars.handleState ≠ 0 then r else offered s.dev r) :: rs ∧
        t.vars.handleState = 0) s := by
  have acknowledge : ∀ {v : Received} {t : Board} {L : List HandlerRun}, t.runs = L →
      t.vars.handleState = 0 → Runs (do setReceived v; outb 0x20 0x20)
        (fun t => t.runs = L ∧ t.vars.handleState = 0) t := by
    intro v t L ht hclear
    refine ⟨trivial, ?_⟩
    rintro _ t₁ ⟨hvars, -, -, -, hlog⟩
    refine ⟨trivial, ?_⟩
    rintro _ t₂ ⟨hvars', -, -, -, hlog'⟩
    have quiet : writesNothing (.outb 0x20 0x20) := show (0x20 : UInt16) ≠ FPY_FIFO by decide
    have assigned : t.log (.setReceived v) = t.runs := log_of_writesNothing trivial
    rw [log_of_writesNothing quiet, hlog, assigned] at hlog'
    have kept : t₂.vars.handleState = t.vars.handleState := by
      rw [show t₂.vars = t₁.vars from hvars', show t₁.vars = _ from hvars]
    exact ⟨hlog'.trans ht, kept.trans hclear⟩
  simp only [fpyInterruptHandler, Prog.bind_eq, get_bind, follows_vis]
  refine ⟨trivial, ?_⟩
  rintro st t ⟨⟨hvars, hst⟩, hdev, -, -, hlog⟩
  obtain rfl : st = s.vars.handleState := hst rfl
  obtain hdev : t.dev = s.dev := hdev
  have read : s.log (.get .fpyIrqHandleState) = s.runs := log_of_writesNothing trivial
  have ht : t.runs = r :: rs := (hlog.trans read).trans hs
  split
  · refine ⟨trivial, ?_⟩
    rintro _ t₁ ⟨hvars₁, -, -, -, hlog₁⟩
    have cleared : t.log (.set .fpyIrqHandleState 0) = t.runs := log_of_writesNothing trivial
    exact acknowledge ((hlog₁.trans cleared).trans ht) (congrArg IrqVars.handleState hvars₁)
  · rename_i hclear
    have hflag : t.vars.handleState = 0 := by
      rw [hvars]
      exact not_not.mp hclear
    refine ((runs_fpyCmdCheckInterrupt ht).and (clear_fpyCmdCheckInterrupt hflag)).bind ?_
    rintro res t' ⟨ht', hflag'⟩
    rw [hdev] at ht'
    exact acknowledge ht' hflag'

/-- A delivery takes an interrupt off and leaves the controller's activity. -/
theorem delivers_activity {d d' : Device} {src : Source} (h : d.delivers src = some d') :
    d'.activity = d.activity := by
  cases src with
  | head =>
    simp only [Device.delivers] at h
    split at h
    · cases h
    · cases h
      rfl
  | transfer =>
    simp only [Device.delivers] at h
    split at h
    · cases h
    · cases h
      rfl

end Board

/-! ## What the main program writes -/

/-- The functions a session of the driver is made of. -/
inductive DriverTask where
  | floppyInit
  | floppyTest
  | copyBytes (sector : UInt8) (dest : Nat) (count : Int)
  | readtrack (p : FpyCmdReadtrackParams)
  | writeSector (p : FpyCmdWriteSectorParams)
  | writeDeletedSector (p : FpyCmdWriteSectorParams)
  | readDeletedSector (p : FpyCmdReadSectorParams)

def DriverTask.code : DriverTask → Code Unit
  | .floppyInit => ToyBootloader.floppyInit
  | .floppyTest => ToyBootloader.floppyTest
  | .copyBytes sector dest count => do let _ ← fpyCopyBytes sector dest count
  | .readtrack p => do let _ ← fpyCmdReadtrack p
  | .writeSector p => do let _ ← fpyCmdWriteSector p
  | .writeDeletedSector p => do let _ ← fpyCmdWriteDeletedSector p
  | .readDeletedSector p => do let _ ← fpyCmdReadDeletedSector p

/-- Tasks one after another. -/
def runTasks : List DriverTask → Code Unit
  | [] => return ()
  | task :: tasks => do
    task.code
    runTasks tasks

namespace Packet

/-- Any device; the command being sent is recorded. -/
def machine : Machine ops Packet := Recorder fun b op _ => b.after op

/-- The flag is set to 1, and a byte written to the FIFO is one that may be. -/
def admits (b : Packet) : Op → Prop
  | .set .fpyIrqHandleState x => x = 1
  | .outb port x => port = FPY_FIFO → b.Takes x
  | _ => True

/-- Operations that send nothing and leave the flag alone. -/
def isQuiet : Op → Prop
  | .outb port _ => port ≠ FPY_FIFO
  | .set v _ => v ≠ .fpyIrqHandleState
  | .mark (.send _) => False
  | _ => True

end Packet

/-! ## The law -/

namespace Board

end Board

/-! ## Runs computed -/

/-- A controller that ends an execution when its status is read, and that
answers each command with the result `answer` gives for it. -/
def Device.sim (answer : List UInt8 → List UInt8) : Simulator ops Device := fun d op =>
  match op with
  | .inb port =>
    if port = FPY_MSR then
      match d.activity with
      | .ready ph => some (ph.status, d)
      | .executing b bs =>
        some ((Phase.result b bs).status,
          { d with activity := .ready (.result b bs), transfers := d.transfers + 1 })
    else if port = FPY_FIFO then
      match d.activity with
      | .ready (.command got) => some (0, { d with activity := .ready (.command got) })
      | .ready (.result b bs) => some (b, { d with activity := .ready (.ofResult bs) })
      | .executing _ _ => some (0, d)
    else some (0, d)
  | .outb port b =>
    if port = FPY_FIFO then
      match d.activity with
      | .ready ph =>
        match ph.completes b with
        | some cmd =>
          if (answer cmd).length = resultLength (opcode cmd) then
            some ((), d.start cmd (answer cmd))
          else none
        | none => some ((), { d with activity := .ready (ph.write b []) })
      | .executing _ _ => some ((), d)
    else some ((), d)
  | _ => none

theorem Device.sim_sound (answer : List UInt8 → List UInt8) :
    (Device.sim answer).Sound Device.machine := by
  intro d op x d' h
  cases op with
  | inb port =>
    simp only [Device.sim] at h
    simp only [Device.machine]
    split at h
    · rename_i hmsr
      rw [if_pos hmsr]
      split at h
      · rename_i ph hact
        cases h
        exact ⟨.inl rfl, by
          rw [Device.Status, hact]
          exact ⟨ph.mrq_status, ph.dataio_status⟩⟩
      · rename_i b bs hact
        cases h
        exact ⟨.inr ⟨b, bs, hact, rfl⟩, Phase.mrq_status _, Phase.dataio_status _⟩
    · rename_i hmsr
      rw [if_neg hmsr]
      split at h
      · rw [if_pos ‹_›, Device.Reads]
        split at h
        all_goals
          rename_i hact
          rw [hact]
          cases h
        · exact ⟨trivial, rfl⟩
        · exact ⟨rfl, rfl⟩
        · rfl
      · rw [if_neg ‹_›]
        cases h
        rfl
  | outb port b =>
    simp only [Device.sim] at h
    simp only [Device.machine]
    split at h
    · rw [if_pos ‹_›, Device.Writes]
      split at h
      · rename_i ph hact
        cases hc : ph.completes b with
        | some cmd =>
          simp only [hc] at h
          split at h
          · cases h
            exact ⟨answer cmd, ‹_›, rfl⟩
          · cases h
        | none =>
          simp only [hc] at h
          cases h
          rfl
      · cases h
        rfl
    · rw [if_neg ‹_›]
      cases h
      rfl
  | _ => cases h

namespace Board

/-- The two machines of the board: ports are the controller's, the rest is the
globals'. -/
def answers (answer : List UInt8 → List UInt8) (s : Board) (op : Op) :
    Option (ops.Ans op × IrqVars × Device) :=
  match op with
  | .inb port => (Device.sim answer s.dev (.inb port)).map fun r => (r.1, s.vars, r.2)
  | .outb port b => (Device.sim answer s.dev (.outb port b)).map fun r => (r.1, s.vars, r.2)
  | op => (IrqVars.sim (fun _ => 0) id IrqVars.goodDrive s.vars op).map fun r =>
      (r.1, r.2, s.dev)

theorem answers_sound {answer : List UInt8 → List UInt8} {s : Board} {op : Op}
    {x : ops.Ans op} {vars : IrqVars} {d : Device}
    (h : answers answer s op = some (x, vars, d)) :
    IrqVars.machine s.vars op x vars ∧ Device.machine s.dev op x d := by
  cases op with
  | inb port =>
    obtain ⟨r, hr, heq⟩ := Option.map_eq_some_iff.mp h
    cases heq
    exact ⟨rfl, Device.sim_sound answer hr⟩
  | outb port b =>
    obtain ⟨r, hr, heq⟩ := Option.map_eq_some_iff.mp h
    cases heq
    exact ⟨rfl, Device.sim_sound answer hr⟩
  | _ =>
    simp only [answers] at h
    obtain ⟨r, hr, heq⟩ := Option.map_eq_some_iff.mp h
    cases heq
    exact ⟨IrqVars.sim_sound _ _ _ hr, rfl⟩

/-- Deliveries are named by their source. -/
def player (answer : List UInt8 → List UInt8) : Player ops Board Source where
  main s op := (answers answer s op).map fun r =>
    (r.1, { s with
      vars := r.2.1
      dev := r.2.2
      begun := s.begun || op.begins
      packet := s.packet.after op })
  isr s op := (answers answer s op).map fun r =>
    (r.1, { s with vars := r.2.1, dev := r.2.2, runs := s.log op })
  deliver s src := (s.dev.delivers src).map fun d =>
    { s with dev := d, begun := false, runs := entered src s :: s.runs }

theorem player_sound (answer : List UInt8 → List UInt8) : (player answer).Sound system where
  main h := by
    obtain ⟨r, hr, heq⟩ := Option.map_eq_some_iff.mp h
    cases heq
    exact ⟨(answers_sound hr).1, (answers_sound hr).2, rfl, rfl, rfl⟩
  isr h := by
    obtain ⟨r, hr, heq⟩ := Option.map_eq_some_iff.mp h
    cases heq
    exact ⟨(answers_sound hr).1, (answers_sound hr).2, rfl, rfl, rfl⟩
  deliver {s src s'} h := by
    obtain ⟨d, hd, rfl⟩ := Option.map_eq_some_iff.mp h
    exact ⟨s.dev, src, .inl rfl, hd, rfl, rfl, rfl, rfl⟩

/-- What a good drive answers. -/
def goodResult (cmd : List UInt8) : List UInt8 :=
  match resultLength (opcode cmd) with
  | 7 => [0x20, 0, 0, 0, 0, 1, 2]
  | 2 => [0x20, 0]
  | n => .replicate n 0x90

/-- `floppy_init` with both CALIBRATEs answered while they are waited for. -/
def answeredInit : List (Move Source) :=
  .replicate 49 .step ++ .deliver .head :: .replicate 28 .step ++ .deliver .head ::
    .replicate 16 .step

/-- `floppy_init`, and a copy of one byte. -/
def oneCopy : Control ops Unit × Board :=
  (.main (runTasks [.floppyInit, .copyBytes 0 0x7000 1]), start {})

/-- The SEEK's interrupt comes while the READ is waited for. -/
def lateSeek : List (Move Source) :=
  answeredInit ++ .replicate 56 .step ++ .deliver .head :: .replicate 5 .step

/-- The main program has control, in a state that passes a test. -/
def atMain (test : Board → Bool) : Control ops Unit × Board → Bool
  | (.main _, s) => test s
  | (.isr _ _, _) => false

/-- A run to such a state. -/
theorem exists_main {ms : List (Move Source)} {test : Board → Bool}
    (h : (system.play (player goodResult) ms oneCopy).any (atMain test) = true) :
    ∃ p' s, system.Reach oneCopy (.main p', s) ∧ test s = true := by
  obtain ⟨⟨ctl, s⟩, run, ht⟩ := System.exists_of_play (player_sound goodResult) h
  match ctl, ht with
  | .main p', ht => exact ⟨p', s, run, ht⟩

end Board

end ToyBootloader
