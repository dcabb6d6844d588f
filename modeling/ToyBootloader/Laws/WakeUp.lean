import ToyBootloader.Controller
import ToyBootloader.Irq
import ToyBootloader.Laws.Footprint

/-!
# Who wakes the driver up

`fpy_wait_irq` waits for a flag, and the flag does not say whose interrupt set
it. Here every interrupt has an owner: a SEEK, a CALIBRATE or a READ owes one from
its last byte on, and it arrives between any two steps, or never.

A READ's wait ends with its own interrupt, and none of its result is read before it,
exactly when no interrupt of an earlier command got to the flag first. `floppy_init`
sees to that, it waits for each CALIBRATE; `fpy_copy_bytes` does not, its SEEK is sent
and not waited for.
-/

namespace ToyBootloader

open Resumption Code

/-! ## The line -/

/-- The commands, by the bytes that are written: those of the command that is not
complete, and the last that was. -/
structure Sent where
  got : List UInt8 := []
  last : List UInt8 := []
  deriving DecidableEq, Repr

namespace Sent

/-- The command that an operation of the main program completes. -/
def completes (b : Sent) : Op → Option (List UInt8)
  | .outb port x => if port = FPY_FIFO then (Phase.command b.got).completes x else none
  | _ => none

/-- What the operation does to them. A call of `fpy_send_command` begins a command, whatever
became of the one before. -/
def next (b : Sent) (op : Op) : Sent :=
  match b.completes op, op with
  | some cmd, _ => ⟨[], cmd⟩
  | none, .outb port x => if port = FPY_FIFO then { b with got := b.got ++ [x] } else b
  | none, .mark (.send _) => { b with got := [] }
  | none, _ => b

end Sent

/-- A test of the flag. -/
structure FlagTest where
  /-- The flag was found set. -/
  found : Bool
  /-- An interrupt of another command had been delivered since the flag was cleared. -/
  foreign : Bool
  /-- The last command's own had been delivered. -/
  own : Bool
  deriving DecidableEq, Repr

/-- The shared globals, the commands, the interrupts owed and delivered, and what the main
program has done about a READ's. -/
structure Line where
  vars : IrqVars
  sent : Sent := {}
  /-- How many commands before the last that raises one still owe their interrupt. -/
  owed : Nat := 0
  /-- The last that raises one owes its own. -/
  ownOwed : Bool := false
  /-- An interrupt of another command was delivered since the flag was cleared. -/
  foreign : Bool := false
  /-- The last command's own was. -/
  own : Bool := false
  /-- The flag was found set since the last byte was written. -/
  woken : Bool := false
  /-- The tests of the flag with a READ the last command. -/
  tests : List FlagTest := []
  /-- Whether the READ's own interrupt had been delivered, at each byte read of its result. -/
  reads : List Bool := []
  deriving DecidableEq, Repr

namespace Line

/-- A command's last byte. One that raises an interrupt makes those before it other
commands. -/
def started (s : Line) (cmd : List UInt8) : Line :=
  if (raises cmd).isSome then
    { s with
      owed := s.owed + s.ownOwed.toNat
      ownOwed := true
      foreign := s.foreign || s.own
      own := false }
  else s

/-- Whether the flag was found set since the last byte was written. -/
def nextWoken (woken : Bool) (op : Op) (x : op.Ans) : Bool :=
  match op, x with
  | .testReceived, x => woken || Received.isSet x
  | .outb port _, _ => woken && decide (port ≠ FPY_FIFO)
  | _, _ => woken

/-- The flag cleared, tested, or a byte of a READ's result read. -/
def noted (s : Line) (op : Op) (x : op.Ans) : Line :=
  match op, x with
  | .setReceived _, _ => { s with foreign := false, own := false }
  | .testReceived, x =>
    if IsReadData s.sent.last then
      { s with tests := ⟨Received.isSet x, s.foreign, !s.ownOwed⟩ :: s.tests }
    else s
  | .inb port, _ =>
    if port = FPY_FIFO ∧ IsReadData s.sent.last then { s with reads := (!s.ownOwed) :: s.reads }
    else s
  | _, _ => s

/-- What an operation of the main program, answered `x`, does to the books. -/
def book (s : Line) (op : Op) (x : op.Ans) : Line :=
  let t := match s.sent.completes op with
    | some cmd => s.started cmd
    | none => s.noted op x
  { t with sent := s.sent.next op, woken := nextWoken s.woken op x }

/-- An interrupt of another command. -/
def deliverForeign (s : Line) : Option Line :=
  if s.owed = 0 then none else some { s with owed := s.owed - 1, foreign := true }

/-- The last command's own. -/
def deliverOwn (s : Line) : Option Line :=
  if s.ownOwed then some { s with ownOwed := false, own := true } else none

/-- The driver and its handler against any device. -/
def system : System ops Line where
  main s op a s' := ∃ vars, IrqVars.machine s.vars op a vars ∧ s' = { s.book op a with vars }
  isr s op a s' := ∃ vars, IrqVars.machine s.vars op a vars ∧ s' = { s with vars }
  deliver s s' := s.deliverForeign = some s' ∨ s.deliverOwn = some s'
  handler := fpyInterruptHandler

/-- Before any command. Whatever the flag holds then is nobody's interrupt. -/
def start (vars : IrqVars) : Line := { vars, foreign := vars.received.isSet }

theorem book_vars (s : Line) (op : Op) (x : op.Ans) : ({ s.book op x with vars := s.vars } : Line) =
    s.book op x := by
  have same : (s.book op x).vars = s.vars := by
    unfold book
    cases s.sent.completes op with
    | some cmd =>
      simp only [started]
      split <;> rfl
    | none =>
      cases op with
      | testReceived | inb port =>
        simp only [noted]
        split <;> rfl
      | _ => rfl
  exact congrArg (fun vars => ({ s.book op x with vars } : Line)) same.symm

/-! ## The invariant -/

/-- What every run keeps. The flag is set exactly when something was delivered since it was
cleared; so were the flags found; and a byte of a READ's result is read after the flag was
found set. -/
structure Kept (s : Line) : Prop where
  account : s.vars.received.isSet = (s.foreign || s.own)
  delivered : s.own = true → s.ownOwed = false
  tests : ∀ t ∈ s.tests, (t.foreign = true → t.found = true) ∧
    (t.found = true → t.foreign = true ∨ t.own = true)
  woken : s.woken = true → IsReadData s.sent.last →
    ∃ t ∈ s.tests, t.found = true ∧ (t.own = true → s.ownOwed = false)
  reads : ∀ r ∈ s.reads, r = false → ∃ t ∈ s.tests, t.found = true ∧ t.own = false

theorem kept_start (vars : IrqVars) : (start vars).Kept where
  account := by simp [start]
  delivered h := by cases h
  tests _ h := by cases h
  woken h := by cases h
  reads _ h := by cases h

/-- Nothing is kept in the globals but the flag. -/
theorem Kept.of_isSet {s : Line} {vars : IrqVars} (h : s.Kept)
    (hset : vars.received.isSet = s.vars.received.isSet) : ({ s with vars } : Line).Kept :=
  { h with account := hset.trans h.account }

/-- A command's last byte. -/
theorem kept_started {s : Line} {b : Sent} (cmd : List UInt8) (h : s.Kept) :
    ({ s.started cmd with sent := b, woken := false } : Line).Kept := by
  unfold started
  split
  · exact { h with
      account := by simp [h.account]
      delivered := fun hown => by cases hown
      woken := fun hwoken => by cases hwoken }
  · exact { h with woken := fun hwoken => by cases hwoken }

/-! ## The main program's walk -/

/-- A CALIBRATE, by its first byte. -/
def IsCalibrate (cmd : List UInt8) : Prop := opcode cmd = FpyCmd.calibrate.val

/-- Any device; the commands are recorded, and whether the flag was found set. -/
def books : Machine ops (Sent × Bool) := Recorder fun b op x => (b.1.next op, nextWoken b.2 op x)

/-- The flag is only ever cleared; it is waited for with a whole command written, a CALIBRATE
or a READ; and a READ's result is read after it was found set. -/
def admits (b : Sent × Bool) : Op → Prop
  | .setReceived r => r = .wait
  | .testReceived => b.1.got = [] ∧ (IsReadData b.1.last ∨ IsCalibrate b.1.last)
  | .inb port => port = FPY_FIFO → IsReadData b.1.last → b.2 = true
  | _ => True

/-- A test of the flag. -/
theorem kept_tested {s : Line} (h : s.Kept) : (s.book .testReceived s.vars.received).Kept := by
  by_cases hread : IsReadData s.sent.last
  · have hbook : s.book .testReceived s.vars.received =
        { s with
          woken := s.woken || s.vars.received.isSet
          tests := ⟨s.vars.received.isSet, s.foreign, !s.ownOwed⟩ :: s.tests } := by
      simp only [book, Sent.completes, noted, if_pos hread]
      rfl
    rw [hbook]
    refine { h with tests := ?_, woken := ?_, reads := ?_ }
    · refine List.forall_mem_cons.mpr ⟨⟨fun hf => ?_, fun hset => ?_⟩, h.tests⟩
      · exact h.account.trans (by rw [show s.foreign = true from hf, Bool.true_or])
      · have hor : (s.foreign || s.own) = true := h.account.symm.trans hset
        rw [Bool.or_eq_true] at hor
        exact hor.imp id fun hown => by simp [h.delivered hown]
    · intro hwoken _
      rcases Bool.or_eq_true_iff.mp hwoken with hold | hset
      · obtain ⟨t, ht, htest⟩ := h.woken hold hread
        exact ⟨t, List.mem_cons_of_mem _ ht, htest⟩
      · exact ⟨_, List.mem_cons_self, hset, fun hown => (Bool.not_eq_eq_eq_not.mp hown)⟩
    · intro r hr hfalse
      obtain ⟨t, ht, htest⟩ := h.reads r hr hfalse
      exact ⟨t, List.mem_cons_of_mem _ ht, htest⟩
  · have hbook : s.book .testReceived s.vars.received =
        { s with woken := s.woken || s.vars.received.isSet } := by
      simp only [book, Sent.completes, noted, if_neg hread]
      rfl
    rw [hbook]
    exact { h with woken := fun _ hlast => absurd hlast hread }

/-- A read of the status, or of a byte of a result. -/
theorem kept_read {s : Line} {port : UInt16} {x : UInt8} (h : s.Kept)
    (hop : port = FPY_FIFO → IsReadData s.sent.last → s.woken = true) :
    (s.book (.inb port) x).Kept := by
  by_cases hread : port = FPY_FIFO ∧ IsReadData s.sent.last
  · have hbook : s.book (.inb port) x = { s with reads := (!s.ownOwed) :: s.reads } := by
      simp only [book, Sent.completes, noted, if_pos hread]
      rfl
    rw [hbook]
    refine { h with reads := List.forall_mem_cons.mpr ⟨fun hlate => ?_, h.reads⟩ }
    obtain ⟨t, ht, hfound, howed⟩ := h.woken (hop hread.1 hread.2) hread.2
    refine ⟨t, ht, hfound, Bool.eq_false_iff.mpr fun hown => ?_⟩
    rw [howed hown] at hlate
    cases hlate
  · have hbook : s.book (.inb port) x = s := by
      simp only [book, Sent.completes, noted, if_neg hread]
      rfl
    rw [hbook]
    exact h

/-- A byte written. -/
theorem kept_written {s : Line} {port : UInt16} {b : UInt8} (h : s.Kept) :
    (s.book (.outb port b) ()).Kept := by
  by_cases hport : port = FPY_FIFO
  · have hwoken : nextWoken s.woken (.outb port b) () = false := by
      simp only [nextWoken, hport, ne_eq, not_true, decide_false, Bool.and_false]
    cases hc : s.sent.completes (.outb port b) with
    | some cmd =>
      simp only [book, hc, hwoken]
      exact kept_started cmd h
    | none =>
      simp only [book, hc, hwoken, noted]
      exact { h with woken := fun hwoken => by cases hwoken }
  · have hbook : s.book (.outb port b) () = s := by
      have hnone : s.sent.completes (.outb port b) = none := if_neg hport
      simp only [book, Sent.next, hnone, noted, nextWoken, ne_eq, hport, not_false_eq_true,
        decide_true, Bool.and_true, if_false]
    rw [hbook]
    exact h

/-- An operation of the main program keeps the invariant. -/
theorem kept_main {s s' : Line} {op : Op} {x : ops.Ans op} (h : s.Kept)
    (hop : admits (s.sent, s.woken) op) (hm : system.main s op x s') : s'.Kept := by
  obtain ⟨vars, hvars, rfl⟩ := hm
  have keep : vars.received.isSet = s.vars.received.isSet → s.book op x = s →
      ({ s.book op x with vars } : Line).Kept := by
    intro hset hsame
    rw [hsame]
    exact h.of_isSet hset
  cases op with
  | setReceived r =>
    obtain rfl : r = .wait := hop
    obtain rfl : vars = { s.vars with received := .wait } := hvars
    exact { h with account := rfl, delivered := fun hown => by cases hown }
  | testReceived =>
    obtain ⟨rfl, rfl⟩ := hvars
    rw [book_vars]
    exact kept_tested h
  | inb port =>
    obtain rfl : vars = s.vars := hvars
    rw [book_vars]
    exact kept_read h hop
  | outb port b =>
    obtain rfl : vars = s.vars := hvars
    rw [book_vars]
    exact kept_written h
  | get v => exact keep (by rw [hvars.1]) rfl
  | received => exact keep (by rw [hvars.2]) rfl
  | set v y =>
    refine keep ?_ rfl
    rw [show vars = _ from hvars]
    split <;> rfl
  | mark e =>
    obtain rfl : vars = s.vars := hvars
    cases e with
    | send cmd => exact { h with }
    | _ => exact h
  | _ => exact keep (by rw [show vars = s.vars from hvars]) rfl

/-- The handler, from a delivery: it ends with the flag set. -/
theorem kept_handler {s : Line} (h : s.Kept) {t : Line} (hd : system.deliver s t) :
    Follows system.isr (fun _ _ => True) fpyInterruptHandler (fun _ => Kept) t := by
  -- all but the account is kept from the delivery on, and the handler's last assignment keeps it
  have delivered : ∀ {r : Received}, r.isSet = true → ∀ vars : IrqVars, vars.received = r →
      ({ t with vars } : Line).Kept := by
    intro r hr vars hvars
    rcases hd with hd | hd
    · simp only [deliverForeign] at hd
      split at hd
      · cases hd
      · cases hd
        exact { h with account := by rw [hvars, hr, Bool.true_or] }
    · simp only [deliverOwn] at hd
      split at hd
      · cases hd
        refine { h with account := ?_, delivered := fun _ => rfl, woken := ?_ }
        · rw [hvars, hr, Bool.or_true]
        · intro hwoken hread
          obtain ⟨u, hu, hfound, -⟩ := h.woken hwoken hread
          exact ⟨u, hu, hfound, fun _ => rfl⟩
      · cases hd
  have acknowledge : ∀ {vars : IrqVars} {r : Received}, r.isSet = true →
      Follows system.isr (fun _ _ => True) (do setReceived r; outb 0x20 0x20) (fun _ => Kept)
        { t with vars } := by
    intro vars r hr
    refine ⟨trivial, ?_⟩
    rintro _ _ ⟨vars₁, h₁, rfl⟩
    refine ⟨trivial, ?_⟩
    rintro _ _ ⟨vars₂, h₂, rfl⟩
    refine delivered hr vars₂ ?_
    rw [show vars₂ = vars₁ from h₂, show vars₁ = _ from h₁]
  simp only [fpyInterruptHandler, Prog.bind_eq, get_bind, follows_vis]
  refine ⟨trivial, ?_⟩
  rintro st _ ⟨vars, -, rfl⟩
  split
  · refine ⟨trivial, ?_⟩
    rintro _ _ ⟨vars₁, -, rfl⟩
    exact acknowledge rfl
  · have keep : Follows system.isr (fun _ _ => True) fpyCmdCheckInterrupt
        (fun _ u => ∃ vars, u = { t with vars }) { t with vars } := by
      refine command_fpyCmdCheckInterrupt.follows (I := fun u : Line => ∃ vars, u = { t with vars })
        (fun _ _ _ _ => trivial) ?_ ⟨vars, rfl⟩
      rintro _ op x _ - ⟨vars, rfl⟩ ⟨vars₁, -, rfl⟩
      exact ⟨vars₁, rfl⟩
    refine keep.bind ?_
    rintro r _ ⟨vars, rfl⟩
    refine acknowledge ?_
    cases r.error <;> rfl

/-! ### The commands, byte by byte -/

/-- What is left of a command when these are the books: it continues what was written, or all
of it was. -/
def Left (b : Sent) (cmd : List UInt8) : List UInt8 → Prop
  | [] => b = ⟨[], cmd⟩
  | x :: bs => b.got ++ x :: bs = cmd

/-- The next byte of a command. -/
theorem left_next {b : Sent} {cmd bs : List UInt8} {x : UInt8} (hcmd : WholeCommand cmd)
    (h : Left b cmd (x :: bs)) : Left (b.next (.outb FPY_FIFO x)) cmd bs := by
  have hgot : b.got ++ x :: bs = cmd := h
  subst hgot
  cases bs with
  | nil =>
    have hc : b.completes (.outb FPY_FIFO x) = some (b.got ++ [x]) := by
      rw [Sent.completes, if_pos rfl, Phase.completes_last hcmd]
    simp only [Left, Sent.next, hc]
  | cons y ys =>
    have hc : b.completes (.outb FPY_FIFO x) = none := by
      rw [Sent.completes, if_pos rfl, Phase.completes_of_lt hcmd]
    simp only [Left, Sent.next, hc, if_true, List.append_assoc, List.cons_append, List.nil_append]

/-- A walk of the main program. -/
abbrev Books {α : Type} (p : Code α) (Q : α → Sent × Bool → Prop) (b : Sent × Bool) : Prop :=
  Follows books admits p Q b

/-- Operations that neither set the flag nor test it, and read no byte. -/
def isPlain : Op → Prop
  | .setReceived r => r = .wait
  | .testReceived => False
  | .inb port => port ≠ FPY_FIFO
  | _ => True

theorem admits_of_isPlain {b : Sent × Bool} {op : Op} (h : isPlain op) : admits b op := by
  cases op with
  | setReceived r => exact h
  | testReceived => cases h
  | inb port => exact fun hport => absurd hport h
  | _ => trivial

/-- What follows plain code may start from anything. -/
theorem books_then {α β : Type} {p : Code α} {k : α → Code β} {Q : β → Sent × Bool → Prop}
    (h : Only isPlain p) {b : Sent × Bool} (hk : ∀ a b, Books (k a) Q b) : Books (p.bind k) Q b := by
  have walk : Books p (fun _ _ => True) b :=
    h.follows (fun _ _ hop _ => admits_of_isPlain hop) (fun _ _ _ _ _ _ _ => trivial) trivial
  exact walk.bind fun a b _ => hk a b

/-- One byte: written, or an error. -/
theorem books_byteLoop {cmd bs : List UInt8} {x : UInt8} (hcmd : WholeCommand cmd) {b : Sent × Bool}
    (hb : Left b.1 cmd (x :: bs)) : ∀ n : Nat,
      Books (fpySendCommandByteLoop x n) (fun e b' => e = noErr → Left b'.1 cmd bs) b
  | 0 => fun h => by cases h
  | n + 1 => by
    have other : FPY_MSR ≠ FPY_FIFO := by decide
    simp only [fpySendCommandByteLoop, fpyReadStatus, Prog.bind_eq, inb_bind]
    refine follows_to (δ := fun _ => b) (fun h => absurd h other) (fun _ _ h => h) fun a => ?_
    split
    · exact follows_to trivial (fun _ _ h => h) fun _ _ => left_next hcmd hb
    · exact books_byteLoop hcmd hb n

/-- A wait for the status. -/
theorem books_poll {b : Sent × Bool} {k : UInt8 → Code ErrT} {Q : ErrT → Sent × Bool → Prop}
    (hk : ∀ a, Books (k a) Q b) : Books (.poll (S := ops) (.inb FPY_MSR) mrq k) Q b := by
  have other : FPY_MSR ≠ FPY_FIFO := by decide
  refine follows_poll (fun b' => b' = b) rfl (fun _ _ h => absurd h other) ?_ ?_
  · rintro t a _ rfl rfl -
    exact hk a
  · rintro t a _ rfl rfl -
    rfl

/-- The bytes that are left: all of them, or an error. -/
theorem books_loop {cmd : List UInt8} (hcmd : WholeCommand cmd) (msr : UInt8) (wait : Bool) :
    ∀ (bs : List UInt8) {b : Sent × Bool}, Left b.1 cmd bs →
      Books (fpySendCommandLoop msr wait bs) (fun e b' => e = noErr → b'.1 = ⟨[], cmd⟩) b
  | [], b, hb => by
    cases wait with
    | true => exact books_poll fun _ _ => hb
    | false => exact fun _ => hb
  | x :: bs, b, hb => by
    refine books_poll fun a => ?_
    split
    · intro h
      cases h
    · refine (books_byteLoop hcmd hb 1000).bind fun e b' hb' => ?_
      cases e with
      | some e =>
        intro h
        cases h
      | none => exact books_loop hcmd msr wait bs (hb' rfl)

/-- A command: written whole, or an error. -/
theorem books_fpySendCommand {cmd : List UInt8} (hcmd : WholeCommand cmd) (wait : Bool)
    (b : Sent × Bool) :
    Books (fpySendCommand cmd wait) (fun e b' => e = noErr → b'.1 = ⟨[], cmd⟩) b := by
  have other : FPY_MSR ≠ FPY_FIFO := by decide
  refine follows_to (δ := fun _ => ({ b.1 with got := [] }, b.2)) trivial (fun _ _ h => h) fun _ => ?_
  have left : Left { b.1 with got := [] } cmd cmd := by
    cases cmd with
    | nil => exact absurd rfl hcmd.1
    | cons x bs => rfl
  have body : Books (fpySendCommandBody cmd wait) (fun e b' => e = noErr → b'.1 = ⟨[], cmd⟩)
      ({ b.1 with got := [] }, b.2) := by
    simp only [fpySendCommandBody, fpyReadStatus, Prog.bind_eq, inb_bind]
    refine follows_to (δ := fun _ => ({ b.1 with got := [] }, b.2)) (fun h => absurd h other)
      (fun _ _ h => h) fun msr => ?_
    split
    · intro h
      cases h
    · exact books_loop hcmd msr wait cmd left
  refine Follows.bind (p := fpySendCommandBody cmd wait) body fun e b' hb' => ?_
  exact follows_to trivial (fun _ _ h => h) fun _ => hb'

/-- The flag read, and cleared. -/
def clears : Op → Prop
  | .received => True
  | .setReceived r => r = .wait
  | _ => False

theorem clears_irqErr : Only clears irqErr := by
  simp only [irqErr, Prog.bind_eq, received_bind, only_vis]
  refine ⟨trivial, fun r => ?_⟩
  split
  · exact ⟨trivial, fun _ => trivial⟩
  · trivial

/-- The wait, with a whole command written: the flag was found set when it is over. -/
theorem books_fpyWaitIrq {b : Sent × Bool} (hgot : b.1.got = [])
    (hlast : IsReadData b.1.last ∨ IsCalibrate b.1.last) :
    Books fpyWaitIrq (fun _ b' => b'.1 = b.1 ∧ b'.2 = true) b := by
  refine follows_poll (fun b' => b'.1 = b.1) rfl (fun b' hb' => ?_) ?_ ?_
  · exact ⟨by rw [hb', hgot], by rw [hb']; exact hlast⟩
  · rintro t a _ ht rfl hready
    have rest : Only clears (irqErr.bind fun err => (setReceived .wait).bind fun _ => .pure err) :=
      clears_irqErr.bind fun _ => ⟨rfl, fun _ => trivial⟩
    refine rest.follows (I := fun b' : Sent × Bool => b'.1 = b.1 ∧ b'.2 = true) ?_ ?_ ?_
    · intro b' op hop _
      cases op with
      | received => trivial
      | setReceived r => exact hop
      | _ => cases hop
    · rintro b' op x _ hop hb' rfl
      cases op with
      | received | setReceived r => exact hb'
      | _ => cases hop
    · exact ⟨ht, by simp [nextWoken, show a.isSet = true from hready]⟩
  · rintro t a _ ht rfl -
    exact ht

/-- A result read after the wait. -/
theorem books_fpyCmdGenRes {b : Sent × Bool} (hb : b.2 = true) :
    Books fpyCmdGenRes (fun _ _ => True) b := by
  have input : Only (fun op : Op => op.isInput ∨ ∃ e, op = .mark (.checked e)) fpyCmdGenRes :=
    only_fpyCmdGenRes (fun _ => .inl) fun e => .inr ⟨e, rfl⟩
  refine (input.follows (I := fun b : Sent × Bool => b.2 = true) ?_ ?_ hb).mono fun _ _ _ => trivial
  · rintro b' op (hop | ⟨e, rfl⟩) hb'
    · cases op with
      | inb port => exact fun _ _ => hb'
      | _ => cases hop
    · trivial
  · rintro b' op x _ (hop | ⟨e, rfl⟩) hb' rfl
    · cases op with
      | inb port => exact hb'
      | _ => cases hop
    · exact hb'

theorem books_fpyCmdReadSector (p : FpyCmdReadSectorParams) (b : Sent × Bool) :
    Books (fpyCmdReadSector p) (fun _ _ => True) b := by
  have prepare : Only isPlain fpyPrepareIrqNoHandle := ⟨trivial, fun _ => trivial⟩
  have whole : WholeCommand (p.cmd .readSect) := (p.isTransfer (.inl rfl)).1
  refine books_then prepare fun _ b => (books_fpySendCommand whole true b).bind fun e b hb => ?_
  cases e with
  | some e => trivial
  | none =>
    have hsent := hb rfl
    have hread : IsReadData b.1.last := by
      rw [hsent]
      exact p.isReadData
    refine (books_fpyWaitIrq (by rw [hsent]) (.inl hread)).bind fun _ b' hb' => ?_
    exact books_fpyCmdGenRes hb'.2

theorem plain_lbaToChs (lba : UInt32) : Only isPlain (lbaToChs lba) := by
  refine (arith_lbaToChs lba).mono fun op hop => ?_
  cases op with
  | get v | divideError => trivial
  | _ => cases hop

theorem plain_get (v : Var) : Only isPlain (Code.get v) := ⟨trivial, fun _ => trivial⟩

theorem books_readOneSector (sector : UInt8) (b : Sent × Bool) :
    Books (readOneSector sector) (fun _ _ => True) b := by
  refine books_then (plain_lbaToChs _) fun a b => books_then (plain_get _) fun drive b => ?_
  have whole : WholeCommand (FpyCmdSeekHeadParams.cmd ⟨drive, a.h.toUInt8, a.c.toUInt8⟩) :=
    wholeCommand_cons rfl
  refine Follows.bind (p := fpyCmdSeekHead _) (books_fpySendCommand whole true b) fun e b _ => ?_
  cases e with
  | some e => trivial
  | none =>
    refine books_then (plain_get _) fun _ b => books_then (plain_get _) fun _ b => ?_
    exact (books_fpyCmdReadSector _ b).bind fun _ _ _ => trivial

theorem books_fpyCopyBytes (sector : UInt8) (dest : Nat) (count : Int) (b : Sent × Bool) :
    Books (fpyCopyBytes sector dest count) (fun _ _ => True) b := by
  have loop : ∀ b, Books (fpyCopyBytesLoop sector dest count) (fun _ _ => True) b := by
    induction sector, dest, count using fpyCopyBytesLoop.induct with
    | case1 sector dest count hpos ih =>
      intro b
      rw [fpyCopyBytesLoop, if_pos hpos]
      refine (books_readOneSector sector b).bind fun e b _ => ?_
      cases e with
      | some e => trivial
      | none =>
        have copy : Only isPlain (copySector dest (copyCount count) 0) :=
          only_copySector (fun _ => trivial) _ 0 fun _ _ _ _ => trivial
        exact books_then copy fun _ => ih
    | case2 sector dest count hpos =>
      intro b
      rw [fpyCopyBytesLoop, if_neg hpos]
      trivial
  exact (loop b).bind fun e _ _ => ⟨trivial, fun _ _ _ => trivial⟩

/-- A step of `floppy_init` that is returned from on an error. -/
theorem books_orReturn {p : Code ErrT} {k : Code Unit} {R : Sent × Bool → Prop} {b : Sent × Bool}
    (hp : Books p (fun e b' => e = noErr → R b') b)
    (hk : ∀ b', R b' → Books k (fun _ _ => True) b') :
    Books (orReturn p k) (fun _ _ => True) b := by
  refine hp.bind fun e b' hb' => ?_
  cases e with
  | some e => trivial
  | none => exact hk b' (hb' rfl)

theorem books_floppyCalibrate (b : Sent × Bool) :
    Books floppyCalibrate (fun _ _ => True) b := by
  have calibrate : ∀ (p : FpyCmdHeadParam) (b : Sent × Bool), Books (fpyCmdCalibrateDrive p)
      (fun e b' => e = noErr → b'.1.got = [] ∧ IsCalibrate b'.1.last) b := by
    intro p b
    have whole : WholeCommand [FpyCmd.calibrate.val, driveHead p.drive p.headNumber] :=
      wholeCommand_cons rfl
    refine (books_fpySendCommand whole false b).mono fun e b' hb' he => ?_
    rw [hb' he]
    exact ⟨rfl, rfl⟩
  have waited : ∀ {b : Sent × Bool}, b.1.got = [] ∧ IsCalibrate b.1.last →
      Books fpyWaitIrq (fun e _ => e = noErr → True) b :=
    fun hb => (books_fpyWaitIrq hb.1 (.inr hb.2)).mono fun _ _ _ _ => trivial
  refine books_then (plain_get _) fun drive b => ?_
  refine books_orReturn (calibrate _ b) fun b hb => books_orReturn (waited hb) fun b _ => ?_
  exact books_orReturn (calibrate _ b) fun b hb => books_orReturn (waited hb) fun _ _ => trivial

/-- VERSION is one byte, and its answer is not a READ's result. -/
theorem books_fpyCmdCheckVersion {b : Sent × Bool} (hb : b.1.got = []) :
    Books fpyCmdCheckVersion (fun e _ => e = noErr → True) b := by
  have whole : WholeCommand [FpyCmd.version.val] := wholeCommand_cons (by decide)
  have left : Left b.1 [FpyCmd.version.val] [FpyCmd.version.val] := by
    rw [Left, hb, List.nil_append]
  refine Follows.bind (p := fpySendCommandByte _) (books_byteLoop whole left 1000) fun e b' hb' => ?_
  cases e with
  | some e => exact fun _ => trivial
  | none =>
    have hlast : ¬ IsReadData b'.1.last := by
      rw [show b'.1 = ⟨[], [FpyCmd.version.val]⟩ from hb' rfl]
      exact not_isReadData (by decide)
    have read : Books fpyReadData (fun _ _ => True) b' := by
      refine (input_fpyReadData.follows (I := fun b : Sent × Bool => ¬ IsReadData b.1.last) ?_ ?_
        hlast).mono fun _ _ _ => trivial
      · intro b op hop hb
        cases op with
        | inb port => exact fun _ hread => absurd hread hb
        | _ => cases hop
      · rintro b op x _ hop hb rfl
        cases op with
        | inb port => exact hb
        | _ => cases hop
    refine read.bind fun a _ _ => ?_
    split <;> exact fun _ => trivial

theorem books_floppyInit {b : Sent × Bool} (hb : b.1.got = []) :
    Books floppyInit (fun _ _ => True) b := by
  have setup : Books fpySetupIdt (fun _ b' => b' = b) b :=
    ⟨rfl, fun _ _ h => ⟨trivial, fun _ _ h' => h'.trans h⟩⟩
  have dsr : Only isPlain (fpyWriteDsr 3) := ⟨trivial, fun _ => trivial⟩
  have motor : Only isPlain fpyMotorEnable :=
    ⟨trivial, fun _ => ⟨trivial, fun _ => ⟨trivial, fun _ => trivial⟩⟩⟩
  refine setup.to fun _ => books_orReturn (books_fpyCmdCheckVersion hb) fun b _ => ?_
  refine books_then dsr fun _ b => books_then motor fun _ b => ?_
  refine books_orReturn (p := fpyCmdFixDriveData _)
    (books_fpySendCommand (wholeCommand_cons rfl) true b) fun b _ => ?_
  exact books_orReturn (p := fpyCmdConfigure _)
    (books_fpySendCommand (wholeCommand_cons rfl) true b) fun b _ => books_floppyCalibrate b

/-- Copies one after another, each with its sector, destination and count. -/
def runCopies : List (UInt8 × Nat × Int) → Code Unit
  | [] => return ()
  | (sector, dest, count) :: copies => do
    let _ ← fpyCopyBytes sector dest count
    runCopies copies

/-- `floppy_init`, and copies after it. -/
def initAndCopies (copies : List (UInt8 × Nat × Int)) : Code Unit := do
  floppyInit
  runCopies copies

theorem books_initAndCopies (copies : List (UInt8 × Nat × Int)) {b : Sent × Bool}
    (hb : b.1.got = []) : Books (initAndCopies copies) (fun _ _ => True) b := by
  have rest : ∀ (copies : List (UInt8 × Nat × Int)) (b : Sent × Bool),
      Books (runCopies copies) (fun _ _ => True) b := by
    intro copies
    induction copies with
    | nil => exact fun _ => trivial
    | cons c copies ih => exact fun b => (books_fpyCopyBytes _ _ _ b).bind fun _ b _ => ih b
  exact (books_floppyInit hb).bind fun _ b _ => rest copies b

/-! ## The law -/

/-- THE LAW of the wake-ups. A READ's wait ends only with the READ's own interrupt delivered,
and so is every byte of its result read, exactly when at no test of the flag another
command's interrupt had come since it was cleared, and not the READ's own; and the flag is
tested only with a whole command written, a CALIBRATE or a READ. -/
theorem wakes_by_own_iff {copies : List (UInt8 × Nat × Int)} {vars : IrqVars} {p' : Code Unit}
    {s : Line} (run : system.Reach (.main (initAndCopies copies), start vars) (.main p', s)) :
    (((∀ t ∈ s.tests, t.found = true → t.own = true) ∧ ∀ r ∈ s.reads, r = true) ↔
      ∀ t ∈ s.tests, t.foreign = true → t.own = true) ∧
    ∀ ready k, p' = .poll (S := ops) .testReceived ready k →
      s.sent.got = [] ∧ (IsReadData s.sent.last ∨ IsCalibrate s.sent.last) := by
  have keeps : system.Keeps (fun s : Line => (s.sent, s.woken)) books admits (fun _ _ => True) Kept
      (fun (_ : Unit) _ => True) (.main p', s) := by
    refine System.invariant ?_ ?_ ?_ kept_main (fun h hd => kept_handler h hd) (kept_start vars)
      (books_initAndCopies copies rfl) run
    · rintro s op x s' ⟨vars, -, rfl⟩
      rfl
    · rintro s op x s' ⟨vars, -, rfl⟩
      rfl
    · rintro s s' (h | h)
      · simp only [deliverForeign] at h
        split at h
        · cases h
        · cases h
          rfl
      · simp only [deliverOwn] at h
        split at h
        · cases h
          rfl
        · cases h
  obtain ⟨h, walk⟩ := keeps
  refine ⟨⟨?_, ?_⟩, ?_⟩
  · rintro ⟨owned, -⟩ t ht hforeign
    exact owned t ht ((h.tests t ht).1 hforeign)
  · intro first
    have owned : ∀ t ∈ s.tests, t.found = true → t.own = true := fun t ht hfound =>
      ((h.tests t ht).2 hfound).elim (first t ht) id
    refine ⟨owned, fun r hr => ?_⟩
    by_contra hearly
    obtain ⟨t, ht, hfound, hown⟩ := h.reads r hr (Bool.eq_false_iff.mpr hearly)
    rw [owned t ht hfound] at hown
    cases hown
  · rintro ready k rfl
    obtain ⟨I, hI, hwalk⟩ := walk
    exact (hwalk _ hI).1

/-! ## Runs computed -/

/-- A controller that is always ready and whose FIFO reads the version number; an interrupt is
the last command's own or another's. -/
def player : Player ops Line Bool where
  main s op := (IrqVars.sim (IrqVars.alwaysReady 0x90) id IrqVars.goodDrive s.vars op).map fun r =>
    (r.1, { s.book op r.1 with vars := r.2 })
  isr s op := (IrqVars.sim (IrqVars.alwaysReady 0) id IrqVars.goodDrive s.vars op).map fun r =>
    (r.1, { s with vars := r.2 })
  deliver s own := if own then s.deliverOwn else s.deliverForeign

theorem player_sound : player.Sound system where
  main h := by
    obtain ⟨r, hr, heq⟩ := Option.map_eq_some_iff.mp h
    cases heq
    exact ⟨_, IrqVars.sim_sound _ _ _ hr, rfl⟩
  isr h := by
    obtain ⟨r, hr, heq⟩ := Option.map_eq_some_iff.mp h
    cases heq
    exact ⟨_, IrqVars.sim_sound _ _ _ hr, rfl⟩
  deliver {s own s'} h := by
    cases own with
    | true => exact .inr h
    | false => exact .inl h

/-- `floppy_init`, and a copy of one byte. -/
def oneCopy : Control ops Unit × Line := (.main (initAndCopies [(0, 0x7000, 1)]), start {})

/-- Both CALIBRATEs are answered while they are waited for; at the READ's wait an interrupt is
delivered, its own or another's, and its result is begun. -/
def interruptRead (own : Bool) : List (Move Bool) :=
  .replicate 49 .step ++ .deliver true :: .replicate 28 .step
    ++ .deliver true :: .replicate 72 .step ++ .deliver own :: .replicate 11 .step

/-- The main program has control, in a state that passes a test. -/
def atMain (test : Line → Bool) : Control ops Unit × Line → Bool
  | (.main _, s) => test s
  | (.isr _ _, _) => false

/-- A run to such a state. -/
theorem exists_main {ms : List (Move Bool)} {test : Line → Bool}
    (h : (system.play player ms oneCopy).any (atMain test) = true) :
    ∃ p' s, system.Reach oneCopy (.main p', s) ∧ test s = true := by
  obtain ⟨⟨ctl, s⟩, run, ht⟩ := System.exists_of_play player_sound h
  match ctl, ht with
  | .main p', ht => exact ⟨p', s, run, ht⟩

set_option maxRecDepth 4000 in
/-- The READ's own interrupt comes first: the law applies, and its result is read after it. -/
theorem own_interrupt_wakes : ∃ p' s, system.Reach oneCopy (.main p', s) ∧
    s.tests = [⟨true, false, true⟩] ∧ s.reads = [true] ∧
    (((∀ t ∈ s.tests, t.found = true → t.own = true) ∧ ∀ r ∈ s.reads, r = true) ↔
      ∀ t ∈ s.tests, t.foreign = true → t.own = true) ∧
    ∀ ready k, p' = .poll (S := ops) .testReceived ready k →
      s.sent.got = [] ∧ (IsReadData s.sent.last ∨ IsCalibrate s.sent.last) := by
  have hplay : (system.play player (interruptRead true) oneCopy).any (atMain fun s =>
      s.tests = [⟨true, false, true⟩] ∧ s.reads = [true]) = true := by
    simp only [oneCopy, initAndCopies, runCopies, fpyCopyBytes_one]
    decide
  obtain ⟨p', s, run, ht⟩ := exists_main hplay
  obtain ⟨htests, hreads⟩ := of_decide_eq_true ht
  exact ⟨p', s, run, htests, hreads, wakes_by_own_iff run⟩

set_option maxRecDepth 4000 in
/-- The SEEK's interrupt comes while the READ is waited for: the flag is found set, and the
result read, while the READ's own is still owed. -/
theorem seek_interrupt_wakes_read : ¬ ∀ (copies : List (UInt8 × Nat × Int)) (vars : IrqVars)
    (p' : Code Unit) (s : Line), system.Reach (.main (initAndCopies copies), start vars) (.main p', s) →
    (∀ t ∈ s.tests, t.found = true → t.own = true) ∧ ∀ r ∈ s.reads, r = true := by
  intro h
  have hplay : (system.play player (interruptRead false) oneCopy).any (atMain fun s =>
      s.tests = [⟨true, true, false⟩] ∧ s.reads = [false]) = true := by
    simp only [oneCopy, initAndCopies, runCopies, fpyCopyBytes_one]
    decide
  obtain ⟨p', s, run, ht⟩ := exists_main hplay
  obtain ⟨-, hreads⟩ := of_decide_eq_true ht
  have early := (h [(0, 0x7000, 1)] {} p' s run).2 false (by simp [hreads])
  cases early

end Line

end ToyBootloader
