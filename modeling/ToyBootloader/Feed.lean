import ToyBootloader.Resumption.Simulate
import ToyBootloader.Resumption.Waiting
import ToyBootloader.Shared.Floppy

/-!
# The controller as two streams

Seen from the driver's byte functions the controller is a stream of main status
register values and a stream of FIFO bytes: every read of `FPY_MSR` answers the
next of the one, every read of `FPY_FIFO` the next of the other. Nothing relates
the two, so a property of every pair of streams is one of every controller,
including one that contradicts itself.

A run leaves a log of what passed, newest first: what came before an item is
the rest of the list behind it.
-/

namespace ToyBootloader

open Resumption

/-- What passes between the driver and the controller. -/
inductive Item where
  /-- The main status register was read. -/
  | status (v : UInt8)
  /-- The FIFO was read. -/
  | data (v : UInt8)
  /-- The FIFO was written. -/
  | write (b : UInt8)
  deriving DecidableEq, Repr

/-- The bytes written, in the order they were. -/
def written : List Item → List UInt8
  | [] => []
  | .write b :: log => written log ++ [b]
  | _ :: log => written log

theorem written_append (later log : List Item) :
    written (later ++ log) = written log ++ written later := by
  induction later with
  | nil => exact (List.append_nil _).symm
  | cons i later ih =>
    cases i with
    | write b => simp only [List.cons_append, written, ih, List.append_assoc]
    | status v | data v => exact ih

/-- The bytes read from the FIFO, in the order they were. -/
def readBytes : List Item → List UInt8
  | [] => []
  | .data v :: log => readBytes log ++ [v]
  | _ :: log => readBytes log

theorem readBytes_append (later log : List Item) :
    readBytes (later ++ log) = readBytes log ++ readBytes later := by
  induction later with
  | nil => exact (List.append_nil _).symm
  | cons i later ih =>
    cases i with
    | data v => simp only [List.cons_append, readBytes, ih, List.append_assoc]
    | status v | write b => exact ih

/-- The statuses read since the last byte was written. -/
def sinceWrite : List Item → List UInt8
  | .status v :: log => v :: sinceWrite log
  | .data _ :: log => sinceWrite log
  | _ => []

/-- The status that was read last. -/
def lastStatus : List Item → Option UInt8
  | [] => none
  | .status v :: _ => some v
  | _ :: log => lastStatus log

/-- Before every item of the kind `K`, `R` of what had passed until then. -/
def Before (K : Item → Prop) (R : List Item → Prop) (log : List Item) : Prop :=
  ∀ later i earlier, log = later ++ i :: earlier → K i → R earlier

theorem before_nil {K : Item → Prop} {R : List Item → Prop} : Before K R [] := by
  intro later i earlier h
  cases later <;> cases h

theorem before_cons {K : Item → Prop} {R : List Item → Prop} {i : Item} {log : List Item} :
    Before K R (i :: log) ↔ (K i → R log) ∧ Before K R log := by
  constructor
  · intro h
    exact ⟨h [] i log rfl, fun later j earlier heq => h (i :: later) j earlier (heq ▸ rfl)⟩
  · rintro ⟨hi, h⟩ later j earlier heq hj
    cases later with
    | nil =>
      cases heq
      exact hi hj
    | cons k later => exact h later j earlier (List.cons.inj heq).2 hj

/-- A byte written. -/
def Item.isWrite : Item → Prop
  | .write _ => True
  | _ => False

/-- A byte read from the FIFO. -/
def Item.isData : Item → Prop
  | .data _ => True
  | _ => False

/-- The last thing that passed was a status that asserted `mrq`. -/
def ReadyOnTop (log : List Item) : Prop := ∃ v rest, log = .status v :: rest ∧ mrq v = true

/-- The two streams. -/
structure Feed where
  status : Nat → UInt8
  data : Nat → UInt8

/-- How much of the streams was read, and the log. -/
structure Traffic where
  statuses : Nat := 0
  bytes : Nat := 0
  log : List Item := []
  deriving DecidableEq, Repr

namespace Feed

/-- The status register is read. -/
def look (f : Feed) (s : Traffic) : Traffic :=
  { s with statuses := s.statuses + 1, log := .status (f.status s.statuses) :: s.log }

/-- The FIFO is read. -/
def take (f : Feed) (s : Traffic) : Traffic :=
  { s with bytes := s.bytes + 1, log := .data (f.data s.bytes) :: s.log }

/-- The FIFO is written. -/
def put (b : UInt8) (s : Traffic) : Traffic := { s with log := .write b :: s.log }

/-- The answers of the streams. The byte functions perform no other operation. -/
def sim (f : Feed) : Simulator ops Traffic := fun s op =>
  match op with
  | .inb port =>
    if port = FPY_MSR then some (f.status s.statuses, f.look s)
    else if port = FPY_FIFO then some (f.data s.bytes, f.take s)
    else none
  | .outb port b => if port = FPY_FIFO then some ((), put b s) else none
  | .mark _ => some ((), s)
  | _ => none

/-- The controller whose statuses and bytes are those of `f`. -/
abbrev machine (f : Feed) : Machine ops Traffic := f.sim.machine

/-- The same controller under a program that does more than talk to it: what is
none of the controller's is answered in any way. -/
def device (f : Feed) : Machine ops Traffic := fun s op =>
  match op with
  | .inb port => fun x s' =>
    if port = FPY_MSR then x = f.status s.statuses ∧ s' = f.look s
    else if port = FPY_FIFO then x = f.data s.bytes ∧ s' = f.take s
    else s' = s
  | .outb port b => fun _ s' => s' = if port = FPY_FIFO then put b s else s
  | _ => fun _ s' => s' = s

/-- `m` statuses from the `n`th on do not assert `mrq`, and the next does. -/
def Ready (f : Feed) (n m : Nat) : Prop := First (fun l => mrq (f.status (n + l))) m

variable {f : Feed} {s s' : Traffic}

theorem settles_status (f : Feed) :
    Settles f.machine (.inb FPY_MSR) (fun s => f.status s.statuses) f.look :=
  fun _ _ _ => Simulator.machine_iff rfl

theorem machine_status {x : UInt8} :
    f.machine s (.inb FPY_MSR) x s' ↔ x = f.status s.statuses ∧ s' = f.look s :=
  settles_status f s x s'

theorem machine_data {x : UInt8} :
    f.machine s (.inb FPY_FIFO) x s' ↔ x = f.data s.bytes ∧ s' = f.take s :=
  Simulator.machine_iff rfl

theorem machine_write {b : UInt8} {u : Unit} :
    f.machine s (.outb FPY_FIFO b) u s' ↔ s' = put b s :=
  (Simulator.machine_iff rfl).trans (and_iff_right rfl)

theorem machine_mark {e : Event} {u : Unit} : f.machine s (.mark e) u s' ↔ s' = s :=
  (Simulator.machine_iff rfl).trans (and_iff_right rfl)

/-! What is read of the statuses changes the place in their stream, and the log
by what does not count as a byte. -/

@[simp] theorem statuses_look : (f.look s).statuses = s.statuses + 1 := rfl

@[simp] theorem statuses_take : (f.take s).statuses = s.statuses := rfl

@[simp] theorem statuses_put (b : UInt8) : (put b s).statuses = s.statuses := rfl

@[simp] theorem bytes_take : (f.take s).bytes = s.bytes + 1 := rfl

@[simp] theorem statuses_looks (m : Nat) : (f.look^[m] s).statuses = s.statuses + m :=
  iterate_counts f.look Traffic.statuses (fun _ => rfl) m s

@[simp] theorem bytes_looks (m : Nat) : (f.look^[m] s).bytes = s.bytes :=
  iterate_keeps f.look Traffic.bytes (fun _ => rfl) m s

@[simp] theorem written_looks (m : Nat) : written (f.look^[m] s).log = written s.log :=
  iterate_keeps f.look (fun s => written s.log) (fun _ => rfl) m s

@[simp] theorem readBytes_looks (m : Nat) : readBytes (f.look^[m] s).log = readBytes s.log :=
  iterate_keeps f.look (fun s => readBytes s.log) (fun _ => rfl) m s

/-- The status read last is on top of the log. -/
theorem log_looks_succ (m : Nat) : (f.look^[m + 1] s).log =
    .status (f.status (s.statuses + m)) :: (f.look^[m] s).log := by
  rw [Function.iterate_succ_apply', look, statuses_looks]

/-- What holds before every item of a kind holds with more statuses on the log. -/
theorem before_looks {K : Item → Prop} {R : List Item → Prop} (hK : ∀ v, ¬ K (.status v))
    (h : Before K R s.log) (m : Nat) : Before K R (f.look^[m] s).log := by
  induction m with
  | zero => exact h
  | succ m ih =>
    rw [log_looks_succ]
    exact before_cons.mpr ⟨fun hi => absurd hi (hK _), ih⟩

/-- A wait that is over leaves its last status on top. -/
theorem Ready.onTop {m : Nat} (h : f.Ready s.statuses m) : ReadyOnTop (f.look^[m + 1] s).log :=
  ⟨_, _, log_looks_succ m, h.here⟩

theorem passes_mrq (f : Feed) (s : Traffic) :
    @passes ops Traffic (.inb FPY_MSR) mrq (fun s => f.status s.statuses) f.look s =
      fun l => mrq (f.status (s.statuses + l)) := by
  funext l
  simp only [passes, statuses_looks]

end Feed

end ToyBootloader
