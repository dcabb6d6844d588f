import ToyBootloader.Feed
import ToyBootloader.Laws.Footprint
import ToyBootloader.Resumption.Frame

/-!
# The controller's streams and the interrupt's pointer

A command that waits for its interrupt looks at a third thing besides the status
and the FIFO: the pointer `fpy_irq_received`. Every read of it answers the next
of a stream of its own, as every read of a port does. Nothing relates the three
streams, so the handler may have run, and assigned the pointer, between any two
reads of it.

What the byte functions do is the same with the pointer as without
(`exec_framed`): the laws of `Feed` hold here.
-/

namespace ToyBootloader

open Resumption

/-- The three streams. -/
structure Attended extends Feed where
  pointer : Nat → Received

namespace Attended

/-- What was read of the two streams of ports and the log, and how often the
pointer was read. -/
abbrev State := Traffic × Nat

/-- The answers of the streams. What the driver assigns to the interrupt's globals
shows in the pointer's stream, if it shows at all. -/
def sim (a : Attended) : Simulator ops State := fun s op =>
  match op with
  | .received => some (a.pointer s.2, (s.1, s.2 + 1))
  | .testReceived => some (a.pointer s.2, (s.1, s.2 + 1))
  | .setReceived _ => some ((), s)
  | .set _ _ => some ((), s)
  | op => (a.toFeed.sim s.1 op).map fun r => (r.1, (r.2, s.2))

abbrev machine (a : Attended) : Machine ops State := a.sim.machine

/-- `fpy_irq_received` is set for the first time at the `m`th read after the `n`th. -/
def Woken (a : Attended) (n m : Nat) : Prop := First (fun l => (a.pointer (n + l)).isSet) m

/-- What `fpy_wait_irq` makes of the pointer after its wait, the `n`th read of it
being the next. -/
def waitErr (a : Attended) (n : Nat) : ErrT :=
  if a.pointer n ≠ .ok then (a.pointer (n + 1)).toErr else noErr

variable {a : Attended} {s s' : Traffic} {n : Nat} {c : State} {e : ErrT}

/-- The pointer is in nobody's way. -/
theorem frames (a : Attended) : Frames Op.isFifoCommand a.machine a.toFeed.machine := by
  have lifted : ∀ {α : Type} (r : Option (α × Traffic)) (x : α) (c : State) (t : Nat),
      (r.map fun q => (q.1, (q.2, t))) = some (x, c) ↔ r = some (x, c.1) ∧ c.2 = t := by
    intro α r x c t
    rw [Option.map_eq_some_iff]
    constructor
    · rintro ⟨q, rfl, heq⟩
      cases heq
      exact ⟨rfl, rfl⟩
    · rintro ⟨rfl, rfl⟩
      exact ⟨_, rfl, rfl⟩
  intro s t op x c hop
  cases op with
  | inb port => exact lifted (a.toFeed.sim s (.inb port)) x c t
  | outb port v => exact lifted (a.toFeed.sim s (.outb port v)) x c t
  | mark e => exact lifted (a.toFeed.sim s (.mark e)) x c t
  | _ => cases hop

/-- A function of the driver that only talks to the controller runs as it does
without the pointer. -/
theorem exec_framed {α : Type} {p : Code α} (talks : Talks p) {x : α} :
    Exec a.machine p (s, n) x c ↔ Exec a.toFeed.machine p s x c.1 ∧ c.2 = n :=
  exec_frame (frames a) talks

/-- The reads of the pointer take the next of its stream. -/
theorem settles_pointer (a : Attended) :
    Settles a.machine .testReceived (fun s => a.pointer s.2) fun s => (s.1, s.2 + 1) :=
  fun _ _ _ => Simulator.machine_iff rfl

theorem settles_received (a : Attended) :
    Settles a.machine .received (fun s => a.pointer s.2) fun s => (s.1, s.2 + 1) :=
  fun _ _ _ => Simulator.machine_iff rfl

theorem machine_setReceived {r : Received} {u : Unit} :
    a.machine (s, n) (.setReceived r) u c ↔ c = (s, n) :=
  (Simulator.machine_iff rfl).trans (and_iff_right rfl)

private theorem iterate_pointer (m : Nat) :
    (fun s : State => (s.1, s.2 + 1))^[m] (s, n) = (s, n + m) := by
  induction m with
  | zero => rfl
  | succ m ih => rw [Function.iterate_succ_apply', ih, Nat.add_assoc]

/-- The pointer read after the wait, and once more where it is not the one that
says ok. -/
theorem exec_irqErr : Exec a.machine irqErr (s, n) e c ↔
    e = a.waitErr n ∧ c = (s, if a.pointer n ≠ .ok then n + 2 else n + 1) := by
  have first : Exec a.machine irqErr (s, n) e c ↔ Exec a.machine
      (if a.pointer n ≠ .ok then .vis (S := ops) .received fun r => .pure r.toErr
        else .pure noErr) (s, n + 1) e c := by
    unfold irqErr
    rw [Prog.bind_eq, Code.received_bind]
    exact (settles_received a).exec_vis
  rw [first, waitErr]
  by_cases hok : a.pointer n ≠ .ok
  · rw [if_pos hok, if_pos hok, if_pos hok]
    exact (settles_received a).exec_vis.trans exec_pure
  · rw [if_neg hok, if_neg hok, if_neg hok]
    exact exec_pure

theorem passes_isSet (a : Attended) (s : Traffic) (n : Nat) :
    @passes ops State .testReceived Received.isSet (fun s => a.pointer s.2)
      (fun s => (s.1, s.2 + 1)) (s, n) = fun l => (a.pointer (n + l)).isSet := by
  funext l
  simp only [passes, iterate_pointer]

/-- The wait of `fpy_wait_irq` is over at the first read that finds the pointer
set. It reads no port. -/
theorem exec_fpyWaitIrq : (∃ t, Exec a.machine fpyWaitIrq (s, n) e (s', t)) ↔
    s' = s ∧ ∃ m, a.Woken n m ∧ e = a.waitErr (n + (m + 1)) := by
  unfold fpyWaitIrq
  simp only [Prog.bind_eq, Code.untilReceived_bind, exec_poll (settles_pointer a), passes_isSet,
    iterate_pointer, exec_bind, exec_irqErr, Code.setReceived_bind, exec_vis, Prog.pure_eq,
    exec_pure]
  constructor
  · rintro ⟨t, m, woken, _, _, ⟨rfl, rfl⟩, _, _, hset, rfl, hend⟩
    rw [machine_setReceived.mp hset] at hend
    cases hend
    exact ⟨rfl, m, woken, rfl⟩
  · rintro ⟨rfl, m, woken, rfl⟩
    exact ⟨_, m, woken, _, _, ⟨rfl, rfl⟩, (), _, machine_setReceived.mpr rfl, rfl, rfl⟩

end Attended

end ToyBootloader
