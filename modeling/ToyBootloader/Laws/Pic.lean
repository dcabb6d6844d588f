import ToyBootloader.Pic
import ToyBootloader.Laws.Footprint
import ToyBootloader.Resumption.Waiting

/-!
# Masking lines and acknowledging interrupts

Two laws of the interrupt controllers. The first is about `irq_mask` and
`irq_unmask`: their test of the line is the wrong way round, and after it every
line but the eighth shifts its bit out of the byte it is written with, so a call
about any other line is a call that does nothing. The second is about the end of
interrupt: `fpy_interrupt_handler` writes it on both its branches,
`handle_timer_interrupt` on none, and neither does the stub.
-/

namespace ToyBootloader

open Resumption Code

/-! ## Masking -/

namespace Masks

/-- What a call does: it is about line 8 or about none. -/
def after (s : Masks) (c : IrqCall) : Masks :=
  if c.line = 8 then { s with slave := if c.masks then s.slave ||| 1 else s.slave &&& ~~~ 1 }
  else s

/-- The bit a call writes with, and the register it writes: the eighth line's is
the slave's first, every other line's is outside the byte. -/
theorem irqBit_irqPort : ∀ line : Fin 16,
    irqBit (irqPort (UInt8.ofNat line)).2 = (if line = 8 then 1 else 0) ∧
      (irqPort (UInt8.ofNat line)).1 = (if 8 < line then PIC_MASTER_B else PIC_SLAVE_B) := by
  decide

/-- A register read and written back with its bits changed. -/
private theorem exec_update (s s' : Masks) (u : Unit) {port : UInt16} (g : UInt8 → UInt8)
    (hport : port = PIC_MASTER_B ∨ port = PIC_SLAVE_B) :
    Exec sim.machine (do let curr ← inb port; outb port (g curr)) s u s' ↔
      s' = if port = PIC_MASTER_B then { s with master := g s.master }
        else { s with slave := g s.slave } := by
  have read : Settles sim.machine (.inb port)
      (fun s => if port = PIC_MASTER_B then s.master else s.slave) id := by
    intro s x s'
    rcases hport with rfl | rfl <;> exact Simulator.machine_iff rfl
  have written (v : UInt8) : Settles sim.machine (.outb port v) (fun _ => ())
      fun s => if port = PIC_MASTER_B then { s with master := v } else { s with slave := v } := by
    intro s x s'
    rcases hport with rfl | rfl <;> exact Simulator.machine_iff rfl
  rw [Prog.bind_eq, inb_bind, read.exec_vis, outb, Prog.call, (written _).exec_vis, exec_pure,
    and_iff_right rfl]
  rcases hport with rfl | rfl <;> exact Iff.rfl

theorem exec_irqCall {s s' : Masks} {c : IrqCall} {u : Unit} :
    Exec sim.machine c.code s u s' ↔ s' = s.after c := by
  obtain ⟨line, masks⟩ := c
  obtain ⟨hbit, hport⟩ := irqBit_irqPort line
  have port : (irqPort (UInt8.ofNat line)).1 = PIC_MASTER_B ∨
      (irqPort (UInt8.ofNat line)).1 = PIC_SLAVE_B := by
    rw [hport]
    split
    · exact .inl rfl
    · exact .inr rfl
  cases masks with
  | true =>
    have update := exec_update s s' u
      (fun curr => curr ||| irqBit (irqPort (UInt8.ofNat line)).2) port
    rw [IrqCall.code, if_pos rfl, irqMask]
    refine update.trans (Eq.congr_right ?_)
    rw [hbit, hport, after]
    by_cases h : line = 8
    · subst h
      rfl
    · simp only [if_neg h, UInt8.or_zero]
      split <;> rfl
  | false =>
    have update := exec_update s s' u
      (fun curr => curr &&& ~~~ irqBit (irqPort (UInt8.ofNat line)).2) port
    rw [IrqCall.code, if_neg Bool.false_ne_true, irqUnmask]
    refine update.trans (Eq.congr_right ?_)
    rw [hbit, hport, after]
    by_cases h : line = 8
    · subst h
      rfl
    · have whole : ∀ x : UInt8, x &&& ~~~ 0 = x := fun x => by simp
      simp only [if_neg h, whole]
      split <;> rfl

theorem exec_irqCalls {s s' : Masks} {calls : List IrqCall} {u : Unit} :
    Exec sim.machine (calls.forM IrqCall.code) s u s' ↔ s' = calls.foldl after s := by
  induction calls generalizing s with
  | nil => simp only [List.forM, Prog.pure_eq, exec_pure, List.foldl_nil, true_and]
  | cons c calls ih =>
    simp only [List.forM, Prog.bind_eq, exec_bind, exec_irqCall, ih, List.foldl_cons,
      exists_eq_left, exists_const]

/-- The first bit of a byte written, and the others as they were. -/
theorem getLsbD_update (b : UInt8) (masks : Bool) {n : Nat} (hn : n < 8) :
    (if masks then b ||| 1 else b &&& ~~~ 1).toBitVec.getLsbD n =
      if n = 0 then masks else b.toBitVec.getLsbD n := by
  have one : ∀ n < 8, (1 : UInt8).toBitVec.getLsbD n = decide (n = 0) := by decide
  have rest : ∀ n < 8, (~~~ (1 : UInt8)).toBitVec.getLsbD n = !decide (n = 0) := by decide
  cases masks with
  | true =>
    rw [if_pos rfl, UInt8.toBitVec_or, BitVec.getLsbD_or, one n hn]
    by_cases h : n = 0 <;> simp [h]
  | false =>
    rw [if_neg Bool.false_ne_true, UInt8.toBitVec_and, BitVec.getLsbD_and, rest n hn]
    by_cases h : n = 0 <;> simp [h]

/-- A call changes the eighth line's bit, if it is about it, and no other. -/
theorem masked_after (s : Masks) (c : IrqCall) (line : Fin 16) :
    (s.after c).masked line = if line = 8 ∧ c.line = 8 then c.masks else s.masked line := by
  unfold after
  by_cases hc : c.line = 8
  · rw [if_pos hc]
    unfold masked
    by_cases hlt : line.val < 8
    · have hl : ¬ (line = 8 ∧ c.line = 8) := by
        rintro ⟨rfl, -⟩
        exact absurd hlt (by decide)
      rw [if_pos hlt, if_pos hlt, if_neg hl]
    · have heq : (line.val - 8 = 0) = (line = 8 ∧ c.line = 8) := by
        rw [Fin.ext_iff, and_iff_left hc]
        exact propext ⟨fun h => by change line.val = 8; omega, fun h => by rw [h]; rfl⟩
      rw [if_neg hlt, if_neg hlt, getLsbD_update s.slave c.masks (by omega)]
      simp only [heq]
  · rw [if_neg hc, if_neg fun h => hc h.2]

/-- After any calls the eighth line is as they asked, and every other as it was. -/
theorem masked_calls (s : Masks) (calls : List IrqCall) (line : Fin 16) :
    (calls.foldl after s).masked line =
      if line = 8 then asked line (s.masked line) calls else s.masked line := by
  induction calls generalizing s with
  | nil => rw [List.foldl_nil, asked, ite_self]
  | cons c calls ih =>
    rw [List.foldl_cons, ih, masked_after]
    by_cases hl : line = 8
    · subst hl
      simp only [true_and, if_true, asked]
    · simp only [hl, false_and, if_false]

/-- The calls implement a set of masked lines: afterwards each line is as the last
call about it asked, and as it was when none was about it. -/
def Implement (s : Masks) (calls : List IrqCall) : Prop :=
  ∀ s', Exec sim.machine (calls.forM IrqCall.code) s () s' →
    ∀ line, s'.masked line = asked line (s.masked line) calls

/-- Where the calls implement it, the other lines were asked for what they were. -/
theorem Implement.asked_eq {s : Masks} {calls : List IrqCall} (h : s.Implement calls)
    {line : Fin 16} (hl : line ≠ 8) : asked line (s.masked line) calls = s.masked line := by
  have kept := h _ (exec_irqCalls.mpr rfl) line
  rw [masked_calls, if_neg hl] at kept
  exact kept.symm

/-- From every value of the mask registers and for every sequence of calls, the
calls implement the set of masked lines exactly when the last one about each line
but the eighth asks for what the line was already. -/
theorem irqCalls_implement_iff (s : Masks) (calls : List IrqCall) :
    s.Implement calls ↔ ∀ line, line ≠ 8 → asked line (s.masked line) calls = s.masked line := by
  constructor
  · exact fun h line hl => h.asked_eq hl
  · intro h s' run line
    rw [exec_irqCalls.mp run, masked_calls]
    by_cases hl : line = 8
    · rw [if_pos hl]
    · rw [if_neg hl, h line hl]

/-- `setup_timer` unmasks line 0, with the masks `init_8259` leaves: the line stays
masked. -/
theorem setupTimer_unmasks_nothing : ¬ (⟨1, 1⟩ : Masks).Implement [⟨0, false⟩] := by
  intro h
  exact absurd (h.asked_eq (show (0 : Fin 16) ≠ 8 by decide)) (by decide)

end Masks

/-! ## Acknowledging -/

namespace InService

theorem not_blocked_idle (n : Fin 8) : ¬ idle.Blocked n := by
  rintro ⟨m, -, hm⟩
  cases hm

/-- With line 0 in service every line is blocked. -/
theorem blocked_of_timer {s : InService} (h : s 0 = true) (n : Fin 8) : s.Blocked n :=
  ⟨0, Fin.zero_le n, h⟩

/-- An interrupt in service alone is the one an end of interrupt takes off. -/
theorem eoi_deliver_idle (n : Fin 8) : (idle.deliver n).eoi = idle := by
  funext m
  simp only [eoi, deliver, idle, Bool.false_or, Bool.and_eq_false_iff, decide_eq_false_iff_not,
    decide_eq_true_eq]
  by_cases h : m = n
  · right
    rintro ⟨l, hl, rfl⟩
    exact absurd (h ▸ hl) (Nat.lt_irrefl l.val)
  · exact .inl h

end InService

namespace Cpu8259

/-- Every operation but the end of interrupt. -/
def Silent : Op → Prop
  | .outb port _ => port ≠ PIC_MASTER_A
  | _ => True

/-- A silent operation changes nothing. -/
theorem machine_silent {s s' : Cpu8259} {op : Op} {x : op.Ans} (h : Silent op)
    (hm : machine s op x s') : s' = s := by
  rw [show s' = _ from hm]
  cases op with
  | outb port v => exact if_neg fun hp => h hp.1
  | _ => rfl

theorem silent_of_talks {op : Op} (h : op.isFifoCommand) : Silent op := by
  cases op with
  | outb port v =>
    rw [Silent, show port = FPY_FIFO from h]
    decide
  | _ => trivial

theorem silent_handleTimerInterrupt : Only Silent ToyBootloader.handleTimerInterrupt := by
  simp only [ToyBootloader.handleTimerInterrupt, Prog.bind_eq, fetch_bind, only_vis]
  refine ⟨trivial, fun timer => ?_⟩
  split
  · exact ⟨trivial, fun _ => ⟨trivial, fun _ => trivial⟩⟩
  · trivial

/-- `fpy_interrupt_handler` ends with the end of interrupt, on both branches. -/
theorem follows_fpyInterruptHandler {s : Cpu8259} {R : InService → Prop}
    (h : R s.inService.eoi) :
    Follows machine (fun _ _ => True) ToyBootloader.fpyInterruptHandler
      (fun _ t => R t.inService) s := by
  have eoi : Follows machine (fun _ _ => True) (outb 0x20 0x20) (fun _ t => R t.inService) s := by
    refine ⟨trivial, fun u t hm => ?_⟩
    rw [show t = _ from hm]
    exact h
  simp only [ToyBootloader.fpyInterruptHandler, Prog.bind_eq, get_bind, follows_vis]
  refine ⟨trivial, fun st t hm => ?_⟩
  rw [show t = s from hm]
  split
  · refine ⟨trivial, fun u t hm => ?_⟩
    rw [show t = s from hm]
    refine ⟨trivial, fun u t hm => ?_⟩
    rw [show t = s from hm]
    exact eoi
  · have sense : Follows machine (fun _ _ => True) fpyCmdCheckInterrupt (fun _ t => t = s) s :=
      talks_fpyCmdCheckInterrupt.follows (I := fun t => t = s) (fun _ _ _ _ => trivial)
        (fun t op x t' hop ht hm => (machine_silent (silent_of_talks hop) hm).trans ht) rfl
    refine sense.bind fun r t ht => ?_
    rw [ht]
    refine ⟨trivial, fun u t hm => ?_⟩
    rw [show t = s from hm]
    exact eoi

/-- The two handlers' fields the interrupts leave alone. -/
theorem machine_frame {s s' : Cpu8259} {op : Op} {x : op.Ans} (hm : machine s op x s') :
    s'.vectors = s.vectors ∧ s'.delivered = s.delivered := by
  rw [show s' = _ from hm]
  cases op with
  | outb port v => dsimp only; split <;> exact ⟨rfl, rfl⟩
  | _ => exact ⟨rfl, rfl⟩

/-- What every run keeps. Once line 0 was delivered its bit stays set: its handler
writes no end of interrupt, and no other line is delivered any more. -/
def Inv : Option (Code Unit) × Cpu8259 → Prop
  | (none, s) => s.vectors = Vectors.stage3 ∧
      (.timer ∈ s.delivered → s.inService (IrqLine.irq .timer) = true) ∧
      (.timer ∉ s.delivered → s.inService = .idle)
  | (some h, s) => s.vectors = Vectors.stage3 ∧
      (.timer ∈ s.delivered → s.inService (IrqLine.irq .timer) = true ∧ Only Silent h) ∧
      (.timer ∉ s.delivered →
        Follows machine (fun _ _ => True) h (fun _ t => t.inService = .idle) s)

theorem inv_step {c c' : Option (Code Unit) × Cpu8259} (step : Step c c') (h : Inv c) : Inv c' := by
  cases step with
  | @deliver s code l free hcode =>
    obtain ⟨hv, set, unset⟩ := h
    have none_yet : .timer ∉ s.delivered := fun ht => free (InService.blocked_of_timer (set ht) _)
    rw [hv] at hcode
    cases l with
    | timer =>
      obtain rfl : ToyBootloader.handleTimerInterrupt = code := Option.some.inj hcode
      refine ⟨hv, fun _ => ⟨?_, silent_handleTimerInterrupt⟩, ?_⟩
      · simp only [InService.deliver, IrqLine.irq, decide_true, Bool.or_true]
      · exact fun ht => absurd List.mem_cons_self ht
    | floppy =>
      obtain rfl : ToyBootloader.fpyInterruptHandler = code := Option.some.inj hcode
      refine ⟨hv, ?_, fun _ => follows_fpyInterruptHandler (R := (· = .idle)) ?_⟩
      · rintro (_ | ⟨_, ht⟩)
        exact absurd ht none_yet
      · dsimp only
        rw [unset none_yet, InService.eoi_deliver_idle]
  | @run p p' s s' step =>
    obtain ⟨hv, set, unset⟩ := h
    have frame : s'.vectors = s.vectors ∧ s'.delivered = s.delivered := by
      cases step with
      | vis hm | hit hm _ | miss hm _ => exact machine_frame hm
    refine ⟨frame.1.trans hv, ?_, ?_⟩
    · rw [frame.2]
      intro ht
      obtain ⟨only, op, x, hop, hm⟩ := (set ht).2.step step
      rw [machine_silent hop hm]
      exact ⟨(set ht).1, only⟩
    · rw [frame.2]
      intro ht
      exact (unset ht).step step
  | iret =>
    obtain ⟨hv, set, unset⟩ := h
    exact ⟨hv, fun ht => (set ht).1, unset⟩

theorem inv_reach {c : Option (Code Unit) × Cpu8259} (run : Reach (none, ⟨.stage3, .idle, []⟩) c) :
    Inv c := by
  induction run with
  | refl => exact ⟨rfl, fun ht => absurd ht List.not_mem_nil, fun _ => rfl⟩
  | tail _ step ih => exact inv_step step ih

/-- Whenever no handler is running, no interrupt is in service exactly when the
timer's was never delivered: every handler acknowledges its interrupt but the
timer's. -/
theorem handlers_acknowledge_iff (s : Cpu8259)
    (run : Reach (none, ⟨.stage3, .idle, []⟩) (none, s)) :
    (∀ n, s.inService n = false) ↔ .timer ∉ s.delivered := by
  obtain ⟨-, set, unset⟩ := inv_reach run
  constructor
  · intro free ht
    have held := set ht
    rw [free] at held
    exact Bool.false_ne_true held
  · intro ht n
    rw [unset ht]
    rfl

/-- A timer interrupt from its delivery to its `iret`, with `timer` at zero. -/
theorem timer_run : Reach (none, ⟨.stage3, .idle, []⟩)
    (none, ⟨.stage3, .deliver .idle 0, [.timer]⟩) := by
  have delivered :=
    Step.deliver (s := ⟨.stage3, .idle, []⟩) .timer (InService.not_blocked_idle 0) rfl
  have node : ToyBootloader.handleTimerInterrupt =
      .vis (S := ops) (.fetch .timer) fun bs => if word32 bs ≠ 0
        then (fetch .timer).bind fun bs => assign .timer (bytes32 (word32 bs - 1))
        else .pure () := rfl
  have fetched : machine ⟨.stage3, .deliver .idle 0, [.timer]⟩ (.fetch .timer) ([] : List UInt8)
      ⟨.stage3, .deliver .idle 0, [.timer]⟩ := rfl
  have handled := Step.run (.vis (k := fun bs => if word32 bs ≠ 0
    then (fetch .timer).bind fun bs => assign .timer (bytes32 (word32 bs - 1))
    else .pure ()) fetched)
  rw [← node] at handled
  exact .head delivered (.head handled (.single .iret))

theorem handlers_acknowledge_not_timer :
    (∀ n, InService.deliver .idle 0 n = false) ↔ IrqLine.timer ∉ [IrqLine.timer] :=
  handlers_acknowledge_iff ⟨.stage3, .deliver .idle 0, [.timer]⟩ timer_run

/-- The timer's interrupt stays in service after its handler has returned. -/
theorem timer_stays_in_service :
    ¬ ∀ s, Reach (none, ⟨.stage3, .idle, []⟩) (none, s) → ∀ n, s.inService n = false := by
  intro h
  exact absurd (h _ timer_run 0) (by decide)

end Cpu8259

/-! ## The table stage 3 runs with -/

namespace Vectors

/-- What every entry of `idt` leaves in the table. -/
theorem follows_idtEntries (stub : UInt8 → UInt32) (ns : List UInt8) (t : Vectors) :
    Follows machine (fun _ _ => True) (ns.forM (idtEntry stub))
      (fun _ t' => ∀ n, t' n = if n ∈ ns then .interruptPanic else t n) t := by
  induction ns generalizing t with
  | nil => exact fun n => (if_neg List.not_mem_nil).symm
  | cons m ns ih =>
    simp only [List.forM, idtEntry, Prog.bind_eq, fetch_bind, assign_bind, setInterrupt_bind,
      Prog.vis_bind, follows_vis]
    refine ⟨trivial, fun selector t₁ h₁ => ⟨trivial, fun _ t₂ h₂ => ⟨trivial, fun _ t₃ h₃ => ?_⟩⟩⟩
    rw [show t₁ = t from h₁] at h₂
    rw [show t₂ = t from h₂] at h₃
    refine (ih t₃).mono fun _ t' ht' n => ?_
    rw [ht' n, show t₃ n = if n = m then .interruptPanic else t n from congrFun h₃ n]
    by_cases hn : n ∈ ns
    · rw [if_pos hn, if_pos (List.mem_cons_of_mem m hn)]
    · by_cases hm : n = m
      · rw [if_neg hn, if_pos hm, if_pos (hm ▸ List.mem_cons_self)]
      · rw [if_neg hn, if_neg hm, if_neg fun h => (List.mem_cons.mp h).elim hm hn]

/-- Every operation but `set_interrupt`. -/
def Keeps : Op → Prop
  | .setInterrupt _ _ => False
  | _ => True

theorem follows_keeps {α : Type} {p : Code α} (h : Only Keeps p) (t : Vectors) :
    Follows machine (fun _ _ => True) p (fun _ t' => t' = t) t := by
  refine h.follows (I := fun t' => t' = t) (fun _ _ _ _ => trivial) ?_ rfl
  intro t₁ op x t₂ hop ht hm
  rw [← ht, show t₂ = t₁.next op from hm]
  cases op with
  | setInterrupt n h => cases hop
  | _ => rfl

/-- After the tasks that call `set_interrupt` the table is stage 3's, at every
vector that has a gate. -/
theorem tasks_leave_stage3 (stub : UInt8 → UInt32) (t : Vectors) :
    Follows machine (fun _ _ => True)
      (do idt stub; init8259; breakpointInstr; setupTimer; fpySetupIdt)
      (fun _ t' => ∀ n ∈ idtEntries, t' n = stage3 n) t := by
  have init : Only Keeps init8259 := by
    simp only [init8259, Prog.bind_eq, outb_bind, only_vis]
    exact ⟨trivial, fun _ => ⟨trivial, fun _ => ⟨trivial, fun _ => ⟨trivial, fun _ => ⟨trivial,
      fun _ => ⟨trivial, fun _ => ⟨trivial, fun _ => ⟨trivial, fun _ => ⟨trivial, fun _ =>
        ⟨trivial, fun _ => ⟨trivial, fun _ => trivial⟩⟩⟩⟩⟩⟩⟩⟩⟩⟩⟩
  have timer : Only Keeps (do initTimer 10; irqUnmask 0) := by
    simp only [initTimer, irqUnmask, Prog.bind_eq, outb_bind, inb_bind, Prog.vis_bind, only_vis]
    exact ⟨trivial, fun _ => ⟨trivial, fun _ => ⟨trivial, fun _ => ⟨trivial, fun _ => ⟨trivial,
      fun _ => trivial⟩⟩⟩⟩⟩
  simp only [Prog.bind_eq]
  refine (follows_idtEntries stub idtEntries t).bind fun _ t₁ h₁ => ?_
  refine (follows_keeps init t₁).bind fun _ t₂ h₂ => ?_
  refine ⟨trivial, fun _ t₃ h₃ => ⟨trivial, fun _ t₄ h₄ => ?_⟩⟩
  refine (follows_keeps timer t₄).bind fun _ t₅ h₅ => ?_
  refine ⟨trivial, fun _ t₆ h₆ => ⟨trivial, fun _ t₇ h₇ n hn => ?_⟩⟩
  rw [show t₇ n = if n = FLOPPY_IRQ then .fpyInterruptHandler else t₆ n from congrFun h₇ n,
    show t₆ = t₅ from h₆, h₅,
    show t₄ n = if n = TIMER_INT then .handleTimerInterrupt else t₃ n from congrFun h₄ n,
    show t₃ n = if n = 3 then .handleInt3 else t₂ n from congrFun h₃ n, h₂, h₁ n, if_pos hn]
  rfl

end Vectors

end ToyBootloader
