import ToyBootloader.Irq
import ToyBootloader.Laws.Rounds

/-!
# A copy and its errors

`fpy_copy_bytes` under any interleaving with the interrupt handler, and the
three routes an error takes to it: a command that is refused, a status byte that
fails its check, and a pointer the handler leaves. The first two are returned.
The third is not: the wait that consumes it is `fpy_cmd_read_sector`'s, which
drops what `fpy_wait_irq` returns.

What the controller answers the main program is one pair of streams, and what it
answers each run of the handler another, so that an error is one of the answers.
-/

namespace ToyBootloader

open Resumption Code

/-- The interrupts: how many have been delivered, what passed in the last one's handler,
which of them came with no `fpy_cmd_read_sector` begun since the one before, and whether an
error was left. -/
structure Interrupts where
  delivered : Nat := 0
  traffic : Traffic := {}
  /-- By their numbers, from 1 on. -/
  early : List Nat := []
  recorded : Bool := false
  deriving DecidableEq, Repr

/-- The shared globals, the main program's traffic with the controller, and the
interrupts. -/
structure Watch where
  vars : IrqVars
  globals : Globals
  traffic : Traffic := {}
  /-- The main program has begun a `fpy_cmd_read_sector` since the last interrupt. -/
  begun : Bool
  interrupts : Interrupts := {}

namespace Watch

/-- Before the call. A flag that is set then counts as set by a `fpy_cmd_read_sector`. -/
def start (vars : IrqVars) (globals : Globals) : Watch :=
  { vars, globals, begun := vars.handleState != 0 }

/-- The handler leaves an error. -/
def records : Op → Bool
  | .setReceived (.err _) => true
  | _ => false

/-- An interrupt is delivered. -/
def delivers (s : Watch) : Watch :=
  let n := s.interrupts.delivered + 1
  { s with
    begun := false
    interrupts := { s.interrupts with
      delivered := n
      traffic := {}
      early := if s.begun then s.interrupts.early else n :: s.interrupts.early } }

/-- The driver against the controller of `f`, and the `n`th run of its handler against that of
`g n`, with an interrupt at any time. -/
def system (f : Feed) (g : Nat → Feed) : System ops Watch where
  main s op a s' := IrqVars.machine s.vars op a s'.vars ∧
    f.session (s.traffic, s.globals) op a (s'.traffic, s'.globals) ∧
    s'.begun = (s.begun || op.begins) ∧ s'.interrupts = s.interrupts
  isr s op a s' := ∃ vars traffic, IrqVars.machine s.vars op a vars ∧
    (g s.interrupts.delivered).device s.interrupts.traffic op a traffic ∧
    s' = { s with
      vars
      interrupts := { s.interrupts with
        traffic
        recorded := s.interrupts.recorded || records op } }
  deliver s s' := s' = s.delivers
  handler := fpyInterruptHandler

/-- What every run keeps: the flag is set exactly when a `fpy_cmd_read_sector` has begun since
the last interrupt, and an error was left exactly when an interrupt that came with none begun
was sensed in vain. -/
structure Kept (g : Nat → Feed) (s : Watch) : Prop where
  flag : s.vars.handleState ≠ 0 ↔ s.begun = true
  recorded : s.interrupts.recorded = true ↔ ∃ i ∈ s.interrupts.early, (g i).SenseFails

variable {f : Feed} {g : Nat → Feed}

/-- An operation of the main program keeps it. -/
theorem kept_main {s s' : Watch} {op : Op} {x : ops.Ans op} (h : s.Kept g) (hop : op.arms)
    (hm : (system f g).main s op x s') : s'.Kept g := by
  obtain ⟨hvars, -, hbegun, hinterrupts⟩ := hm
  constructor
  · rw [hbegun]
    exact IrqVars.flagged_of_machine h.flag hop hvars
  · rw [hinterrupts]
    exact h.recorded

/-- A state with other traffic in the handler. -/
def heard (s : Watch) (t : Traffic) : Watch :=
  { s with interrupts := { s.interrupts with traffic := t } }

/-- What talks to the controller does so in the handler as it does alone. -/
theorem follows_talks {α : Type} {p : Code α} (talks : Talks p) {s : Watch} {Q : α → Traffic → Prop}
    (ends : ∀ a t, Exec (g s.interrupts.delivered).machine p s.interrupts.traffic a t → Q a t) :
    Follows (system f g).isr (fun _ _ => True) p (fun a s' => ∃ t, s' = s.heard t ∧ Q a t) s := by
  have alone : Follows (g s.interrupts.delivered).machine (fun _ _ => True) p Q s.interrupts.traffic :=
    talks.follows_exec (fun _ _ _ => trivial) ends
  refine talks.simulate (R := fun s' t => s' = s.heard t) ?_ (fun _ _ _ => trivial) rfl alone
  rintro _ t op x s' rfl hop ⟨vars, traffic, hvars, hdevice, rfl⟩
  refine ⟨traffic, (Feed.device_iff hop).mp hdevice, ?_⟩
  cases op with
  | inb port | outb port b | mark e =>
    obtain rfl : vars = s.vars := hvars
    simp only [heard, records, Bool.or_false]
  | _ => cases hop

/-- The handler's last steps: the flag is set, to an error or to none. -/
theorem follows_acknowledge {s : Watch} {v : Received}
    (flag : s.vars.handleState = 0) (begun : s.begun = false)
    (recorded : (s.interrupts.recorded || records (.setReceived v)) = true ↔
      ∃ i ∈ s.interrupts.early, (g i).SenseFails) :
    Follows (system f g).isr (fun _ _ => True) (do setReceived v; outb 0x20 0x20)
      (fun _ => Kept g) s := by
  refine ⟨trivial, ?_⟩
  rintro _ _ ⟨vars₁, t₁, h₁, -, rfl⟩
  refine ⟨trivial, ?_⟩
  rintro _ _ ⟨vars₂, t₂, h₂, -, rfl⟩
  refine ⟨?_, ?_⟩
  · have clear : vars₂.handleState = 0 := by
      rw [show vars₂ = vars₁ from h₂, show vars₁ = _ from h₁]
      exact flag
    rw [clear, begun]
    decide
  · simpa [records] using recorded

/-- The handler, from a delivery. -/
theorem kept_handler {s : Watch} (h : s.Kept g) :
    Follows (system f g).isr (fun _ _ => True) fpyInterruptHandler (fun _ => Kept g) s.delivers := by
  simp only [fpyInterruptHandler, Prog.bind_eq, get_bind, follows_vis]
  refine ⟨trivial, ?_⟩
  rintro st _ ⟨vars, t, ⟨rfl, hst⟩, ht, rfl⟩
  obtain rfl : st = s.vars.handleState := hst rfl
  split
  · rename_i hset
    have hbegun : s.begun = true := h.flag.mp hset
    refine ⟨trivial, ?_⟩
    rintro _ _ ⟨vars₁, t₁, h₁, -, rfl⟩
    refine follows_acknowledge (congrArg IrqVars.handleState h₁) rfl ?_
    simpa [delivers, hbegun, records] using h.recorded
  · rename_i hclear
    have hbegun : s.begun = false := Bool.eq_false_iff.mpr fun hb => hclear (h.flag.mpr hb)
    obtain rfl : t = {} := ht
    refine (follows_talks talks_fpyCmdCheckInterrupt fun r t run =>
      Feed.checkInterrupt_fails_iff run).bind ?_
    rintro r _ ⟨t, rfl, hr⟩
    refine follows_acknowledge (not_not.mp hclear) rfl ?_
    cases herr : r.error with
    | some e =>
      have fails := hr.mp (by rw [herr]; exact Option.some_ne_none e)
      refine iff_of_true (Bool.or_true _) ⟨s.interrupts.delivered + 1, ?_, fails⟩
      simp [delivers, heard, hbegun]
    | none =>
      have passes := fun fails => hr.mpr fails herr
      have old := h.recorded
      simp only [delivers, heard, hbegun, records, Bool.or_false, Bool.false_eq_true, if_false,
        List.mem_cons, exists_eq_or_imp]
      rw [old]
      exact (or_iff_right passes).symm

/-! ## The law -/

/-- The copy, alone: it comes back with an error exactly when the streams make a round of it
fail. -/
theorem follows_fpyCopyBytes (sector : UInt8) (dest : Nat) (count : Int) (globals : Globals) :
    Follows f.session (fun _ op => op.arms) (fpyCopyBytes sector dest count)
      (fun res _ => res ≠ noErr ↔ f.CopyFails globals sector (roundCount count) 0 0)
      ({}, globals) := by
  have arms : Only Op.arms (fpyCopyBytes sector dest count) := by
    have loop : Only Op.arms (fpyCopyBytesLoop sector dest count) := by
      refine only_fpyCopyBytesLoop_of (K := Op.arms) rfl (fun op hop => ?_) (fun op hop => ?_) (fun op hop => ?_)
        (fun _ => trivial) fun _ _ _ _ => trivial
      all_goals
        cases op with
        | set v x => cases hop
        | _ => trivial
    exact loop.bind fun _ => ⟨trivial, fun _ => trivial⟩
  refine arms.follows_exec (fun _ _ hop => hop) fun res c run => ?_
  obtain ⟨e, c₁, copy, done⟩ := exec_bind.mp run
  obtain ⟨_, c₂, -, done⟩ := exec_vis.mp done
  obtain ⟨rfl, -⟩ := exec_pure.mp done
  exact (Feed.copy_of_exec copy).2.1

/-- What every return of a copy is in. -/
theorem returned {sector : UInt8} {dest : Nat} {count : Int} {vars : IrqVars} {globals : Globals}
    {res : ErrT} {s : Watch}
    (run : (system f g).Reach (.main (fpyCopyBytes sector dest count), start vars globals)
      (.main (.pure res), s)) :
    s.Kept g ∧ (res ≠ noErr ↔ f.CopyFails globals sector (roundCount count) 0 0) := by
  have keeps : (system f g).Keeps (fun s : Watch => (s.traffic, s.globals)) f.session
      (fun _ op => op.arms) (fun _ _ => True) (Kept g)
      (fun res _ => res ≠ noErr ↔ f.CopyFails globals sector (roundCount count) 0 0)
      (.main (.pure res), s) := by
    refine System.invariant (I := Kept g) ?_ ?_ ?_ kept_main ?_ ⟨?_, ?_⟩
      (follows_fpyCopyBytes sector dest count globals) run
    · exact fun hm => hm.2.1
    · rintro s op x _ ⟨vars, t, -, -, rfl⟩
      rfl
    · rintro s _ rfl
      rfl
    · rintro s _ h rfl
      exact kept_handler h
    · simp [start]
    · simp [start]
  exact keeps

/-- THE LAW of a copy's errors: in every interleaving a copy returns every error there was, the
handler's and its own, exactly when the streams make it fail itself whenever they make a
CHECK_INT fail: that of an interrupt that came with no `fpy_cmd_read_sector` begun since the one
before. An error that only the handler saw is lost. -/
theorem copy_returns_errors_iff {sector : UInt8} {dest : Nat} {count : Int} {vars : IrqVars}
    {globals : Globals} {res : ErrT} {s : Watch}
    (run : (system f g).Reach (.main (fpyCopyBytes sector dest count), start vars globals)
      (.main (.pure res), s)) :
    (s.interrupts.recorded = true ∨ f.CopyFails globals sector (roundCount count) 0 0 →
        res ≠ noErr) ↔
      ((∃ i ∈ s.interrupts.early, (g i).SenseFails) →
        f.CopyFails globals sector (roundCount count) 0 0) := by
  obtain ⟨h, hres⟩ := returned run
  rw [hres, h.recorded]
  exact ⟨fun all sensed => all (.inl sensed), fun all => Or.rec all id⟩

/-! ## Runs computed -/

/-- The streams' answers, the globals', and the handler's. -/
def player (f : Feed) (g : Nat → Feed) : Player ops Watch Unit where
  main s op := (IrqVars.sim (f.answer s.traffic) id s.globals s.vars op).map fun r =>
    (r.1, { s with
      vars := r.2
      globals := s.globals.after op
      traffic := f.after s.traffic op
      begun := s.begun || op.begins })
  isr s op :=
    (IrqVars.sim ((g s.interrupts.delivered).answer s.interrupts.traffic) id s.globals s.vars
      op).map fun r =>
    (r.1, { s with
      vars := r.2
      interrupts := { s.interrupts with
        traffic := (g s.interrupts.delivered).after s.interrupts.traffic op
        recorded := s.interrupts.recorded || records op } })
  deliver s _ := some s.delivers

theorem player_sound (f : Feed) (g : Nat → Feed) : (player f g).Sound (system f g) where
  main h := by
    obtain ⟨r, hr, heq⟩ := Option.map_eq_some_iff.mp h
    cases heq
    exact ⟨IrqVars.sim_sound _ _ _ hr, ⟨Feed.device_of_sim hr, Globals.held_of_sim hr⟩, rfl, rfl⟩
  isr h := by
    obtain ⟨r, hr, heq⟩ := Option.map_eq_some_iff.mp h
    cases heq
    exact ⟨_, _, IrqVars.sim_sound _ _ _ hr, Feed.device_of_sim hr, rfl⟩
  deliver h := (Option.some.inj h).symm

/-- A copy of one byte of sector 0. -/
def oneByte : Control ops ErrT × Watch := (.main (fpyCopyBytes 0 0x7000 1), start {} IrqVars.goodDrive)

/-- The SEEK's interrupt is delivered after the SEEK was sent and before the
READ is prepared; `n` steps are left then. -/
def lateSeek (n : Nat) : List (Move Unit) :=
  .replicate 20 .step ++ .deliver () :: .replicate n .step

/-- A SEEK that ends well: its interrupt comes with no READ begun, the law applies to the run,
and both sides hold. -/
theorem good_seek_returns : ∃ res s,
    (system (Feed.steady 0) fun _ => Feed.steady 0).Reach oneByte (.main (.pure res), s) ∧
    s.interrupts.early = [1] ∧
    ((s.interrupts.recorded = true ∨
        (Feed.steady 0).CopyFails IrqVars.goodDrive 0 (roundCount 1) 0 0 → res ≠ noErr) ↔
      ((∃ i ∈ s.interrupts.early, (Feed.steady 0).SenseFails) →
        (Feed.steady 0).CopyFails IrqVars.goodDrive 0 (roundCount 1) 0 0)) := by
  have hplay : ((system (Feed.steady 0) fun _ => Feed.steady 0).play
      (player (Feed.steady 0) fun _ => Feed.steady 0) (lateSeek 72) oneByte).any
      (returns fun _ s => s.interrupts.early = [1]) = true := by
    rw [oneByte, fpyCopyBytes_one]
    decide
  obtain ⟨res, s, run, early⟩ := System.exists_return_of_play (player_sound _ _) hplay
  exact ⟨res, s, run, of_decide_eq_true early, copy_returns_errors_iff run⟩

/-- A SEEK that ends badly: the handler's CHECK_INT reads an `st0` that reports
an abnormal termination, and the copy returns no error. -/
theorem bad_seek_swallowed : ¬ ∀ (f : Feed) (g : Nat → Feed) (sector : UInt8) (dest : Nat)
    (count : Int) (vars : IrqVars) (globals : Globals) (res : ErrT) (s : Watch),
    (system f g).Reach (.main (fpyCopyBytes sector dest count), start vars globals)
      (.main (.pure res), s) →
    s.interrupts.recorded = true ∨ f.CopyFails globals sector (roundCount count) 0 0 →
    res ≠ noErr := by
  intro h
  have hplay : ((system (Feed.steady 0) fun _ => Feed.steady 0x40).play
      (player (Feed.steady 0) fun _ => Feed.steady 0x40) (lateSeek 71) oneByte).any
      (returns fun res s => res.isNone && s.interrupts.recorded) = true := by
    rw [oneByte, fpyCopyBytes_one]
    decide
  obtain ⟨res, s, run, htest⟩ := System.exists_return_of_play (player_sound _ _) hplay
  obtain ⟨hres, hrec⟩ := Bool.and_eq_true_iff.mp htest
  exact h _ _ 0 0x7000 1 {} IrqVars.goodDrive res s run (.inl hrec)
    (Option.isNone_iff_eq_none.mp hres)

end Watch

end ToyBootloader
