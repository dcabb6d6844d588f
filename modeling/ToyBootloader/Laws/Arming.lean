import ToyBootloader.Laws.Outcomes
import ToyBootloader.Laws.Sensing

/-!
# The flag a READ leaves behind

`fpy_cmd_read_sector` sets `fpy_irq_handle_state` before it sends its command, and
only an interrupt clears it. A READ whose command is refused returns at once, and
nothing takes the flag back: the next interrupt, whoever's it is, is taken for that
READ's and not sensed.

Whether a READ was sent or refused is read off the statuses the controller answers
from the place on at which its flag was set.
-/

namespace ToyBootloader

open Resumption Code

/-! ## The calls, and what has happened to them -/

/-- The calls whose command raises an interrupt. -/
inductive RaisingCall where
  | readSector (p : FpyCmdReadSectorParams)
  | seekHead (p : FpyCmdSeekHeadParams)
  | calibrateDrive (p : FpyCmdHeadParam)

/-- The call's code, its result dropped. -/
def RaisingCall.code : RaisingCall → Code Unit
  | .readSector p => do
    let _ ← fpyCmdReadSector p
    return ()
  | .seekHead p => do
    let _ ← fpyCmdSeekHead p
    return ()
  | .calibrateDrive p => do
    let _ ← fpyCmdCalibrateDrive p
    return ()

/-- The shared globals, what passed between the main program and the controller, and the
places in its statuses at which the main program has set the flag. -/
structure Armed where
  vars : IrqVars
  traffic : Traffic := {}
  /-- The last first. -/
  reads : List Nat := []
  /-- How many of them come after the last interrupt. -/
  fresh : Nat := 0
  deriving DecidableEq, Repr

namespace Armed

/-- The places at which the flag was set, after an operation in a state of the traffic. -/
def noted (t : Traffic) (reads : List Nat) : Op → List Nat
  | .set .fpyIrqHandleState _ => t.statuses :: reads
  | _ => reads

/-- The driver against the controller of `f`, and its handler against any, with an
interrupt at any time. -/
def system (f : Feed) : System ops Armed where
  main s op a s' := IrqVars.machine s.vars op a s'.vars ∧ f.device s.traffic op a s'.traffic ∧
    s'.reads = noted s.traffic s.reads op ∧ s'.fresh = if op.begins then s.fresh + 1 else s.fresh
  isr s op a s' := ∃ vars, IrqVars.machine s.vars op a vars ∧ s' = { s with vars }
  deliver s s' := s' = { s with fresh := 0 }
  handler := fpyInterruptHandler

/-- Since the last interrupt a READ's flag was set whose send the controller's statuses make
fail. -/
def Failed (f : Feed) (s : Armed) : Prop :=
  ∃ n ∈ s.reads.take s.fresh, ∃ (p : FpyCmdReadSectorParams) (n' : Nat),
    f.SendFails (p.cmd .readSect) n n'

/-- Since the last interrupt a READ's flag was set that the statuses let be sent. -/
def Outstanding (f : Feed) (s : Armed) : Prop :=
  ∃ n ∈ s.reads.take s.fresh, ∃ (p : FpyCmdReadSectorParams) (n' : Nat),
    f.SendGoes true (p.cmd .readSect) n n'

/-! ## One call -/

/-- The globals, and the traffic with the controller of `f`. -/
abbrev alone (f : Feed) : Machine ops (Traffic × IrqVars) := both f.device IrqVars.machine

/-- A READ whose send the statuses make fail, with no interrupt meanwhile, leaves both
globals as they were. -/
def FailureKeeps (p : FpyCmdReadSectorParams) (vars : IrqVars) : Prop :=
  ∀ (f : Feed) (n : Nat) (res : FpyCmdReadtrackRes) (c : Traffic × IrqVars),
    f.SendFails (p.cmd .readSect) 0 n →
      Exec (alone f) (fpyCmdReadSector p) ({}, vars) res c → c.2 = vars

/-- A send, beside the globals, is the send alone. -/
theorem exec_send {f : Feed} {cmd : List UInt8} {wait : Bool} {t : Traffic} {vars : IrqVars}
    {c : Traffic × IrqVars} {e : ErrT} :
    Exec (alone f) (fpySendCommand cmd wait) (t, vars) e c ↔
      Exec f.machine (fpySendCommand cmd wait) t e c.1 ∧ c.2 = vars := by
  apply Feed.exec_beside ?_ (talks_fpySendCommand cmd wait)
  intro t vars op x c hop
  refine and_congr_right fun _ => ?_
  cases op with
  | inb port | outb port b | mark e => exact Iff.rfl
  | _ => cases hop

/-- A READ whose send fails has left the flag set, and the rest alone. -/
theorem vars_of_sendFails {f : Feed} {p : FpyCmdReadSectorParams} {n : Nat} {vars : IrqVars}
    {res : FpyCmdReadtrackRes} {c : Traffic × IrqVars} (fails : f.SendFails (p.cmd .readSect) 0 n)
    (run : Exec (alone f) (fpyCmdReadSector p) ({}, vars) res c) :
    c.2 = { vars with handleState := 1 } := by
  simp only [fpyCmdReadSector, fpyPrepareIrqNoHandle, Prog.bind_eq, set_bind, exec_vis] at run
  obtain ⟨_, ⟨t, vars₁⟩, ⟨ht, hvars⟩, run⟩ := run
  obtain rfl : t = {} := ht
  obtain rfl : vars₁ = { vars with handleState := 1 } := hvars
  obtain ⟨e, c₁, send, rest⟩ := exec_bind.mp run
  obtain ⟨send, hkept⟩ := exec_send.mp send
  have failed := Feed.failed_of_sendFails (s := {}) fails send
  cases e with
  | none => exact absurd rfl failed
  | some e =>
    obtain ⟨-, rfl⟩ := exec_pure.mp rest
    exact hkept

/-- A controller that never asserts `mrq`. -/
def silent : Feed := ⟨fun _ => 0, fun _ => 0⟩

theorem silent_fails (cmd : List UInt8) (n : Nat) : silent.SendFails cmd n (n + 1) :=
  .inl ⟨show Feed.refuses 0 = true by decide, rfl⟩

theorem exec_silent (p : FpyCmdReadSectorParams) (vars : IrqVars) :
    ∃ res c, Exec (alone silent) (fpyCmdReadSector p) ({}, vars) res c := by
  obtain ⟨err, t, send, -⟩ :=
    Feed.exec_of_sendFails (s := {}) true (silent_fails (p.cmd .readSect) 0)
  refine ⟨{ error := some err }, (t, { vars with handleState := 1 }), ?_⟩
  simp only [fpyCmdReadSector, fpyPrepareIrqNoHandle, Prog.bind_eq, set_bind]
  have set : alone silent ({}, vars) (.set .fpyIrqHandleState 1) ()
      ({}, { vars with handleState := 1 }) := ⟨rfl, rfl⟩
  exact .vis set (exec_bind.mpr ⟨some err, _, exec_send.mpr ⟨send, rfl⟩, .pure⟩)

/-- A failed READ keeps the globals exactly when the flag was set already. -/
theorem failureKeeps_iff (p : FpyCmdReadSectorParams) (vars : IrqVars) :
    FailureKeeps p vars ↔ vars.handleState = 1 := by
  constructor
  · intro h
    obtain ⟨res, c, run⟩ := exec_silent p vars
    have fails := silent_fails (p.cmd .readSect) 0
    have kept := h silent 1 res c fails run
    rw [vars_of_sendFails fails run] at kept
    exact (congrArg IrqVars.handleState kept).symm
  · intro h f n res c fails run
    rw [vars_of_sendFails fails run, ← h]

/-! ## Sequences of calls -/

/-- The traffic, and the places at which the flag was set. -/
abbrev notes (f : Feed) : Machine ops (Traffic × List Nat) := fun c op x c' =>
  f.device c.1 op x c'.1 ∧ c'.2 = noted c.1 c.2 op

/-- From each of the places a READ's send fails or goes. -/
def Decided (f : Feed) (reads : List Nat) : Prop :=
  ∀ n ∈ reads, ∃ (p : FpyCmdReadSectorParams) (n' : Nat),
    f.SendFails (p.cmd .readSect) n n' ∨ f.SendGoes true (p.cmd .readSect) n n'

/-- A walk of the main program, that ends with every place decided. -/
abbrev Decides {α : Type} (f : Feed) (p : Code α) (c : Traffic × List Nat) : Prop :=
  Follows (notes f) (fun _ op => op.arms) p (fun _ c' => Decided f c'.2) c

/-- Every operation that assigns no global. -/
def Unset : Op → Prop
  | .set _ _ => False
  | _ => True

theorem unset_of_talks {op : Op} (h : op.isFifoCommand) : Unset op := by
  cases op with
  | set v x => cases h
  | _ => trivial

theorem unset_of_wait {op : Op} (h : op.isWait) : Unset op := by
  cases op with
  | set v x => cases h
  | _ => trivial

variable {f : Feed} {c : Traffic × List Nat}

/-- What assigns no global adds no place. -/
theorem decides_unset {α : Type} {p : Code α} (h : Only Unset p) (hc : Decided f c.2) :
    Decides f p c := by
  refine h.follows (I := fun c : Traffic × List Nat => Decided f c.2) (fun c op hop _ => ?_) ?_ hc
  · cases op with
    | set v x => cases hop
    | _ => trivial
  · intro c op x c' hop hc hm
    rw [show c'.2 = noted c.1 c.2 op from hm.2]
    cases op with
    | set v x => cases hop
    | _ => exact hc

/-- A send adds no place. -/
theorem exec_send_notes {cmd : List UInt8} {wait : Bool} {t : Traffic} {reads : List Nat} {e : ErrT}
    {c : Traffic × List Nat} : Exec (notes f) (fpySendCommand cmd wait) (t, reads) e c ↔
      Exec f.machine (fpySendCommand cmd wait) t e c.1 ∧ c.2 = reads := by
  apply Feed.exec_beside ?_ (talks_fpySendCommand cmd wait)
  intro t reads op x c hop
  refine and_congr_right fun _ => ?_
  cases op with
  | inb port | outb port b | mark e => exact Iff.rfl
  | _ => cases hop

/-- A READ's send decides the place at which its flag was set. -/
theorem decides_send (p : FpyCmdReadSectorParams) (hc : Decided f c.2) :
    Decides f (fpySendCommand (p.cmd .readSect) true) (c.1, c.1.statuses :: c.2) := by
  have talks := talks_fpySendCommand (p.cmd .readSect) true
  refine Only.follows_exec (Q := fun _ c' => Decided f (Prod.snd c')) talks (fun _ op hop => ?_)
    fun e c' run => ?_
  · cases op with
    | set v x => cases hop
    | _ => trivial
  · obtain ⟨run, hreads⟩ := exec_send_notes.mp run
    rw [hreads]
    refine List.forall_mem_cons.mpr ⟨⟨p, c'.1.statuses, ?_⟩, hc⟩
    cases e with
    | some e => exact .inl (Feed.sendFails_of_exec run).1
    | none => exact .inr (Feed.sendGoes_of_exec run).1

theorem decides_fpyCmdReadSector (p : FpyCmdReadSectorParams) (hc : Decided f c.2) :
    Decides f (fpyCmdReadSector p) c := by
  have prepare : Follows (notes f) (fun _ op => op.arms) fpyPrepareIrqNoHandle
      (fun _ c' => c' = (c.1, c.1.statuses :: c.2)) c :=
    ⟨rfl, fun _ _ hm => Prod.ext hm.1 hm.2⟩
  refine prepare.to fun _ => (decides_send p hc).bind fun e c' hc' => ?_
  cases e with
  | some e => exact hc'
  | none =>
    have rest : Only Unset (fpyWaitIrq.bind fun _ => fpyCmdGenRes) :=
      (wait_fpyWaitIrq.mono fun _ => unset_of_wait).bind
        fun _ => talks_fpyCmdGenRes.mono fun _ => unset_of_talks
    exact decides_unset rest hc'

theorem decides_code (call : RaisingCall) (hc : Decided f c.2) : Decides f call.code c := by
  have other : ∀ (cmd : List UInt8) (wait : Bool), Decides f (fpySendCommand cmd wait) c :=
    fun cmd wait => decides_unset ((talks_fpySendCommand cmd wait).mono fun _ => unset_of_talks) hc
  cases call with
  | readSector p => exact (decides_fpyCmdReadSector p hc).bind fun _ _ h => h
  | seekHead p => exact (other p.cmd true).bind fun _ _ h => h
  | calibrateDrive p => exact Follows.bind (p := fpyCmdCalibrateDrive p) (other _ false) fun _ _ h => h

theorem decides_calls (calls : List RaisingCall) (hc : Decided f c.2) :
    Decides f (calls.forM RaisingCall.code) c := by
  induction calls generalizing c with
  | nil => exact hc
  | cons call calls ih => exact (decides_code call hc).bind fun _ _ => ih

/-- What every run keeps: the flag is set exactly when it was set since the last
interrupt. -/
structure Kept (s : Armed) : Prop where
  flag : s.vars.handleState = if s.fresh = 0 then 0 else 1
  fresh : s.fresh ≤ s.reads.length

/-- An operation of the main program keeps it. -/
theorem kept_main {s s' : Armed} {op : Op} {x : op.Ans} (h : s.Kept)
    (hop : op.arms) (hm : (system f).main s op x s') : s'.Kept := by
  obtain ⟨hvars, -, hreads, hfresh⟩ := hm
  have keep : s'.vars.handleState = s.vars.handleState → s'.reads = s.reads →
      s'.fresh = s.fresh → s'.Kept := by
    intro hflag hr hf
    refine ⟨?_, ?_⟩
    · rw [hflag, hf]
      exact h.flag
    · rw [hr, hf]
      exact h.fresh
  cases op with
  | set v y =>
    have hset : s'.vars = if v = .fpyIrqHandleState then { s.vars with handleState := y } else s.vars :=
      hvars
    cases v with
    | fpyIrqHandleState =>
      obtain rfl : y = 1 := hop
      have one : s'.fresh = s.fresh + 1 := hfresh
      refine ⟨?_, ?_⟩
      · simp [hset, one]
      · rw [hreads, one]
        exact Nat.succ_le_succ h.fresh
    | _ => exact keep (by rw [hset, if_neg (by decide)]) hreads hfresh
  | _ => exact keep (IrqVars.handleState_of_machine rfl hvars) hreads hfresh

/-- The handler, from a delivery, clears the flag or finds it clear. -/
theorem kept_handler (s : Armed) : Follows (system f).isr (fun _ _ => True) fpyInterruptHandler
    (fun _ => Kept) { s with fresh := 0 } := by
  have acknowledge : ∀ {t : Armed} {v : Received}, t.vars.handleState = 0 → t.fresh = 0 →
      Follows (system f).isr (fun _ _ => True) (do setReceived v; outb 0x20 0x20)
        (fun _ => Kept) t := by
    intro t v hflag hfresh
    refine ⟨trivial, ?_⟩
    rintro _ _ ⟨v₁, h₁, rfl⟩
    refine ⟨trivial, ?_⟩
    rintro _ _ ⟨v₂, h₂, rfl⟩
    refine ⟨?_, hfresh ▸ Nat.zero_le _⟩
    rw [if_pos hfresh, ← hflag]
    exact (IrqVars.handleState_of_machine rfl h₂).trans (IrqVars.handleState_of_machine rfl h₁)
  simp only [fpyInterruptHandler, Prog.bind_eq, get_bind, follows_vis]
  refine ⟨trivial, ?_⟩
  rintro st _ ⟨vars, ⟨rfl, hst⟩, rfl⟩
  split
  · refine ⟨trivial, ?_⟩
    rintro _ _ ⟨v, hv, rfl⟩
    exact acknowledge (congrArg IrqVars.handleState hv) rfl
  · rename_i hzero
    have hflag : s.vars.handleState = 0 := (hst rfl).symm.trans (not_not.mp hzero)
    have sense : Follows (system f).isr (fun _ _ => True) fpyCmdCheckInterrupt
        (fun _ t => t.vars.handleState = 0 ∧ t.fresh = 0) { s with fresh := 0 } := by
      refine talks_fpyCmdCheckInterrupt.follows (I := fun t : Armed => t.vars.handleState = 0 ∧ t.fresh = 0)
        (fun _ _ _ _ => trivial) ?_ ⟨hflag, rfl⟩
      rintro t op x _ hop ⟨ht, hfresh⟩ ⟨vars, hvars, rfl⟩
      have quiet : op.begins = false := by
        cases op with
        | set v x => cases hop
        | _ => rfl
      exact ⟨(IrqVars.handleState_of_machine quiet hvars).trans ht, hfresh⟩
    exact sense.bind fun r t ht => acknowledge ht.1 ht.2

/-! ## The next interrupt -/

/-- A SEEK's or a CALIBRATE's interrupt that comes with these globals, to a controller between
two commands, is sensed: when its handler returns the byte 8 was written, and taken for
CHECK_INT. -/
def Senses (vars : IrqVars) : Prop :=
  ∀ {b b₁ b₂ : Board} {heads : Nat}, b.vars = vars → b.dev = ⟨.ready .idle, heads, 0⟩ →
    Board.system.deliver b b₁ → Exec Board.system.isr fpyInterruptHandler b₁ () b₂ →
      ∃ r rs, b₂.runs = r :: rs ∧ r.src = .head ∧ r.sensed = true

/-- Such an interrupt, as its handler is entered. -/
theorem delivered_idle {b b₁ : Board} {heads : Nat} (hdev : b.dev = ⟨.ready .idle, heads, 0⟩)
    (hd : Board.system.deliver b b₁) : b₁.vars = b.vars ∧ b₁.dev.activity = .ready .idle ∧
      b₁.runs = Board.entered .head b :: b.runs := by
  obtain ⟨d, src, hends, hdeliver, hvars, -, -, hruns⟩ := hd
  obtain rfl : d = b.dev := by
    rcases hends with rfl | ⟨next, rest, hact, -⟩
    · rfl
    · rw [hdev] at hact
      cases hact
  have hact : b₁.dev.activity = .ready .idle := by
    rw [Board.delivers_activity hdeliver, hdev]
  cases src with
  | head => exact ⟨hvars, hact, hruns⟩
  | transfer =>
    rw [Device.delivers, hdev, if_pos rfl] at hdeliver
    cases hdeliver

/-- The handler with the flag set. -/
theorem exec_handler_set {b : Board} (hflag : b.vars.handleState ≠ 0) :
    ∃ b', Exec Board.system.isr fpyInterruptHandler b () b' := by
  simp only [fpyInterruptHandler, Prog.bind_eq, get_bind]
  have quiet : ∀ {s : Board} {op : Op}, Board.writesNothing op → s.runs = s.log op :=
    fun h => (Board.log_of_writesNothing h).symm
  let b₁ : Board := { b with vars := { b.vars with handleState := 0 } }
  let b₂ : Board := { b with vars := ⟨.ok, 0⟩ }
  have get : Board.system.isr b (.get .fpyIrqHandleState) b.vars.handleState b :=
    ⟨⟨rfl, fun _ => rfl⟩, rfl, rfl, rfl, quiet trivial⟩
  have set : Board.system.isr b (.set .fpyIrqHandleState 0) () b₁ :=
    ⟨rfl, rfl, rfl, rfl, quiet trivial⟩
  have woken : Board.system.isr b₁ (.setReceived .ok) () b₂ :=
    ⟨rfl, rfl, rfl, rfl, quiet (s := b₁) trivial⟩
  have other : (0x20 : UInt16) ≠ FPY_FIFO := by decide
  have acknowledged : Board.system.isr b₂ (.outb 0x20 0x20) () b₂ :=
    ⟨rfl, rfl, rfl, rfl, quiet (s := b₂) other⟩
  refine ⟨b₂, .vis get ?_⟩
  rw [if_pos hflag]
  exact .vis set (.vis woken (.vis acknowledged .pure))

/-- An interrupt is sensed exactly with the flag clear. -/
theorem senses_iff (vars : IrqVars) : Senses vars ↔ vars.handleState = 0 := by
  constructor
  · intro senses
    by_contra hflag
    let b : Board := { vars, dev := ⟨.ready .idle, 1, 0⟩ }
    let b₁ : Board :=
      { b with dev := ⟨.ready .idle, 0, 0⟩, begun := false, runs := [Board.entered .head b] }
    have hd : Board.system.deliver b b₁ := ⟨b.dev, .head, .inl rfl, rfl, rfl, rfl, rfl, rfl⟩
    obtain ⟨b₂, run⟩ := exec_handler_set (b := b₁) hflag
    obtain ⟨r, rs, hruns, -, hsensed⟩ := senses rfl rfl hd run
    have left := ((Board.runs_handler (s := b₁) rfl).exec run).1
    rw [if_pos hflag, hruns] at left
    cases left
    cases hsensed
  · intro hflag b b₁ b₂ heads hvars hdev hd run
    obtain ⟨hvars₁, hact, hruns⟩ := delivered_idle hdev hd
    have left := ((Board.runs_handler hruns).exec run).1
    rw [hvars₁, hvars, if_neg (not_not.mpr hflag)] at left
    refine ⟨_, _, left, ?_⟩
    simp only [Board.offered, hact, Board.logged, Device.completes, if_true]
    have taken : Phase.idle.completes FpyCmd.checkInt.val = some [FpyCmd.checkInt.val] := by decide
    exact ⟨rfl, by rw [decide_eq_true taken, Bool.or_true]⟩

/-- No READ's flag is left over: with no READ outstanding the flag is clear, and the
next interrupt is sensed. -/
def Disarmed (f : Feed) (s : Armed) : Prop :=
  ¬ s.Outstanding f → s.vars.handleState = 0 ∧ Senses s.vars

/-- At the end of any calls, whatever interrupts came, the flag is clear exactly when
no READ failed. -/
theorem disarmed_iff {calls : List RaisingCall} {r : Received} {s : Armed}
    (run : (system f).Reach (.main (calls.forM RaisingCall.code), { vars := ⟨r, 0⟩ })
      (.main (.pure ()), s)) :
    s.Disarmed f ↔ (¬ s.Outstanding f → ¬ s.Failed f) := by
  have kept : (system f).Keeps (fun s : Armed => (s.traffic, s.reads)) (notes f) (fun _ op => op.arms)
      (fun _ _ => True) Kept (fun (_ : Unit) c => Decided f c.2) (.main (.pure ()), s) := by
    refine System.invariant ?_ ?_ ?_ kept_main ?_ ⟨rfl, Nat.le_refl 0⟩
      (decides_calls calls fun _ h => absurd h List.not_mem_nil) run
    · rintro s op x s' ⟨-, htraffic, hreads, -⟩
      exact ⟨htraffic, hreads⟩
    · rintro s op x _ ⟨vars, -, rfl⟩
      rfl
    · rintro s _ rfl
      rfl
    · rintro s _ - rfl
      exact kept_handler s
  obtain ⟨h, decided⟩ := kept
  have decided : Decided f s.reads := decided
  constructor
  · rintro disarmed ho ⟨n, hn, -⟩
    have flag := h.flag
    rw [(disarmed ho).1] at flag
    split at flag
    · rename_i none
      rw [none] at hn
      cases hn
    · cases flag
  · intro clear ho
    have none : s.fresh = 0 := by
      by_contra hfresh
      cases hreads : s.reads with
      | nil =>
        have := h.fresh
        rw [hreads] at this
        exact hfresh (Nat.le_zero.mp this)
      | cons n reads =>
        have hn : n ∈ s.reads.take s.fresh := by
          obtain ⟨k, hk⟩ := Nat.exists_eq_succ_of_ne_zero hfresh
          simp [hreads, hk]
        obtain ⟨p, n', fails | goes⟩ := decided n (List.mem_of_mem_take hn)
        · exact clear ho ⟨n, hn, p, n', fails⟩
        · exact ho ⟨n, hn, p, n', goes⟩
    have flag : s.vars.handleState = 0 := h.flag.trans (if_pos none)
    exact ⟨flag, (senses_iff s.vars).mpr flag⟩

/-- THE LAW of a READ's flag. A READ whose send the controller's statuses make fail, with no
interrupt meanwhile, leaves both globals as they were exactly when the flag was set before;
and at the end of any calls with any interrupts, from a clear flag, no flag is left over
exactly when, with no READ outstanding, the statuses have made no READ's send fail since the
last interrupt. -/
theorem fpyCmdReadSector_disarms_iff (f : Feed) (p : FpyCmdReadSectorParams) (vars : IrqVars)
    {calls : List RaisingCall} {r : Received} {s : Armed}
    (run : (system f).Reach (.main (calls.forM RaisingCall.code), { vars := ⟨r, 0⟩ })
      (.main (.pure ()), s)) :
    (FailureKeeps p vars ↔ vars.handleState = 1) ∧
      (s.Disarmed f ↔ (¬ s.Outstanding f → ¬ s.Failed f)) :=
  ⟨failureKeeps_iff p vars, disarmed_iff run⟩

/-- The READ of `floppy_test`. -/
def firstSector : FpyCmdReadSectorParams := testParams 0 ⟨0, 0, 1⟩

/-- What it leaves of a controller that is silent. -/
def refused : Armed := { vars := ⟨.wait, 1⟩, traffic := silent.look {}, reads := [0], fresh := 1 }

theorem exec_refused : Exec (system silent).main (fpyCmdReadSector firstSector)
    { vars := ⟨.wait, 0⟩ } { error := some (mkErr 193 "bad msr values") } refused := by
  let armed : Armed := { vars := ⟨.wait, 1⟩, reads := [0], fresh := 1 }
  have set : (system silent).main { vars := ⟨.wait, 0⟩ } (.set .fpyIrqHandleState 1) () armed :=
    ⟨rfl, rfl, rfl, rfl⟩
  have mark : ∀ (s : Armed) (e : Event), (system silent).main s (.mark e) () s :=
    fun _ _ => ⟨rfl, rfl, rfl, rfl⟩
  have status : (system silent).main armed (.inb FPY_MSR) (0 : UInt8) refused :=
    ⟨rfl, ⟨rfl, rfl⟩, rfl, rfl⟩
  exact .vis set (.vis (mark _ _) (.vis status (.vis (mark _ _) .pure)))

theorem reach_refused : (system silent).Reach
    (.main ([.readSector firstSector].forM RaisingCall.code), { vars := ⟨.wait, 0⟩ })
    (.main (.pure ()), refused) := by
  have call : Exec (system silent).main (RaisingCall.readSector firstSector).code
      { vars := ⟨.wait, 0⟩ } () refused := exec_bind.mpr ⟨_, _, exec_refused, .pure⟩
  have calls : Exec (system silent).main ([.readSector firstSector].forM RaisingCall.code)
      { vars := ⟨.wait, 0⟩ } () refused := exec_bind.mpr ⟨(), _, call, .pure⟩
  exact System.reach_main calls.reach

theorem refused_not_outstanding : ¬ refused.Outstanding silent := by
  rintro ⟨n, -, p, n', goes, -⟩
  exact absurd goes (show ¬ Feed.refuses 0 = false by decide)

/-- The law applies to that run. -/
theorem refused_disarmed_iff : (FailureKeeps firstSector ⟨.wait, 0⟩ ↔ (0 : UInt8) = 1) ∧
    (refused.Disarmed silent ↔ (¬ refused.Outstanding silent → ¬ refused.Failed silent)) :=
  fpyCmdReadSector_disarms_iff silent firstSector ⟨.wait, 0⟩ reach_refused

/-- A refused READ leaves the flag set, and the next interrupt is not sensed. -/
theorem refused_read_leaves_flag :
    ¬ FailureKeeps firstSector ⟨.wait, 0⟩ ∧ ∃ s, (system silent).Reach
      (.main ([.readSector firstSector].forM RaisingCall.code), { vars := ⟨.wait, 0⟩ })
      (.main (.pure ()), s) ∧ ¬ s.Outstanding silent ∧ s.vars.handleState ≠ 0 ∧ ¬ Senses s.vars := by
  have set : refused.vars.handleState ≠ 0 := by decide
  refine ⟨?_, refused, reach_refused, refused_not_outstanding, set, ?_⟩
  · rw [failureKeeps_iff]
    decide
  · exact fun h => set ((senses_iff _).mp h)

end Armed

end ToyBootloader
