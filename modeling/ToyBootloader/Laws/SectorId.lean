import ToyBootloader.Attended
import ToyBootloader.Laws.Outcomes

/-!
# READ_ID and its flag

`fpy_cmd_read_sector_id` is the one command that reports in a `bool`. Each of its
five steps assigns an `err_t` to it, so a step that fails makes it true, and each
step is followed by the test of the commands that report an `err_t`, negated: the
function goes on where a step failed and stops at the first that went well.

What it reports is therefore true exactly when all five steps failed. The claim a
flag named `succcess` makes is that all five went well; the two agree in between,
where both are false.
-/

namespace ToyBootloader

open Resumption

namespace Feed

variable {f : Feed} {s s' : Traffic} {cmd bs : List UInt8} {b v msr : UInt8} {wait : Bool}
  {n k n' k' : Nat} {err : String}

/-! ## Seven reads -/

theorem exec_readAll_succ {vs : List UInt8} : Exec f.machine (readAll (k + 1)) s vs s' ↔
    ∃ v s₁, Exec f.machine fpyReadData s v s₁ ∧
      ∃ rest, Exec f.machine (readAll k) s₁ rest s' ∧ vs = v :: rest := by
  rw [readAll, exec_bind]
  simp only [exec_bind, exec_pure]
  constructor
  · rintro ⟨v, s₁, read, rest, s₂, reads, rfl, rfl⟩
    exact ⟨v, s₁, read, rest, reads, rfl⟩
  · rintro ⟨v, s₁, read, rest, reads, rfl⟩
    exact ⟨v, s₁, read, rest, s', reads, rfl, rfl⟩

/-- Seven bytes can be read whose first three pass exactly when three that pass are
answered. -/
theorem verdicts_good_iff : (∃ bytes s', Exec f.machine (readAll 7) s bytes s' ∧
    StatusPasses bytes) ↔ f.Verdicts true statusChecks s.statuses s.bytes := by
  constructor
  · rintro ⟨bytes, s', run, pass⟩
    obtain ⟨st0, s₁, read₀, _, run₁, rfl⟩ := exec_readAll_succ.mp run
    obtain ⟨st1, s₂, read₁, _, run₂, rfl⟩ := exec_readAll_succ.mp run₁
    obtain ⟨st2, s₃, read₂, _, run₃, rfl⟩ := exec_readAll_succ.mp run₂
    obtain ⟨c₀, c₁, c₂⟩ := pass
    exact ⟨_, _, _, answers_of_exec read₀, Option.isNone_iff_eq_none.mpr c₀,
      _, _, _, answers_of_exec read₁, Option.isNone_iff_eq_none.mpr c₁,
      _, _, _, answers_of_exec read₂, Option.isNone_iff_eq_none.mpr c₂, trivial⟩
  · rintro ⟨st0, _, _, a₀, c₀, st1, _, _, a₁, c₁, st2, _, _, a₂, c₂, -⟩
    obtain ⟨s₁, read₀, rfl, rfl⟩ := exec_of_answers a₀
    obtain ⟨s₂, read₁, rfl, rfl⟩ := exec_of_answers a₁
    obtain ⟨s₃, read₂, rfl, rfl⟩ := exec_of_answers a₂
    obtain ⟨rest, s', reads⟩ := exists_readAll f 4 s₃
    have run₂ := exec_readAll_succ.mpr ⟨st2, s₃, read₂, rest, reads, rfl⟩
    have run₁ := exec_readAll_succ.mpr ⟨st1, s₂, read₁, _, run₂, rfl⟩
    have run₀ := exec_readAll_succ.mpr ⟨st0, s₁, read₀, _, run₁, rfl⟩
    exact ⟨_, s', run₀, Option.isNone_iff_eq_none.mp c₀, Option.isNone_iff_eq_none.mp c₁,
      Option.isNone_iff_eq_none.mp c₂⟩

end Feed

/-! ## The function as it is -/

open Feed

/-- Go on with `next` where `step` failed, and stop where it did not. -/
def onError {α : Type} (step : Code ErrT) (stop : α) (next : Code α) : Code α :=
  step.bind fun e => e.elim (.pure stop) fun _ => next

/-- A byte read, and the test on its check. -/
def onRefused {α : Type} (check : UInt8 → ErrT) (stop : UInt8 → α) (next : UInt8 → Code α) :
    Code α :=
  fpyReadData.bind fun v => onError (checked (check v)) (stop v) (next v)

/-- The result that reports success, of three bytes that were refused and the
rest. -/
def reportedId (st0 st1 st2 : UInt8) (vs : List UInt8) : FpyCmdReadSectorIdRes :=
  { succcess := true, st0, st1, st2, cylinder := vs.getD 0 0, head := vs.getD 1 0,
    sector := vs.getD 2 0, sectorSize := vs.getD 3 0 }

/-- `fpy_cmd_read_sector_id` as its five steps. -/
theorem fpyCmdReadSectorId_eq (p : FpyCmdHeadParam) : fpyCmdReadSectorId p =
    (onError (fpySendCommand (readSectorIdCmd p) false) { succcess := false } <|
      onError fpyWaitIrq { succcess := false } <|
      onRefused fpyCheckSt0 (fun st0 => { succcess := false, st0 }) fun st0 =>
      onRefused fpyCheckSt1 (fun st1 => { succcess := false, st0, st1 }) fun st1 =>
      onRefused fpyCheckSt2 (fun st2 => { succcess := false, st0, st1, st2 }) fun st2 =>
        (readAll 4).bind fun vs => .pure (reportedId st0 st1 st2 vs)) := by
  have step : ∀ {α : Type} {p : Code ErrT} {g h : ErrT → Code α}, (∀ e, g e = h e) →
      p.bind g = p.bind h := fun heq => congrArg _ (funext heq)
  have read : ∀ {α : Type} {p : Code UInt8} {g h : UInt8 → Code α}, (∀ v, g v = h v) →
      p.bind g = p.bind h := fun heq => congrArg _ (funext heq)
  unfold fpyCmdReadSectorId onRefused onError
  simp only [readAll, Prog.bind_assoc, Prog.pure_bind]
  apply step
  rintro (_ | e)
  · rfl
  apply step
  rintro (_ | e)
  · rfl
  apply read
  intro st0
  apply step
  rintro (_ | e)
  · rfl
  apply read
  intro st1
  apply step
  rintro (_ | e)
  · rfl
  apply read
  intro st2
  apply step
  rintro (_ | e) <;> rfl

theorem exec_onError {σ : Type} {M : Machine ops σ} {step : Code ErrT}
    {stop res : FpyCmdReadSectorIdRes} {next : Code FpyCmdReadSectorIdRes} {s s' : σ}
    (hstop : stop.succcess = false) :
    Exec M (onError step stop next) s res s' ∧ res.succcess = true ↔
      ∃ err s₁, Exec M step s (some err) s₁ ∧ Exec M next s₁ res s' ∧ res.succcess = true := by
  unfold onError
  rw [exec_bind]
  constructor
  · rintro ⟨⟨e, s₁, run, rest⟩, hres⟩
    cases e with
    | some err => exact ⟨err, s₁, run, rest, hres⟩
    | none =>
      obtain ⟨rfl, -⟩ := exec_pure.mp rest
      rw [hstop] at hres
      cases hres
  · rintro ⟨err, s₁, run, rest, hres⟩
    exact ⟨⟨some err, s₁, run, rest⟩, hres⟩

theorem talks_readAll (k : Nat) : Talks (readAll k) :=
  (input_readAll k).mono fun _ h => (Op.isInput.isFifo h).isFifoCommand

namespace Attended

variable {a : Attended} {p : FpyCmdHeadParam} {s : Traffic} {n : Nat} {c : State}
  {res : FpyCmdReadSectorIdRes}

theorem exec_onRefused {check : UInt8 → ErrT} {stop : UInt8 → FpyCmdReadSectorIdRes}
    {next : UInt8 → Code FpyCmdReadSectorIdRes} (hstop : ∀ v, (stop v).succcess = false) :
    Exec a.machine (onRefused check stop next) (s, n) res c ∧ res.succcess = true ↔
      ∃ v s₁, Exec a.toFeed.machine fpyReadData s v s₁ ∧ (check v).isNone = false ∧
        Exec a.machine (next v) (s₁, n) res c ∧ res.succcess = true := by
  have judged : ∀ {e e' : ErrT} {s : Traffic} {c : State},
      Exec a.machine (checked e) (s, n) e' c ↔ e' = e ∧ c = (s, n) := by
    intro e e' s c
    rw [exec_framed (talks_checked e)]
    unfold checked
    simp only [Prog.bind_eq, Code.mark_bind, exec_vis, machine_mark, exists_eq_left, exists_const,
      Prog.pure_eq, exec_pure, and_assoc, Prod.ext_iff]
  unfold onRefused
  rw [exec_bind]
  constructor
  · rintro ⟨⟨v, ⟨s₁, n₁⟩, read, rest⟩, hres⟩
    obtain ⟨read', rfl⟩ := (exec_framed talks_fpyReadData).mp read
    obtain ⟨err, d, check, later⟩ := (exec_onError (hstop v)).mp ⟨rest, hres⟩
    obtain ⟨herr, rfl⟩ := judged.mp check
    exact ⟨v, s₁, read', by rw [← herr]; rfl, later⟩
  · rintro ⟨v, s₁, read, hcheck, rest⟩
    obtain ⟨err, herr⟩ := Option.isSome_iff_exists.mp (Option.isNone_eq_false_iff.mp hcheck)
    obtain ⟨run, hres⟩ := (exec_onError (hstop v)).mpr
      ⟨err, (s₁, n), judged.mpr ⟨herr.symm, rfl⟩, rest⟩
    exact ⟨⟨v, (s₁, n), (exec_framed talks_fpyReadData).mpr ⟨read, rfl⟩, run⟩, hres⟩

/-! ## When it reports success -/

/-- The send fails, the wait returns an error, and the bytes then answered are
refused by all three checks. -/
def AllFail (a : Attended) (p : FpyCmdHeadParam) : Prop :=
  ∃ n, a.SendFails (readSectorIdCmd p) 0 n ∧ (∃ m, a.Woken 0 m ∧ a.waitErr (m + 1) ≠ noErr) ∧
    a.Verdicts false statusChecks n 0

/-- The send goes through, the wait returns no error, and the bytes then answered
pass all three checks. -/
def AllGo (a : Attended) (p : FpyCmdHeadParam) : Prop :=
  ∃ n, a.SendGoes false (readSectorIdCmd p) 0 n ∧ (∃ m, a.Woken 0 m ∧ a.waitErr (m + 1) = noErr) ∧
    a.Verdicts true statusChecks n 0

/-- Success is reported exactly when every step failed. -/
theorem reports_success_iff : (∃ res c, Exec a.machine (fpyCmdReadSectorId p) ({}, 0) res c ∧
    res.succcess = true) ↔ a.AllFail p := by
  have woken : ∀ {e : ErrT} {s : Traffic}, (∃ t, Exec a.machine fpyWaitIrq (s, 0) e (s, t)) ↔
      ∃ m, a.Woken 0 m ∧ e = a.waitErr (m + 1) := by
    intro e s
    rw [exec_fpyWaitIrq, and_iff_right rfl]
    simp only [Nat.zero_add]
  rw [fpyCmdReadSectorId_eq]
  constructor
  · rintro ⟨res, c, both⟩
    obtain ⟨err, ⟨s₀, n₀⟩, send, waits⟩ := (exec_onError rfl).mp both
    obtain ⟨send', rfl⟩ := (exec_framed (talks_fpySendCommand _ _)).mp send
    obtain ⟨werr, ⟨s₁, n₁⟩, wait, reads₀⟩ := (exec_onError rfl).mp waits
    obtain ⟨rfl, m, hm, he⟩ := exec_fpyWaitIrq.mp ⟨n₁, wait⟩
    obtain ⟨st0, s₂, read₀, c₀, reads₁⟩ := (exec_onRefused fun _ => rfl).mp reads₀
    obtain ⟨st1, s₃, read₁, c₁, reads₂⟩ := (exec_onRefused fun _ => rfl).mp reads₁
    obtain ⟨st2, s₄, read₂, c₂, -⟩ := (exec_onRefused fun _ => rfl).mp reads₂
    obtain ⟨fails, (hbytes : _ = 0)⟩ := sendFails_of_exec send'
    refine ⟨s₁.statuses, fails, ⟨m, hm, ?_⟩, ?_⟩
    · rw [Nat.zero_add] at he
      rw [← he]
      exact Option.some_ne_none _
    · rw [← hbytes]
      exact ⟨_, _, _, answers_of_exec read₀, c₀, _, _, _, answers_of_exec read₁, c₁,
        _, _, _, answers_of_exec read₂, c₂, trivial⟩
  · rintro ⟨n, fails, ⟨m, hm, he⟩, st0, _, _, a₀, c₀, st1, _, _, a₁, c₁, st2, _, _, a₂, c₂, -⟩
    obtain ⟨err, s₁, send, rfl, (hbytes : _ = 0)⟩ := exec_of_sendFails (s := {}) false fails
    obtain ⟨werr, hw⟩ := Option.ne_none_iff_exists'.mp he
    obtain ⟨n₁, wait⟩ := woken (s := s₁).mpr ⟨m, hm, hw.symm⟩
    rw [← hbytes] at a₀
    obtain ⟨s₂, read₀, rfl, rfl⟩ := exec_of_answers a₀
    obtain ⟨s₃, read₁, rfl, rfl⟩ := exec_of_answers a₁
    obtain ⟨s₄, read₂, rfl, rfl⟩ := exec_of_answers a₂
    obtain ⟨vs, s₅, reads⟩ := exists_readAll a.toFeed 4 s₄
    have tail : Exec a.machine ((readAll 4).bind fun vs => .pure (reportedId st0 st1 st2 vs))
        (s₄, n₁) (reportedId st0 st1 st2 vs) (s₅, n₁) :=
      exec_bind.mpr ⟨vs, (s₅, n₁), (exec_framed (talks_readAll 4)).mpr ⟨reads, rfl⟩, .pure⟩
    -- The run, from the first step on; each is taken from what was answered above.
    refine ⟨reportedId st0 st1 st2 vs, (s₅, n₁), ?_⟩
    apply (exec_onError rfl).mpr
    refine ⟨err, (s₁, 0), (exec_framed (talks_fpySendCommand _ _)).mpr ⟨send, rfl⟩, ?_⟩
    apply (exec_onError rfl).mpr
    refine ⟨werr, (s₁, n₁), wait, ?_⟩
    apply (exec_onRefused fun _ => rfl).mpr
    refine ⟨st0, s₂, read₀, c₀, ?_⟩
    apply (exec_onRefused fun _ => rfl).mpr
    refine ⟨st1, s₃, read₁, c₁, ?_⟩
    apply (exec_onRefused fun _ => rfl).mpr
    exact ⟨st2, s₄, read₂, c₂, tail, rfl⟩

/-! ## What it should report -/

/-- The five steps of a READ_ID go well one after the other, with these seven bytes
read, and end in `c`. -/
def Succeeds (a : Attended) (p : FpyCmdHeadParam) (bytes : List UInt8) (c : State) : Prop :=
  ∃ c₁ c₂, Exec a.machine (fpySendCommand (readSectorIdCmd p) false) ({}, 0) noErr c₁ ∧
    Exec a.machine fpyWaitIrq c₁ noErr c₂ ∧ Exec a.machine (readAll 7) c₂ bytes c ∧
    StatusPasses bytes

/-- The members of the result, in the order the controller sends them. -/
def idBytes (res : FpyCmdReadSectorIdRes) : List UInt8 :=
  [res.st0, res.st1, res.st2, res.cylinder, res.head, res.sector, res.sectorSize]

/-- `fpy_cmd_read_sector_id` reports success exactly when it succeeded. -/
structure ReportsExactly (a : Attended) (p : FpyCmdHeadParam) : Prop where
  /-- The flag says whether the five steps went well. -/
  flag : ∀ res c, Exec a.machine (fpyCmdReadSectorId p) ({}, 0) res c →
    (res.succcess = true ↔ ∃ bytes c', Succeeds a p bytes c')
  /-- Where they did, the result has the seven bytes in order, and no more was read. -/
  stored : ∀ res c bytes c', Exec a.machine (fpyCmdReadSectorId p) ({}, 0) res c →
    Succeeds a p bytes c' → idBytes res = bytes ∧ c = c'
  /-- It is the verdict of `fpy_cmd_gen_res` on the same bytes. -/
  verdict : ∀ res c c₁ c₂ gen c', Exec a.machine (fpyCmdReadSectorId p) ({}, 0) res c →
    Exec a.machine (fpySendCommand (readSectorIdCmd p) false) ({}, 0) noErr c₁ →
    Exec a.machine fpyWaitIrq c₁ noErr c₂ → Exec a.machine fpyCmdGenRes c₂ gen c' →
    (res.succcess = true ↔ gen.error = noErr)

/-- What a send and a wait that went well say of the streams. -/
theorem goes_of_exec {c₁ c₂ : State}
    (send : Exec a.machine (fpySendCommand (readSectorIdCmd p) false) ({}, 0) noErr c₁)
    (wait : Exec a.machine fpyWaitIrq c₁ noErr c₂) :
    a.SendGoes false (readSectorIdCmd p) 0 c₂.1.statuses ∧ c₂.1.bytes = 0 ∧
      ∃ m, a.Woken 0 m ∧ a.waitErr (m + 1) = noErr := by
  obtain ⟨s₁, n₁⟩ := c₁
  obtain ⟨s₂, n₂⟩ := c₂
  obtain ⟨send', rfl⟩ := (exec_framed (talks_fpySendCommand _ _)).mp send
  obtain ⟨rfl, m, woken, he⟩ := exec_fpyWaitIrq.mp ⟨n₂, wait⟩
  obtain ⟨goes, hbytes⟩ := sendGoes_of_exec send'
  rw [Nat.zero_add] at he
  exact ⟨goes, hbytes, m, woken, he.symm⟩

/-- The steps can go well exactly when the streams let them. -/
theorem succeeds_iff : (∃ bytes c, Succeeds a p bytes c) ↔ a.AllGo p := by
  constructor
  · rintro ⟨bytes, ⟨s₃, n₃⟩, c₁, ⟨s₂, n₂⟩, send, wait, reads, pass⟩
    obtain ⟨goes, hbytes, woken⟩ := goes_of_exec send wait
    obtain ⟨reads', -⟩ := (exec_framed (talks_readAll 7)).mp reads
    have good := verdicts_good_iff.mp ⟨bytes, s₃, reads', pass⟩
    rw [hbytes] at good
    exact ⟨_, goes, woken, good⟩
  · rintro ⟨n, goes, ⟨m, woken, he⟩, good⟩
    obtain ⟨s₁, send, rfl⟩ := exec_of_sendGoes (s := {}) goes
    obtain ⟨-, (hbytes : _ = 0)⟩ := sendGoes_of_exec send
    rw [← hbytes] at good
    obtain ⟨bytes, s₂, reads, pass⟩ := verdicts_good_iff.mpr good
    obtain ⟨n₁, wait⟩ := (exec_fpyWaitIrq (s := s₁) (n := 0)).mpr
      ⟨rfl, m, woken, by rw [Nat.zero_add, he]⟩
    exact ⟨bytes, (s₂, n₁), (s₁, 0), (s₁, n₁),
      (exec_framed (talks_fpySendCommand _ _)).mpr ⟨send, rfl⟩, wait,
      (exec_framed (talks_readAll 7)).mpr ⟨reads, rfl⟩, pass⟩

/-- Where the command is sent the function stops at once, and reports no success. -/
theorem exists_run_of_sent {c₁ : State}
    (send : Exec a.machine (fpySendCommand (readSectorIdCmd p) false) ({}, 0) noErr c₁) :
    Exec a.machine (fpyCmdReadSectorId p) ({}, 0) { succcess := false } c₁ := by
  rw [fpyCmdReadSectorId_eq]
  exact exec_bind.mpr ⟨noErr, c₁, send, .pure⟩

/-- A READ_ID that goes well is reported not to have. -/
theorem ReportsExactly.not_allGo (h : ReportsExactly a p) : ¬ a.AllGo p := by
  intro go
  obtain ⟨bytes, c, c₁, c₂, send, rest⟩ := succeeds_iff.mpr go
  have := (h.flag _ _ (exists_run_of_sent send)).mpr ⟨bytes, c, c₁, c₂, send, rest⟩
  cases this

/-- For every stream of statuses, FIFO bytes and pointers, the flag of READ_ID says
what it should exactly when its five steps neither all go well nor all fail. -/
theorem fpyCmdReadSectorId_reports_iff (a : Attended) (p : FpyCmdHeadParam) :
    ReportsExactly a p ↔ ¬ a.AllGo p ∧ ¬ a.AllFail p := by
  constructor
  · intro h
    constructor
    · exact h.not_allGo
    · intro fail
      obtain ⟨res, c, run, hres⟩ := reports_success_iff.mpr fail
      obtain ⟨bytes, c', c₁, c₂, send, -⟩ := (h.flag res c run).mp hres
      have unsent := exists_run_of_sent send
      obtain ⟨rfl, -⟩ := run.deterministic Simulator.machine_deterministic unsent
      cases hres
  · rintro ⟨noGo, noFail⟩
    have silent : ∀ {res c}, Exec a.machine (fpyCmdReadSectorId p) ({}, 0) res c →
        ¬ res.succcess = true := fun run hres => noFail (reports_success_iff.mp ⟨_, _, run, hres⟩)
    constructor
    · intro res c run
      exact iff_of_false (silent run) fun success => noGo (succeeds_iff.mp success)
    · intro res c bytes c' _ success
      exact absurd (succeeds_iff.mp ⟨bytes, c', success⟩) noGo
    · intro res c c₁ ⟨s₂, n₂⟩ gen c' run send wait check
      apply iff_of_false (silent run)
      intro herr
      obtain ⟨goes, hbytes, woken⟩ := goes_of_exec send wait
      obtain ⟨check', -⟩ := (exec_framed talks_fpyCmdGenRes).mp check
      have good := (genRes_verdict check').mp herr
      rw [hbytes] at good
      exact noGo ⟨_, goes, woken, good⟩

/-- A drive that takes the command, interrupts, and answers seven bytes of zero. -/
def goodDrive : Attended := { always 0x80 with pointer := fun _ => .ok }

/-- Its READ_ID goes well and is reported not to have. -/
theorem fpyCmdReadSectorId_misreports : ¬ ReportsExactly goodDrive ⟨0, 0⟩ := by
  intro exactly
  have asserted : mrq 0x80 = true := by decide
  have ready : ∀ n, goodDrive.Ready n 0 := fun n => first_zero.mpr asserted
  have zero : ∀ n k, goodDrive.Answers n k 0 (n + 1) (k + 1) := fun n k =>
    .byte (by decide) (ready n)
  apply exactly.not_allGo
  refine ⟨5, ⟨rfl, 0, ready 1, 0, by decide, ready 2, 0, ready 3, 0, by decide, ready 4, rfl⟩,
    ⟨0, first_zero.mpr rfl, rfl⟩, ?_⟩
  exact ⟨0, 6, 1, zero 5 0, rfl, 0, 7, 2, zero 6 1, rfl, 0, 8, 3, zero 7 2, rfl, trivial⟩

end Attended

end ToyBootloader
