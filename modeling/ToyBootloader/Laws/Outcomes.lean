import ToyBootloader.Laws.Results
import ToyBootloader.Resumption.Frame

/-!
# What a send and a read come to

A command gets sent or does not, and a result passes its checks or does not, and the
two streams say which, from the place they were read up to on. Each outcome is stated
on the streams and shown to be the driver's: the laws of what the driver does about an
error, or fails to do, name the statuses and the bytes that make it.
-/

namespace ToyBootloader.Feed

open Resumption

variable {f : Feed} {s s' : Traffic} {cmd bs : List UInt8} {b v msr : UInt8} {wait : Bool}
  {n k n' k' : Nat} {err : String}

/-! ## One read -/

/-- What `fpy_read_data` answers from the `n`th status and the `k`th byte on, and
the places in the two streams it leaves. -/
inductive Answers (f : Feed) (n k : Nat) : UInt8 → Nat → Nat → Prop
  | byte {m : Nat} : m < 1000 → f.Ready n m → Answers f n k (f.data k) (n + (m + 1)) (k + 1)
  | timeout : f.Silent n → Answers f n k 0xFF (n + 1000) k

theorem answers_of_exec (run : Exec f.machine fpyReadData s v s') :
    f.Answers s.statuses s.bytes v s'.statuses s'.bytes := by
  rcases exec_fpyReadData.mp run with ⟨m, hm, ready, rfl, rfl⟩ | ⟨silent, rfl, hs'⟩
  · simpa only [statuses_take, statuses_looks, bytes_take, bytes_looks] using
      Answers.byte hm ready
  · rw [hs', statuses_looks, bytes_looks]
    exact .timeout silent

theorem exec_of_answers (h : f.Answers s.statuses s.bytes v n k) :
    ∃ s', Exec f.machine fpyReadData s v s' ∧ s'.statuses = n ∧ s'.bytes = k := by
  cases h with
  | byte hm ready =>
    refine ⟨_, exec_fpyReadData.mpr (.inl ⟨_, hm, ready, rfl, rfl⟩), ?_, ?_⟩
    · rw [statuses_take, statuses_looks]
    · rw [bytes_take, bytes_looks]
  | timeout silent =>
    exact ⟨_, exec_fpyReadData.mpr (.inr ⟨silent, rfl, rfl⟩), statuses_looks _, bytes_looks _⟩

/-- The bytes the next reads answer get the verdict `good` from the checks, one
after the other. -/
def Verdicts (f : Feed) (good : Bool) : List (UInt8 → ErrT) → (n k : Nat) → Prop
  | [], _, _ => True
  | check :: checks, n, k => ∃ v n' k', f.Answers n k v n' k' ∧ (check v).isNone = good ∧
      f.Verdicts good checks n' k'

/-- The checks of the three status bytes. -/
def statusChecks : List (UInt8 → ErrT) := [fpyCheckSt0, fpyCheckSt1, fpyCheckSt2]

/-! ## A send that fails -/

/-- From the `n`th status on the bytes that are left are sent up to one that times
out, at the `n'`th. -/
def TimesOut (f : Feed) : List UInt8 → (n n' : Nat) → Prop
  | [], _, _ => False
  | _ :: bs, n, n' => ∃ m, f.Ready n m ∧
      (f.Silent (n + (m + 1)) ∧ n' = n + (m + 1) + 1000 ∨
        ∃ m' < 1000, f.Ready (n + (m + 1)) m' ∧ f.TimesOut bs (n + (m + 1) + (m' + 1)) n')

theorem timesOut_of_exec (hmsr : dataio msr = false)
    (run : Exec f.machine (fpySendCommandLoop msr wait bs) s (some err) s') :
    f.TimesOut bs s.statuses s'.statuses ∧ s'.bytes = s.bytes := by
  induction bs generalizing s with
  | nil =>
    have := (exec_loop_nil.mp run).1
    cases this
  | cons b bs ih =>
    obtain ⟨m, ready, ⟨m', hm', ready', rest⟩ | ⟨silent, -, hs'⟩⟩ := (exec_loop_cons hmsr).mp run
    · obtain ⟨later, hbytes⟩ := ih rest
      simp only [statuses_put, statuses_looks] at later
      refine ⟨⟨m, ready, .inr ⟨m', hm', ready', later⟩⟩, ?_⟩
      rw [hbytes, put, bytes_looks, bytes_looks]
    · rw [hs', statuses_looks, statuses_looks, bytes_looks, bytes_looks]
      exact ⟨⟨m, ready, .inl ⟨silent, rfl⟩⟩, rfl⟩

theorem exec_of_timesOut (wait : Bool) (hmsr : dataio msr = false) (h : f.TimesOut bs s.statuses n') :
    ∃ err s', Exec f.machine (fpySendCommandLoop msr wait bs) s (some err) s' ∧
      s'.statuses = n' ∧ s'.bytes = s.bytes := by
  induction bs generalizing s with
  | nil => cases h
  | cons b bs ih =>
    obtain ⟨m, ready, ⟨silent, rfl⟩ | ⟨m', hm', ready', later⟩⟩ := h
    · refine ⟨_, _, (exec_loop_cons hmsr).mpr ⟨m, ready, .inr ⟨silent, rfl, rfl⟩⟩, ?_, ?_⟩
      · rw [statuses_looks, statuses_looks]
      · rw [bytes_looks, bytes_looks]
    · have rest : f.TimesOut bs (put b (f.look^[m' + 1] (f.look^[m + 1] s))).statuses n' := by
        simpa only [statuses_put, statuses_looks] using later
      obtain ⟨err, s', run, hs', hbytes⟩ := ih rest
      refine ⟨err, s', (exec_loop_cons hmsr).mpr ⟨m, ready, .inl ⟨m', hm', ready', run⟩⟩, hs', ?_⟩
      rw [hbytes, put, bytes_looks, bytes_looks]

/-- From the `n`th status on the command gets sent, before the `n'`th. -/
def SendGoes (f : Feed) (wait : Bool) (cmd : List UInt8) (n n' : Nat) : Prop :=
  refuses (f.status n) = false ∧ f.Sent wait cmd (n + 1) n'

/-- From the `n`th status on the command is refused, or a byte of it times out, before
the `n'`th. -/
def SendFails (f : Feed) (cmd : List UInt8) (n n' : Nat) : Prop :=
  refuses (f.status n) = true ∧ n' = n + 1 ∨
    refuses (f.status n) = false ∧ f.TimesOut cmd (n + 1) n'

/-- A command that was sent has been written, and nothing was read. -/
theorem sendGoes_of_exec (run : Exec f.machine (fpySendCommand cmd wait) s noErr s') :
    f.SendGoes wait cmd s.statuses s'.statuses ∧ s'.bytes = s.bytes := by
  rw [exec_fpySendCommand] at run
  by_cases hr : refuses (f.status s.statuses) = true
  · rw [if_pos hr] at run
    cases run.1
  · rw [if_neg hr] at run
    have hr := Bool.eq_false_iff.mpr hr
    obtain ⟨sent, hbytes, -⟩ := sent_of_exec (dataio_of_starts hr) run
    exact ⟨⟨hr, sent⟩, hbytes⟩

theorem written_of_exec (hmsr : dataio msr = false)
    (run : Exec f.machine (fpySendCommandLoop msr wait bs) s noErr s') :
    written s'.log = written s.log ++ bs := by
  induction bs generalizing s with
  | nil =>
    obtain ⟨-, hs'⟩ := exec_loop_nil.mp run
    cases wait with
    | false =>
      obtain rfl := hs'
      exact (List.append_nil _).symm
    | true =>
      obtain ⟨m, -, rfl⟩ := hs'
      rw [written_looks, List.append_nil]
  | cons b bs ih =>
    obtain ⟨m, -, ⟨m', -, -, rest⟩ | ⟨-, hnone, -⟩⟩ := (exec_loop_cons hmsr).mp run
    · rw [ih rest, put, written, written_looks, written_looks, List.append_assoc]
      rfl
    · cases hnone

/-- All of it, after what was. -/
theorem log_of_exec (run : Exec f.machine (fpySendCommand cmd wait) s noErr s') :
    written s'.log = written s.log ++ cmd ∧ readBytes s'.log = readBytes s.log := by
  rw [exec_fpySendCommand] at run
  by_cases hr : refuses (f.status s.statuses) = true
  · rw [if_pos hr] at run
    cases run.1
  · rw [if_neg hr] at run
    have hmsr := dataio_of_starts (Bool.eq_false_iff.mpr hr)
    exact ⟨written_of_exec (s := f.look s) hmsr run, (sent_of_exec (s := f.look s) hmsr run).2.2.1⟩

theorem exec_of_sendGoes (h : f.SendGoes wait cmd s.statuses n') :
    ∃ s', Exec f.machine (fpySendCommand cmd wait) s noErr s' ∧ s'.statuses = n' := by
  obtain ⟨s', run, hs⟩ := exec_of_sent (s := f.look s) (dataio_of_starts h.1) h.2
  exact ⟨s', exec_fpySendCommand.mpr ((if_neg (Bool.eq_false_iff.mp h.1)).mpr run), hs⟩

theorem sendFails_of_exec (run : Exec f.machine (fpySendCommand cmd wait) s (some err) s') :
    f.SendFails cmd s.statuses s'.statuses ∧ s'.bytes = s.bytes := by
  rw [exec_fpySendCommand] at run
  by_cases hr : refuses (f.status s.statuses) = true
  · rw [if_pos hr] at run
    obtain ⟨-, rfl⟩ := run
    exact ⟨.inl ⟨hr, rfl⟩, rfl⟩
  · rw [if_neg hr] at run
    have hr := Bool.eq_false_iff.mpr hr
    obtain ⟨late, hbytes⟩ := timesOut_of_exec (dataio_of_starts hr) run
    exact ⟨.inr ⟨hr, late⟩, hbytes⟩

theorem exec_of_sendFails (wait : Bool) (h : f.SendFails cmd s.statuses n') :
    ∃ err s', Exec f.machine (fpySendCommand cmd wait) s (some err) s' ∧ s'.statuses = n' ∧
      s'.bytes = s.bytes := by
  rcases h with ⟨hr, rfl⟩ | ⟨hr, late⟩
  · exact ⟨_, _, exec_fpySendCommand.mpr ((if_pos hr).mpr ⟨rfl, rfl⟩), rfl, rfl⟩
  · obtain ⟨err, s', run, hs, hbytes⟩ := exec_of_timesOut (s := f.look s) wait
      (dataio_of_starts hr) late
    refine ⟨err, s', exec_fpySendCommand.mpr ?_, hs, hbytes⟩
    rw [if_neg (Bool.eq_false_iff.mp hr)]
    exact run

/-- The driver goes one way: where the statuses say a send fails, it does. -/
theorem eq_of_exec {α : Type} {p : Code α} {a b : α} {t : Traffic} (h : Exec f.machine p s a s')
    (h' : Exec f.machine p s b t) : a = b :=
  (h'.deterministic Simulator.machine_deterministic h).1

theorem failed_of_sendFails {e : ErrT} (h : f.SendFails cmd s.statuses n')
    (run : Exec f.machine (fpySendCommand cmd wait) s e s') : e ≠ noErr := by
  obtain ⟨err, t, fails, -⟩ := exec_of_sendFails wait h
  rw [eq_of_exec run fails]
  exact Option.some_ne_none err

/-! ## A result -/

theorem Answers.unique {w : UInt8} {n₁ k₁ n₂ k₂ : Nat} (h : f.Answers n k v n₁ k₁)
    (h' : f.Answers n k w n₂ k₂) : v = w ∧ n₁ = n₂ ∧ k₁ = k₂ := by
  cases h with
  | byte hm ready =>
    cases h' with
    | byte hm' ready' =>
      obtain rfl := ready.unique ready'
      exact ⟨rfl, rfl, rfl⟩
    | timeout silent => exact absurd silent (ready.not_silent hm)
  | timeout silent =>
    cases h' with
    | byte hm' ready' => exact absurd silent (ready'.not_silent hm')
    | timeout silent' => exact ⟨rfl, rfl, rfl⟩

/-- Where a byte is known the verdict is its check's, and that of the bytes after it. -/
theorem verdicts_cons {good : Bool} {check : UInt8 → ErrT} {checks : List (UInt8 → ErrT)}
    (h : f.Answers n k v n' k') : f.Verdicts good (check :: checks) n k ↔
      (check v).isNone = good ∧ f.Verdicts good checks n' k' := by
  constructor
  · rintro ⟨w, n₁, k₁, h', verdict, rest⟩
    obtain ⟨rfl, rfl, rfl⟩ := h.unique h'
    exact ⟨verdict, rest⟩
  · rintro ⟨verdict, rest⟩
    exact ⟨v, n', k', h, verdict, rest⟩

/-- The next reads, `c` of them, leave the streams at these places. -/
def Reads (f : Feed) : (c n k n' k' : Nat) → Prop
  | 0, n, k, n', k' => n' = n ∧ k' = k
  | c + 1, n, k, n', k' => ∃ v n₁ k₁, f.Answers n k v n₁ k₁ ∧ f.Reads c n₁ k₁ n' k'

theorem reads_of_exec {c : Nat} {vs : List UInt8} (run : Exec f.machine (readAll c) s vs s') :
    f.Reads c s.statuses s.bytes s'.statuses s'.bytes := by
  induction c generalizing s vs with
  | zero =>
    obtain ⟨-, rfl⟩ := exec_pure.mp run
    exact ⟨rfl, rfl⟩
  | succ c ih =>
    obtain ⟨v, s₁, read, rest⟩ := exec_bind.mp run
    obtain ⟨vs', s₂, reads, done⟩ := exec_bind.mp rest
    obtain ⟨-, rfl⟩ := exec_pure.mp done
    exact ⟨v, _, _, answers_of_exec read, ih reads⟩

/-- Reads put no byte in the FIFO, and keep what was read. -/
theorem readBytes_of_input {α : Type} {p : Code α} (input : Only Op.isInput p) {a : α}
    (run : Exec f.machine p s a s') :
    written s'.log = written s.log ∧ ∃ vs, readBytes s'.log = readBytes s.log ++ vs := by
  have kept : Follows f.machine (fun _ _ => True) p (fun _ t => written t.log = written s.log ∧
      ∃ vs, readBytes t.log = readBytes s.log ++ vs) s := by
    refine input.follows (fun _ _ _ _ => trivial) ?_ ⟨rfl, [], (List.append_nil _).symm⟩
    rintro t op x t' hop ⟨hw, vs, hr⟩ hm
    cases op with
    | inb port =>
      rcases hop with rfl | rfl
      · obtain ⟨-, rfl⟩ := machine_status.mp hm
        exact ⟨hw, vs, hr⟩
      · obtain ⟨-, rfl⟩ := machine_data.mp hm
        exact ⟨hw, vs ++ [f.data t.bytes], by rw [take, readBytes, hr, List.append_assoc]⟩
    | _ => cases hop
  exact kept.exec run

/-- A byte that passes a check which refuses `0xFF` was read. -/
theorem readBytes_of_passes {check : UInt8 → ErrT} (h255 : check 0xFF ≠ noErr)
    (pass : check v = noErr) (run : Exec f.machine fpyReadData s v s') :
    readBytes s'.log = readBytes s.log ++ [v] := by
  rcases exec_fpyReadData.mp run with ⟨m, -, -, rfl, rfl⟩ | ⟨-, rfl, -⟩
  · rw [take, readBytes, readBytes_looks, bytes_looks]
  · exact absurd pass h255

section Checked

variable {α : Type} {check : UInt8 → ErrT} {bad : String → UInt8 → α} {next : UInt8 → Code α}
  {E : α → ErrT} {a : α}

/-- A byte read and checked is refused, or what follows runs. -/
theorem readChecked_cases (hbad : ∀ e v, E (bad e v) ≠ noErr)
    (run : Exec f.machine (readChecked check bad next) s a s') :
    ∃ v s₁, Exec f.machine fpyReadData s v s₁ ∧
      (check v ≠ noErr ∧ E a ≠ noErr ∨ check v = noErr ∧ Exec f.machine (next v) s₁ a s') := by
  obtain ⟨v, s₁, read, judged⟩ := exec_bind.mp run
  refine ⟨v, s₁, read, ?_⟩
  by_cases herr : E a = noErr
  · obtain ⟨pass, rest, -⟩ := (exec_judge hbad).mp ⟨judged, herr⟩
    exact .inr ⟨pass, rest⟩
  · unfold judge checked at judged
    simp only [Prog.bind_eq, Code.mark_bind, Prog.pure_eq, Prog.vis_bind, Prog.pure_bind, exec_vis,
      machine_mark, exists_eq_left, exists_const] at judged
    cases hc : check v with
    | some e => exact .inl ⟨Option.some_ne_none e, herr⟩
    | none =>
      rw [hc] at judged
      exact .inr ⟨rfl, judged⟩

/-- Without error it has passed, and what follows is without error. -/
theorem readChecked_verdict {checks : List (UInt8 → ErrT)} (hbad : ∀ e v, E (bad e v) ≠ noErr)
    (later : ∀ v s₁, Exec f.machine (next v) s₁ a s' →
      (E a = noErr ↔ f.Verdicts true checks s₁.statuses s₁.bytes))
    (run : Exec f.machine (readChecked check bad next) s a s') :
    E a = noErr ↔ f.Verdicts true (check :: checks) s.statuses s.bytes := by
  obtain ⟨v, s₁, read, ⟨refused, failed⟩ | ⟨pass, rest⟩⟩ := readChecked_cases hbad run
  · rw [verdicts_cons (answers_of_exec read), Option.isNone_iff_eq_none]
    exact iff_of_false failed fun h => refused h.1
  · rw [verdicts_cons (answers_of_exec read), Option.isNone_iff_eq_none, later v s₁ rest]
    exact (and_iff_right pass).symm

end Checked

/-- The first three of a result's bytes pass their checks. -/
def StatusPasses : List UInt8 → Prop
  | st0 :: st1 :: st2 :: _ =>
    fpyCheckSt0 st0 = noErr ∧ fpyCheckSt1 st1 = noErr ∧ fpyCheckSt2 st2 = noErr
  | _ => False

/-- A result is without error exactly when its three status bytes pass. -/
theorem genRes_verdict {res : FpyCmdReadtrackRes} (run : Exec f.machine fpyCmdGenRes s res s') :
    res.error = noErr ↔ f.Verdicts true statusChecks s.statuses s.bytes := by
  rw [fpyCmdGenRes_eq] at run
  refine readChecked_verdict (fun _ _ => Option.some_ne_none _) (fun st0 _ run => ?_) run
  refine readChecked_verdict (fun _ _ => Option.some_ne_none _) (fun st1 _ run => ?_) run
  refine readChecked_verdict (fun _ _ => Option.some_ne_none _) (fun st2 _ run => ?_) run
  obtain ⟨vs, s₁, -, done⟩ := exec_bind.mp run
  obtain ⟨rfl, -⟩ := exec_pure.mp done
  exact iff_of_true rfl trivial

/-- A result without error was read to its end, and starts with three bytes that pass. -/
theorem genRes_reads {res : FpyCmdReadtrackRes} (run : Exec f.machine fpyCmdGenRes s res s')
    (herr : res.error = noErr) : f.Reads 7 s.statuses s.bytes s'.statuses s'.bytes ∧
      written s'.log = written s.log ∧ ∃ bytes, StatusPasses bytes ∧
        readBytes s'.log = readBytes s.log ++ bytes := by
  rw [fpyCmdGenRes_eq] at run
  have failed : ∀ {P : Prop}, res.error ≠ noErr → P := fun h => absurd herr h
  obtain ⟨st0, s₁, read₀, ⟨-, h⟩ | ⟨c₀, run⟩⟩ :=
    readChecked_cases (E := FpyCmdReadtrackRes.error) (fun _ _ => Option.some_ne_none _) run
  · exact failed h
  obtain ⟨st1, s₂, read₁, ⟨-, h⟩ | ⟨c₁, run⟩⟩ :=
    readChecked_cases (E := FpyCmdReadtrackRes.error) (fun _ _ => Option.some_ne_none _) run
  · exact failed h
  obtain ⟨st2, s₃, read₂, ⟨-, h⟩ | ⟨c₂, run⟩⟩ :=
    readChecked_cases (E := FpyCmdReadtrackRes.error) (fun _ _ => Option.some_ne_none _) run
  · exact failed h
  obtain ⟨vs, s₄, reads, done⟩ := exec_bind.mp run
  obtain ⟨-, rfl⟩ := exec_pure.mp done
  obtain ⟨hw, rest, hr⟩ := readBytes_of_input (input_readAll 4) reads
  have quiet : ∀ {v : UInt8} {t t' : Traffic}, Exec f.machine fpyReadData t v t' →
      written t'.log = written t.log := fun read => (readBytes_of_input input_fpyReadData read).1
  refine ⟨⟨_, _, _, answers_of_exec read₀, _, _, _, answers_of_exec read₁, _, _, _,
    answers_of_exec read₂, reads_of_exec reads⟩, ?_, st0 :: st1 :: st2 :: rest, ⟨c₀, c₁, c₂⟩, ?_⟩
  · rw [hw, quiet read₂, quiet read₁, quiet read₀]
  · rw [hr, readBytes_of_passes fpyCheckSt2_timeout c₂ read₂,
      readBytes_of_passes fpyCheckSt1_timeout c₁ read₁,
      readBytes_of_passes fpyCheckSt0_timeout c₀ read₀]
    simp only [List.append_assoc, List.cons_append, List.nil_append]

/-- CHECK_INT is not sent, or its `st0` does not pass. -/
def SenseFails (f : Feed) : Prop :=
  (∃ n, f.SendFails [FpyCmd.checkInt.val] 0 n) ∨
    ∃ n, f.SendGoes true [FpyCmd.checkInt.val] 0 n ∧ ¬ f.Verdicts true [fpyCheckSt0] n 0

/-- It comes back with an error exactly then. -/
theorem checkInterrupt_fails_iff {res : FpyCmdCheckInterruptRes}
    (run : Exec f.machine fpyCmdCheckInterrupt {} res s') : res.error ≠ noErr ↔ f.SenseFails := by
  rw [fpyCmdCheckInterrupt_eq] at run
  obtain ⟨e, s₁, send, rest⟩ := exec_bind.mp run
  cases e with
  | some err =>
    obtain ⟨rfl, -⟩ := exec_pure.mp rest
    exact iff_of_true (Option.some_ne_none err) (.inl ⟨_, (sendFails_of_exec send).1⟩)
  | none =>
    obtain ⟨goes, hbytes⟩ := sendGoes_of_exec send
    have verdict : res.error = noErr ↔ f.Verdicts true [fpyCheckSt0] s₁.statuses s₁.bytes := by
      refine readChecked_verdict (fun _ _ => Option.some_ne_none _) (fun st0 _ run => ?_) rest
      obtain ⟨vs, s₂, -, done⟩ := exec_bind.mp run
      obtain ⟨rfl, -⟩ := exec_pure.mp done
      exact iff_of_true rfl trivial
    rw [ne_eq, verdict, hbytes]
    constructor
    · intro refused
      exact .inr ⟨_, goes, refused⟩
    · rintro (⟨n, fails⟩ | ⟨n, goes', refused⟩)
      · exact absurd rfl (failed_of_sendFails (s := {}) fails send)
      · obtain ⟨t, again, rfl⟩ := exec_of_sendGoes (s := {}) goes'
        obtain ⟨-, rfl⟩ := send.deterministic Simulator.machine_deterministic again
        exact refused

/-! ## Under a program that does more -/

theorem device_iff {op : Op} {x : op.Ans} (hop : op.isFifoCommand) :
    f.device s op x s' ↔ f.machine s op x s' := by
  cases op with
  | inb port =>
    rcases hop with rfl | rfl
    · exact machine_status.symm
    · exact machine_data.symm
  | outb port b =>
    obtain rfl : port = FPY_FIFO := hop
    exact machine_write.symm
  | mark e => exact machine_mark.symm
  | _ => cases hop

/-- What talks to the controller only does so here as it does alone. -/
theorem exec_device {α : Type} {p : Code α} (talks : Talks p) {a : α} :
    Exec f.device p s a s' ↔ Exec f.machine p s a s' :=
  Only.exec_congr device_iff talks

/-- With other state beside the traffic that such operations leave alone, so it does there. -/
theorem exec_beside {α τ : Type} {N : Machine ops (Traffic × τ)}
    (beside : ∀ {t u op x c}, op.isFifoCommand → (N (t, u) op x c ↔ f.device t op x c.1 ∧ c.2 = u))
    {p : Code α} (talks : Talks p) {a : α} {t : Traffic} {u : τ} {c : Traffic × τ} :
    Exec N p (t, u) a c ↔ Exec f.machine p t a c.1 ∧ c.2 = u :=
  (exec_frame beside talks).trans (and_congr_left' (exec_device talks))

end ToyBootloader.Feed
