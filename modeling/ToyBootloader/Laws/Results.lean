import ToyBootloader.Laws.Footprint
import ToyBootloader.Laws.Sending

/-!
# Results

What `fpy_cmd_gen_res` and `fpy_cmd_check_interrupt` report against every stream
of statuses and FIFO bytes. `fpy_read_data` gives up after a thousand statuses
and then answers `0xFF`, which a caller cannot tell from a byte. The checks of
`st0`, `st1` and `st2` happen to refuse it; nothing looks at the bytes that
follow them.

A result therefore has two parts, and the law is the seam between them: once the
checked bytes have arrived and passed, the result is without error, whether or
not the others arrive.
-/

namespace ToyBootloader.Feed

open Resumption

variable {α : Type} {f : Feed} {s s' : Traffic} {k : Nat} {v : UInt8} {vs : List UInt8}

/-! ## Reading -/

theorem fpyReadDataLoop_eq (n : Nat) : fpyReadDataLoop n = tries (S := ops) (.inb FPY_MSR) mrq
    (fun _ => .vis (S := ops) (.inb FPY_FIFO) .pure) (.pure 0xFF) n := by
  induction n with
  | zero => rfl
  | succ n ih =>
    rw [tries, ← ih]
    rfl

theorem exec_fpyReadData : Exec f.machine fpyReadData s v s' ↔
    (∃ m < 1000, f.Ready s.statuses m ∧ v = f.data s.bytes ∧ s' = f.take (f.look^[m + 1] s)) ∨
      f.Silent s.statuses ∧ v = 0xFF ∧ s' = f.look^[1000] s := by
  have read : ∀ {t : Traffic}, Exec f.machine (.vis (S := ops) (.inb FPY_FIFO) .pure) t v s' ↔
      v = f.data t.bytes ∧ s' = f.take t := by
    intro t
    rw [exec_vis]
    constructor
    · rintro ⟨x, t₁, hm, run⟩
      obtain ⟨rfl, rfl⟩ := machine_data.mp hm
      exact exec_pure.mp run
    · rintro ⟨rfl, rfl⟩
      exact ⟨_, _, machine_data.mpr ⟨rfl, rfl⟩, .pure⟩
  rw [fpyReadData, fpyReadDataLoop_eq, exec_tries (settles_status f), passes_mrq]
  simp only [read, exec_pure, bytes_looks, Ready, Silent]

/-- The reads of a row of bytes. -/
def readAll : Nat → Code (List UInt8)
  | 0 => .pure []
  | k + 1 => fpyReadData.bind fun v => (readAll k).bind fun vs => .pure (v :: vs)

theorem input_readAll : ∀ k, Only Op.isInput (readAll k)
  | 0 => trivial
  | k + 1 => input_fpyReadData.bind fun _ => (input_readAll k).bind fun _ => trivial

/-- From the `n`th status on, `k` bytes arrive in time, the last before the
`n'`th. -/
def Arrive (f : Feed) : (k n n' : Nat) → Prop
  | 0, n, n' => n' = n
  | k + 1, n, n' => ∃ m < 1000, f.Ready n m ∧ f.Arrive k (n + (m + 1)) n'

/-- Every byte of a result was read right after a status that asserted `mrq`, and
the result is these bytes in order. -/
structure Received (bytes : List UInt8) (log : List Item) : Prop where
  inOrder : readBytes log = bytes
  guarded : Before Item.isData ReadyOnTop log

theorem received_nil : Received [] [] := ⟨rfl, before_nil⟩

/-- A byte that arrives in time. -/
theorem Received.take {bytes : List UInt8} (h : Received bytes s.log) {m : Nat}
    (ready : f.Ready s.statuses m) :
    Received (bytes ++ [f.data s.bytes]) (f.take (f.look^[m + 1] s)).log := by
  constructor
  · rw [Feed.take, readBytes, readBytes_looks, bytes_looks, h.inOrder]
  · exact before_cons.mpr ⟨fun _ => ready.onTop, before_looks (fun _ => id) h.guarded (m + 1)⟩

/-- Looking at the status reads no byte. -/
theorem Received.looks {bytes : List UInt8} (h : Received bytes s.log) (m : Nat) :
    Received bytes (f.look^[m] s).log :=
  ⟨(readBytes_looks m).trans h.inOrder, before_looks (fun _ => id) h.guarded m⟩

theorem exists_fpyReadData (f : Feed) (s : Traffic) :
    ∃ v s', Exec f.machine fpyReadData s v s' := by
  rcases Ready.or_silent f s.statuses with ⟨m, hm, ready⟩ | silent
  · exact ⟨_, _, exec_fpyReadData.mpr (.inl ⟨m, hm, ready, rfl, rfl⟩)⟩
  · exact ⟨0xFF, f.look^[1000] s, exec_fpyReadData.mpr (.inr ⟨silent, rfl, rfl⟩)⟩

theorem exists_readAll (f : Feed) (k : Nat) (s : Traffic) :
    ∃ vs s', Exec f.machine (readAll k) s vs s' := by
  induction k generalizing s with
  | zero => exact ⟨[], s, .pure⟩
  | succ k ih =>
    obtain ⟨v, s₁, run⟩ := exists_fpyReadData f s
    obtain ⟨vs, s', rest⟩ := ih s₁
    exact ⟨v :: vs, s', exec_bind.mpr ⟨v, s₁, run, exec_bind.mpr ⟨vs, s', rest, .pure⟩⟩⟩

/-- What a row of reads returns is what was received, and as many bytes as were
asked for, exactly when all of them arrive in time. -/
theorem readAll_received {bytes : List UInt8} (run : Exec f.machine (readAll k) s vs s')
    (h : Received bytes s.log) : vs.length = k ∧ ∃ got, Received (bytes ++ got) s'.log ∧
      got.length ≤ k ∧ (got = vs ↔ ∃ n, f.Arrive k s.statuses n) := by
  induction k generalizing s vs bytes with
  | zero =>
    obtain ⟨rfl, rfl⟩ := exec_pure.mp run
    refine ⟨rfl, [], ?_, Nat.le_refl 0, fun _ => ⟨_, rfl⟩, fun _ => rfl⟩
    rw [List.append_nil]
    exact h
  | succ k ih =>
    obtain ⟨v, s₁, read, reads⟩ := exec_bind.mp run
    obtain ⟨rest, s₂, tail, hend⟩ := exec_bind.mp reads
    obtain ⟨rfl, rfl⟩ := exec_pure.mp hend
    rcases exec_fpyReadData.mp read with ⟨m, hm, ready, rfl, rfl⟩ | ⟨silent, rfl, hs₁⟩
    · obtain ⟨hlen, got, received, hle, hall⟩ := ih tail (h.take ready)
      refine ⟨congrArg Nat.succ hlen, f.data s.bytes :: got, ?_, Nat.succ_le_succ hle, ?_⟩
      · rw [List.append_assoc] at received
        exact received
      · rw [List.cons.injEq, and_iff_right rfl, hall, statuses_take, statuses_looks]
        constructor
        · rintro ⟨n, arrive⟩
          exact ⟨n, m, hm, ready, arrive⟩
        · rintro ⟨n, m', -, ready', arrive⟩
          obtain rfl := ready.unique ready'
          exact ⟨n, arrive⟩
    · obtain ⟨hlen, got, received, hle, -⟩ := ih tail (hs₁ ▸ h.looks 1000)
      refine ⟨congrArg Nat.succ hlen, got, received, Nat.le_succ_of_le hle, ?_⟩
      constructor
      · rintro rfl
        rw [List.length_cons, hlen] at hle
        exact absurd hle (Nat.not_succ_le_self k)
      · rintro ⟨n, m, hm, ready, -⟩
        exact absurd silent (ready.not_silent hm)

/-! ## Reading and checking -/

/-- A byte checked: `bad` is the result where the check fails. -/
def judge (check : UInt8 → ErrT) (bad : String → UInt8 → α) (next : UInt8 → Code α) (v : UInt8) :
    Code α := do
  match ← checked (check v) with
  | some e => return bad e v
  | none => next v

/-- A byte read and checked. -/
def readChecked (check : UInt8 → ErrT) (bad : String → UInt8 → α) (next : UInt8 → Code α) :
    Code α := do
  let v ← fpyReadData
  judge check bad next v

variable {check : UInt8 → ErrT} {bad : String → UInt8 → α} {next : UInt8 → Code α}
  {E : α → ErrT} {a : α}

theorem exec_judge (hbad : ∀ e v, E (bad e v) ≠ noErr) :
    Exec f.machine (judge check bad next v) s a s' ∧ E a = noErr ↔
      check v = noErr ∧ Exec f.machine (next v) s a s' ∧ E a = noErr := by
  simp only [judge, checked, Prog.bind_eq, Code.mark_bind, Prog.pure_eq, Prog.vis_bind,
    Prog.pure_bind, exec_vis, machine_mark, exists_eq_left, exists_const]
  cases check v with
  | some e =>
    simp only [exec_pure, reduceCtorEq, false_and, iff_false]
    rintro ⟨⟨rfl, -⟩, herr⟩
    exact hbad e v herr
  | none => simp only [true_and]

/-- With a check that refuses `0xFF`, a result without error has a byte that
arrived and passed. -/
theorem exec_readChecked (h255 : check 0xFF ≠ noErr) (hbad : ∀ e v, E (bad e v) ≠ noErr) :
    Exec f.machine (readChecked check bad next) s a s' ∧ E a = noErr ↔
      ∃ m < 1000, f.Ready s.statuses m ∧ check (f.data s.bytes) = noErr ∧
        Exec f.machine (next (f.data s.bytes)) (f.take (f.look^[m + 1] s)) a s' ∧
          E a = noErr := by
  rw [readChecked, Prog.bind_eq, exec_bind]
  constructor
  · rintro ⟨⟨v, s₁, read, run⟩, herr⟩
    obtain ⟨hcheck, rest⟩ := (exec_judge hbad).mp ⟨run, herr⟩
    rcases exec_fpyReadData.mp read with ⟨m, hm, ready, rfl, rfl⟩ | ⟨-, rfl, -⟩
    · exact ⟨m, hm, ready, hcheck, rest⟩
    · exact absurd hcheck h255
  · rintro ⟨m, hm, ready, hcheck, rest⟩
    obtain ⟨run, herr⟩ := (exec_judge (s := f.take (f.look^[m + 1] s)) hbad).mpr ⟨hcheck, rest⟩
    exact ⟨⟨_, _, exec_fpyReadData.mpr (.inl ⟨m, hm, ready, rfl, rfl⟩), run⟩, herr⟩

/-! ## The two results -/

/-- The result without error, of three bytes that were checked and the rest. -/
def goodResult (st0 st1 st2 : UInt8) (vs : List UInt8) : FpyCmdReadtrackRes :=
  { error := noErr, st0, st1, st2, cylinder := vs.getD 0 0, head := vs.getD 1 0,
    sector := vs.getD 2 0, sectorSize := vs.getD 3 0 }

/-- `fpy_cmd_gen_res` as its seven reads, the first three checked. -/
theorem fpyCmdGenRes_eq : fpyCmdGenRes =
    readChecked fpyCheckSt0 (fun e st0 => { error := some e, st0 }) fun st0 =>
    readChecked fpyCheckSt1 (fun e st1 => { error := some e, st0, st1 }) fun st1 =>
    readChecked fpyCheckSt2 (fun e st2 => { error := some e, st0, st1, st2 }) fun st2 =>
      (readAll 4).bind fun vs => .pure (goodResult st0 st1 st2 vs) := by
  simp only [readAll, Prog.bind_assoc, Prog.pure_bind]
  rfl

/-- The sensed interrupt without error, of a byte that was checked and the rest. -/
def goodSense (st0 : UInt8) (vs : List UInt8) : FpyCmdCheckInterruptRes :=
  { error := noErr, st0, currentCylinder := vs.getD 0 0 }

/-- The two reads of `fpy_cmd_check_interrupt`, the first checked. -/
def senseBytes : Code FpyCmdCheckInterruptRes :=
  readChecked fpyCheckSt0 (fun e st0 => { error := some e, st0 }) fun st0 =>
    (readAll 1).bind fun vs => .pure (goodSense st0 vs)

/-- `fpy_cmd_check_interrupt` as its send and its reads. -/
theorem fpyCmdCheckInterrupt_eq : fpyCmdCheckInterrupt =
    (fpySendCommand [FpyCmd.checkInt.val] true).bind fun
      | some e => .pure { error := some e }
      | none => senseBytes := by
  simp only [senseBytes, readAll, Prog.bind_assoc, Prog.pure_bind]
  rfl

/-- The seven bytes of a result. -/
def resultBytes (res : FpyCmdReadtrackRes) : List UInt8 :=
  [res.st0, res.st1, res.st2, res.cylinder, res.head, res.sector, res.sectorSize]

/-- What `fpy_cmd_gen_res` reports without error was received, and passed its
checks. -/
def GenResReceives (f : Feed) : Prop :=
  ∀ res s, Exec f.machine fpyCmdGenRes {} res s → res.error = noErr →
    Received (resultBytes res) s.log ∧ fpyCheckSt0 res.st0 = noErr ∧
      fpyCheckSt1 res.st1 = noErr ∧ fpyCheckSt2 res.st2 = noErr

/-- What `fpy_cmd_check_interrupt` reports without error was received. -/
def CheckInterruptReceives (f : Feed) : Prop :=
  ∀ res s, Exec f.machine fpyCmdCheckInterrupt {} res s → res.error = noErr →
    Received [res.st0, res.currentCylinder] s.log

/-- Where three status bytes arrive in time and pass, the four that follow do too. -/
def GenResArrives (f : Feed) : Prop :=
  fpyCheckSt0 (f.data 0) = noErr → fpyCheckSt1 (f.data 1) = noErr →
    fpyCheckSt2 (f.data 2) = noErr → ∀ n, f.Arrive 3 0 n → ∃ n', f.Arrive 4 n n'

/-- Where CHECK_INT gets sent and its `st0` arrives in time and passes, the
cylinder does too. -/
def CheckInterruptArrives (f : Feed) : Prop :=
  refuses (f.status 0) = false → fpyCheckSt0 (f.data 0) = noErr →
    ∀ n n₁, f.Sent true [FpyCmd.checkInt.val] 1 n → f.Arrive 1 n n₁ → ∃ n', f.Arrive 1 n₁ n'

theorem fpyCheckSt0_timeout : fpyCheckSt0 0xFF ≠ noErr := Option.isSome_iff_ne_none.mp rfl

theorem fpyCheckSt1_timeout : fpyCheckSt1 0xFF ≠ noErr := Option.isSome_iff_ne_none.mp rfl

theorem fpyCheckSt2_timeout : fpyCheckSt2 0xFF ≠ noErr := Option.isSome_iff_ne_none.mp rfl

/-- The reads that are not checked, after those that are. -/
theorem exec_tail {bytes : List UInt8} {build : List UInt8 → α}
    (h : Received bytes s.log)
    (run : Exec f.machine ((readAll k).bind fun vs => .pure (build vs)) s a s') :
    ∃ vs, a = build vs ∧ vs.length = k ∧
      (Received (bytes ++ vs) s'.log ↔ ∃ n, f.Arrive k s.statuses n) := by
  obtain ⟨vs, s₁, reads, hend⟩ := exec_bind.mp run
  obtain ⟨rfl, rfl⟩ := exec_pure.mp hend
  obtain ⟨hlen, got, received, -, hall⟩ := readAll_received reads h
  refine ⟨vs, rfl, hlen, ?_⟩
  rw [← hall]
  constructor
  · intro hvs
    exact List.append_cancel_left (received.inOrder.symm.trans hvs.inOrder)
  · rintro rfl
    exact received

theorem resultBytes_goodResult {st0 st1 st2 : UInt8} (h : vs.length = 4) :
    resultBytes (goodResult st0 st1 st2 vs) = [st0, st1, st2] ++ vs := by
  match vs, h with
  | [_, _, _, _], _ => rfl

/-- The state after `k` bytes that arrived in time. -/
def takes (f : Feed) : List Nat → Traffic → Traffic
  | [], s => s
  | m :: ms, s => takes f ms (f.take (f.look^[m + 1] s))

/-- A run of `fpy_cmd_gen_res` without error: three bytes that arrive and pass,
and the reads of the other four. -/
theorem exec_fpyCmdGenRes {res : FpyCmdReadtrackRes} :
    Exec f.machine fpyCmdGenRes {} res s' ∧ res.error = noErr ↔
      ∃ m₀ < 1000, f.Ready 0 m₀ ∧ fpyCheckSt0 (f.data 0) = noErr ∧
      ∃ m₁ < 1000, f.Ready (m₀ + 1) m₁ ∧ fpyCheckSt1 (f.data 1) = noErr ∧
      ∃ m₂ < 1000, f.Ready (m₀ + 1 + (m₁ + 1)) m₂ ∧ fpyCheckSt2 (f.data 2) = noErr ∧
        Exec f.machine
          ((readAll 4).bind fun vs => .pure (goodResult (f.data 0) (f.data 1) (f.data 2) vs))
          (f.takes [m₀, m₁, m₂] {}) res s' ∧ res.error = noErr := by
  rw [fpyCmdGenRes_eq]
  simp only [exec_readChecked (E := FpyCmdReadtrackRes.error) fpyCheckSt0_timeout,
    exec_readChecked (E := FpyCmdReadtrackRes.error) fpyCheckSt1_timeout,
    exec_readChecked (E := FpyCmdReadtrackRes.error) fpyCheckSt2_timeout, ne_eq, reduceCtorEq,
    not_false_eq_true, implies_true, statuses_take, statuses_looks, bytes_take, bytes_looks, takes,
    Nat.zero_add]

/-- Three bytes that arrived in time are the result so far. -/
theorem received_three {m₀ m₁ m₂ : Nat} (h₀ : f.Ready 0 m₀) (h₁ : f.Ready (m₀ + 1) m₁)
    (h₂ : f.Ready (m₀ + 1 + (m₁ + 1)) m₂) :
    Received [f.data 0, f.data 1, f.data 2] (f.takes [m₀, m₁, m₂] {}).log := by
  have first := received_nil.take (s := {}) h₀
  have second := first.take (m := m₁) (by
    simpa only [statuses_take, statuses_looks, Nat.zero_add] using h₁)
  have third := second.take (m := m₂) (by
    simpa only [statuses_take, statuses_looks, Nat.zero_add] using h₂)
  simp only [bytes_take, bytes_looks, Nat.zero_add] at third
  exact third

private theorem genResReceives_iff (f : Feed) : GenResReceives f ↔ GenResArrives f := by
  have place : ∀ m₀ m₁ m₂ : Nat,
      (f.takes [m₀, m₁, m₂] {}).statuses = 0 + (m₀ + 1) + (m₁ + 1) + (m₂ + 1) := by
    intro m₀ m₁ m₂
    simp only [takes, statuses_take, statuses_looks]
  constructor
  · rintro h c₀ c₁ c₂ n ⟨m₀, hm₀, h₀, m₁, hm₁, h₁, m₂, hm₂, h₂, rfl⟩
    rw [Nat.zero_add] at h₁ h₂
    obtain ⟨vs, s', reads⟩ := exists_readAll f 4 (f.takes [m₀, m₁, m₂] {})
    have tail : Exec f.machine
        ((readAll 4).bind fun vs => .pure (goodResult (f.data 0) (f.data 1) (f.data 2) vs))
        (f.takes [m₀, m₁, m₂] {}) (goodResult (f.data 0) (f.data 1) (f.data 2) vs) s' :=
      exec_bind.mpr ⟨vs, s', reads, .pure⟩
    obtain ⟨run, herr⟩ := exec_fpyCmdGenRes.mpr
      ⟨m₀, hm₀, h₀, c₀, m₁, hm₁, h₁, c₁, m₂, hm₂, h₂, c₂, tail, rfl⟩
    have received := (h _ s' run herr).1
    obtain ⟨hlen, got, hgot, -, hall⟩ := readAll_received reads (received_three h₀ h₁ h₂)
    have same := hgot.inOrder.symm.trans received.inOrder
    rw [resultBytes_goodResult hlen] at same
    rw [← place, ← hall]
    exact List.append_cancel_left same
  · intro h res s run herr
    obtain ⟨m₀, hm₀, h₀, c₀, m₁, hm₁, h₁, c₁, m₂, hm₂, h₂, c₂, run, -⟩ :=
      exec_fpyCmdGenRes.mp ⟨run, herr⟩
    obtain ⟨vs, rfl, hlen, hiff⟩ := exec_tail (received_three h₀ h₁ h₂) run
    have arrive := h c₀ c₁ c₂ _ ⟨m₀, hm₀, h₀, m₁, hm₁, (Nat.zero_add (m₀ + 1)).symm ▸ h₁, m₂, hm₂,
      (Nat.zero_add (m₀ + 1)).symm ▸ h₂, rfl⟩
    rw [← place] at arrive
    have received := hiff.mpr arrive
    rw [← resultBytes_goodResult hlen] at received
    exact ⟨received, c₀, c₁, c₂⟩

theorem exec_senseBytes {res : FpyCmdCheckInterruptRes} :
    Exec f.machine senseBytes s res s' ∧ res.error = noErr ↔
      ∃ m < 1000, f.Ready s.statuses m ∧ fpyCheckSt0 (f.data s.bytes) = noErr ∧
        Exec f.machine ((readAll 1).bind fun vs => .pure (goodSense (f.data s.bytes) vs))
          (f.take (f.look^[m + 1] s)) res s' ∧ res.error = noErr :=
  exec_readChecked fpyCheckSt0_timeout fun _ _ => Option.some_ne_none _

/-- A run of `fpy_cmd_check_interrupt` without error: the command sent, and its
reads without error. -/
theorem exec_fpyCmdCheckInterrupt {res : FpyCmdCheckInterruptRes} :
    Exec f.machine fpyCmdCheckInterrupt {} res s' ∧ res.error = noErr ↔
      ∃ s₁, Exec f.machine (fpySendCommand [FpyCmd.checkInt.val] true) {} noErr s₁ ∧
        Exec f.machine senseBytes s₁ res s' ∧ res.error = noErr := by
  rw [fpyCmdCheckInterrupt_eq, exec_bind]
  constructor
  · rintro ⟨⟨e, s₁, sent, run⟩, herr⟩
    cases e with
    | some e =>
      obtain ⟨rfl, -⟩ := exec_pure.mp run
      cases herr
    | none => exact ⟨s₁, sent, run, herr⟩
  · rintro ⟨s₁, sent, run, herr⟩
    exact ⟨⟨noErr, s₁, sent, run⟩, herr⟩

/-- A command that was sent from the start has read nothing yet. -/
theorem sent_from_start {cmd : List UInt8} {wait : Bool}
    (run : Exec f.machine (fpySendCommand cmd wait) {} noErr s) :
    refuses (f.status 0) = false ∧ f.Sent wait cmd 1 s.statuses ∧ s.bytes = 0 ∧
      Received [] s.log := by
  rw [exec_fpySendCommand] at run
  by_cases hr : refuses (f.status 0) = true
  · rw [if_pos hr] at run
    cases run.1
  · rw [if_neg hr] at run
    have hr := Bool.eq_false_iff.mpr hr
    obtain ⟨sent, hbytes, hread, hguarded⟩ := sent_of_exec (dataio_of_starts hr) run
    exact ⟨hr, sent, hbytes, hread, hguarded (before_cons.mpr ⟨False.elim, before_nil⟩)⟩

theorem send_from_start {cmd : List UInt8} {wait : Bool} {n : Nat}
    (hr : refuses (f.status 0) = false) (sent : f.Sent wait cmd 1 n) :
    ∃ s, Exec f.machine (fpySendCommand cmd wait) {} noErr s ∧ s.statuses = n := by
  obtain ⟨s, run, hs⟩ := exec_of_sent (s := f.look {}) (dataio_of_starts hr) sent
  exact ⟨s, exec_fpySendCommand.mpr ((if_neg (Bool.eq_false_iff.mp hr)).mpr run), hs⟩

private theorem checkInterruptReceives_iff (f : Feed) :
    CheckInterruptReceives f ↔ CheckInterruptArrives f := by
  constructor
  · rintro h hr c₀ n n₁ sent ⟨m, hm, ready, rfl⟩
    obtain ⟨s, run, rfl⟩ := send_from_start hr sent
    obtain ⟨-, -, hbytes, received⟩ := sent_from_start run
    obtain ⟨vs, s', reads⟩ := exists_readAll f 1 (f.take (f.look^[m + 1] s))
    have tail : Exec f.machine
        ((readAll 1).bind fun vs => .pure (goodSense (f.data s.bytes) vs))
        (f.take (f.look^[m + 1] s)) (goodSense (f.data s.bytes) vs) s' :=
      exec_bind.mpr ⟨vs, s', reads, .pure⟩
    have sense := exec_senseBytes.mpr ⟨m, hm, ready, hbytes.symm ▸ c₀, tail, rfl⟩
    obtain ⟨run, herr⟩ := exec_fpyCmdCheckInterrupt.mpr ⟨s, run, sense⟩
    obtain ⟨hlen, got, hgot, -, hall⟩ := readAll_received reads (received.take ready)
    simp only [statuses_take, statuses_looks] at hall
    have same := hgot.inOrder.symm.trans (h _ s' run herr).inOrder
    obtain ⟨v, rfl⟩ := List.length_eq_one_iff.mp hlen
    rw [← hall]
    exact List.append_cancel_left same
  · intro h res s' run herr
    obtain ⟨s, run, sense⟩ := exec_fpyCmdCheckInterrupt.mp ⟨run, herr⟩
    obtain ⟨m, hm, ready, c₀, run', -⟩ := exec_senseBytes.mp sense
    obtain ⟨hr, sent, hbytes, received⟩ := sent_from_start run
    obtain ⟨vs, rfl, hlen, hiff⟩ := exec_tail (received.take ready) run'
    have arrive := h hr (hbytes ▸ c₀) _ _ sent ⟨m, hm, ready, rfl⟩
    simp only [statuses_take, statuses_looks] at hiff
    obtain ⟨v, rfl⟩ := List.length_eq_one_iff.mp hlen
    exact hiff.mpr arrive

/-- For every pair of streams, what the two functions report without error was
really received exactly when the bytes nothing checks arrive in time. -/
theorem results_received_iff (f : Feed) :
    (GenResReceives f ↔ GenResArrives f) ∧ (CheckInterruptReceives f ↔ CheckInterruptArrives f) :=
  ⟨genResReceives_iff f, checkInterruptReceives_iff f⟩

/-- The controller that hands out three bytes of zero, and then stops asserting
`mrq`. -/
def threeBytes : Feed := ⟨fun n => if n < 3 then 0x80 else 0, fun _ => 0⟩

/-- Its result is good, with `0xFF` for the bytes that never came. -/
theorem fpyCmdGenRes_timed_out : ¬ GenResReceives threeBytes := by
  rw [genResReceives_iff]
  intro arrives
  have ready : ∀ n < 3, threeBytes.Ready n 0 := fun n hn => first_zero.mpr (by
    change mrq (if n < 3 then 0x80 else 0) = true
    rw [if_pos hn]
    decide)
  have three : threeBytes.Arrive 3 0 3 :=
    ⟨0, by decide, ready 0 (by decide), 0, by decide, ready 1 (by decide), 0, by decide,
      ready 2 (by decide), rfl⟩
  obtain ⟨n, m, -, next, -⟩ := arrives rfl rfl rfl 3 three
  have silent : threeBytes.status (3 + m) = 0 := by
    change (if 3 + m < 3 then 0x80 else 0 : UInt8) = 0
    exact if_neg (Nat.not_lt.mpr (Nat.le_add_right 3 m))
  have hmrq : mrq (threeBytes.status (3 + m)) = true := next.here
  rw [silent] at hmrq
  exact absurd hmrq (by decide)

end ToyBootloader.Feed
