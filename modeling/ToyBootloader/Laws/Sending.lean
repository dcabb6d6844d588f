import ToyBootloader.Feed

/-!
# Sending a command

`fpy_send_command` against every stream of statuses. It samples the stream in
three places (once on entry, in a wait before each byte, and again in
`fpy_send_command_byte`), so everything below is about which status was read
when. The equations of the first section say it: between two bytes the call
reads up to the first status that asserts `mrq`, then up to the next, and gives
up when that is more than a thousand away. Three laws are read off them.

* What is delivered: a prefix of the command, and all of it or an error.
* When the call returns: two of its three waits have no bound.
* Which direction it talks in: `dataio` is tested on the status read on entry,
  never on a later one.
-/

namespace ToyBootloader.Feed

open Resumption

/-! ## What the call does -/

theorem fpySendCommandByteLoop_eq (b : UInt8) (n : Nat) :
    fpySendCommandByteLoop b n = tries (S := ops) (.inb FPY_MSR) mrq
      (fun _ => .vis (S := ops) (.outb FPY_FIFO b) fun _ => .pure noErr)
      (.pure (some (mkErr 186 "timeout"))) n := by
  induction n with
  | zero => rfl
  | succ n ih =>
    rw [tries, ← ih]
    rfl

/-- None of the thousand statuses from the `n`th on asserts `mrq`. -/
def Silent (f : Feed) (n : Nat) : Prop := ∀ l < 1000, mrq (f.status (n + l)) = false

/-- The status on entry with which `fpy_send_command` does not start. -/
def refuses (v : UInt8) : Bool := !mrq v || dataio v

/-- A call that starts has seen `dataio` clear. -/
theorem dataio_of_starts {v : UInt8} (h : refuses v = false) : dataio v = false :=
  (Bool.or_eq_false_iff.mp h).2

variable {f : Feed} {s s' : Traffic} {cmd bs : List UInt8} {b msr : UInt8} {wait : Bool} {e : ErrT}

/-- A status that asserts `mrq` is a thousand readings away or closer. -/
theorem Ready.or_silent (f : Feed) (n : Nat) : (∃ m < 1000, f.Ready n m) ∨ f.Silent n :=
  first_or_none _ 1000

theorem Ready.not_silent {n m : Nat} (h : f.Ready n m) (hm : m < 1000) : ¬ f.Silent n :=
  fun silent => h.not_lt silent hm

theorem exec_fpySendCommandByte : Exec f.machine (fpySendCommandByte b) s e s' ↔
    (∃ m < 1000, f.Ready s.statuses m ∧ e = noErr ∧ s' = put b (f.look^[m + 1] s)) ∨
      f.Silent s.statuses ∧ e = some (mkErr 186 "timeout") ∧ s' = f.look^[1000] s := by
  rw [fpySendCommandByte, fpySendCommandByteLoop_eq, exec_tries (settles_status f), passes_mrq]
  simp only [exec_vis, exec_pure, machine_write, exists_eq_left, exists_const, Ready, Silent]

theorem exec_loop_nil : Exec f.machine (fpySendCommandLoop msr wait []) s e s' ↔
    e = noErr ∧
      if wait then ∃ m, f.Ready s.statuses m ∧ s' = f.look^[m + 1] s else s' = s := by
  cases wait with
  | false => simp only [fpySendCommandLoop, Bool.false_eq_true, if_false, Prog.pure_eq, exec_pure]
  | true =>
    simp only [fpySendCommandLoop, if_true, Prog.bind_eq, Code.inbUntil_bind, Prog.pure_eq,
      exec_poll (settles_status f), passes_mrq, exec_pure, Ready]
    constructor
    · rintro ⟨m, first, he, hs⟩
      exact ⟨he, m, first, hs⟩
    · rintro ⟨he, m, first, hs⟩
      exact ⟨m, first, he, hs⟩

/-- One byte: a wait for `mrq`, then the byte sender's own. -/
theorem exec_loop_cons (hmsr : dataio msr = false) :
    Exec f.machine (fpySendCommandLoop msr wait (b :: bs)) s e s' ↔
      ∃ m, f.Ready s.statuses m ∧
        ((∃ m' < 1000, f.Ready (s.statuses + (m + 1)) m' ∧
          Exec f.machine (fpySendCommandLoop msr wait bs)
            (put b (f.look^[m' + 1] (f.look^[m + 1] s))) e s') ∨
          f.Silent (s.statuses + (m + 1)) ∧ e = some (mkErr 186 "timeout") ∧
            s' = f.look^[1000] (f.look^[m + 1] s)) := by
  simp only [fpySendCommandLoop, Prog.bind_eq, Code.inbUntil_bind, hmsr, Bool.false_eq_true,
    if_false, exec_poll (settles_status f), passes_mrq]
  apply exists_congr
  intro m
  apply and_congr_right'
  rw [exec_bind]
  simp only [exec_fpySendCommandByte, statuses_looks]
  constructor
  · rintro ⟨a, s₁, ⟨m', hm', ready, rfl, rfl⟩ | ⟨silent, rfl, hs₁⟩, rest⟩
    · exact .inl ⟨m', hm', ready, rest⟩
    · obtain ⟨he, hs'⟩ := exec_pure.mp rest
      exact .inr ⟨silent, he, hs'.trans hs₁⟩
  · rintro (⟨m', hm', ready, rest⟩ | ⟨silent, he, hs'⟩)
    · exact ⟨noErr, _, .inl ⟨m', hm', ready, rfl, rfl⟩, rest⟩
    · exact ⟨_, s', .inr ⟨silent, rfl, hs'⟩, exec_pure.mpr ⟨he, rfl⟩⟩

/-- The call as nodes: its two marks around the status on entry and the loop. -/
theorem fpySendCommand_eq (cmd : List UInt8) (wait : Bool) : fpySendCommand cmd wait =
    .vis (S := ops) (.mark (.send cmd)) fun _ => .vis (S := ops) (.inb FPY_MSR) fun v =>
      (if refuses v then .pure (some (mkErr 193 "bad msr values"))
        else fpySendCommandLoop v wait cmd).bind fun e =>
          .vis (S := ops) (.mark (.sent e)) fun _ => .pure e :=
  rfl

theorem exec_fpySendCommand : Exec f.machine (fpySendCommand cmd wait) s e s' ↔
    if refuses (f.status s.statuses) then e = some (mkErr 193 "bad msr values") ∧ s' = f.look s
    else Exec f.machine (fpySendCommandLoop (f.status s.statuses) wait cmd) (f.look s) e s' := by
  have body : Exec f.machine (fpySendCommand cmd wait) s e s' ↔
      Exec f.machine (if refuses (f.status s.statuses)
        then .pure (some (mkErr 193 "bad msr values"))
        else fpySendCommandLoop (f.status s.statuses) wait cmd) (f.look s) e s' := by
    rw [fpySendCommand_eq]
    simp only [exec_vis, machine_mark, machine_status, exists_eq_left, exists_const, exec_bind,
      exec_pure]
    constructor
    · rintro ⟨x, s₁, ⟨rfl, rfl⟩, a, s₂, run, rfl, rfl⟩
      exact run
    · intro run
      exact ⟨_, _, ⟨rfl, rfl⟩, e, s', run, rfl, rfl⟩
  rw [body]
  split
  · exact exec_pure
  · exact Iff.rfl

/-- The bytes that are left get sent, with the statuses from the `n`th to the
`n'`th. -/
def Sent (f : Feed) (wait : Bool) : List UInt8 → (n n' : Nat) → Prop
  | [], n, n' => if wait then ∃ m, f.Ready n m ∧ n' = n + (m + 1) else n' = n
  | _ :: bs, n, n' => ∃ m, f.Ready n m ∧ ∃ m' < 1000, f.Ready (n + (m + 1)) m' ∧
      f.Sent wait bs (n + (m + 1) + (m' + 1)) n'

/-- A loop without error has sent its bytes, and read nothing but the status. -/
theorem sent_of_exec (hmsr : dataio msr = false)
    (run : Exec f.machine (fpySendCommandLoop msr wait bs) s noErr s') :
    f.Sent wait bs s.statuses s'.statuses ∧ s'.bytes = s.bytes ∧
      readBytes s'.log = readBytes s.log ∧
        (Before Item.isData ReadyOnTop s.log → Before Item.isData ReadyOnTop s'.log) := by
  induction bs generalizing s with
  | nil =>
    obtain ⟨-, hs'⟩ := exec_loop_nil.mp run
    cases wait with
    | false =>
      obtain rfl := hs'
      exact ⟨rfl, rfl, rfl, id⟩
    | true =>
      obtain ⟨m, ready, rfl⟩ := hs'
      exact ⟨⟨m, ready, statuses_looks (m + 1)⟩, bytes_looks (m + 1), readBytes_looks (m + 1),
        fun h => before_looks (fun _ => id) h (m + 1)⟩
  | cons b bs ih =>
    obtain ⟨m, ready, ⟨m', hm', ready', rest⟩ | ⟨-, he, -⟩⟩ := (exec_loop_cons hmsr).mp run
    · obtain ⟨sent, hbytes, hread, hbefore⟩ := ih rest
      simp only [statuses_put, statuses_looks] at sent
      refine ⟨⟨m, ready, m', hm', ready', sent⟩, ?_, ?_, fun h => ?_⟩
      · rw [hbytes, put, bytes_looks, bytes_looks]
      · exact hread.trans ((readBytes_looks (m' + 1)).trans (readBytes_looks (m + 1)))
      · have looked := before_looks (f := f) (fun _ => id) h (m + 1)
        exact hbefore (before_cons.mpr ⟨False.elim, before_looks (fun _ => id) looked (m' + 1)⟩)
    · cases he

/-- And bytes that get sent are sent by a run. -/
theorem exec_of_sent (hmsr : dataio msr = false) {n' : Nat}
    (sent : f.Sent wait bs s.statuses n') :
    ∃ s', Exec f.machine (fpySendCommandLoop msr wait bs) s noErr s' ∧ s'.statuses = n' := by
  induction bs generalizing s with
  | nil =>
    cases wait with
    | false => exact ⟨s, exec_loop_nil.mpr ⟨rfl, rfl⟩, sent.symm⟩
    | true =>
      obtain ⟨m, ready, rfl⟩ := sent
      exact ⟨f.look^[m + 1] s, exec_loop_nil.mpr ⟨rfl, m, ready, rfl⟩, statuses_looks (m + 1)⟩
  | cons b bs ih =>
    obtain ⟨m, ready, m', hm', ready', sent⟩ := sent
    have rest : f.Sent wait bs (put b (f.look^[m' + 1] (f.look^[m + 1] s))).statuses n' := by
      simpa only [statuses_put, statuses_looks] using sent
    obtain ⟨s', run, hs'⟩ := ih rest
    exact ⟨s', (exec_loop_cons hmsr).mpr ⟨m, ready, .inl ⟨m', hm', ready', run⟩⟩, hs'⟩

/-! ## What is delivered -/

/-- Every byte was written right after a status that asserted `mrq`. -/
abbrev Guarded (log : List Item) : Prop := Before Item.isWrite ReadyOnTop log

/-- A byte written after the wait for `mrq`. -/
theorem guarded_put (h : Guarded s.log) {m : Nat} (ready : f.Ready s.statuses m) (b : UInt8) :
    Guarded (put b (f.look^[m + 1] s)).log :=
  before_cons.mpr ⟨fun _ => ready.onTop, before_looks (fun _ => id) h (m + 1)⟩

/-- What a complete call has done, by its log. -/
structure Delivered (cmd : List UInt8) (wait : Bool) (e : ErrT) (log : List Item) : Prop where
  /-- The bytes written are the command's, in order, up to some point. -/
  inOrder : written log <+: cmd
  guarded : Guarded log
  /-- It is all of the command or an error. -/
  reported : e = noErr ↔ written log = cmd
  /-- The final wait was waited. -/
  waited : e = noErr → wait = true → ∃ v, lastStatus log = some v ∧ mrq v = true

private theorem delivered_loop (hmsr : dataio msr = false)
    (run : Exec f.machine (fpySendCommandLoop msr wait bs) s e s') (guarded : Guarded s.log) :
    ∃ sent, sent <+: bs ∧ written s'.log = written s.log ++ sent ∧ Guarded s'.log ∧
      (e = noErr ↔ sent = bs) ∧
      (e = noErr → wait = true → ∃ v, lastStatus s'.log = some v ∧ mrq v = true) := by
  induction bs generalizing s with
  | nil =>
    obtain ⟨rfl, hs'⟩ := exec_loop_nil.mp run
    cases wait with
    | false =>
      obtain rfl := hs'
      have sent : noErr = noErr ↔ ([] : List UInt8) = [] := ⟨fun _ => rfl, fun _ => rfl⟩
      refine ⟨[], List.prefix_rfl, (List.append_nil _).symm, guarded, sent, ?_⟩
      intro _ hwait
      cases hwait
    | true =>
      obtain ⟨m, ready, rfl⟩ := hs'
      have sent : noErr = noErr ↔ ([] : List UInt8) = [] := ⟨fun _ => rfl, fun _ => rfl⟩
      refine ⟨[], List.prefix_rfl, ?_, before_looks (fun _ => id) guarded (m + 1), sent, ?_⟩
      · rw [written_looks, List.append_nil]
      · intro _ _
        exact ⟨_, by rw [log_looks_succ, lastStatus], ready.here⟩
  | cons b bs ih =>
    obtain ⟨m, ready, ⟨m', hm', ready', rest⟩ | ⟨silent, he, hs'⟩⟩ := (exec_loop_cons hmsr).mp run
    · rw [← statuses_looks] at ready'
      obtain ⟨sent, pre, hwritten, hguarded, hreported, hwaited⟩ :=
        ih rest (guarded_put (before_looks (fun _ => id) guarded (m + 1)) ready' b)
      refine ⟨b :: sent, List.cons_prefix_cons.mpr ⟨rfl, pre⟩, ?_, hguarded, ?_, hwaited⟩
      · rw [hwritten, put, written, written_looks, written_looks, List.append_assoc]
        rfl
      · rw [hreported, List.cons.injEq]
        exact (and_iff_right rfl).symm
    · have hne : e ≠ noErr := by
        rw [he]
        exact Option.some_ne_none _
      refine ⟨[], List.nil_prefix, ?_, ?_, ?_, ?_⟩
      · rw [hs', written_looks, written_looks, List.append_nil]
      · rw [hs']
        exact before_looks (fun _ => id) (before_looks (fun _ => id) guarded (m + 1)) 1000
      · exact ⟨fun h => absurd h hne, fun h => absurd h.symm (List.cons_ne_nil b bs)⟩
      · exact fun h => absurd h hne

/-- `fpy_send_command` delivers the command or reports that it did not. -/
theorem fpySendCommand_delivered (f : Feed) (cmd : List UInt8) (hcmd : cmd ≠ []) (wait : Bool)
    (e : ErrT) (s : Traffic) (run : Exec f.machine (fpySendCommand cmd wait) {} e s) :
    Delivered cmd wait e s.log := by
  rw [exec_fpySendCommand] at run
  have guarded : Guarded (f.look {}).log := before_looks (fun _ => id) before_nil 1
  by_cases hr : refuses (f.status 0) = true
  · rw [if_pos hr] at run
    obtain ⟨rfl, rfl⟩ := run
    have hne : some (mkErr 193 "bad msr values") ≠ noErr := Option.some_ne_none _
    exact ⟨List.nil_prefix, guarded, ⟨fun h => absurd h hne, fun h => absurd h.symm hcmd⟩,
      fun h => absurd h hne⟩
  · rw [if_neg hr] at run
    have hmsr := dataio_of_starts (Bool.eq_false_iff.mpr hr)
    obtain ⟨sent, pre, hwritten, hguarded, hreported, hwaited⟩ := delivered_loop hmsr run guarded
    obtain rfl : written s.log = sent := hwritten
    exact ⟨pre, hguarded, hreported, hwaited⟩

/-- The controller that is always ready for a byte. -/
def always (v : UInt8) : Feed := ⟨fun _ => v, fun _ => 0⟩

/-- One that is ready when it is looked at for the first time after a byte, and then not for two
times. -/
def late : Feed := ⟨fun n => if n % 4 = 2 ∨ n % 4 = 3 then 0x00 else 0x80, fun _ => 0⟩

/-- A SEEK of three bytes is sent to it, with a wait for each. -/
theorem fpySendCommand_delivered_seek : Delivered [0x0F, 0x01, 0x27] true noErr
    [.status 0x80, .write 0x27, .status 0x80, .status 0x00, .status 0x00, .status 0x80,
      .write 0x01, .status 0x80, .status 0x00, .status 0x00, .status 0x80,
      .write 0x0F, .status 0x80, .status 0x00, .status 0x00, .status 0x80, .status 0x80] :=
  fpySendCommand_delivered late [0x0F, 0x01, 0x27] (by decide) true noErr ⟨14, 0, _⟩
    (simulate_sound (M := late.machine) id (show simulate late.sim 30 _ _ = _ from rfl))

/-! ## When the call returns -/

/-- From the `n`th status on, the statuses come that end the waits of the bytes
that are left: for each byte one that asserts `mrq`, and after the last one more
where the call waits for it. A byte that times out ends the call. -/
def Returns (f : Feed) (wait : Bool) : List UInt8 → Nat → Prop
  | [], n => wait = true → ∃ m, f.Ready n m
  | _ :: bs, n => ∃ m, f.Ready n m ∧
      ∀ m' < 1000, f.Ready (n + (m + 1)) m' → Returns f wait bs (n + (m + 1) + (m' + 1))

private theorem returns_loop (hmsr : dataio msr = false) :
    (∃ e s', Exec f.machine (fpySendCommandLoop msr wait bs) s e s') ↔
      Returns f wait bs s.statuses := by
  induction bs generalizing s with
  | nil =>
    constructor
    · rintro ⟨e, s', run⟩ hwait
      have h := (exec_loop_nil.mp run).2
      rw [if_pos hwait] at h
      exact h.imp fun _ h => h.1
    · intro h
      cases wait with
      | false => exact ⟨noErr, s, exec_loop_nil.mpr ⟨rfl, rfl⟩⟩
      | true =>
        obtain ⟨m, ready⟩ := h rfl
        exact ⟨noErr, f.look^[m + 1] s, exec_loop_nil.mpr ⟨rfl, m, ready, rfl⟩⟩
  | cons b bs ih =>
    constructor
    · rintro ⟨e, s', run⟩
      obtain ⟨m, ready, h⟩ := (exec_loop_cons hmsr).mp run
      refine ⟨m, ready, fun m' hm' ready' => ?_⟩
      rcases h with ⟨m'', -, ready'', rest⟩ | ⟨silent, -⟩
      · obtain rfl := ready'.unique ready''
        simpa only [statuses_put, statuses_looks] using ih.mp ⟨e, s', rest⟩
      · exact absurd silent (ready'.not_silent hm')
    · rintro ⟨m, ready, h⟩
      rcases Ready.or_silent f (s.statuses + (m + 1)) with ⟨m', hm', ready'⟩ | silent
      · have returns := h m' hm' ready'
        rw [← statuses_looks (f := f) (s := s) (m + 1), ← statuses_looks (f := f) (m' + 1),
          ← statuses_put (s := f.look^[m' + 1] _) b] at returns
        obtain ⟨e, s', rest⟩ := ih.mpr returns
        exact ⟨e, s', (exec_loop_cons hmsr).mpr ⟨m, ready, .inl ⟨m', hm', ready', rest⟩⟩⟩
      · exact ⟨_, _, (exec_loop_cons hmsr).mpr ⟨m, ready, .inr ⟨silent, rfl, rfl⟩⟩⟩

/-- A call that starts returns exactly when the statuses it waits for come. -/
theorem returns_started (hr : ¬ refuses (f.status s.statuses) = true) :
    (∃ e s', Exec f.machine (fpySendCommand cmd wait) s e s') ↔
      Returns f wait cmd (s.statuses + 1) := by
  have hmsr := dataio_of_starts (Bool.eq_false_iff.mpr hr)
  simp only [exec_fpySendCommand, hr, Bool.false_eq_true, if_false]
  exact returns_loop hmsr

/-- For every stream of statuses, `fpy_send_command` returns exactly when its
unbounded waits are ended by the statuses to come. -/
theorem fpySendCommand_returns_iff (f : Feed) (cmd : List UInt8) (wait : Bool) :
    (∃ e s, Exec f.machine (fpySendCommand cmd wait) {} e s) ↔
      refuses (f.status 0) = true ∨ f.Returns wait cmd 1 := by
  by_cases hr : refuses (f.status 0) = true
  · simp only [exec_fpySendCommand, hr, if_true, true_or, iff_true]
    exact ⟨_, _, rfl, rfl⟩
  · rw [returns_started (s := {}) hr, or_iff_right hr]

/-- The controller that is ready once, and then stops asserting `mrq`. -/
def readyOnce : Feed := ⟨fun n => if n = 0 then 0x80 else 0, fun _ => 0⟩

/-- A CHECK_INT sent to it polls forever. -/
theorem fpySendCommand_polls_forever :
    ¬ ∃ e s, Exec readyOnce.machine (fpySendCommand [0x08] true) {} e s := by
  have starts : ¬ refuses (readyOnce.status 0) = true := by decide
  rw [returns_started starts]
  rintro ⟨m, ready, -⟩
  have quiet : readyOnce.status (m + 1) = 0 := by
    change (if m + 1 = 0 then 0x80 else 0 : UInt8) = 0
    exact if_neg (Nat.succ_ne_zero m)
  have hmrq : mrq (readyOnce.status (1 + m)) = true := ready.here
  rw [Nat.add_comm, quiet] at hmrq
  exact absurd hmrq (by decide)

/-! ## The direction -/

/-- The statuses read since the last byte was written have one that showed the
controller ready to be written. -/
def AskedFor (log : List Item) : Prop := ∃ v ∈ sinceWrite log, mrq v = true ∧ dataio v = false

/-- `later` is what followed a status that showed the controller ready to be
READ, with bytes of the command left. -/
def Turned (cmd : List UInt8) (log later : List Item) : Prop :=
  ∃ v earlier, log = later ++ .status v :: earlier ∧ mrq v = true ∧ dataio v = true ∧
    (written earlier).length < cmd.length

/-- `fpy_send_command` does not talk against the controller's direction, in any
state it passes: every byte was asked for, and once the controller has turned
before the last byte no other is written, and the call returns an error. -/
structure KeepsDirection (f : Feed) (cmd : List UInt8) (wait : Bool) : Prop where
  asked : ∀ s, Visits f.machine (fpySendCommand cmd wait) {} s →
    Before Item.isWrite AskedFor s.log
  stops : ∀ s, Visits f.machine (fpySendCommand cmd wait) {} s →
    ∀ later, Turned cmd s.log later → written later = [] ∧
      ∃ err s', Exec f.machine (fpySendCommand cmd wait) {} (some err) s'

/-- For each byte that is left and gets written, the two statuses that assert
`mrq` before it, the one that ends the wait and the one the byte is sent on,
have `dataio` clear. -/
def Clear (f : Feed) : List UInt8 → Nat → Prop
  | [], _ => True
  | _ :: bs, n => ∀ m m', f.Ready n m → f.Ready (n + (m + 1)) m' → m' < 1000 →
      dataio (f.status (n + m)) = false ∧ dataio (f.status (n + (m + 1) + m')) = false ∧
        Clear f bs (n + (m + 1) + (m' + 1))

/-- What a state the call passes has in its log; `E` is that the call returns an
error. -/
def Kept (cmd : List UInt8) (E : Prop) (log : List Item) : Prop :=
  Before Item.isWrite AskedFor log ∧ ∀ later, Turned cmd log later → written later = [] ∧ E

/-- No status so far showed the controller ready to be read. -/
def Calm (log : List Item) : Prop :=
  ∀ v, .status v ∈ log → mrq v = true → dataio v = false

/-- A stretch of the log in which nothing but the status was read. -/
def Statuses (log : List Item) : Prop := ∀ i ∈ log, ∃ v, i = .status v

theorem Statuses.written_eq {log : List Item} (h : Statuses log) : written log = [] := by
  induction log with
  | nil => rfl
  | cons i log ih =>
    obtain ⟨v, rfl⟩ := h i List.mem_cons_self
    exact ih fun j hj => h j (List.mem_cons_of_mem _ hj)

/-- Looking `m` times puts `m` statuses on the log. -/
theorem log_looks (f : Feed) (s : Traffic) (m : Nat) : ∃ top, (f.look^[m] s).log = top ++ s.log ∧
    ∀ i ∈ top, ∃ l < m, i = .status (f.status (s.statuses + l)) := by
  induction m with
  | zero => exact ⟨[], rfl, fun i hi => absurd hi List.not_mem_nil⟩
  | succ m ih =>
    obtain ⟨top, heq, htop⟩ := ih
    refine ⟨.status (f.status (s.statuses + m)) :: top, ?_, ?_⟩
    · rw [log_looks_succ, heq, List.cons_append]
    · intro i hi
      rcases List.mem_cons.mp hi with rfl | hi
      · exact ⟨m, Nat.lt_succ_self m, rfl⟩
      · obtain ⟨l, hl, hi⟩ := htop i hi
        exact ⟨l, Nat.lt_succ_of_lt hl, hi⟩

/-- More statuses on a calm log: they matter only while bytes are left, and then
only where they are not calm and the call does not return an error. -/
theorem kept_statuses {top log : List Item} {E : Prop} (asked : Before Item.isWrite AskedFor log)
    (calm : Calm log) (statuses : Statuses top)
    (h : E ∨ cmd.length ≤ (written log).length ∨ Calm top) : Kept cmd E (top ++ log) := by
  constructor
  · clear h
    induction top with
    | nil => exact asked
    | cons i top ih =>
      obtain ⟨v, rfl⟩ := statuses i List.mem_cons_self
      exact before_cons.mpr ⟨False.elim, ih fun j hj => statuses j (List.mem_cons_of_mem _ hj)⟩
  · rintro later ⟨v, earlier, heq, hmrq, hdataio, hlt⟩
    have turned : ∀ {l : List Item}, Calm l → Item.status v ∉ l := by
      intro l hl hv
      rw [hl v hv hmrq] at hdataio
      cases hdataio
    have split : ∃ mid, top = later ++ .status v :: mid ∧ earlier = mid ++ log := by
      rcases List.append_eq_append_iff.mp heq with ⟨mid, -, hlog⟩ | ⟨mid, htop, hlog⟩
      · exact absurd (hlog ▸ List.mem_append_right _ List.mem_cons_self) (turned calm)
      · cases mid with
        | nil =>
          obtain rfl : .status v :: earlier = log := hlog
          exact absurd List.mem_cons_self (turned calm)
        | cons i mid =>
          obtain ⟨rfl, rfl⟩ := List.cons.inj hlog
          exact ⟨mid, htop, rfl⟩
    obtain ⟨mid, rfl, rfl⟩ := split
    have hmid : Statuses mid := fun j hj =>
      statuses j (List.mem_append_right _ (List.mem_cons_of_mem _ hj))
    have hlater : Statuses later := fun j hj => statuses j (List.mem_append_left _ hj)
    refine ⟨hlater.written_eq, ?_⟩
    rcases h with hE | hlen | hcalm
    · exact hE
    · rw [written_append, hmid.written_eq, List.append_nil] at hlt
      exact absurd hlen (Nat.not_le_of_lt hlt)
    · exact absurd (List.mem_append_right _ List.mem_cons_self) (turned hcalm)

theorem calm_looks {m : Nat} (calm : Calm s.log)
    (h : ∀ l < m, mrq (f.status (s.statuses + l)) = true →
      dataio (f.status (s.statuses + l)) = false) :
    Calm (f.look^[m] s).log := by
  obtain ⟨top, heq, htop⟩ := log_looks f s m
  intro v hv hmrq
  rw [heq] at hv
  rcases List.mem_append.mp hv with hv | hv
  · obtain ⟨l, hl, hv⟩ := htop _ hv
    cases hv
    exact h l hl hmrq
  · exact calm v hv hmrq

theorem kept_looks {E : Prop} {m : Nat} (asked : Before Item.isWrite AskedFor s.log)
    (calm : Calm s.log)
    (h : E ∨ cmd.length ≤ (written s.log).length ∨ Calm (f.look^[m] s).log) :
    Kept cmd E (f.look^[m] s).log := by
  obtain ⟨top, heq, htop⟩ := log_looks f s m
  have statuses : Statuses top := fun i hi => by
    obtain ⟨l, -, hi⟩ := htop i hi
    exact ⟨_, hi⟩
  rw [heq] at h ⊢
  refine kept_statuses asked calm statuses (h.imp_right (Or.imp_right ?_))
  exact fun hc v hv => hc v (List.mem_append_left _ hv)

/-- A byte that is written keeps the log calm and the direction kept. -/
theorem askedFor_ready {m : Nat} (ready : f.Ready s.statuses m)
    (hdataio : dataio (f.status (s.statuses + m)) = false) :
    AskedFor (f.look^[m + 1] s).log := by
  rw [log_looks_succ]
  exact ⟨_, List.mem_cons_self, ready.here, hdataio⟩

theorem calm_ready {m : Nat} (calm : Calm s.log) (ready : f.Ready s.statuses m)
    (hdataio : dataio (f.status (s.statuses + m)) = false) : Calm (f.look^[m + 1] s).log := by
  apply calm_looks calm
  intro l hl hmrq
  rcases Nat.lt_succ_iff_lt_or_eq.mp hl with hl | rfl
  · exact absurd (ready.before l hl) (by rw [hmrq]; exact Bool.noConfusion)
  · exact hdataio

theorem calm_waiting {m : Nat} (calm : Calm s.log)
    (none : ∀ l < m, mrq (f.status (s.statuses + l)) = false) : Calm (f.look^[m] s).log := by
  apply calm_looks calm
  intro l hl hmrq
  exact absurd (none l hl) (by rw [hmrq]; exact Bool.noConfusion)

/-- The byte sender where it does send the byte. -/
theorem kept_sent {E : Prop} {m : Nat} {Q : ErrT → Traffic → Prop}
    (asked : Before Item.isWrite AskedFor s.log) (calm : Calm s.log)
    (ready : f.Ready s.statuses m) (hm : m < 1000)
    (sent : Q noErr (put b (f.look^[m + 1] s)))
    (hdataio : dataio (f.status (s.statuses + m)) = false) :
    Follows f.machine (fun t _ => Kept cmd E t.log) (fpySendCommandByte b) Q s := by
  rw [fpySendCommandByte, fpySendCommandByteLoop_eq]
  apply follows_tries (settles_status f)
  · intro l _ none
    rw [passes_mrq] at none
    exact kept_looks asked calm (.inr (.inr (calm_waiting calm none)))
  · intro l _ first
    rw [passes_mrq] at first
    obtain rfl := first.unique ready
    refine ⟨kept_looks asked calm (.inr (.inr (calm_ready calm ready hdataio))), ?_⟩
    intro u t hm
    rw [machine_write.mp hm]
    exact sent
  · intro none
    rw [passes_mrq] at none
    exact absurd none (ready.not_silent hm)

/-- And where it times out. -/
theorem kept_silent {E : Prop} {Q : ErrT → Traffic → Prop} (silent : f.Silent s.statuses)
    (kept : ∀ l, Kept cmd E (f.look^[l] s).log)
    (timeout : Q (some (mkErr 186 "timeout")) (f.look^[1000] s)) :
    Follows f.machine (fun t _ => Kept cmd E t.log) (fpySendCommandByte b) Q s := by
  rw [fpySendCommandByte, fpySendCommandByteLoop_eq]
  apply follows_tries (settles_status f)
  · intro l _ _
    exact kept l
  · intro l hl first
    rw [passes_mrq] at first
    exact absurd silent (Ready.not_silent first hl)
  · intro _
    exact timeout

/-- The walk of the loop. `E` is carried along: it is what the call's own end says
where a byte times out. -/
theorem kept_loop {E : Prop} (hmsr : dataio msr = false) (hcmd : written s.log ++ bs = cmd)
    (asked : Before Item.isWrite AskedFor s.log) (calm : Calm s.log)
    (clear : f.Clear bs s.statuses)
    (hE : ∀ err s', Exec f.machine (fpySendCommandLoop msr wait bs) s (some err) s' → E) :
    Follows f.machine (fun t _ => Kept cmd E t.log) (fpySendCommandLoop msr wait bs)
      (fun _ t => Kept cmd E t.log) s := by
  induction bs generalizing s with
  | nil =>
    rw [List.append_nil] at hcmd
    have done : ∀ m, Kept cmd E (f.look^[m] s).log := fun m =>
      kept_looks asked calm (.inr (.inl (hcmd ▸ Nat.le_refl _)))
    cases wait with
    | false => exact done 0
    | true =>
      simp only [fpySendCommandLoop, if_true, Prog.bind_eq, Code.inbUntil_bind]
      exact follows_poll_first (settles_status f) (fun m _ => done m) fun m _ => done (m + 1)
  | cons b bs ih =>
    simp only [fpySendCommandLoop, Prog.bind_eq, Code.inbUntil_bind, hmsr, Bool.false_eq_true,
      if_false]
    apply follows_poll_first (settles_status f)
    · intro m none
      rw [passes_mrq] at none
      exact kept_looks asked calm (.inr (.inr (calm_waiting calm none)))
    · intro m ready
      rw [passes_mrq] at ready
      rw [follows_bind]
      have asked₁ : Before Item.isWrite AskedFor (f.look^[m + 1] s).log :=
        before_looks (fun _ => id) asked (m + 1)
      rcases Ready.or_silent f (s.statuses + (m + 1)) with ⟨m', hm', ready'⟩ | silent
      · obtain ⟨hdataio, hdataio', clear⟩ := clear m m' ready ready' hm'
        have calm₁ := calm_ready calm ready hdataio
        rw [← statuses_looks (f := f) (s := s)] at ready' hdataio'
        apply kept_sent asked₁ calm₁ ready' hm' _ hdataio'
        apply ih
        · rw [put, written, written_looks, written_looks, List.append_assoc]
          exact hcmd
        · exact before_cons.mpr ⟨fun _ => askedFor_ready ready' hdataio',
            before_looks (fun _ => id) asked₁ (m' + 1)⟩
        · intro v hv hmrq
          rcases List.mem_cons.mp hv with hv | hv
          · cases hv
          · exact calm_ready calm₁ ready' hdataio' v hv hmrq
        · simpa only [statuses_put, statuses_looks] using clear
        · intro err s' run
          rw [statuses_looks] at ready'
          exact hE err s' ((exec_loop_cons hmsr).mpr ⟨m, ready, .inl ⟨m', hm', ready', run⟩⟩)
      · have timeout : E := hE _ _ ((exec_loop_cons hmsr).mpr ⟨m, ready, .inr ⟨silent, rfl, rfl⟩⟩)
        have kept : ∀ l, Kept cmd E (f.look^[l] (f.look^[m + 1] s)).log := by
          intro l
          rw [← Function.iterate_add_apply]
          exact kept_looks asked calm (.inl timeout)
        rw [← statuses_looks (f := f) (s := s)] at silent
        exact kept_silent silent kept (kept 1000)

/-- The walk of the call, from its first status on. -/
theorem kept_call (h : refuses (f.status 0) = true ∨ f.Clear cmd 1) {E : Prop}
    (hE : ∀ err s', Exec f.machine (fpySendCommand cmd wait) {} (some err) s' → E) :
    Follows f.machine (fun t _ => Kept cmd E t.log) (fpySendCommand cmd wait)
      (fun _ t => Kept cmd E t.log) {} := by
  have asked : Before Item.isWrite AskedFor ({} : Traffic).log := before_nil
  have calm : Calm ({} : Traffic).log := fun v hv => absurd hv List.not_mem_nil
  have start : Kept cmd E ({} : Traffic).log :=
    kept_looks (f := f) (m := 0) asked calm (.inr (.inr calm))
  have sent : ∀ e t, Kept cmd E t.log → Follows f.machine (fun t _ => Kept cmd E t.log)
      (.vis (S := ops) (.mark (.sent e)) fun _ => .pure e) (fun _ t => Kept cmd E t.log) t := by
    intro e t ht
    refine ⟨ht, fun u t' hm => ?_⟩
    rw [machine_mark.mp hm]
    exact ht
  rw [fpySendCommand_eq]
  refine ⟨start, fun u t hm => ?_⟩
  rw [machine_mark.mp hm]
  refine ⟨start, fun x t hm => ?_⟩
  obtain ⟨rfl, rfl⟩ := machine_status.mp hm
  change Follows _ _ (Prog.bind (if refuses (f.status 0) then _ else _) _) _ _
  by_cases hr : refuses (f.status 0) = true
  · have hend : E := hE _ _ (exec_fpySendCommand.mpr ((if_pos hr).mpr ⟨rfl, rfl⟩))
    rw [if_pos hr]
    exact sent _ _ (kept_looks (m := 1) asked calm (.inl hend))
  · have hmsr := dataio_of_starts (Bool.eq_false_iff.mpr hr)
    have calm₁ : Calm (f.look {}).log := calm_looks (m := 1) calm fun l hl _ => by
      obtain rfl := Nat.lt_one_iff.mp hl
      exact hmsr
    have ends : ∀ err s', Exec f.machine (fpySendCommandLoop (f.status 0) wait cmd) (f.look {})
        (some err) s' → E :=
      fun err s' run => hE err s' (exec_fpySendCommand.mpr ((if_neg hr).mpr run))
    have walk := kept_loop hmsr rfl (before_looks (fun _ => id) asked 1) calm₁
      (h.resolve_left hr) ends
    rw [if_neg hr]
    exact walk.bind sent

/-- What a loop passes, with its next byte sent, it passes. -/
theorem visits_loop_cons {m m' : Nat} {t : Traffic} (hmsr : dataio msr = false)
    (ready : f.Ready s.statuses m) (ready' : f.Ready (s.statuses + (m + 1)) m') (hm' : m' < 1000)
    (h : Visits f.machine (fpySendCommandLoop msr wait bs)
      (put b (f.look^[m' + 1] (f.look^[m + 1] s))) t) :
    Visits f.machine (fpySendCommandLoop msr wait (b :: bs)) s t := by
  have wait_over : Exec f.machine (Code.inbUntil FPY_MSR mrq) s (f.status (s.statuses + m))
      (f.look^[m + 1] s) := by
    refine (exec_poll (settles_status f)).mpr ⟨m, ?_, exec_pure.mpr ⟨?_, rfl⟩⟩
    · rw [passes_mrq]
      exact ready
    · rw [statuses_looks]
  have byte : Exec f.machine (fpySendCommandByte b) (f.look^[m + 1] s) noErr
      (put b (f.look^[m' + 1] (f.look^[m + 1] s))) := by
    refine exec_fpySendCommandByte.mpr (.inl ⟨m', hm', ?_, rfl, rfl⟩)
    rw [statuses_looks]
    exact ready'
  simp only [fpySendCommandLoop, Prog.bind_eq, hmsr, Bool.false_eq_true, if_false]
  exact wait_over.visits_bind (byte.visits_bind h)

/-- What the loop of a call that starts passes, the call passes. -/
theorem visits_call {t : Traffic} (hr : refuses (f.status 0) = false)
    (h : Visits f.machine (fpySendCommandLoop (f.status 0) wait cmd) (f.look {}) t) :
    Visits f.machine (fpySendCommand cmd wait) {} t := by
  have start : Visits f.machine (if refuses (f.status 0)
      then .pure (some (mkErr 193 "bad msr values"))
      else fpySendCommandLoop (f.status 0) wait cmd) (f.look {}) t := by
    rw [if_neg (Bool.eq_false_iff.mp hr)]
    exact h
  rw [fpySendCommand_eq]
  apply Visits.vis (x := ()) (machine_mark.mpr rfl)
  apply Visits.vis (machine_status.mpr ⟨rfl, rfl⟩)
  exact start.bind _

/-- Where nothing is written after a turn, the statuses before every byte that
gets written are clear. -/
theorem clear_of_stops (hmsr : dataio msr = false) (hcmd : written s.log ++ bs = cmd)
    (stops : ∀ t, Visits f.machine (fpySendCommandLoop msr wait bs) s t →
      ∀ later, Turned cmd t.log later → written later = []) : f.Clear bs s.statuses := by
  induction bs generalizing s with
  | nil => trivial
  | cons b bs ih =>
    intro m m' ready ready' hm'
    have left : (written s.log).length < cmd.length := by
      rw [← hcmd, List.length_append, List.length_cons]
      omega
    have visits : ∀ t, Visits f.machine (fpySendCommandLoop msr wait bs)
        (put b (f.look^[m' + 1] (f.look^[m + 1] s))) t →
          Visits f.machine (fpySendCommandLoop msr wait (b :: bs)) s t := fun t =>
      visits_loop_cons hmsr ready ready' hm'
    have sent := stops _ (visits _ ⟨_, .refl⟩)
    have clear : ∀ v later earlier, (f.look^[m' + 1] (f.look^[m + 1] s)).log =
        later ++ .status v :: earlier → mrq v = true → written earlier = written s.log →
          dataio v = false := by
      intro v later earlier heq hmrq hwritten
      by_contra hdataio
      have turned : Turned cmd (put b (f.look^[m' + 1] (f.look^[m + 1] s))).log
          (.write b :: later) :=
        ⟨v, earlier, congrArg (List.cons (Item.write b)) heq, hmrq,
          by simpa using hdataio, hwritten ▸ left⟩
      exact List.append_ne_nil_of_right_ne_nil _ (List.cons_ne_nil b []) (sent _ turned)
    obtain ⟨top, htop, -⟩ := log_looks f (f.look^[m + 1] s) (m' + 1)
    refine ⟨?_, ?_, ?_⟩
    · refine clear _ top (f.look^[m] s).log ?_ ready.here (written_looks m)
      rw [htop, log_looks_succ]
    · have last := log_looks_succ (f := f) (s := f.look^[m + 1] s) m'
      rw [statuses_looks] at last
      exact clear _ [] _ last ready'.here ((written_looks m').trans (written_looks (m + 1)))
    · have rest := ih (s := put b (f.look^[m' + 1] (f.look^[m + 1] s))) ?_ fun t ht =>
        stops t (visits t ht)
      · simpa only [statuses_put, statuses_looks] using rest
      · rw [put, written, written_looks, written_looks, List.append_assoc]
        exact hcmd

/-- A call that starts and keeps to the direction finds the statuses clear. -/
theorem KeepsDirection.clear {f : Feed} {cmd : List UInt8} {wait : Bool}
    (h : KeepsDirection f cmd wait) (hr : refuses (f.status 0) = false) : f.Clear cmd 1 := by
  have stops : ∀ t, Visits f.machine (fpySendCommandLoop (f.status 0) wait cmd) (f.look {}) t →
      ∀ later, Turned cmd t.log later → written later = [] :=
    fun t ht later turned => (h.stops t (visits_call hr ht) later turned).1
  exact clear_of_stops (dataio_of_starts hr) rfl stops

/-- For every stream of statuses, `fpy_send_command` keeps to the controller's
direction exactly when it refuses to start or the statuses it waits for are
clear: `dataio` is tested on the status read on entry only. -/
theorem fpySendCommand_keepsDirection_iff (f : Feed) (cmd : List UInt8) (wait : Bool) :
    KeepsDirection f cmd wait ↔ refuses (f.status 0) = true ∨ f.Clear cmd 1 := by
  constructor
  · intro h
    cases hr : refuses (f.status 0) with
    | true => exact .inl rfl
    | false => exact .inr (h.clear hr)
  · intro h
    have kept : ∀ s, Visits f.machine (fpySendCommand cmd wait) {} s →
        Kept cmd (∃ err s', Exec f.machine (fpySendCommand cmd wait) {} (some err) s') s.log := by
      rintro s ⟨q, run⟩
      have ends : ∀ err s', Exec f.machine (fpySendCommand cmd wait) {} (some err) s' →
          ∃ err s', Exec f.machine (fpySendCommand cmd wait) {} (some err) s' :=
        fun err s' run => ⟨err, s', run⟩
      exact ((kept_call h ends).reach run).here (J := fun t : Traffic => Kept cmd _ t.log)
        (fun _ _ => id) fun _ _ => id
    exact ⟨fun s hs => (kept s hs).1, fun s hs => (kept s hs).2⟩

/-- The controller that turns to its result phase after the status on entry. -/
def turnsAround : Feed := ⟨fun n => if n = 0 then 0x80 else 0xC0, fun _ => 0⟩

/-- A SEEK is sent to it all the same. -/
theorem fpySendCommand_against_direction :
    ¬ KeepsDirection turnsAround [0x0F, 0x00, 0x05] true := by
  intro keeps
  have clear := keeps.clear (by decide)
  have ready : ∀ n, turnsAround.Ready (n + 1) 0 := fun n => first_zero.mpr (by
    change mrq (if n + 1 = 0 then 0x80 else 0xC0) = true
    rw [if_neg (Nat.succ_ne_zero n)]
    decide)
  have := (clear 0 0 (ready 0) (ready 1) (by decide)).1
  exact absurd this (by decide)

end ToyBootloader.Feed
