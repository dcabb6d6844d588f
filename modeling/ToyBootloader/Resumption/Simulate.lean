import ToyBootloader.Resumption.Interrupt

/-!
# Simulating runs

A run is exhibited by computing it. A `Simulator` is a function that picks one
answer for an operation out of those a machine admits; `simulate` runs a
program on it with fuel, and `System.play` runs an interleaving given as the
list of its moves. Both are plain functions, so a run at concrete inputs is a
closed term, and both are sound: what they compute is a run.
-/

namespace ToyBootloader.Resumption

variable {S : Sig} {σ α : Type}

/-- One answer for an operation, and the state after it; `none` where the
simulated machine has no answer. -/
abbrev Simulator (S : Sig) (σ : Type) := σ → (op : S.Op) → Option (S.Ans op × σ)

/-- The simulator's answers are answers of the machine. -/
def Simulator.Sound (f : Simulator S σ) (M : Machine S σ) : Prop :=
  ∀ {s op x s'}, f s op = some (x, s') → M s op x s'

/-- The machine that answers what a simulator does, and nothing else. -/
def Simulator.machine (f : Simulator S σ) : Machine S σ := fun s op x s' => f s op = some (x, s')

/-- Where the simulator is known, so is its machine. -/
theorem Simulator.machine_iff {f : Simulator S σ} {s t s' : σ} {op : S.Op} {v x : S.Ans op}
    (h : f s op = some (v, t)) : f.machine s op x s' ↔ x = v ∧ s' = t := by
  unfold Simulator.machine
  rw [h, Option.some.injEq, Prod.mk.injEq]
  exact and_congr eq_comm eq_comm

theorem Simulator.machine_deterministic {f : Simulator S σ} {s s₁ s₂ : σ} {op : S.Op}
    {x y : S.Ans op} (h₁ : f.machine s op x s₁) (h₂ : f.machine s op y s₂) :
    x = y ∧ s₁ = s₂ := by
  have heq := Option.some.inj (h₁.symm.trans h₂)
  exact ⟨congrArg Prod.fst heq, congrArg Prod.snd heq⟩

/-- One step of a program on a simulator. -/
def simStep (f : Simulator S σ) : Prog S α → σ → Option (Prog S α × σ)
  | .pure _, _ => none
  | .vis op k, s => (f s op).map fun r => (k r.1, r.2)
  | .poll op ready k, s => (f s op).map fun r =>
      (if ready r.1 then k r.1 else .poll op ready k, r.2)

theorem simStep_sound {f : Simulator S σ} {M : Machine S σ} (hf : f.Sound M)
    {p p' : Prog S α} {s s' : σ} (h : simStep f p s = some (p', s')) :
    Step M (p, s) (p', s') := by
  cases p with
  | pure a => cases h
  | vis op k =>
    obtain ⟨⟨x, s₁⟩, hr, heq⟩ := Option.map_eq_some_iff.mp h
    cases heq
    exact .vis (hf hr)
  | poll op ready k =>
    obtain ⟨⟨x, s₁⟩, hr, heq⟩ := Option.map_eq_some_iff.mp h
    cases hx : ready x with
    | true =>
      simp only [hx, if_true, Prod.mk.injEq] at heq
      obtain ⟨rfl, rfl⟩ := heq
      exact .hit (hf hr) hx
    | false =>
      simp only [hx, Bool.false_eq_true, if_false, Prod.mk.injEq] at heq
      obtain ⟨rfl, rfl⟩ := heq
      exact .miss (hf hr) hx

/-- A simulator's machine goes one way. -/
theorem Simulator.step_unique {f : Simulator S σ} {c c₁ c₂ : Prog S α × σ}
    (h₁ : Step f.machine c c₁) (h₂ : Step f.machine c c₂) : c₁ = c₂ := by
  cases h₁ with
  | vis hm =>
    cases h₂ with
    | vis hm' =>
      obtain ⟨rfl, rfl⟩ := machine_deterministic hm hm'
      rfl
  | hit hm hr =>
    cases h₂ with
    | hit hm' hr' =>
      obtain ⟨rfl, rfl⟩ := machine_deterministic hm hm'
      rfl
    | miss hm' hr' =>
      obtain ⟨rfl, rfl⟩ := machine_deterministic hm hm'
      rw [hr] at hr'
      cases hr'
  | miss hm hr =>
    cases h₂ with
    | hit hm' hr' =>
      obtain ⟨rfl, rfl⟩ := machine_deterministic hm hm'
      rw [hr] at hr'
      cases hr'
    | miss hm' hr' =>
      obtain ⟨rfl, rfl⟩ := machine_deterministic hm hm'
      rfl

/-- And stops in one place. -/
theorem Simulator.stop_unique {f : Simulator S σ} {c c₁ c₂ : Prog S α × σ}
    (h₁ : Reach f.machine c c₁) (stop₁ : ∀ c', ¬ Step f.machine c₁ c')
    (h₂ : Reach f.machine c c₂) (stop₂ : ∀ c', ¬ Step f.machine c₂ c') : c₁ = c₂ := by
  have ends : ∀ {c c' : Prog S α × σ}, (∀ c', ¬ Step f.machine c c') → Reach f.machine c c' →
      c = c' := by
    intro c c' stop run
    rcases Relation.ReflTransGen.cases_head run with rfl | ⟨d, hd, -⟩
    · rfl
    · exact absurd hd (stop d)
  have unique : Relator.RightUnique (Step (α := α) f.machine) := fun _ _ _ => step_unique
  rcases h₁.total_of_right_unique unique h₂ with h | h
  · exact ends stop₁ h
  · exact (ends stop₂ h).symm

/-- A program run to its end, if the fuel lasts. -/
def simulate (f : Simulator S σ) : Nat → Prog S α → σ → Option (α × σ)
  | _, .pure a, s => some (a, s)
  | 0, _, _ => none
  | fuel + 1, .vis op k, s => (f s op).bind fun r => simulate f fuel (k r.1) r.2
  | fuel + 1, .poll op ready k, s => (f s op).bind fun r =>
      if ready r.1 then simulate f fuel (k r.1) r.2
      else simulate f fuel (.poll op ready k) r.2

theorem simulate_sound {f : Simulator S σ} {M : Machine S σ} (hf : f.Sound M)
    {fuel : Nat} {p : Prog S α} {s s' : σ} {a : α}
    (h : simulate f fuel p s = some (a, s')) : Exec M p s a s' := by
  induction fuel generalizing p s with
  | zero =>
    cases p with
    | pure b => cases h; exact .pure
    | vis op k => cases h
    | poll op ready k => cases h
  | succ fuel ih =>
    cases p with
    | pure b => cases h; exact .pure
    | vis op k =>
      obtain ⟨⟨x, s₁⟩, hr, hk⟩ := Option.bind_eq_some_iff.mp h
      exact .vis (hf hr) (ih hk)
    | poll op ready k =>
      obtain ⟨⟨x, s₁⟩, hr, hk⟩ := Option.bind_eq_some_iff.mp h
      cases hx : ready x with
      | true =>
        rw [if_pos hx] at hk
        exact .hit (hf hr) hx (ih hk)
      | false =>
        rw [if_neg (by simp [hx])] at hk
        exact .miss (hf hr) hx (ih hk)

/-! ## Runs to an end

A simulator runs a program in one way, so to say that a run exists and ends well is
to say how every run ends. The rules step the program forwards, an answer at a
time. -/

/-- On the simulator `p` from `s` comes to an end, and there `Q` holds. -/
def Simulator.Returns (f : Simulator S σ) (p : Prog S α) (Q : α → σ → Prop) (s : σ) : Prop :=
  ∃ a s', Exec f.machine p s a s' ∧ Q a s'

section Returns

variable {f : Simulator S σ} {β : Type} {s t : σ}

theorem returns_pure {a : α} {Q : α → σ → Prop} (h : Q a s) : f.Returns (.pure a) Q s :=
  ⟨a, s, .pure, h⟩

theorem returns_vis {op : S.Op} {k : S.Ans op → Prog S α} {Q : α → σ → Prop} {x : S.Ans op}
    (answer : f s op = some (x, t)) (h : f.Returns (k x) Q t) : f.Returns (.vis op k) Q s := by
  obtain ⟨a, s', run, hQ⟩ := h
  exact ⟨a, s', .vis answer run, hQ⟩

/-- A busy wait that is over at once. -/
theorem returns_poll {op : S.Op} {ready : S.Ans op → Bool} {k : S.Ans op → Prog S α}
    {Q : α → σ → Prop} {x : S.Ans op} (answer : f s op = some (x, t)) (hx : ready x = true)
    (h : f.Returns (k x) Q t) : f.Returns (.poll op ready k) Q s := by
  obtain ⟨a, s', run, hQ⟩ := h
  exact ⟨a, s', .hit answer hx run, hQ⟩

theorem Simulator.Returns.bind {p : Prog S α} {g : α → Prog S β} {R : α → σ → Prop}
    {Q : β → σ → Prop} (hp : f.Returns p R s) (hg : ∀ a s, R a s → f.Returns (g a) Q s) :
    f.Returns (p.bind g) Q s := by
  obtain ⟨a, s₁, run, hR⟩ := hp
  obtain ⟨b, s', rest, hQ⟩ := hg a s₁ hR
  exact ⟨b, s', exec_bind.mpr ⟨a, s₁, run, rest⟩, hQ⟩

theorem Simulator.Returns.mono {p : Prog S α} {Q Q' : α → σ → Prop} (h : f.Returns p Q s)
    (hQ : ∀ a s, Q a s → Q' a s) : f.Returns p Q' s := by
  obtain ⟨a, s', run, hq⟩ := h
  exact ⟨a, s', run, hQ a s' hq⟩

/-- Where a run is known, what is said of the end is said of that run's. -/
theorem Simulator.returns_iff {p : Prog S α} {Q : α → σ → Prop} {a : α}
    (run : Exec f.machine p s a t) : f.Returns p Q s ↔ Q a t := by
  constructor
  · rintro ⟨b, s', run', hQ⟩
    obtain ⟨rfl, rfl⟩ := run.deterministic machine_deterministic run'
    exact hQ
  · intro hQ
    exact ⟨a, t, run, hQ⟩

/-- Two things said of the end of a run are said of the one end there is. -/
theorem Simulator.Returns.and {p : Prog S α} {Q Q' : α → σ → Prop} (h : f.Returns p Q s)
    (h' : f.Returns p Q' s) : f.Returns p (fun a s => Q a s ∧ Q' a s) s := by
  obtain ⟨a, s', run, hQ⟩ := h
  exact ⟨a, s', run, hQ, (returns_iff run).mp h'⟩

end Returns

/-! ## Interleavings -/

/-- A move of an interleaving: `step` lets whoever has control go on by one
step, `deliver` delivers the interrupt `i`. -/
inductive Move (ι : Type) where
  | step
  | deliver (i : ι)

/-- A system's simulator: answers for both programs, and a delivery for each
name of an interrupt. -/
structure Player (S : Sig) (σ ι : Type) where
  main : Simulator S σ
  isr : Simulator S σ
  deliver : σ → ι → Option σ

variable {ι : Type}

/-- The player's choices are choices the system admits. -/
structure Player.Sound (g : Player S σ ι) (Y : System S σ) : Prop where
  main : g.main.Sound Y.main
  isr : g.isr.Sound Y.isr
  deliver : ∀ {s i s'}, g.deliver s i = some s' → Y.deliver s s'

/-- What the main program returned, when it is over. -/
def Control.result : Control S α → Option α
  | .main (.pure a) => some a
  | _ => none

/-- The main program is over, with a test passed by what it returned and by the
state. -/
def returns (test : α → σ → Bool) (c : Control S α × σ) : Bool :=
  c.1.result.any (test · c.2)

namespace System

/-- One move. -/
def move (Y : System S σ) (g : Player S σ ι) :
    Move ι → Control S α × σ → Option (Control S α × σ)
  | .step, (.main p, s) => (simStep g.main p s).map fun c => (.main c.1, c.2)
  | .step, (.isr (.pure ()) p, s) => some (.main p, s)
  | .step, (.isr h p, s) => (simStep g.isr h s).map fun c => (.isr c.1 p, c.2)
  | .deliver i, (.main p, s) => (g.deliver s i).map fun s' => (.isr Y.handler p, s')
  | .deliver _, (.isr _ _, _) => none

/-- A list of moves. -/
def play (Y : System S σ) (g : Player S σ ι) :
    List (Move ι) → Control S α × σ → Option (Control S α × σ)
  | [], c => some c
  | m :: ms, c => (Y.move g m c).bind (Y.play g ms)

theorem move_sound {Y : System S σ} {g : Player S σ ι} (hg : g.Sound Y)
    {m : Move ι} {c c' : Control S α × σ} (h : Y.move g m c = some c') :
    Y.Step c c' := by
  obtain ⟨ctl, s⟩ := c
  cases m with
  | step =>
    cases ctl with
    | main p =>
      obtain ⟨⟨p', s'⟩, hs, rfl⟩ := Option.map_eq_some_iff.mp h
      exact .main (simStep_sound hg.main hs)
    | isr q p =>
      cases q with
      | pure u => cases h; exact .iret
      | vis op k =>
        obtain ⟨⟨q', s'⟩, hs, rfl⟩ := Option.map_eq_some_iff.mp h
        exact .isr (simStep_sound hg.isr hs)
      | poll op ready k =>
        obtain ⟨⟨q', s'⟩, hs, rfl⟩ := Option.map_eq_some_iff.mp h
        exact .isr (simStep_sound hg.isr hs)
  | deliver i =>
    cases ctl with
    | main p =>
      obtain ⟨s', hs, rfl⟩ := Option.map_eq_some_iff.mp h
      exact .deliver (hg.deliver hs)
    | isr q p => cases h

/-- What a list of moves computes is a run. -/
theorem play_sound {Y : System S σ} {g : Player S σ ι} (hg : g.Sound Y)
    {ms : List (Move ι)} {c c' : Control S α × σ} (h : Y.play g ms c = some c') :
    Y.Reach c c' := by
  induction ms generalizing c with
  | nil => cases h; exact .refl
  | cons m ms ih =>
    obtain ⟨c₁, hm, hrest⟩ := Option.bind_eq_some_iff.mp h
    exact .head (move_sound hg hm) (ih hrest)

/-- A run that ends where a test passes, found by computing the test. -/
theorem exists_of_play {Y : System S σ} {g : Player S σ ι} (hg : g.Sound Y)
    {ms : List (Move ι)} {c : Control S α × σ} {test : Control S α × σ → Bool}
    (h : (Y.play g ms c).any test = true) :
    ∃ c', Y.Reach c c' ∧ test c' = true := by
  cases hp : Y.play g ms c with
  | none => rw [hp] at h; cases h
  | some c' =>
    rw [hp] at h
    exact ⟨c', play_sound hg hp, h⟩

/-- A run to the main program's end, found by computing a test of what it
returns and of the state. -/
theorem exists_return_of_play {Y : System S σ} {g : Player S σ ι} (hg : g.Sound Y)
    {ms : List (Move ι)} {c : Control S α × σ} {test : α → σ → Bool}
    (h : (Y.play g ms c).any (returns test) = true) :
    ∃ a s, Y.Reach c (.main (.pure a), s) ∧ test a s = true := by
  obtain ⟨⟨ctl, s⟩, run, ht⟩ := exists_of_play hg h
  match ctl, ht with
  | .main (.pure a), ht => exact ⟨a, s, run, ht⟩

end System

end ToyBootloader.Resumption
