import ToyBootloader.Resumption.Prog

/-!
# Running a program against a machine

A `Machine` answers operations: from a state, an operation may be answered in
any of the ways the relation admits, each with the state it leaves. The
relation is the whole interface, so a device whose registers may hold anything
is a machine that admits every answer.

Two readings of a run are given and both are used.

* `Exec M p s a s'` is the COMPLETE run, big-step: `p` from `s` ends with `a`
  in `s'`. It is what a statement about a returning call is about.
* `Reach M` is the UNFINISHED run, small-step. It is what a statement about
  every state on the way is about, and the only reading that sees a program
  which never ends.

`Follows` is the rule both are proved by. It walks the tree once, carrying a
condition `ok` on every operation about to be performed, a postcondition for
every end, and an invariant for every busy wait. `Follows.reach` and
`Follows.exec` turn what it establishes into facts about runs, and
`follows_bind` is why a caller's walk cites its callees'.
-/

namespace ToyBootloader.Resumption

variable {S : Sig} {σ τ α β : Type}

/-- How a machine with states `σ` answers the operations of `S`: `M s op a s'`
when `op` performed in `s` may be answered `a`, leaving `s'`. -/
abbrev Machine (S : Sig) (σ : Type) := σ → (op : S.Op) → S.Ans op → σ → Prop

/-! ## Complete runs -/

/-- `p`, started in `s`, ends with `a` in `s'`. A busy wait contributes as many
`miss`es as it takes and one `hit`. -/
inductive Exec (M : Machine S σ) : Prog S α → σ → α → σ → Prop
  | pure {a s} : Exec M (.pure a) s a s
  | vis {op k s x s₁ a s'} :
      M s op x s₁ → Exec M (k x) s₁ a s' → Exec M (.vis op k) s a s'
  | hit {op ready k s x s₁ a s'} :
      M s op x s₁ → ready x = true → Exec M (k x) s₁ a s' →
        Exec M (.poll op ready k) s a s'
  | miss {op ready k s x s₁ a s'} :
      M s op x s₁ → ready x = false → Exec M (.poll op ready k) s₁ a s' →
        Exec M (.poll op ready k) s a s'

@[simp] theorem exec_pure {M : Machine S σ} {a b : α} {s s' : σ} :
    Exec M (.pure a) s b s' ↔ b = a ∧ s' = s := by
  constructor
  · intro h
    cases h
    exact ⟨rfl, rfl⟩
  · rintro ⟨rfl, rfl⟩
    exact .pure

@[simp] theorem exec_vis {M : Machine S σ} {op : S.Op} {k : S.Ans op → Prog S α}
    {s s' : σ} {a : α} :
    Exec M (.vis op k) s a s' ↔ ∃ x s₁, M s op x s₁ ∧ Exec M (k x) s₁ a s' := by
  constructor
  · intro h
    cases h with
    | vis hm hk => exact ⟨_, _, hm, hk⟩
  · rintro ⟨x, s₁, hm, hk⟩
    exact .vis hm hk

/-- A busy wait's runs in a sequence: the misses are kept and the hit goes on
into the second part. A step of `exec_bind`. -/
private theorem exec_poll_bind {M : Machine S σ} {op : S.Op} {ready : S.Ans op → Bool}
    {k : S.Ans op → Prog S α} {f : α → Prog S β} {s s' : σ} {b : β}
    (ih : ∀ x {s : σ}, Exec M ((k x).bind f) s b s' →
      ∃ a s₁, Exec M (k x) s a s₁ ∧ Exec M (f a) s₁ b s')
    (h : Exec M (.poll op ready fun x => (k x).bind f) s b s') :
    ∃ a s₁, Exec M (.poll op ready k) s a s₁ ∧ Exec M (f a) s₁ b s' := by
  generalize hq : Prog.poll op ready (fun x => (k x).bind f) = q at h
  induction h with
  | pure => cases hq
  | vis hm hk => cases hq
  | hit hm hr hk =>
    cases hq
    obtain ⟨a, s₁, h₁, h₂⟩ := ih _ hk
    exact ⟨a, s₁, .hit hm hr h₁, h₂⟩
  | miss hm hr hk ihm =>
    cases hq
    obtain ⟨a, s₁, h₁, h₂⟩ := ihm ih rfl
    exact ⟨a, s₁, .miss hm hr h₁, h₂⟩

/-- The runs of a sequence are the runs of its first part continued by runs of
its second. -/
theorem exec_bind {M : Machine S σ} {p : Prog S α} {f : α → Prog S β}
    {s s' : σ} {b : β} :
    Exec M (p.bind f) s b s' ↔ ∃ a s₁, Exec M p s a s₁ ∧ Exec M (f a) s₁ b s' := by
  constructor
  · intro h
    induction p generalizing s with
    | pure a => exact ⟨a, s, .pure, h⟩
    | vis op k ih =>
      obtain ⟨x, s₁, hm, hk⟩ := exec_vis.mp h
      obtain ⟨a, s₂, h₁, h₂⟩ := ih x hk
      exact ⟨a, s₂, .vis hm h₁, h₂⟩
    | poll op ready k ih => exact exec_poll_bind ih h
  · rintro ⟨a, s₁, h₁, h₂⟩
    induction h₁ with
    | pure => exact h₂
    | vis hm _ ih => exact .vis hm (ih h₂)
    | hit hm hr _ ih => exact .hit hm hr (ih h₂)
    | miss hm hr _ ih => exact .miss hm hr (ih h₂)

/-- A sequence ends where its second part, from the first's end, does. -/
theorem Exec.exists_bind {M : Machine S σ} {p : Prog S α} {f : α → Prog S β} {s s₁ : σ} {a : α}
    {b : β} (hp : Exec M p s a s₁) (hf : ∃ s', Exec M (f a) s₁ b s') :
    ∃ s', Exec M (p.bind f) s b s' :=
  hf.imp fun _ h => exec_bind.mpr ⟨a, s₁, hp, h⟩

/-- A machine with one answer for every operation runs a program in one way. -/
theorem Exec.deterministic {M : Machine S σ}
    (hM : ∀ {s op x s₁ y s₂}, M s op x s₁ → M s op y s₂ → x = y ∧ s₁ = s₂)
    {p : Prog S α} {s s' : σ} {a : α} (h : Exec M p s a s') :
    ∀ {b : α} {s'' : σ}, Exec M p s b s'' → b = a ∧ s'' = s' := by
  induction h with
  | pure =>
    intro b s'' h'
    exact exec_pure.mp h'
  | vis hm _ ih =>
    intro b s'' h'
    cases h' with
    | vis hm' hk' =>
      obtain ⟨rfl, rfl⟩ := hM hm hm'
      exact ih hk'
  | hit hm hr _ ih =>
    intro b s'' h'
    cases h' with
    | hit hm' hr' hk' =>
      obtain ⟨rfl, rfl⟩ := hM hm hm'
      exact ih hk'
    | miss hm' hr' _ =>
      obtain ⟨rfl, rfl⟩ := hM hm hm'
      rw [hr] at hr'
      cases hr'
  | miss hm hr _ ih =>
    intro b s'' h'
    cases h' with
    | hit hm' hr' _ =>
      obtain ⟨rfl, rfl⟩ := hM hm hm'
      rw [hr] at hr'
      cases hr'
    | miss hm' hr' hk' =>
      obtain ⟨rfl, rfl⟩ := hM hm hm'
      exact ih hk'

/-- A run seen through a map of states that keeps what the machine answers. -/
theorem Exec.image {M : Machine S σ} {N : Machine S τ} {f : σ → τ}
    (seen : ∀ {s op x s'}, M s op x s' → N (f s) op x (f s')) {p : Prog S α} {s s' : σ}
    {a : α} (run : Exec M p s a s') : Exec N p (f s) a (f s') := by
  induction run with
  | pure => exact .pure
  | vis hm _ ih => exact .vis (seen hm) ih
  | hit hm hr _ ih => exact .hit (seen hm) hr ih
  | miss hm hr _ ih => exact .miss (seen hm) hr ih

/-- Two machines on one program: an operation is answered in a way both admit. -/
def both (M : Machine S σ) (N : Machine S τ) : Machine S (σ × τ) :=
  fun s op x s' => M s.1 op x s'.1 ∧ N s.2 op x s'.2

theorem Exec.left {M : Machine S σ} {N : Machine S τ} {p : Prog S α} {c c' : σ × τ} {a : α}
    (run : Exec (both M N) p c a c') : Exec M p c.1 a c'.1 :=
  run.image (f := Prod.fst) And.left

theorem Exec.right {M : Machine S σ} {N : Machine S τ} {p : Prog S α} {c c' : σ × τ} {a : α}
    (run : Exec (both M N) p c a c') : Exec N p c.2 a c'.2 :=
  run.image (f := Prod.snd) And.right

/-! ## Unfinished runs -/

/-- One operation performed: the program that is left, and the state. -/
inductive Step (M : Machine S σ) : Prog S α × σ → Prog S α × σ → Prop
  | vis {op k s x s'} : M s op x s' → Step M (.vis op k, s) (k x, s')
  | hit {op ready k s x s'} : M s op x s' → ready x = true →
      Step M (.poll op ready k, s) (k x, s')
  | miss {op ready k s x s'} : M s op x s' → ready x = false →
      Step M (.poll op ready k, s) (.poll op ready k, s')

/-- Any number of operations performed. -/
abbrev Reach (M : Machine S σ) (c c' : Prog S α × σ) : Prop :=
  Relation.ReflTransGen (Step M) c c'

/-- A complete run is one that reaches its own end. -/
theorem Exec.reach {M : Machine S σ} {p : Prog S α} {s s' : σ} {a : α}
    (h : Exec M p s a s') : Reach M (p, s) (.pure a, s') := by
  induction h with
  | pure => exact .refl
  | vis hm _ ih => exact .head (.vis hm) ih
  | hit hm hr _ ih => exact .head (.hit hm hr) ih
  | miss hm hr _ ih => exact .head (.miss hm hr) ih

/-- A run from an operation is still before it or has its answer. -/
theorem Reach.of_vis {M : Machine S σ} {op : S.Op} {k : S.Ans op → Prog S α} {q : Prog S α}
    {s s' : σ} (run : Reach M (.vis op k, s) (q, s')) :
    (q = .vis op k ∧ s' = s) ∨ ∃ x s₁, M s op x s₁ ∧ Reach M (k x, s₁) (q, s') := by
  rcases run.cases_head with heq | ⟨c, step, rest⟩
  · cases heq
    exact .inl ⟨rfl, rfl⟩
  · cases step with
    | vis hm => exact .inr ⟨_, _, hm, rest⟩

/-- What a sequence's first part reaches, the sequence reaches with the rest
still to come. -/
theorem Reach.bind {M : Machine S σ} {p q : Prog S α} {s s' : σ}
    (h : Reach M (p, s) (q, s')) (f : α → Prog S β) :
    Reach M (p.bind f, s) (q.bind f, s') := by
  refine h.lift (fun c => (c.1.bind f, c.2)) ?_
  rintro _ _ (hm | ⟨hm, hr⟩ | ⟨hm, hr⟩)
  · exact .vis hm
  · exact .hit hm hr
  · exact .miss hm hr

/-- A sequence whose first part completed has reached its second. -/
theorem Exec.reach_bind {M : Machine S σ} {p : Prog S α} {s s' : σ} {a : α}
    (h : Exec M p s a s') (f : α → Prog S β) : Reach M (p.bind f, s) (f a, s') :=
  h.reach.bind f

/-- The states a program's runs pass. -/
def Visits (M : Machine S σ) (p : Prog S α) (s t : σ) : Prop := ∃ q, Reach M (p, s) (q, t)

/-- A sequence visits what its second part does, from its first part's end. -/
theorem Exec.visits_bind {M : Machine S σ} {p : Prog S α} {f : α → Prog S β} {s s₁ t : σ} {a : α}
    (h : Exec M p s a s₁) (hf : Visits M (f a) s₁ t) : Visits M (p.bind f) s t :=
  hf.imp fun _ run => (h.reach_bind f).trans run

/-- An operation visits what goes on from its answer does. -/
theorem Visits.vis {M : Machine S σ} {op : S.Op} {k : S.Ans op → Prog S α} {s s₁ t : σ}
    {x : S.Ans op} (hm : M s op x s₁) (h : Visits M (k x) s₁ t) : Visits M (.vis op k) s t :=
  h.imp fun _ run => .head (.vis hm) run

/-- A sequence visits what its first part does. -/
theorem Visits.bind {M : Machine S σ} {p : Prog S α} {s t : σ} (h : Visits M p s t)
    (f : α → Prog S β) : Visits M (p.bind f) s t := by
  obtain ⟨q, run⟩ := h
  exact ⟨q.bind f, run.bind f⟩

/-! ## The rule -/

/-- Every run of `p` from `s` performs only operations `ok` admits in the state
it performs them in, and ends only in `Q`.

A busy wait is walked with an invariant of its own choosing: it holds when the
wait is entered and after every answer that does not end it. -/
def Follows (M : Machine S σ) (ok : σ → S.Op → Prop) :
    Prog S α → (α → σ → Prop) → σ → Prop
  | .pure a, Q, s => Q a s
  | .vis op k, Q, s => ok s op ∧ ∀ x s', M s op x s' → Follows M ok (k x) Q s'
  | .poll op ready k, Q, s => ∃ I : σ → Prop, I s ∧ ∀ s, I s → ok s op ∧
      ∀ x s', M s op x s' →
        (ready x = true → Follows M ok (k x) Q s') ∧ (ready x = false → I s')

section Rules

variable {M : Machine S σ} {ok : σ → S.Op → Prop}

@[simp] theorem follows_pure {a : α} {Q : α → σ → Prop} {s : σ} :
    Follows M ok (.pure a) Q s ↔ Q a s := Iff.rfl

@[simp] theorem follows_vis {op : S.Op} {k : S.Ans op → Prog S α}
    {Q : α → σ → Prop} {s : σ} :
    Follows M ok (.vis op k) Q s ↔
      ok s op ∧ ∀ x s', M s op x s' → Follows M ok (k x) Q s' := Iff.rfl

/-- The busy wait's rule, with its invariant named. -/
theorem follows_poll {op : S.Op} {ready : S.Ans op → Bool}
    {k : S.Ans op → Prog S α} {Q : α → σ → Prop} {s : σ} (I : σ → Prop)
    (enter : I s) (ok_op : ∀ s, I s → ok s op)
    (leave : ∀ s x s', I s → M s op x s' → ready x = true → Follows M ok (k x) Q s')
    (stay : ∀ s x s', I s → M s op x s' → ready x = false → I s') :
    Follows M ok (.poll op ready k) Q s :=
  ⟨I, enter, fun s hI => ⟨ok_op s hI, fun x s' hm =>
    ⟨leave s x s' hI hm, stay s x s' hI hm⟩⟩⟩

/-- The sequence's rule: the second part is walked from every end of the
first. -/
theorem follows_bind {p : Prog S α} {f : α → Prog S β} {Q : β → σ → Prop} {s : σ} :
    Follows M ok (p.bind f) Q s ↔
      Follows M ok p (fun a s => Follows M ok (f a) Q s) s := by
  induction p generalizing s with
  | pure a => exact Iff.rfl
  | vis op k ih => simp only [Prog.vis_bind, follows_vis, ih]
  | poll op ready k ih => simp only [Prog.poll_bind, Follows, ih]

/-- A stronger postcondition serves a weaker one. -/
theorem Follows.mono {p : Prog S α} {Q Q' : α → σ → Prop} {s : σ}
    (h : Follows M ok p Q s) (hQ : ∀ a s, Q a s → Q' a s) : Follows M ok p Q' s := by
  induction p generalizing s with
  | pure a => exact hQ a s h
  | vis op k ih => exact ⟨h.1, fun x s' hm => ih x (h.2 x s' hm)⟩
  | poll op ready k ih =>
    obtain ⟨I, hI, hstep⟩ := h
    refine ⟨I, hI, fun s hs => ⟨(hstep s hs).1, fun x s' hm => ?_⟩⟩
    exact ⟨fun hr => ih x (((hstep s hs).2 x s' hm).1 hr), ((hstep s hs).2 x s' hm).2⟩

/-- Two walks of one program are one. -/
theorem Follows.and {p : Prog S α} {Q Q' : α → σ → Prop} {s : σ} (h : Follows M ok p Q s)
    (h' : Follows M (fun _ _ => True) p Q' s) : Follows M ok p (fun a s => Q a s ∧ Q' a s) s := by
  induction p generalizing s with
  | pure a => exact ⟨h, h'⟩
  | vis op k ih => exact ⟨h.1, fun x s' hm => ih x (h.2 x s' hm) (h'.2 x s' hm)⟩
  | poll op ready k ih =>
    obtain ⟨I, hI, hstep⟩ := h
    obtain ⟨J, hJ, hstep'⟩ := h'
    refine follows_poll (fun t => I t ∧ J t) ⟨hI, hJ⟩ (fun t ht => (hstep t ht.1).1) ?_ ?_
    · intro t x t' ht hm hr
      exact ih x (((hstep t ht.1).2 x t' hm).1 hr) (((hstep' t ht.2).2 x t' hm).1 hr)
    · intro t x t' ht hm hr
      exact ⟨((hstep t ht.1).2 x t' hm).2 hr, ((hstep' t ht.2).2 x t' hm).2 hr⟩

/-- The sequence's rule, used forwards: the first part's postcondition is what
the second is walked from. -/
theorem Follows.bind {p : Prog S α} {f : α → Prog S β} {R : α → σ → Prop}
    {Q : β → σ → Prop} {s : σ} (h : Follows M ok p R s)
    (hf : ∀ a s, R a s → Follows M ok (f a) Q s) : Follows M ok (p.bind f) Q s :=
  follows_bind.mpr (h.mono hf)

/-- The operation's rule, where it can leave one state only. -/
theorem follows_to {op : S.Op} {k : S.Ans op → Prog S α} {Q : α → σ → Prop} {s : σ}
    {δ : S.Ans op → σ} (hop : ok s op) (leaves : ∀ x s', M s op x s' → s' = δ x)
    (h : ∀ x, Follows M ok (k x) Q (δ x)) : Follows M ok (.vis op k) Q s := by
  refine ⟨hop, fun x s' hm => ?_⟩
  rw [leaves x s' hm]
  exact h x

/-- The sequence's rule, where the first part can end in one state only. -/
theorem Follows.to {p : Prog S α} {f : α → Prog S β} {Q : β → σ → Prop} {s t : σ}
    (h : Follows M ok p (fun _ s' => s' = t) s) (hf : ∀ a, Follows M ok (f a) Q t) :
    Follows M ok (p.bind f) Q s := by
  apply h.bind
  intro a s' heq
  rw [heq]
  exact hf a

/-- One step keeps what the walk established. -/
theorem Follows.step {p p' : Prog S α} {Q : α → σ → Prop} {s s' : σ}
    (h : Follows M ok p Q s) (hs : Step M (p, s) (p', s')) : Follows M ok p' Q s' := by
  cases hs with
  | vis hm => exact h.2 _ _ hm
  | hit hm hr =>
    obtain ⟨I, hI, hstep⟩ := h
    exact ((hstep _ hI).2 _ _ hm).1 hr
  | miss hm hr =>
    obtain ⟨I, hI, hstep⟩ := h
    exact ⟨I, ((hstep _ hI).2 _ _ hm).2 hr, hstep⟩

/-- And so does every run. -/
theorem Follows.reach {p p' : Prog S α} {Q : α → σ → Prop} {s s' : σ}
    (h : Follows M ok p Q s) (hr : Reach M (p, s) (p', s')) :
    Follows M ok p' Q s' := by
  suffices ∀ c : Prog S α × σ, Reach M (p, s) c → Follows M ok c.1 Q c.2 from this _ hr
  intro c hc
  induction hc with
  | refl => exact h
  | tail _ hs ih => exact Follows.step ih hs

/-- What every operation keeps, every program keeps. -/
theorem follows_inv {M : Machine S σ} {I : σ → Prop}
    (keeps : ∀ {s op x s'}, I s → M s op x s' → I s') (p : Prog S α) {s : σ} (start : I s) :
    Follows M (fun _ _ => True) p (fun _ => I) s := by
  induction p generalizing s with
  | pure a => exact start
  | vis op k ih => exact ⟨trivial, fun x s' hm => ih x (keeps start hm)⟩
  | poll op ready k ih =>
    exact follows_poll I start (fun _ _ => trivial) (fun _ x _ hs hm _ => ih x (keeps hs hm))
      fun _ _ _ hs hm _ => keeps hs hm

/-- A walk that asks nothing is any program's. -/
theorem follows_true {M : Machine S σ} (p : Prog S α) (s : σ) :
    Follows M (fun _ _ => True) p (fun _ _ => True) s :=
  follows_inv (fun _ _ => trivial) p trivial

/-- A complete run ends in the postcondition. -/
theorem Follows.exec {p : Prog S α} {Q : α → σ → Prop} {s s' : σ} {a : α}
    (h : Follows M ok p Q s) (he : Exec M p s a s') : Q a s' :=
  follows_pure.mp (h.reach he.reach)

/-- The operation a run is about to perform is one `ok` admits. -/
theorem Follows.ok_vis {op : S.Op} {k : S.Ans op → Prog S α} {Q : α → σ → Prop}
    {s : σ} (h : Follows M ok (.vis op k) Q s) : ok s op := h.1

/-- So is the one of every step. -/
theorem Follows.ok_step {p p' : Prog S α} {Q : α → σ → Prop} {s s' : σ} (h : Follows M ok p Q s)
    (step : Step M (p, s) (p', s')) : ∃ op x, ok s op ∧ M s op x s' := by
  cases step with
  | vis hm => exact ⟨_, _, h.1, hm⟩
  | hit hm _ =>
    obtain ⟨I, hI, hstep⟩ := h
    exact ⟨_, _, (hstep s hI).1, hm⟩
  | miss hm _ =>
    obtain ⟨I, hI, hstep⟩ := h
    exact ⟨_, _, (hstep s hI).1, hm⟩

end Rules

/-! ## Machines that answer anything -/

/-- The machine that admits every answer and keeps a record: `δ s op a` is the
record after `op` was answered `a`. What a program does on it, it does against
every device. -/
def Recorder (δ : σ → (op : S.Op) → S.Ans op → σ) : Machine S σ :=
  fun s op a s' => s' = δ s op a

/-- The machine that admits every answer and keeps no record. -/
def Anything : Machine S Unit := Recorder fun _ _ _ => ()

end ToyBootloader.Resumption
