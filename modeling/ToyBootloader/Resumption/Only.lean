import ToyBootloader.Resumption.Exec

/-!
# What a program may perform

`Only K p` says that every operation in the tree of `p` is one of `K`. It is a
fact about the tree and not about any machine, so it is proved once for a
program and read against every machine: what the operations of `K` keep, the
program keeps (`Only.follows`).

It is weaker than a walk, which may admit an operation in one state and not in
another. Most of a driver needs no more.
-/

namespace ToyBootloader.Resumption

variable {S : Sig} {σ τ α β : Type} {K K' : S.Op → Prop}

/-- Every operation of `p` is one of `K`. -/
def Only (K : S.Op → Prop) : Prog S α → Prop
  | .pure _ => True
  | .vis op k => K op ∧ ∀ x, Only K (k x)
  | .poll op _ k => K op ∧ ∀ x, Only K (k x)

@[simp] theorem only_pure {a : α} : Only K (.pure a) ↔ True := Iff.rfl

@[simp] theorem only_vis {op : S.Op} {k : S.Ans op → Prog S α} :
    Only K (.vis op k) ↔ K op ∧ ∀ x, Only K (k x) := Iff.rfl

@[simp] theorem only_poll {op : S.Op} {ready : S.Ans op → Bool} {k : S.Ans op → Prog S α} :
    Only K (.poll op ready k) ↔ K op ∧ ∀ x, Only K (k x) := Iff.rfl

/-- A sequence performs what its parts perform. -/
theorem Only.bind {p : Prog S α} {f : α → Prog S β} (hp : Only K p)
    (hf : ∀ a, Only K (f a)) : Only K (p.bind f) := by
  induction p with
  | pure a => exact hf a
  | vis op k ih => exact ⟨hp.1, fun x => ih x (hp.2 x)⟩
  | poll op ready k ih => exact ⟨hp.1, fun x => ih x (hp.2 x)⟩

theorem Only.mono {p : Prog S α} (h : Only K p) (hK : ∀ op, K op → K' op) : Only K' p := by
  induction p with
  | pure a => trivial
  | vis op k ih => exact ⟨hK op h.1, fun x => ih x (h.2 x)⟩
  | poll op ready k ih => exact ⟨hK op h.1, fun x => ih x (h.2 x)⟩

/-- What every operation of `K` keeps, a program of such operations keeps. -/
theorem Only.follows {M : Machine S σ} {ok : σ → S.Op → Prop} {I : σ → Prop}
    {p : Prog S α} (h : Only K p) (admits : ∀ s op, K op → I s → ok s op)
    (keeps : ∀ s op x s', K op → I s → M s op x s' → I s') {s : σ} (start : I s) :
    Follows M ok p (fun _ => I) s := by
  induction p generalizing s with
  | pure a => exact start
  | vis op k ih =>
    exact ⟨admits s op h.1 start, fun x s' hm => ih x (h.2 x) (keeps s op x s' h.1 start hm)⟩
  | poll op ready k ih =>
    refine follows_poll I start (fun s hs => admits s op h.1 hs) ?_ ?_
    · exact fun s x s' hs hm _ => ih x (h.2 x) (keeps s op x s' h.1 hs hm)
    · exact fun s x s' hs hm _ => keeps s op x s' h.1 hs hm

/-- A run of such operations seen through a map of states that keeps what they answer. -/
theorem Only.image {M : Machine S σ} {N : Machine S τ} {f : σ → τ}
    (seen : ∀ {s op x s'}, K op → M s op x s' → N (f s) op x (f s')) {p : Prog S α} (only : Only K p)
    {s s' : σ} {a : α} (run : Exec M p s a s') : Exec N p (f s) a (f s') := by
  induction run with
  | pure => exact .pure
  | vis hm _ ih => exact .vis (seen only.1 hm) (ih (only.2 _))
  | hit hm hr _ ih => exact .hit (seen only.1 hm) hr (ih (only.2 _))
  | miss hm hr _ ih => exact .miss (seen only.1 hm) hr (ih only)

/-- Machines that answer the operations of `K` alike run such a program alike. -/
theorem Only.exec_congr {M N : Machine S σ} (alike : ∀ {s op x s'}, K op → (M s op x s' ↔ N s op x s'))
    {p : Prog S α} (only : Only K p) {s s' : σ} {a : α} : Exec M p s a s' ↔ Exec N p s a s' :=
  ⟨only.image (f := id) fun hop hm => (alike hop).mp hm,
    only.image (f := id) fun hop hm => (alike hop).mpr hm⟩

/-- A walk needs no more than what the operations admit and where the complete runs
end: a busy wait is in a state from which every run ends there. -/
theorem Only.follows_exec {M : Machine S σ} {ok : σ → S.Op → Prop} {Q : α → σ → Prop}
    {p : Prog S α} (h : Only K p) (admits : ∀ s op, K op → ok s op) {s : σ}
    (ends : ∀ a s', Exec M p s a s' → Q a s') : Follows M ok p Q s := by
  induction p generalizing s with
  | pure a => exact ends a s .pure
  | vis op k ih =>
    refine ⟨admits s op h.1, fun x s' hm => ih x (h.2 x) ?_⟩
    intro a t run
    exact ends a t (.vis hm run)
  | poll op ready k ih =>
    refine follows_poll (fun t => ∀ a s', Exec M (.poll op ready k) t a s' → Q a s') ends
      (fun t _ => admits t op h.1) ?_ ?_
    · intro t x t' ht hm hr
      refine ih x (h.2 x) ?_
      intro a s' run
      exact ht a s' (.hit hm hr run)
    · intro t x t' ht hm hr a s' run
      exact ht a s' (.miss hm hr run)

/-- A step performs one of `K`, and what is left does. -/
theorem Only.step {M : Machine S σ} {p p' : Prog S α} {s s' : σ} (h : Only K p)
    (step : Step M (p, s) (p', s')) : Only K p' ∧ ∃ op x, K op ∧ M s op x s' := by
  cases step with
  | vis hm => exact ⟨h.2 _, _, _, h.1, hm⟩
  | hit hm _ => exact ⟨h.2 _, _, _, h.1, hm⟩
  | miss hm _ => exact ⟨h, _, _, h.1, hm⟩

/-- The operation a run has come to is one of `K`. -/
theorem Only.reach {M : Machine S σ} {p : Prog S α} (h : Only K p) {s s' : σ} {op : S.Op}
    {k : S.Ans op → Prog S α} (run : Reach M (p, s) (.vis op k, s')) : K op :=
  have walk : Follows M (fun _ => K) p (fun _ _ => True) s :=
    h.follows (fun _ _ hK _ => hK) (fun _ _ _ _ _ _ _ => trivial) trivial
  (walk.reach run).ok_vis

/-- A run that has come to an operation not of `K` has been through all of a first part
that performs only those. -/
theorem Only.passes {M : Machine S σ} {p : Prog S α} {f : α → Prog S β} (only : Only K p)
    {s s' : σ} {op : S.Op} {k : S.Ans op → Prog S β} (other : ¬ K op)
    (run : Reach M (p.bind f, s) (.vis op k, s')) :
    ∃ a s₁, Exec M p s a s₁ ∧ Reach M (f a, s₁) (.vis op k, s') := by
  generalize start : (p.bind f, s) = c at run
  induction run using Relation.ReflTransGen.head_induction_on generalizing p s with
  | refl =>
    cases p with
    | pure a =>
      rw [← start]
      exact ⟨a, s, .pure, .refl⟩
    | vis op' k' =>
      cases start
      exact absurd only.1 other
    | poll op' ready k' => cases start
  | head step rest ih =>
    cases p with
    | pure a =>
      rw [← start] at step
      exact ⟨a, s, .pure, .head step rest⟩
    | vis op' k' =>
      cases start
      cases step with
      | vis hm =>
        obtain ⟨a, s₁, first, second⟩ := ih (only.2 _) rfl
        exact ⟨a, s₁, .vis hm first, second⟩
    | poll op' ready k' =>
      cases start
      cases step with
      | hit hm hr =>
        obtain ⟨a, s₁, first, second⟩ := ih (only.2 _) rfl
        exact ⟨a, s₁, .hit hm hr first, second⟩
      | miss hm hr =>
        obtain ⟨a, s₁, first, second⟩ := ih (p := .poll op' ready k') only rfl
        exact ⟨a, s₁, .miss hm hr first, second⟩

/-- Walks transfer along a simulation: where the operations of `K` on `M` are
simulated on `N`, a walk against `N` is one against `M`. -/
theorem Only.simulate {M : Machine S σ} {N : Machine S τ} {ok : σ → S.Op → Prop}
    {okN : τ → S.Op → Prop} {R : σ → τ → Prop}
    (sim : ∀ {s t op x s'}, R s t → K op → M s op x s' → ∃ t', N t op x t' ∧ R s' t')
    (admits : ∀ {s t op}, R s t → K op → okN t op → ok s op) {p : Prog S α}
    {Q : α → τ → Prop} {s : σ} {t : τ} (h : Only K p) (start : R s t)
    (walk : Follows N okN p Q t) : Follows M ok p (fun a s => ∃ t, R s t ∧ Q a t) s := by
  induction p generalizing s t with
  | pure a => exact ⟨t, start, walk⟩
  | vis op k ih =>
    refine ⟨admits start h.1 walk.1, fun x s' hm => ?_⟩
    obtain ⟨t', hn, hR⟩ := sim start h.1 hm
    exact ih x (h.2 x) hR (walk.2 x t' hn)
  | poll op ready k ih =>
    obtain ⟨I, hI, hstep⟩ := walk
    refine ⟨fun s => ∃ t, R s t ∧ I t, ⟨t, start, hI⟩, ?_⟩
    rintro s ⟨t, hR, hI⟩
    refine ⟨admits hR h.1 (hstep t hI).1, fun x s' hm => ?_⟩
    obtain ⟨t', hn, hR'⟩ := sim hR h.1 hm
    have hnext := (hstep t hI).2 x t' hn
    exact ⟨fun hr => ih x (h.2 x) hR' (hnext.1 hr), fun hr => ⟨t', hR', hnext.2 hr⟩⟩

/-! ## Programs that end -/

/-- With answers in `A`, every operation of `p` is one of `K`, every wait is over
at once, and `p` ends in `Q`. -/
def Ends (K : S.Op → Prop) (A : (op : S.Op) → S.Ans op → Prop) : Prog S α → (α → Prop) → Prop
  | .pure a, Q => Q a
  | .vis op k, Q => K op ∧ ∀ x, A op x → Ends K A (k x) Q
  | .poll op ready k, Q => K op ∧ ∀ x, A op x → ready x = true ∧ Ends K A (k x) Q

variable {A : (op : S.Op) → S.Ans op → Prop}

theorem Ends.bind {p : Prog S α} {f : α → Prog S β} {R : α → Prop} {Q : β → Prop}
    (hp : Ends K A p R) (hf : ∀ a, R a → Ends K A (f a) Q) : Ends K A (p.bind f) Q := by
  induction p with
  | pure a => exact hf a hp
  | vis op k ih => exact ⟨hp.1, fun x hx => ih x (hp.2 x hx)⟩
  | poll op ready k ih => exact ⟨hp.1, fun x hx => ⟨(hp.2 x hx).1, ih x (hp.2 x hx).2⟩⟩

/-- Such a program ends, on a machine that answers the operations of `K` in `A`
and keeps `I` meanwhile. -/
theorem Ends.exists_exec {M : Machine S σ} {I : σ → Prop}
    (answers : ∀ s op, I s → K op → ∃ x s', M s op x s' ∧ A op x ∧ I s')
    {p : Prog S α} {Q : α → Prop} (hp : Ends K A p Q) {s : σ} (hs : I s) :
    ∃ a s', Exec M p s a s' ∧ Q a ∧ I s' := by
  induction p generalizing s with
  | pure a => exact ⟨a, s, .pure, hp, hs⟩
  | vis op k ih =>
    obtain ⟨x, s₁, hm, hx, hs₁⟩ := answers s op hs hp.1
    obtain ⟨a, s', run, hQ, hs'⟩ := ih x (hp.2 x hx) hs₁
    exact ⟨a, s', .vis hm run, hQ, hs'⟩
  | poll op ready k ih =>
    obtain ⟨x, s₁, hm, hx, hs₁⟩ := answers s op hs hp.1
    obtain ⟨hready, hk⟩ := hp.2 x hx
    obtain ⟨a, s', run, hQ, hs'⟩ := ih x hk hs₁
    exact ⟨a, s', .hit hm hready run, hQ, hs'⟩

/-- Every operation of `p` is one of `K`, and none is waited for. -/
def Straight (K : S.Op → Prop) : Prog S α → Prop
  | .pure _ => True
  | .vis op k => K op ∧ ∀ x, Straight K (k x)
  | .poll _ _ _ => False

@[simp] theorem straight_pure {a : α} : Straight K (.pure a : Prog S α) ↔ True := Iff.rfl

@[simp] theorem straight_vis {op : S.Op} {k : S.Ans op → Prog S α} :
    Straight K (.vis op k) ↔ K op ∧ ∀ x, Straight K (k x) := Iff.rfl

theorem Straight.bind {p : Prog S α} {f : α → Prog S β} (hp : Straight K p)
    (hf : ∀ a, Straight K (f a)) : Straight K (p.bind f) := by
  induction p with
  | pure a => exact hf a
  | vis op k ih => exact ⟨hp.1, fun x => ih x (hp.2 x)⟩
  | poll op ready k ih => exact hp.elim

theorem Straight.only {p : Prog S α} (hp : Straight K p) : Only K p := by
  induction p with
  | pure a => trivial
  | vis op k ih => exact ⟨hp.1, fun x => ih x (hp.2 x)⟩
  | poll op ready k ih => exact hp.elim

/-- A program without a busy wait ends, whatever it is answered. -/
theorem Straight.ends {p : Prog S α} (hp : Straight K p) (hK : ∀ op, K op → K' op) :
    Ends K' A p fun _ => True := by
  induction p with
  | pure a => trivial
  | vis op k ih => exact ⟨hK op hp.1, fun x _ => ih x (hp.2 x)⟩
  | poll op ready k ih => exact hp.elim

theorem Straight.exists_exec {M : Machine S σ} (answers : ∀ s op, K op → ∃ x s', M s op x s')
    {p : Prog S α} (hp : Straight K p) (s : σ) : ∃ a s', Exec M p s a s' := by
  have ends : Ends K (fun _ _ => True) p fun _ => True := hp.ends fun _ => id
  have total : ∀ s op, True → K op → ∃ x s', M s op x s' ∧ True ∧ True := by
    intro s op _ hK
    obtain ⟨x, s', hm⟩ := answers s op hK
    exact ⟨x, s', hm, trivial, trivial⟩
  obtain ⟨a, s', run, -⟩ := ends.exists_exec total (s := s) trivial
  exact ⟨a, s', run⟩

end ToyBootloader.Resumption
