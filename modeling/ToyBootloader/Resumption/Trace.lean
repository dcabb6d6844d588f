import ToyBootloader.Resumption.Only

/-!
# What a program emits

Give every operation the events it stands for, and a run has a trace: the events
of its operations, in order. `Emits ev p R` says of EVERY run of `p`, on every
machine, that ending with `a` it has added a trace `u` with `R a u`. It is a walk
on the machine that answers anything and keeps the trace, and it composes the way
traces do: a sequence adds what its parts add (`Emits.bind`), and code without
events adds nothing (`Emits.after`).
-/

namespace ToyBootloader.Resumption

variable {S : Sig} {E α β : Type}

/-- The machine that admits every answer and keeps the trace. -/
def Traced (ev : S.Op → List E) : Machine S (List E) := Recorder fun t op _ => t ++ ev op

/-- However `p` ends, with `a`, it has added a trace `u` with `R a u`. -/
def Emits (ev : S.Op → List E) (p : Prog S α) (R : α → List E → Prop) : Prop :=
  ∀ t, Follows (Traced ev) (fun _ _ => True) p (fun a t' => ∃ u, R a u ∧ t' = t ++ u) t

section Emits

variable {ev : S.Op → List E} {p : Prog S α} {R : α → List E → Prop}

/-- What a complete run has emitted. -/
theorem Emits.exec (h : Emits ev p R) {a : α} {t : List E} (run : Exec (Traced ev) p [] a t) :
    R a t := by
  obtain ⟨u, hu, rfl⟩ := (h []).exec run
  exact hu

theorem emits_pure {a : α} (h : R a []) : Emits ev (.pure a) R :=
  fun t => ⟨[], h, (List.append_nil t).symm⟩

theorem Emits.mono {R' : α → List E → Prop} (h : Emits ev p R) (hR : ∀ a u, R a u → R' a u) :
    Emits ev p R' :=
  fun t => (h t).mono fun a _ ⟨u, hu, heq⟩ => ⟨u, hR a u hu, heq⟩

/-- A sequence adds what its parts add, in order. -/
theorem Emits.bind {f : α → Prog S β} {Q : β → List E → Prop} (hp : Emits ev p R)
    (hf : ∀ a u, R a u → Emits ev (f a) fun b w => Q b (u ++ w)) : Emits ev (p.bind f) Q := by
  intro t
  apply (hp t).bind
  rintro a _ ⟨u, hu, rfl⟩
  apply (hf a u hu (t ++ u)).mono
  rintro b _ ⟨w, hw, rfl⟩
  exact ⟨u ++ w, hw, List.append_assoc t u w⟩

/-- An operation adds its events. -/
theorem emits_vis {op : S.Op} {k : S.Ans op → Prog S α}
    (h : ∀ x, Emits ev (k x) fun a w => R a (ev op ++ w)) : Emits ev (.vis op k) R := by
  intro t
  apply follows_to trivial fun _ _ hm => hm
  intro x
  apply (h x (t ++ ev op)).mono
  rintro a _ ⟨w, hw, rfl⟩
  exact ⟨ev op ++ w, hw, List.append_assoc t _ w⟩

/-- Code whose operations have no events adds nothing. -/
theorem emits_nothing (h : Only (fun op => ev op = []) p) : Emits ev p fun _ u => u = [] := by
  intro t
  have kept : Follows (Traced ev) (fun _ _ => True) p (fun _ t' => t' = t) t := by
    refine Only.follows (I := (· = t)) h (fun _ _ _ _ => trivial) ?_ rfl
    rintro s op x s' hop rfl rfl
    exact (congrArg (s ++ ·) hop).trans (List.append_nil s)
  exact kept.mono fun _ _ heq => ⟨[], rfl, heq.trans (List.append_nil t).symm⟩

/-- Such code in front changes nothing. -/
theorem Emits.after {f : α → Prog S β} {Q : β → List E → Prop}
    (hp : Only (fun op => ev op = []) p) (hf : ∀ a, Emits ev (f a) Q) : Emits ev (p.bind f) Q := by
  apply (emits_nothing hp).bind
  rintro a _ rfl
  exact hf a

/-- A busy wait for an operation without events is as good as one of it. -/
theorem emits_poll {op : S.Op} {ready : S.Ans op → Bool} {k : S.Ans op → Prog S α}
    (quiet : ev op = []) (h : ∀ x, Emits ev (k x) R) : Emits ev (.poll op ready k) R := by
  intro t
  have same : ∀ s x s', s = t → Traced ev s op x s' → s' = t := by
    rintro s x s' rfl rfl
    exact (congrArg (s ++ ·) quiet).trans (List.append_nil s)
  refine follows_poll (· = t) rfl (fun _ _ => trivial) ?_ ?_
  · intro s x s' hs hm _
    rw [same s x s' hs hm]
    exact h x t
  · intro s x s' hs hm _
    exact same s x s' hs hm

end Emits

end ToyBootloader.Resumption
