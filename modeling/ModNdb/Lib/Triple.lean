import ModNdb.Lib.Prog

/-! Triples for programs that return a value or stop early: what holds of the state that is left,
in either case. -/
namespace Prog
variable {ε σ α β : Type}

/-- From a state with `P` the program returns with `Q`, or stops with `J`. -/
structure Triple (P : σ → Prop) (x : Prog ε σ α) (Q : α → σ → Prop) (J : σ → Prop) : Prop where
  returns : ∀ s a t, P s → x s = (.ok a,t) → Q a t
  stops : ∀ s why t, P s → x s = (.error why,t) → J t

section
variable {P : σ → Prop} {Q : α → σ → Prop} {J : σ → Prop}

theorem Triple.pure (a : α) (holds : ∀ s, P s → Q a s) : Triple P (pure a : Prog ε σ α) Q J where
  returns s b t before ran := by
    cases ran
    exact holds s before
  stops s why t _ ran := by cases ran

theorem Triple.fail (why : ε) (holds : ∀ s, P s → J s) : Triple P (fail why : Prog ε σ α) Q J where
  returns s b t _ ran := by cases ran
  stops s why t before ran := by
    cases ran
    exact holds s before

theorem Triple.modify {Q : Unit → σ → Prop} (f : σ → σ) (holds : ∀ s, P s → Q () (f s)) :
    Triple P (modify f : Prog ε σ Unit) Q J where
  returns s b t before ran := by
    cases ran
    exact holds s before
  stops s why t _ ran := by cases ran

/-- What follows a program may rest on the run of it. -/
theorem Triple.bindRan {x : Prog ε σ α} {f : α → Prog ε σ β} {R : β → σ → Prop} (first : Triple P x Q J)
    (rest : ∀ s a t, P s → x s = (.ok a,t) → Q a t → Triple (· = t) (f a) R J) :
    Triple P (x >>= f) R J where
  returns s b t before ran := by
    obtain ⟨a,middle,ran,ran'⟩ := bind_inv ran
    exact (rest s a middle before ran (first.returns s a middle before ran)).returns middle b t rfl ran'
  stops s why t before ran := by
    rcases here : x s with ⟨outcome,middle⟩
    cases outcome with
    | error other =>
      rw [bind_error f here] at ran
      cases ran
      exact first.stops s why t before here
    | ok a =>
      rw [bind_ok f here] at ran
      exact (rest s a middle before here (first.returns s a middle before here)).stops middle why t rfl ran

theorem Triple.mono {P' : σ → Prop} {Q' : α → σ → Prop} {J' : σ → Prop} {x : Prog ε σ α}
    (triple : Triple P x Q J) (stronger : ∀ s, P' s → P s) (weaker : ∀ a s, Q a s → Q' a s)
    (stopped : ∀ s, J s → J' s) : Triple P' x Q' J' where
  returns s a t before ran := weaker a t (triple.returns s a t (stronger s before) ran)
  stops s why t before ran := stopped t (triple.stops s why t (stronger s before) ran)

theorem Triple.bind {x : Prog ε σ α} {f : α → Prog ε σ β} {R : β → σ → Prop} (first : Triple P x Q J)
    (rest : ∀ a, Triple (Q a) (f a) R J) : Triple P (x >>= f) R J :=
  first.bindRan fun _ a _ _ _ reached => (rest a).mono (fun _ same => same ▸ reached)
    (fun _ _ => id) fun _ => id

theorem Triple.given {ι : Sort*} {P : ι → σ → Prop} {x : Prog ε σ α}
    (each : ∀ i, Triple (P i) x Q J) : Triple (fun s => ∃ i, P i s) x Q J where
  returns s a t before ran := by
    obtain ⟨i,before⟩ := before
    exact (each i).returns s a t before ran
  stops s why t before ran := by
    obtain ⟨i,before⟩ := before
    exact (each i).stops s why t before ran

theorem Triple.fact {c : Prop} {x : Prog ε σ α} (triple : c → Triple P x Q J) :
    Triple (fun s => c ∧ P s) x Q J where
  returns s a t before ran := (triple before.1).returns s a t before.2 ran
  stops s why t before ran := (triple before.1).stops s why t before.2 ran

theorem Triple.ite {c : Prop} [Decidable c] {x y : Prog ε σ α} (yes : c → Triple P x Q J)
    (no : ¬c → Triple P y Q J) : Triple P (if c then x else y) Q J := by
  by_cases holds : c
  · rw [if_pos holds]; exact yes holds
  · rw [if_neg holds]; exact no holds

/-- A program that only makes steps of a kind keeps what such steps keep. -/
theorem Steps.triple {R : σ → σ → Prop} {x : Prog ε σ α} (steps : Steps R x)
    (kept : ∀ s t, R s t → P s → P t) : Triple P x (fun _ => P) P where
  returns s a t before ran := by
    have step := (steps s).1
    rw [ran] at step
    exact kept s t step before
  stops s why t before ran := by
    have step := (steps s).1
    rw [ran] at step
    exact kept s t step before

end

end Prog
