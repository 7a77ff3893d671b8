import Mathlib

/-! Threads that share a state. In every step one of them runs, on what is shared and on what is its
own; which one it is, is left open. -/
namespace Interleaving

@[ext]
structure State (ι σ τ : Type*) where
  shared : σ
  own : ι → τ

variable {ι σ τ : Type*} [DecidableEq ι]

/-- A thread runs: what its step makes of the shared state and of its own. -/
inductive Step (step : ι → σ → τ → σ → τ → Prop) : State ι σ τ → State ι σ τ → Prop
  | run (i : ι) (shared shared' : σ) (own : ι → τ) (next : τ) :
    step i shared (own i) shared' next → Step step ⟨shared,own⟩ ⟨shared',Function.update own i next⟩

def Reaches (step : ι → σ → τ → σ → τ → Prop) : State ι σ τ → State ι σ τ → Prop :=
  Relation.ReflTransGen (Step step)

/-- What holds of the shared state, and of it and the own state of each thread: a step keeps it for the
thread that runs, and does not interfere with what holds of another thread. -/
structure Outlined (step : ι → σ → τ → σ → τ → Prop) (always : σ → Prop) (holds : ι → σ → τ → Prop) :
    Prop where
  keeps : ∀ i s t s' t', always s → holds i s t → step i s t s' t' → always s' ∧ holds i s' t'
  spares : ∀ i j s t s' t' u, i ≠ j → always s → holds i s t → holds j s u → step i s t s' t' →
    holds j s' u

variable {moves : ι → σ → τ → σ → τ → Prop} {always : σ → Prop} {holds : ι → σ → τ → Prop}

theorem Outlined.step (outlined : Outlined moves always holds) {s s' : State ι σ τ}
    (ran : Step moves s s') (before : always s.shared ∧ ∀ i, holds i s.shared (s.own i)) :
    always s'.shared ∧ ∀ i, holds i s'.shared (s'.own i) := by
  cases ran with
  | run i shared shared' own next moved =>
    obtain ⟨global,each⟩ := before
    obtain ⟨after,mine⟩ := outlined.keeps i _ _ _ _ global (each i) moved
    refine ⟨after,fun j => ?_⟩
    by_cases same : j = i
    · subst same
      simpa using mine
    · simpa [Function.update_of_ne same] using
        outlined.spares i j _ _ _ _ _ (Ne.symm same) global (each i) (each j) moved

/-- What an outline says holds whichever threads run, and in whatever order. -/
theorem Outlined.reaches (outlined : Outlined moves always holds) {s s' : State ι σ τ}
    (reached : Reaches moves s s') (start : always s.shared ∧ ∀ i, holds i s.shared (s.own i)) :
    always s'.shared ∧ ∀ i, holds i s'.shared (s'.own i) := by
  induction reached with
  | refl => exact start
  | tail _ ran before => exact outlined.step ran before

end Interleaving
