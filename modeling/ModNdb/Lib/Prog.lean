import Mathlib

/-! Programs over a state that return a value or stop early. The state reached is
kept in both cases, so that what a stopped program has already done can be stated. -/

def Prog (ε σ α : Type) := σ → Except ε α × σ

namespace Prog
variable {ε σ α β : Type}

def fail (why : ε) : Prog ε σ α := fun s => (.error why,s)

def get : Prog ε σ σ := fun s => (.ok s,s)

def modify (f : σ → σ) : Prog ε σ Unit := fun s => (.ok (),f s)

instance : Monad (Prog ε σ) where
  pure a := fun s => (.ok a,s)
  bind x f := fun s => match x s with
    | (.ok a,next) => f a next
    | (.error why,next) => (.error why,next)

@[simp] theorem pure_run (a : α) (s : σ) : (pure a : Prog ε σ α) s = (.ok a,s) := rfl

@[simp] theorem fail_run (why : ε) (s : σ) : (fail why : Prog ε σ α) s = (.error why,s) := rfl

@[simp] theorem get_run (s : σ) : (get : Prog ε σ σ) s = (.ok s,s) := rfl

@[simp] theorem modify_run (f : σ → σ) (s : σ) : (modify f : Prog ε σ Unit) s = (.ok (),f s) := rfl

theorem bind_run (x : Prog ε σ α) (f : α → Prog ε σ β) (s : σ) :
    (x >>= f) s = match x s with
      | (.ok a,next) => f a next
      | (.error why,next) => (.error why,next) := rfl

theorem bind_ok {x : Prog ε σ α} {s next : σ} {a : α} (f : α → Prog ε σ β)
    (ran : x s = (.ok a,next)) : (x >>= f) s = f a next := by
  rw [bind_run,ran]

theorem bind_error {x : Prog ε σ α} {s next : σ} {why : ε} (f : α → Prog ε σ β)
    (ran : x s = (.error why,next)) : (x >>= f) s = (.error why,next) := by
  rw [bind_run,ran]

theorem bind_assoc {γ : Type} (x : Prog ε σ α) (f : α → Prog ε σ β) (g : β → Prog ε σ γ) :
    (x >>= f) >>= g = x >>= fun a => f a >>= g := by
  funext s
  rw [bind_run,bind_run,bind_run]
  rcases x s with ⟨outcome,next⟩
  cases outcome <;> rfl

/-- A run that returns `a`, in a state of which `after` holds. -/
def Returns (x : Prog ε σ α) (s : σ) (a : α) (after : σ → Prop) : Prop :=
  ∃ next, x s = (.ok a,next) ∧ after next

/-- A run that stops, in a state of which `after` holds. -/
def Fails (x : Prog ε σ α) (s : σ) (after : σ → Prop) : Prop :=
  ∃ why next, x s = (.error why,next) ∧ after next

theorem Returns.pure (a : α) (s : σ) (after : σ → Prop) (holds : after s) :
    Returns (pure a : Prog ε σ α) s a after := ⟨s,rfl,holds⟩

theorem Returns.bind {x : Prog ε σ α} {f : α → Prog ε σ β} {s : σ} {a : α} {b : β}
    {middle after : σ → Prop} (first : Returns x s a middle)
    (rest : ∀ next, middle next → Returns (f a) next b after) : Returns (x >>= f) s b after := by
  obtain ⟨next,ran,holds⟩ := first
  obtain ⟨last,ran',holds'⟩ := rest next holds
  exact ⟨last,by rw [bind_ok f ran,ran'],holds'⟩

theorem Returns.bindFails {x : Prog ε σ α} {f : α → Prog ε σ β} {s : σ} {a : α}
    {middle after : σ → Prop} (first : Returns x s a middle)
    (rest : ∀ next, middle next → Fails (f a) next after) : Fails (x >>= f) s after := by
  obtain ⟨next,ran,holds⟩ := first
  obtain ⟨why,last,ran',same⟩ := rest next holds
  exact ⟨why,last,by rw [bind_ok f ran,ran'],same⟩

theorem Fails.bind {x : Prog ε σ α} (f : α → Prog ε σ β) {s : σ} {after : σ → Prop}
    (first : Fails x s after) : Fails (x >>= f) s after := by
  obtain ⟨why,next,ran,holds⟩ := first
  exact ⟨why,next,bind_error f ran,holds⟩

/-- A program that returns went through a value of its first part. -/
theorem bind_inv {x : Prog ε σ α} {f : α → Prog ε σ β} {s next : σ} {b : β}
    (ran : (x >>= f) s = (.ok b,next)) :
    ∃ a middle, x s = (.ok a,middle) ∧ f a middle = (.ok b,next) := by
  rcases first : x s with ⟨outcome,middle⟩
  rw [bind_run,first] at ran
  cases outcome with
  | error why => cases (Prod.mk.inj ran).1
  | ok a => exact ⟨a,middle,rfl,ran⟩

/-- An invariant of every state the program can end in, returned or stopped. -/
def Keeps (I : σ → Prop) (x : Prog ε σ α) : Prop := ∀ s, I s → I (x s).2

section
variable {I : σ → Prop}

theorem Keeps.pure (a : α) : Keeps I (pure a : Prog ε σ α) := fun _ holds => holds

theorem Keeps.fail (why : ε) : Keeps I (fail why : Prog ε σ α) := fun _ holds => holds

theorem Keeps.modify (f : σ → σ) (step : ∀ s, I s → I (f s)) :
    Keeps I (modify f : Prog ε σ Unit) := step

theorem bind_keeps {x : Prog ε σ α} {f : α → Prog ε σ β} {s : σ} (first : I (x s).2)
    (rest : ∀ a, Keeps I (f a)) : I ((x >>= f) s).2 := by
  rcases ran : x s with ⟨outcome,middle⟩
  rw [ran] at first
  cases outcome with
  | error why => rwa [bind_error f ran]
  | ok a =>
    rw [bind_ok f ran]
    exact rest a middle first

theorem Keeps.bind {x : Prog ε σ α} {f : α → Prog ε σ β} (first : Keeps I x)
    (rest : ∀ a, Keeps I (f a)) : Keeps I (x >>= f) :=
  fun s holds => bind_keeps (first s holds) rest

theorem Keeps.get {f : σ → Prog ε σ β} (rest : ∀ s, Keeps I (f s)) :
    Keeps I ((Prog.get : Prog ε σ σ) >>= f) := fun s holds => rest s s holds

theorem Keeps.ite {c : Prop} [Decidable c] {x y : Prog ε σ α} (yes : c → Keeps I x)
    (no : ¬c → Keeps I y) : Keeps I (if c then x else y) := by
  by_cases holds : c
  · rw [if_pos holds]; exact yes holds
  · rw [if_neg holds]; exact no holds

theorem Keeps.forM {l : List α} {f : α → Prog ε σ PUnit} (each : ∀ a ∈ l, Keeps I (f a)) :
    Keeps I (l.forM f) := by
  induction l with
  | nil => exact Keeps.pure _
  | cons a l ih =>
    exact (each a List.mem_cons_self).bind fun _ =>
      ih fun b inside => each b (List.mem_cons_of_mem a inside)

end

/-- The program returns from every state, and does not increase the measure. -/
def Finishes (μ : σ → Nat) (x : Prog ε σ α) : Prop :=
  ∀ s, ∃ a next, x s = (.ok a,next) ∧ μ next ≤ μ s

section
variable {μ : σ → Nat}

theorem Finishes.pure (a : α) : Finishes μ (pure a : Prog ε σ α) :=
  fun s => ⟨a,s,rfl,Nat.le_refl _⟩

theorem Finishes.modify (f : σ → σ) (step : ∀ s, μ (f s) ≤ μ s) :
    Finishes μ (modify f : Prog ε σ Unit) := fun s => ⟨(),f s,rfl,step s⟩

theorem Finishes.bind {x : Prog ε σ α} {f : α → Prog ε σ β} (first : Finishes μ x)
    (rest : ∀ a, Finishes μ (f a)) : Finishes μ (x >>= f) := by
  intro s
  obtain ⟨a,middle,ran,below⟩ := first s
  obtain ⟨b,next,ran',below'⟩ := rest a middle
  exact ⟨b,next,by rw [bind_ok f ran,ran'],Nat.le_trans below' below⟩

theorem Finishes.get {f : σ → Prog ε σ β} (rest : ∀ s, Finishes μ (f s)) :
    Finishes μ ((Prog.get : Prog ε σ σ) >>= f) := fun s => rest s s

theorem Finishes.ite {c : Prop} [Decidable c] {x y : Prog ε σ α} (yes : c → Finishes μ x)
    (no : ¬c → Finishes μ y) : Finishes μ (if c then x else y) := by
  by_cases holds : c
  · rw [if_pos holds]; exact yes holds
  · rw [if_neg holds]; exact no holds

theorem Finishes.forM {l : List α} {f : α → Prog ε σ PUnit} (each : ∀ a ∈ l, Finishes μ (f a)) :
    Finishes μ (l.forM f) := by
  induction l with
  | nil => exact Finishes.pure _
  | cons a l ih =>
    exact (each a List.mem_cons_self).bind fun _ =>
      ih fun b inside => each b (List.mem_cons_of_mem a inside)

/-- A step of a traversal that establishes `I` is reached when the others return, and what
it established stays. -/
theorem forM_establishes {I : σ → Prop} {l : List α} {f : α → Prog ε σ PUnit}
    (each : ∀ a ∈ l, Finishes μ (f a)) (keeps : ∀ a ∈ l, Keeps I (f a)) (a : α) (inside : a ∈ l)
    (holds : ∀ s, I (f a s).2) (s : σ) : I ((l.forM f) s).2 := by
  induction l generalizing s with
  | nil => cases inside
  | cons b l ih =>
    have keepsRest : Keeps I (l.forM f) :=
      Keeps.forM fun c later => keeps c (List.mem_cons_of_mem b later)
    rcases List.mem_cons.mp inside with rfl | later
    · exact bind_keeps (holds s) fun _ => keepsRest
    · obtain ⟨u,middle,ran,_⟩ := each b List.mem_cons_self s
      have moved : (List.forM (b::l) f) s = (l.forM f) middle := bind_ok _ ran
      rw [moved]
      exact ih (fun c inside => each c (List.mem_cons_of_mem b inside))
        (fun c inside => keeps c (List.mem_cons_of_mem b inside)) later middle

end

/-- What a program may do to the state, returned or stopped, and what it returns. -/
def Moves (R : σ → σ → Prop) (x : Prog ε σ α) (P : α → Prop) : Prop :=
  ∀ s, R s (x s).2 ∧ ∀ a, (x s).1 = .ok a → P a

section
variable {R : σ → σ → Prop}

theorem Moves.modify {f : σ → σ} {P : Unit → Prop} (moves : ∀ s, R s (f s)) (holds : P ()) :
    Moves R (modify f : Prog ε σ Unit) P := fun s => ⟨moves s,fun _ _ => holds⟩

theorem Moves.get {f : σ → Prog ε σ β} {Q : β → Prop} (rest : ∀ s, Moves R (f s) Q) :
    Moves R ((Prog.get : Prog ε σ σ) >>= f) Q := fun s => rest s s

theorem Moves.ite {c : Prop} [Decidable c] {x y : Prog ε σ α} {P : α → Prop}
    (yes : c → Moves R x P) (no : ¬c → Moves R y P) : Moves R (if c then x else y) P := by
  by_cases holds : c
  · rw [if_pos holds]; exact yes holds
  · rw [if_neg holds]; exact no holds

theorem Moves.mono {x : Prog ε σ α} {P Q : α → Prop} (moves : Moves R x P) (weaker : ∀ a, P a → Q a) :
    Moves R x Q := fun s => ⟨(moves s).1,fun a same => weaker a ((moves s).2 a same)⟩

variable [IsPreorder σ R]

theorem Moves.pure {a : α} {P : α → Prop} (holds : P a) : Moves R (pure a : Prog ε σ α) P := by
  intro s
  refine ⟨refl s,fun b same => ?_⟩
  cases same
  exact holds

theorem Moves.fail {P : α → Prop} (why : ε) : Moves R (fail why : Prog ε σ α) P :=
  fun s => ⟨refl s,fun _ none => by cases none⟩

theorem Moves.bind {x : Prog ε σ α} {f : α → Prog ε σ β} {P : α → Prop} {Q : β → Prop}
    (first : Moves R x P) (rest : ∀ a, P a → Moves R (f a) Q) : Moves R (x >>= f) Q := by
  intro s
  obtain ⟨moved,holds⟩ := first s
  rcases ran : x s with ⟨outcome,middle⟩
  rw [ran] at moved holds
  cases outcome with
  | error why =>
    rw [bind_error f ran]
    exact ⟨moved,fun _ none => by cases none⟩
  | ok a =>
    obtain ⟨moved',holds'⟩ := rest a (holds a rfl) middle
    rw [bind_ok f ran]
    exact ⟨Trans.trans moved moved',holds'⟩

end

instance : IsPreorder σ fun _ _ => True where
  refl _ := trivial
  trans _ _ _ _ _ := trivial

abbrev Gives (P : α → Prop) (x : Prog ε σ α) : Prop := Moves (fun _ _ => True) x P

def Steps (R : σ → σ → Prop) (x : Prog ε σ α) : Prop := Moves R x fun _ => True

section
variable {R S : σ → σ → Prop}

theorem Steps.mono {x : Prog ε σ α} (steps : Steps R x) (weaker : ∀ s t, R s t → S s t) :
    Steps S x := fun s => ⟨weaker _ _ (steps s).1,fun _ _ => trivial⟩

theorem Steps.keeps {I : σ → Prop} {x : Prog ε σ α} (steps : Steps R x)
    (kept : ∀ s t, R s t → I s → I t) : Keeps I x := fun s holds => kept s _ (steps s).1 holds

theorem Steps.modify {f : σ → σ} (moves : ∀ s, R s (f s)) : Steps R (modify f : Prog ε σ Unit) :=
  Moves.modify moves trivial

theorem Steps.get {f : σ → Prog ε σ β} (rest : ∀ s, Steps R (f s)) :
    Steps R ((Prog.get : Prog ε σ σ) >>= f) := Moves.get rest

theorem Steps.ite {c : Prop} [Decidable c] {x y : Prog ε σ α} (yes : Steps R x) (no : Steps R y) :
    Steps R (if c then x else y) := Moves.ite (fun _ => yes) fun _ => no

variable [IsPreorder σ R]

theorem Steps.pure (a : α) : Steps R (pure a : Prog ε σ α) := Moves.pure trivial

theorem Steps.fail (why : ε) : Steps R (fail why : Prog ε σ α) := Moves.fail why

theorem Steps.bind {x : Prog ε σ α} {f : α → Prog ε σ β} (first : Steps R x)
    (rest : ∀ a, Steps R (f a)) : Steps R (x >>= f) := Moves.bind first fun a _ => rest a

theorem Steps.modifyThen {f : σ → σ} {g : Unit → Prog ε σ β} (moves : ∀ s, R s (f s))
    (rest : Steps R (g ())) : Steps R ((Prog.modify f : Prog ε σ Unit) >>= g) :=
  (Steps.modify moves).bind fun _ => rest

theorem Steps.forM {l : List α} {f : α → Prog ε σ PUnit} (each : ∀ a, Steps R (f a)) :
    Steps R (l.forM f) := by
  induction l with
  | nil => exact Steps.pure _
  | cons a l ih => exact (each a).bind fun _ => ih

end

/-- A list in the state grows, by elements of a kind. -/
def Grows (list : σ → List α) (kind : α → Prop) (s t : σ) : Prop :=
  ∃ more, list t = list s ++ more ∧ ∀ a ∈ more, kind a

section
variable {list : σ → List α} {kind : α → Prop} {s t u : σ}

theorem Grows.none (same : list t = list s) : Grows list kind s t :=
  ⟨[],by rw [same,List.append_nil],fun _ none => absurd none List.not_mem_nil⟩

theorem Grows.one {a : α} (added : list t = list s ++ [a]) (among : kind a) : Grows list kind s t :=
  ⟨[a],added,List.forall_mem_singleton.mpr among⟩

theorem Grows.trans (first : Grows list kind s t) (second : Grows list kind t u) :
    Grows list kind s u := by
  obtain ⟨more,split,among⟩ := first
  obtain ⟨more',split',among'⟩ := second
  refine ⟨more ++ more',by rw [split',split,List.append_assoc],fun a inside => ?_⟩
  rcases List.mem_append.mp inside with inside | inside
  · exact among a inside
  · exact among' a inside

theorem Grows.mono {kind' : α → Prop} (grows : Grows list kind s t) (weaker : ∀ a, kind a → kind' a) :
    Grows list kind' s t := by
  obtain ⟨more,split,among⟩ := grows
  exact ⟨more,split,fun a inside => weaker a (among a inside)⟩

instance : IsPreorder σ (Grows list kind) where
  refl _ := .none rfl
  trans _ _ _ := Grows.trans

end

/-- What holds behind a program that returns, given what held before it. A stopped program
meets every such condition. -/
def Leads (P : σ → Prop) (x : Prog ε σ α) (Q : α → σ → Prop) : Prop :=
  ∀ s a next, P s → x s = (.ok a,next) → Q a next

section
variable {P : σ → Prop} {Q : α → σ → Prop}

theorem Leads.pure (a : α) (holds : ∀ s, P s → Q a s) : Leads P (pure a : Prog ε σ α) Q := by
  intro s b next before ran
  cases ran
  exact holds s before

theorem Leads.fail (why : ε) : Leads P (fail why : Prog ε σ α) Q := by
  intro s b next _ ran
  cases (Prod.mk.inj ran).1

theorem Leads.modify {Q : Unit → σ → Prop} (f : σ → σ) (holds : ∀ s, P s → Q () (f s)) :
    Leads P (modify f : Prog ε σ Unit) Q := by
  intro s b next before ran
  cases ran
  exact holds s before

theorem Leads.bind {x : Prog ε σ α} {f : α → Prog ε σ β} {R : β → σ → Prop} (first : Leads P x Q)
    (rest : ∀ a, Leads (Q a) (f a) R) : Leads P (x >>= f) R := by
  intro s b next before ran
  obtain ⟨a,middle,ran,ran'⟩ := bind_inv ran
  exact rest a middle b next (first s a middle before ran) ran'

theorem Leads.get {f : σ → Prog ε σ β} {R : β → σ → Prop}
    (rest : ∀ s, P s → Leads (· = s) (f s) R) : Leads P ((Prog.get : Prog ε σ σ) >>= f) R :=
  fun s b next before ran => rest s before s b next rfl ran

theorem Leads.ite {c : Prop} [Decidable c] {x y : Prog ε σ α} (yes : c → Leads P x Q)
    (no : ¬c → Leads P y Q) : Leads P (if c then x else y) Q := by
  by_cases holds : c
  · rw [if_pos holds]; exact yes holds
  · rw [if_neg holds]; exact no holds

theorem Leads.mono {x : Prog ε σ α} {P' : σ → Prop} {Q' : α → σ → Prop} (leads : Leads P x Q)
    (stronger : ∀ s, P' s → P s) (weaker : ∀ a s, Q a s → Q' a s) : Leads P' x Q' :=
  fun s a next before ran => weaker a next (leads s a next (stronger s before) ran)

/-- A program that keeps a condition leads from it to it. -/
theorem Keeps.leads {I : σ → Prop} {x : Prog ε σ α} (keeps : Keeps I x) :
    Leads I x fun _ => I := by
  intro s a next before ran
  have kept := keeps s before
  rwa [ran] at kept

theorem Leads.forM {I : σ → Prop} {l : List α} {f : α → Prog ε σ PUnit}
    (each : ∀ a ∈ l, Leads I (f a) fun _ => I) : Leads I (l.forM f) fun _ => I := by
  induction l with
  | nil => exact Leads.pure _ fun _ holds => holds
  | cons a l ih =>
    exact (each a List.mem_cons_self).bind fun _ =>
      ih fun b inside => each b (List.mem_cons_of_mem a inside)

end

/-- Outcomes that are alike: the same reason to stop, or values that are related. -/
def Related (Q : α → β → Prop) : Except ε α → Except ε β → Prop
  | .error why, .error other => why = other
  | .ok a, .ok b => Q a b
  | .error _, .ok _ => False
  | .ok _, .error _ => False

def Agrees (R : σ → σ → Prop) (x : Prog ε σ α) (y : Prog ε σ β) (Q : α → β → Prop) : Prop :=
  ∀ s t, R s t → Related Q (x s).1 (y t).1 ∧ R (x s).2 (y t).2

def Turns (R S : σ → σ → Prop) (x : Prog ε σ α) (y : Prog ε σ β) (Q : α → β → Prop) : Prop :=
  ∀ s t, R s t → Related Q (x s).1 (y t).1 ∧ S (x s).2 (y t).2

section
variable {γ δ : Type} {R S T : σ → σ → Prop} {P : α → β → Prop} {Q : γ → δ → Prop}

theorem Turns.modify {f g : σ → σ} {P : Unit → Unit → Prop} (holds : P () ())
    (moves : ∀ s t, R s t → S (f s) (g t)) :
    Turns R S (modify f : Prog ε σ Unit) (modify g : Prog ε σ Unit) P :=
  fun s t related => ⟨holds,moves s t related⟩

theorem Turns.ite {c : Prop} [Decidable c] {x x' : Prog ε σ α} {y y' : Prog ε σ β}
    (yes : c → Turns R S x y P) (no : ¬c → Turns R S x' y' P) :
    Turns R S (if c then x else x') (if c then y else y') P := by
  by_cases holds : c
  · rw [if_pos holds,if_pos holds]; exact yes holds
  · rw [if_neg holds,if_neg holds]; exact no holds

theorem Turns.bind {x : Prog ε σ α} {y : Prog ε σ β} {f : α → Prog ε σ γ} {g : β → Prog ε σ δ}
    (first : Turns R S x y P) (stopped : ∀ s t, S s t → T s t)
    (rest : ∀ a b, P a b → Turns S T (f a) (g b) Q) : Turns R T (x >>= f) (y >>= g) Q := by
  intro s t related
  obtain ⟨outcomes,states⟩ := first s t related
  rcases ran : x s with ⟨outcome,middle⟩
  rcases ran' : y t with ⟨outcome',middle'⟩
  rw [ran,ran'] at outcomes states
  cases outcome with
  | error why =>
    cases outcome' with
    | error other =>
      rw [bind_error f ran,bind_error g ran']
      exact ⟨outcomes,stopped _ _ states⟩
    | ok b => exact absurd outcomes id
  | ok a =>
    cases outcome' with
    | error other => exact absurd outcomes id
    | ok b =>
      rw [bind_ok f ran,bind_ok g ran']
      exact rest a b outcomes middle middle' states

end

section
variable {γ δ : Type} {R : σ → σ → Prop} {P : α → β → Prop} {Q : γ → δ → Prop}

theorem Agrees.pure {a : α} {b : β} (holds : P a b) :
    Agrees R (pure a : Prog ε σ α) (pure b : Prog ε σ β) P := fun _ _ related => ⟨holds,related⟩

theorem Agrees.fail (why : ε) : Agrees R (fail why : Prog ε σ α) (fail why : Prog ε σ β) P :=
  fun _ _ related => ⟨rfl,related⟩

theorem Agrees.modify {f g : σ → σ} {P : Unit → Unit → Prop} (holds : P () ())
    (moves : ∀ s t, R s t → R (f s) (g t)) :
    Agrees R (modify f : Prog ε σ Unit) (modify g : Prog ε σ Unit) P :=
  fun s t related => ⟨holds,moves s t related⟩

theorem Agrees.bind {x : Prog ε σ α} {y : Prog ε σ β} {f : α → Prog ε σ γ} {g : β → Prog ε σ δ}
    (first : Agrees R x y P) (rest : ∀ a b, P a b → Agrees R (f a) (g b) Q) :
    Agrees R (x >>= f) (y >>= g) Q := Turns.bind first (fun _ _ => id) rest

theorem Agrees.get {f g : σ → Prog ε σ α} {P : α → α → Prop}
    (rest : ∀ s t, R s t → Agrees R (f s) (g t) P) :
    Agrees R ((Prog.get : Prog ε σ σ) >>= f) ((Prog.get : Prog ε σ σ) >>= g) P :=
  fun s t related => rest s t related s t related

theorem Agrees.ite {c : Prop} [Decidable c] {x x' : Prog ε σ α} {y y' : Prog ε σ β}
    (yes : c → Agrees R x y P) (no : ¬c → Agrees R x' y' P) :
    Agrees R (if c then x else x') (if c then y else y') P := Turns.ite yes no

theorem Agrees.mono {x : Prog ε σ α} {y : Prog ε σ β} {P' : α → β → Prop} (agrees : Agrees R x y P)
    (weaker : ∀ a b, P a b → P' a b) : Agrees R x y P' := by
  intro s t related
  obtain ⟨outcomes,states⟩ := agrees s t related
  refine ⟨?_,states⟩
  revert outcomes
  cases (x s).1 <;> cases (y t).1 <;> intro outcomes
  · exact outcomes
  · exact outcomes
  · exact outcomes
  · exact weaker _ _ outcomes

theorem Related.eq {outcome outcome' : Except ε α} (related : Related Eq outcome outcome') :
    outcome = outcome' := by
  cases outcome <;> cases outcome'
  · exact congrArg Except.error related
  · exact absurd related id
  · exact absurd related id
  · exact congrArg Except.ok related

/-- A program that does the same from related states, of whose values something is known. -/
theorem Agrees.known {x : Prog ε σ α} {P : α → Prop}
    (agrees : Agrees R x x Eq) (known : ∀ s a next, x s = (.ok a,next) → P a) :
    Agrees R x x fun a b => b = a ∧ P a := by
  intro s t related
  obtain ⟨outcomes,states⟩ := agrees s t related
  refine ⟨?_,states⟩
  have same := outcomes.eq
  rcases ran : x s with ⟨outcome,next⟩
  rw [ran] at same
  rw [← same]
  cases outcome with
  | error why => rfl
  | ok a => exact ⟨rfl,known s a next ran⟩

end

/-- What is known of the reason when a program stops. -/
def Stops (E : ε → Prop) (x : Prog ε σ α) : Prop := ∀ s why, (x s).1 = .error why → E why

section
variable {E : ε → Prop}

theorem Stops.pure (a : α) : Stops E (pure a : Prog ε σ α) := nofun

theorem Stops.fail {why : ε} (holds : E why) : Stops E (fail why : Prog ε σ α) := by
  intro s why' stopped
  cases stopped
  exact holds

theorem Stops.modify (f : σ → σ) : Stops E (modify f : Prog ε σ Unit) := nofun

theorem Stops.bind {x : Prog ε σ α} {f : α → Prog ε σ β} (first : Stops E x)
    (rest : ∀ a, Stops E (f a)) : Stops E (x >>= f) := by
  intro s why stopped
  rcases ran : x s with ⟨outcome,middle⟩
  cases outcome with
  | error other =>
    rw [bind_error f ran] at stopped
    cases stopped
    exact first s why (by rw [ran])
  | ok a =>
    rw [bind_ok f ran] at stopped
    exact rest a middle why stopped

/-- A program that stops after a value of which something is known. -/
theorem Stops.known {P : α → Prop} {x : Prog ε σ α} {f : α → Prog ε σ β} (first : Stops E x)
    (known : Gives P x) (rest : ∀ a, P a → Stops E (f a)) : Stops E (x >>= f) := by
  intro s why stopped
  rcases ran : x s with ⟨outcome,middle⟩
  cases outcome with
  | error other =>
    rw [bind_error f ran] at stopped
    cases stopped
    exact first s why (by rw [ran])
  | ok a =>
    rw [bind_ok f ran] at stopped
    exact rest a ((known s).2 a (by rw [ran])) middle why stopped

theorem Stops.get {f : σ → Prog ε σ β} (rest : ∀ s, Stops E (f s)) :
    Stops E ((Prog.get : Prog ε σ σ) >>= f) := fun s => rest s s

theorem Stops.ite {c : Prop} [Decidable c] {x y : Prog ε σ α} (yes : c → Stops E x)
    (no : ¬c → Stops E y) : Stops E (if c then x else y) := by
  by_cases holds : c
  · rw [if_pos holds]; exact yes holds
  · rw [if_neg holds]; exact no holds

end

end Prog
