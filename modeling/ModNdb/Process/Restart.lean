import ModNdb.Lib.Interleaving

/-! `module_must_restart` (mod_ndb_ap20.cc): the threads of a process that find the dictionary stale
tell the parent to restart, once. -/
namespace ModNdb.Process
open Interleaving (Outlined Reaches)

/-- `restart_lock`, with the thread that holds it, and `will_restart`; the times that it was counted
and the signals that the parent was sent. -/
structure Restart where
  lock : Option Nat
  willRestart : Nat
  counted : Nat
  signals : Nat

/-- Where a thread is in `module_must_restart`: at the lock, and inside, where it has read
`will_restart`, has stored it, and is at the unlock. -/
inductive Restarting
  | outside
  | locking
  | locked
  | read (value : Nat)
  | stored (value : Nat)
  | unlocking

/-- The range of an `int` that is counted up. -/
def intRange : Nat := 2^32

inductive Restart.Step (i : Nat) : Restart → Restarting → Restart → Restarting → Prop
  | call (s : Restart) : Step i s .outside s .locking
  | lock (s : Restart) : s.lock = none → Step i s .locking {s with lock := some i} .locked
  | read (s : Restart) : Step i s .locked s (.read s.willRestart)
  | store (s : Restart) (value : Nat) : Step i s (.read value)
      {s with willRestart := (value + 1) % intRange, counted := s.counted + 1} (.stored value)
  | kill (s : Restart) : Step i s (.stored 0) {s with signals := s.signals + 1} .unlocking
  | skip (s : Restart) (value : Nat) : value ≠ 0 → Step i s (.stored value) s .unlocking
  | unlock (s : Restart) : Step i s .unlocking {s with lock := none} .outside

def Restart.init : Restart := ⟨none,0,0,0⟩

def Restarting.Inside : Restarting → Prop
  | .outside | .locking => False
  | .locked | .read _ | .stored _ | .unlocking => True

/-- The signals for a number of calls: one, until the `int` comes round to zero. -/
def dueSignals (calls : Nat) : Nat := (calls + (intRange - 1)) / intRange

theorem dueSignals_succ (n : Nat) :
    dueSignals (n + 1) = if n % intRange = 0 then dueSignals n + 1 else dueSignals n := by
  unfold dueSignals intRange
  split
  all_goals omega

def Restart.Settled (s : Restart) : Prop := s.signals = dueSignals s.counted

def Restarting.Holds (i : Nat) (s : Restart) : Restarting → Prop
  | .outside | .locking => s.lock ≠ some i
  | .locked | .unlocking => s.lock = some i ∧ s.Settled
  | .read value => s.lock = some i ∧ s.Settled ∧ value = s.willRestart
  | .stored value => s.lock = some i ∧
      dueSignals s.counted = if value = 0 then s.signals + 1 else s.signals

def Restart.Counts (s : Restart) : Prop :=
  s.willRestart = s.counted % intRange ∧ (s.lock = none → s.Settled)

theorem Restarting.inside_iff (i : Nat) (s : Restart) (here : Restarting) (holds : here.Holds i s) :
    here.Inside ↔ s.lock = some i := by
  cases here with
  | outside | locking => exact iff_of_false id holds
  | locked | read | stored | unlocking => exact iff_of_true trivial holds.1

theorem Restart.Step.keeps (i : Nat) (s s' : Restart) (t t' : Restarting) (counts : s.Counts)
    (holds : t.Holds i s) (step : Step i s t s' t') : s'.Counts ∧ t'.Holds i s' := by
  obtain ⟨counted,free⟩ := counts
  cases step with
  | call => exact ⟨⟨counted,free⟩,holds⟩
  | lock unlocked => exact ⟨⟨counted,nofun⟩,rfl,free unlocked⟩
  | read => exact ⟨⟨counted,free⟩,holds.1,holds.2,rfl⟩
  | store value =>
    obtain ⟨held,settled,same⟩ := holds
    refine ⟨⟨?_,fun none => ?_⟩,held,?_⟩
    · rw [same,counted]
      simp only [Nat.mod_add_mod]
    · exact absurd (held.symm.trans none) nofun
    · simp only [dueSignals_succ,same,counted,settled.symm]
  | kill =>
    obtain ⟨held,due⟩ := holds
    have settled : s.signals + 1 = dueSignals s.counted := due.symm
    exact ⟨⟨counted,fun _ => settled⟩,held,settled⟩
  | skip value positive =>
    obtain ⟨held,due⟩ := holds
    rw [if_neg positive] at due
    exact ⟨⟨counted,fun _ => due.symm⟩,held,due.symm⟩
  | unlock => exact ⟨⟨counted,fun _ => holds.2⟩,nofun⟩

/-- Who holds the lock keeps the others out. -/
theorem Restart.Step.spares (i j : Nat) (s s' : Restart) (t t' u : Restarting) (other : i ≠ j)
    (mine : t.Holds i s) (holds : u.Holds j s) (step : Step i s t s' t') : u.Holds j s' := by
  have apart : ∀ k, s.lock = some i → s.lock = some k → k = i := fun k one two =>
    (Option.some.inj (one.symm.trans two)).symm
  have outside : s.lock = some i → ¬u.Inside := fun held inside =>
    other (apart j held ((Restarting.inside_iff j s u holds).mp inside)).symm
  have stays : ∀ s'' : Restart, ¬u.Inside → s''.lock ≠ some j → u.Holds j s'' := by
    intro s'' out free
    cases u with
    | outside | locking => exact free
    | locked | read | stored | unlocking => exact absurd trivial out
  cases step with
  | call => exact holds
  | read => exact holds
  | skip => exact holds
  | lock unlocked =>
    refine stays _ (fun inside => ?_) (fun same => other (Option.some.inj same))
    exact absurd (unlocked.symm.trans ((Restarting.inside_iff j s u holds).mp inside)) nofun
  | store =>
    exact stays _ (outside mine.1) fun same => other (apart j mine.1 same).symm
  | kill => exact stays _ (outside mine.1) fun same => other (apart j mine.1 same).symm
  | unlock => exact stays _ (outside mine.1) nofun

theorem restart_outlined : Outlined Restart.Step Restart.Counts fun i s t => t.Holds i s where
  keeps := fun i s t s' t' => Restart.Step.keeps i s s' t t'
  spares := fun i j s t s' t' u other _ => Restart.Step.spares i j s s' t t' u other

/-- However many threads call for a restart and however their steps interleave: one at a time is inside;
the parent has one signal for the first call and every 2^32nd one after it, but for one at most that
the thread inside is about to send. -/
theorem restart_once (s : Interleaving.State Nat Restart Restarting)
    (reached : Reaches Restart.Step ⟨.init,fun _ => .outside⟩ s) :
    (∀ i j, (s.own i).Inside → (s.own j).Inside → i = j) ∧
      (s.shared.signals = dueSignals s.shared.counted ∨
        s.shared.signals + 1 = dueSignals s.shared.counted ∧ ∃ i, s.own i = .stored 0) ∧
      (s.shared.lock = none → s.shared.signals = dueSignals s.shared.counted) := by
  have start : Restart.init.Counts ∧ ∀ i : Nat, Restarting.outside.Holds i Restart.init :=
    ⟨⟨rfl,fun _ => rfl⟩,fun _ => nofun⟩
  obtain ⟨⟨_,free⟩,each⟩ := restart_outlined.reaches reached start
  have holder : ∀ i, (s.own i).Inside ↔ s.shared.lock = some i := fun i =>
    Restarting.inside_iff i _ _ (each i)
  refine ⟨fun i j one two => ?_,?_,free⟩
  · exact Option.some.inj (((holder i).mp one).symm.trans ((holder j).mp two))
  · cases held : s.shared.lock with
    | none => exact .inl (free held)
    | some i =>
      have inside := (holder i).mpr held
      have holds := each i
      revert inside holds
      cases here : s.own i with
      | outside | locking => exact fun inside => inside.elim
      | locked | unlocking => exact fun _ holds => .inl holds.2
      | read => exact fun _ holds => .inl holds.2.1
      | stored value =>
        intro _ holds
        have due := holds.2
        split at due
        · next zero => exact .inr ⟨due.symm,i,zero ▸ here⟩
        · exact .inl due.symm

def calledTwice : Interleaving.State Nat Restart Restarting :=
  ⟨⟨some 0,1,1,0⟩,Function.update (Function.update (Function.update (Function.update
    (Function.update (fun _ => .outside) 0 .locking) 1 .locking) 0 .locked) 0 (.read 0)) 0 (.stored 0)⟩

theorem calledTwice_reached : Reaches Restart.Step ⟨.init,fun _ => .outside⟩ calledTwice := by
  have called : Reaches Restart.Step ⟨.init,fun _ => .outside⟩ _ := .single (.run 0 _ _ _ _ (.call .init))
  have both := called.tail (.run 1 _ _ _ _ (.call .init))
  have locked := both.tail (.run 0 _ _ _ _ (.lock .init rfl))
  have looked := locked.tail (.run 0 _ _ _ _ (.read ⟨some 0,0,0,0⟩))
  exact looked.tail (.run 0 _ _ _ _ (.store ⟨some 0,0,0,0⟩ 0))

/-- The second one stays outside. -/
theorem restart_once_two : ¬(calledTwice.own 1).Inside ∧
    calledTwice.shared.signals + 1 = dueSignals calledTwice.shared.counted := by
  obtain ⟨one,sent,_⟩ := restart_once calledTwice calledTwice_reached
  refine ⟨fun inside => absurd (one 0 1 trivial inside) (by decide),?_⟩
  rcases sent with all | due
  · exact absurd all (by decide)
  · exact due.1

end ModNdb.Process
