import Mathlib

/-! Attempts that are made again as long as there is time: which attempt is the last, whatever
the delays and the outcomes. -/
namespace ModNdb.Retries

variable (delay : Nat → Nat) (again : Nat → Prop) (limit : Nat)

/-- The time waited in `n` delays. -/
def waited (n : Nat) : Nat := ((List.range n).map delay).sum

theorem waited_zero : waited delay 0 = 0 := rfl

theorem waited_succ (n : Nat) : waited delay (n + 1) = waited delay n + delay n := by
  unfold waited
  rw [List.range_succ,List.map_append,List.sum_append,List.map_singleton,List.sum_singleton]

theorem waited_mono {n m : Nat} (below : n ≤ m) : waited delay n ≤ waited delay m := by
  induction below with
  | refl => exact Nat.le_refl _
  | step below ih =>
    rw [waited_succ]
    omega

theorem le_waited (moves : ∀ k, 0 < delay k) (n : Nat) : n ≤ waited delay n := by
  induction n with
  | zero => exact Nat.zero_le _
  | succ n ih =>
    have more := moves n
    rw [waited_succ]
    omega

/-- The `n`th attempt is not made again, or there is no time to. -/
def Ends (n : Nat) : Prop := ¬again n ∨ limit ≤ waited delay (n + 1)

structure Last (n : Nat) : Prop where
  ends : Ends delay again limit n
  before : ∀ k < n, ¬Ends delay again limit k

/-- There is a last attempt, where delays take time. -/
theorem exists_last (moves : ∀ k, 0 < delay k) : ∃ n, Last delay again limit n := by
  classical
  have ends : ∃ n, Ends delay again limit n :=
    ⟨limit,.inr (Nat.le_trans (Nat.le_succ limit) (le_waited delay moves _))⟩
  exact ⟨Nat.find ends,Nat.find_spec ends,fun k below => Nat.find_min ends below⟩

section
variable {delay again limit} {n : Nat} (last : Last delay again limit n)
include last

theorem Last.again_before {k : Nat} (below : k < n) : again k :=
  Classical.not_not.mp (not_or.mp (last.before k below)).1

theorem Last.waited_before {k : Nat} (below : k < n) : waited delay (k + 1) < limit :=
  Nat.lt_of_not_le (not_or.mp (last.before k below)).2

/-- The time waited is within the limit. -/
theorem Last.waited_lt {k : Nat} (within : k ≤ n) : waited delay k < limit ∨ k = 0 := by
  cases k with
  | zero => exact .inr rfl
  | succ k => exact .inl (last.waited_before within)

/-- The last attempt would be made again exactly if some attempt has no time left. -/
theorem Last.again_iff : again n ↔ ∃ k, (∀ j ≤ k, again j) ∧ limit ≤ waited delay (k + 1) := by
  constructor
  · intro failed
    refine ⟨n,fun j within => ?_,last.ends.resolve_left (not_not_intro failed)⟩
    rcases Nat.lt_or_eq_of_le within with below | rfl
    · exact last.again_before below
    · exact failed
  · rintro ⟨k,failed,late⟩
    rcases Nat.lt_or_ge k n with below | above
    · exact absurd late (Nat.not_le_of_lt (last.waited_before below))
    · exact failed n above

end

end ModNdb.Retries
