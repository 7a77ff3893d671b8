import Mathlib

/-! The search in a sorted table that halves what lies between two bounds, both of them
included, with the places it looks at. -/
namespace ModNdb.Halving

inductive Outcome
  | found (place : Nat)
  | absent
  | outOfFuel
  deriving DecidableEq

def Outcome.place : Outcome → Option Nat
  | .found place => some place
  | .absent => none
  | .outOfFuel => none

section
variable (order : Nat → Ordering)

/-- How what is sought compares with the element at a place is `order`. -/
def search : Nat → Int → Int → List Int × Outcome
  | 0, _, _ => ([],.outOfFuel)
  | fuel + 1, low, high =>
    if high < low then ([],.absent)
    else
      let mid := (low + high) / 2
      let rest := match order mid.toNat with
        | .lt => search fuel low (mid - 1)
        | .gt => search fuel (mid + 1) high
        | .eq => ([],.found mid.toNat)
      (mid::rest.1,rest.2)

/-- In the first `n` places everything in front of an element is smaller, and everything behind
it larger. -/
structure Sorted (n : Nat) : Prop where
  front : ∀ i j, i < j → j < n → order j ≠ .lt → order i = .gt
  behind : ∀ i j, i < j → j < n → order i ≠ .gt → order j = .lt

/-- What is sought is between the bounds, if it is anywhere. -/
structure Between (n : Nat) (low high : Int) : Prop where
  start : 0 ≤ low
  stop : high < n
  apart : low ≤ high + 1
  front : ∀ i : Nat, i < low → order i = .gt
  behind : ∀ i : Nat, high < i → i < n → order i = .lt

variable {order} {n : Nat}

theorem Between.whole : Between order n 0 (n - 1) where
  start := Int.le_refl 0
  stop := by omega
  apart := by omega
  front i below := by omega
  behind i above below := by omega

variable (sorted : Sorted order n) {low high : Int} (between : Between order n low high)
  (mid : Nat) (inside : low ≤ mid ∧ mid ≤ high)
include sorted between inside

theorem Between.lower (less : order mid = .lt) : Between order n low (mid - 1) where
  start := between.start
  stop := by
    have stop := between.stop
    omega
  apart := by omega
  front := between.front
  behind i above below := by
    rcases Nat.lt_or_ge mid i with later | here
    · exact sorted.behind mid i later below (by rw [less]; decide)
    · rwa [show i = mid by omega]

theorem Between.upper (more : order mid = .gt) : Between order n (mid + 1) high where
  start := by omega
  stop := between.stop
  apart := by omega
  front i below := by
    have stop := between.stop
    rcases Nat.lt_or_ge i mid with earlier | here
    · exact sorted.front i mid earlier (by omega) (by rw [more]; decide)
    · rwa [show i = mid by omega]
  behind := between.behind

end

/-- A search looks at places of the table only, and finds what is sought exactly if it is
there. -/
structure Searched (order : Nat → Ordering) (n : Nat) (result : List Int × Outcome) : Prop where
  probes : ∀ probe ∈ result.1, 0 ≤ probe ∧ probe < n
  outcome : (∃ place < n, order place = .eq ∧ result.2 = .found place) ∨
    (∀ place < n, order place ≠ .eq) ∧ result.2 = .absent

theorem Searched.probe {order : Nat → Ordering} {n mid : Nat} {result : List Int × Outcome}
    (searched : Searched order n result) (inside : mid < n) :
    Searched order n ((mid : Int)::result.1,result.2) where
  probes probe among := by
    rcases List.mem_cons.mp among with rfl | later
    · omega
    · exact searched.probes probe later
  outcome := searched.outcome

/-- With enough fuel the search ends. -/
theorem search_run {order : Nat → Ordering} {n : Nat} (sorted : Sorted order n) (fuel : Nat)
    (low high : Int) (between : Between order n low high) (enough : high - low + 1 < fuel) :
    Searched order n (search order fuel low high) := by
  induction fuel generalizing low high with
  | zero =>
    have apart := between.apart
    omega
  | succ fuel ih =>
    have start := between.start
    have stop := between.stop
    unfold search
    by_cases crossed : high < low
    · rw [if_pos crossed]
      refine ⟨fun _ none => absurd none List.not_mem_nil,.inr ⟨fun place below same => ?_,rfl⟩⟩
      by_cases front : (place : Int) < low
      · rw [between.front place front] at same
        cases same
      · rw [between.behind place (by omega) below] at same
        cases same
    · rw [if_neg crossed]
      obtain ⟨mid,middle⟩ := Int.eq_ofNat_of_zero_le (show 0 ≤ (low + high) / 2 by omega)
      have inside : low ≤ mid ∧ (mid : Int) ≤ high := by omega
      dsimp only
      rw [middle,Int.toNat_natCast]
      refine Searched.probe ?_ (by omega)
      cases compared : order mid with
      | lt => exact ih low (mid - 1) (between.lower sorted mid inside compared) (by omega)
      | gt => exact ih (mid + 1) high (between.upper sorted mid inside compared) (by omega)
      | eq =>
        exact ⟨fun _ none => absurd none List.not_mem_nil,.inl ⟨mid,by omega,compared,rfl⟩⟩

end ModNdb.Halving
