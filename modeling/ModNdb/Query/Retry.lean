import ModNdb.Lib.Retries
import ModNdb.Query.Execute

/-! The loop of `exec_commit` (Execute.cc) in the arithmetic of `unsigned int`: what it counts,
and how long it sleeps. -/
namespace ModNdb.Query
open Retries (waited Last exists_last)

/-- `struct timeval` -/
structure Timeval where
  sec : Int
  usec : Int
  deriving DecidableEq

/-- `milliSleep`: what is passed to `select`. -/
def milliSleep (milliseconds : Int32) : Timeval :=
  let sec := milliseconds.toInt.tdiv 1000
  ⟨sec,(milliseconds.toInt - sec * 1000) * 1000000⟩

/-- The variables of the loop, the counters of the instance, and what the loop has done: how
often it executed, what it accounted before each retry, and what it passed to `select`. -/
structure RetryLoop where
  retries : UInt32
  totalWaitTime : UInt32
  responseCode : Int
  totalRetryMs : UInt32
  tempErrors : UInt32
  tempTimeouts : UInt32
  executed : Nat
  accounted : List UInt32
  selects : List Timeval
  left : Bool
  deriving DecidableEq

section
variable (maxRetryMs : UInt32) (outcomes : Nat → Ndb.Error)

/-- `5 + ( 2 * retries * retries)` -/
def sleepMs (retries : UInt32) : UInt32 := 5 + 2 * retries * retries

/-- From `exec_commit` to `goto exec_commit`, or out of the loop. -/
def execCommitTurn (l : RetryLoop) : RetryLoop :=
  if (outcomes l.executed).temporary then
    let ms := sleepMs l.retries
    if l.totalWaitTime + ms < maxRetryMs then
      {l with
        selects := l.selects ++ [milliSleep ms.toInt32]
        totalWaitTime := l.totalWaitTime + ms
        retries := l.retries + 1
        totalRetryMs := l.totalRetryMs + ms
        tempErrors := l.tempErrors + 1
        executed := l.executed + 1
        accounted := l.accounted ++ [ms]}
    else
      {l with
        responseCode := 503
        tempTimeouts := l.tempTimeouts + 1
        executed := l.executed + 1
        left := true}
  else {l with executed := l.executed + 1, left := true}

/-- The loop, for so many turns at most. -/
def execCommitTurns (turns : Nat) (l : RetryLoop) : RetryLoop :=
  (fun l => if l.left then l else execCommitTurn maxRetryMs outcomes l)^[turns] l

end

def beginLoop (totalRetryMs tempErrors tempTimeouts : UInt32) : RetryLoop :=
  ⟨0,0,0,totalRetryMs,tempErrors,tempTimeouts,0,[],[],false⟩

/-- What is waited before the retry after `k` others. -/
def backOff (k : Nat) : Nat := 5 + 2 * k ^ 2

theorem waited_backOff (n : Nat) : 3 * waited backOff n + 3 * n ^ 2 = 2 * n ^ 3 + 16 * n := by
  induction n with
  | zero => rfl
  | succ n ih =>
    rw [Retries.waited_succ,backOff]
    nlinarith

/-- There is no time for many retries. -/
theorem retries_few (n : Nat) (small : waited backOff n < 2 ^ 31) : n < 1500 := by
  by_contra many
  have longer := Retries.waited_mono backOff (Nat.le_of_not_lt many)
  have time := waited_backOff 1500
  omega

theorem sleepMs_toNat (retries : UInt32) (n : Nat) (counts : retries.toNat = n) (few : n < 1500) :
    (sleepMs retries).toNat = backOff n := by
  have square : n * n ≤ 1499 * 1499 := Nat.mul_le_mul (by omega) (by omega)
  have two : (2 : UInt32).toNat = 2 := rfl
  have five : (5 : UInt32).toNat = 5 := rfl
  have double : (2 * retries).toNat = 2 * n := by
    rw [UInt32.toNat_mul,counts,two]
    exact Nat.mod_eq_of_lt (by omega)
  have product : (2 * retries * retries).toNat = 2 * (n * n) := by
    rw [UInt32.toNat_mul,double,counts,Nat.mul_assoc]
    exact Nat.mod_eq_of_lt (by omega)
  unfold sleepMs backOff
  rw [UInt32.toNat_add,product,five,pow_two]
  exact Nat.mod_eq_of_lt (by omega)

theorem backOff_few (n : Nat) (few : n < 1500) : backOff n < 2 ^ 23 := by
  have square : n ^ 2 ≤ 1499 ^ 2 := Nat.pow_le_pow_left (by omega) 2
  unfold backOff
  omega

section
variable (maxRetryMs : UInt32) (outcomes : Nat → Ndb.Error)

theorem execCommitTurns_succ (turns : Nat) (l : RetryLoop) :
    execCommitTurns maxRetryMs outcomes (turns + 1) l =
      (let l := execCommitTurns maxRetryMs outcomes turns l
      if l.left then l else execCommitTurn maxRetryMs outcomes l) :=
  Function.iterate_succ_apply' _ _ _

/-- The loop before its `n`th retry. -/
structure Retrying (first : RetryLoop) (n : Nat) (l : RetryLoop) : Prop where
  counts : l.retries.toNat = n
  waits : l.totalWaitTime.toNat = waited backOff n
  accounts : l.accounted.map UInt32.toNat = (List.range n).map backOff
  sleeps : l.selects = l.accounted.map fun ms => milliSleep ms.toInt32
  retryMs : l.totalRetryMs = first.totalRetryMs + l.totalWaitTime
  errors : l.tempErrors = first.tempErrors + l.retries
  timeouts : l.tempTimeouts = first.tempTimeouts
  code : l.responseCode = 0
  executed : l.executed = n
  stays : l.left = false

theorem beginLoop_retrying (totalRetryMs tempErrors tempTimeouts : UInt32) :
    Retrying (beginLoop totalRetryMs tempErrors tempTimeouts) 0
      (beginLoop totalRetryMs tempErrors tempTimeouts) where
  counts := rfl
  waits := rfl
  accounts := rfl
  sleeps := rfl
  retryMs := (UInt32.add_zero _).symm
  errors := (UInt32.add_zero _).symm
  timeouts := rfl
  code := rfl
  executed := rfl
  stays := rfl

section
variable {first l : RetryLoop} {n : Nat} (retrying : Retrying first n l)
include retrying

/-- The test of the time that is left is made without an overflow. -/
theorem Retrying.time (small : waited backOff n < 2 ^ 31) :
    (sleepMs l.retries).toNat = backOff n ∧
      (l.totalWaitTime + sleepMs l.retries).toNat = waited backOff (n + 1) := by
  have few := retries_few n small
  have ms := sleepMs_toNat l.retries n retrying.counts few
  have short := backOff_few n few
  refine ⟨ms,?_⟩
  rw [UInt32.toNat_add,ms,retrying.waits,Retries.waited_succ]
  exact Nat.mod_eq_of_lt (by omega)

/-- A turn that leads to a retry. -/
theorem Retrying.turn (small : maxRetryMs.toNat < 2 ^ 31)
    (again : (outcomes n).temporary = true) (time : waited backOff (n + 1) < maxRetryMs.toNat) :
    execCommitTurn maxRetryMs outcomes l =
      {l with
        selects := l.selects ++ [milliSleep (sleepMs l.retries).toInt32]
        totalWaitTime := l.totalWaitTime + sleepMs l.retries
        retries := l.retries + 1
        totalRetryMs := l.totalRetryMs + sleepMs l.retries
        tempErrors := l.tempErrors + 1
        executed := n + 1
        accounted := l.accounted ++ [sleepMs l.retries]} := by
  have before : waited backOff n < 2 ^ 31 :=
    Nat.lt_of_le_of_lt (Retries.waited_mono backOff (Nat.le_succ n)) (Nat.lt_trans time small)
  have tested : l.totalWaitTime + sleepMs l.retries < maxRetryMs := by
    rw [UInt32.lt_iff_toNat_lt,(retrying.time before).2]
    exact time
  unfold execCommitTurn
  rw [retrying.executed,if_pos again]
  exact if_pos tested

theorem Retrying.retry (small : maxRetryMs.toNat < 2 ^ 31)
    (again : (outcomes n).temporary = true) (time : waited backOff (n + 1) < maxRetryMs.toNat) :
    Retrying first (n + 1) (execCommitTurn maxRetryMs outcomes l) := by
  have before : waited backOff n < 2 ^ 31 :=
    Nat.lt_of_le_of_lt (Retries.waited_mono backOff (Nat.le_succ n)) (Nat.lt_trans time small)
  obtain ⟨ms,total⟩ := retrying.time before
  have few := retries_few n before
  rw [retrying.turn maxRetryMs outcomes small again time]
  exact {
    counts := by
      rw [UInt32.toNat_add,retrying.counts]
      exact Nat.mod_eq_of_lt (by simp; omega)
    waits := total
    accounts := by
      rw [List.map_append,retrying.accounts,List.map_singleton,ms,List.range_succ,List.map_append,
        List.map_singleton]
    sleeps := by rw [retrying.sleeps,List.map_append,List.map_singleton]
    retryMs := by rw [retrying.retryMs,UInt32.add_assoc]
    errors := by rw [retrying.errors,UInt32.add_assoc]
    timeouts := retrying.timeouts
    code := retrying.code
    executed := rfl
    stays := retrying.stays }

/-- The turn that leaves the loop, for want of time or for another outcome. -/
theorem Retrying.leave (small : waited backOff n < 2 ^ 31)
    (ends : (outcomes n).temporary = true → maxRetryMs.toNat ≤ waited backOff (n + 1)) :
    execCommitTurn maxRetryMs outcomes l =
      (if (outcomes n).temporary then
        {l with responseCode := 503, tempTimeouts := l.tempTimeouts + 1, executed := n + 1, left := true}
      else {l with executed := n + 1, left := true}) := by
  unfold execCommitTurn
  rw [retrying.executed]
  by_cases again : (outcomes n).temporary = true
  · have late : ¬l.totalWaitTime + sleepMs l.retries < maxRetryMs := by
      rw [UInt32.lt_iff_toNat_lt,(retrying.time small).2]
      exact Nat.not_lt_of_le (ends again)
    rw [if_pos again,if_pos again]
    exact if_neg late
  · rw [if_neg again,if_neg again]

end

/-- The loop is behind, after `n` retries. -/
structure Behind (first : RetryLoop) (n : Nat) (l : RetryLoop) : Prop where
  left : l.left = true
  executed : l.executed = n + 1
  retried : ∀ k < n, (outcomes k).temporary = true
  retries : l.retries.toNat = n
  accounts : l.accounted.map UInt32.toNat = (List.range n).map fun k => 5 + 2 * k ^ 2
  waits : l.totalWaitTime.toNat = (l.accounted.map UInt32.toNat).sum
  budget : l.totalWaitTime < maxRetryMs ∨ l.totalWaitTime = 0 ∧ maxRetryMs = 0
  retryMs : l.totalRetryMs = first.totalRetryMs + l.totalWaitTime
  errors : l.tempErrors = first.tempErrors + UInt32.ofNat n
  late : l.responseCode = 503 ↔ ∃ k, (∀ j ≤ k, (outcomes j).temporary = true) ∧
    maxRetryMs.toNat ≤ waited backOff (k + 1)
  settled : l.responseCode ≠ 503 → l.responseCode = 0 ∧ (outcomes n).temporary = false
  sleeps : l.selects = l.accounted.map fun ms => milliSleep ms.toInt32

section
variable {maxRetryMs outcomes} {first : RetryLoop} {n : Nat} (small : maxRetryMs.toNat < 2 ^ 31)
  (last : Last backOff (fun k => (outcomes k).temporary = true) maxRetryMs.toNat n)
  (begins : Retrying first 0 first)
include small last begins

theorem execCommitTurns_retrying (k : Nat) (within : k ≤ n) :
    Retrying first k (execCommitTurns maxRetryMs outcomes k first) := by
  induction k with
  | zero => exact begins
  | succ k ih =>
    have retrying := ih (Nat.le_of_succ_le within)
    rw [execCommitTurns_succ]
    dsimp only
    rw [retrying.stays]
    exact retrying.retry maxRetryMs outcomes small (last.again_before within)
      (last.waited_before within)

theorem execCommitTurns_last :
    Behind maxRetryMs outcomes first n (execCommitTurns maxRetryMs outcomes (n + 1) first) := by
  have retrying := execCommitTurns_retrying small last begins n (Nat.le_refl n)
  have time : waited backOff n < 2 ^ 31 := by
    rcases last.waited_lt (Nat.le_refl n) with within | rfl
    · exact Nat.lt_trans within small
    · exact Nat.pos_of_ne_zero (by decide)
  have left := retrying.leave maxRetryMs outcomes time fun again =>
    last.ends.resolve_left (not_not_intro again)
  have sums : waited backOff n = ((List.range n).map backOff).sum := rfl
  have counts : (execCommitTurns maxRetryMs outcomes n first).retries = UInt32.ofNat n :=
    UInt32.ofNat_toNat.symm.trans (congrArg UInt32.ofNat retrying.counts)
  have budget : (execCommitTurns maxRetryMs outcomes n first).totalWaitTime < maxRetryMs ∨
      (execCommitTurns maxRetryMs outcomes n first).totalWaitTime = 0 ∧ maxRetryMs = 0 := by
    rw [UInt32.lt_iff_toNat_lt,retrying.waits,← UInt32.toNat_inj,← UInt32.toNat_inj,retrying.waits,
      UInt32.toNat_zero]
    rcases last.waited_lt (Nat.le_refl n) with within | rfl
    · exact .inl within
    · rw [Retries.waited_zero]
      omega
  rw [execCommitTurns_succ]
  dsimp only
  rw [retrying.stays,if_neg Bool.false_ne_true,left]
  by_cases again : (outcomes n).temporary = true
  · rw [if_pos again]
    exact {
      left := rfl
      executed := rfl
      retried := fun k below => last.again_before below
      retries := retrying.counts
      accounts := retrying.accounts
      waits := by rw [retrying.waits,retrying.accounts,sums]
      budget := budget
      retryMs := retrying.retryMs
      errors := by rw [retrying.errors,counts]
      late := iff_of_true rfl (last.again_iff.mp again)
      settled := fun other => absurd rfl other
      sleeps := retrying.sleeps }
  · rw [if_neg again]
    have code : (execCommitTurns maxRetryMs outcomes n first).responseCode = 0 := retrying.code
    exact {
      left := rfl
      executed := rfl
      retried := fun k below => last.again_before below
      retries := retrying.counts
      accounts := retrying.accounts
      waits := by rw [retrying.waits,retrying.accounts,sums]
      budget := budget
      retryMs := retrying.retryMs
      errors := by rw [retrying.errors,counts]
      late := iff_of_false (by rw [code]; decide) (mt last.again_iff.mpr again)
      settled := fun _ => ⟨code,Bool.eq_false_of_not_eq_true again⟩
      sleeps := retrying.sleeps }

end

theorem execCommitTurns_left (l : RetryLoop) (left : l.left = true) (turns : Nat) :
    execCommitTurns maxRetryMs outcomes turns l = l := by
  induction turns with
  | zero => rfl
  | succ turns ih =>
    rw [execCommitTurns_succ,ih]
    exact if_pos left

/-- Whatever comes out of the executions, the loop comes to an end. -/
theorem execCommit_bounded (small : maxRetryMs.toNat < 2 ^ 31)
    (totalRetryMs tempErrors tempTimeouts : UInt32) :
    ∃ n, ∀ turns > n, Behind maxRetryMs outcomes (beginLoop totalRetryMs tempErrors tempTimeouts) n
      (execCommitTurns maxRetryMs outcomes turns (beginLoop totalRetryMs tempErrors tempTimeouts)) := by
  obtain ⟨n,last⟩ := exists_last backOff (fun k => (outcomes k).temporary = true) maxRetryMs.toNat
    fun k => Nat.lt_of_lt_of_le (by decide) (Nat.le_add_right 5 (2 * k ^ 2))
  have behind := execCommitTurns_last small last
    (beginLoop_retrying totalRetryMs tempErrors tempTimeouts)
  refine ⟨n,fun turns more => ?_⟩
  obtain ⟨others,rfl⟩ := Nat.exists_eq_add_of_le more
  have further : execCommitTurns maxRetryMs outcomes (n + 1 + others)
      (beginLoop totalRetryMs tempErrors tempTimeouts) = execCommitTurns maxRetryMs outcomes others
        (execCommitTurns maxRetryMs outcomes (n + 1) (beginLoop totalRetryMs tempErrors tempTimeouts)) := by
    rw [Nat.add_comm]
    exact Function.iterate_add_apply _ _ _ _
  rw [further,execCommitTurns_left _ _ _ behind.left]
  exact behind

end

/-- A temporary error comes back until 50 milliseconds are spent. -/
theorem execCommit_bounded_busy :
    ∃ n, ∀ turns > n, Behind 50 (fun _ => ⟨true,.misc,0,[]⟩) (beginLoop 0 0 0) n
      (execCommitTurns 50 (fun _ => ⟨true,.misc,0,[]⟩) turns (beginLoop 0 0 0)) :=
  execCommit_bounded 50 (fun _ => ⟨true,.misc,0,[]⟩) (by decide) 0 0 0

end ModNdb.Query
