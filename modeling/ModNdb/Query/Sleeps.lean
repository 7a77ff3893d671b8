import ModNdb.Query.Retry

/-! `ExecuteAll` runs the loop of `exec_commit`, and what the loop sleeps is not what it
accounts: `milliSleep` passes a thousand times the microseconds. -/
namespace ModNdb.Query
open Retries (waited)

section
variable (srv : ServerConfig) (ndb : Ndb.Answers)

/-- The counters of the instance, in `unsigned int`. -/
structure SameCounts (w : World) (l : RetryLoop) : Prop where
  retryMs : UInt32.ofNat w.inst.stats.totalRetryMs = l.totalRetryMs
  errors : UInt32.ofNat w.inst.stats.tempErrors = l.tempErrors
  timeouts : UInt32.ofNat w.inst.stats.tempTimeouts = l.tempTimeouts

/-- What `exec_commit` of an open transaction and a loop have in common. -/
def Together (fuel n : Nat) (w : World) (l : RetryLoop) : Prop :=
  ∃ turns late next, execCommit srv ndb fuel n (waited backOff n) w =
      (.ok (late,outcome ndb (execCommitTurns (UInt32.ofNat srv.maxRetryMs) (outcome ndb) turns l).retries.toNat),
        next) ∧
    (execCommitTurns (UInt32.ofNat srv.maxRetryMs) (outcome ndb) turns l).left = true ∧
    (late = true ↔
      (execCommitTurns (UInt32.ofNat srv.maxRetryMs) (outcome ndb) turns l).responseCode = 503) ∧
    SameCounts next (execCommitTurns (UInt32.ofNat srv.maxRetryMs) (outcome ndb) turns l)

theorem execute_open (n : Nat) (w : World) (t : Nat) (isOpen : w.inst.tx = some t) :
    ∃ next, execute ndb n w = (.ok (outcome ndb n),next) ∧ next.inst = w.inst := by
  unfold execute
  rw [isOpen]
  exact ⟨_,rfl,rfl⟩

theorem execCommitTurns_zero (l : RetryLoop) (maxRetryMs : UInt32) (outcomes : Nat → Ndb.Error) :
    execCommitTurns maxRetryMs outcomes 0 l = l := rfl

theorem execCommitTurns_first (turns : Nat) (l : RetryLoop) (maxRetryMs : UInt32)
    (outcomes : Nat → Ndb.Error) (stays : l.left = false) :
    execCommitTurns maxRetryMs outcomes (turns + 1) l =
      execCommitTurns maxRetryMs outcomes turns (execCommitTurn maxRetryMs outcomes l) := by
  unfold execCommitTurns
  rw [Function.iterate_succ_apply,stays]
  rfl

/-- A retry, and a turn that leads to it. -/
theorem Together.retry {fuel n : Nat} {w next : World} {l : RetryLoop} (stays : l.left = false)
    (ran : execCommit srv ndb (fuel + 1) n (waited backOff n) w =
      execCommit srv ndb fuel (n + 1) (waited backOff (n + 1)) next)
    (later : Together srv ndb fuel (n + 1) next
      (execCommitTurn (UInt32.ofNat srv.maxRetryMs) (outcome ndb) l)) :
    Together srv ndb (fuel + 1) n w l := by
  obtain ⟨turns,late,last,ran',rest⟩ := later
  refine ⟨turns + 1,late,last,?_⟩
  rw [execCommitTurns_first _ _ _ _ stays,ran]
  exact ⟨ran',rest⟩

theorem backOff_product (n : Nat) : 5 + 2 * n * n = backOff n := by
  unfold backOff
  rw [Nat.mul_assoc,pow_two]

/-- `exec_commit` and the loop stay together, from one retry to the next. -/
theorem execCommit_together (small : srv.maxRetryMs < 2 ^ 31) (fuel n : Nat) (w : World) (t : Nat)
    (isOpen : w.inst.tx = some t) (first l : RetryLoop) (retrying : Retrying first n l)
    (counts : SameCounts w l) (within : waited backOff n < srv.maxRetryMs ∨ n = 0)
    (enough : srv.maxRetryMs < waited backOff n + fuel) : Together srv ndb fuel n w l := by
  have limit : (UInt32.ofNat srv.maxRetryMs).toNat = srv.maxRetryMs :=
    UInt32.toNat_ofNat_of_lt' (Nat.lt_trans small (by decide))
  induction fuel generalizing n w l with
  | zero =>
    rcases within with within | rfl
    · omega
    · exact absurd enough (Nat.not_lt_zero _)
  | succ fuel ih =>
    have time : waited backOff n < 2 ^ 31 := by
      rcases within with within | rfl
      · exact Nat.lt_trans within small
      · exact Nat.pos_of_ne_zero (by decide)
    obtain ⟨executed,ran,same⟩ := execute_open ndb n w t isOpen
    obtain ⟨ms,_⟩ := retrying.time time
    have longer := Retries.waited_succ backOff n
    have positive : 5 ≤ backOff n := Nat.le_add_right 5 _
    have word : UInt32.ofNat (backOff n) = sleepMs l.retries := by rw [← ms,UInt32.ofNat_toNat]
    by_cases again : (outcome ndb n).temporary = true
    · by_cases left : waited backOff n + backOff n < srv.maxRetryMs
      · have turn := retrying.turn (UInt32.ofNat srv.maxRetryMs) (outcome ndb) (by omega) again
          (by omega)
        have next := retrying.retry (UInt32.ofNat srv.maxRetryMs) (outcome ndb) (by omega) again
          (by omega)
        refine @Together.retry srv ndb fuel n w {executed with inst := {executed.inst with
          stats := {executed.inst.stats with
            totalRetryMs := executed.inst.stats.totalRetryMs + backOff n
            tempErrors := executed.inst.stats.tempErrors + 1}}} l retrying.stays ?_
          (ih (n + 1) _ ?_ _ next ?_ (.inl (by omega)) (by omega))
        · rw [execCommit,Prog.bind_ok _ ran,if_pos again,backOff_product,if_pos left,← longer]
          rfl
        · exact (congrArg Instance.tx same).trans isOpen
        · rw [turn]
          exact ⟨by rw [UInt32.ofNat_add,same,counts.retryMs,word],
            by rw [UInt32.ofNat_add,same,counts.errors]; rfl,
            by rw [same,counts.timeouts]⟩
      · have ends := retrying.leave (UInt32.ofNat srv.maxRetryMs) (outcome ndb) time
          fun _ => by omega
        refine ⟨1,true,{executed with inst := {executed.inst with
          stats := {executed.inst.stats with
            tempTimeouts := executed.inst.stats.tempTimeouts + 1}}},?_⟩
        rw [execCommitTurns_first _ _ _ _ retrying.stays,execCommitTurns_zero,ends,if_pos again]
        refine ⟨?_,rfl,iff_of_true rfl rfl,?_⟩
        · rw [execCommit,Prog.bind_ok _ ran,if_pos again,backOff_product,if_neg left,retrying.counts]
          rfl
        · exact ⟨by rw [same,counts.retryMs],by rw [same,counts.errors],
            by rw [UInt32.ofNat_add,same,counts.timeouts]; rfl⟩
    · have ends := retrying.leave (UInt32.ofNat srv.maxRetryMs) (outcome ndb) time
        fun failed => absurd failed again
      refine ⟨1,false,executed,?_⟩
      rw [execCommitTurns_first _ _ _ _ retrying.stays,execCommitTurns_zero,ends,if_neg again]
      refine ⟨?_,rfl,?_,?_⟩
      · rw [execCommit,Prog.bind_ok _ ran,if_neg again,retrying.counts]
        rfl
      · rw [retrying.code]
        decide
      · exact ⟨by rw [same,counts.retryMs],by rw [same,counts.errors],by rw [same,counts.timeouts]⟩

/-- `exec_commit`, as `ExecuteAll` runs it: what it returns, and what it counts. -/
theorem execCommit_loop (small : srv.maxRetryMs < 2 ^ 31) (w : World) (t : Nat)
    (isOpen : w.inst.tx = some t) :
    Together srv ndb (srv.maxRetryMs + 1) 0 w (beginLoop (UInt32.ofNat w.inst.stats.totalRetryMs)
      (UInt32.ofNat w.inst.stats.tempErrors) (UInt32.ofNat w.inst.stats.tempTimeouts)) :=
  execCommit_together srv ndb small _ 0 w t isOpen _ _ (beginLoop_retrying _ _ _) ⟨rfl,rfl,rfl⟩
    (.inr rfl) (by rw [Retries.waited_zero]; omega)

end

/-- The microseconds that a `timeval` denotes. -/
def Timeval.micros (t : Timeval) : Int := t.sec * 1000000 + t.usec

def Timeval.Valid (t : Timeval) : Prop := 0 ≤ t.usec ∧ t.usec < 1000000

instance (t : Timeval) : Decidable t.Valid := inferInstanceAs (Decidable (_ ∧ _))

/-- Whole seconds are right; the milliseconds of the rest are slept as seconds. -/
theorem milliSleep_meaning (ms : Int32) (positive : 0 ≤ ms.toInt) :
    (milliSleep ms).micros = (ms.toInt / 1000 + ms.toInt % 1000) * 1000000 ∧
      ((milliSleep ms).Valid ↔ ms.toInt % 1000 = 0) := by
  unfold milliSleep Timeval.micros Timeval.Valid
  dsimp only
  rw [Int.tdiv_eq_ediv_of_nonneg positive]
  omega

/-- The loop sleeps what it accounts, and less than its limit. -/
structure SleepsAccounted (maxRetryMs : UInt32) (l : RetryLoop) : Prop where
  each : List.Forall₂ (fun t ms => t.Valid ∧ t.micros = 1000 * (UInt32.toNat ms : Int)) l.selects
    l.accounted
  total : (l.selects.map Timeval.micros).sum = 1000 * (l.totalWaitTime.toNat : Int)
  limited : (l.selects.map Timeval.micros).sum < 1000 * (maxRetryMs.toNat : Int) ∨
    l.selects = [] ∧ maxRetryMs = 0

section
variable (maxRetryMs : UInt32) (outcomes : Nat → Ndb.Error)

theorem unslept_accounted (l : RetryLoop) (wait : l.totalWaitTime = 0) (selects : l.selects = [])
    (accounted : l.accounted = []) : SleepsAccounted maxRetryMs l := by
  refine ⟨?_,?_,?_⟩
  · rw [selects,accounted]
    exact .nil
  · rw [selects,wait]
    rfl
  · rw [selects,← UInt32.toNat_inj]
    have zero : (0 : UInt32).toNat = 0 := rfl
    simp only [List.map_nil,List.sum_nil,true_and]
    omega

section
variable (totalRetryMs tempErrors tempTimeouts : UInt32)

theorem firstTurn_time : (beginLoop totalRetryMs tempErrors tempTimeouts).totalWaitTime +
    sleepMs (beginLoop totalRetryMs tempErrors tempTimeouts).retries < maxRetryMs ↔
      5 < maxRetryMs.toNat :=
  UInt32.lt_iff_toNat_lt

/-- Without time for a retry, or without a temporary error, the first turn is the last. -/
theorem firstTurn_leaves (unretried : (outcomes 0).temporary = false ∨ maxRetryMs.toNat ≤ 5) :
    (execCommitTurn maxRetryMs outcomes (beginLoop totalRetryMs tempErrors tempTimeouts)).left = true ∧
      SleepsAccounted maxRetryMs
        (execCommitTurn maxRetryMs outcomes (beginLoop totalRetryMs tempErrors tempTimeouts)) := by
  have began : (beginLoop totalRetryMs tempErrors tempTimeouts).executed = 0 := rfl
  unfold execCommitTurn
  rw [began]
  by_cases again : (outcomes 0).temporary = true
  · have late : maxRetryMs.toNat ≤ 5 := unretried.resolve_left (by rw [again]; decide)
    rw [if_pos again]
    dsimp only
    rw [if_neg (mt (firstTurn_time maxRetryMs _ _ _).mp (Nat.not_lt_of_le late))]
    exact ⟨rfl,unslept_accounted maxRetryMs _ rfl rfl rfl⟩
  · rw [if_neg again]
    exact ⟨rfl,unslept_accounted maxRetryMs _ rfl rfl rfl⟩

/-- The first retry is slept for five seconds. -/
theorem firstTurn_sleeps (again : (outcomes 0).temporary = true) (time : 5 < maxRetryMs.toNat) :
    (execCommitTurn maxRetryMs outcomes (beginLoop totalRetryMs tempErrors tempTimeouts)).selects =
      [⟨0,5000000⟩] := by
  have began : (beginLoop totalRetryMs tempErrors tempTimeouts).executed = 0 := rfl
  have five : milliSleep (sleepMs 0).toInt32 = ⟨0,5000000⟩ := by decide
  unfold execCommitTurn
  rw [began,if_pos again]
  dsimp only
  rw [if_pos ((firstTurn_time maxRetryMs _ _ _).mpr time)]
  exact congrArg (fun t => [t]) five

/-- In every run of the loop the sleeps are what is accounted, exactly if there is no retry: the
first outcome is not a temporary error, or there is no time for one retry. -/
theorem sleepsAccounted_iff :
    (∀ turns, SleepsAccounted maxRetryMs (execCommitTurns maxRetryMs outcomes turns
        (beginLoop totalRetryMs tempErrors tempTimeouts))) ↔
      ((outcomes 0).temporary = false ∨ maxRetryMs.toNat ≤ 5) := by
  constructor
  · intro accounted
    by_contra retried
    obtain ⟨again,time⟩ := not_or.mp retried
    have slept := (accounted 1).each
    rw [execCommitTurns_first _ _ _ _ rfl,execCommitTurns_zero,firstTurn_sleeps maxRetryMs outcomes
      _ _ _ (Bool.eq_true_of_not_eq_false again) (Nat.lt_of_not_le time)] at slept
    obtain ⟨ms,_,first,_,_⟩ := List.forall₂_cons_left_iff.mp slept
    exact absurd first.1 (by decide)
  · intro unretried turns
    obtain ⟨left,accounted⟩ := firstTurn_leaves maxRetryMs outcomes totalRetryMs tempErrors
      tempTimeouts unretried
    cases turns with
    | zero => exact unslept_accounted maxRetryMs _ rfl rfl rfl
    | succ turns =>
      rw [execCommitTurns_first _ _ _ _ rfl,execCommitTurns_left _ _ _ left]
      exact accounted

end

end

/-- One temporary error, and a second to retry. -/
theorem slept_too_long : ¬∀ turns, SleepsAccounted 1000 (execCommitTurns 1000
    (fun n => if n = 0 then ⟨true,.misc,0,[]⟩ else ⟨false,.noError,0,[]⟩) turns (beginLoop 0 0 0)) := by
  intro accounted
  have slept := (accounted 2).each
  have passed : (execCommitTurns 1000
      (fun n => if n = 0 then ⟨true,.misc,0,[]⟩ else ⟨false,.noError,0,[]⟩) 2
      (beginLoop 0 0 0)).selects = [⟨0,5000000⟩] := by decide
  rw [passed] at slept
  cases slept with
  | cons first _ => exact absurd first.1 (by decide)

end ModNdb.Query
