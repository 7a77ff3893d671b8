import ModNdb.Format.Rendered

/-! `ScanLoop::Run` over whatever NDB answers: rows from NDB or from its cache, the end of
either, and errors. -/
namespace ModNdb.Format
open MySQL (Printers)

/-- What `nextResult` comes back with: 0, 1, 2 and -1. -/
inductive Answer
  | row (row : Row)
  | endOfScan
  | endOfCache
  | error

/-- A page under construction and the answers NDB has still to give. -/
structure Scan where
  page : Page
  answers : List Answer

abbrev Scanning (α : Type) := Prog Stop Scan α

def onPage {α : Type} (x : Build α) : Scanning α := fun sc =>
  ((x sc.page).1,{sc with page := (x sc.page).2})

/-- `nextResult(fetchAllowed) == 0`: a row is current then. The answer is NDB's. -/
def answered : Scanning Bool := fun sc =>
  match sc.answers with
  | [] => (.ok false,sc)
  | .row row::answers =>
    (.ok true,⟨{sc.page with cursor := {sc.page.cursor with current := row}},answers⟩)
  | _::answers => (.ok false,{sc with answers})

/-- The inner loop of `ScanLoop::Run`. -/
def cacheLoop (row : Nat → Build Unit) : Nat → Nat → Scanning Nat
  | 0, _ => Prog.fail .outOfFuel
  | fuel + 1, nrows => do
    onPage (row nrows)
    if ← answered then cacheLoop row fuel (nrows + 1) else return nrows + 1

def fetchLoop (row : Nat → Build Unit) : Nat → Nat → Scanning Nat
  | 0, _ => Prog.fail .outOfFuel
  | fuel + 1, nrows => do
    if ← answered then
      fetchLoop row fuel (← cacheLoop row (fuel + 1) nrows)
    else return nrows

section
variable (s : Sentinels) (data : DataOperation)

/-- `ScanLoop::Run`, given how its core runs. -/
def scanLoopRun (parts : LoopParts) (core : Build Status) : Scanning Status := do
  if data.scanop then
    let sc ← Prog.get
    let nrows ← fetchLoop (scanRow s parts core) (sc.answers.length + 1) 0
    if nrows ≠ 0 then onPage (chainText s parts.end_)
    return if nrows ≠ 0 then .ok else .notFound
  else onPage core

/-- `MainLoop::Run` over a scan. -/
def mainLoopRun (parts : LoopParts) (core : Scanning Status) : Scanning Status := do
  onPage (print (parts.begin.first s).string)
  let status ← core
  onPage (print (parts.end_.first s).string)
  return status

end

def fromCache : List Answer → List Row × List Answer
  | [] => ([],[])
  | .row row::answers => (row::(fromCache answers).1,(fromCache answers).2)
  | _::answers => ([],answers)

/-- The rows the loops are given, the inner one being in its cache. -/
def delivered : Bool → List Answer → List Row
  | _, [] => []
  | _, .row row::answers => row::delivered true answers
  | true, _::answers => delivered false answers
  | false, _ => []

def erred : Bool → List Answer → Bool
  | _, [] => false
  | _, .row _::answers => erred true answers
  | _, .error::_ => true
  | true, _::answers => erred false answers
  | false, _ => false

theorem fromCache_length (answers : List Answer) :
    (fromCache answers).2.length ≤ answers.length := by
  induction answers with
  | nil => exact Nat.le_refl 0
  | cons answer answers ih =>
    cases answer with
    | row row => exact Nat.le_succ_of_le ih
    | _ => exact Nat.le_succ _

theorem delivered_fromCache (answers : List Answer) :
    delivered true answers = (fromCache answers).1 ++ delivered false (fromCache answers).2 := by
  induction answers with
  | nil => rfl
  | cons answer answers ih =>
    cases answer with
    | row row => exact congrArg (List.cons row) ih
    | _ => rfl

def overRows (step : Nat → Build Unit) : Nat → List Row → Build Unit
  | _, [] => pure ()
  | n, row::rows => do
    Prog.modify fun p => {p with cursor := {p.cursor with current := row}}
    step n
    overRows step (n + 1) rows

theorem overRows_append (step : Nat → Build Unit) (n : Nat) (a b : List Row) (p q : Page)
    (ran : overRows step n (a ++ b) p = (.ok (),q)) :
    ∃ r, overRows step n a p = (.ok (),r) ∧ overRows step (n + a.length) b r = (.ok (),q) := by
  induction a generalizing n p with
  | nil => exact ⟨p,rfl,ran⟩
  | cons row a ih =>
    obtain ⟨_,first,placed,rest⟩ := Prog.bind_inv ran
    obtain ⟨_,second,stepped,more⟩ := Prog.bind_inv rest
    obtain ⟨r,front,back⟩ := ih (n + 1) second more
    refine ⟨r,?_,?_⟩
    · unfold overRows
      rw [Prog.bind_ok _ placed,Prog.bind_ok _ stepped]
      exact front
    · rw [List.length_cons,Nat.add_comm a.length,← Nat.add_assoc]
      exact back

section
variable (step : Nat → Build Unit)

theorem onPage_ok {α : Type} (x : Build α) (a : α) (p q : Page) (answers : List Answer)
    (ran : x p = (.ok a,q)) : onPage x ⟨p,answers⟩ = (.ok a,⟨q,answers⟩) := by
  unfold onPage
  dsimp only
  rw [ran]

/-- The inner loop is a pass over the rows that are cached. -/
theorem cacheLoop_overRows (fuel n : Nat) (answers : List Answer) (p q r : Page)
    (enough : answers.length < fuel) (first : step n p = (.ok (),q))
    (rest : overRows step (n + 1) (fromCache answers).1 q = (.ok (),r)) :
    cacheLoop step fuel n ⟨p,answers⟩ =
      (.ok (n + 1 + (fromCache answers).1.length),⟨r,(fromCache answers).2⟩) := by
  induction fuel generalizing n answers p q with
  | zero => omega
  | succ fuel ih =>
    unfold cacheLoop
    rw [Prog.bind_ok _ (onPage_ok _ () p q answers first)]
    have stops (left : List Answer) (asked : answered ⟨q,answers⟩ = (.ok false,⟨q,left⟩))
        (none : fromCache answers = ([],left)) : (answered >>= fun more =>
          if more then cacheLoop step fuel (n + 1) else return n + 1) ⟨q,answers⟩ =
        (.ok (n + 1 + (fromCache answers).1.length),⟨r,(fromCache answers).2⟩) := by
      rw [none] at rest ⊢
      obtain ⟨_,rfl⟩ := Prod.mk.inj rest
      rw [Prog.bind_ok _ asked]
      rfl
    cases answers with
    | nil => exact stops [] rfl rfl
    | cons answer answers =>
      cases answer with
      | row row =>
        obtain ⟨_,placed,here,more⟩ := Prog.bind_inv rest
        obtain ⟨_,last,stepped,behind⟩ := Prog.bind_inv more
        cases here
        have asked : answered ⟨q,.row row::answers⟩ =
            (.ok true,⟨{q with cursor := {q.cursor with current := row}},answers⟩) := rfl
        rw [Prog.bind_ok _ asked]
        rw [if_pos rfl,ih (n + 1) answers _ last (Nat.lt_of_succ_lt_succ enough) stepped behind]
        have size : (fromCache (.row row::answers)).1.length = (fromCache answers).1.length + 1 := rfl
        rw [size,Nat.add_assoc (n + 1),Nat.add_comm 1]
        rfl
      | _ => exact stops answers rfl rfl

/-- Both loops are one pass over the rows that are delivered, none left out or repeated. -/
theorem fetchLoop_overRows (fuel n : Nat) (answers : List Answer) (p q : Page)
    (enough : answers.length < fuel)
    (ran : overRows step n (delivered false answers) p = (.ok (),q)) :
    ∃ left, fetchLoop step fuel n ⟨p,answers⟩ =
      (.ok (n + (delivered false answers).length),⟨q,left⟩) := by
  induction fuel generalizing n answers p with
  | zero => omega
  | succ fuel ih =>
    unfold fetchLoop
    cases answers with
    | nil =>
      obtain ⟨_,rfl⟩ := Prod.mk.inj ran
      exact ⟨[],rfl⟩
    | cons answer answers =>
      cases answer with
      | row row =>
        obtain ⟨_,_,here,more⟩ := Prog.bind_inv ran
        obtain ⟨_,middle,stepped,behind⟩ := Prog.bind_inv more
        cases here
        rw [delivered_fromCache] at behind
        obtain ⟨last,cached,later⟩ := overRows_append step _ _ _ _ _ behind
        have asked : answered ⟨p,.row row::answers⟩ =
            (.ok true,⟨{p with cursor := {p.cursor with current := row}},answers⟩) := rfl
        have short : answers.length < fuel := Nat.lt_of_succ_lt_succ enough
        have inner := cacheLoop_overRows step (fuel + 1) n answers _ middle last
          (Nat.lt_succ_of_lt short) stepped cached
        obtain ⟨left,outer⟩ := ih _ (fromCache answers).2 last
          (Nat.lt_of_le_of_lt (fromCache_length answers) short) later
        refine ⟨left,?_⟩
        rw [Prog.bind_ok _ asked,if_pos rfl,Prog.bind_ok _ inner,outer]
        have size : (delivered false (.row row::answers)).length =
            (fromCache answers).1.length + (delivered false (fromCache answers).2).length + 1 := by
          rw [← List.length_append,← delivered_fromCache]
          rfl
        rw [size,show n + 1 + (fromCache answers).1.length +
          (delivered false (fromCache answers).2).length = n + ((fromCache answers).1.length +
            (delivered false (fromCache answers).2).length + 1) from by omega]
      | _ =>
        obtain ⟨_,rfl⟩ := Prod.mk.inj ran
        exact ⟨answers,rfl⟩

end

end ModNdb.Format
