import ModNdb.NSql.Productions

/-! The parser over whole runs: what it accepts, and how far it goes on after errors. -/
namespace ModNdb.NSql
open Config (Dir Setup)
open Prog (Moves Steps)

def Parsing.start (input : List Token) (dir : Dir) : Parsing :=
  {Parsing.init input dir with t := ⟨.noSym,text "Dummy Token"⟩, ahead := input, errDist := 3}

theorem start_clean (input : List Token) (dir : Dir) (tame : Tame input) :
    (Parsing.start input dir).Clean := ⟨rfl,Nat.le_succ 2,tame⟩

theorem parse_tame (input : List Token) (dir : Dir) (tame : Tame input) :
    parse input dir = nsql (.start input dir) := by
  unfold parse
  have got : getToken (.init input dir) = (.ok (),.start input dir) := if_neg tame
  exact Prog.bind_ok _ got

theorem parse_wild (input : List Token) (dir : Dir) (wild : ¬Tame input) :
    parse input dir = (.error (.crash .wildPointer),.start input dir) := by
  unfold parse
  have got : getToken (.init input dir) = (.error (.crash .wildPointer),.start input dir) :=
    if_pos (not_not.mp wild)
  exact Prog.bind_error _ got

theorem compileQuery_ok (query : Text) (dir dir' : Dir) : compileQuery query dir = (.ok (),dir') ↔
    ∃ q : Parsing, parse (sqlTokens query) dir = (.ok (),q) ∧ q.count = 0 ∧ q.dir = dir' := by
  unfold compileQuery
  rcases parse (sqlTokens query) dir with ⟨(⟨⟩ | why) | u,q⟩
  · simp
  · simp
  · by_cases none : q.count = 0
    · simp [none]
    · simp [none]

/-- The parser accepts what begins with a query whose actions the configuration accepts. -/
theorem compileQuery_tokens (query : Text) (dir dir' : Dir) : compileQuery query dir = (.ok (),dir') ↔
    ∃ q used rest, sqlTokens query = used ++ rest ∧ Tame rest ∧ Grammar.nsql q used ∧
      q.run dir = (.ok (),dir') := by
  rw [compileQuery_ok]
  constructor
  · rintro ⟨p,ran,none,rfl⟩
    by_cases tame : Tame (sqlTokens query)
    · rw [parse_tame _ _ tame] at ran
      obtain ⟨clean,q,used,read,spelled,acted,_⟩ :=
        nsql_refines.sound _ _ (start_clean _ dir tame) trivial ran none
      exact ⟨q,used,p.ahead,read,clean.tame,spelled,acted⟩
    · rw [parse_wild _ _ tame] at ran
      cases ran
  · rintro ⟨q,used,rest,read,tame,spelled,acted⟩
    have start : Tame (sqlTokens query) := by
      rw [read]
      exact nsql_refines.tame q used rest spelled tame
    obtain ⟨p,ran,clean,_,rfl,_⟩ := nsql_refines.complete _ q used rest dir' (start_clean _ dir start)
      trivial read spelled tame acted
    exact ⟨p,by rw [parse_tame _ _ start,ran],clean.none,rfl⟩

/-- What is left to be read, with two for each error and as many for the tokens since the last one. -/
def Parsing.budget (p : Parsing) : Nat := 2 * p.count + min p.errDist 2 + p.ahead.length

def Advances (p q : Parsing) : Prop := q.ahead.length ≤ p.ahead.length ∧ q.budget ≤ p.budget

instance : IsPreorder Parsing Advances where
  refl _ := ⟨Nat.le_refl _,Nat.le_refl _⟩
  trans _ _ _ first second := ⟨second.1.trans first.1,second.2.trans first.2⟩

theorem report_advances (p : Parsing) : Advances p p.report := by
  unfold Advances Parsing.budget Parsing.report
  dsimp only
  split <;> omega

structure Halts (x : Production) : Prop where
  steps : Steps Advances x
  stops : Prog.Stops (· ≠ .outOfFuel) x

section
variable {x y : Production} {kind : Kind}

theorem Halts.bind {rest : Unit → Production} (first : Halts x) (second : ∀ u, Halts (rest u)) :
    Halts (x >>= rest) :=
  ⟨first.steps.bind fun u => (second u).steps,first.stops.bind fun u => (second u).stops⟩

theorem Halts.get {rest : Parsing → Production} (each : ∀ p, Halts (rest p)) :
    Halts (Prog.get >>= rest) :=
  ⟨Steps.get fun p => (each p).steps,Prog.Stops.get fun p => (each p).stops⟩

theorem Halts.branch (yes : Halts x) (no : Halts y) : Halts (branch kind x y) :=
  .get fun _ => ⟨Steps.ite yes.steps no.steps,Prog.Stops.ite (fun _ => yes.stops) fun _ => no.stops⟩

theorem Halts.nothing : Halts nothing := ⟨Steps.pure _,Prog.Stops.pure _⟩

theorem Halts.set (change : Token → Vars → Vars) : Halts (set change) :=
  ⟨Steps.modify fun _ => ⟨Nat.le_refl _,Nat.le_refl _⟩,Prog.Stops.modify _⟩

theorem Halts.synErr : Halts synErr := ⟨Steps.modify report_advances,Prog.Stops.modify _⟩

theorem Halts.act (action : Token → Vars → Setup Unit) : Halts (act action) := by
  constructor
  · intro p
    refine ⟨?_,fun _ _ => trivial⟩
    unfold NSql.act
    rcases action p.t p.vars p.dir with ⟨(⟨message⟩ | ⟨why⟩) | u,dir⟩
    · exact report_advances {p with dir}
    · exact ⟨Nat.le_refl _,Nat.le_refl _⟩
    · exact ⟨Nat.le_refl _,Nat.le_refl _⟩
  · intro p why stopped
    unfold NSql.act at stopped
    rcases acted : action p.t p.vars p.dir with ⟨(⟨message⟩ | ⟨why⟩) | u,dir⟩ <;> rw [acted] at stopped <;>
      cases stopped
    nofun

/-- A token in front of the end is read. -/
theorem getToken_advances (p : Parsing) (some : p.ahead ≠ []) :
    (getToken p).2.ahead.length < p.ahead.length ∧ Advances p (getToken p).2 ∧
      ∀ why, (getToken p).1 = .error why → why ≠ .outOfFuel := by
  obtain ⟨t,ahead,there⟩ := List.exists_cons_of_ne_nil some
  have next : (getToken p).2.ahead = ahead ∧ (getToken p).2.count = p.count ∧
      (getToken p).2.errDist = p.errDist + 1 ∧ ∀ why, (getToken p).1 = .error why → why ≠ .outOfFuel := by
    unfold getToken
    dsimp only
    rw [there]
    split
    · exact ⟨rfl,rfl,rfl,by rintro _ ⟨⟩; nofun⟩
    · exact ⟨rfl,rfl,rfl,nofun⟩
  unfold Advances Parsing.budget
  rw [next.1,next.2.1,next.2.2.1,there,List.length_cons]
  exact ⟨by omega,⟨by omega,by omega⟩,next.2.2.2⟩

theorem laKind_some {ahead : List Token} (there : laKind ahead ≠ .eof) : ahead ≠ [] := by
  rintro rfl
  exact there rfl

theorem Halts.expect (some : kind ≠ .eof) : Halts (expect kind) := by
  constructor
  · intro p
    refine ⟨?_,fun _ _ => trivial⟩
    unfold NSql.expect
    rw [branch_run]
    split
    · next there => exact (getToken_advances p (laKind_some (there ▸ some))).2.1
    · exact report_advances p
  · intro p why stopped
    unfold NSql.expect at stopped
    rw [branch_run] at stopped
    split at stopped
    · next there => exact (getToken_advances p (laKind_some (there ▸ some))).2.2 why stopped
    · cases stopped

theorem Halts.taken {rest : Unit → Production} (some : kind ≠ .eof) (yes : ∀ u, Halts (rest u))
    (no : Halts y) : Halts (NSql.branch kind (getToken >>= rest) y) := by
  rw [branch_taken]
  exact .branch ((Halts.expect some).bind yes) no

theorem furtherItems_halts {separator : Kind} (some : separator ≠ .eof) (item : Halts x) (fuel : Nat)
    (p : Parsing) (enough : p.ahead.length < fuel) :
    Advances p (furtherItems separator x fuel p).2 ∧
      ∀ why, (furtherItems separator x fuel p).1 = .error why → why ≠ .outOfFuel := by
  induction fuel generalizing p with
  | zero => exact absurd enough (Nat.not_lt_zero _)
  | succ fuel ih =>
    have unfolded : furtherItems separator x (fuel + 1) = NSql.branch separator
        (getToken >>= fun _ => x >>= fun _ => furtherItems separator x fuel) nothing := rfl
    rw [unfolded,branch_run]
    by_cases next : laKind p.ahead = separator
    · rw [if_pos next]
      obtain ⟨less,moved,halts⟩ := getToken_advances p (laKind_some (next ▸ some))
      rcases got : getToken p with ⟨why | u,m⟩
      · rw [got] at moved halts
        rw [Prog.bind_error _ got]
        exact ⟨moved,halts⟩
      · rw [got] at less moved
        rw [Prog.bind_ok _ got]
        have moved' := (item.steps m).1
        have halts' := item.stops m
        rcases read : x m with ⟨why | u,n⟩
        · rw [read] at moved' halts'
          rw [Prog.bind_error _ read]
          exact ⟨Trans.trans moved moved',halts'⟩
        · rw [read] at moved'
          rw [Prog.bind_ok _ read]
          have below : n.ahead.length < p.ahead.length := Nat.lt_of_le_of_lt moved'.1 less
          obtain ⟨moved'',halts''⟩ := ih n (by omega)
          exact ⟨Trans.trans moved (Trans.trans moved' moved''),halts''⟩
    · rw [if_neg next]
      exact ⟨refl p,nofun⟩

theorem Halts.further {separator : Kind} (some : separator ≠ .eof) (item : Halts x) :
    Halts (further separator x) := by
  constructor
  · intro p
    exact ⟨(furtherItems_halts some item _ p (Nat.lt_succ_self _)).1,fun _ _ => trivial⟩
  · intro p why stopped
    exact (furtherItems_halts some item _ p (Nat.lt_succ_self _)).2 why stopped

theorem indexValue_halts : Halts indexValue := by
  unfold indexValue
  have value (change : Token → Vars → Vars) : Halts (expect .name >>= fun _ => set change) :=
    (Halts.expect (by decide)).bind fun _ => .set _
  exact .bind (.taken (by decide) (fun _ => value _) (.branch (value _) (.taken (by decide) (fun _ => .set _)
    (.taken (by decide) (fun _ => .set _) .synErr)))) fun _ => .act _

theorem valueList_halts : Halts valueList :=
  .bind (.set _) fun _ => indexValue_halts.bind fun _ => .further (by decide) indexValue_halts

theorem oneRowWhereClause_halts : Halts oneRowWhereClause := by
  have index (idxtype : UInt8) : Halts (buildIndex idxtype) := .act _
  have named : Halts (expect .name >>= fun _ =>
      (set fun t vars => {vars with idxname := some t.copy}) >>= fun _ => buildIndex (code 'U')) :=
    (Halts.expect (by decide)).bind fun _ => (Halts.set _).bind fun _ => index _
  refine (Halts.expect (by decide)).bind fun _ => .bind (.taken (by decide) (fun _ => ?_)
    (.taken (by decide) (fun _ => ?_) (Halts.synErr.bind fun _ => index _)))
    fun _ => (Halts.expect (by decide)).bind fun _ => valueList_halts
  · exact (Halts.expect (by decide)).bind fun _ => (Halts.set _).bind fun _ => index _
  · exact (Halts.expect (by decide)).bind fun _ => named

theorem condition_halts : Halts condition := by
  have relop : Halts relop :=
    .taken (by decide) (fun _ => .set _) (.taken (by decide) (fun _ => .set _)
      (.taken (by decide) (fun _ => .set _) (.taken (by decide) (fun _ => .set _)
        (.taken (by decide) (fun _ => .set _) .synErr))))
  exact (Halts.expect (by decide)).bind fun _ => (Halts.set _).bind fun _ => relop.bind fun _ =>
    indexValue_halts

theorem indexScan_halts : Halts indexScan := by
  have bounds : Halts whereClause :=
    (Halts.expect (by decide)).bind fun _ => (Halts.act _).bind fun _ => (Halts.set _).bind fun _ =>
      condition_halts.bind fun _ => .further (by decide) condition_halts
  have whole : Halts wholeIndex := .act _
  have primary : Halts (branch (.word .primary) getToken nothing) := by
    rw [branch_get]
    exact .branch (.expect (by decide)) .nothing
  exact (Halts.expect (by decide)).bind fun _ => (Halts.expect (by decide)).bind fun _ =>
    .bind (.taken (by decide) (fun _ => .set _) primary) fun _ =>
      .branch bounds (.branch whole (.branch whole .synErr))

theorem queryPlan_halts : Halts queryPlan := by
  have order : Halts order := .taken (by decide) (fun _ => .act _) (.taken (by decide) (fun _ => .act _) .synErr)
  have ordered : Halts (indexScan >>= fun _ => branch (.word .order) (getToken >>= fun _ => NSql.order)
      nothing) :=
    indexScan_halts.bind fun _ => .taken (by decide) (fun _ => order) .nothing
  have scan : Halts scanPlan :=
    (Halts.expect (by decide)).bind fun _ => (Halts.set _).bind fun _ =>
      .taken (by decide) (fun _ => (Halts.expect (by decide)).bind fun _ => .act _)
        (.branch ordered .synErr)
  exact .branch oneRowWhereClause_halts (.branch scan .synErr)

theorem tableSpec_halts : Halts tableSpec :=
  .bind (.taken (by decide) (fun _ => (Halts.act _).bind fun _ => .expect (by decide)) .nothing) fun _ =>
    (Halts.expect (by decide)).bind fun _ => .act _

theorem column_halts : Halts column :=
  (Halts.expect (by decide)).bind fun _ => .get fun _ =>
    .taken (by decide) (fun _ => (Halts.expect (by decide)).bind fun _ => .act _) (.act _)

theorem nsql_halts : Halts nsql := by
  have columns : Halts (branch (.mark .star)
      (getToken >>= fun _ => act fun _ _ => Prog.modify fun dir => {dir with selectStar := true})
      (branch .name (column >>= fun _ => further (.mark .comma) column) synErr)) :=
    .taken (by decide) (fun _ => .act _)
      (.branch (column_halts.bind fun _ => .further (by decide) column_halts) .synErr)
  have select : Halts selectQuery :=
    (Halts.expect (by decide)).bind fun _ => columns.bind fun _ => (Halts.expect (by decide)).bind fun _ =>
      tableSpec_halts.bind fun _ => .branch queryPlan_halts (.branch queryPlan_halts .nothing)
  have delete : Halts deleteQuery :=
    (Halts.expect (by decide)).bind fun _ => (Halts.expect (by decide)).bind fun _ =>
      tableSpec_halts.bind fun _ => oneRowWhereClause_halts.bind fun _ => .act _
  exact .bind (.branch select (.branch delete (.branch queryPlan_halts (.branch queryPlan_halts .synErr))))
    fun _ => .expect (by decide)

end

/-- Whatever stands in the buffer, the parser comes to an end, and it counts at most one error for two
tokens after the first one. -/
theorem parse_bounded (input : List Token) (dir : Dir) : (parse input dir).1 ≠ .error .outOfFuel ∧
    2 * (parse input dir).2.count ≤ input.length + 2 := by
  by_cases tame : Tame input
  · rw [parse_tame input dir tame]
    refine ⟨fun stopped => nsql_halts.stops _ _ stopped rfl,?_⟩
    have within : (nsql (.start input dir)).2.budget ≤ (Parsing.start input dir).budget :=
      (nsql_halts.steps _).1.2
    have start : (Parsing.start input dir).budget = 2 + input.length := rfl
    unfold Parsing.budget at within start
    omega
  · rw [parse_wild input dir tame]
    exact ⟨nofun,Nat.zero_le _⟩

end ModNdb.NSql
