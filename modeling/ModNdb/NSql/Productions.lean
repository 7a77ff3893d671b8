import ModNdb.NSql.Reading

/-! Every production of the parser reads the phrases of NSQL.atg, and acts on the configuration as the
tree of the query says. -/
namespace ModNdb.NSql
open Config (Condition IndexValue Lookup QueryPlan RelOp Setup TableSpec)
open Grammar (First among)
open Phrase (empty list many never optional)

structure Indexed (idxname : Text) (bounded : Bool → Prop) (vars : Vars) : Prop where
  name : vars.idxname = some idxname
  bounded : bounded vars.isBounded

structure Comparing (idxname : Text) (bounded : Bool → Prop) (base : Text) (relOp : Nat) (vars : Vars) :
    Prop extends Indexed idxname bounded vars where
  column : vars.baseColName = base
  operator : vars.relOp = relOp

structure Holding (idxname : Text) (bounded : Bool → Prop) (base : Text) (relOp : Nat) (value : IndexValue)
    (vars : Vars) : Prop extends Comparing idxname bounded base relOp vars where
  isConst : vars.isConst = some (value.expr base relOp).isConst
  value : vars.value = (value.expr base relOp).value

def Behind (separator : Kind) (ahead : List Token) : Prop := Tame ahead ∧ laKind ahead ≠ separator

theorem apart {kind other : Kind} (different : other ≠ kind) (ahead : List Token)
    (next : laKind ahead = other) : laKind ahead ≠ kind := fun same => different (next.symm.trans same)

section
variable {idxname base : Text} {bounded : Bool → Prop} {relOp : Nat} {given : Vars → Prop}

theorem copied_refines {kind : Kind} (some : kind ≠ .eof) (plain : kind ≠ .wild) :
    Refines (fun _ => given) (expect kind) ((Grammar.token kind).map Token.copy) (fun _ => pure ())
      (fun name t vars => t.copy = name ∧ given vars) Tame :=
  (Refines.expect some plain).map Token.copy (fun _ => rfl)
    fun _ _ _ both => ⟨congrArg Token.copy both.1,both.2⟩

theorem name_refines : Refines (fun _ => given) (expect .name) Grammar.name (fun _ => pure ())
    (fun name t vars => t.copy = name ∧ given vars) Tame := copied_refines (by decide) (by decide)

theorem value_refines (kind : Kind) (value : Token → IndexValue) (isConst : Bool) (some : kind ≠ .eof)
    (plain : kind ≠ .wild) (same : ∀ t, (value t).expr base relOp = ⟨base,relOp,isConst,t.copy⟩) :
    Refines (fun _ => Comparing idxname bounded base relOp)
      (expect kind >>= fun _ => set fun t vars => {vars with isConst := .some isConst, value := t.copy})
      ((Grammar.token kind).map value) (fun _ => pure ())
      (fun value _ => Holding idxname bounded base relOp value) Tame := by
  have held (token : Token) :
      Refines (fun t vars => t = token ∧ Comparing idxname bounded base relOp vars)
        (set fun t vars => {vars with isConst := .some isConst, value := t.copy}) empty (fun _ => pure ())
        (fun _ _ => Holding idxname bounded base relOp (value token)) Tame := by
    refine .set ?_ fun _ => id
    rintro t vars ⟨rfl,comparing⟩
    exact ⟨⟨⟨comparing.name,comparing.bounded⟩,comparing.column,comparing.operator⟩,by rw [same],
      by rw [same]⟩
  exact (Refines.taken some plain held).map value (fun _ => rfl) fun _ _ _ => id

theorem indexValue_refines : Refines (fun _ => Comparing idxname bounded base relOp) indexValue
    Grammar.indexValue (fun value => Config.indexCondition idxname (value.expr base relOp))
    (fun _ _ => Comparing idxname bounded base relOp) Tame := by
  have : Nonempty IndexValue := ⟨.param []⟩
  have value : Refines (fun _ => Comparing idxname bounded base relOp)
      (branch (.mark .dollar)
        (expect (.mark .dollar) >>= fun _ => expect .name >>= fun _ =>
          set fun t vars => {vars with isConst := some false, value := t.copy})
        (branch .name
          (expect .name >>= fun _ => set fun t vars => {vars with isConst := some false, value := t.copy})
          (branch .qstring
            (expect .qstring >>= fun _ =>
              set fun t vars => {vars with isConst := some true, value := t.copy})
            (branch .number
              (expect .number >>= fun _ =>
                set fun t vars => {vars with isConst := some true, value := t.copy}) synErr))))
      Grammar.indexValue (fun _ => pure ()) (fun value _ => Holding idxname bounded base relOp value)
      Tame := by
    unfold Grammar.indexValue Grammar.name
    rw [Phrase.map_map]
    have number : First ((Grammar.token .number).map fun t => IndexValue.const t.copy) [.number] :=
      (First.token _).map
    have name : First ((Grammar.token .name).map (IndexValue.param ∘ Token.copy)) [.name] :=
      (First.token _).map
    refine .branch (.skip (by decide) (by decide) ?_) (.branch ?_ (.branch ?_
      (.only ?_ .synErr number.is) (First.token _).map.is (number.apart (by decide))) name.is
      (((First.token _).map.or number).apart (by decide)))
      (First.token _).next.is ((name.or ((First.token _).map.or number)).apart (by decide))
    · exact value_refines .name _ false (by decide) (by decide) fun _ => rfl
    · exact value_refines .name _ false (by decide) (by decide) fun _ => rfl
    · exact value_refines .qstring _ true (by decide) (by decide) fun _ => rfl
    · exact value_refines .number _ true (by decide) (by decide) fun _ => rfl
  unfold indexValue
  dsimp only
  rw [branch_taken,branch_taken,branch_taken]
  have compares (v : IndexValue) : Refines (fun _ => Holding idxname bounded base relOp v) indexCondition
      empty (fun _ => Config.indexCondition idxname (v.expr base relOp))
      (fun _ _ => Comparing idxname bounded base relOp) Tame := by
    refine (Refines.act ?_ fun _ => id).leaving fun _ _ _ => Holding.toComparing
    intro t vars holding
    unfold withIdxname
    rw [holding.name,holding.isConst,holding.value,holding.column,holding.operator]
    cases v <;> rfl
  exact value.also compares

theorem valueList_refines : Refines (fun _ => Indexed idxname bounded) valueList Grammar.valueList
    (fun values => values.forM fun value => Config.indexCondition idxname (value.expr [] 4))
    (fun _ _ => Indexed idxname bounded) (Behind (.mark .comma)) := by
  have : Nonempty IndexValue := ⟨.param []⟩
  have values : Refines (fun _ => Comparing idxname bounded [] 4)
      (indexValue >>= fun _ => further (.mark .comma) indexValue) Grammar.valueList
      (fun values => values.forM fun value => Config.indexCondition idxname (value.expr [] 4))
      (fun _ _ => Comparing idxname bounded [] 4) (Behind (.mark .comma)) :=
    list_refines (by decide) (by decide) indexValue_refines (apart (by decide))
      fun _ after => ⟨after.1,after.1,after.2⟩
  refine ((Refines.set ?_ fun _ => id).first values).leaving fun _ _ _ => Comparing.toIndexed
  exact fun t vars indexed => ⟨⟨indexed.name,indexed.bounded⟩,rfl,rfl⟩

theorem buildIndex_refines (idxtype : UInt8) : Refines (fun _ => Indexed idxname bounded)
    (buildIndex idxtype) empty (fun _ => Config.buildIndex idxtype idxname)
    (fun _ _ => Indexed idxname bounded) Tame := by
  refine .act (fun t vars indexed => ?_) fun _ => id
  unfold withIdxname
  rw [indexed.name]

def indexName (index : Option Text) : Text := index.getD Config.primaryKeyName

def buildUnique (index : Option Text) : Setup Unit :=
  match index with
  | none => Config.buildIndex (code 'P') Config.primaryKeyName
  | some name => Config.buildIndex (code 'U') name

theorem lookup_run (index : Option Text) (values : List IndexValue) :
    (Grammar.lookup index values).run = buildUnique index >>= fun _ =>
      values.forM fun value => Config.indexCondition (indexName index) (value.expr [] 4) := by
  cases index <;> rfl

theorem uniqueIndex_refines : Refines (fun _ _ => True)
    (branch (.word .primary)
      (expect (.word .primary) >>= fun _ => expect (.word .key) >>= fun _ =>
        (set fun _ vars => {vars with idxname := some Config.primaryKeyName}) >>= fun _ =>
          buildIndex (code 'P'))
      (branch (.word .unique)
        (expect (.word .unique) >>= fun _ => expect (.word .index) >>= fun _ =>
          expect .name >>= fun _ =>
            (set fun t vars => {vars with idxname := some t.copy}) >>= fun _ => buildIndex (code 'U'))
        (synErr >>= fun _ => buildIndex 0)))
    Grammar.uniqueIndex buildUnique (fun index _ => Indexed (indexName index) fun _ => True) Tame := by
  have primary : Refines (fun _ _ => True)
      (expect (.word .key) >>= fun _ =>
        (set fun _ vars => {vars with idxname := some Config.primaryKeyName}) >>= fun _ =>
          buildIndex (code 'P'))
      (Grammar.word .key) (fun _ => Config.buildIndex (code 'P') Config.primaryKeyName)
      (fun _ _ => Indexed Config.primaryKeyName fun _ => True) Tame := by
    refine .taken (by decide) (by decide) fun token => ?_
    exact (Refines.set (fun _ _ _ => ⟨rfl,trivial⟩) fun _ => id).first (buildIndex_refines _)
  have unique : Refines (fun _ _ => True)
      (expect .name >>= fun _ =>
        (set fun t vars => {vars with idxname := some t.copy}) >>= fun _ => buildIndex (code 'U'))
      Grammar.name (Config.buildIndex (code 'U')) (fun name _ => Indexed name fun _ => True) Tame := by
    refine name_refines.also fun name => ?_
    exact (Refines.set (fun t vars given => ⟨congrArg some given.1,trivial⟩) fun _ => id).first
      (buildIndex_refines _)
  refine .branch ?_ (.only ?_ (.synErrThen (act_erring _)) (First.token _).next.map.is)
    (First.token _).next.map.is ((First.token _).next.map.apart (by decide))
  · exact Refines.map (.skip (by decide) (by decide) primary) _ (fun _ => rfl) fun _ _ _ => id
  · exact Refines.map (.skip (by decide) (by decide) (.skip (by decide) (by decide) unique)) _
      (fun _ => rfl) fun _ _ _ => id

theorem uniqueIndexSpec_refines : Refines (fun _ _ => True) uniqueIndexSpec Grammar.uniqueIndexSpec
    Lookup.run (fun _ _ _ => True) (Behind (.mark .comma)) := by
  have values (index : Option Text) : Refines (fun _ => Indexed (indexName index) fun _ => True)
      (expect (.mark .eq) >>= fun _ => valueList) ((Grammar.mark .eq).next Grammar.valueList)
      (fun values => values.forM fun value => Config.indexCondition (indexName index) (value.expr [] 4))
      (fun _ _ => Indexed (indexName index) fun _ => True) (Behind (.mark .comma)) :=
    .skip (by decide) (by decide) valueList_refines
  unfold uniqueIndexSpec
  rw [branch_taken,branch_taken]
  refine (uniqueIndex_refines.seq values).map _ ?_ fun _ _ _ _ => trivial
  exact fun a => lookup_run a.1 a.2

theorem oneRowWhereClause_refines : Refines (fun _ _ => True) oneRowWhereClause Grammar.oneRowWhereClause
    Lookup.run (fun _ _ _ => True) (Behind (.mark .comma)) :=
  .skip (by decide) (by decide) uniqueIndexSpec_refines

theorem operator_refines (m : Mark) (relop : RelOp) :
    Refines (fun _ vars => Indexed idxname bounded vars ∧ vars.baseColName = base)
      (expect (.mark m) >>= fun _ => set fun _ vars => {vars with relOp := relop.value})
      ((Grammar.mark m).map fun _ => relop) (fun _ => pure ())
      (fun relop _ => Comparing idxname bounded base relop.value) Tame := by
  have operator (token : Token) :
      Refines (fun t vars => t = token ∧ Indexed idxname bounded vars ∧ vars.baseColName = base)
        (set fun _ vars => {vars with relOp := relop.value}) empty (fun _ => pure ())
        (fun _ _ => Comparing idxname bounded base relop.value) Tame := by
    refine .set ?_ fun _ => id
    rintro t vars ⟨_,indexed,column⟩
    exact ⟨⟨indexed.name,indexed.bounded⟩,column,rfl⟩
  exact (Refines.taken (by simp) (by simp) operator).map _ (fun _ => rfl) fun _ _ _ => id

theorem relop_refines : Refines (fun _ vars => Indexed idxname bounded vars ∧ vars.baseColName = base) relop
    Grammar.relop (fun _ => pure ()) (fun relop _ => Comparing idxname bounded base relop.value) Tame := by
  have ge : First ((Grammar.mark .ge).map fun _ => RelOp.ge) [.mark .ge] := (First.token _).map
  have gt : First ((Grammar.mark .gt).map fun _ => RelOp.gt) [.mark .gt] := (First.token _).map
  have le : First ((Grammar.mark .le).map fun _ => RelOp.le) [.mark .le] := (First.token _).map
  have lt : First ((Grammar.mark .lt).map fun _ => RelOp.lt) [.mark .lt] := (First.token _).map
  unfold relop
  dsimp only
  rw [branch_taken,branch_taken,branch_taken,branch_taken,branch_taken]
  refine .branch (operator_refines .eq .eq) (.branch (operator_refines .lt .lt)
    (.branch (operator_refines .le .le) (.branch (operator_refines .gt .gt)
      (.only (operator_refines .ge .ge) .synErr ge.is) gt.is (ge.apart (by decide))) le.is
      ((gt.or ge).apart (by decide))) lt.is ((le.or (gt.or ge)).apart (by decide)))
    (First.token _).map.is ((lt.or (le.or (gt.or ge))).apart (by decide))

theorem condition_refines : Refines (fun _ => Indexed idxname bounded) condition Grammar.condition
    (fun c => Config.indexCondition idxname (c.value.expr c.column c.relop.value))
    (fun _ _ => Indexed idxname bounded) Tame := by
  have : Nonempty RelOp := ⟨.eq⟩
  have compared (name : Text) : Refines (fun _ vars => Indexed idxname bounded vars ∧ vars.baseColName = name)
      (relop >>= fun _ => indexValue) (Grammar.relop.seq Grammar.indexValue)
      (fun a => Config.indexCondition idxname (a.2.expr name a.1.value))
      (fun _ _ => Indexed idxname bounded) Tame :=
    (relop_refines.seq fun _ => indexValue_refines).leaving fun _ _ _ => Comparing.toIndexed
  have column (name : Text) : Refines (fun t vars => t.copy = name ∧ Indexed idxname bounded vars)
      (set fun t vars => {vars with baseColName := t.copy}) empty (fun _ => pure ())
      (fun _ _ vars => Indexed idxname bounded vars ∧ vars.baseColName = name) Tame := by
    refine .set ?_ fun _ => id
    rintro t vars ⟨rfl,indexed⟩
    exact ⟨⟨indexed.name,indexed.bounded⟩,rfl⟩
  exact (name_refines.seq fun name => (column name).first (compared name)).map _ (fun _ => rfl)
    fun _ _ _ => id

theorem whereClause_refines : Refines (fun _ => Indexed idxname bounded) whereClause Grammar.whereClause
    (fun conditions => do
      Config.buildIndex (code 'O') idxname
      conditions.forM fun c => Config.indexCondition idxname (c.value.expr c.column c.relop.value))
    (fun _ _ => Indexed idxname (· = true)) (Behind (.word .and_)) := by
  have : Nonempty Condition := ⟨⟨[],.eq,.param []⟩⟩
  have conditions : Refines (fun _ => Indexed idxname (· = true))
      (condition >>= fun _ => further (.word .and_) condition)
      (list (Grammar.word .and_) Grammar.condition)
      (fun conditions =>
        conditions.forM fun c => Config.indexCondition idxname (c.value.expr c.column c.relop.value))
      (fun _ _ => Indexed idxname (· = true)) (Behind (.word .and_)) :=
    list_refines (by decide) (by decide) condition_refines (apart (by decide))
      fun _ after => ⟨after.1,after.1,after.2⟩
  have bound : Refines (fun _ => Indexed idxname bounded)
      (set fun _ vars => {vars with isBounded := true}) empty (fun _ => pure ())
      (fun _ _ => Indexed idxname (· = true)) Tame :=
    .set (fun _ _ indexed => ⟨indexed.name,rfl⟩) fun _ => id
  exact .skip (by decide) (by decide) ((buildIndex_refines _).first (bound.first conditions))

def scanName (index : Option Text) : Text := index.getD (text "PRIMARY")

theorem scanIndex_refines : Refines (fun _ => Indexed (text "PRIMARY") bounded)
    (branch .name
      (expect .name >>= fun _ => set fun t vars => {vars with idxname := some t.copy})
      (branch (.word .primary) (expect (.word .primary)) nothing))
    Grammar.scanIndex (fun _ => pure ()) (fun index _ => Indexed (scanName index) bounded)
    fun ahead => Tame ahead ∧ laKind ahead ≠ .name ∧ laKind ahead ≠ .word .primary := by
  have named : Refines (fun _ => Indexed (text "PRIMARY") bounded)
      (expect .name >>= fun _ => set fun t vars => {vars with idxname := some t.copy}) Grammar.name
      (fun _ => pure ()) (fun name _ => Indexed name bounded) Tame := by
    refine name_refines.also fun name => .set ?_ fun _ => id
    exact fun t vars given => ⟨congrArg some given.1,given.2.bounded⟩
  have primary : Refines (fun _ => Indexed (text "PRIMARY") bounded) (expect (.word .primary))
      (Grammar.word .primary) (fun _ => pure ()) (fun _ _ => Indexed (text "PRIMARY") bounded) Tame :=
    (Refines.expect (by decide) (by decide)).leaving fun _ _ _ => And.right
  have unnamed : Refines (fun _ => Indexed (text "PRIMARY") bounded) nothing empty (fun _ => pure ())
      (fun _ _ => Indexed (text "PRIMARY") bounded) Tame := .nothing fun _ => id
  refine .branch (.map (named.followed fun _ => And.left) some (fun _ => rfl) fun _ _ _ => id)
    (.branch (.map (primary.followed fun _ => And.left) _ (fun _ => rfl) fun _ _ _ => id)
      (.map (unnamed.followed fun _ => And.left) _ (fun _ => rfl) fun _ _ _ => id)
      (First.token _).map.is (.map (.empty fun _ after => after.2.2)))
    Grammar.first_name.map.is (.or ((First.token _).map.apart (by decide))
      (.map (.empty fun _ after => after.2.1)))

theorem wholeIndex_refines : Refines (fun _ => Indexed idxname bounded) wholeIndex empty
    (fun _ => Prog.modify fun dir =>
      {dir with tableScan := true, indexScan := {dir.indexScan with name := some idxname}})
    (fun _ _ => Indexed idxname bounded) Tame := by
  refine .act (fun t vars indexed => ?_) fun _ => id
  unfold withIdxname
  rw [indexed.name]

def scanConditions (idxname : Text) (conditions : List Condition) : Setup Unit :=
  if conditions = [] then
    Prog.modify fun dir => {dir with
      tableScan := true, indexScan := {dir.indexScan with name := some idxname}}
  else do
    Config.buildIndex (code 'O') idxname
    conditions.forM fun c => Config.indexCondition idxname (c.value.expr c.column c.relop.value)

theorem indexScan_refines : Refines (fun _ => Indexed (text "PRIMARY") (· = false)) indexScan
    Grammar.indexScan (fun a => scanConditions (scanName a.1) a.2)
    (fun a _ => Indexed (scanName a.1) (· = decide (a.2 ≠ [])))
    (laKind · ∈ [.word .order,.mark .semicolon]) := by
  have bounds (idxname : Text) : Refines (fun _ => Indexed idxname (· = false)) whereClause
      Grammar.whereClause (scanConditions idxname)
      (fun conditions _ => Indexed idxname (· = decide (conditions ≠ []))) (Behind (.word .and_)) := by
    refine whereClause_refines.spelled (fun conditions used spelled => ?_)
      fun conditions used t vars spelled indexed => ?_
    · exact if_neg (Grammar.whereClause_ne_nil spelled)
    · rw [decide_eq_true (Grammar.whereClause_ne_nil spelled)]
      exact indexed
  have whole (idxname : Text) : Refines (fun _ => Indexed idxname (· = false))
      (branch (.word .order) wholeIndex (branch (.mark .semicolon) wholeIndex synErr))
      (empty.map fun _ => []) (scanConditions idxname)
      (fun conditions _ => Indexed idxname (· = decide (conditions ≠ [])))
      (laKind · ∈ [.word .order,.mark .semicolon]) := by
    rw [← Phrase.or_never (empty.map _)]
    exact .either (.map (wholeIndex_refines.followed (among (by decide))) _ (fun _ => rfl) fun _ _ _ => id)
      .synErr (.map (.empty fun _ => by simp)) .never
  have conditions (idxname : Text) : Refines (fun _ => Indexed idxname (· = false))
      (branch (.word .where_) whereClause
        (branch (.word .order) wholeIndex (branch (.mark .semicolon) wholeIndex synErr)))
      (Grammar.whereClause.or (empty.map fun _ => [])) (scanConditions idxname)
      (fun conditions _ => Indexed idxname (· = decide (conditions ≠ [])))
      (laKind · ∈ [.word .order,.mark .semicolon]) := by
    refine .branch ((bounds idxname).followed ?_) (whole idxname) (First.token _).next.is
      (.map (.empty (among (by decide))))
    exact fun ahead after => ⟨among (by decide) ahead after,among (by decide) ahead after⟩
  unfold indexScan
  rw [branch_taken,branch_get]
  refine .skip (by decide) (by decide) (.skip (by decide) (by decide) ?_)
  refine scanIndex_refines.bind (fun index => conditions (scanName index)) (.or ?_ (.map (.empty ?_)))
  · exact (First.token (.word .where_)).next.all fun ahead inside =>
      ⟨among (by decide) ahead inside,among (by decide) ahead inside,among (by decide) ahead inside⟩
  · exact fun ahead inside =>
      ⟨among (by decide) ahead inside,among (by decide) ahead inside,among (by decide) ahead inside⟩

theorem order_refines (isBounded : Bool) : Refines (fun _ => Indexed idxname (· = isBounded)) order
    Grammar.order (Config.sortScan isBounded idxname) (fun _ _ => Indexed idxname (· = isBounded)) Tame := by
  have sorted (k : Keyword) (descending : Bool) : Refines (fun _ => Indexed idxname (· = isBounded))
      (expect (.word k) >>= fun _ => act fun _ vars => withIdxname vars fun idxname =>
        Config.sortScan vars.isBounded idxname descending)
      ((Grammar.word k).map fun _ => descending) (Config.sortScan isBounded idxname)
      (fun _ _ => Indexed idxname (· = isBounded)) Tame := by
    refine Refines.map (.taken (by simp) (by simp) fun token => (Refines.act ?_ fun _ => id).leaving
      fun _ _ _ => And.right) _ (fun _ => rfl) fun _ _ _ => id
    rintro t vars ⟨_,indexed⟩
    unfold withIdxname
    rw [indexed.name,show vars.isBounded = isBounded from indexed.bounded]
  have desc : First ((Grammar.word .desc).map fun _ => true) [.word .desc] := (First.token _).map
  unfold order
  dsimp only
  rw [branch_taken,branch_taken]
  exact .branch (sorted .asc false) (.only (sorted .desc true) .synErr desc.is) (First.token _).map.is
    (desc.apart (by decide))

def scanOrder (idxname : Text) (isBounded : Bool) (descending : Option Bool) : Setup Unit :=
  match descending with
  | some descending => Config.sortScan isBounded idxname descending
  | none => pure ()

theorem indexScan_run (index : Option Text) (conditions : List Condition) (descending : Option Bool) :
    (QueryPlan.indexScan index conditions descending).run =
      scanConditions (scanName index) conditions >>= fun _ =>
        scanOrder (scanName index) (decide (conditions ≠ [])) descending := by
  unfold QueryPlan.run scanConditions scanName
  dsimp only
  by_cases unbounded : conditions = []
  · rw [if_pos unbounded,if_pos unbounded]
    rfl
  · rw [if_neg unbounded,if_neg unbounded,Prog.bind_assoc]
    rfl

theorem scanPlan_refines : Refines (fun _ _ => True) scanPlan Grammar.scanPlan QueryPlan.run
    (fun _ _ _ => True) (laKind · = .mark .semicolon) := by
  have : Nonempty Condition := ⟨⟨[],.eq,.param []⟩⟩
  have tableScan : Refines (fun _ => Indexed (text "PRIMARY") (· = false))
      (expect (.word .scan) >>= fun _ => act fun _ _ => Prog.modify fun dir => {dir with tableScan := true})
      (Grammar.word .scan) (fun _ => QueryPlan.tableScan.run) (fun _ _ _ => True) Tame :=
    .taken (by decide) (by decide) fun token =>
      (Refines.act (fun _ _ _ => rfl) fun _ => id).leaving fun _ _ _ _ => trivial
  have sorted (idxname : Text) (isBounded : Bool) : Refines (fun _ => Indexed idxname (· = isBounded))
      (branch (.word .order) (expect (.word .order) >>= fun _ => order) nothing)
      (optional ((Grammar.word .order).next Grammar.order)) (scanOrder idxname isBounded)
      (fun _ _ _ => True) (laKind · = .mark .semicolon) := by
    refine .optional ?_ rfl (fun _ _ _ => trivial) (First.token _).next.is
      fun ahead after => ⟨apart (by decide) ahead after,apart (by decide) ahead after⟩
    exact (Refines.skip (by decide) (by decide) ((order_refines isBounded).leaving
      fun _ _ _ _ => trivial)).followed (apart (by decide))
  have scans : Refines (fun _ => Indexed (text "PRIMARY") (· = false))
      (indexScan >>= fun _ => branch (.word .order) (expect (.word .order) >>= fun _ => order) nothing)
      ((Grammar.indexScan.seq (optional ((Grammar.word .order).next Grammar.order))).map fun a =>
        .indexScan a.1.1 a.1.2 a.2)
      QueryPlan.run (fun _ _ _ => True) (laKind · = .mark .semicolon) := by
    refine Refines.map (indexScan_refines.bind (fun a => sorted _ _) (.optional ?_ ?_)) _
      (fun a => indexScan_run _ _ _) fun _ _ _ _ => trivial
    · exact (First.token (.word .order)).next.all fun _ same => by simp_all
    · exact fun _ same => by simp_all
  unfold scanPlan
  rw [branch_taken,branch_taken]
  have ordered : First (Grammar.indexScan.seq (optional ((Grammar.word .order).next Grammar.order)))
      [.word .ordered] := (First.token _).next.seq
  refine .skip (by decide) (by decide) (.first (.set (fun _ _ _ => ⟨rfl,rfl⟩) fun _ => id)
    (.branch ?_ (.only scans .synErr ordered.map.is) (First.token _).next.map.is
      (ordered.map.apart (by decide))))
  exact Refines.map (.skip (by decide) (by decide) (tableScan.followed (apart (by decide)))) _
    (fun _ => rfl) fun _ _ _ => id

theorem queryPlan_refines : Refines (fun _ _ => True) queryPlan Grammar.queryPlan QueryPlan.run
    (fun _ _ _ => True) (laKind · = .mark .semicolon) := by
  have lookups : Refines (fun _ _ => True) oneRowWhereClause (Grammar.oneRowWhereClause.map .lookup)
      QueryPlan.run (fun _ _ _ => True) (laKind · = .mark .semicolon) :=
    .map (oneRowWhereClause_refines.followed fun ahead after =>
      ⟨apart (by decide) ahead after,apart (by decide) ahead after⟩) _ (fun _ => rfl) fun _ _ _ => id
  exact .branch lookups (.only scanPlan_refines .synErr Grammar.first_scanPlan.is)
    Grammar.first_lookup.map.is (Grammar.first_scanPlan.apart (by decide))

/-- `Column` behind its name. -/
def columnAlias (cName : Text) : Production :=
  branch (.word .as_) (do
    getToken
    expect .name
    act fun t _ => Config.selectColumn (cName,some t.copy))
    (act fun _ _ => Config.selectColumn (cName,none))

theorem column_eq : column = expect .name >>= fun _ => Prog.get >>= fun p => columnAlias p.t.copy := rfl

theorem columnAlias_refines (name : Text) : Refines (fun _ _ => True) (columnAlias name)
    (optional ((Grammar.word .as_).next Grammar.name)) (fun other => Config.selectColumn (name,other))
    (fun _ _ _ => True) (Behind (.word .as_)) := by
  have named : Refines (fun _ _ => True)
      (expect (.word .as_) >>= fun _ => expect .name >>= fun _ =>
        act fun t _ => Config.selectColumn (name,some t.copy))
      ((Grammar.word .as_).next Grammar.name) (fun other => Config.selectColumn (name,some other))
      (fun _ _ _ => True) Tame := by
    refine .skip (by decide) (by decide) (name_refines.also fun other => (Refines.act ?_ fun _ => id).leaving
      fun _ _ _ _ => trivial)
    rintro t vars ⟨rfl,_⟩
    rfl
  have plain : Refines (fun _ _ => True)
      (act fun _ _ => Config.selectColumn (name,none)) empty (fun _ => Config.selectColumn (name,none))
      (fun _ _ _ => True) Tame := .act (fun _ _ _ => rfl) fun _ => id
  unfold columnAlias
  rw [branch_taken]
  exact .branch (.map (named.followed fun _ => And.left) _ (fun _ => rfl) fun _ _ _ => id)
    (.map (plain.followed fun _ => And.left) _ (fun _ => rfl) fun _ _ _ => id)
    (First.token _).next.map.is (.map (.empty fun _ => And.right))

theorem column_refines : Refines (fun _ _ => True) column Grammar.column Config.selectColumn
    (fun _ _ _ => True) (Behind (.word .as_)) := by
  rw [column_eq]
  have behind (name : Text) : Refines (fun t _ => t.copy = name ∧ True)
      (Prog.get >>= fun p => columnAlias p.t.copy) (optional ((Grammar.word .as_).next Grammar.name))
      (fun other => Config.selectColumn (name,other)) (fun _ _ _ => True) (Behind (.word .as_)) := by
    refine .get Token.copy name (fun _ _ => And.left) ((columnAlias_refines name).mono
      (fun _ _ => And.right) (fun _ _ _ => id) fun _ => id) fun name => (columnAlias_refines name).erring
  exact name_refines.seq behind

def useDatabase (name : Option Text) : Setup Unit :=
  match name with
  | some name => Prog.modify fun dir => {dir with database := some name}
  | none => pure ()

theorem database_refines : Refines (fun _ _ => True)
    (branch .dbName
      (expect .dbName >>= fun _ =>
        (act fun t _ => Prog.modify fun dir => {dir with database := some t.copy}) >>= fun _ =>
          expect (.mark .dot)) nothing)
    (optional (((Grammar.token .dbName).map Token.copy).before (Grammar.mark .dot))) useDatabase
    (fun _ _ _ => True) (laKind · = .name) := by
  have used (name : Text) : Refines (fun t _ => t.copy = name ∧ True)
      ((act fun t _ => Prog.modify fun dir => {dir with database := some t.copy}) >>= fun _ =>
        expect (.mark .dot)) (Grammar.mark .dot)
      (fun _ => Prog.modify fun dir => {dir with database := some name}) (fun _ _ _ => True) Tame := by
    have dot : Refines (fun t _ => t.copy = name ∧ True) (expect (.mark .dot)) (Grammar.mark .dot)
        (fun _ => pure ()) (fun _ _ _ => True) Tame :=
      (Refines.expect (by decide) (by decide)).mono (fun _ _ => And.right) (fun _ _ _ _ => trivial)
        fun _ => id
    have stored : Refines (fun t _ => t.copy = name ∧ True)
        (act fun t _ => Prog.modify fun dir => {dir with database := some t.copy}) empty
        (fun _ => Prog.modify fun dir => {dir with database := some name})
        (fun _ t _ => t.copy = name ∧ True) Tame := by
      refine .act ?_ fun _ => id
      rintro t vars ⟨rfl,_⟩
      rfl
    exact (stored.first dot).spelled (fun _ _ _ => rfl) fun _ _ _ _ _ => id
  have named : Refines (fun _ _ => True)
      (expect .dbName >>= fun _ =>
        (act fun t _ => Prog.modify fun dir => {dir with database := some t.copy}) >>= fun _ =>
          expect (.mark .dot))
      (((Grammar.token .dbName).map Token.copy).before (Grammar.mark .dot))
      (fun name => Prog.modify fun dir => {dir with database := some name}) (fun _ _ _ => True) Tame :=
    .map ((copied_refines (by decide) (by decide)).seq used) _ (fun _ => rfl) fun _ _ _ => id
  exact .optional (named.followed (apart (by decide))) rfl (fun _ _ => id) (First.token _).map.before.is
    fun ahead after => ⟨apart (by decide) ahead after,apart (by decide) ahead after⟩

theorem tableSpec_run (database : Option Text) (name : Text) :
    TableSpec.run ⟨database,name⟩ = useDatabase database >>= fun _ =>
      Prog.modify fun dir => {dir with table := some name} := by
  cases database <;> rfl

theorem tableSpec_refines : Refines (fun _ _ => True) tableSpec Grammar.tableSpec TableSpec.run
    (fun _ _ _ => True) Tame := by
  have table : Refines (fun _ _ => True)
      (expect .name >>= fun _ => act fun t _ => Prog.modify fun dir => {dir with table := some t.copy})
      Grammar.name (fun name => Prog.modify fun dir => {dir with table := some name}) (fun _ _ _ => True)
      Tame := by
    refine name_refines.also fun name => (Refines.act ?_ fun _ => id).leaving fun _ _ _ _ => trivial
    rintro t vars ⟨rfl,_⟩
    rfl
  unfold tableSpec
  rw [branch_taken]
  exact .map (database_refines.bind (fun _ => table) Grammar.first_name.is) _
    (fun a => tableSpec_run a.1 a.2) fun _ _ _ => id

def useColumns (columns : Option (List (Text × Option Text))) : Setup Unit :=
  match columns with
  | none => Prog.modify fun dir => {dir with selectStar := true}
  | some columns => columns.forM Config.selectColumn

def usePlan (plan : Option QueryPlan) : Setup Unit :=
  match plan with
  | some plan => plan.run
  | none => pure ()

theorem columns_refines : Refines (fun _ _ => True)
    (branch (.mark .star)
      (expect (.mark .star) >>= fun _ =>
        act fun _ _ => Prog.modify fun dir => {dir with selectStar := true})
      (branch .name (column >>= fun _ => further (.mark .comma) column) synErr))
    Grammar.columns useColumns (fun _ _ _ => True) (laKind · = .word .from_) := by
  have star : Refines (fun _ _ => True)
      (expect (.mark .star) >>= fun _ =>
        act fun _ _ => Prog.modify fun dir => {dir with selectStar := true})
      (Grammar.mark .star) (fun _ => useColumns none) (fun _ _ _ => True) Tame :=
    .taken (by decide) (by decide) fun _ => (Refines.act (fun _ _ _ => rfl) fun _ => id).leaving
      fun _ _ _ _ => trivial
  have some : Refines (fun _ _ => True) (column >>= fun _ => further (.mark .comma) column)
      (list (Grammar.mark .comma) Grammar.column) (fun columns => columns.forM Config.selectColumn)
      (fun _ _ _ => True) (laKind · = .word .from_) := by
    refine list_refines (by decide) (by decide) column_refines ?_ ?_
    · exact fun ahead next => ⟨apart (by decide) ahead next,apart (by decide) ahead next⟩
    · exact fun ahead next => ⟨⟨apart (by decide) ahead next,apart (by decide) ahead next⟩,
        apart (by decide) ahead next,apart (by decide) ahead next⟩
  have names : First (list (Grammar.mark .comma) Grammar.column) [.name] := Grammar.first_name.seq.list
  exact .branch (.map (star.followed (apart (by decide))) _ (fun _ => rfl) fun _ _ _ => id)
    (.only (.map some _ (fun _ => rfl) fun _ _ _ => id) .synErr names.map.is) (First.token _).map.is
    (names.map.apart (by decide))

theorem plan_refines : Refines (fun _ _ => True)
    (branch (.word .where_) queryPlan (branch (.word .using_) queryPlan nothing))
    (optional Grammar.queryPlan) usePlan (fun _ _ _ => True) (laKind · = .mark .semicolon) := by
  have none : Refines (fun _ _ => True) nothing empty (fun _ => usePlan none) (fun _ _ _ => True) Tame :=
    .nothing fun _ => id
  refine .either (.map queryPlan_refines some (fun _ => rfl) fun _ _ _ => id)
    (.map (none.followed (apart (by decide))) _ (fun _ => rfl) fun _ _ _ => id) ?_
    (.map (.empty fun ahead next => ⟨apart (by decide) ahead next,apart (by decide) ahead next⟩))
  exact (Grammar.first_queryPlan.all fun ahead inside => by simpa using inside).map

theorem selectQuery_refines : Refines (fun _ _ => True) selectQuery Grammar.selectQuery Config.Query.run
    (fun _ _ _ => True) (laKind · = .mark .semicolon) := by
  have : Nonempty TableSpec := ⟨⟨none,[]⟩⟩
  have plan : (optional Grammar.queryPlan).Begins (laKind · = .mark .semicolon) Tame :=
    .optional (Grammar.first_queryPlan.apart (by decide)) (apart (by decide))
  have source : Refines (fun _ _ => True)
      (expect (.word .from_) >>= fun _ => tableSpec >>= fun _ =>
        branch (.word .where_) queryPlan (branch (.word .using_) queryPlan nothing))
      ((Grammar.word .from_).next (Grammar.tableSpec.seq (optional Grammar.queryPlan)))
      (fun a => a.1.run >>= fun _ => usePlan a.2) (fun _ _ _ => True) (laKind · = .mark .semicolon) :=
    .skip (by decide) (by decide) (tableSpec_refines.seq fun _ => plan_refines)
  unfold selectQuery
  rw [branch_taken]
  refine .map (.skip (by decide) (by decide) (columns_refines.bind (fun _ => source) (First.token _).next.is))
    _ ?_ fun _ _ _ => id
  rintro ⟨columns,table,plan⟩
  cases columns <;> cases plan <;> rfl

theorem deleteQuery_refines : Refines (fun _ _ => True) deleteQuery Grammar.deleteQuery Config.Query.run
    (fun _ _ _ => True) (laKind · = .mark .semicolon) := by
  have : Nonempty TableSpec := ⟨⟨none,[]⟩⟩
  have : Nonempty Lookup := ⟨.primaryKey []⟩
  have allowed : Refines (fun _ _ => True)
      (oneRowWhereClause >>= fun _ =>
        act fun _ _ => Prog.modify fun dir => {dir with allowDelete := true})
      Grammar.oneRowWhereClause
      (fun spec => spec.run >>= fun _ => Prog.modify fun dir => {dir with allowDelete := true})
      (fun _ _ _ => True) (laKind · = .mark .semicolon) := by
    refine (oneRowWhereClause_refines.followed ?_).also fun _ => .act (fun _ _ _ => rfl) (apart (by decide))
    exact fun ahead next => ⟨apart (by decide) ahead next,apart (by decide) ahead next⟩
  refine .map (.skip (by decide) (by decide) (.skip (by decide) (by decide)
    (tableSpec_refines.seq fun _ => allowed))) _ (fun _ => rfl) fun _ _ _ => id

theorem query_refines : Refines (fun _ _ => True)
    (branch (.word .select) selectQuery
      (branch (.word .delete) deleteQuery
        (branch (.word .where_) queryPlan (branch (.word .using_) queryPlan synErr))))
    (Grammar.selectQuery.or (Grammar.deleteQuery.or (Grammar.queryPlan.map .queryPlan))) Config.Query.run
    (fun _ _ _ => True) (laKind · = .mark .semicolon) := by
  have plans : Refines (fun _ _ => True)
      (branch (.word .where_) queryPlan (branch (.word .using_) queryPlan synErr))
      (Grammar.queryPlan.map .queryPlan) Config.Query.run (fun _ _ _ => True)
      (laKind · = .mark .semicolon) := by
    rw [← Phrase.or_never (Grammar.queryPlan.map _)]
    refine .either (.map queryPlan_refines _ (fun _ => rfl) fun _ _ _ => id) .synErr ?_ .never
    exact (Grammar.first_queryPlan.all fun ahead inside => by simpa using inside).map
  have deletes : First Grammar.deleteQuery [.word .delete] := (First.token _).next.map
  exact .branch selectQuery_refines (.branch deleteQuery_refines plans deletes.is
    (Grammar.first_queryPlan.map.apart (by decide))) (First.token _).next.map.is
    ((deletes.or Grammar.first_queryPlan.map).apart (by decide))

theorem nsql_refines : Refines (fun _ _ => True) nsql Grammar.nsql Config.Query.run
    (fun _ _ _ => True) Tame := by
  have : Nonempty Config.Query := ⟨.queryPlan .tableScan⟩
  have semicolon : Refines (fun _ _ => True) (expect (.mark .semicolon)) (Grammar.mark .semicolon)
      (fun _ => pure ()) (fun _ _ _ => True) Tame :=
    (Refines.expect (by decide) (by decide)).leaving fun _ _ _ _ => trivial
  refine .map (query_refines.bind (fun _ => semicolon) (First.token _).is) _ ?_ fun _ _ _ => id
  rintro ⟨query,_⟩
  funext dir
  rw [Prog.bind_run]
  rcases query.run dir with ⟨(why | _),next⟩ <;> rfl

end

end ModNdb.NSql
