import ModNdb.Config.Columns

/-! A SELECT query that looks rows up by a key, and the directives that say the same. -/
namespace ModNdb.Config
open Format (OutputFormat)

/-- `letter` of NSQL.atg -/
def isLetter (c : UInt8) : Bool :=
  code 'a' ≤ c && c ≤ code 'z' || code 'A' ≤ c && c ≤ code 'Z' || (text "#%^_").contains c

/-- `char` of NSQL.atg -/
def isNameChar (c : UInt8) : Bool :=
  isLetter c || Format.isdigit c || (text "$@!:?-/\x7b\x7d[]").contains c

/-- A `Name` token. -/
structure Name where
  first : UInt8
  rest : Text
  letter : isLetter first = true
  chars : rest.all isNameChar = true

def Name.spelling (name : Name) : Text := name.first :: name.rest

theorem Name.not_star (name : Name) : name.spelling ≠ text "*" := by
  intro star
  have first : name.first = code '*' := List.head_eq_of_cons_eq star
  have letter := name.letter
  rw [first] at letter
  exact absurd letter (by decide)

theorem columns_run (cols : List Name) (d : Dir) :
    (cols.map Name.spelling).forM visibleColumn d = (.ok (),{d with
      visible := d.visible ++ cols.map Name.spelling,
      aliases := d.aliases ++ cols.map Name.spelling}) := by
  induction cols generalizing d with
  | nil =>
    rw [List.map_nil,List.append_nil,List.append_nil]
    rfl
  | cons col cols ih =>
    have seen : visibleColumn col.spelling d = (.ok (),{d with
        visible := d.visible ++ [col.spelling], aliases := d.aliases ++ [col.spelling]}) := by
      unfold visibleColumn
      rw [Prog.modify_run,if_neg col.not_star]
    rw [List.map_cons,List.append_cons,List.append_cons d.aliases]
    exact (Prog.bind_ok _ seen).trans (ih _)

theorem selectColumns_run (cols : List Name) (d : Dir) :
    (cols.map fun col => (col.spelling,(none : Option Text))).forM selectColumn d =
      (.ok (),{d with
        visible := d.visible ++ cols.map Name.spelling,
        aliases := d.aliases ++ cols.map Name.spelling}) := by
  induction cols generalizing d with
  | nil =>
    rw [List.map_nil,List.map_nil,List.append_nil,List.append_nil]
    rfl
  | cons col cols ih =>
    rw [List.map_cons,List.map_cons,List.append_cons,List.append_cons d.aliases]
    exact (Prog.bind_ok _ rfl).trans (ih _)

/-- There is an index of the name, and no scan of an index has the name. -/
structure Ready (idx : Text) (d : Dir) : Prop where
  there : (getIndexByName d idx).isSome
  unscanned : d.indexScan.name ≠ some idx

theorem getIndexByName_machined (idx : Text) (d d' : Dir) (machined : Machined d d') :
    getIndexByName d' idx = getIndexByName d idx := by
  have find (indexes : List Index) : (indexes.findIdx? fun index => index.name = idx) =
      (indexes.map fun index => (index.name,index.type)).findIdx? fun index => index.1 = idx := by
    rw [List.findIdx?_map]
    rfl
  unfold getIndexByName
  rw [find,find,machined.named]

theorem ready_machined (idx : Text) (d d' : Dir) (machined : Machined d d') (ready : Ready idx d) :
    Ready idx d' where
  there := by
    rw [getIndexByName_machined idx d d' machined]
    exact ready.there
  unscanned := by
    have scans := congrArg (·.indexScan.name) machined.rest
    have same : d'.indexScan.name = d.indexScan.name := scans
    rw [same]
    exact ready.unscanned

theorem buildIndex_ready (which : UInt8) (idx : Text) (d : Dir) (unscanned : d.indexScan.name ≠ some idx) :
    ∃ next, buildIndex which idx d = (.ok (),next) ∧ Ready idx next := by
  unfold buildIndex
  rw [Prog.bind_ok _ (Prog.get_run d)]
  by_cases missing : (getIndexByName d idx).isNone
  · rw [if_pos missing]
    refine ⟨_,rfl,?_,unscanned⟩
    unfold getIndexByName
    dsimp only
    rw [List.findIdx?_append]
    simp
  · rw [if_neg missing]
    exact ⟨d,rfl,by rwa [Bool.not_eq_true,Option.isNone_eq_false_iff] at missing,unscanned⟩

theorem buildIndex_there (which : UInt8) (idx : Text) (d : Dir) (ready : Ready idx d) :
    buildIndex which idx d = (.ok (),d) := by
  unfold buildIndex
  rw [Prog.bind_ok _ (Prog.get_run d),if_neg]
  · rfl
  · rw [Option.isNone_iff_eq_none]
    intro none
    have there := ready.there
    rw [none] at there
    cases there

theorem namedIndex_run (which : UInt8) (idx col : Text) (d : Dir)
    (unscanned : d.indexScan.name ≠ some idx) :
    namedIndex which idx col d = (buildIndex which idx >>= fun _ => namedIdx idx ⟨[],4,false,col⟩) d := by
  unfold namedIndex
  rw [Prog.bind_ok _ (Prog.get_run d),if_neg unscanned]

/-- The columns of an index directive are those of the index one after the other. -/
theorem namedIndexes_run (which : UInt8) (idx : Text) (cols : List Text) (d : Dir) (ready : Ready idx d) :
    (cols.forM (namedIndex which idx)) d = (cols.forM fun col => namedIdx idx ⟨[],4,false,col⟩) d := by
  induction cols generalizing d with
  | nil => rfl
  | cons col cols ih =>
    have first : namedIndex which idx col d = namedIdx idx ⟨[],4,false,col⟩ d := by
      rw [namedIndex_run which idx col d ready.unscanned,
        Prog.bind_ok _ (buildIndex_there which idx d ready)]
    change (namedIndex which idx col >>= fun _ => cols.forM (namedIndex which idx)) d =
      (namedIdx idx ⟨[],4,false,col⟩ >>= fun _ => cols.forM fun col => namedIdx idx ⟨[],4,false,col⟩) d
    rw [Prog.bind_run,Prog.bind_run,first]
    rcases ran : namedIdx idx ⟨[],4,false,col⟩ d with ⟨outcome,next⟩
    cases outcome with
    | error why => rfl
    | ok done =>
      have machined : Machined d next := by
        have moved := (namedIdx_machines idx ⟨[],4,false,col⟩ d).1
        rwa [ran] at moved
      exact ih next (ready_machined idx d next machined ready)

/-- One index directive does what a query does about the same index. -/
theorem index_directive (which : UInt8) (idx : Text) (first : Name) (names : List Name) (d : Dir)
    (unscanned : d.indexScan.name ≠ some idx) :
    (do
      buildIndex which idx
      ((first::names).map (IndexValue.param ·.spelling)).forM fun value =>
        indexCondition idx (value.expr [] 4) : Setup Unit) d =
      ((first::names).map Name.spelling).forM (namedIndex which idx) d := by
  obtain ⟨next,ran,ready⟩ := buildIndex_ready which idx d unscanned
  have params (names : List Name) : ((names.map (IndexValue.param ·.spelling)).forM fun value =>
      indexCondition idx (value.expr [] 4)) =
      (names.map Name.spelling).forM fun col => namedIdx idx ⟨[],4,false,col⟩ := by
    induction names with
    | nil => rfl
    | cons name names ih => exact congrArg (namedIdx idx ⟨[],4,false,name.spelling⟩ >>= fun _ => ·) ih
  have start : namedIndex which idx first.spelling d = namedIndex which idx first.spelling next := by
    rw [namedIndex_run which idx _ d unscanned,namedIndex_run which idx _ next ready.unscanned,
      Prog.bind_ok _ ran,Prog.bind_ok _ (buildIndex_there which idx next ready)]
  have same : (((first::names).map Name.spelling).forM (namedIndex which idx)) d =
      (((first::names).map Name.spelling).forM (namedIndex which idx)) next := by
    change (namedIndex which idx first.spelling >>= fun _ =>
        (names.map Name.spelling).forM (namedIndex which idx)) d =
      (namedIndex which idx first.spelling >>= fun _ =>
        (names.map Name.spelling).forM (namedIndex which idx)) next
    rw [Prog.bind_run,Prog.bind_run,start]
  rw [Prog.bind_ok _ ran,params,same,namedIndexes_run which idx _ next ready]

/-- `SELECT cols FROM table WHERE ...` -/
def selectQuery (cols : List Name) (table : Name) (lookup : Lookup) : Query :=
  .select (some (cols.map fun col => (col.spelling,none))) ⟨none,table.spelling⟩
    (some (.lookup lookup))

/-- `= $p1, ..., $pn` -/
def params (first : Name) (names : List Name) : List IndexValue :=
  (first::names).map (IndexValue.param ·.spelling)

/-- A query by primary key, or by a unique index, leaves what the directives leave. -/
theorem select_directives (formats : Text → Option OutputFormat) (json : Option OutputFormat)
    (cols : List Name) (table first : Name) (names : List Name) :
    (selectQuery cols table (.primaryKey (params first names))).run (Dir.init json) =
        configure formats [.table table.spelling none none,.columns (cols.map Name.spelling),
          .primaryKey ((first::names).map Name.spelling)] (Dir.init json) ∧
      ∀ idx : Name, (selectQuery cols table (.uniqueIndex idx.spelling (params first names))).run
          (Dir.init json) =
        configure formats [.table table.spelling none none,.columns (cols.map Name.spelling),
          .uniqueIndex idx.spelling ((first::names).map Name.spelling)] (Dir.init json) := by
  let dir : Dir := {Dir.init json with
    table := some table.spelling,
    visible := cols.map Name.spelling, aliases := cols.map Name.spelling}
  have query (lookup : Lookup) :
      (selectQuery cols table lookup).run (Dir.init json) = lookup.run dir := by
    unfold selectQuery Query.run
    dsimp only
    rw [Prog.bind_ok _ (selectColumns_run cols (Dir.init json))]
    exact Prog.bind_ok _ rfl
  have directives (keys : Directive) : configure formats [.table table.spelling none none,
      .columns (cols.map Name.spelling),keys] (Dir.init json) = keys.run formats dir := by
    have tabled : Config.table table.spelling none none (Dir.init json) =
        (.ok (),{Dir.init json with table := some table.spelling}) := rfl
    have listed := columns_run cols {Dir.init json with table := some table.spelling}
    have last : (keys.run formats >>= fun _ => pure ()) dir = keys.run formats dir := by
      rw [Prog.bind_run]
      rcases keys.run formats dir with ⟨outcome,next⟩
      cases outcome <;> rfl
    exact (Prog.bind_ok _ tabled).trans ((Prog.bind_ok _ listed).trans last)
  have named (which : UInt8) (idx : Text) := index_directive which idx first names dir
    (by intro none; cases none)
  constructor
  · rw [query,directives]
    exact named (code 'P') primaryKeyName
  · intro idx
    rw [query,directives]
    exact named (code 'U') idx.spelling

end ModNdb.Config
