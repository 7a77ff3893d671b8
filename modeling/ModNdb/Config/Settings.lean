import ModNdb.Config.Columns

/-! The settings that sections hand down, and the directives that touch them. -/
namespace ModNdb.Config
open Format (OutputFormat)

inductive Setting | database | table | format | eTags | pathInfo
  deriving DecidableEq

def Directive.sets : Directive → Setting → Bool
  | .database _, .database => true
  | .table _ _ _, .table => true
  | .eTags _, .eTags => true
  | .format _, .format => true
  | .pathInfo _ _, .pathInfo => true
  | .sql (.select _ _ _), .table => true
  | .sql (.select _ spec _), .database => spec.database.isSome
  | .sql (.delete _ _), .table => true
  | .sql (.delete spec _), .database => spec.database.isSome
  | _, _ => false

/-- A setting is the same in two configurations; columns of a path may have moved. -/
def Setting.Same (d d' : Dir) : Setting → Prop
  | .database => d'.database = d.database
  | .table => d'.table = d.table
  | .format => d'.fmt = d.fmt
  | .eTags => d'.useEtags = d.useEtags
  | .pathInfo => d'.pathinfoSerials = d.pathinfoSerials ∧ d'.pathinfoAlways = d.pathinfoAlways ∧
      (d.pathinfoSerials = [] → d.pathinfo = [] → d'.pathinfo = [])

/-- What is done about columns and indexes leaves the settings alone. -/
def Untouched (d d' : Dir) : Prop := ∀ setting, Setting.Same d d' setting

theorem Setting.same_refl (setting : Setting) (d : Dir) : setting.Same d d := by
  cases setting with
  | pathInfo => exact ⟨rfl,rfl,fun _ empty => empty⟩
  | _ => rfl

theorem Setting.same_trans (setting : Setting) (d d' d'' : Dir) (first : setting.Same d d')
    (second : setting.Same d' d'') : setting.Same d d'' := by
  cases setting with
  | pathInfo =>
    obtain ⟨serials,always,path⟩ := first
    obtain ⟨serials',always',path'⟩ := second
    exact ⟨serials'.trans serials,always'.trans always,fun none empty =>
      path' (serials.trans none) (path none empty)⟩
  | _ => exact Eq.trans second first

instance (setting : Setting) : IsPreorder Dir setting.Same where
  refl := setting.same_refl
  trans := setting.same_trans

instance : IsPreorder Dir Untouched where
  refl d setting := setting.same_refl d
  trans d d' d'' first second setting := setting.same_trans d d' d'' (first setting) (second setting)

abbrev Leaves {α : Type} (x : Setup α) : Prop := Prog.Steps Untouched x

theorem same_of_fields (d d' : Dir) (database : d'.database = d.database) (table : d'.table = d.table)
    (fmt : d'.fmt = d.fmt) (useEtags : d'.useEtags = d.useEtags)
    (path : Setting.pathInfo.Same d d') : Untouched d d' := by
  intro setting
  cases setting with
  | database => exact database
  | table => exact table
  | format => exact fmt
  | eTags => exact useEtags
  | pathInfo => exact path

theorem untouched_of_same (d d' : Dir)
    (same : (d'.database,d'.table,d'.fmt,d'.useEtags,d'.pathinfo,d'.pathinfoSerials,
        d'.pathinfoAlways) =
      (d.database,d.table,d.fmt,d.useEtags,d.pathinfo,d.pathinfoSerials,d.pathinfoAlways)) :
    Untouched d d' := by
  simp only [Prod.mk.injEq] at same
  obtain ⟨database,table,fmt,useEtags,pathinfo,serials,always⟩ := same
  exact same_of_fields d d' database table fmt useEtags
    ⟨serials,always,fun _ empty => pathinfo.trans empty⟩

theorem Machined.untouched {d d' : Dir} (machined : Machined d d') : Untouched d d' := by
  have same {α : Type} (field : Dir → α) : field {d' with
      keyColumns := d.keyColumns, indexes := d.indexes, pathinfo := d.pathinfo} = field d :=
    congrArg field machined.rest
  exact same_of_fields d d' (same Dir.database) (same Dir.table) (same Dir.fmt) (same Dir.useEtags)
    ⟨same Dir.pathinfoSerials,same Dir.pathinfoAlways,machined.path⟩

theorem leaves_of_machines {α : Type} {x : Setup α} (machines : Machines x) : Leaves x :=
  machines.mono fun _ _ machined => machined.untouched

theorem addKeyColumn_leaves (keyname : Text) : Leaves (addKeyColumn keyname) :=
  leaves_of_machines (addKeyColumn_machines keyname)

theorem keyCol_leaves (n : Nat) : Leaves (keyCol n) := leaves_of_machines (keyCol_machines n)

theorem index_leaves (n : Nat) : Leaves (index n) := leaves_of_machines (index_machines n)

theorem setKeyCol_leaves (n : Nat) (change : KeyCol → KeyCol) : Leaves (setKeyCol n change) :=
  leaves_of_machines (setKeyCol_machines n change)

theorem setIndex_leaves (n : Nat) (change : Index → Index) : Leaves (setIndex n change) :=
  Prog.Steps.modify fun d => untouched_of_same d _ rfl

theorem namedIndexId_leaves (idx : Text) : Leaves (namedIndexId idx) :=
  leaves_of_machines (namedIndexId_machines idx)

theorem namedIdx_leaves (idx : Text) (expr : Expr) : Leaves (namedIdx idx expr) :=
  leaves_of_machines (namedIdx_machines idx expr)

theorem buildIndex_leaves (idxtype : UInt8) (name : Text) : Leaves (buildIndex idxtype name) := by
  unfold buildIndex buildIndexRecord
  apply Prog.Steps.get
  intro dir
  exact Prog.Steps.ite (Prog.Steps.modify fun d => untouched_of_same d _ rfl) (Prog.Steps.pure _)

theorem sortScan_leaves (bounded : Bool) (idxname : Text) (descending : Bool) :
    Leaves (sortScan bounded idxname descending) := by
  unfold sortScan
  exact Prog.Steps.ite ((namedIndexId_leaves _).bind fun _ => setIndex_leaves _ _)
    (Prog.Steps.modify fun d => untouched_of_same d _ rfl)

theorem namedIndex_leaves (which : UInt8) (idx col : Text) : Leaves (namedIndex which idx col) :=
  Prog.Steps.get fun _ => Prog.Steps.ite (Prog.Steps.fail _) <|
    (buildIndex_leaves _ _).bind fun _ => namedIdx_leaves _ _

theorem indexConstant_leaves (idx : Text) (expr : Expr) : Leaves (indexConstant idx expr) := by
  unfold indexConstant
  apply (namedIndexId_leaves idx).bind
  intro indexId
  refine Prog.Steps.modifyThen (fun d => untouched_of_same d _ rfl) ?_
  exact (index_leaves indexId).bind fun _ => Prog.Steps.ite (Prog.Steps.fail _) <|
    Prog.Steps.ite (Prog.Steps.fail _) (setIndex_leaves _ _)

theorem indexCondition_leaves (idx : Text) (expr : Expr) : Leaves (indexCondition idx expr) :=
  Prog.Steps.ite (indexConstant_leaves idx expr) (namedIdx_leaves idx expr)

theorem lookup_leaves (spec : Lookup) : Leaves spec.run := by
  cases spec with
  | primaryKey values =>
    exact (buildIndex_leaves _ _).bind fun _ => Prog.Steps.forM fun _ => indexCondition_leaves _ _
  | uniqueIndex name values =>
    exact (buildIndex_leaves _ _).bind fun _ => Prog.Steps.forM fun _ => indexCondition_leaves _ _

theorem queryPlan_leaves (plan : QueryPlan) : Leaves plan.run := by
  cases plan with
  | lookup spec => exact lookup_leaves spec
  | tableScan =>
    exact Prog.Steps.modify fun d => untouched_of_same d _ rfl
  | indexScan name conditions descending =>
    unfold QueryPlan.run
    cases descending with
    | none =>
      apply Prog.Steps.ite
      · exact Prog.Steps.modifyThen (fun d => untouched_of_same d _ rfl) (Prog.Steps.pure ())
      · exact (buildIndex_leaves _ _).bind fun _ =>
          (Prog.Steps.forM fun _ => indexCondition_leaves _ _).bind fun _ => Prog.Steps.pure ()
    | some descending =>
      apply Prog.Steps.ite
      · exact Prog.Steps.modifyThen (fun d => untouched_of_same d _ rfl) (sortScan_leaves _ _ _)
      · exact (buildIndex_leaves _ _).bind fun _ =>
          (Prog.Steps.forM fun _ => indexCondition_leaves _ _).bind fun _ => sortScan_leaves _ _ _

abbrev Spares {α : Type} (setting : Setting) (x : Setup α) : Prop := Prog.Steps setting.Same x

theorem Leaves.spares {α : Type} (setting : Setting) {x : Setup α} (leaves : Leaves x) :
    Spares setting x := leaves.mono fun _ _ untouched => untouched setting

theorem table_spares (arg1 : Text) (arg2 arg3 : Option Text) (setting : Setting)
    (other : setting ≠ .table) : Spares setting (table arg1 arg2 arg3) := by
  unfold table
  refine Prog.Steps.modifyThen (fun d => ?_) ?_
  · cases setting with
    | table => exact absurd rfl other
    | pathInfo => exact ⟨rfl,rfl,fun _ empty => empty⟩
    | _ => rfl
  · apply Leaves.spares
    apply Prog.Steps.ite
    · exact Prog.Steps.modify fun d => untouched_of_same d _ rfl
    · exact Prog.Steps.pure ()

theorem pathInfo_spares (spec : Text) (arg2 : Option Text) (setting : Setting)
    (other : setting ≠ .pathInfo) : Spares setting (pathInfo spec arg2) := by
  have same (d d' : Dir) (fields : (d'.database,d'.table,d'.fmt,d'.useEtags) =
      (d.database,d.table,d.fmt,d.useEtags)) : setting.Same d d' := by
    simp only [Prod.mk.injEq] at fields
    obtain ⟨database,table,fmt,useEtags⟩ := fields
    cases setting with
    | database => exact database
    | table => exact table
    | format => exact fmt
    | eTags => exact useEtags
    | pathInfo => exact absurd rfl other
  unfold pathInfo
  refine Prog.Steps.modifyThen (fun d => same d _ rfl) ?_
  refine (Prog.Steps.forM fun item => ?_).bind fun _ => ?_
  · exact (Leaves.spares setting (addKeyColumn_leaves _)).bind fun _ =>
      (Leaves.spares setting (keyCol_leaves _)).bind fun _ =>
        Prog.Steps.modify fun d => same d _ rfl
  · apply Prog.Moves.ite
    · exact fun _ => Prog.Steps.modify fun d => same d _ rfl
    · exact fun _ => Leaves.spares setting (Prog.Steps.pure _)

theorem filter_leaves (baseColName filterOp aliasColName : Text) :
    Leaves (filter baseColName filterOp aliasColName) := by
  unfold filter
  apply (addKeyColumn_leaves _).bind
  intro found
  apply Prog.Steps.ite (Prog.Steps.fail _)
  apply (setKeyCol_leaves _ _).bind
  intro _
  refine Prog.Steps.modifyThen (fun d => untouched_of_same d _ rfl) ?_
  cases filterOps.findIdx? (· = filterOp) with
  | none => exact Prog.Steps.fail _
  | some n => exact setKeyCol_leaves _ _

/-- `FROM` gives a table, and a database when it names one. -/
theorem tableSpec_spares (spec : TableSpec) (setting : Setting) (table : setting ≠ .table)
    (database : setting = .database → spec.database = none) : Spares setting spec.run := by
  refine Prog.Steps.modify fun d => ?_
  cases setting with
  | database => exact congrArg (·.or d.database) (database rfl)
  | table => exact absurd rfl table
  | pathInfo => exact ⟨rfl,rfl,fun _ empty => empty⟩
  | _ => rfl

theorem query_spares (query : Query) (setting : Setting)
    (silent : (Directive.sql query).sets setting = false) : Spares setting query.run := by
  have named (spec : TableSpec) (unnamed : spec.database.isSome = false) : spec.database = none :=
    Option.not_isSome_iff_eq_none.mp (Bool.not_eq_true _ ▸ unnamed)
  cases query with
  | select columns spec plan =>
    have given : Spares setting spec.run := by
      apply tableSpec_spares
      · rintro rfl; cases silent
      · rintro rfl; exact named spec silent
    have rest (next : Setup Unit) (leaves : Leaves next) :
        Spares setting (spec.run >>= fun _ => next) :=
      given.bind fun _ => leaves.spares setting
    have planned : Spares setting (spec.run >>= fun _ => plan.elim (pure ()) QueryPlan.run) := by
      cases plan with
      | none => exact rest _ (Prog.Steps.pure ())
      | some plan => exact rest _ (queryPlan_leaves plan)
    have listed : Leaves (columns.elim
        (Prog.modify fun dir => {dir with selectStar := true}) (·.forM selectColumn)) := by
      cases columns with
      | none => exact Prog.Steps.modify fun d => untouched_of_same d _ rfl
      | some columns =>
        refine Prog.Steps.forM fun column => ?_
        exact Prog.Steps.modify fun d => untouched_of_same d _ rfl
    have whole := (listed.spares setting).bind fun _ => planned
    cases columns <;> cases plan <;> exact whole
  | delete spec lookup =>
    have given : Spares setting spec.run := by
      apply tableSpec_spares
      · rintro rfl; cases silent
      · rintro rfl; exact named spec silent
    refine given.bind fun _ => Leaves.spares setting ((lookup_leaves lookup).bind fun _ => ?_)
    exact Prog.Steps.modify fun d => untouched_of_same d _ rfl
  | queryPlan plan => exact Leaves.spares setting (queryPlan_leaves plan)

theorem Directive.spares (formats : Text → Option OutputFormat) (directive : Directive)
    (setting : Setting) (silent : directive.sets setting = false) :
    Spares setting (directive.run formats) := by
  cases directive with
  | database name =>
    refine Prog.Steps.modify fun d => ?_
    cases setting with
    | database => cases silent
    | pathInfo => exact ⟨rfl,rfl,fun _ empty => empty⟩
    | _ => rfl
  | table arg1 arg2 arg3 =>
    exact table_spares arg1 arg2 arg3 setting (by rintro rfl; cases silent)
  | deletes flag =>
    exact Leaves.spares setting (Prog.Steps.modify fun d => untouched_of_same d _ rfl)
  | eTags flag =>
    refine Prog.Steps.modify fun d => ?_
    cases setting with
    | eTags => cases silent
    | pathInfo => exact ⟨rfl,rfl,fun _ empty => empty⟩
    | _ => rfl
  | format name =>
    refine Prog.Steps.modifyThen (fun d => ?_) ?_
    · cases setting with
      | format => cases silent
      | pathInfo => exact ⟨rfl,rfl,fun _ empty => empty⟩
      | _ => rfl
    · exact Leaves.spares setting (Prog.Steps.ite (Prog.Steps.fail _) (Prog.Steps.pure _))
  | columns names =>
    refine Leaves.spares setting (Prog.Steps.forM fun name => ?_)
    refine Prog.Steps.modify fun d => untouched_of_same d _ ?_
    by_cases star : name = text "*" <;> simp only [star,if_true,if_false]
  | allowUpdate names =>
    refine Leaves.spares setting (Prog.Steps.forM fun name => ?_)
    exact Prog.Steps.modify fun d => untouched_of_same d _ rfl
  | primaryKey cols => exact Leaves.spares setting (Prog.Steps.forM fun col => namedIndex_leaves _ _ col)
  | uniqueIndex idx cols => exact Leaves.spares setting (Prog.Steps.forM fun col => namedIndex_leaves _ _ col)
  | orderedIndex idx cols => exact Leaves.spares setting (Prog.Steps.forM fun col => namedIndex_leaves _ _ col)
  | pathInfo spec arg2 =>
    exact pathInfo_spares spec arg2 setting (by rintro rfl; cases silent)
  | filter baseColName filterOp aliasColName => exact Leaves.spares setting (filter_leaves _ _ _)
  | sql query => exact query_spares query setting silent

def Setting.Given (d : Dir) : Setting → Prop
  | .database => d.database.isSome
  | .table => d.table.isSome
  | _ => True

theorem Setting.given_same (setting : Setting) (d d' : Dir) (same : setting.Same d d')
    (given : setting.Given d) : setting.Given d' := by
  cases setting with
  | database =>
    have kept : d'.database = d.database := same
    exact congrArg Option.isSome kept |>.trans given
  | table =>
    have kept : d'.table = d.table := same
    exact congrArg Option.isSome kept |>.trans given
  | _ => trivial

theorem Spares.keeps {α : Type} (setting : Setting) {x : Setup α} (spares : Spares setting x) :
    Prog.Keeps setting.Given x :=
  fun d given => setting.given_same d _ (spares d).1 given

theorem tableSpec_gives (spec : TableSpec) (setting : Setting)
    (named : setting = .database → spec.database.isSome) (d : Dir) :
    setting.Given (spec.run d).2 := by
  cases setting with
  | database =>
    have given : (spec.database.or d.database).isSome := by
      rw [Option.isSome_or,named rfl]
      rfl
    exact given
  | table => rfl
  | _ => trivial

theorem query_gives (query : Query) (setting : Setting) (sets : (Directive.sql query).sets setting)
    (d d' : Dir) (ran : query.run d = (.ok (),d')) : setting.Given d' := by
  cases query with
  | select columns spec plan =>
    have given (middle : Dir) : setting.Given (spec.run middle).2 :=
      tableSpec_gives spec setting (by rintro rfl; exact sets) middle
    have rest (next : Setup Unit) (leaves : Leaves next) (middle : Dir)
        (ran : (spec.run >>= fun _ => next) middle = (.ok (),d')) : setting.Given d' := by
      have reached := Prog.bind_keeps (given middle) fun _ => (leaves.spares setting).keeps
      rwa [ran] at reached
    cases columns <;> obtain ⟨_,middle,_,ran⟩ := Prog.bind_inv ran <;> cases plan
    · exact rest _ (Prog.Steps.pure ()) middle ran
    · exact rest _ (queryPlan_leaves _) middle ran
    · exact rest _ (Prog.Steps.pure ()) middle ran
    · exact rest _ (queryPlan_leaves _) middle ran
  | delete spec lookup =>
    have given := tableSpec_gives spec setting (by rintro rfl; exact sets) d
    have allowed : Leaves (Prog.modify fun dir => {dir with allowDelete := true}) :=
      Prog.Steps.modify fun d => untouched_of_same d _ rfl
    have reached := Prog.bind_keeps given fun _ =>
      (Leaves.spares setting ((lookup_leaves lookup).bind fun _ => allowed)).keeps
    have same : d' = _ := (congrArg Prod.snd ran).symm
    rw [same]
    exact reached
  | queryPlan plan => cases setting <;> cases sets

theorem Directive.gives (formats : Text → Option OutputFormat) (directive : Directive)
    (setting : Setting) (sets : directive.sets setting) (d d' : Dir)
    (ran : directive.run formats d = (.ok (),d')) : setting.Given d' := by
  cases directive with
  | database name =>
    cases setting with
    | database => cases ran; rfl
    | _ => cases sets
  | table arg1 arg2 arg3 =>
    cases setting with
    | table =>
      have named : Setting.Given {d with table := some arg1} .table := rfl
      have scanned : Leaves (if arg2.map (·.map Format.lower) = some (text "scan") then
          Prog.modify fun dir => {dir with
            tableScan := true, indexScan := {dir.indexScan with name := arg3.or dir.indexScan.name}}
          else pure ()) :=
        Prog.Steps.ite (Prog.Steps.modify fun d => untouched_of_same d _ rfl) (Prog.Steps.pure ())
      have reached := (scanned.spares .table).keeps _ _ named
      have same : d' = _ := (congrArg Prod.snd ran).symm
      rw [same]
      exact reached
    | _ => cases sets
  | sql query => exact query_gives query setting sets d d' ran
  | _ => cases setting <;> trivial

/-- What the directives of a section each keep, a section keeps. -/
theorem configure_keeps (formats : Text → Option OutputFormat) (I : Dir → Prop)
    (directives : List Directive)
    (each : ∀ directive ∈ directives, ∀ d d', directive.run formats d = (.ok (),d') → I d → I d')
    (d d' : Dir) (ran : configure formats directives d = (.ok (),d')) (holds : I d) : I d' := by
  induction directives generalizing d with
  | nil => cases ran; exact holds
  | cons directive directives ih =>
    obtain ⟨_,middle,first,rest⟩ := Prog.bind_inv ran
    exact ih (fun later inside => each later (List.mem_cons_of_mem _ inside)) middle rest
      (each directive List.mem_cons_self d middle first holds)

/-- What one of the directives establishes and the others keep holds in the end. -/
theorem configure_establishes (formats : Text → Option OutputFormat) (I : Dir → Prop)
    (directives : List Directive)
    (each : ∀ directive ∈ directives, ∀ d d', directive.run formats d = (.ok (),d') → I d → I d')
    (directive : Directive) (inside : directive ∈ directives)
    (gives : ∀ d d', directive.run formats d = (.ok (),d') → I d') (d d' : Dir)
    (ran : configure formats directives d = (.ok (),d')) : I d' := by
  induction directives generalizing d with
  | nil => cases inside
  | cons first directives ih =>
    obtain ⟨_,middle,ran,rest⟩ := Prog.bind_inv ran
    have later : ∀ directive ∈ directives, ∀ d d',
        directive.run formats d = (.ok (),d') → I d → I d' :=
      fun directive inside => each directive (List.mem_cons_of_mem _ inside)
    rcases List.mem_cons.mp inside with rfl | inside
    · exact configure_keeps formats I directives later middle d' rest (gives d middle ran)
    · exact ih later inside middle rest

end ModNdb.Config
