import ModNdb.Config.Reached

/-! What directives define: the indexes, in the order in which they are first named, and the key
columns. -/
namespace ModNdb.Config
open Format (OutputFormat)
open Prog (Leads Steps)

structure Catalog where
  indexes : List (Text × UInt8)
  columns : List Text
  deriving DecidableEq

namespace Catalog

def empty : Catalog := ⟨[],[]⟩

def typeOf (c : Catalog) (idx : Text) : Option UInt8 :=
  (c.indexes.find? fun index => index.1 = idx).map Prod.snd

/-- An index has the type it is named with first. -/
def build (type : UInt8) (idx : Text) (c : Catalog) : Catalog :=
  if (c.typeOf idx).isSome then c else {c with indexes := c.indexes ++ [(idx,type)]}

def define (name : Text) (c : Catalog) : Catalog := {c with columns := c.columns ++ [name]}

/-- A column is given to an index; for an ordered one a word in brackets is a sort flag. -/
def give (idx name : Text) (c : Catalog) : Catalog :=
  if c.typeOf idx = some (code 'O') ∧ name.head? = some (code '[') then c else c.define name

def named (type : UInt8) (idx name : Text) (c : Catalog) : Catalog := (c.build type idx).give idx name

/-- Constants are no columns. -/
def compare (idx : Text) (value : IndexValue) (c : Catalog) : Catalog :=
  match value with
  | .param name => c.give idx name
  | .const _ => c

end Catalog

def Lookup.catalog (c : Catalog) : Lookup → Catalog
  | .primaryKey values =>
    values.foldl (fun c value => c.compare primaryKeyName value) (c.build (code 'P') primaryKeyName)
  | .uniqueIndex name values =>
    values.foldl (fun c value => c.compare name value) (c.build (code 'U') name)

def QueryPlan.catalog (c : Catalog) : QueryPlan → Catalog
  | .lookup spec => spec.catalog c
  | .tableScan => c
  | .indexScan name conditions _ =>
    let idxname := name.getD (text "PRIMARY")
    if conditions = [] then c
    else conditions.foldl (fun c condition => c.compare idxname condition.value)
      (c.build (code 'O') idxname)

def Query.catalog (c : Catalog) : Query → Catalog
  | .select _ _ plan => plan.elim c (QueryPlan.catalog c)
  | .delete _ spec => spec.catalog c
  | .queryPlan plan => plan.catalog c

def Directive.catalog (c : Catalog) : Directive → Catalog
  | .primaryKey cols => cols.foldl (fun c col => c.named (code 'P') primaryKeyName col) c
  | .uniqueIndex idx cols => cols.foldl (fun c col => c.named (code 'U') idx col) c
  | .orderedIndex idx cols => cols.foldl (fun c col => c.named (code 'O') idx col) c
  | .pathInfo spec _ => (pathWords spec).foldl (fun c word => c.define word) c
  | .filter _ _ aliasColName => c.define aliasColName
  | .sql query => query.catalog c
  | _ => c

def catalogOf (directives : List Directive) : Catalog :=
  directives.foldl Directive.catalog .empty

structure Reflects (c : Catalog) (d : Dir) : Prop where
  indexes : d.indexes.map (fun index => (index.name,index.type)) = c.indexes
  columns : ∀ name, name ∈ d.keyColumns.map KeyCol.name ↔ name ∈ c.columns

def Defines {α : Type} (f : Catalog → Catalog) (x : Setup α) : Prop :=
  ∀ c, Leads (Reflects c) x fun _ => Reflects (f c)

def Dir.listing (d : Dir) : List (Text × UInt8) × List Text :=
  (d.indexes.map (fun index => (index.name,index.type)),d.keyColumns.map KeyCol.name)

section
variable {α β : Type}

theorem Defines.bind {f g : Catalog → Catalog} {x : Setup α} {k : α → Setup β} (first : Defines f x)
    (rest : ∀ a, Defines g (k a)) : Defines (fun c => g (f c)) (x >>= k) :=
  fun c => (first c).bind fun a => rest a (f c)

theorem Defines.fail {f : Catalog → Catalog} (why : Refusal) :
    Defines f (Prog.fail why : Setup α) := fun _ => Leads.fail why

theorem Defines.ite {f : Catalog → Catalog} {p : Prop} [Decidable p] {x y : Setup α}
    (yes : Defines f x) (no : Defines f y) : Defines f (if p then x else y) :=
  fun c => Leads.ite (fun _ => yes c) fun _ => no c

theorem defines_nothing {x : Setup α} (steps : Steps (Stays Dir.listing) x) : Defines id x :=
  fun c => (steps.keeps fun d d' same reflects => by
    obtain ⟨indexes,columns⟩ := Prod.mk.inj same
    exact ⟨indexes.trans reflects.indexes,fun name => columns ▸ reflects.columns name⟩).leads

theorem Defines.forM {l : List α} {f : Catalog → α → Catalog} {body : α → Setup PUnit}
    (each : ∀ a ∈ l, Defines (fun c => f c a) (body a)) :
    Defines (fun c => l.foldl f c) (l.forM body) := by
  induction l with
  | nil => exact fun c => Leads.pure _ fun _ reflects => reflects
  | cons a l ih =>
    exact (each a List.mem_cons_self).bind fun _ =>
      ih fun b inside => each b (List.mem_cons_of_mem a inside)

end

theorem view_listing (d d' : Dir) (same : Stays Dir.view d d') : Stays Dir.listing d d' := by
  obtain ⟨keys,rest⟩ := Prod.mk.inj same
  have indexes := (Prod.mk.inj rest).1
  have names := congrArg (List.map Prod.fst) keys
  have kinds := congrArg (List.map fun said => (said.1,said.2.1)) indexes
  rw [List.map_map,List.map_map] at names kinds
  exact Prod.ext kinds names

theorem defines_view {α : Type} {x : Setup α} (steps : Steps (Stays Dir.view) x) : Defines id x :=
  defines_nothing (steps.mono view_listing)

theorem setKeyCol_defines (p : Nat) (change : KeyCol → KeyCol)
    (same : ∀ key, (change key).name = key.name) : Defines id (setKeyCol p change) :=
  defines_nothing (Steps.modify fun d => Prod.ext rfl
    (map_modify KeyCol.name change same d.keyColumns p))

theorem setIndex_defines (i : Nat) (change : Index → Index)
    (same : ∀ index, ((change index).name,(change index).type) = (index.name,index.type)) :
    Defines id (setIndex i change) :=
  defines_nothing (Steps.modify fun d => Prod.ext
    (map_modify (fun index : Index => (index.name,index.type)) change same d.indexes i) rfl)

theorem listing_linkFree : LinkFree Dir.listing where
  next d n next := Prod.ext rfl
    (map_modify KeyCol.name (KeyCol.withNext · next) (fun _ => rfl) d.keyColumns n)
  first d n first := Prod.ext (map_modify (fun index : Index => (index.name,index.type))
    (fun record => {record with firstCol := first}) (fun _ => rfl) d.indexes n) rfl

theorem mappedIds_stays {α : Type} {f : Dir → α} (serials : List Nat) :
    Steps (Stays f) (mappedIds serials) := by
  induction serials with
  | nil => exact Steps.pure _
  | cons serial serials ih =>
    exact (keyCol_stays serial).bind fun _ => ih.bind fun _ => Steps.pure _

theorem fixLinks_defines : Defines id fixLinks := by
  refine defines_nothing (Steps.modifyThen (fun d => ?_) (Steps.get fun d => ?_))
  · exact Prod.ext rfl (mapSerials_map KeyCol.name (fun _ _ => rfl) d.keyColumns _)
  · exact (Steps.forM (relinkIndex_stays listing_linkFree)).bind fun _ =>
      (mappedIds_stays _).bind fun _ => Steps.modify fun _ => rfl

theorem addKeyColumn_defines (keyname : Text) :
    Defines (Catalog.define keyname) (addKeyColumn keyname) := by
  intro c
  unfold addKeyColumn
  refine Leads.get fun d reflects => ?_
  dsimp only
  have defined (d' : Dir) (indexes : d'.indexes = d.indexes)
      (names : ∀ name, name ∈ d'.keyColumns.map KeyCol.name ↔
        name ∈ d.keyColumns.map KeyCol.name ∨ name = keyname) :
      Reflects (c.define keyname) d' := by
    refine ⟨indexes ▸ reflects.indexes,fun name => (names name).trans ?_⟩
    rw [reflects.columns name]
    exact (List.mem_append.trans (or_congr_right List.mem_singleton)).symm
  refine Leads.ite (fun found => Leads.pure _ ?_) fun _ => ?_
  · rintro s rfl
    obtain ⟨key,there,rfl⟩ := keyPlace_found keyname s.keyColumns found
    refine defined s rfl fun name => (or_iff_left_of_imp ?_).symm
    rintro rfl
    exact List.mem_map_of_mem (List.mem_of_getElem? there)
  · refine Leads.bind (Q := fun _ => Reflects (c.define keyname)) (Leads.modify _ ?_) fun _ => ?_
    · rintro s rfl
      refine defined _ rfl fun name => ?_
      rw [List.mem_map,List.mem_map]
      constructor
      · rintro ⟨key,inside,rfl⟩
        rcases (List.mem_insertIdx (keyPlace_le _ _)).mp inside with rfl | old
        · exact .inr rfl
        · exact .inl ⟨key,old,rfl⟩
      · rintro (⟨key,old,rfl⟩ | rfl)
        · exact ⟨key,(List.mem_insertIdx (keyPlace_le _ _)).mpr (.inr old),rfl⟩
        · exact ⟨_,(List.mem_insertIdx (keyPlace_le _ _)).mpr (.inl rfl),rfl⟩
    · refine Leads.ite (fun _ => ?_) fun _ => Leads.pure _ fun _ reflects => reflects
      exact (fixLinks_defines _).bind fun _ => Leads.pure _ fun _ reflects => reflects

theorem addColumnToIndex_defines (i : Nat) (expr : Expr) :
    Defines (Catalog.define expr.value) (addColumnToIndex i expr) := by
  refine (addKeyColumn_defines expr.value).bind (g := id) fun added =>
    (defines_nothing (index_stays i)).bind (g := id) fun record =>
      (setKeyCol_defines _ _ fun key => ?_).bind (g := id) fun _ =>
        defines_nothing (Steps.pure _)
  dsimp only
  split_ifs <;> rfl

theorem indexConstant_defines (idx : Text) (expr : Expr) :
    Defines id (indexConstant idx expr) := by
  refine (defines_nothing (namedIndexId_stays idx)).bind (g := id) fun i => ?_
  refine Defines.bind (f := id) (g := id) (defines_nothing (Steps.modify ?_)) fun _ => ?_
  · exact fun _ => rfl
  refine (defines_nothing (index_stays i)).bind (g := id) fun record =>
    Defines.ite (Defines.fail _) (Defines.ite (Defines.fail _) (setIndex_defines _ _ ?_))
  exact fun _ => rfl

theorem typeOf_record (c : Catalog) (d : Dir) (reflects : Reflects c d) (idx : Text) (i : Nat)
    (record : Index) (named : getIndexByName d idx = some i)
    (there : d.indexes[i]? = some record) : c.typeOf idx = some record.type := by
  obtain ⟨bound,same,others⟩ := List.findIdx?_eq_some_iff_getElem.mp named
  obtain ⟨_,rfl⟩ := List.getElem?_eq_some_iff.mp there
  have found : c.indexes.find? (fun index => index.1 = idx) =
      some (d.indexes[i].name,d.indexes[i].type) := by
    rw [← reflects.indexes,List.find?_map]
    refine Option.map_eq_some_iff.mpr ⟨d.indexes[i],?_,rfl⟩
    refine List.find?_eq_some_iff_getElem.mpr ⟨same,i,bound,rfl,fun j before => ?_⟩
    simpa using others j before
  unfold Catalog.typeOf
  rw [found]
  rfl

theorem typeOf_none (c : Catalog) (d : Dir) (reflects : Reflects c d) (idx : Text) :
    (getIndexByName d idx).isNone = true ↔ ¬(c.typeOf idx).isSome = true := by
  unfold getIndexByName Catalog.typeOf
  rw [Option.isSome_map,← reflects.indexes,List.find?_map,Option.isSome_map,Option.isNone_iff_eq_none,
    List.findIdx?_eq_none_iff,Bool.not_eq_true,Option.isSome_eq_false_iff,Option.isNone_iff_eq_none,
    List.find?_eq_none]
  simp

theorem buildIndex_defines (type : UInt8) (idx : Text) :
    Defines (Catalog.build type idx) (buildIndex type idx) := by
  intro c
  unfold buildIndex
  refine Leads.get fun d reflects => Leads.ite (fun missing => Leads.modify _ ?_) fun there => ?_
  · rintro s rfl
    have unnamed := (typeOf_none c s reflects idx).mp missing
    unfold Catalog.build
    rw [if_neg unnamed]
    refine ⟨?_,reflects.columns⟩
    rw [List.map_append,reflects.indexes]
    rfl
  · refine Leads.pure _ ?_
    rintro s rfl
    have named := not_not.mp (mt (typeOf_none c s reflects idx).mpr there)
    unfold Catalog.build
    rw [if_pos named]
    exact reflects

theorem namedIdx_defines (idx : Text) (expr : Expr) :
    Defines (Catalog.give idx expr.value) (namedIdx idx expr) := by
  intro c d u d' reflects ran
  obtain ⟨i,d₁,named,behind⟩ := Prog.bind_inv ran
  obtain ⟨record,d₂,read,done⟩ := Prog.bind_inv behind
  obtain ⟨rfl,found⟩ : d₁ = d ∧ getIndexByName d idx = some i := by
    unfold namedIndexId at named
    rw [Prog.bind_ok _ (Prog.get_run d)] at named
    cases found : getIndexByName d idx with
    | none =>
      rw [found] at named
      cases (Prod.mk.inj named).1
    | some id =>
      rw [found] at named
      cases named
      exact ⟨rfl,rfl⟩
  obtain ⟨rfl,there⟩ := index_leads (P := (· = d₁)) i _ record d₂ rfl read
  have type := typeOf_record c d₂ reflects idx i record found there
  unfold Catalog.give
  rw [type]
  by_cases flag : record.type = code 'O' ∧ expr.value.head? = some (code '[')
  · rw [if_pos flag] at done
    rw [if_pos (by rw [flag.1]; exact ⟨rfl,flag.2⟩)]
    have sorts : Defines id (if expr.value = text "[ASC]" then sortScan true idx false
        else if expr.value = text "[DESC]" then sortScan true idx true
        else refuse (text "Unrecognized sort flag: " ++ expr.value ++ text ".")) :=
      Defines.ite (defines_view (sortScan_view _ _ _))
        (Defines.ite (defines_view (sortScan_view _ _ _)) (Defines.fail _))
    exact sorts c d₂ u d' reflects done
  · rw [if_neg flag] at done
    rw [if_neg fun both => flag ⟨Option.some.inj both.1,both.2⟩]
    have gives := (addColumnToIndex_defines i expr).bind (g := id) fun colId =>
      (setIndex_defines i (fun index => {index with nColumns := index.nColumns + 1})
        fun _ => rfl).bind (g := id) fun _ => defines_view (linkColumn_view i colId)
    exact gives c d₂ u d' reflects done

theorem namedIndex_defines (which : UInt8) (idx col : Text) :
    Defines (Catalog.named which idx col) (namedIndex which idx col) := by
  intro c
  unfold namedIndex
  refine Leads.get fun d reflects => Leads.ite (fun _ => Leads.fail _) fun _ => ?_
  refine (((buildIndex_defines which idx).bind fun _ => namedIdx_defines idx ⟨[],4,false,col⟩) c).mono
    ?_ fun _ _ => id
  rintro s rfl
  exact reflects

theorem indexCondition_defines (idx base : Text) (relOp : Nat) (value : IndexValue) :
    Defines (fun c => c.compare idx value) (indexCondition idx (value.expr base relOp)) := by
  cases value with
  | param name => exact namedIdx_defines idx ⟨base,relOp,false,name⟩
  | const token => exact indexConstant_defines idx ⟨base,relOp,true,token⟩

theorem Lookup.defines (spec : Lookup) : Defines (fun c => spec.catalog c) spec.run := by
  cases spec with
  | primaryKey values =>
    exact (buildIndex_defines _ _).bind fun _ =>
      Defines.forM fun value _ => indexCondition_defines _ _ _ value
  | uniqueIndex name values =>
    exact (buildIndex_defines _ _).bind fun _ =>
      Defines.forM fun value _ => indexCondition_defines _ _ _ value

theorem defines_then {α : Type} {f : Dir → Dir} {g : Catalog → Catalog} {rest : Unit → Setup α}
    (same : ∀ d, (f d).listing = d.listing) (after : Defines g (rest ())) :
    Defines g ((Prog.modify f : Setup Unit) >>= rest) :=
  Defines.bind (f := id) (defines_nothing (Steps.modify same)) fun _ => after

theorem nothing_defines : Defines id (pure () : Setup Unit) := defines_nothing (Steps.pure ())

theorem QueryPlan.defines (plan : QueryPlan) : Defines (fun c => plan.catalog c) plan.run := by
  cases plan with
  | lookup spec => exact spec.defines
  | tableScan =>
    refine defines_nothing (Steps.modify ?_)
    exact fun _ => rfl
  | indexScan name conditions descending =>
    have scans (rest : Setup Unit) (after : Defines id rest) :
        Defines (fun c => (QueryPlan.indexScan name conditions descending).catalog c)
          (if conditions = [] then
            (Prog.modify fun dir => {dir with
              tableScan := true,
              indexScan := {dir.indexScan with name := some (name.getD (text "PRIMARY"))}}) >>=
              fun _ => rest
          else buildIndex (code 'O') (name.getD (text "PRIMARY")) >>= fun _ =>
            (conditions.forM fun condition => indexCondition (name.getD (text "PRIMARY"))
              (condition.value.expr condition.column condition.relop.value)) >>= fun _ => rest) := by
      intro c
      unfold QueryPlan.catalog
      dsimp only
      by_cases unbounded : conditions = []
      · rw [if_pos unbounded,if_pos unbounded]
        refine defines_then (g := id) ?_ after c
        exact fun _ => rfl
      · rw [if_neg unbounded,if_neg unbounded]
        exact ((buildIndex_defines _ _).bind fun _ =>
          (Defines.forM fun condition _ =>
            indexCondition_defines _ _ _ condition.value).bind (g := id) fun _ => after) c
    unfold QueryPlan.run
    cases descending with
    | none => exact scans _ nothing_defines
    | some descending => exact scans _ (defines_view (sortScan_view _ _ _))

theorem Query.defines (query : Query) : Defines (fun c => query.catalog c) query.run := by
  cases query with
  | select columns table plan =>
    have planned : Defines (fun c => plan.elim c (QueryPlan.catalog c))
        (table.run >>= fun _ => plan.elim (pure ()) QueryPlan.run) := by
      refine defines_then ?_ ?_
      · exact fun _ => rfl
      · cases plan with
        | none => exact nothing_defines
        | some plan => exact plan.defines
    have listed : Defines id (columns.elim
        (Prog.modify fun dir => {dir with selectStar := true}) (·.forM selectColumn)) := by
      cases columns with
      | none => exact defines_nothing (Steps.modify fun _ => rfl)
      | some columns => exact defines_nothing (Steps.forM fun _ => Steps.modify fun _ => rfl)
    have whole := listed.bind fun _ => planned
    cases columns <;> cases plan <;> exact whole
  | delete table spec =>
    refine defines_then ?_ (spec.defines.bind (g := id) fun _ => defines_nothing (Steps.modify ?_))
    · exact fun _ => rfl
    · exact fun _ => rfl
  | queryPlan plan => exact plan.defines

theorem filter_defines (baseColName filterOp aliasColName : Text) :
    Defines (Catalog.define aliasColName) (filter baseColName filterOp aliasColName) := by
  unfold filter
  refine (addKeyColumn_defines aliasColName).bind (g := id) fun added => ?_
  refine Defines.ite (Defines.fail _) ?_
  refine (setKeyCol_defines _ _ ?_).bind (g := id) fun _ => defines_then ?_ ?_
  · exact fun _ => rfl
  · exact fun _ => rfl
  · split
    · refine setKeyCol_defines _ _ ?_
      exact fun _ => rfl
    · exact Defines.fail _

theorem pathInfo_defines (spec : Text) (arg2 : Option Text) :
    Defines (fun c => (pathWords spec).foldl (fun c word => c.define word) c)
      (pathInfo spec arg2) := by
  have words (c : Catalog) : (pathWords spec).foldl (fun c word => c.define word) c =
      (pathWords spec).zipIdx.foldl (fun c item => c.define item.1) c := by
    rw [← List.foldl_map (f := Prod.fst) (g := fun c word => Catalog.define word c),
      List.zipIdx_map_fst]
  have whole : Defines
      (fun c => (pathWords spec).zipIdx.foldl (fun c item => c.define item.1) c)
      (pathInfo spec arg2) := by
    refine defines_then ?_ ((Defines.forM fun item _ => ?_).bind (g := id) fun _ => ?_)
    · exact fun _ => rfl
    · refine (addKeyColumn_defines item.1).bind (g := id) fun added =>
        (defines_nothing (keyCol_stays _)).bind (g := id) fun key =>
          defines_nothing (Steps.modify ?_)
      exact fun _ => rfl
    · refine Defines.ite (defines_nothing (Steps.modify ?_)) nothing_defines
      exact fun _ => rfl
  intro c
  dsimp only
  rw [words c]
  exact whole c

theorem Directive.defines (formats : Text → Option OutputFormat) (directive : Directive) :
    Defines (fun c => directive.catalog c) (directive.run formats) := by
  cases directive with
  | pathInfo spec arg2 => exact pathInfo_defines spec arg2
  | filter baseColName filterOp aliasColName => exact filter_defines _ _ _
  | sql query => exact query.defines
  | primaryKey cols | uniqueIndex idx cols | orderedIndex idx cols =>
    exact Defines.forM fun col _ => namedIndex_defines _ _ col
  | database name | deletes flag | eTags flag =>
    refine defines_nothing (Steps.modify ?_)
    exact fun _ => rfl
  | table arg1 arg2 arg3 =>
    refine defines_then ?_ (Defines.ite (defines_nothing (Steps.modify ?_)) nothing_defines)
    · exact fun _ => rfl
    · exact fun _ => rfl
  | format name =>
    refine defines_then ?_ (Defines.ite (Defines.fail _) nothing_defines)
    exact fun _ => rfl
  | columns names =>
    refine defines_nothing (Steps.forM fun arg => Steps.modify fun d => ?_)
    change Dir.listing _ = Dir.listing d
    split_ifs <;> rfl
  | allowUpdate names =>
    refine defines_nothing (Steps.forM fun arg => Steps.modify ?_)
    exact fun _ => rfl

/-- An accepted configuration has the indexes and the columns that its directives define. -/
theorem configure_reflects (formats : Text → Option OutputFormat) (directives : List Directive)
    (json : Option OutputFormat) (d : Dir)
    (accepted : configure formats directives (Dir.init json) = (.ok (),d)) :
    Reflects (catalogOf directives) d :=
  Defines.forM (fun directive _ => directive.defines formats) .empty (Dir.init json) () d
    ⟨rfl,fun _ => Iff.rfl⟩ accepted

end ModNdb.Config
