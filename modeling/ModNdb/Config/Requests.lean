import ModNdb.Config.Giving
import ModNdb.Config.Reached

/-! What directives give to the indexes, and when the chains are those of what has been given. -/
namespace ModNdb.Config
open Format (OutputFormat)

/-- What a directive does to the indexes: it builds one, or gives it a column. -/
inductive Request
  | build (type : UInt8) (idx : Text)
  | give (idx column : Text)

namespace Listed

/-- For an ordered index a word in brackets is a sort flag. -/
def Flags (given : Listed) (column : Text) : Prop :=
  given.type = code 'O' ∧ column.head? = some (code '[')

/-- The index has not got the column yet. Every other index that has it has it as the last one,
and none of them has the column that has been the last one of the index. -/
def Accepts (given : Listed) (listed : List Listed) (column : Text) : Prop :=
  column ∉ given.columns ∧
  (∀ other ∈ listed, column ∈ other.columns → other.columns.getLast? = some column) ∧
  ∀ last ∈ given.columns.getLast?, ∀ other ∈ listed, other.name ≠ given.name → last ∉ other.columns

instance (given : Listed) (column : Text) : Decidable (given.Flags column) :=
  inferInstanceAs (Decidable (_ ∧ _))

instance (given : Listed) (listed : List Listed) (column : Text) :
    Decidable (given.Accepts listed column) :=
  inferInstanceAs (Decidable (_ ∧ _ ∧ _))

end Listed

namespace Request

def takes (listed : List Listed) : Request → List Listed
  | .build type idx =>
    if ∃ given ∈ listed, given.name = idx then listed else listed ++ [⟨idx,type,[]⟩]
  | .give idx column => listed.map fun given =>
    if given.name = idx ∧ ¬given.Flags column then {given with columns := given.columns ++ [column]}
    else given

def Fits (listed : List Listed) : Request → Prop
  | .build _ _ => True
  | .give idx column =>
    ∀ given ∈ listed, given.name = idx → ¬given.Flags column → given.Accepts listed column

instance (listed : List Listed) : (request : Request) → Decidable (request.Fits listed)
  | .build _ _ => isTrue trivial
  | .give idx column => inferInstanceAs (Decidable (∀ given ∈ listed, given.name = idx →
    ¬given.Flags column → given.Accepts listed column))

end Request

def takeAll (listed : List Listed) (requests : List Request) : List Listed :=
  requests.foldl Request.takes listed

def FitAll (listed : List Listed) : List Request → Prop
  | [] => True
  | request::requests => request.Fits listed ∧ FitAll (request.takes listed) requests

instance decidableFitAll : (listed : List Listed) → (requests : List Request) →
    Decidable (FitAll listed requests)
  | _, [] => isTrue trivial
  | listed, request::requests =>
    have := decidableFitAll (request.takes listed) requests
    inferInstanceAs (Decidable (_ ∧ _))

/-- A constant is no column. -/
def IndexValue.requests (idx : Text) : IndexValue → List Request
  | .param name => [.give idx name]
  | .const _ => []

def Lookup.requests : Lookup → List Request
  | .primaryKey values =>
    .build (code 'P') primaryKeyName :: values.flatMap (IndexValue.requests primaryKeyName)
  | .uniqueIndex name values =>
    .build (code 'U') name :: values.flatMap (IndexValue.requests name)

def QueryPlan.requests : QueryPlan → List Request
  | .lookup spec => spec.requests
  | .tableScan => []
  | .indexScan name conditions _ =>
    let idxname := name.getD (text "PRIMARY")
    if conditions = [] then []
    else .build (code 'O') idxname ::
      conditions.flatMap fun condition => condition.value.requests idxname

def Query.requests : Query → List Request
  | .select _ _ plan => plan.elim [] QueryPlan.requests
  | .delete _ spec => spec.requests
  | .queryPlan plan => plan.requests

def Directive.requests : Directive → List Request
  | .primaryKey cols =>
    cols.flatMap fun col => [.build (code 'P') primaryKeyName,.give primaryKeyName col]
  | .uniqueIndex idx cols => cols.flatMap fun col => [.build (code 'U') idx,.give idx col]
  | .orderedIndex idx cols => cols.flatMap fun col => [.build (code 'O') idx,.give idx col]
  | .sql query => query.requests
  | _ => []

def Follows (keys : List KeyCol) : List Nat → Option Nat → Prop
  | [], first => first = none
  | id::ids, first => first = some id ∧ ∃ key, keys[id]? = some key ∧ Follows keys ids key.nextInKey

/-- The chain of an index ends, comes to no column twice, is as long as the index says, and is of
the columns that the index has been given. -/
structure Chain (keys : List KeyCol) (record : Index) (given : Listed) : Prop where
  name : record.name = given.name
  chain : ∃ ids, Follows keys ids record.firstCol ∧ ids.Nodup ∧ ids.length = record.nColumns ∧
    ids.map (fun id => keys[id]?.map KeyCol.name) = given.columns.map some

theorem follows_serially {keys : List KeyCol} (table : Table keys) (names : List Text)
    (serial : Option Nat) (chain : Serially keys serial names)
    (fixed : ∀ key ∈ keys, key.name ∈ names → Fixed keys key) :
    ∃ ids, Follows keys ids (serial.bind (position keys)) ∧
      ids.map (fun id => keys[id]?.map KeyCol.name) = names.map some := by
  induction names generalizing serial with
  | nil =>
    have none : serial = none := chain
    rw [none]
    exact ⟨[],rfl,rfl⟩
  | cons name names ih =>
    obtain ⟨key,inside,rfl,rfl,rest⟩ := chain
    obtain ⟨id,there⟩ := List.mem_iff_getElem?.mp inside
    obtain ⟨ids,follows,same⟩ := ih _ rest fun other inside named =>
      fixed other inside (List.mem_cons_of_mem _ named)
    have link := fixed key inside List.mem_cons_self
    unfold Fixed at link
    rw [← link] at follows
    refine ⟨id::ids,⟨table.position_of id key there,key,there,follows⟩,?_⟩
    rw [List.map_cons,List.map_cons,same,there]
    rfl

theorem Chained.chain {keys : List KeyCol} (table : Table keys) {record : Index} {given : Listed}
    (chained : Chained keys record given) : Chain keys record given := by
  obtain ⟨ids,follows,same⟩ := follows_serially table given.columns _ chained.strand.serial
    chained.strand.fixed
  have distinct := serially_nodup table _ _ chained.strand.serial
  have lengths := congrArg List.length same
  rw [List.length_map,List.length_map] at lengths
  refine ⟨chained.name,ids,chained.strand.first ▸ follows,?_,lengths.trans chained.count.symm,same⟩
  refine List.Nodup.of_map (fun id => keys[id]?.map KeyCol.name) ?_
  rw [same]
  exact distinct.map (Option.some_injective _)

theorem Follows.below {keys : List KeyCol} {ids : List Nat} {first : Option Nat}
    (follows : Follows keys ids first) : ∀ id ∈ ids, id < keys.length := by
  induction ids generalizing first with
  | nil => exact fun _ none => absurd none List.not_mem_nil
  | cons id ids ih =>
    obtain ⟨_,key,there,rest⟩ := follows
    exact List.forall_mem_cons.mpr ⟨(List.getElem?_eq_some_iff.mp there).1,ih rest⟩

/-- Its ids and its length are ones that a `short` holds, as long as there are no more columns than
a `short` can number. -/
theorem Chain.short {keys : List KeyCol} {record : Index} {given : Listed}
    (chain : Chain keys record given) (few : keys.length ≤ 2^15) :
    record.nColumns ≤ 2^15 ∧
      ∃ ids, Follows keys ids record.firstCol ∧ ∀ id ∈ ids, id < 2^15 := by
  obtain ⟨ids,follows,distinct,length,_⟩ := chain.chain
  have among : ids ⊆ List.range keys.length := fun id inside =>
    List.mem_range.mpr (follows.below id inside)
  have most := (List.subperm_of_subset distinct among).length_le
  rw [length,List.length_range] at most
  exact ⟨Nat.le_trans most few,ids,follows,fun id inside =>
    Nat.lt_of_lt_of_le (follows.below id inside) few⟩

/-- A step that the server goes on after has done what is requested, and nothing else ends it
than a message. -/
def Serves {α : Type} (listed : List Listed) (requests : List Request) (x : Setup α) : Prop :=
  FitAll listed requests → ∀ d, Wired d listed →
    (∃ a d', x d = (.ok a,d') ∧ Wired d' (takeAll listed requests)) ∨
    ∃ why d', x d = (.error (.message why),d')

theorem fitAll_append (listed : List Listed) (requests requests' : List Request) :
    FitAll listed (requests ++ requests') ↔
      FitAll listed requests ∧ FitAll (takeAll listed requests) requests' := by
  induction requests generalizing listed with
  | nil => exact (and_iff_right trivial).symm
  | cons request requests ih =>
    change _ ∧ FitAll _ (requests ++ requests') ↔ _
    rw [ih]
    exact and_assoc.symm

section
variable {α β : Type} {listed : List Listed}

theorem Serves.bind {r s : List Request} {x : Setup α} {f : α → Setup β}
    (first : Serves listed r x) (rest : ∀ a, Serves (takeAll listed r) s (f a)) :
    Serves listed (r ++ s) (x >>= f) := by
  intro fits d wired
  obtain ⟨here,later⟩ := (fitAll_append listed r s).mp fits
  obtain ⟨a,d',ran,wired'⟩ | ⟨why,d',ran⟩ := first here d wired
  · rw [Prog.bind_ok _ ran,takeAll,List.foldl_append]
    exact rest a later d' wired'
  · exact .inr ⟨why,d',Prog.bind_error _ ran⟩

theorem Serves.pure (a : α) : Serves listed [] (Pure.pure a : Setup α) :=
  fun _ d wired => .inl ⟨a,d,rfl,wired⟩

theorem serves_refuse (requests : List Request) (message : Text) :
    Serves listed requests (refuse message : Setup α) :=
  fun _ d _ => .inr ⟨message,d,rfl⟩

theorem Serves.ite {r : List Request} {p : Prop} [Decidable p] {x y : Setup α}
    (yes : p → Serves listed r x) (no : ¬p → Serves listed r y) :
    Serves listed r (if p then x else y) := by
  by_cases holds : p
  · rw [if_pos holds]
    exact yes holds
  · rw [if_neg holds]
    exact no holds

theorem serves_modify {f : Dir → Dir} (same : ∀ d, Wired d listed → Wired (f d) listed) :
    Serves listed [] (Prog.modify f : Setup Unit) :=
  fun _ d wired => .inl ⟨(),_,rfl,same d wired⟩

theorem Serves.forM {l : List α} {r : α → List Request} {body : α → Setup PUnit}
    (P : List Listed → Prop) (holds : P listed)
    (keeps : ∀ listed request, P listed → P (Request.takes listed request))
    (each : ∀ a ∈ l, ∀ listed, P listed → Serves listed (r a) (body a)) :
    Serves listed (l.flatMap r) (l.forM body) := by
  induction l generalizing listed with
  | nil => exact Serves.pure _
  | cons a l ih =>
    refine (each a List.mem_cons_self listed holds).bind fun _ =>
      ih ?_ fun b inside => each b (List.mem_cons_of_mem a inside)
    unfold takeAll
    exact List.foldlRecOn (r a) Request.takes holds fun listed holds request _ =>
      keeps listed request holds

end

theorem quiet_forM {α : Type} {listed : List Listed} (l : List α) {body : α → Setup PUnit}
    (each : ∀ a, Serves listed [] (body a)) : Serves listed [] (l.forM body) := by
  induction l with
  | nil => exact Serves.pure _
  | cons a l ih => exact (each a).bind fun _ => ih

theorem Wired.same {d d' : Dir} {listed : List Listed} (wired : Wired d listed)
    (same : (d'.keyColumns,d'.indexes,d'.pathinfoSerials) =
      (d.keyColumns,d.indexes,d.pathinfoSerials)) : Wired d' listed := by
  obtain ⟨keys,rest⟩ := Prod.mk.inj same
  obtain ⟨indexes,serials⟩ := Prod.mk.inj rest
  refine ⟨?_,?_,?_,wired.kinds,wired.names,?_⟩
  · exact keys ▸ wired.table
  · exact indexes ▸ wired.length
  · rw [keys,indexes]
    exact wired.chained
  · rw [keys,serials]
    exact wired.paths

def Named (idx : Text) (listed : List Listed) : Prop := idx ∈ listed.map Listed.name

theorem give_names (idx column : Text) (listed : List Listed) :
    (Request.takes listed (.give idx column)).map Listed.name = listed.map Listed.name := by
  unfold Request.takes
  rw [List.map_map]
  refine List.map_congr_left fun given _ => ?_
  dsimp only [Function.comp_apply]
  split <;> rfl

theorem named_takes (idx : Text) (listed : List Listed) (request : Request)
    (named : Named idx listed) : Named idx (request.takes listed) := by
  unfold Named at *
  cases request with
  | build type other =>
    dsimp only [Request.takes]
    split
    · exact named
    · rw [List.map_append]
      exact List.mem_append_left _ named
  | give other column =>
    rw [give_names]
    exact named

theorem built_named (type : UInt8) (idx : Text) (listed : List Listed) :
    Named idx (Request.takes listed (.build type idx)) := by
  dsimp only [Request.takes]
  split
  · next there => exact List.mem_map.mpr there
  · exact List.mem_map_of_mem (List.mem_append_right listed (List.mem_singleton_self _))

theorem named_takeAll (idx : Text) (listed : List Listed) (requests : List Request)
    (named : Named idx listed) : Named idx (takeAll listed requests) :=
  List.foldlRecOn requests Request.takes named fun listed named request _ =>
    named_takes idx listed request named

section
variable {listed : List Listed}

theorem Wired.same_names {d : Dir} (wired : Wired d listed) :
    d.indexes.map Index.name = listed.map Listed.name := by
  apply List.ext_getElem?
  intro i
  rw [List.getElem?_map,List.getElem?_map]
  cases found : d.indexes[i]? with
  | none =>
    rw [List.getElem?_eq_none_iff,wired.length] at found
    rw [List.getElem?_eq_none found]
    rfl
  | some record =>
    obtain ⟨given,there,chained⟩ := wired.given i record found
    rw [there]
    exact congrArg some chained.name

theorem named_iff {d : Dir} (wired : Wired d listed) (idx : Text) :
    (getIndexByName d idx).isSome = true ↔ Named idx listed := by
  unfold getIndexByName Named
  rw [← wired.same_names,List.findIdx?_isSome,List.any_eq_true,List.mem_map]
  exact exists_congr fun record => and_congr_right fun _ => decide_eq_true_iff

theorem named_found {d : Dir} (wired : Wired d listed) (idx : Text) (named : Named idx listed) :
    ∃ i given, getIndexByName d idx = some i ∧ listed[i]? = some given ∧ given.name = idx ∧
      namedIndexId idx d = (.ok i,d) := by
  obtain ⟨i,found⟩ := Option.isSome_iff_exists.mp ((named_iff wired idx).mpr named)
  obtain ⟨bound,same,_⟩ := List.findIdx?_eq_some_iff_getElem.mp found
  obtain ⟨given,place,chained⟩ := wired.given i _ (List.getElem?_eq_getElem bound)
  refine ⟨i,given,found,place,chained.name.symm.trans (of_decide_eq_true same),?_⟩
  unfold namedIndexId
  rw [Prog.bind_ok _ (Prog.get_run d),found]
  rfl

theorem names_apart (names : (listed.map Listed.name).Nodup) (m i : Nat) (other given : Listed)
    (there : listed[m]? = some other) (there' : listed[i]? = some given) (apart : m ≠ i) :
    other.name ≠ given.name := by
  obtain ⟨bound,rfl⟩ := List.getElem?_eq_some_iff.mp there
  obtain ⟨bound',rfl⟩ := List.getElem?_eq_some_iff.mp there'
  intro same
  rw [← List.length_map Listed.name] at bound bound'
  refine apart ((List.Nodup.getElem_inj_iff names).mp (?_ :
    (listed.map Listed.name)[m] = (listed.map Listed.name)[i]))
  rw [List.getElem_map,List.getElem_map]
  exact same

theorem give_takes (names : (listed.map Listed.name).Nodup) (i : Nat) (given : Listed)
    (there : listed[i]? = some given) (column : Text) (plain : ¬given.Flags column) :
    Request.takes listed (.give given.name column) =
      listed.set i {given with columns := given.columns ++ [column]} := by
  apply List.ext_getElem?
  intro m
  dsimp only [Request.takes]
  have bound := (List.getElem?_eq_some_iff.mp there).1
  rw [List.getElem?_map,List.getElem?_set]
  by_cases here : i = m
  · subst here
    rw [if_pos rfl,if_pos bound,there,Option.map_some,if_pos ⟨rfl,plain⟩]
  · rw [if_neg here]
    cases found : listed[m]? with
    | none => rfl
    | some other =>
      rw [Option.map_some,if_neg]
      exact fun both => names_apart names m i other given found there (Ne.symm here) both.1

theorem flag_takes (idx column : Text)
    (flags : ∀ given ∈ listed, given.name = idx → given.Flags column) :
    Request.takes listed (.give idx column) = listed := by
  refine (List.map_congr_left fun given inside => ?_).trans (List.map_id _)
  rw [if_neg]
  · rfl
  · exact fun both => both.2 (flags given inside both.1)

theorem sortScan_serves (bounded : Bool) (idx : Text) (descending : Bool)
    (named : bounded = true → Named idx listed) :
    Serves listed [] (sortScan bounded idx descending) := by
  unfold sortScan
  refine Serves.ite (fun bounds => ?_) fun _ => serves_modify fun d wired => wired.same rfl
  intro _ d wired
  obtain ⟨i,given,_,there,_,ran⟩ := named_found wired idx (named bounds)
  refine .inl ⟨(),_,(Prog.bind_ok _ ran).trans rfl,wired.reindexed i given there _ ?_⟩
  exact fun _ => rfl

theorem Wired.built {d : Dir} (wired : Wired d listed) (type : UInt8) (idx : Text)
    (kind : type = code 'P' ∨ type = code 'U' ∨ type = code 'O') (missing : ¬Named idx listed) :
    Wired {d with indexes := d.indexes ++ [⟨idx,0,none,none,type,false,false,[]⟩]}
      (listed ++ [⟨idx,type,[]⟩]) where
  table := wired.table
  length := by
    rw [List.length_append,List.length_append,wired.length]
    rfl
  chained n record given there there' := by
    dsimp only at there
    rw [List.getElem?_append] at there there'
    rw [wired.length] at there
    split at there
    · next old =>
      rw [if_pos old] at there'
      exact wired.chained n record given there there'
    · next new =>
      rw [if_neg new] at there'
      obtain rfl := List.mem_singleton.mp (List.mem_of_getElem? there)
      obtain rfl := List.mem_singleton.mp (List.mem_of_getElem? there')
      exact ⟨rfl,rfl,rfl,rfl,rfl,fun _ _ none => absurd none List.not_mem_nil⟩
  kinds given inside := by
    rcases List.mem_append.mp inside with old | new
    · exact wired.kinds given old
    · rw [List.mem_singleton.mp new]
      exact kind
  names := by
    rw [List.map_append]
    refine List.nodup_append.mpr ⟨wired.names,List.nodup_singleton _,?_⟩
    rintro name among other new rfl
    have same : name = idx := List.mem_singleton.mp new
    exact missing (same ▸ among)
  paths := wired.paths

theorem buildIndex_serves (type : UInt8) (idx : Text)
    (kind : type = code 'P' ∨ type = code 'U' ∨ type = code 'O') :
    Serves listed [.build type idx] (buildIndex type idx) := by
  intro _ d wired
  have takes : takeAll listed [.build type idx] =
      if ∃ given ∈ listed, given.name = idx then listed else listed ++ [⟨idx,type,[]⟩] := rfl
  unfold buildIndex
  rw [Prog.bind_ok _ (Prog.get_run d),takes]
  by_cases there : ∃ given ∈ listed, given.name = idx
  · have found := (named_iff wired idx).mpr (List.mem_map.mpr there)
    rw [if_pos there,if_neg (by rw [Option.isNone_eq_false_iff.mpr found]; exact Bool.false_ne_true)]
    exact .inl ⟨(),d,rfl,wired⟩
  · have apart : ¬Named idx listed := mt List.mem_map.mp there
    have missing := mt (named_iff wired idx).mp apart
    rw [if_neg there,if_pos (by rw [Option.isNone_iff_eq_none]; simpa using missing)]
    exact .inl ⟨(),_,rfl,wired.built type idx kind apart⟩

theorem namedIdx_serves (idx : Text) (expr : Expr) (named : Named idx listed) :
    Serves listed [.give idx expr.value] (namedIdx idx expr) := by
  intro fits d wired
  obtain ⟨i,given,found,there,rfl,indexed⟩ := named_found wired idx named
  have inside := List.mem_of_getElem? there
  obtain ⟨record,place,chained⟩ := wired.record i given there
  change (∃ a d', _ ∧ Wired d' (Request.takes listed (.give given.name expr.value))) ∨ _
  by_cases flag : given.Flags expr.value
  · have one (other : Listed) (among : other ∈ listed) (same : other.name = given.name) :
        other.Flags expr.value := by
      rw [List.inj_on_of_nodup_map wired.names among inside same]
      exact flag
    rw [flag_takes _ _ one]
    unfold namedIdx
    rw [Prog.bind_ok _ indexed,Prog.bind_ok _ (index_run i d record place),chained.type,
      if_pos (show given.type = code 'O' ∧ expr.value.head? = some (code '[') from flag)]
    have sorts (descending : Bool) := sortScan_serves true given.name descending fun _ => named
    exact Serves.ite (fun _ => sorts false)
      (fun _ => Serves.ite (fun _ => sorts true) fun _ => serves_refuse [] _) trivial d wired
  · obtain ⟨new,shared,alone⟩ := fits.1 given inside rfl flag
    rw [give_takes wired.names i given there expr.value flag]
    obtain ⟨d',ran,wired'⟩ := namedIdx_run wired i given expr there found flag new shared
      fun last ending m other apart there' => alone last ending other (List.mem_of_getElem? there')
        (names_apart wired.names m i other given there' there apart)
    exact .inl ⟨(),d',ran,wired'⟩

theorem namedIndex_serves (which : UInt8) (idx col : Text)
    (kind : which = code 'P' ∨ which = code 'U' ∨ which = code 'O') :
    Serves listed [.build which idx,.give idx col] (namedIndex which idx col) := by
  have both : Serves listed [.build which idx,.give idx col]
      (buildIndex which idx >>= fun _ => namedIdx idx ⟨[],4,false,col⟩) := by
    refine (buildIndex_serves which idx kind).bind (s := [.give idx col]) fun _ =>
      namedIdx_serves idx ⟨[],4,false,col⟩ (built_named which idx listed)
  intro fits d wired
  unfold namedIndex
  rw [Prog.bind_ok _ (Prog.get_run d)]
  exact Serves.ite (fun _ => serves_refuse _ _) (fun _ => both) fits d wired

theorem indexConstant_serves (idx : Text) (expr : Expr) (named : Named idx listed) :
    Serves listed [] (indexConstant idx expr) := by
  intro fits d wired
  obtain ⟨i,given,_,there,_,indexed⟩ := named_found wired idx named
  obtain ⟨record,place,chained⟩ := wired.record i given there
  have defaulted : Wired {d with defaultKey := some i} listed := wired.same rfl
  unfold indexConstant
  rw [Prog.bind_ok _ indexed,Prog.bind_ok _ (Prog.modify_run _ d),
    Prog.bind_ok _ (index_run i {d with defaultKey := some i} record place),chained.type]
  refine Serves.ite (r := []) (fun _ => serves_refuse _ _) (fun other => ?_) fits _ defaulted
  have ordered : given.type = code 'O' := by
    rcases wired.kinds given (List.mem_of_getElem? there) with kind | kind | kind
    · exact absurd (.inl kind) other
    · exact absurd (.inr kind) other
    · exact kind
  rw [if_neg (not_not_intro ordered)]
  refine fun _ d' wired' => .inl ⟨(),_,rfl,wired'.reindexed i given there _ ?_⟩
  exact fun _ => rfl

theorem indexCondition_serves (idx base : Text) (relOp : Nat) (value : IndexValue)
    (named : Named idx listed) :
    Serves listed (value.requests idx) (indexCondition idx (value.expr base relOp)) := by
  cases value with
  | param name => exact namedIdx_serves idx ⟨base,relOp,false,name⟩ named
  | const token => exact indexConstant_serves idx ⟨base,relOp,true,token⟩ named

theorem Lookup.serves (spec : Lookup) : Serves listed spec.requests spec.run := by
  have conditions (type : UInt8) (idx : Text)
      (kind : type = code 'P' ∨ type = code 'U' ∨ type = code 'O') (values : List IndexValue) :
      Serves listed ([.build type idx] ++ values.flatMap (IndexValue.requests idx))
        (buildIndex type idx >>= fun _ =>
          values.forM fun value => indexCondition idx (value.expr [] 4)) :=
    (buildIndex_serves type idx kind).bind fun _ =>
      Serves.forM (Named idx) (built_named type idx listed) (named_takes idx) fun value _ _ named =>
        indexCondition_serves idx [] 4 value named
  cases spec with
  | primaryKey values => exact conditions _ _ (.inl rfl) values
  | uniqueIndex name values => exact conditions _ _ (.inr (.inl rfl)) values

theorem nothing_serves : Serves listed [] (pure () : Setup Unit) := Serves.pure ()

theorem then_serves {f : Dir → Dir} {requests : List Request} {rest : Unit → Setup Unit}
    (same : ∀ d, ((f d).keyColumns,(f d).indexes,(f d).pathinfoSerials) =
      (d.keyColumns,d.indexes,d.pathinfoSerials)) (after : Serves listed requests (rest ())) :
    Serves listed requests ((Prog.modify f : Setup Unit) >>= rest) :=
  (serves_modify fun d wired => wired.same (same d)).bind fun _ => after

theorem QueryPlan.serves (plan : QueryPlan) : Serves listed plan.requests plan.run := by
  cases plan with
  | lookup spec => exact spec.serves
  | tableScan => exact serves_modify fun d wired => wired.same rfl
  | indexScan name conditions descending =>
    have scans (rest : Setup Unit) (after : ∀ listed,
        (conditions ≠ [] → Named (name.getD (text "PRIMARY")) listed) → Serves listed [] rest) :
        Serves listed (QueryPlan.indexScan name conditions descending).requests
          (if conditions = [] then
            (Prog.modify fun dir => {dir with
              tableScan := true,
              indexScan := {dir.indexScan with name := some (name.getD (text "PRIMARY"))}}) >>=
              fun _ => rest
          else buildIndex (code 'O') (name.getD (text "PRIMARY")) >>= fun _ =>
            (conditions.forM fun condition => indexCondition (name.getD (text "PRIMARY"))
              (condition.value.expr condition.column condition.relop.value)) >>= fun _ => rest) := by
      unfold QueryPlan.requests
      dsimp only
      by_cases unbounded : conditions = []
      · rw [if_pos unbounded,if_pos unbounded]
        refine then_serves ?_ (after listed fun bounded => absurd unbounded bounded)
        exact fun _ => rfl
      · rw [if_neg unbounded,if_neg unbounded,← List.append_nil (List.flatMap _ _)]
        refine (buildIndex_serves (code 'O') _ (.inr (.inr rfl))).bind fun _ => ?_
        have named := built_named (code 'O') (name.getD (text "PRIMARY")) listed
        refine (Serves.forM (Named _) named (named_takes _) fun condition _ listed named =>
          indexCondition_serves _ _ _ condition.value named).bind fun _ => after _ fun _ => ?_
        exact named_takeAll _ _ _ named
    unfold QueryPlan.run
    cases descending with
    | none => exact scans _ fun _ _ => nothing_serves
    | some descending =>
      refine scans _ fun listed named => sortScan_serves _ _ _ fun bounded => named ?_
      exact of_decide_eq_true bounded

theorem Query.serves (query : Query) : Serves listed query.requests query.run := by
  cases query with
  | select columns table plan =>
    have planned : Serves listed (plan.elim [] QueryPlan.requests)
        (table.run >>= fun _ => plan.elim (pure ()) QueryPlan.run) := by
      refine then_serves ?_ ?_
      · exact fun _ => rfl
      · cases plan with
        | none => exact nothing_serves
        | some plan => exact plan.serves
    have visible (f : Dir → Dir) (same : ∀ d, ((f d).keyColumns,(f d).indexes,(f d).pathinfoSerials) =
        (d.keyColumns,d.indexes,d.pathinfoSerials)) : Serves listed [] (Prog.modify f : Setup Unit) :=
      serves_modify fun d wired => wired.same (same d)
    have listing : Serves listed [] (columns.elim
        (Prog.modify fun dir => {dir with selectStar := true}) (·.forM selectColumn)) := by
      cases columns with
      | none => exact visible _ fun _ => rfl
      | some columns => exact quiet_forM columns fun _ => visible _ fun _ => rfl
    have whole := listing.bind fun _ => planned
    cases columns <;> cases plan <;> exact whole
  | delete table spec =>
    refine then_serves ?_ ?_
    · exact fun _ => rfl
    · have first : Serves listed spec.requests spec.run := spec.serves
      have whole := first.bind (s := []) fun _ => serves_modify
        (f := fun dir => {dir with allowDelete := true}) fun d wired => wired.same rfl
      rwa [List.append_nil] at whole
  | queryPlan plan => exact plan.serves

theorem addKeyColumn_serves (keyname : Text) {β : Type} {rest : Nat × Bool → Setup β}
    (after : ∀ id found d, Wired d listed →
      d.keyColumns[id]?.map KeyCol.name = some keyname →
      (∃ b d', rest (id,found) d = (.ok b,d') ∧ Wired d' listed) ∨
        ∃ why d', rest (id,found) d = (.error (.message why),d')) :
    Serves listed [] (addKeyColumn keyname >>= rest) := by
  intro _ d wired
  obtain ⟨id,found,d',ran,wired',named⟩ := addKeyColumn_run wired keyname
  rw [Prog.bind_ok _ ran]
  exact after id found d' wired' named

theorem pathInfo_serves (spec : Text) (arg2 : Option Text) :
    Serves listed [] (pathInfo spec arg2) := by
  unfold pathInfo
  refine Serves.bind (r := []) (s := []) (serves_modify fun d wired => ?_) fun _ =>
    Serves.bind (r := []) (s := []) (quiet_forM _ fun item => ?_) fun _ => ?_
  · refine ⟨wired.table,wired.length,wired.chained,wired.kinds,wired.names,fun serial inside => ?_⟩
    exact .inr (List.eq_of_mem_replicate inside)
  · refine addKeyColumn_serves item.1 fun id found d wired named => ?_
    obtain ⟨key,there,_⟩ := Option.map_eq_some_iff.mp named
    dsimp only
    rw [Prog.bind_ok _ (keyCol_run id d key there)]
    refine .inl ⟨(),_,rfl,wired.table,wired.length,wired.chained,wired.kinds,wired.names,?_⟩
    intro serial inside
    rcases List.mem_or_eq_of_mem_set inside with old | rfl
    · exact wired.paths serial old
    · exact .inl (wired.table.serial_lt key (List.mem_of_getElem? there))
  · exact Serves.ite (fun _ => serves_modify fun d wired => wired.same rfl) fun _ => nothing_serves

theorem setKeyCol_serves (p : Nat) (change : KeyCol → KeyCol)
    (same : ∀ key, ((change key).name,(change key).serialNo,(change key).nextInKeySerial,
      (change key).nextInKey) = (key.name,key.serialNo,key.nextInKeySerial,key.nextInKey)) :
    Serves listed [] (setKeyCol p change) := by
  refine serves_modify fun d wired => ?_
  cases there : d.keyColumns[p]? with
  | none =>
    rw [List.modify_eq_self (List.getElem?_eq_none_iff.mp there)]
    exact wired
  | some key =>
    obtain ⟨name,rest⟩ := Prod.mk.inj (same key)
    obtain ⟨serial,rest⟩ := Prod.mk.inj rest
    obtain ⟨next,link⟩ := Prod.mk.inj rest
    exact wired.renewed ⟨there,name,serial⟩ fun _ _ _ => ⟨next,link⟩

theorem filter_serves (baseColName filterOp aliasColName : Text) :
    Serves listed [] (filter baseColName filterOp aliasColName) := by
  unfold filter
  refine addKeyColumn_serves aliasColName fun id found d wired _ => ?_
  refine Serves.ite (r := []) (fun _ => serves_refuse _ _) (fun _ => ?_) trivial d wired
  refine Serves.bind (r := []) (s := []) (setKeyCol_serves _ _ ?_) fun _ =>
    then_serves ?_ ?_
  · exact fun _ => rfl
  · exact fun _ => rfl
  · split
    · refine setKeyCol_serves _ _ ?_
      exact fun _ => rfl
    · exact serves_refuse _ _

theorem Directive.serves (formats : Text → Option OutputFormat) (directive : Directive) :
    Serves listed directive.requests (directive.run formats) := by
  have named (which : UInt8) (idx : Text)
      (kind : which = code 'P' ∨ which = code 'U' ∨ which = code 'O') (cols : List Text) :
      Serves listed (cols.flatMap fun col => [.build which idx,.give idx col])
        (cols.forM (namedIndex which idx)) :=
    Serves.forM (fun _ => True) trivial (fun _ _ _ => trivial) fun col _ _ _ =>
      namedIndex_serves which idx col kind
  cases directive with
  | primaryKey cols => exact named _ _ (.inl rfl) cols
  | uniqueIndex idx cols => exact named _ _ (.inr (.inl rfl)) cols
  | orderedIndex idx cols => exact named _ _ (.inr (.inr rfl)) cols
  | pathInfo spec arg2 => exact pathInfo_serves spec arg2
  | filter baseColName filterOp aliasColName => exact filter_serves _ _ _
  | sql query => exact query.serves
  | database name | deletes flag | eTags flag =>
    exact serves_modify fun d wired => wired.same rfl
  | table arg1 arg2 arg3 =>
    refine then_serves ?_ (Serves.ite (fun _ => serves_modify fun d wired => wired.same rfl)
      fun _ => nothing_serves)
    exact fun _ => rfl
  | format name =>
    refine then_serves ?_ (Serves.ite (fun _ => serves_refuse _ _) fun _ => nothing_serves)
    exact fun _ => rfl
  | columns names =>
    refine quiet_forM names fun arg => serves_modify fun d wired => ?_
    split
    · exact wired.same rfl
    · exact wired.same rfl
  | allowUpdate names =>
    exact quiet_forM names fun arg => serves_modify fun d wired => wired.same rfl

end

theorem init_wired (json : Option OutputFormat) : Wired (Dir.init json) [] where
  table := ⟨List.Pairwise.nil,List.Perm.nil⟩
  length := rfl
  chained _ _ _ none := by cases none
  kinds _ none := absurd none List.not_mem_nil
  names := List.nodup_nil
  paths _ none := absurd none List.not_mem_nil

/-- Where each column that is given fits, every directive comes to an end, and the chains of the
configuration are those of the columns that the indexes have been given. -/
theorem configure_chains (formats : Text → Option OutputFormat) (directives : List Directive)
    (json : Option OutputFormat) (fits : FitAll [] (directives.flatMap Directive.requests)) :
    (∃ d, configure formats directives (Dir.init json) = (.ok (),d) ∧
      List.Forall₂ (Chain d.keyColumns) d.indexes
        (takeAll [] (directives.flatMap Directive.requests))) ∨
    ∃ why d, configure formats directives (Dir.init json) = (.error (.message why),d) := by
  obtain ⟨_,d,ran,wired⟩ | refused := Serves.forM (r := Directive.requests) (fun _ => True)
    trivial (fun _ _ _ => trivial) (fun directive _ _ _ => directive.serves formats) fits
    (Dir.init json) (init_wired json)
  · refine .inl ⟨d,ran,List.forall₂_iff_get.mpr ⟨wired.length,fun n bound bound' => ?_⟩⟩
    exact (wired.chained n _ _ (List.getElem?_eq_getElem bound)
      (List.getElem?_eq_getElem bound')).chain wired.table
  · exact .inr refused

/-- The column of the unique index is the last one of the ordered index. -/
theorem shared_chains :
    (∃ d, configure (fun _ => none)
        [.uniqueIndex (text "u") [text "a"],.orderedIndex (text "o") [text "b",text "a"]]
        (Dir.init none) = (.ok (),d) ∧
      List.Forall₂ (Chain d.keyColumns) d.indexes
        [⟨text "u",code 'U',[text "a"]⟩,⟨text "o",code 'O',[text "b",text "a"]⟩]) ∨
    ∃ why d, configure (fun _ => none)
      [.uniqueIndex (text "u") [text "a"],.orderedIndex (text "o") [text "b",text "a"]]
      (Dir.init none) = (.error (.message why),d) :=
  configure_chains (fun _ => none)
    [.uniqueIndex (text "u") [text "a"],.orderedIndex (text "o") [text "b",text "a"]] none (by decide)

def loopDir : Dir :=
  {Dir.init none with
    keyColumns := [{KeyCol.zero with
      name := text "a", indexId := some 0, nextInKeySerial := some 0, inPk := true,
      impliedPlan := .primaryKey}],
    indexes := [⟨primaryKeyName,2,some 0,some 0,code 'P',false,false,[]⟩]}

theorem loop_follows (ids : List Nat) : ¬Follows loopDir.keyColumns ids (some 0) := by
  induction ids with
  | nil => exact fun none => Option.some_ne_none 0 none
  | cons id ids ih =>
    rintro ⟨same,key,there,rest⟩
    cases same
    cases there
    exact ih rest

theorem loop_walk (fuel : Nat) : chainEnd fuel 0 loopDir = (.error (.crash .outOfFuel),loopDir) := by
  induction fuel with
  | zero => rfl
  | succ fuel ih => exact ih

/-- The column follows itself, and the walk to the end of the chain does not end. -/
theorem repeated_loops :
    configure (fun _ => none) [.primaryKey [text "a",text "a"]] (Dir.init none) = (.ok (),loopDir) ∧
    (∀ listed, ¬List.Forall₂ (Chain loopDir.keyColumns) loopDir.indexes listed) ∧
    (∀ fuel, chainEnd fuel 0 loopDir = (.error (.crash .outOfFuel),loopDir)) ∧
    (configure (fun _ => none) [.primaryKey [text "a",text "a",text "b"]] (Dir.init none)).1 =
      .error (.crash .outOfFuel) := by
  refine ⟨rfl,fun listed chains => ?_,loop_walk,rfl⟩
  cases chains with
  | cons first _ =>
    obtain ⟨_,ids,follows,_⟩ := first
    exact loop_follows ids follows

end ModNdb.Config
