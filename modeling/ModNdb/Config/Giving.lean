import ModNdb.Config.Chains

/-! A column is given to an index: it is put at the end of the index's chain. -/
namespace ModNdb.Config

/-- A change of one column that leaves its name and number. -/
structure Renews (keys : List KeyCol) (p : Nat) (key : KeyCol) (change : KeyCol → KeyCol) :
    Prop where
  there : keys[p]? = some key
  name : (change key).name = key.name
  serial : (change key).serialNo = key.serialNo

section
variable {keys : List KeyCol} {p : Nat} {key : KeyCol} {change : KeyCol → KeyCol}
  (renews : Renews keys p key change)
include renews

theorem Renews.at_ (q : Nat) (other : KeyCol) (found : keys[q]? = some other) :
    (keys.modify p change)[q]? = some (if p = q then change key else other) := by
  rw [List.getElem?_modify,found]
  by_cases here : p = q
  · subst here
    rw [renews.there] at found
    cases found
    simp
  · simp [here]

theorem Renews.label : (keys.modify p change).map KeyCol.label = keys.map KeyCol.label := by
  apply List.ext_getElem?
  intro q
  rw [List.getElem?_map,List.getElem?_map]
  cases found : keys[q]? with
  | none =>
    rw [List.getElem?_modify,found]
    rfl
  | some other =>
    rw [renews.at_ q other found]
    apply congrArg some
    by_cases here : p = q
    · subst here
      rw [renews.there] at found
      cases found
      rw [if_pos rfl]
      exact Prod.ext renews.name renews.serial
    · rw [if_neg here]

theorem Renews.position : position (keys.modify p change) = position keys :=
  label_position renews.label

theorem Renews.table (table : Table keys) : Table (keys.modify p change) :=
  label_table renews.label table

theorem Renews.here : (keys.modify p change)[p]? = some (change key) := by
  rw [renews.at_ p key renews.there,if_pos rfl]

theorem Renews.mem (other : KeyCol) (inside : other ∈ keys.modify p change) :
    other = change key ∨ other ∈ keys := by
  obtain ⟨q,there⟩ := List.mem_iff_getElem?.mp inside
  have bound : q < keys.length := by
    have bound := (List.getElem?_eq_some_iff.mp there).1
    rwa [List.length_modify] at bound
  rw [renews.at_ q _ (List.getElem?_eq_getElem bound)] at there
  split at there
  · exact .inl (Option.some.inj there).symm
  · exact .inr (Option.some.inj there ▸ List.getElem_mem bound)

theorem Renews.kept (other : KeyCol) (inside : other ∈ keys) (apart : other.name ≠ key.name) :
    other ∈ keys.modify p change := by
  obtain ⟨q,found⟩ := List.mem_iff_getElem?.mp inside
  refine List.mem_of_getElem? (i := q) ?_
  rw [renews.at_ q other found,if_neg]
  rintro rfl
  rw [renews.there] at found
  exact apart (congrArg KeyCol.name (Option.some.inj found).symm)

/-- A chain stays where the column is not of it, or has the links it had. -/
theorem Renews.strand (record : Index) (names : List Text) (strand : Strand keys record names)
    (links : key.name ∈ names → (change key).nextInKeySerial = key.nextInKeySerial ∧
      (change key).nextInKey = key.nextInKey) :
    Strand (keys.modify p change) record names := by
  refine ⟨?_,?_,fun other inside named => ?_⟩
  · refine serially_of keys _ _ _ (fun other inside named => ?_) strand.serial
    obtain ⟨q,found⟩ := List.mem_iff_getElem?.mp inside
    refine ⟨_,List.mem_of_getElem? (renews.at_ q other found),?_⟩
    by_cases here : p = q
    · subst here
      rw [renews.there] at found
      cases found
      rw [if_pos rfl]
      exact ⟨renews.name,renews.serial,(links named).1⟩
    · rw [if_neg here]
      exact ⟨rfl,rfl,rfl⟩
  · rw [renews.position]
    exact strand.first
  · unfold Fixed
    rw [renews.position]
    rcases renews.mem other inside with rfl | old
    · rw [renews.name] at named
      rw [(links named).1,(links named).2]
      exact strand.fixed key (List.mem_of_getElem? renews.there) named
    · exact strand.fixed other old named

variable (table : Table keys) {q : Nat} {other : KeyCol} (found : keys[q]? = some other)
  (ends : other.nextInKeySerial = none)
  (follows : (change key).nextInKeySerial = some other.serialNo)
include table found ends follows

/-- Behind the last column of a chain there is one more. -/
theorem Renews.serially_snoc (serial : Option Nat) (names : List Text)
    (chain : Serially keys serial names) (distinct : names.Nodup)
    (last : names.getLast? = some key.name) (new : other.name ∉ names) :
    Serially (keys.modify p change) serial (names ++ [other.name]) := by
  induction names generalizing serial with
  | nil => cases last
  | cons name names ih =>
    obtain ⟨first,inside,same,number,rest⟩ := chain
    obtain ⟨missing,distinct⟩ := List.nodup_cons.mp distinct
    cases names with
    | nil =>
      have here : name = key.name := Option.some.inj last
      have both := table.same_column first key inside (List.mem_of_getElem? renews.there)
        (same.trans here)
      have apart : other.name ≠ key.name := fun again =>
        new (List.mem_singleton.mpr (again.trans here.symm))
      refine ⟨change key,List.mem_of_getElem? renews.here,renews.name.trans here.symm,
        number.trans ?_,other,renews.kept other (List.mem_of_getElem? found) apart,rfl,follows,ends⟩
      rw [renews.serial,both]
    | cons second names =>
      rw [List.getLast?_cons_cons] at last
      have apart : first.name ≠ key.name := by
        rintro again
        rw [← same,again] at missing
        exact missing (List.mem_of_getLast? last)
      exact ⟨first,renews.kept first inside apart,same,number,
        ih _ rest distinct last fun later => new (List.mem_cons_of_mem name later)⟩

theorem Renews.strand_snoc (record : Index) (names : List Text) (strand : Strand keys record names)
    (last : names.getLast? = some key.name) (new : other.name ∉ names)
    (ended : other.nextInKey = none) (next : (change key).nextInKey = some q) :
    Strand (keys.modify p change) record (names ++ [other.name]) := by
  refine ⟨?_,?_,fun column inside named => ?_⟩
  · exact renews.serially_snoc table found ends follows _ _ strand.serial
      (serially_nodup table _ _ strand.serial) last new
  · rw [renews.position]
    exact strand.first
  · unfold Fixed
    rw [renews.position]
    rcases renews.mem column inside with rfl | old
    · rw [next,follows]
      exact (table.position_of q other found).symm
    · rcases List.mem_append.mp named with among | added
      · exact strand.fixed column old among
      · rw [table.same_column column other old (List.mem_of_getElem? found)
          (List.mem_singleton.mp added),ended,ends]
        rfl

end

/-- The walk from a column on ends at the last one of the chain. -/
theorem chainEnd_run (names : List Text) (fuel p : Nat) (d : Dir) (key : KeyCol)
    (table : Table d.keyColumns) (there : d.keyColumns[p]? = some key)
    (chain : Serially d.keyColumns key.nextInKeySerial names)
    (fixed : ∀ other ∈ d.keyColumns, other.name ∈ key.name::names → Fixed d.keyColumns other)
    (enough : names.length ≤ fuel) :
    ∃ q last, chainEnd (fuel + 1) p d = (.ok q,d) ∧ d.keyColumns[q]? = some last ∧
      (key.name::names).getLast? = some last.name := by
  induction names generalizing fuel p key with
  | nil =>
    have none : key.nextInKeySerial = none := chain
    have link := fixed key (List.mem_of_getElem? there) List.mem_cons_self
    unfold Fixed at link
    rw [none] at link
    refine ⟨p,key,?_,there,rfl⟩
    rw [chainEnd,Prog.bind_ok _ (keyCol_run p d key there),link]
    rfl
  | cons name names ih =>
    have link := fixed key (List.mem_of_getElem? there) List.mem_cons_self
    obtain ⟨second,inside,rfl,number,rest⟩ := chain
    obtain ⟨q,found⟩ := List.mem_iff_getElem?.mp inside
    unfold Fixed at link
    rw [number,Option.bind_some,table.position_of q second found] at link
    cases fuel with
    | zero => exact absurd enough (Nat.not_succ_le_zero _)
    | succ fuel =>
      obtain ⟨last,key',ran,there',named⟩ := ih fuel q second found rest
        (fun other inside named => fixed other inside (List.mem_cons_of_mem _ named))
        (Nat.le_of_succ_le_succ enough)
      refine ⟨last,key',?_,there',by rwa [List.getLast?_cons_cons]⟩
      rw [chainEnd,Prog.bind_ok _ (keyCol_run p d key there),link]
      exact ran

/-- The column becomes the first one of an empty chain, or the last one behind the others. -/
theorem linkColumn_run (i id : Nat) (d : Dir) (record : Index) (names : List Text) (key : KeyCol)
    (table : Table d.keyColumns) (there : d.indexes[i]? = some record)
    (strand : Strand d.keyColumns record names) (found : d.keyColumns[id]? = some key) :
    (names = [] ∧ linkColumn i id d = (.ok (),d.holding d.keyColumns
      (d.indexes.modify i fun index =>
        {index with firstColSerial := some key.serialNo, firstCol := some id}))) ∨
    ∃ p last, names.getLast? = some last.name ∧ d.keyColumns[p]? = some last ∧
      linkColumn i id d = (.ok (),d.holding (d.keyColumns.modify p fun last =>
        {last with nextInKeySerial := some key.serialNo, nextInKey := some id}) d.indexes) := by
  unfold linkColumn
  rw [Prog.bind_ok _ (keyCol_run id d key found),Prog.bind_ok _ (index_run i d record there),
    strand.first]
  have chain := strand.serial
  have fixed := strand.fixed
  have short := serially_length _ _ _ chain (serially_nodup table _ _ chain)
  cases names with
  | nil =>
    have none : record.firstColSerial = none := chain
    rw [none]
    exact .inl ⟨rfl,rfl⟩
  | cons name names =>
    obtain ⟨first,inside,rfl,number,rest⟩ := chain
    obtain ⟨head,place⟩ := List.mem_iff_getElem?.mp inside
    rw [number,Option.bind_some,table.position_of head first place]
    obtain ⟨p,last,ran,there',named⟩ := chainEnd_run names d.keyColumns.length head d first table
      place rest fixed (Nat.le_of_succ_le short)
    refine .inr ⟨p,last,named,there',?_⟩
    dsimp only
    rw [Prog.bind_ok _ (Prog.get_run d),Prog.bind_ok _ ran]
    rfl

section
variable {d : Dir} {listed : List Listed} (wired : Wired d listed)
include wired

theorem Wired.renewed {p : Nat} {key : KeyCol} {change : KeyCol → KeyCol}
    (renews : Renews d.keyColumns p key change)
    (links : ∀ given ∈ listed, key.name ∈ given.columns →
      (change key).nextInKeySerial = key.nextInKeySerial ∧
        (change key).nextInKey = key.nextInKey) :
    Wired {d with keyColumns := d.keyColumns.modify p change} listed where
  table := renews.table wired.table
  length := wired.length
  chained n record given there there' := by
    have chained := wired.chained n record given there there'
    exact ⟨chained.name,chained.type,chained.count,renews.strand record _ chained.strand
      (links given (List.mem_of_getElem? there'))⟩
  kinds := wired.kinds
  names := wired.names
  paths serial inside := by
    rw [List.length_modify]
    exact wired.paths serial inside

/-- One index is changed, and with it what has been given to it. -/
theorem Wired.replaced (n : Nat) (record : Index) (given given' : Listed) (keys : List KeyCol)
    (change : Index → Index) (there : d.indexes[n]? = some record)
    (there' : listed[n]? = some given) (table : Table keys)
    (length : keys.length = d.keyColumns.length)
    (others : ∀ (m : Nat) (record : Index) (given : Listed), m ≠ n → d.indexes[m]? = some record →
      listed[m]? = some given → Chained keys record given)
    (chained : Chained keys (change record) given')
    (same : (given'.name,given'.type) = (given.name,given.type)) :
    Wired (d.holding keys (d.indexes.modify n change)) (listed.set n given') where
  table := table
  length := by
    rw [holding_indexes,List.length_modify,List.length_set]
    exact wired.length
  chained m record' other found found' := by
    rw [holding_indexes,List.getElem?_modify] at found
    rw [List.getElem?_set] at found'
    by_cases here : n = m
    · subst here
      have bound := (List.getElem?_eq_some_iff.mp there').1
      rw [there] at found
      rw [if_pos rfl,if_pos bound] at found'
      obtain rfl := Option.some.inj found'
      have same : change record = record' := by simpa using found
      exact same ▸ chained
    · rw [if_neg here] at found'
      have old : d.indexes[m]? = some record' := by simpa [here] using found
      exact others m record' other (Ne.symm here) old found'
  kinds other inside := by
    rcases List.mem_or_eq_of_mem_set inside with old | rfl
    · exact wired.kinds other old
    · rw [(Prod.mk.inj same).2]
      exact wired.kinds given (List.mem_of_getElem? there')
  names := by
    obtain ⟨bound,rfl⟩ := List.getElem?_eq_some_iff.mp there'
    have names := wired.names
    have bound' : n < (listed.map Listed.name).length := by rwa [List.length_map]
    rw [List.map_set,(Prod.mk.inj same).1,← List.getElem_map Listed.name (h := bound'),
      List.set_getElem_self]
    exact names
  paths serial inside := by
    rw [holding_keyColumns,length]
    exact wired.paths serial inside

theorem Wired.reindexed (n : Nat) (given : Listed) (there : listed[n]? = some given)
    (change : Index → Index)
    (same : ∀ record, ((change record).name,(change record).type,(change record).nColumns,
        (change record).firstColSerial,(change record).firstCol) =
      (record.name,record.type,record.nColumns,record.firstColSerial,record.firstCol)) :
    Wired (d.holding d.keyColumns (d.indexes.modify n change)) listed := by
  obtain ⟨record,found,chained⟩ := wired.record n given there
  obtain ⟨name,same⟩ := Prod.mk.inj (same record)
  obtain ⟨type,same⟩ := Prod.mk.inj same
  obtain ⟨count,same⟩ := Prod.mk.inj same
  obtain ⟨serial,first⟩ := Prod.mk.inj same
  have unchanged : listed.set n given = listed := by
    obtain ⟨bound,rfl⟩ := List.getElem?_eq_some_iff.mp there
    exact List.set_getElem_self bound
  rw [← unchanged]
  refine wired.replaced n record given given d.keyColumns change found there wired.table rfl
    (fun m record given _ => wired.chained m record given) ?_ rfl
  exact ⟨name.trans chained.name,type.trans chained.type,count.trans chained.count,
    serial ▸ chained.strand.serial,first.trans (serial ▸ chained.strand.first),chained.strand.fixed⟩

/-- A column that has been the last one of every chain that it is of loses no link. -/
theorem setKeyCol_ends (p : Nat) (key : KeyCol) (there : d.keyColumns[p]? = some key)
    (change : KeyCol → KeyCol)
    (same : ((change key).name,(change key).serialNo) = (key.name,key.serialNo))
    (cut : ((change key).nextInKeySerial,(change key).nextInKey) = (none,none))
    (shared : ∀ given ∈ listed, key.name ∈ given.columns →
      given.columns.getLast? = some key.name) :
    ∃ id d' key', (setKeyCol p change >>= fun _ => pure p) d = (.ok id,d') ∧ Wired d' listed ∧
      d'.keyColumns[id]? = some key' ∧ key'.name = key.name ∧ key'.nextInKeySerial = none ∧
        key'.nextInKey = none := by
  obtain ⟨name,serial⟩ := Prod.mk.inj same
  obtain ⟨ends,ended⟩ := Prod.mk.inj cut
  have renews : Renews d.keyColumns p key change := ⟨there,name,serial⟩
  refine ⟨p,_,change key,(Prog.bind_ok _ (Prog.modify_run _ d)).trans rfl,wired.renewed renews ?_,
    renews.here,name,ends,ended⟩
  intro given inside among
  obtain ⟨n,found⟩ := List.mem_iff_getElem?.mp inside
  obtain ⟨record,_,chained⟩ := wired.record n given found
  have last := serially_last wired.table _ _ chained.strand.serial key (List.mem_of_getElem? there)
    (shared given inside among)
  have fixed := chained.strand.fixed key (List.mem_of_getElem? there) among
  unfold Fixed at fixed
  rw [last] at fixed
  exact ⟨ends.trans last.symm,ended.trans fixed.symm⟩

/-- The new column of an index may be the last one of another. -/
theorem addColumnToIndex_run (n : Nat) (given : Listed) (expr : Expr)
    (there : listed[n]? = some given)
    (shared : ∀ given ∈ listed, expr.value ∈ given.columns →
      given.columns.getLast? = some expr.value) :
    ∃ id d' key, addColumnToIndex n expr d = (.ok id,d') ∧ Wired d' listed ∧
      d'.keyColumns[id]? = some key ∧ key.name = expr.value ∧ key.nextInKeySerial = none ∧
        key.nextInKey = none := by
  obtain ⟨id,_,d',ran,wired',found⟩ := addKeyColumn_run wired expr.value
  obtain ⟨key,place,named⟩ := Option.map_eq_some_iff.mp found
  obtain ⟨record,there',_⟩ := wired'.record n given there
  unfold addColumnToIndex
  rw [Prog.bind_ok _ ran]
  dsimp only
  rw [Prog.bind_ok _ (index_run n d' record there')]
  rw [← named] at shared ⊢
  refine setKeyCol_ends wired' id key place _ ?_ rfl shared
  dsimp only
  split_ifs <;> rfl

/-- The count and the links of a column that the index has not got yet. -/
theorem linked_run (i id : Nat) (given : Listed) (there : listed[i]? = some given) (key : KeyCol)
    (place : d.keyColumns[id]? = some key) (ends : key.nextInKeySerial = none)
    (ended : key.nextInKey = none) (new : key.name ∉ given.columns)
    (alone : ∀ last, given.columns.getLast? = some last → ∀ (m : Nat) (other : Listed), m ≠ i →
      listed[m]? = some other → last ∉ other.columns) :
    ∃ d', (setIndex i (fun index => {index with nColumns := index.nColumns + 1}) >>= fun _ =>
        linkColumn i id) d = (.ok (),d') ∧
      Wired d' (listed.set i {given with columns := given.columns ++ [key.name]}) := by
  obtain ⟨record,found,chained⟩ := wired.record i given there
  have count : record.nColumns + 1 = (given.columns ++ [key.name]).length := by
    rw [List.length_append,chained.count]
    rfl
  have counted : (d.indexes.modify i fun index => {index with nColumns := index.nColumns + 1})[i]? =
      some {record with nColumns := record.nColumns + 1} := by
    rw [List.getElem?_modify_eq,found]
    rfl
  obtain ⟨none,ran⟩ | ⟨p,last,ending,there',ran⟩ := linkColumn_run i id
    (d.holding d.keyColumns
      (d.indexes.modify i fun index => {index with nColumns := index.nColumns + 1}))
    {record with nColumns := record.nColumns + 1} given.columns key wired.table counted
    ⟨chained.strand.serial,chained.strand.first,chained.strand.fixed⟩ place
  · refine ⟨_,(Prog.bind_ok _ (Prog.modify_run _ d)).trans ran,?_⟩
    rw [holding_indexes,List.modify_modify_eq]
    refine wired.replaced i record given _ d.keyColumns _ found there wired.table rfl
      (fun m record given _ => wired.chained m record given) ?_ rfl
    refine ⟨chained.name,chained.type,count,?_⟩
    rw [none]
    refine ⟨⟨key,List.mem_of_getElem? place,rfl,rfl,ends⟩,
      (wired.table.position_of id key place).symm,fun other inside named => ?_⟩
    rw [wired.table.same_column other key inside (List.mem_of_getElem? place)
      (List.mem_singleton.mp named)]
    unfold Fixed
    rw [ends,ended]
    rfl
  · have renews : Renews d.keyColumns p last fun last =>
        {last with nextInKeySerial := some key.serialNo, nextInKey := some id} := ⟨there',rfl,rfl⟩
    refine ⟨_,(Prog.bind_ok _ (Prog.modify_run _ d)).trans ran,?_⟩
    refine wired.replaced i record given _ (d.keyColumns.modify p _) _ found there
      (renews.table wired.table) (List.length_modify _ _ _) (fun m record' other apart old old' => ?_)
      ⟨chained.name,chained.type,count,?_⟩ rfl
    · have chained' := wired.chained m record' other old old'
      exact ⟨chained'.name,chained'.type,chained'.count,renews.strand record' _ chained'.strand
        fun among => absurd among (alone _ ending m other apart old')⟩
    · have strand := renews.strand_snoc wired.table place ends rfl record _ chained.strand ending new
        ended rfl
      exact ⟨strand.serial,strand.first,strand.fixed⟩

/-- A column that the index has not got yet is put at the end of its chain. The column that has
been the last one must be of no other index. -/
theorem namedIdx_run (i : Nat) (given : Listed) (expr : Expr) (there : listed[i]? = some given)
    (named : getIndexByName d given.name = some i)
    (plain : ¬(given.type = code 'O' ∧ expr.value.head? = some (code '[')))
    (new : expr.value ∉ given.columns)
    (shared : ∀ given ∈ listed, expr.value ∈ given.columns →
      given.columns.getLast? = some expr.value)
    (alone : ∀ last, given.columns.getLast? = some last → ∀ (m : Nat) (other : Listed), m ≠ i →
      listed[m]? = some other → last ∉ other.columns) :
    ∃ d', namedIdx given.name expr d = (.ok (),d') ∧
      Wired d' (listed.set i {given with columns := given.columns ++ [expr.value]}) := by
  have indexed : namedIndexId given.name d = (.ok i,d) := by
    unfold namedIndexId
    rw [Prog.bind_ok _ (Prog.get_run d),named]
    rfl
  obtain ⟨record,found,chained⟩ := wired.record i given there
  obtain ⟨id,d',key,ran,wired',place,column,ends,ended⟩ :=
    addColumnToIndex_run wired i given expr there shared
  unfold namedIdx
  rw [Prog.bind_ok _ indexed,Prog.bind_ok _ (index_run i d record found),chained.type,if_neg plain,
    Prog.bind_ok _ ran,← column]
  rw [← column] at new
  exact linked_run wired' i id given there key place ends ended new alone

end

end ModNdb.Config
