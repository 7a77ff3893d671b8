import ModNdb.Config.Columns
import ModNdb.Config.Links

/-! `add_key_column` as a whole: a new column moves others, and everything that refers to a column
by its id goes on referring to the same one. -/
namespace ModNdb.Config

/-- The chain behind an index: its columns follow each other by serial number, and the ids
agree. -/
structure Strand (keys : List KeyCol) (record : Index) (names : List Text) : Prop where
  serial : Serially keys record.firstColSerial names
  first : record.firstCol = record.firstColSerial.bind (position keys)
  fixed : ∀ key ∈ keys, key.name ∈ names → Fixed keys key

/-- A configuration whose indexes have these chains, and whose path is of these columns. -/
structure Consistent (d : Dir) (chains : List (List Text)) (path : List Text) : Prop where
  table : Table d.keyColumns
  strands : List.Forall₂ (Strand d.keyColumns) d.indexes chains
  ids : d.pathinfo.map some = d.pathinfoSerials.map (position d.keyColumns)
  path : d.pathinfo.map (fun id => d.keyColumns[id]?.map KeyCol.name) = path.map some

/-- A new column has its place, and the others have changed in their buckets and links. -/
structure Inserted (d d' : Dir) (id : Nat) (keyname : Text) : Prop where
  new : d'.keyColumns[id]?.map KeyCol.bare =
    some {KeyCol.zero with name := keyname, serialNo := d.keyColumns.length, nextInKey := none}
  others : Alike d.keyColumns (d'.keyColumns.eraseIdx id)
  indexes : d'.indexes = d.indexes.map (Index.headed (position d'.keyColumns))
  rest : {d' with keyColumns := d.keyColumns, indexes := d.indexes, pathinfo := d.pathinfo} = d

theorem keyPlace_missing (name : Text) (keys : List KeyCol)
    (sorted : keys.Pairwise fun a b => strcmp a.name b.name = .lt)
    (missing : (keyPlace name keys).2 = false) : ∀ key ∈ keys, key.name ≠ name := by
  induction keys with
  | nil => exact fun _ none => absurd none List.not_mem_nil
  | cons first keys ih =>
    obtain ⟨below,rest⟩ := List.pairwise_cons.mp sorted
    unfold keyPlace at missing
    cases order : strcmp name first.name with
    | lt =>
      intro key inside same
      have less : strcmp name key.name = .lt := by
        rcases List.mem_cons.mp inside with rfl | later
        · exact order
        · exact strcmp_trans _ _ _ order (below key later)
      rw [same,(strcmp_eq_iff _ _).mpr rfl] at less
      cases less
    | eq =>
      rw [order] at missing
      cases missing
    | gt =>
      rw [order] at missing
      intro key inside same
      rcases List.mem_cons.mp inside with rfl | later
      · rw [same,(strcmp_eq_iff _ _).mpr rfl] at order
        cases order
      · exact ih rest missing key later same

section
variable {keys keys' : List KeyCol}

theorem Table.same_number (table : Table keys) (a b : KeyCol) (first : a ∈ keys) (second : b ∈ keys)
    (same : a.serialNo = b.serialNo) : a = b := by
  obtain ⟨p,there⟩ := List.mem_iff_getElem?.mp first
  obtain ⟨q,there'⟩ := List.mem_iff_getElem?.mp second
  rw [table.serial_inj p q a b there there' same,there'] at there
  exact (Option.some.inj there).symm

theorem serially_unique (table : Table keys) (serial : Option Nat) (names names' : List Text)
    (chain : Serially keys serial names) (chain' : Serially keys serial names') :
    names = names' := by
  induction names generalizing serial names' with
  | nil =>
    have none : serial = none := chain
    cases names' with
    | nil => rfl
    | cons name' names' =>
      obtain ⟨_,_,_,some,_⟩ := chain'
      rw [none] at some
      cases some
  | cons name names ih =>
    obtain ⟨key,inside,named,here,rest⟩ := chain
    cases names' with
    | nil =>
      have none : serial = none := chain'
      rw [none] at here
      cases here
    | cons name' names' =>
      obtain ⟨key',inside',named',here',rest'⟩ := chain'
      have both : key = key' := table.same_number key key' inside inside'
        (Option.some.inj (here.symm.trans here'))
      subst both
      rw [← named,← named',ih _ names' rest rest']

theorem serially_behind (serial : Option Nat) (before behind : List Text) (name : Text)
    (chain : Serially keys serial (before ++ name::behind)) :
    ∃ key ∈ keys, key.name = name ∧ Serially keys key.nextInKeySerial behind := by
  induction before generalizing serial with
  | nil =>
    obtain ⟨key,inside,named,_,rest⟩ := chain
    exact ⟨key,inside,named,rest⟩
  | cons other before ih =>
    obtain ⟨_,_,_,_,rest⟩ := chain
    exact ih _ rest

theorem serially_nodup (table : Table keys) (serial : Option Nat) (names : List Text)
    (chain : Serially keys serial names) : names.Nodup := by
  induction names generalizing serial with
  | nil => exact List.nodup_nil
  | cons name names ih =>
    obtain ⟨key,inside,named,_,rest⟩ := chain
    refine List.nodup_cons.mpr ⟨fun again => ?_,ih _ rest⟩
    obtain ⟨before,behind,split⟩ := List.append_of_mem again
    obtain ⟨key',inside',named',rest'⟩ := serially_behind _ before behind name (split ▸ rest)
    have both := table.same_column key key' inside inside' (named.trans named'.symm)
    subst both
    have lengths := congrArg List.length
      (split.symm.trans (serially_unique table _ _ _ rest rest'))
    rw [List.length_append,List.length_cons] at lengths
    omega

theorem Strand.strung (table : Table keys) {record : Index} {names : List Text}
    (strand : Strand keys record names) : Strung keys record names where
  serial := strand.serial
  ends key inside named last := by
    have fixed := strand.fixed key inside named
    unfold Fixed at fixed
    rw [fixed,last]
    rfl
  distinct := serially_nodup table _ names strand.serial
  empty none := by
    rw [strand.first,none]
    rfl

theorem serially_next (table : Table keys) (serial : Option Nat) (names : List Text)
    (chain : Serially keys serial names) (key : KeyCol) (inside : key ∈ keys)
    (named : key.name ∈ names) (next : Nat) (follows : key.nextInKeySerial = some next) :
    ∃ other ∈ keys, other.serialNo = next := by
  induction names generalizing serial with
  | nil => cases named
  | cons name names ih =>
    obtain ⟨second,there,same,_,rest⟩ := chain
    rcases List.mem_cons.mp named with here | later
    · have both := table.same_column key second inside there (here.trans same.symm)
      rw [← both,follows] at rest
      cases names with
      | nil => cases rest
      | cons name names =>
        obtain ⟨other,found,_,serial,_⟩ := rest
        exact ⟨other,found,(Option.some.inj serial).symm⟩
    · exact ih _ rest later

end

structure Grown (keys keys' : List KeyCol) (name : Text) : Prop where
  table : Table keys'
  kept : keys ⊆ keys'
  new : ∀ key ∈ keys', key ∈ keys ∨ key.name = name
  missing : ∀ key ∈ keys, key.name ≠ name

section
variable {keys keys' : List KeyCol} {name : Text}

theorem insert_grown (keys : List KeyCol) (table : Table keys) (key : KeyCol)
    (missing : (keyPlace key.name keys).2 = false) (next : key.serialNo = keys.length) :
    Grown keys (keys.insertIdx (keyPlace key.name keys).1 key) key.name where
  table := insert_table keys table key missing next
  kept other inside := (List.mem_insertIdx (keyPlace_le _ _)).mpr (.inr inside)
  new other inside := by
    rcases (List.mem_insertIdx (keyPlace_le _ _)).mp inside with rfl | old
    · exact .inr rfl
    · exact .inl old
  missing := keyPlace_missing key.name keys table.sorted missing

theorem Grown.old (grown : Grown keys keys' name) (serial : Option Nat) (names : List Text)
    (chain : Serially keys serial names) (key : KeyCol) (inside : key ∈ keys')
    (named : key.name ∈ names) : key ∈ keys := by
  rcases grown.new key inside with old | new
  · exact old
  · obtain ⟨other,there,same⟩ := List.mem_map.mp (serially_names keys serial names chain named)
    exact absurd (same.trans new) (grown.missing other there)

theorem Grown.serially (grown : Grown keys keys' name) (serial : Option Nat) (names : List Text)
    (chain : Serially keys serial names) : Serially keys' serial names :=
  serially_of keys keys' serial names
    (fun key inside _ => ⟨key,grown.kept inside,rfl,rfl,rfl⟩) chain

theorem Grown.strung (grown : Grown keys keys' name) (record : Index) (names : List Text)
    (strung : Strung keys record names) : Strung keys' record names where
  serial := grown.serially _ names strung.serial
  ends key inside named :=
    strung.ends key (grown.old _ _ strung.serial key inside named) named
  distinct := strung.distinct
  empty := strung.empty

variable (stay : ∀ (p : Nat) (key : KeyCol), keys[p]? = some key → keys'[p]? = some key)
include stay

theorem Grown.positioned (grown : Grown keys keys' name) (table : Table keys) (key : KeyCol)
    (inside : key ∈ keys) : position keys' key.serialNo = position keys key.serialNo := by
  obtain ⟨p,there⟩ := List.mem_iff_getElem?.mp inside
  exact (grown.table.position_of p key (stay p key there)).trans
    (table.position_of p key there).symm

theorem Grown.strand (grown : Grown keys keys' name) (table : Table keys) (record : Index)
    (names : List Text) (strand : Strand keys record names) : Strand keys' record names := by
  refine ⟨grown.serially _ names strand.serial,?_,fun key inside named => ?_⟩
  · rw [strand.first]
    cases first : record.firstColSerial with
    | none => rfl
    | some serial =>
      have chain := strand.serial
      rw [first] at chain
      cases names with
      | nil => cases chain
      | cons name names =>
        obtain ⟨key,inside,_,here,_⟩ := chain
        rw [Option.some.inj here]
        exact (grown.positioned stay table key inside).symm
  · have old := grown.old _ _ strand.serial key inside named
    have fixed := strand.fixed key old named
    unfold Fixed at fixed ⊢
    rw [fixed]
    cases next : key.nextInKeySerial with
    | none => rfl
    | some serial =>
      obtain ⟨other,there,rfl⟩ := serially_next table _ _ strand.serial key old named serial next
      exact (grown.positioned stay table other there).symm

end

section
variable {keys : List KeyCol} {name : Text}

/-- `fix_links`, where a column has been put between the others: the chains stay. -/
theorem fixLinks_strands (d : Dir) (chains : Nat → List Text) (table : Table d.keyColumns)
    (strands : ∀ n record, d.indexes[n]? = some record → Strand d.keyColumns record (chains n))
    (grown : Grown d.keyColumns keys name)
    (below : ∀ serial ∈ d.pathinfoSerials, serial < keys.length) :
    ∃ keys' pathinfo, fixLinks {d with keyColumns := keys} = (.ok (),{d.holding keys'
        (d.indexes.map (Index.headed (position keys'))) with pathinfo}) ∧ Alike keys keys' ∧
      (∀ n record, d.indexes[n]? = some record →
        Strand keys' (record.headed (position keys')) (chains n)) ∧
      pathinfo.map some = d.pathinfoSerials.map (position keys') := by
  obtain ⟨keys',pathinfo,ran,alike,fixed,agree⟩ := fixLinks_run chains {d with keyColumns := keys}
    grown.table
    (fun n record there => grown.strung _ _ ((strands n record there).strung table)) below
  rw [← alike.position] at ran agree
  refine ⟨keys',pathinfo,ran,alike,fun n record there => ⟨?_,rfl,?_⟩,agree⟩
  · exact alike.serially _ _ (grown.serially _ _ (strands n record there).serial)
  · exact fixed n (List.getElem?_eq_some_iff.mp there).1

end

def columnName (keys : List KeyCol) (serial : Nat) : Option Text :=
  (position keys serial).bind fun p => keys[p]?.map KeyCol.name

theorem ids_names (keys : List KeyCol) (ids serials : List Nat)
    (agree : ids.map some = serials.map (position keys)) :
    ids.map (fun id => keys[id]?.map KeyCol.name) = serials.map (columnName keys) := by
  have names := congrArg (List.map (·.bind fun p => keys[p]?.map KeyCol.name)) agree
  rwa [List.map_map,List.map_map] at names

section
variable {keys keys' : List KeyCol}

theorem Alike.name_at (alike : Alike keys keys') (p : Nat) :
    keys'[p]?.map KeyCol.name = keys[p]?.map KeyCol.name := by
  have same : (keys'.map KeyCol.bare)[p]?.map KeyCol.name =
      (keys.map KeyCol.bare)[p]?.map KeyCol.name := by rw [alike]
  rw [List.getElem?_map,List.getElem?_map,Option.map_map,Option.map_map] at same
  exact same

theorem Grown.columnName {name : Text} (grown : Grown keys keys' name) (serial p : Nat)
    (found : Config.position keys serial = some p) :
    columnName keys' serial = columnName keys serial := by
  obtain ⟨key,there,rfl⟩ := position_some serial p found
  obtain ⟨q,there'⟩ := List.mem_iff_getElem?.mp (grown.kept (List.mem_of_getElem? there))
  unfold Config.columnName
  rw [found,grown.table.position_of q key there']
  change keys'[q]?.map KeyCol.name = keys[p]?.map KeyCol.name
  rw [there,there']

end

section
variable {d : Dir} {chains : List (List Text)} {path : List Text}
  (consistent : Consistent d chains path)
include consistent

theorem Consistent.placed (serial : Nat) (inside : serial ∈ d.pathinfoSerials) :
    ∃ p, position d.keyColumns serial = some p := by
  have there := List.mem_map_of_mem (f := position d.keyColumns) inside
  rw [← consistent.ids] at there
  obtain ⟨p,-,same⟩ := List.mem_map.mp there
  exact ⟨p,same.symm⟩

/-- The path has the same names, wherever its columns are now. -/
theorem Consistent.renamed {keys : List KeyCol} {name : Text} (grown : Grown d.keyColumns keys name)
    (ids : List Nat) (agree : ids.map some = d.pathinfoSerials.map (position keys)) :
    ids.map (fun id => keys[id]?.map KeyCol.name) = path.map some := by
  rw [ids_names keys ids _ agree,← consistent.path,ids_names _ _ _ consistent.ids]
  refine List.map_congr_left fun serial inside => ?_
  obtain ⟨p,found⟩ := consistent.placed serial inside
  exact grown.columnName serial p found

/-- `fix_links`, where a column has been put between the others. -/
theorem fixLinks_consistent (keys : List KeyCol) (name : Text)
    (grown : Grown d.keyColumns keys name) :
    ∃ d', fixLinks {d with keyColumns := keys} = (.ok (),d') ∧ Consistent d' chains path ∧
      Alike keys d'.keyColumns ∧
      d'.indexes = d.indexes.map (Index.headed (position d'.keyColumns)) ∧
      {d' with keyColumns := d.keyColumns, indexes := d.indexes, pathinfo := d.pathinfo} = d := by
  obtain ⟨lengths,strands⟩ := List.forall₂_iff_get.mp consistent.strands
  obtain ⟨keys',pathinfo,ran,alike,strung,agree⟩ := fixLinks_strands d (fun n => chains.getD n [])
    consistent.table
    (fun n record there => by
      obtain ⟨bound,rfl⟩ := List.getElem?_eq_some_iff.mp there
      rw [List.getD_eq_getElem _ _ (lengths ▸ bound)]
      exact strands n bound (lengths ▸ bound))
    grown
    (fun serial inside => by
      obtain ⟨p,found⟩ := consistent.placed serial inside
      obtain ⟨key,there,rfl⟩ := position_some serial p found
      exact grown.table.serial_lt key (grown.kept (List.mem_of_getElem? there)))
  refine ⟨_,ran,⟨alike.table grown.table,?_,agree,?_⟩,alike,rfl,rfl⟩
  · rw [holding_indexes,List.forall₂_map_left_iff]
    refine List.forall₂_iff_get.mpr ⟨lengths,fun n bound bound' => ?_⟩
    have strand := strung n _ (List.getElem?_eq_getElem bound)
    rw [List.getD_eq_getElem _ _ bound'] at strand
    exact strand
  · rw [alike.position] at agree
    have names := consistent.renamed grown pathinfo agree
    rw [← names]
    exact congrArg (pathinfo.map ·) (funext alike.name_at)

theorem Consistent.strand (record : Index) (inside : record ∈ d.indexes) :
    ∃ names, Strand d.keyColumns record names := by
  obtain ⟨n,bound,rfl⟩ := List.mem_iff_getElem.mp inside
  obtain ⟨lengths,strands⟩ := List.forall₂_iff_get.mp consistent.strands
  exact ⟨_,strands n bound (lengths ▸ bound)⟩

theorem Consistent.headed :
    d.indexes = d.indexes.map (Index.headed (position d.keyColumns)) := by
  refine ((List.map_congr_left fun record inside => ?_).trans (List.map_id _)).symm
  obtain ⟨names,strand⟩ := consistent.strand record inside
  exact congrArg (fun first => {record with firstCol := first}) strand.first.symm

theorem Consistent.grown {keys : List KeyCol} {name : Text} (grown : Grown d.keyColumns keys name)
    (stay : ∀ (p : Nat) (key : KeyCol), d.keyColumns[p]? = some key → keys[p]? = some key) :
    Consistent {d with keyColumns := keys} chains path := by
  have agree : d.pathinfo.map some = d.pathinfoSerials.map (position keys) := by
    rw [consistent.ids]
    refine List.map_congr_left fun serial inside => ?_
    obtain ⟨p,found⟩ := consistent.placed serial inside
    obtain ⟨key,there,rfl⟩ := position_some serial p found
    exact (grown.positioned stay consistent.table key (List.mem_of_getElem? there)).symm
  exact {
    table := grown.table
    strands := consistent.strands.imp fun record names strand =>
      grown.strand stay consistent.table record names strand
    ids := agree
    path := consistent.renamed grown d.pathinfo agree }

/-- Ids and serial numbers are `short`s, which hold them as long as there are no more columns than
a `short` can number. -/
theorem Consistent.short (few : d.keyColumns.length ≤ 2^15) :
    (∀ key ∈ d.keyColumns, key.serialNo < 2^15) ∧ (∀ id ∈ d.pathinfo, id < 2^15) ∧
      (∀ serial ∈ d.pathinfoSerials, serial < 2^15) ∧
      ∀ record ∈ d.indexes, ∀ id ∈ record.firstCol, id < 2^15 := by
  have numbered (key : KeyCol) (inside : key ∈ d.keyColumns) : key.serialNo < 2^15 :=
    Nat.lt_of_lt_of_le (consistent.table.serial_lt key inside) few
  refine ⟨numbered,fun id inside => ?_,fun serial inside => ?_,fun record inside id first => ?_⟩
  · have among : some id ∈ d.pathinfo.map some := List.mem_map_of_mem inside
    rw [consistent.ids] at among
    obtain ⟨serial,_,found⟩ := List.mem_map.mp among
    exact Nat.lt_of_lt_of_le (position_lt serial id found) few
  · have among : position d.keyColumns serial ∈ d.pathinfoSerials.map (position d.keyColumns) :=
      List.mem_map_of_mem inside
    rw [← consistent.ids] at among
    obtain ⟨id,_,found⟩ := List.mem_map.mp among
    obtain ⟨key,there,rfl⟩ := position_some serial id found.symm
    exact numbered key (List.mem_of_getElem? there)
  · obtain ⟨names,strand⟩ := consistent.strand record inside
    rw [strand.first] at first
    obtain ⟨serial,_,found⟩ := Option.bind_eq_some_iff.mp first
    exact Nat.lt_of_lt_of_le (position_lt serial id found) few

/-- A name that is there has its column. For another one there is a new column, the chains and
the path are of the same columns as before, and these have changed in nothing but their places,
links and buckets. -/
theorem addKeyColumn_inserts (keyname : Text) :
    ((∃ key ∈ d.keyColumns, key.name = keyname) → ∃ id,
      addKeyColumn keyname d = (.ok (id,true),d) ∧
        d.keyColumns[id]?.map KeyCol.name = some keyname) ∧
    ((∀ key ∈ d.keyColumns, key.name ≠ keyname) → ∃ id d',
      addKeyColumn keyname d = (.ok (id,false),d') ∧ Consistent d' chains path ∧
        Inserted d d' id keyname) := by
  unfold addKeyColumn
  rw [Prog.bind_ok _ (Prog.get_run d)]
  dsimp only
  constructor
  · rintro ⟨key,inside,named⟩
    have found : (keyPlace keyname d.keyColumns).2 = true := by
      by_contra missing
      exact keyPlace_missing keyname _ consistent.table.sorted (by simpa using missing) key inside
        named
    obtain ⟨there,place,name⟩ := keyPlace_found keyname d.keyColumns found
    rw [if_pos found]
    exact ⟨_,rfl,by rw [place,Option.map_some,name]⟩
  · intro missing
    have lacks : (keyPlace keyname d.keyColumns).2 = false := by
      by_contra found
      obtain ⟨key,place,name⟩ := keyPlace_found keyname d.keyColumns (by simpa using found)
      exact missing key (List.mem_of_getElem? place) name
    let key := {KeyCol.zero with name := keyname, serialNo := d.keyColumns.length}
    have place := keyPlace_le keyname d.keyColumns
    have grown := insert_grown d.keyColumns consistent.table key lacks rfl
    have here : (d.keyColumns.insertIdx (keyPlace keyname d.keyColumns).1 key)[
        (keyPlace keyname d.keyColumns).1]? = some key := by
      rw [List.getElem?_insertIdx_self,if_pos place]
    rw [lacks,if_neg Bool.false_ne_true]
    by_cases between : (keyPlace keyname d.keyColumns).1 < d.keyColumns.length
    · obtain ⟨d',ran,consistent',alike,headed,rest⟩ := fixLinks_consistent consistent _ keyname grown
      rw [if_pos between]
      refine ⟨_,d',(Prog.bind_ok _ (Prog.modify_run _ d)).trans ((Prog.bind_ok _ ran).trans rfl),
        consistent',?_,?_,headed,rest⟩
      · obtain ⟨key',there,same⟩ := alike.column _ key here
        rw [there,Option.map_some,same]
        rfl
      · have others := congrArg (List.eraseIdx · (keyPlace keyname d.keyColumns).1) alike
        rw [List.eraseIdx_map,List.eraseIdx_map,List.eraseIdx_insertIdx_self] at others
        exact others
    · have last : (keyPlace keyname d.keyColumns).1 = d.keyColumns.length := by omega
      have stay (p : Nat) (other : KeyCol) (there : d.keyColumns[p]? = some other) :
          (d.keyColumns.insertIdx (keyPlace keyname d.keyColumns).1 key)[p]? = some other := by
        rw [last,List.getElem?_insertIdx_of_lt (List.getElem?_eq_some_iff.mp there).1]
        exact there
      have consistent' := consistent.grown grown stay
      rw [if_neg between]
      refine ⟨_,_,(Prog.bind_ok _ (Prog.modify_run _ d)).trans rfl,consistent',?_,?_,
        consistent'.headed,rfl⟩
      · exact (congrArg (Option.map KeyCol.bare) here).trans rfl
      · unfold Alike
        rw [List.eraseIdx_insertIdx_self]

end

def pairColumn (name : String) (serialNo : Nat) (serial next : Option Nat) : KeyCol :=
  {KeyCol.zero with
    name := text name, serialNo, nextInKeySerial := serial, nextInKey := next, inPk := true,
    impliedPlan := .primaryKey}

/-- The primary key is of `d` and `b`, and the path of `b`. -/
def pairDir : Dir :=
  {Dir.init none with
    keyColumns := [pairColumn "b" 1 none none,pairColumn "d" 0 (some 1) (some 0)],
    indexes := [⟨text "*primary",2,some 0,some 1,code 'P',false,false,[]⟩],
    pathinfo := [0], pathinfoSerials := [1]}

theorem pairDir_consistent : Consistent pairDir [[text "d",text "b"]] [text "b"] where
  table := ⟨by decide,by decide⟩
  strands := by
    refine .cons ⟨⟨_,List.mem_cons_of_mem _ List.mem_cons_self,rfl,rfl,_,List.mem_cons_self,rfl,
      rfl,rfl⟩,rfl,fun key inside _ => ?_⟩ .nil
    rcases List.mem_cons.mp inside with rfl | later
    · rfl
    · rw [List.mem_singleton.mp later]
      rfl
  ids := rfl
  path := rfl

/-- Between the two there is room for `c`. -/
theorem pair_inserts : ∃ id d', addKeyColumn (text "c") pairDir = (.ok (id,false),d') ∧
    Consistent d' [[text "d",text "b"]] [text "b"] ∧ Inserted pairDir d' id (text "c") :=
  (addKeyColumn_inserts pairDir_consistent (text "c")).2 (by decide)

end ModNdb.Config
