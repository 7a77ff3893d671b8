import ModNdb.Config.Inserted

/-! The chains of columns behind the indexes: what the columns of each index are, and how a
column is added to the table of columns. -/
namespace ModNdb.Config

structure Listed where
  name : Text
  type : UInt8
  columns : List Text
  deriving DecidableEq

/-- The chain behind an index is that of the columns given to it. -/
structure Chained (keys : List KeyCol) (record : Index) (listed : Listed) : Prop where
  name : record.name = listed.name
  type : record.type = listed.type
  count : record.nColumns = listed.columns.length
  strand : Strand keys record listed.columns

structure Wired (d : Dir) (listed : List Listed) : Prop where
  table : Table d.keyColumns
  length : d.indexes.length = listed.length
  chained : ∀ (n : Nat) (record : Index) (given : Listed), d.indexes[n]? = some record →
    listed[n]? = some given → Chained d.keyColumns record given
  kinds : ∀ given ∈ listed,
    given.type = code 'P' ∨ given.type = code 'U' ∨ given.type = code 'O'
  names : (listed.map Listed.name).Nodup
  paths : ∀ serial ∈ d.pathinfoSerials, serial < d.keyColumns.length ∨ serial = 0

section
variable {d : Dir} {listed : List Listed} (wired : Wired d listed)
include wired

theorem Wired.given (n : Nat) (record : Index) (there : d.indexes[n]? = some record) :
    ∃ given, listed[n]? = some given ∧ Chained d.keyColumns record given := by
  have bound : n < listed.length := by
    rw [← wired.length]
    exact (List.getElem?_eq_some_iff.mp there).1
  have found := List.getElem?_eq_getElem bound
  exact ⟨_,found,wired.chained n record _ there found⟩

theorem Wired.record (n : Nat) (given : Listed) (there : listed[n]? = some given) :
    ∃ record, d.indexes[n]? = some record ∧ Chained d.keyColumns record given := by
  have bound : n < d.indexes.length := by
    rw [wired.length]
    exact (List.getElem?_eq_some_iff.mp there).1
  have found := List.getElem?_eq_getElem bound
  exact ⟨_,found,wired.chained n _ given found there⟩

theorem Wired.strand (n : Nat) (record : Index) (there : d.indexes[n]? = some record) :
    Strand d.keyColumns record (listed[n]?.elim [] Listed.columns) := by
  obtain ⟨given,found,chained⟩ := wired.given n record there
  rw [found]
  exact chained.strand

theorem Wired.moved (d' : Dir) (f : Index → Index) (table : Table d'.keyColumns)
    (more : d.keyColumns.length ≤ d'.keyColumns.length) (indexes : d'.indexes = d.indexes.map f)
    (same : ∀ record, ((f record).name,(f record).type,(f record).nColumns) =
      (record.name,record.type,record.nColumns))
    (strands : ∀ (n : Nat) (record : Index), d.indexes[n]? = some record →
      Strand d'.keyColumns (f record) (listed[n]?.elim [] Listed.columns))
    (serials : d'.pathinfoSerials = d.pathinfoSerials) : Wired d' listed where
  table := table
  length := by
    rw [indexes,List.length_map]
    exact wired.length
  chained n record' given there' there := by
    rw [indexes] at there'
    obtain ⟨record,found,rfl⟩ := Option.map_eq_some_iff.mp (List.getElem?_map.symm.trans there')
    have chained := wired.chained n record given found there
    have strand := strands n record found
    rw [there] at strand
    obtain ⟨name,rest⟩ := Prod.mk.inj (same record)
    obtain ⟨type,count⟩ := Prod.mk.inj rest
    exact ⟨name.trans chained.name,type.trans chained.type,count.trans chained.count,strand⟩
  kinds := wired.kinds
  names := wired.names
  paths serial inside := by
    rw [serials] at inside
    exact (wired.paths serial inside).imp_left fun below => Nat.lt_of_lt_of_le below more

/-- `fix_links`, where a column has been put between the others. -/
theorem fixLinks_wired (keys : List KeyCol) (name : Text) (grown : Grown d.keyColumns keys name)
    (more : keys.length = d.keyColumns.length + 1) :
    ∃ d', fixLinks {d with keyColumns := keys} = (.ok (),d') ∧ Wired d' listed ∧
      Alike keys d'.keyColumns := by
  obtain ⟨keys',pathinfo,ran,alike,strands,_⟩ := fixLinks_strands d _ wired.table wired.strand grown
    fun serial inside => by
      have bound := wired.paths serial inside
      omega
  refine ⟨_,ran,?_,alike⟩
  refine wired.moved _ (Index.headed (position keys')) (alike.table grown.table) ?_ rfl ?_ strands rfl
  · rw [holding_keyColumns,alike.length]
    omega
  · exact fun _ => rfl

/-- A name gets its column, and the chains stay. -/
theorem addKeyColumn_run (keyname : Text) :
    ∃ id found d', addKeyColumn keyname d = (.ok (id,found),d') ∧ Wired d' listed ∧
      d'.keyColumns[id]?.map KeyCol.name = some keyname := by
  unfold addKeyColumn
  rw [Prog.bind_ok _ (Prog.get_run d)]
  dsimp only
  cases found : (keyPlace keyname d.keyColumns).2 with
  | true =>
    obtain ⟨key,there,named⟩ := keyPlace_found keyname d.keyColumns found
    rw [if_pos rfl]
    exact ⟨_,true,d,rfl,wired,by rw [there,Option.map_some,named]⟩
  | false =>
    let key := {KeyCol.zero with name := keyname, serialNo := d.keyColumns.length}
    have place := keyPlace_le keyname d.keyColumns
    have grown := insert_grown d.keyColumns wired.table key found rfl
    have more := List.length_insertIdx_of_le_length place key
    have here : (d.keyColumns.insertIdx (keyPlace keyname d.keyColumns).1 key)[
        (keyPlace keyname d.keyColumns).1]? = some key := by
      rw [List.getElem?_insertIdx_self,if_pos place]
    rw [if_neg Bool.false_ne_true]
    by_cases between : (keyPlace keyname d.keyColumns).1 < d.keyColumns.length
    · obtain ⟨d',ran,wired',alike⟩ := fixLinks_wired wired _ keyname grown more
      rw [if_pos between]
      refine ⟨_,false,d',(Prog.bind_ok _ (Prog.modify_run _ d)).trans ((Prog.bind_ok _ ran).trans rfl),
        wired',?_⟩
      rw [alike.name_at,here]
      rfl
    · have last : (keyPlace keyname d.keyColumns).1 = d.keyColumns.length := by omega
      have stay (p : Nat) (other : KeyCol) (there : d.keyColumns[p]? = some other) :
          (d.keyColumns.insertIdx (keyPlace keyname d.keyColumns).1 key)[p]? = some other := by
        rw [last,List.getElem?_insertIdx_of_lt (List.getElem?_eq_some_iff.mp there).1]
        exact there
      rw [if_neg between]
      refine ⟨_,false,_,(Prog.bind_ok _ (Prog.modify_run _ d)).trans rfl,?_,by rw [here]; rfl⟩
      refine wired.moved _ id grown.table (by rw [more]; omega) (List.map_id _).symm ?_ ?_ rfl
      · exact fun _ => rfl
      · exact fun n record there =>
          grown.strand stay wired.table record _ (wired.strand n record there)

end

theorem serially_last {keys : List KeyCol} (table : Table keys) (serial : Option Nat)
    (names : List Text) (chain : Serially keys serial names) (key : KeyCol) (inside : key ∈ keys)
    (last : names.getLast? = some key.name) : key.nextInKeySerial = none := by
  induction names generalizing serial with
  | nil => cases last
  | cons name names ih =>
    obtain ⟨second,there,same,_,rest⟩ := chain
    cases names with
    | nil =>
      have here : name = key.name := Option.some.inj last
      rw [table.same_column key second inside there (here.symm.trans same.symm)]
      exact rest
    | cons other names => exact ih _ rest (by rwa [List.getLast?_cons_cons] at last)

end ModNdb.Config
