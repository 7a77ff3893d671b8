import ModNdb.Config.Links

/-! What holds of every configuration that directives have made: the table of columns, the
columns of the path, and the plans that columns and indexes imply. -/
namespace ModNdb.Config
open Prog (Leads Steps)

def planOf (type : UInt8) : Option AccessPlan :=
  if type = code 'P' then some .primaryKey
  else if type = code 'U' then some .uniqueIndexAccess
  else if type = code 'O' then some .orderedIndexScan
  else none

/-- The first `n` columns of the path are where their serial numbers say. -/
structure Sound (n : Nat) (d : Dir) : Prop where
  table : Table d.keyColumns
  serials : ∀ serial ∈ d.pathinfoSerials, serial < d.keyColumns.length ∨ serial = 0
  lengths : d.pathinfo.length = d.pathinfoSerials.length
  paths : ∀ j < n, d.pathinfo[j]? = (d.pathinfoSerials[j]?).bind (position d.keyColumns)
  kinds : ∀ record ∈ d.indexes, (planOf record.type).isSome
  planned : ∀ key ∈ d.keyColumns, key.impliedPlan ≠ .noPlan →
    (key.indexId.bind fun i => (d.indexes[i]?).bind fun record => planOf record.type) =
      some key.impliedPlan
  constants : ∀ record ∈ d.indexes, ∀ constant ∈ record.constants,
    record.type = code 'O' ∧ constant.impliedPlan = .orderedIndexScan
  default : ∀ i, d.defaultKey = some i →
    ∃ record, d.indexes[i]? = some record ∧ record.constants ≠ []

def KeyCol.told (key : KeyCol) : Text × Nat × AccessPlan × Option Nat :=
  (key.name,key.serialNo,key.impliedPlan,key.indexId)

def Index.told (record : Index) : Text × UInt8 × List Constant :=
  (record.name,record.type,record.constants)

def Dir.view (d : Dir) :=
  (d.keyColumns.map KeyCol.told,d.indexes.map Index.told,d.defaultKey,d.pathinfo,d.pathinfoSerials)

section
variable {keys keys' : List KeyCol}

theorem told_mem (same : keys'.map KeyCol.told = keys.map KeyCol.told) (key' : KeyCol)
    (inside : key' ∈ keys') : ∃ key ∈ keys, key.told = key'.told := by
  have found := List.mem_map_of_mem (f := KeyCol.told) inside
  rw [same] at found
  exact List.mem_map.mp found

theorem told_label (same : keys'.map KeyCol.told = keys.map KeyCol.told) :
    keys'.map KeyCol.label = keys.map KeyCol.label := by
  have labels := congrArg (List.map fun said => (said.1,said.2.1)) same
  rwa [List.map_map,List.map_map] at labels

end

theorem told_record {indexes indexes' : List Index}
    (same : indexes'.map Index.told = indexes.map Index.told) (i : Nat) :
    (indexes'[i]?).map Index.told = (indexes[i]?).map Index.told := by
  rw [← List.getElem?_map,same,List.getElem?_map]

theorem told_index {indexes indexes' : List Index}
    (same : indexes'.map Index.told = indexes.map Index.told) (record' : Index)
    (inside : record' ∈ indexes') : ∃ record ∈ indexes, record.told = record'.told := by
  have found := List.mem_map_of_mem (f := Index.told) inside
  rw [same] at found
  exact List.mem_map.mp found

theorem told_plan {indexes indexes' : List Index}
    (same : indexes'.map Index.told = indexes.map Index.told) (i : Nat) :
    ((indexes'[i]?).bind fun record => planOf record.type) =
      (indexes[i]?).bind fun record => planOf record.type := by
  have plans (record : Option Index) : (record.bind fun record => planOf record.type) =
      (record.map Index.told).bind fun said => planOf said.2.1 := by
    cases record <;> rfl
  rw [plans,told_record same,← plans]

theorem Sound.same {n : Nat} {d d' : Dir} (sound : Sound n d) (view : d'.view = d.view) :
    Sound n d' := by
  obtain ⟨keys,rest⟩ := Prod.mk.inj view
  obtain ⟨indexes,rest⟩ := Prod.mk.inj rest
  obtain ⟨default,rest⟩ := Prod.mk.inj rest
  obtain ⟨path,serials⟩ := Prod.mk.inj rest
  refine ⟨label_table (told_label keys) sound.table,?_,?_,?_,?_,?_,?_,?_⟩
  · rw [serials,label_length (told_label keys)]
    exact sound.serials
  · rw [path,serials]
    exact sound.lengths
  · rw [path,serials,label_position (told_label keys)]
    exact sound.paths
  · intro record' inside
    obtain ⟨record,found,same⟩ := told_index indexes record' inside
    have type : record.type = record'.type := congrArg (fun said => said.2.1) same
    rw [← type]
    exact sound.kinds record found
  · intro key' inside plan
    obtain ⟨key,found,same⟩ := told_mem keys key' inside
    have implied : key.impliedPlan = key'.impliedPlan := congrArg (fun said => said.2.2.1) same
    have index : key.indexId = key'.indexId := congrArg (fun said => said.2.2.2) same
    have planned := sound.planned key found (implied ▸ plan)
    rw [implied,index] at planned
    rw [← planned]
    congr 1
    funext i
    exact told_plan indexes i
  · intro record' inside constant among
    obtain ⟨record,found,same⟩ := told_index indexes record' inside
    have constants : record.constants = record'.constants := congrArg (fun said => said.2.2) same
    have type : record.type = record'.type := congrArg (fun said => said.2.1) same
    rw [← type]
    exact sound.constants record found constant (constants ▸ among)
  · intro i there
    obtain ⟨record,found,some⟩ := sound.default i (default ▸ there)
    have same := told_record indexes i
    rw [found] at same
    obtain ⟨record',found',said⟩ := Option.map_eq_some_iff.mp same
    have constants : record'.constants = record.constants := congrArg (fun said => said.2.2) said
    exact ⟨record',found',constants ▸ some⟩

def Stays {α : Type} (f : Dir → α) (d d' : Dir) : Prop := f d' = f d

instance {α : Type} (f : Dir → α) : IsPreorder Dir (Stays f) where
  refl _ := rfl
  trans _ _ _ first second := Eq.trans second first

section
variable {α : Type} {f : Dir → α}

theorem stays_sound {β : Type} {n : Nat} {x : Setup β} (steps : Steps (Stays Dir.view) x) :
    Leads (Sound n) x fun _ => Sound n :=
  (steps.keeps fun _ _ same sound => sound.same same).leads

theorem keyCol_stays (n : Nat) : Steps (Stays f) (keyCol n) := by
  intro d
  unfold keyCol
  split <;> exact ⟨rfl,fun _ _ => trivial⟩

theorem index_stays (n : Nat) : Steps (Stays f) (index n) := by
  intro d
  unfold index
  split <;> exact ⟨rfl,fun _ _ => trivial⟩

structure LinkFree (f : Dir → α) : Prop where
  next : ∀ d n next, f {d with keyColumns := d.keyColumns.modify n (KeyCol.withNext · next)} = f d
  first : ∀ d n first,
    f {d with indexes := d.indexes.modify n fun record => {record with firstCol := first}} = f d

theorem relinkChain_stays (free : LinkFree f) (fuel thisCol : Nat) :
    Steps (Stays f) (relinkChain fuel thisCol) := by
  induction fuel generalizing thisCol with
  | zero => exact Steps.fail _
  | succ fuel ih =>
    unfold relinkChain
    apply (keyCol_stays thisCol).bind
    intro key
    cases key.nextInKeySerial with
    | none => exact Steps.pure ()
    | some serial =>
      exact (keyCol_stays serial).bind fun bucket =>
        Steps.modifyThen (fun d => free.next d thisCol (some bucket.idxMapBucket)) (ih _)

theorem relinkIndex_stays (free : LinkFree f) (n : Nat) : Steps (Stays f) (relinkIndex n) := by
  unfold relinkIndex
  apply (index_stays n).bind
  intro record
  cases record.firstColSerial with
  | none => exact Steps.pure ()
  | some serial =>
    exact (keyCol_stays serial).bind fun bucket =>
      Steps.modifyThen (fun d => free.first d n (some bucket.idxMapBucket))
        (Steps.get fun _ => relinkChain_stays free _ _)

end

theorem map_modify {α β : Type} (f : α → β) (change : α → α) (same : ∀ a, f (change a) = f a)
    (l : List α) (n : Nat) : (l.modify n change).map f = l.map f := by
  apply List.ext_getElem?
  intro q
  rw [List.getElem?_map,List.getElem?_map,List.getElem?_modify]
  cases l[q]? with
  | none => rfl
  | some a =>
    apply congrArg some
    dsimp only
    split
    · exact same a
    · rfl

theorem modify_cases {α : Type} (change : α → α) (l : List α) (i : Nat) (b : α)
    (inside : b ∈ l.modify i change) :
    ∃ (p : Nat) (a : α), l[p]? = some a ∧ b = if i = p then change a else a := by
  obtain ⟨p,place⟩ := List.mem_iff_getElem?.mp inside
  rw [List.getElem?_modify] at place
  obtain ⟨a,found,same⟩ := Option.map_eq_some_iff.mp place
  exact ⟨p,a,found,same.symm⟩

theorem view_keyColumns (d : Dir) (keys : List KeyCol)
    (same : keys.map KeyCol.told = d.keyColumns.map KeyCol.told) :
    {d with keyColumns := keys}.view = d.view := Prod.ext same rfl

theorem view_indexes (d : Dir) (indexes : List Index)
    (same : indexes.map Index.told = d.indexes.map Index.told) :
    {d with indexes := indexes}.view = d.view := Prod.ext rfl (Prod.ext same rfl)

theorem view_linkFree : LinkFree Dir.view where
  next d n next := view_keyColumns d _ (map_modify _ (KeyCol.withNext · next) (fun _ => rfl) _ n)
  first d n first := view_indexes d _
    (map_modify _ (fun record : Index => {record with firstCol := first}) (fun _ => rfl) _ n)

theorem unlinked_linkFree : LinkFree fun d => d.keyColumns.map (KeyCol.withNext · none) where
  next d n next := map_modify _ (KeyCol.withNext · next) (fun _ => rfl) d.keyColumns n
  first _ _ _ := rfl

/-- Behind `fix_links` nothing else has changed, and the columns of the path are where their
serial numbers say. -/
theorem fixLinks_inv (d d' : Dir) (table : Table d.keyColumns)
    (below : ∀ serial ∈ d.pathinfoSerials, serial < d.keyColumns.length)
    (ran : fixLinks d = (.ok (),d')) :
    d'.pathinfo.map some = d.pathinfoSerials.map (position d.keyColumns) ∧
      {d' with pathinfo := d.pathinfo}.view = d.view := by
  have bare := mapSerials_map KeyCol.told (fun _ _ => rfl) d.keyColumns (List.range d.keyColumns.length)
  have mapped := mapSerials_mapped d.keyColumns table
  obtain ⟨_,_,start,ran⟩ := Prog.bind_inv ran
  cases start
  obtain ⟨_,_,got,ran⟩ := Prog.bind_inv ran
  cases got
  obtain ⟨_,d₁,looped,ran⟩ := Prog.bind_inv ran
  obtain ⟨ids,d₂,read,ran⟩ := Prog.bind_inv ran
  cases ran
  have loop {α : Type} (f : Dir → α) (free : LinkFree f) :
      f d₁ = f {d with keyColumns := mapSerials d.keyColumns} := by
    have stays := (Steps.forM (l := List.range d.indexes.length) (relinkIndex_stays free)
      {d with keyColumns := mapSerials d.keyColumns}).1
    rwa [looped] at stays
  have view := (loop Dir.view view_linkFree).trans (view_keyColumns d _ bare)
  have said : d₁.keyColumns.map KeyCol.told = d.keyColumns.map KeyCol.told := congrArg Prod.fst view
  have serials : d₁.pathinfoSerials = d.pathinfoSerials :=
    congrArg (fun view => view.2.2.2.2) view
  have links := loop _ unlinked_linkFree
  obtain ⟨ids',read',positions⟩ := mappedIds_run d.pathinfoSerials d₁ (label_table (told_label said) table)
    (unlinked_mapped links mapped) fun serial inside => by
      rw [label_length (told_label said)]
      exact below serial inside
  have again : mappedIds d.pathinfoSerials d₁ = (.ok ids,d₂) := read
  rw [read'] at again
  cases again
  rw [label_position (told_label said)] at positions
  exact ⟨positions,Prod.ext said (Prod.ext (congrArg (fun view => view.2.1) view)
    (Prod.ext (congrArg (fun view => view.2.2.1) view) (Prod.ext rfl serials)))⟩

def newKey (keyname : Text) (keys : List KeyCol) : KeyCol :=
  {KeyCol.zero with name := keyname, serialNo := keys.length}

def insertKey (keyname : Text) (keys : List KeyCol) : List KeyCol :=
  keys.insertIdx (keyPlace keyname keys).1 (newKey keyname keys)

section
variable {n : Nat} {d : Dir} {keyname : Text}

theorem Sound.inserted (sound : Sound n d) (missing : (keyPlace keyname d.keyColumns).2 = false)
    (path : List Nat) (lengths : path.length = d.pathinfoSerials.length)
    (paths : ∀ j < n, path[j]? =
      (d.pathinfoSerials[j]?).bind (position (insertKey keyname d.keyColumns))) :
    Sound n {d with keyColumns := insertKey keyname d.keyColumns, pathinfo := path} where
  table := insert_table d.keyColumns sound.table (newKey keyname d.keyColumns) missing rfl
  serials serial inside := by
    have more := List.length_insertIdx_of_le_length (keyPlace_le keyname d.keyColumns)
      (newKey keyname d.keyColumns)
    rcases sound.serials serial inside with below | zero
    · exact .inl (Nat.lt_of_lt_of_eq (Nat.lt_succ_of_lt below) more.symm)
    · exact .inr zero
  lengths := lengths
  paths := paths
  kinds := sound.kinds
  planned key inside plan := by
    rcases (List.mem_insertIdx (keyPlace_le _ _)).mp inside with rfl | old
    · exact absurd rfl plan
    · exact sound.planned key old plan
  constants := sound.constants
  default := sound.default

theorem Sound.appended (sound : Sound n d) (missing : (keyPlace keyname d.keyColumns).2 = false)
    (last : (keyPlace keyname d.keyColumns).1 = d.keyColumns.length) (j : Nat) (before : j < n) :
    d.pathinfo[j]? = (d.pathinfoSerials[j]?).bind (position (insertKey keyname d.keyColumns)) := by
  have paths := sound.paths j before
  cases serial : d.pathinfoSerials[j]? with
  | none => rwa [serial] at paths
  | some s =>
    rw [serial,Option.bind_some] at paths
    have bound : j < d.pathinfo.length := by
      rw [sound.lengths]
      exact (List.getElem?_eq_some_iff.mp serial).1
    rw [List.getElem?_eq_getElem bound] at paths ⊢
    obtain ⟨key,there,numbered⟩ := position_some s _ paths.symm
    have stays : (insertKey keyname d.keyColumns)[d.pathinfo[j]]? = some key := by
      unfold insertKey
      rw [last,List.getElem?_insertIdx_of_lt (List.getElem?_eq_some_iff.mp there).1]
      exact there
    have table := insert_table d.keyColumns sound.table (newKey keyname d.keyColumns) missing rfl
    rw [Option.bind_some,← numbered]
    exact (table.position_of _ key stays).symm

theorem paths_of {ids serials : List Nat} {place : Nat → Option Nat}
    (path : ids.map some = serials.map place) (j : Nat) : ids[j]? = (serials[j]?).bind place := by
  have same := congrArg (·[j]?) path
  rw [List.getElem?_map,List.getElem?_map] at same
  cases serial : serials[j]? with
  | none =>
    rw [serial] at same
    exact Option.map_eq_none_iff.mp same
  | some s =>
    rw [serial] at same
    obtain ⟨id,there,value⟩ := Option.map_eq_some_iff.mp same
    rw [there,Option.bind_some,value]

/-- A name gets its column, and the configuration stays sound. -/
theorem addKeyColumn_inv (sound : Sound n d) {d' : Dir} {id : Nat} {found : Bool}
    (ran : addKeyColumn keyname d = (.ok (id,found),d')) :
    Sound n d' ∧ d'.pathinfoSerials = d.pathinfoSerials ∧
      ∃ key, d'.keyColumns[id]? = some key ∧ key.name = keyname := by
  unfold addKeyColumn at ran
  rw [Prog.bind_ok _ (Prog.get_run d)] at ran
  dsimp only at ran
  cases there : (keyPlace keyname d.keyColumns).2 with
  | true =>
    rw [there,if_pos rfl] at ran
    cases ran
    exact ⟨sound,rfl,keyPlace_found keyname d.keyColumns there⟩
  | false =>
    rw [there,if_neg Bool.false_ne_true] at ran
    have place := keyPlace_le keyname d.keyColumns
    have here : (insertKey keyname d.keyColumns)[(keyPlace keyname d.keyColumns).1]? =
        some (newKey keyname d.keyColumns) := by
      unfold insertKey
      rw [List.getElem?_insertIdx_self,if_pos place]
    obtain ⟨_,_,added,ran⟩ := Prog.bind_inv ran
    cases added
    by_cases between : (keyPlace keyname d.keyColumns).1 < d.keyColumns.length
    · rw [if_pos between] at ran
      obtain ⟨_,d₁,fixed,ran⟩ := Prog.bind_inv ran
      cases ran
      have table := insert_table d.keyColumns sound.table (newKey keyname d.keyColumns) there rfl
      have more := List.length_insertIdx_of_le_length place (newKey keyname d.keyColumns)
      obtain ⟨path,view⟩ := fixLinks_inv {d with keyColumns := insertKey keyname d.keyColumns} _ table
        (fun serial inside => by
          have bound := sound.serials serial inside
          exact Nat.lt_of_lt_of_eq (by omega) more.symm) fixed
      have lengths := congrArg List.length path
      rw [List.length_map,List.length_map] at lengths
      have inserted := sound.inserted there d'.pathinfo lengths fun j _ => paths_of path j
      obtain ⟨keys,rest⟩ := Prod.mk.inj view
      obtain ⟨indexes,rest⟩ := Prod.mk.inj rest
      obtain ⟨default,rest⟩ := Prod.mk.inj rest
      refine ⟨inserted.same ?_,(Prod.mk.inj rest).2,?_⟩
      · exact Prod.ext keys (Prod.ext indexes (Prod.ext default
          (Prod.ext rfl (Prod.mk.inj rest).2)))
      · have place := congrArg (·[(keyPlace keyname d.keyColumns).1]?) keys
        rw [List.getElem?_map,List.getElem?_map,here] at place
        obtain ⟨key,found,said⟩ := Option.map_eq_some_iff.mp place
        exact ⟨key,found,congrArg Prod.fst said⟩
    · rw [if_neg between] at ran
      cases ran
      refine ⟨?_,rfl,_,here,rfl⟩
      exact sound.inserted there d.pathinfo sound.lengths (sound.appended there (by omega))

end

end ModNdb.Config
