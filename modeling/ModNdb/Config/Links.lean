import ModNdb.Config.Positions

/-! The links between columns: serial numbers say which column is next, and `fix_links` makes
the ids anew from them. -/
namespace ModNdb.Config

/-- A column without what is made anew when columns move. -/
def KeyCol.bare (key : KeyCol) : KeyCol := {key with idxMapBucket := 0, nextInKey := none}

def Alike (keys keys' : List KeyCol) : Prop := keys'.map KeyCol.bare = keys.map KeyCol.bare

def Serially (keys : List KeyCol) : Option Nat → List Text → Prop
  | serial, [] => serial = none
  | serial, name::names => ∃ key ∈ keys, key.name = name ∧ serial = some key.serialNo ∧
      Serially keys key.nextInKeySerial names

/-- A column's link is to where the column with the next serial number is. -/
def Fixed (keys : List KeyCol) (key : KeyCol) : Prop :=
  key.nextInKey = key.nextInKeySerial.bind (position keys)

/-- The bucket at a serial number is the id of the column with this number. -/
def Mapped (keys : List KeyCol) : Prop :=
  ∀ (p : Nat) (key : KeyCol), keys[p]? = some key →
    ∃ bucket, keys[key.serialNo]? = some bucket ∧ bucket.idxMapBucket = p

section
variable {keys keys' : List KeyCol}

theorem Alike.trans {keys'' : List KeyCol} (first : Alike keys keys') (second : Alike keys' keys'') :
    Alike keys keys'' := Eq.trans second first

theorem Alike.label (alike : Alike keys keys') :
    keys'.map KeyCol.label = keys.map KeyCol.label := by
  have labels := congrArg (List.map KeyCol.label) alike
  rwa [List.map_map,List.map_map] at labels

theorem Alike.length (alike : Alike keys keys') : keys'.length = keys.length :=
  label_length alike.label

theorem Alike.column (alike : Alike keys keys') (p : Nat) (key : KeyCol) (there : keys[p]? = some key) :
    ∃ key', keys'[p]? = some key' ∧ key'.bare = key.bare := by
  have same := congrArg (·[p]?) alike
  rw [List.getElem?_map,List.getElem?_map,there] at same
  exact Option.map_eq_some_iff.mp same

theorem Alike.mem (alike : Alike keys keys') (key : KeyCol) (inside : key ∈ keys) :
    ∃ key' ∈ keys', key'.bare = key.bare := by
  obtain ⟨p,there⟩ := List.mem_iff_getElem?.mp inside
  obtain ⟨key',there',same⟩ := alike.column p key there
  exact ⟨key',List.mem_of_getElem? there',same⟩

theorem Alike.position (alike : Alike keys keys') : position keys' = position keys :=
  label_position alike.label

theorem Alike.table (alike : Alike keys keys') (table : Table keys) : Table keys' :=
  label_table alike.label table

theorem serially_of (keys keys' : List KeyCol) (serial : Option Nat) (names : List Text)
    (kept : ∀ key ∈ keys, key.name ∈ names → ∃ key' ∈ keys', key'.name = key.name ∧
      key'.serialNo = key.serialNo ∧ key'.nextInKeySerial = key.nextInKeySerial)
    (chain : Serially keys serial names) : Serially keys' serial names := by
  induction names generalizing serial with
  | nil => exact chain
  | cons name names ih =>
    obtain ⟨key,inside,named,here,rest⟩ := chain
    obtain ⟨key',inside',name',serial',next⟩ := kept key inside (named ▸ List.mem_cons_self)
    refine ⟨key',inside',name'.trans named,here.trans (congrArg some serial'.symm),?_⟩
    rw [next]
    exact ih _ (fun other found later => kept other found (List.mem_cons_of_mem name later)) rest

theorem bare_fields (key key' : KeyCol) (same : key'.bare = key.bare) : key'.name = key.name ∧
    key'.serialNo = key.serialNo ∧ key'.nextInKeySerial = key.nextInKeySerial := by
  have name := congrArg KeyCol.name same
  have serial := congrArg KeyCol.serialNo same
  have next := congrArg KeyCol.nextInKeySerial same
  exact ⟨name,serial,next⟩

theorem Alike.serially (alike : Alike keys keys') (serial : Option Nat) (names : List Text)
    (chain : Serially keys serial names) : Serially keys' serial names := by
  refine serially_of keys keys' serial names (fun key inside _ => ?_) chain
  obtain ⟨key',inside',same⟩ := alike.mem key inside
  exact ⟨key',inside',bare_fields key key' same⟩

end

theorem mapSerial_map {α : Type} (f : KeyCol → α) (same : ∀ key n, f {key with idxMapBucket := n} = f key)
    (keys : List KeyCol) (n : Nat) : (mapSerial keys n).map f = keys.map f := by
  unfold mapSerial
  cases keys[n]? with
  | none => rfl
  | some key =>
    apply List.ext_getElem?
    intro q
    rw [List.getElem?_map,List.getElem?_map,List.getElem?_modify]
    cases keys[q]? with
    | none => rfl
    | some other =>
      apply congrArg some
      dsimp only
      split
      · exact same other n
      · rfl

theorem mapSerials_map {α : Type} (f : KeyCol → α)
    (same : ∀ key n, f {key with idxMapBucket := n} = f key) (keys : List KeyCol) (ns : List Nat) :
    (ns.foldl mapSerial keys).map f = keys.map f := by
  induction ns generalizing keys with
  | nil => rfl
  | cons n ns ih => rw [List.foldl_cons,ih,mapSerial_map f same]

theorem mapSerials_alike (keys : List KeyCol) : Alike keys (mapSerials keys) :=
  mapSerials_map KeyCol.bare (fun _ _ => rfl) keys _

theorem mapSerial_bucket (keys : List KeyCol) (n : Nat) (key : KeyCol) (there : keys[n]? = some key)
    (serial : Nat) : (mapSerial keys n)[serial]? = keys[serial]?.map fun bucket =>
      if key.serialNo = serial then {bucket with idxMapBucket := n} else bucket := by
  unfold mapSerial
  rw [there]
  dsimp only
  rw [List.getElem?_modify]
  rfl

theorem mapSerial_maps (keys : List KeyCol) (table : Table keys) (n : Nat) (p : Nat) (key : KeyCol)
    (there : keys[p]? = some key) (before : p < n) (enough : n ≤ keys.length) :
    ∃ bucket, ((List.range n).foldl mapSerial keys)[key.serialNo]? = some bucket ∧
      bucket.idxMapBucket = p := by
  induction n with
  | zero => exact absurd before (Nat.not_lt_zero p)
  | succ n ih =>
    rw [List.range_succ,List.foldl_append,List.foldl_cons,List.foldl_nil]
    have alike : Alike keys ((List.range n).foldl mapSerial keys) :=
      mapSerials_map KeyCol.bare (fun _ _ => rfl) keys (List.range n)
    generalize (List.range n).foldl mapSerial keys = mapped at ih alike ⊢
    have here : keys[n]? = some keys[n] := List.getElem?_eq_getElem enough
    obtain ⟨other,there',same⟩ := alike.column n _ here
    obtain ⟨_,serial,_⟩ := bare_fields _ _ same
    rw [mapSerial_bucket mapped n other there',serial]
    by_cases last : p = n
    · subst last
      rw [there] at here
      have bound : key.serialNo < mapped.length := by
        rw [alike.length]
        exact table.serial_lt key (List.mem_of_getElem? there)
      rw [List.getElem?_eq_getElem bound,Option.map_some,← Option.some.inj here,if_pos rfl]
      exact ⟨_,rfl,rfl⟩
    · obtain ⟨bucket,found,value⟩ := ih (by omega) (by omega)
      have apart : keys[n].serialNo ≠ key.serialNo := fun both =>
        last (table.serial_inj n p _ key here there both).symm
      rw [found,Option.map_some,if_neg apart]
      exact ⟨bucket,rfl,value⟩

theorem mapSerials_mapped (keys : List KeyCol) (table : Table keys) : Mapped (mapSerials keys) := by
  intro p key there
  have alike := mapSerials_alike keys
  have bound : p < keys.length := by
    have bound := (List.getElem?_eq_some_iff.mp there).1
    rwa [alike.length] at bound
  have here : keys[p]? = some keys[p] := List.getElem?_eq_getElem bound
  obtain ⟨key',there',same⟩ := alike.column p _ here
  rw [there] at there'
  cases there'
  obtain ⟨_,serial,_⟩ := bare_fields _ _ same
  rw [serial]
  exact mapSerial_maps keys table keys.length p keys[p] here bound (Nat.le_refl _)

def KeyCol.withNext (key : KeyCol) (next : Option Nat) : KeyCol := {key with nextInKey := next}

/-- Links have been changed, but only to what the serial numbers say. -/
structure Relinks (keys keys' : List KeyCol) : Prop where
  same : keys'.map (KeyCol.withNext · none) = keys.map (KeyCol.withNext · none)
  links : ∀ (p : Nat) (key key' : KeyCol), keys[p]? = some key → keys'[p]? = some key' →
    key'.nextInKey = key.nextInKey ∨ Fixed keys (key.withNext key'.nextInKey)

section
variable {keys keys' : List KeyCol}

theorem Relinks.alike (relinks : Relinks keys keys') : Alike keys keys' := by
  have same := congrArg (List.map KeyCol.bare) relinks.same
  rwa [List.map_map,List.map_map] at same

theorem unlinked_column (same : keys'.map (KeyCol.withNext · none) = keys.map (KeyCol.withNext · none))
    (p : Nat) (key : KeyCol) (there : keys[p]? = some key) :
    ∃ key', keys'[p]? = some key' ∧ key' = key.withNext key'.nextInKey := by
  have place := congrArg (·[p]?) same
  rw [List.getElem?_map,List.getElem?_map,there] at place
  obtain ⟨key',there',equal⟩ := Option.map_eq_some_iff.mp place
  refine ⟨key',there',?_⟩
  have fields := congrArg (KeyCol.withNext · key'.nextInKey) equal
  exact fields

theorem unlinked_mapped (same : keys'.map (KeyCol.withNext · none) = keys.map (KeyCol.withNext · none))
    (mapped : Mapped keys) : Mapped keys' := by
  intro p key' there'
  have bound : p < keys.length := by
    have bound := (List.getElem?_eq_some_iff.mp there').1
    have lengths := congrArg List.length same
    rw [List.length_map,List.length_map] at lengths
    omega
  have found : keys[p]? = some keys[p] := List.getElem?_eq_getElem bound
  obtain ⟨other,found',equal⟩ := unlinked_column same p _ found
  rw [there'] at found'
  cases found'
  obtain ⟨bucket,place,value⟩ := mapped p _ found
  obtain ⟨bucket',place',equal'⟩ := unlinked_column same _ _ place
  have serial : key'.serialNo = keys[p].serialNo := by rw [equal]; rfl
  refine ⟨bucket',serial ▸ place',?_⟩
  rw [equal']
  exact value

theorem Relinks.column (relinks : Relinks keys keys') (p : Nat) (key : KeyCol)
    (there : keys[p]? = some key) :
    ∃ key', keys'[p]? = some key' ∧ key' = key.withNext key'.nextInKey :=
  unlinked_column relinks.same p key there

theorem Relinks.back (relinks : Relinks keys keys') (key' : KeyCol) (inside : key' ∈ keys') :
    ∃ (p : Nat) (key : KeyCol), keys[p]? = some key ∧ keys'[p]? = some key' ∧
      key' = key.withNext key'.nextInKey := by
  obtain ⟨p,there⟩ := List.mem_iff_getElem?.mp inside
  have bound : p < keys.length := by
    have bound := (List.getElem?_eq_some_iff.mp there).1
    rwa [relinks.alike.length] at bound
  have here : keys[p]? = some keys[p] := List.getElem?_eq_getElem bound
  obtain ⟨other,there',same⟩ := relinks.column p _ here
  rw [there] at there'
  cases there'
  exact ⟨p,_,here,there,same⟩

theorem Relinks.refl (keys : List KeyCol) : Relinks keys keys where
  same := rfl
  links _ _ _ there there' := .inl (by rw [there] at there'; cases there'; rfl)

theorem Relinks.fixed (relinks : Relinks keys keys') (p : Nat) (key key' : KeyCol)
    (there : keys[p]? = some key) (there' : keys'[p]? = some key') (fixed : Fixed keys key) :
    Fixed keys' key' := by
  obtain ⟨other,found,same⟩ := relinks.column p key there
  rw [there'] at found
  cases found
  have serial : key'.nextInKeySerial = key.nextInKeySerial := by rw [same]; rfl
  unfold Fixed at fixed ⊢
  rw [relinks.alike.position,serial]
  rcases relinks.links p key key' there there' with kept | made
  · rw [kept,fixed]
  · exact made

theorem Relinks.trans {keys'' : List KeyCol} (first : Relinks keys keys')
    (second : Relinks keys' keys'') : Relinks keys keys'' where
  same := second.same.trans first.same
  links p key key'' there there'' := by
    obtain ⟨key',there',same⟩ := first.column p key there
    have serial : key'.nextInKeySerial = key.nextInKeySerial := by rw [same]; rfl
    rcases second.links p key' key'' there' there'' with kept | made
    · rw [kept]
      exact first.links p key key' there there'
    · refine .inr ?_
      unfold Fixed KeyCol.withNext at made ⊢
      rw [made,first.alike.position,serial]

theorem Relinks.mapped (relinks : Relinks keys keys') (mapped : Mapped keys) : Mapped keys' :=
  unlinked_mapped relinks.same mapped

def Ends (keys : List KeyCol) (names : List Text) : Prop :=
  ∀ key ∈ keys, key.name ∈ names → key.nextInKeySerial = none → key.nextInKey = none

theorem Relinks.ends (relinks : Relinks keys keys') (names : List Text) (ends : Ends keys names) :
    Ends keys' names := by
  intro key' inside named last
  obtain ⟨p,key,there,there',same⟩ := relinks.back key' inside
  have name : key'.name = key.name := by rw [same]; rfl
  have serial : key'.nextInKeySerial = key.nextInKeySerial := by rw [same]; rfl
  rcases relinks.links p key key' there there' with kept | made
  · rw [kept]
    exact ends key (List.mem_of_getElem? there) (name ▸ named) (serial ▸ last)
  · unfold Fixed KeyCol.withNext at made
    rw [made,← serial,last]
    rfl

end

theorem link_relinks (keys : List KeyCol) (p : Nat) (key : KeyCol) (there : keys[p]? = some key)
    (next : Option Nat) (right : next = key.nextInKeySerial.bind (position keys)) :
    Relinks keys (keys.modify p (KeyCol.withNext · next)) where
  same := by
    apply List.ext_getElem?
    intro q
    rw [List.getElem?_map,List.getElem?_map,List.getElem?_modify]
    cases keys[q]? with
    | none => rfl
    | some other =>
      apply congrArg some
      dsimp only
      split <;> rfl
  links q other other' found found' := by
    rw [List.getElem?_modify,found] at found'
    by_cases here : p = q
    · subst here
      rw [there] at found
      cases found
      have value : key.withNext next = other' := by simpa using found'
      subst value
      exact .inr right
    · have value : other = other' := by simpa [here] using found'
      subst value
      exact .inl rfl

theorem keyCol_run (n : Nat) (d : Dir) (key : KeyCol) (there : d.keyColumns[n]? = some key) :
    keyCol n d = (.ok key,d) := by
  unfold keyCol
  rw [there]

theorem index_run (n : Nat) (d : Dir) (record : Index) (there : d.indexes[n]? = some record) :
    index n d = (.ok record,d) := by
  unfold index
  rw [there]

/-- The walk along a chain makes every link of it right. -/
theorem relinkChain_run (names : List Text) (fuel p : Nat) (d : Dir) (key : KeyCol)
    (there : d.keyColumns[p]? = some key) (table : Table d.keyColumns) (mapped : Mapped d.keyColumns)
    (chain : Serially d.keyColumns key.nextInKeySerial names)
    (ends : Ends d.keyColumns (key.name::names)) (enough : names.length ≤ fuel) :
    ∃ keys, relinkChain (fuel + 1) p d = (.ok (),{d with keyColumns := keys}) ∧ Relinks d.keyColumns keys ∧
      ∀ other ∈ keys, other.name ∈ key.name::names → Fixed keys other := by
  induction names generalizing fuel p d key with
  | nil =>
    have last : key.nextInKeySerial = none := chain
    refine ⟨d.keyColumns,?_,Relinks.refl _,fun other inside named => ?_⟩
    · unfold relinkChain
      rw [Prog.bind_ok _ (keyCol_run p d key there),last]
      rfl
    · have same := table.same_column other key inside (List.mem_of_getElem? there)
        (List.mem_singleton.mp named)
      unfold Fixed
      rw [same,last]
      exact ends key (List.mem_of_getElem? there) List.mem_cons_self last
  | cons name names ih =>
    obtain ⟨second,inside,named,serial,rest⟩ := chain
    obtain ⟨q,found⟩ := List.mem_iff_getElem?.mp inside
    obtain ⟨bucket,place,value⟩ := mapped q second found
    have right : some q = key.nextInKeySerial.bind (position d.keyColumns) := by
      rw [serial]
      exact (table.position_of q second found).symm
    have linked := link_relinks d.keyColumns p key there (some q) right
    obtain ⟨second',found',same⟩ := linked.column q second found
    have name : second'.name = name := by rw [same]; exact named
    have rest' : Serially (d.keyColumns.modify p (KeyCol.withNext · (some q)))
        second'.nextInKeySerial names := by
      rw [same]
      exact linked.alike.serially _ _ rest
    have ends' := linked.ends _ ends
    obtain ⟨fuel,rfl⟩ := Nat.exists_eq_succ_of_ne_zero (Nat.ne_of_gt (Nat.zero_lt_of_lt enough))
    obtain ⟨keys,walked,relinks,fixed⟩ := ih fuel q
      {d with keyColumns := d.keyColumns.modify p (KeyCol.withNext · (some q))} second'
      found' (linked.alike.table table) (linked.mapped mapped) rest'
      (fun other found later => ends' other found (List.mem_cons_of_mem _ (name ▸ later)))
      (Nat.le_of_succ_le_succ enough)
    refine ⟨keys,?_,linked.trans relinks,fun other found later => ?_⟩
    · rw [relinkChain,Prog.bind_ok _ (keyCol_run p d key there),serial]
      dsimp only
      rw [Prog.bind_ok _ (keyCol_run _ d bucket place),value]
      exact walked
    · rcases List.mem_cons.mp later with first | later
      · have here : (d.keyColumns.modify p (KeyCol.withNext · (some q)))[p]? =
            some (key.withNext (some q)) := by
          rw [List.getElem?_modify_eq,there]
          rfl
        obtain ⟨last,there',same'⟩ := relinks.column p _ here
        have both := ((linked.trans relinks).alike.table table).same_column other last found
          (List.mem_of_getElem? there') (first.trans (by rw [same']; rfl))
        rw [both]
        refine relinks.fixed p _ last here there' ?_
        unfold Fixed
        rw [linked.alike.position]
        exact right
      · exact fixed other found (name ▸ later)

def Dir.holding (d : Dir) (keys : List KeyCol) (indexes : List Index) : Dir :=
  {d with keyColumns := keys, indexes}

@[simp] theorem holding_keyColumns (d : Dir) (keys : List KeyCol) (indexes : List Index) :
    (d.holding keys indexes).keyColumns = keys := rfl

@[simp] theorem holding_indexes (d : Dir) (keys : List KeyCol) (indexes : List Index) :
    (d.holding keys indexes).indexes = indexes := rfl

/-- The record of an index has its first column where the serial number says. -/
def Index.headed (place : Nat → Option Nat) (record : Index) : Index :=
  {record with firstCol := record.firstColSerial.bind place}

theorem Index.headed_empty (record : Index) (place : Nat → Option Nat)
    (serial : record.firstColSerial = none) (first : record.firstCol = none) :
    record.headed place = record := by
  have same : record.firstColSerial.bind place = record.firstCol := by
    rw [serial,first]
    rfl
  exact congrArg (fun first => {record with firstCol := first}) same

/-- The columns of an index follow each other by serial number, wherever they are. -/
structure Strung (keys : List KeyCol) (record : Index) (names : List Text) : Prop where
  serial : Serially keys record.firstColSerial names
  ends : Ends keys names
  distinct : names.Nodup
  empty : record.firstColSerial = none → record.firstCol = none

theorem Strung.headed {keys : List KeyCol} {record : Index} {names : List Text}
    (strung : Strung keys record names) (place : Nat → Option Nat) :
    Strung keys (record.headed place) names where
  serial := strung.serial
  ends := strung.ends
  distinct := strung.distinct
  empty none := by
    unfold Index.headed at none ⊢
    rw [none]
    rfl

theorem Relinks.strung {keys keys' : List KeyCol} (relinks : Relinks keys keys') (record : Index)
    (names : List Text) (strung : Strung keys record names) : Strung keys' record names where
  serial := relinks.alike.serially _ _ strung.serial
  ends := relinks.ends names strung.ends
  distinct := strung.distinct
  empty := strung.empty

theorem serially_names (keys : List KeyCol) (serial : Option Nat) (names : List Text)
    (chain : Serially keys serial names) : names ⊆ keys.map KeyCol.name := by
  induction names generalizing serial with
  | nil => exact List.nil_subset _
  | cons name names ih =>
    obtain ⟨key,inside,named,_,rest⟩ := chain
    exact List.cons_subset.mpr ⟨List.mem_map.mpr ⟨key,inside,named⟩,ih _ rest⟩

theorem serially_length (keys : List KeyCol) (serial : Option Nat) (names : List Text)
    (chain : Serially keys serial names) (distinct : names.Nodup) : names.length ≤ keys.length := by
  have below := (distinct.subperm (serially_names keys serial names chain)).length_le
  rwa [List.length_map] at below

theorem relinkIndex_run (n : Nat) (d : Dir) (record : Index) (names : List Text)
    (there : d.indexes[n]? = some record) (table : Table d.keyColumns) (mapped : Mapped d.keyColumns)
    (strung : Strung d.keyColumns record names) :
    ∃ keys, relinkIndex n d = (.ok (),d.holding keys
        (d.indexes.modify n (Index.headed (position d.keyColumns)))) ∧
      Relinks d.keyColumns keys ∧ ∀ key ∈ keys, key.name ∈ names → Fixed keys key := by
  cases names with
  | nil =>
    have none : record.firstColSerial = none := strung.serial
    have same : d.indexes.modify n (Index.headed (position d.keyColumns)) = d.indexes := by
      apply List.ext_getElem?
      intro q
      rw [List.getElem?_modify]
      by_cases here : n = q
      · subst here
        have kept := record.headed_empty (position d.keyColumns) none (strung.empty none)
        simp [there,kept]
      · simp [here]
    refine ⟨d.keyColumns,?_,Relinks.refl _,fun _ _ inside => absurd inside List.not_mem_nil⟩
    rw [relinkIndex,Prog.bind_ok _ (index_run n d record there),none,same]
    rfl
  | cons name names =>
    obtain ⟨key,inside,named,serial,rest⟩ := strung.serial
    obtain ⟨p,found⟩ := List.mem_iff_getElem?.mp inside
    obtain ⟨bucket,place,value⟩ := mapped p key found
    have head : some p = record.firstColSerial.bind (position d.keyColumns) := by
      rw [serial]
      exact (table.position_of p key found).symm
    have heads : d.indexes.modify n (fun record => {record with firstCol := some p}) =
        d.indexes.modify n (Index.headed (position d.keyColumns)) := by
      apply List.ext_getElem?
      intro q
      rw [List.getElem?_modify,List.getElem?_modify]
      by_cases here : n = q
      · subst here
        simp [there,Index.headed,head]
      · simp [here]
    have enough := serially_length _ _ _ strung.serial strung.distinct
    obtain ⟨keys,walked,relinks,fixed⟩ := relinkChain_run names d.keyColumns.length p
      {d with indexes := d.indexes.modify n (Index.headed (position d.keyColumns))} key found table
      mapped rest (named ▸ strung.ends) (Nat.le_of_succ_le enough)
    refine ⟨keys,?_,relinks,named ▸ fixed⟩
    rw [relinkIndex,Prog.bind_ok _ (index_run n d record there),serial]
    dsimp only
    rw [Prog.bind_ok _ (keyCol_run _ d bucket place),value]
    refine (Prog.bind_ok _ (Prog.modify_run _ d)).trans ?_
    rw [heads]
    exact walked

/-- The loop over the indexes: every chain of every index is right behind it. -/
theorem relinkIndexes_run (names : Nat → List Text) (ns : List Nat) (d : Dir)
    (table : Table d.keyColumns) (mapped : Mapped d.keyColumns)
    (strung : ∀ n ∈ ns, ∃ record, d.indexes[n]? = some record ∧
      Strung d.keyColumns record (names n)) :
    ∃ keys, ns.forM relinkIndex d = (.ok (),d.holding keys (ns.foldl (fun indexes n =>
        indexes.modify n (Index.headed (position d.keyColumns))) d.indexes)) ∧
      Relinks d.keyColumns keys ∧
      ∀ n ∈ ns, ∀ key ∈ keys, key.name ∈ names n → Fixed keys key := by
  induction ns generalizing d with
  | nil => exact ⟨d.keyColumns,rfl,Relinks.refl _,fun _ none => absurd none List.not_mem_nil⟩
  | cons n ns ih =>
    obtain ⟨record,there,here⟩ := strung n List.mem_cons_self
    obtain ⟨keys,ran,relinks,fixed⟩ := relinkIndex_run n d record (names n) there table mapped here
    obtain ⟨last,ran',relinks',fixed'⟩ := ih
      (d.holding keys (d.indexes.modify n (Index.headed (position d.keyColumns))))
      (relinks.alike.table table) (relinks.mapped mapped) fun m later => by
        obtain ⟨record,there,strung⟩ := strung m (List.mem_cons_of_mem n later)
        rw [holding_indexes,List.getElem?_modify,there]
        refine ⟨_,rfl,relinks.strung _ _ ?_⟩
        split
        · exact strung.headed _
        · exact strung
    refine ⟨last,?_,relinks.trans relinks',fun m inside key found named => ?_⟩
    · rw [holding_keyColumns,relinks.alike.position] at ran'
      exact (Prog.bind_ok _ ran).trans ran'
    · rcases List.mem_cons.mp inside with rfl | later
      · obtain ⟨p,before,place,place',same⟩ := relinks'.back key found
        have name : key.name = before.name := by rw [same]; rfl
        exact relinks'.fixed p before key place place'
          (fixed before (List.mem_of_getElem? place) (name ▸ named))
      · exact fixed' m later key found named

theorem modify_range {α : Type} (f : α → α) (l : List α) (k q : Nat) :
    ((List.range k).foldl (fun l n => l.modify n f) l)[q]? =
      l[q]?.map fun a => if q < k then f a else a := by
  induction k with
  | zero => simp
  | succ k ih =>
    rw [List.range_succ,List.foldl_append,List.foldl_cons,List.foldl_nil,List.getElem?_modify,ih]
    cases l[q]? with
    | none => rfl
    | some a =>
      apply congrArg some
      dsimp only
      split_ifs <;> first | rfl | omega

theorem modify_all {α : Type} (f : α → α) (l : List α) :
    (List.range l.length).foldl (fun l n => l.modify n f) l = l.map f := by
  apply List.ext_getElem?
  intro q
  rw [modify_range,List.getElem?_map]
  cases found : l[q]? with
  | none => rfl
  | some a => rw [Option.map_some,if_pos (List.getElem?_eq_some_iff.mp found).1]; rfl

theorem mappedIds_run (serials : List Nat) (d : Dir) (table : Table d.keyColumns)
    (mapped : Mapped d.keyColumns) (below : ∀ serial ∈ serials, serial < d.keyColumns.length) :
    ∃ ids, mappedIds serials d = (.ok ids,d) ∧
      ids.map some = serials.map (position d.keyColumns) := by
  induction serials with
  | nil => exact ⟨[],rfl,rfl⟩
  | cons serial serials ih =>
    obtain ⟨p,key,there,same⟩ := table.exists_serial serial (below serial List.mem_cons_self)
    subst same
    obtain ⟨bucket,place,value⟩ := mapped p key there
    obtain ⟨ids,ran,positions⟩ := ih fun serial later => below serial (List.mem_cons_of_mem _ later)
    refine ⟨p::ids,?_,?_⟩
    · rw [mappedIds,Prog.bind_ok _ (keyCol_run _ d bucket place),value,Prog.bind_ok _ ran]
      rfl
    · rw [List.map_cons,List.map_cons,positions,table.position_of p key there]

theorem mapSerials_ends (keys : List KeyCol) (names : List Text) (ends : Ends keys names) :
    Ends (mapSerials keys) names := by
  intro key' inside named last
  have kept := mapSerials_map (fun key => (key.name,key.nextInKeySerial,key.nextInKey))
    (fun _ _ => rfl) keys (List.range keys.length)
  have found := List.mem_map_of_mem (f := fun key : KeyCol =>
    (key.name,key.nextInKeySerial,key.nextInKey)) inside
  rw [mapSerials,kept] at found
  obtain ⟨key,inside,same⟩ := List.mem_map.mp found
  obtain ⟨name,rest⟩ := Prod.mk.inj same
  obtain ⟨serial,next⟩ := Prod.mk.inj rest
  rw [← next]
  exact ends key inside (name ▸ named) (serial.trans last)

theorem mapSerials_strung (keys : List KeyCol) (record : Index) (names : List Text)
    (strung : Strung keys record names) : Strung (mapSerials keys) record names where
  serial := (mapSerials_alike keys).serially _ _ strung.serial
  ends := mapSerials_ends keys names strung.ends
  distinct := strung.distinct
  empty := strung.empty

/-- Behind `fix_links` every link is to where the serial number says. -/
theorem fixLinks_run (names : Nat → List Text) (d : Dir) (table : Table d.keyColumns)
    (strung : ∀ n record, d.indexes[n]? = some record → Strung d.keyColumns record (names n))
    (below : ∀ serial ∈ d.pathinfoSerials, serial < d.keyColumns.length) :
    ∃ keys pathinfo, fixLinks d = (.ok (),{d.holding keys
        (d.indexes.map (Index.headed (position d.keyColumns))) with pathinfo}) ∧
      Alike d.keyColumns keys ∧
      (∀ n < d.indexes.length, ∀ key ∈ keys, key.name ∈ names n → Fixed keys key) ∧
      pathinfo.map some = d.pathinfoSerials.map (position d.keyColumns) := by
  have alike := mapSerials_alike d.keyColumns
  have mapped := mapSerials_mapped d.keyColumns table
  obtain ⟨keys,ran,relinks,fixed⟩ := relinkIndexes_run names (List.range d.indexes.length)
    (d.holding (mapSerials d.keyColumns) d.indexes) (alike.table table) mapped
    fun n inside => by
      have there := List.getElem?_eq_getElem (List.mem_range.mp inside)
      exact ⟨_,there,mapSerials_strung _ _ _ (strung n _ there)⟩
  have whole : Alike d.keyColumns keys := alike.trans relinks.alike
  rw [holding_keyColumns,holding_indexes,modify_all,alike.position] at ran
  obtain ⟨pathinfo,read,positions⟩ := mappedIds_run d.pathinfoSerials
    (d.holding keys (d.indexes.map (Index.headed (position d.keyColumns))))
    (whole.table table) (relinks.mapped mapped) fun serial inside => by
      rw [holding_keyColumns,whole.length]
      exact below serial inside
  refine ⟨keys,pathinfo,?_,whole,fun n bound => fixed n (List.mem_range.mpr bound),?_⟩
  · refine (Prog.bind_ok _ (Prog.modify_run _ d)).trans ?_
    refine (Prog.bind_ok _ ran).trans ?_
    exact (Prog.bind_ok _ read).trans rfl
  · rw [holding_keyColumns,whole.position] at positions
    exact positions

end ModNdb.Config
