import ModNdb.Config.Sound
import ModNdb.Config.Merge

/-! The configurations that a server comes to: every directive keeps them sound. -/
namespace ModNdb.Config
open Format (OutputFormat)
open Prog (Leads Steps)

section
variable {n : Nat}

theorem index_leads {P : Dir → Prop} (i : Nat) :
    Leads P (index i) fun record d => P d ∧ d.indexes[i]? = some record := by
  intro d record d' before ran
  unfold index at ran
  cases there : d.indexes[i]? with
  | none =>
    rw [there] at ran
    cases (Prod.mk.inj ran).1
  | some found =>
    rw [there] at ran
    cases ran
    exact ⟨before,there⟩

theorem Sound.indexed {d : Dir} (sound : Sound n d) (i : Nat) (record : Index)
    (there : d.indexes[i]? = some record) (id : Nat) (change : KeyCol → KeyCol)
    (label : ∀ key, (change key).label = key.label) (index : ∀ key, (change key).indexId = some i)
    (plan : ∀ key, planOf record.type = some (change key).impliedPlan) :
    Sound n {d with keyColumns := d.keyColumns.modify id change} := by
  have labels := map_modify KeyCol.label change label d.keyColumns id
  refine ⟨label_table labels sound.table,?_,sound.lengths,?_,sound.kinds,?_,sound.constants,
    sound.default⟩
  · rw [label_length labels]
    exact sound.serials
  · rw [label_position labels]
    exact sound.paths
  · intro key inside implied
    obtain ⟨p,old,found,rfl⟩ := modify_cases change _ _ _ inside
    split at implied
    · rw [if_pos ‹_›,index,Option.bind_some,there]
      exact plan old
    · rw [if_neg ‹_›]
      exact sound.planned old (List.mem_of_getElem? found) implied

theorem addColumnToIndex_sound (i : Nat) (expr : Expr) :
    Leads (Sound n) (addColumnToIndex i expr) fun _ => Sound n := by
  intro d id d' sound ran
  obtain ⟨⟨place,found⟩,d₁,added,ran⟩ := Prog.bind_inv ran
  obtain ⟨record,d₂,read,ran⟩ := Prog.bind_inv ran
  obtain ⟨sound',there⟩ := index_leads (P := Sound n) i d₁ record d₂
    (addKeyColumn_inv sound added).1 read
  obtain ⟨_,_,changed,ran⟩ := Prog.bind_inv ran
  cases changed
  cases ran
  have kind := sound'.kinds record (List.mem_of_getElem? there)
  apply sound'.indexed i record there id
  · intro key
    dsimp only
    split_ifs <;> rfl
  · intro key
    dsimp only
    split_ifs <;> rfl
  · intro key
    unfold planOf at kind ⊢
    dsimp only
    split_ifs at kind ⊢ <;> first | rfl | cases kind

theorem namedIndexId_stays {α : Type} {f : Dir → α} (idx : Text) :
    Steps (Stays f) (namedIndexId idx) := by
  unfold namedIndexId
  apply Steps.get
  intro dir
  cases getIndexByName dir idx with
  | none => exact Steps.fail _
  | some id => exact Steps.pure id

theorem setKeyCol_view (p : Nat) (change : KeyCol → KeyCol)
    (same : ∀ key, (change key).told = key.told) : Steps (Stays Dir.view) (setKeyCol p change) :=
  Steps.modify fun d => view_keyColumns d _ (map_modify KeyCol.told change same _ p)

theorem setIndex_view (i : Nat) (change : Index → Index)
    (same : ∀ record, (change record).told = record.told) :
    Steps (Stays Dir.view) (setIndex i change) :=
  Steps.modify fun d => view_indexes d _ (map_modify Index.told change same _ i)

theorem sortScan_view (bounded : Bool) (idxname : Text) (descending : Bool) :
    Steps (Stays Dir.view) (sortScan bounded idxname descending) := by
  unfold sortScan
  apply Steps.ite
  · exact (namedIndexId_stays _).bind fun _ => setIndex_view _ _ fun _ => rfl
  · exact Steps.modify fun _ => rfl

theorem chainEnd_stays {α : Type} {f : Dir → α} (fuel col : Nat) :
    Steps (Stays f) (chainEnd fuel col) := by
  induction fuel generalizing col with
  | zero => exact Steps.fail _
  | succ fuel ih =>
    unfold chainEnd
    apply (keyCol_stays col).bind
    intro key
    cases key.nextInKey with
    | none => exact Steps.pure col
    | some next => exact ih next

theorem linkColumn_view (i colId : Nat) : Steps (Stays Dir.view) (linkColumn i colId) := by
  unfold linkColumn
  apply (keyCol_stays colId).bind
  intro key
  apply (index_stays i).bind
  intro record
  cases record.firstCol with
  | none => exact setIndex_view _ _ fun _ => rfl
  | some head =>
    exact Steps.get fun _ => (chainEnd_stays _ _).bind fun _ => setKeyCol_view _ _ fun _ => rfl

theorem namedIdx_sound (idx : Text) (expr : Expr) :
    Leads (Sound n) (namedIdx idx expr) fun _ => Sound n := by
  unfold namedIdx
  refine (stays_sound (namedIndexId_stays idx)).bind fun i =>
    (stays_sound (index_stays i)).bind fun record => ?_
  refine Leads.ite (fun _ => ?_) fun _ => ?_
  · exact Leads.ite (fun _ => stays_sound (sortScan_view _ _ _)) fun _ =>
      Leads.ite (fun _ => stays_sound (sortScan_view _ _ _)) fun _ => Leads.fail _
  · refine (addColumnToIndex_sound i expr).bind fun _ =>
      (stays_sound (setIndex_view i _ ?_)).bind fun _ => stays_sound (linkColumn_view _ _)
    exact fun _ => rfl

theorem Sound.extended {d : Dir} (sound : Sound n d) (record : Index)
    (kind : (planOf record.type).isSome) (bare : record.constants = []) :
    Sound n {d with indexes := d.indexes ++ [record]} where
  table := sound.table
  serials := sound.serials
  lengths := sound.lengths
  paths := sound.paths
  kinds other inside := by
    rcases List.mem_append.mp inside with old | new
    · exact sound.kinds other old
    · rw [List.mem_singleton.mp new]
      exact kind
  planned key inside implied := by
    have planned := sound.planned key inside implied
    obtain ⟨i,index,rest⟩ := Option.bind_eq_some_iff.mp planned
    obtain ⟨other,there,plan⟩ := Option.bind_eq_some_iff.mp rest
    rw [index,Option.bind_some,List.getElem?_append_left (List.getElem?_eq_some_iff.mp there).1,there]
    exact plan
  constants other inside constant among := by
    rcases List.mem_append.mp inside with old | new
    · exact sound.constants other old constant among
    · rw [List.mem_singleton.mp new,bare] at among
      cases among
  default i named := by
    obtain ⟨other,there,some⟩ := sound.default i named
    exact ⟨other,(List.getElem?_append_left (List.getElem?_eq_some_iff.mp there).1).trans there,some⟩

theorem buildIndex_sound (type : UInt8) (name : Text) (kind : (planOf type).isSome) :
    Leads (Sound n) (buildIndex type name) fun _ => Sound n := by
  unfold buildIndex
  refine Leads.get fun d sound => Leads.ite (fun _ => Leads.modify _ ?_) fun _ => ?_
  · rintro s rfl
    exact sound.extended _ kind rfl
  · refine Leads.pure _ ?_
    rintro s rfl
    exact sound

theorem namedIndex_sound (which : UInt8) (idx col : Text) (kind : (planOf which).isSome) :
    Leads (Sound n) (namedIndex which idx col) fun _ => Sound n := by
  unfold namedIndex
  refine Leads.get fun d sound => Leads.ite (fun _ => Leads.fail _) fun _ => ?_
  refine ((buildIndex_sound which idx kind).bind fun _ => namedIdx_sound idx _).mono ?_ fun _ _ => id
  rintro s rfl
  exact sound

/-- A constant of an ordered index makes it the default key. -/
theorem Sound.withConstant {d : Dir} (sound : Sound n d) (i : Nat) (record : Index)
    (there : d.indexes[i]? = some record) (ordered : record.type = code 'O') (constant : Constant)
    (plan : constant.impliedPlan = .orderedIndexScan) :
    Sound n {d with
      defaultKey := some i
      indexes := d.indexes.modify i fun record =>
        {record with constants := constant :: record.constants}} where
  table := sound.table
  serials := sound.serials
  lengths := sound.lengths
  paths := sound.paths
  kinds other inside := by
    obtain ⟨p,old,found,rfl⟩ := modify_cases _ _ _ _ inside
    have kind := sound.kinds old (List.mem_of_getElem? found)
    split <;> exact kind
  planned key inside implied := by
    rw [← sound.planned key inside implied]
    congr 1
    funext j
    rw [List.getElem?_modify]
    cases d.indexes[j]? with
    | none => rfl
    | some other =>
      dsimp only [Option.map_eq_map,Option.map_some,Option.bind_some]
      split <;> rfl
  constants other inside constant' among := by
    obtain ⟨p,old,found,rfl⟩ := modify_cases _ _ _ _ inside
    by_cases here : i = p
    · subst here
      rw [there] at found
      cases found
      rw [if_pos rfl] at among ⊢
      rcases List.mem_cons.mp among with rfl | old
      · exact ⟨ordered,plan⟩
      · exact sound.constants record (List.mem_of_getElem? there) constant' old
    · rw [if_neg here] at among ⊢
      exact sound.constants old (List.mem_of_getElem? found) constant' among
  default j named := by
    cases named
    refine ⟨{record with constants := constant :: record.constants},?_,List.cons_ne_nil _ _⟩
    rw [List.getElem?_modify_eq,there]
    rfl

theorem indexConstant_sound (idx : Text) (expr : Expr) :
    Leads (Sound n) (indexConstant idx expr) fun _ => Sound n := by
  intro d u d' sound ran
  obtain ⟨i,d₁,named,ran⟩ := Prog.bind_inv ran
  have sound₁ := stays_sound (namedIndexId_stays idx) d i d₁ sound named
  obtain ⟨_,_,default,ran⟩ := Prog.bind_inv ran
  cases default
  obtain ⟨record,d₂,read,ran⟩ := Prog.bind_inv ran
  obtain ⟨same,there⟩ := index_leads (P := (· = {d₁ with defaultKey := some i})) i _ record d₂ rfl read
  subst same
  by_cases unique : record.type = code 'P' ∨ record.type = code 'U'
  · rw [if_pos unique] at ran
    cases (Prod.mk.inj ran).1
  · rw [if_neg unique] at ran
    by_cases ordered : record.type = code 'O'
    · rw [if_neg (not_not.mpr ordered)] at ran
      cases ran
      exact sound₁.withConstant i record there ordered _ rfl
    · rw [if_pos ordered] at ran
      cases (Prod.mk.inj ran).1

theorem indexCondition_sound (idx : Text) (expr : Expr) :
    Leads (Sound n) (indexCondition idx expr) fun _ => Sound n := by
  unfold indexCondition
  exact Leads.ite (fun _ => indexConstant_sound idx expr) fun _ => namedIdx_sound idx expr

theorem Lookup.sound (spec : Lookup) : Leads (Sound n) spec.run fun _ => Sound n := by
  cases spec with
  | primaryKey values =>
    exact (buildIndex_sound _ _ rfl).bind fun _ => Leads.forM fun _ _ => indexCondition_sound _ _
  | uniqueIndex name values =>
    exact (buildIndex_sound _ _ rfl).bind fun _ => Leads.forM fun _ _ => indexCondition_sound _ _

theorem view_sound (f : Dir → Dir) (same : ∀ d, (f d).view = d.view) :
    Leads (Sound n) (Prog.modify f : Setup Unit) fun _ => Sound n := stays_sound (Steps.modify same)

theorem nothing_sound : Leads (Sound n) (pure () : Setup Unit) fun _ => Sound n :=
  stays_sound (Steps.pure ())

theorem then_sound {α : Type} {f : Dir → Dir} {rest : Unit → Setup α}
    (same : ∀ d, (f d).view = d.view) (after : Leads (Sound n) (rest ()) fun _ => Sound n) :
    Leads (Sound n) ((Prog.modify f : Setup Unit) >>= rest) fun _ => Sound n :=
  (view_sound f same).bind fun _ => after

theorem QueryPlan.sound (plan : QueryPlan) : Leads (Sound n) plan.run fun _ => Sound n := by
  cases plan with
  | lookup spec => exact spec.sound
  | tableScan => exact view_sound _ fun _ => rfl
  | indexScan name conditions descending =>
    unfold QueryPlan.run
    cases descending with
    | none =>
      refine Leads.ite (fun _ => then_sound ?_ nothing_sound) fun _ => ?_
      · exact fun _ => rfl
      exact (buildIndex_sound _ _ rfl).bind fun _ =>
        (Leads.forM fun _ _ => indexCondition_sound _ _).bind fun _ => nothing_sound
    | some descending =>
      refine Leads.ite (fun _ => then_sound ?_ (stays_sound (sortScan_view _ _ _))) fun _ => ?_
      · exact fun _ => rfl
      exact (buildIndex_sound _ _ rfl).bind fun _ =>
        (Leads.forM fun _ _ => indexCondition_sound _ _).bind fun _ =>
          stays_sound (sortScan_view _ _ _)

theorem Query.sound (query : Query) : Leads (Sound n) query.run fun _ => Sound n := by
  cases query with
  | select columns table plan =>
    have planned : Leads (Sound n) (table.run >>= fun _ => plan.elim (pure ()) QueryPlan.run)
        fun _ => Sound n := by
      refine then_sound ?_ ?_
      · exact fun _ => rfl
      · cases plan with
        | none => exact nothing_sound
        | some plan => exact plan.sound
    have listed : Leads (Sound n) (columns.elim
        (Prog.modify fun dir => {dir with selectStar := true}) (·.forM selectColumn))
        fun _ => Sound n := by
      cases columns with
      | none => exact view_sound _ fun _ => rfl
      | some columns => exact Leads.forM fun _ _ => view_sound _ fun _ => rfl
    have whole := listed.bind fun _ => planned
    cases columns <;> cases plan <;> exact whole
  | delete table spec =>
    refine then_sound ?_ (spec.sound.bind fun _ => view_sound _ ?_)
    · exact fun _ => rfl
    · exact fun _ => rfl
  | queryPlan plan => exact plan.sound

theorem filter_sound (baseColName filterOp aliasColName : Text) :
    Leads (Sound n) (filter baseColName filterOp aliasColName) fun _ => Sound n := by
  unfold filter
  refine Leads.bind (Q := fun _ => Sound n)
    (fun d result d' sound ran => (addKeyColumn_inv sound ran).1) fun result => ?_
  refine Leads.ite (fun _ => Leads.fail _) fun _ => ?_
  refine (stays_sound (setKeyCol_view _ _ ?_)).bind fun _ => then_sound ?_ ?_
  · exact fun _ => rfl
  · exact fun _ => rfl
  · split
    · refine stays_sound (setKeyCol_view _ _ ?_)
      exact fun _ => rfl
    · exact Leads.fail _

theorem Sound.pathColumn {k : Nat} {d : Dir} (sound : Sound k d) (id : Nat) (key : KeyCol)
    (there : d.keyColumns[id]? = some key) :
    Sound (k + 1) {d with
      pathinfo := d.pathinfo.set k id
      pathinfoSerials := d.pathinfoSerials.set k key.serialNo} where
  table := sound.table
  serials serial inside := by
    rcases List.mem_or_eq_of_mem_set inside with old | rfl
    · exact sound.serials serial old
    · exact .inl (sound.table.serial_lt key (List.mem_of_getElem? there))
  lengths := by
    rw [List.length_set,List.length_set]
    exact sound.lengths
  paths j before := by
    rw [List.getElem?_set,List.getElem?_set,sound.lengths]
    by_cases here : k = j
    · rw [if_pos here,if_pos here]
      split
      · exact (sound.table.position_of id key there).symm
      · rfl
    · rw [if_neg here,if_neg here]
      exact sound.paths j (by omega)
  kinds := sound.kinds
  planned := sound.planned
  constants := sound.constants
  default := sound.default

theorem keyCol_inv {id : Nat} {d d' : Dir} {key : KeyCol} (ran : keyCol id d = (.ok key,d')) :
    d' = d ∧ d.keyColumns[id]? = some key := by
  unfold keyCol at ran
  cases there : d.keyColumns[id]? with
  | none =>
    rw [there] at ran
    cases (Prod.mk.inj ran).1
  | some found =>
    rw [there] at ran
    cases ran
    exact ⟨rfl,rfl⟩

/-- The loop over the words of a path makes its columns known one after the other. -/
theorem pathInfo_loop (items : List Text) (k total : Nat) (body : Text × Nat → Setup PUnit)
    (step : ∀ item j, Leads (fun d => Sound j d ∧ d.pathinfoSerials.length = total) (body (item,j))
      fun _ d => Sound (j + 1) d ∧ d.pathinfoSerials.length = total) :
    Leads (fun d => Sound k d ∧ d.pathinfoSerials.length = total) ((items.zipIdx k).forM body)
      fun _ d => Sound (k + items.length) d ∧ d.pathinfoSerials.length = total := by
  induction items generalizing k with
  | nil => exact Leads.pure _ fun _ holds => holds
  | cons item items ih =>
    have rest := ih (k + 1)
    rw [List.length_cons,show k + (items.length + 1) = k + 1 + items.length from by omega]
    exact (step item k).bind fun _ => rest

theorem Sound.newPath {d : Dir} (sound : Sound n d) (total : Nat) :
    Sound 0 {d with
      pathinfo := List.replicate total 0
      pathinfoSerials := List.replicate total 0} where
  table := sound.table
  serials _ inside := .inr (List.eq_of_mem_replicate inside)
  lengths := by rw [List.length_replicate]
  paths _ before := absurd before (Nat.not_lt_zero _)
  kinds := sound.kinds
  planned := sound.planned
  constants := sound.constants
  default := sound.default

theorem Sound.whole {d : Dir} (sound : Sound n d) (all : d.pathinfoSerials.length ≤ n) (m : Nat) :
    Sound m d where
  table := sound.table
  serials := sound.serials
  lengths := sound.lengths
  paths j _ := by
    by_cases before : j < n
    · exact sound.paths j before
    · have lengths := sound.lengths
      rw [List.getElem?_eq_none (by omega),List.getElem?_eq_none (by omega)]
      rfl
  kinds := sound.kinds
  planned := sound.planned
  constants := sound.constants
  default := sound.default

def Whole (d : Dir) : Prop := ∀ n, Sound n d

theorem leads_whole {x : Setup Unit} (leads : ∀ n, Leads (Sound n) x fun _ => Sound n) :
    Leads Whole x fun _ => Whole :=
  fun d u d' whole ran n => leads n d u d' (whole n) ran

theorem pathInfo_sound (spec : Text) (arg2 : Option Text) :
    Leads Whole (pathInfo spec arg2) fun _ => Whole := by
  unfold pathInfo
  refine Leads.bind (Q := fun _ d => Sound 0 d ∧ d.pathinfoSerials.length = (pathWords spec).length)
    (Leads.modify _ ?_) fun _ => Leads.bind (Q := fun _ => Whole) ?_ fun _ => ?_
  · intro d whole
    exact ⟨(whole 0).newPath _,List.length_replicate⟩
  · refine (pathInfo_loop (pathWords spec) 0 (pathWords spec).length _ ?_).mono (fun _ => id) ?_
    · rintro item j d u d' ⟨sound,total⟩ ran
      obtain ⟨⟨id,found⟩,d₁,added,ran⟩ := Prog.bind_inv ran
      obtain ⟨sound₁,serials,_⟩ := addKeyColumn_inv sound added
      obtain ⟨key,d₂,read,set⟩ := Prog.bind_inv ran
      cases set
      obtain ⟨rfl,there⟩ := keyCol_inv read
      refine ⟨sound₁.pathColumn id key there,?_⟩
      rw [List.length_set,serials]
      exact total
    · rintro _ d ⟨sound,total⟩
      exact sound.whole (by omega)
  · refine Leads.ite (fun _ => leads_whole fun _ => view_sound _ ?_) fun _ => leads_whole fun _ => nothing_sound
    exact fun _ => rfl

theorem Directive.sound (formats : Text → Option OutputFormat) (directive : Directive) :
    Leads Whole (directive.run formats) fun _ => Whole := by
  cases directive with
  | pathInfo spec arg2 => exact pathInfo_sound spec arg2
  | database name | deletes flag | eTags flag =>
    refine leads_whole fun _ => view_sound _ ?_
    exact fun _ => rfl
  | table arg1 arg2 arg3 =>
    refine leads_whole fun _ => then_sound ?_ (Leads.ite (fun _ => view_sound _ ?_) fun _ => nothing_sound)
    · exact fun _ => rfl
    · exact fun _ => rfl
  | format name =>
    refine leads_whole fun _ => then_sound ?_ (Leads.ite (fun _ => Leads.fail _) fun _ => nothing_sound)
    exact fun _ => rfl
  | columns names =>
    refine leads_whole fun _ => Leads.forM fun arg _ => view_sound _ ?_
    intro d
    split_ifs <;> rfl
  | allowUpdate names =>
    refine leads_whole fun _ => Leads.forM fun arg _ => view_sound _ ?_
    exact fun _ => rfl
  | primaryKey cols | uniqueIndex idx cols | orderedIndex idx cols =>
    exact leads_whole fun _ => Leads.forM fun col _ => namedIndex_sound _ _ col rfl
  | filter baseColName filterOp aliasColName => exact leads_whole fun _ => filter_sound _ _ _
  | sql query => exact leads_whole fun _ => query.sound

theorem configure_sound (formats : Text → Option OutputFormat) (directives : List Directive) :
    Leads Whole (configure formats directives) fun _ => Whole :=
  Leads.forM fun directive _ => directive.sound formats

theorem init_sound (json : Option OutputFormat) : Whole (Dir.init json) := by
  intro n
  exact ⟨⟨List.Pairwise.nil,List.Perm.nil⟩,fun _ none => absurd none List.not_mem_nil,rfl,
    fun _ _ => rfl,fun _ none => absurd none List.not_mem_nil,fun _ none => absurd none List.not_mem_nil,
    fun _ none => absurd none List.not_mem_nil,fun _ none => by cases none⟩

end

/-- A configuration that a server comes to: that of a section that it has accepted, or of
sections inside one another. -/
inductive Reached (formats : Text → Option OutputFormat) : Dir → Prop
  | configured (directives : List Directive) (dir : Dir)
    (accepted : configure formats directives (Dir.init (formats (text "JSON"))) = (.ok (),dir)) :
    Reached formats dir
  | merged (outer inner : Dir) : Reached formats outer → Reached formats inner →
    Reached formats (mergeDir outer inner)

theorem Reached.sound {formats : Text → Option OutputFormat} {dir : Dir}
    (reached : Reached formats dir) : Whole dir := by
  induction reached with
  | configured directives dir accepted =>
    exact configure_sound formats directives _ _ _ (init_sound _) accepted
  | merged outer inner _ _ _ whole => exact fun n => (whole n).same rfl

/-- The serial numbers and the path of a configuration are numbers that a `short` holds, as long as
there are no more columns than a `short` can number. -/
theorem Reached.short {formats : Text → Option OutputFormat} {dir : Dir}
    (reached : Reached formats dir) (few : dir.keyColumns.length ≤ 2^15) :
    (∀ key ∈ dir.keyColumns, key.serialNo < 2^15) ∧
      (∀ serial ∈ dir.pathinfoSerials, serial < 2^15) ∧ ∀ id ∈ dir.pathinfo, id < 2^15 := by
  have sound := reached.sound dir.pathinfo.length
  refine ⟨fun key inside => ?_,fun serial inside => ?_,fun id inside => ?_⟩
  · exact Nat.lt_of_lt_of_le (sound.table.serial_lt key inside) few
  · rcases sound.serials serial inside with below | rfl
    · exact Nat.lt_of_lt_of_le below few
    · decide
  · obtain ⟨j,there⟩ := List.mem_iff_getElem?.mp inside
    rw [sound.paths j (List.getElem?_eq_some_iff.mp there).1] at there
    obtain ⟨serial,_,found⟩ := Option.bind_eq_some_iff.mp there
    exact Nat.lt_of_lt_of_le (position_lt serial id found) few

end ModNdb.Config
