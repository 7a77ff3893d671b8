import ModNdb.Config.Reached
import ModNdb.Query.KeyParts
import ModNdb.Query.Methods

/-! The plan and the active index of a request: the highest plan, the first column that has
it, and an index of the type that the plan needs. -/
namespace ModNdb.Query
open Config (AccessPlan Dir KeyCol Reached Whole planOf)

theorem AccessPlan.value_inj {plan plan' : AccessPlan} (same : plan.value = plan'.value) :
    plan = plan' := by
  cases plan <;> cases plan' <;> first | rfl | cases same

/-- The leading element is the first of those with the highest value. -/
theorem argmax_first {α : Type} (f : α → Nat) (l : List α) (m : α) (leads : l.argmax f = some m) :
    l.find? (fun a => f a = f m) = some m := by
  induction l generalizing m with
  | nil => cases leads
  | cons a l ih =>
    rw [List.argmax_cons] at leads
    cases rest : l.argmax f with
    | none =>
      rw [rest] at leads
      cases leads
      exact List.find?_cons_of_pos (decide_eq_true rfl)
    | some best =>
      rw [rest] at leads
      dsimp only at leads
      split at leads
      · rename_i higher
        cases leads
        rw [List.find?_cons_of_neg (by simpa using Nat.ne_of_lt higher)]
        exact ih _ rest
      · cases leads
        exact List.find?_cons_of_pos (decide_eq_true rfl)

/-- The plan and the index after the columns `cols` are supplied: the plan is the highest
among that before and those implied, and the index that of the first column that has it, if
a column has raised it. -/
structure Raised (cols : List KeyCol) (before after : AccessPlan × Option Nat) : Prop where
  among : after.1 ∈ before.1 :: cols.map KeyCol.impliedPlan
  highest : ∀ plan ∈ before.1 :: cols.map KeyCol.impliedPlan, plan.value ≤ after.1.value
  first : before.1.value < after.1.value →
    ∃ keycol, cols.find? (fun col => col.impliedPlan = after.1) = some keycol ∧
      after.2 = keycol.indexId
  kept : ¬before.1.value < after.1.value → after = before

structure Suited (dir : Dir) (planned : AccessPlan × Option Nat) : Prop where
  primaryKey : ∀ n, planned.2 = some n → planned.1 = .primaryKey →
    ∃ record, dir.indexes[n]? = some record ∧ record.type = code 'P'
  uniqueIndexAccess : ∀ n, planned.2 = some n → planned.1 = .uniqueIndexAccess →
    ∃ record, dir.indexes[n]? = some record ∧ record.type = code 'U'
  orderedIndexScan : ∀ n, planned.2 = some n → planned.1 = .orderedIndexScan →
    ∃ record, dir.indexes[n]? = some record ∧ record.type = code 'O'

section
variable (dir : Dir)

theorem giveKeys_raised (keys : List (Nat × Text)) (q : Items) :
    Raised (columnsOf dir keys) q.planned (giveKeys dir keys q).planned := by
  rw [giveKeys_planned]
  unfold leading
  cases leads : (columnsOf dir keys).argmax fun keycol => keycol.impliedPlan.value with
  | none =>
    have empty := List.argmax_eq_none.mp leads
    rw [empty]
    refine ⟨List.mem_cons_self,?_,fun higher => absurd higher (Nat.lt_irrefl _),fun _ => rfl⟩
    intro plan among
    rw [List.mem_singleton.mp among]
    exact Nat.le_refl _
  | some best =>
    dsimp only [Option.map_some,Option.getD_some]
    have inside := List.argmax_mem leads
    have below (keycol : KeyCol) (among : keycol ∈ columnsOf dir keys) :
        keycol.impliedPlan.value ≤ best.impliedPlan.value :=
      List.le_of_mem_argmax (f := fun keycol : KeyCol => keycol.impliedPlan.value) among leads
    unfold raise
    by_cases higher : q.planned.1.value < best.impliedPlan.value
    · rw [if_pos higher]
      refine ⟨List.mem_cons_of_mem _ (List.mem_map_of_mem inside),?_,fun _ => ⟨best,?_,rfl⟩,
        fun same => absurd higher same⟩
      · intro plan among
        rcases List.mem_cons.mp among with rfl | implied
        · exact Nat.le_of_lt higher
        · obtain ⟨keycol,supplied,rfl⟩ := List.mem_map.mp implied
          exact below keycol supplied
      · rw [← argmax_first _ _ _ leads]
        congr 1
        funext col
        exact decide_eq_decide.mpr ⟨congrArg AccessPlan.value,AccessPlan.value_inj⟩
    · rw [if_neg higher]
      refine ⟨List.mem_cons_self,?_,fun raised => absurd raised (Nat.lt_irrefl _),fun _ => rfl⟩
      intro plan among
      rcases List.mem_cons.mp among with rfl | implied
      · exact Nat.le_refl _
      · obtain ⟨keycol,supplied,rfl⟩ := List.mem_map.mp implied
        exact Nat.le_trans (below keycol supplied) (Nat.le_of_not_lt higher)

/-- The active index is there, and of the type that implies the plan. -/
def Implied (planned : AccessPlan × Option Nat) : Prop :=
  ∀ n, planned.2 = some n →
    ((dir.indexes[n]?).bind fun record => planOf record.type) = some planned.1

theorem planOf_type {type : UInt8} {plan : AccessPlan} (implied : planOf type = some plan) :
    (plan = .primaryKey → type = code 'P') ∧ (plan = .uniqueIndexAccess → type = code 'U') ∧
      (plan = .orderedIndexScan → type = code 'O') := by
  unfold planOf at implied
  split_ifs at implied with primary unique ordered
  · cases implied
    exact ⟨fun _ => primary,nofun,nofun⟩
  · cases implied
    exact ⟨nofun,fun _ => unique,nofun⟩
  · cases implied
    exact ⟨nofun,nofun,fun _ => ordered⟩

theorem Implied.suited {dir : Dir} {planned : AccessPlan × Option Nat} (implied : Implied dir planned) :
    Suited dir planned := by
  have record (n : Nat) (active : planned.2 = some n) :
      ∃ record, dir.indexes[n]? = some record ∧ planOf record.type = some planned.1 :=
    Option.bind_eq_some_iff.mp (implied n active)
  constructor
  · intro n active plan
    obtain ⟨index,there,type⟩ := record n active
    exact ⟨index,there,(planOf_type type).1 plan⟩
  · intro n active plan
    obtain ⟨index,there,type⟩ := record n active
    exact ⟨index,there,(planOf_type type).2.1 plan⟩
  · intro n active plan
    obtain ⟨index,there,type⟩ := record n active
    exact ⟨index,there,(planOf_type type).2.2 plan⟩

variable {dir}

/-- A default key has a constant, and the plan of an ordered index. -/
theorem defaultKey_implied (whole : Whole dir) (q : Items) (unset : q.activeIndex = none) :
    Implied dir (defaultKey dir (scanPlan dir q)).planned := by
  have start : (defaultKey dir (scanPlan dir q)).activeIndex = dir.defaultKey :=
    defaultKey_activeIndex dir q unset
  intro n active
  replace active : dir.defaultKey = some n := start.symm.trans active
  obtain ⟨record,there,bound⟩ := (whole 0).default n active
  obtain ⟨constant,rest,constants⟩ := List.exists_cons_of_ne_nil bound
  obtain ⟨ordered,plan⟩ := (whole 0).constants record (List.mem_of_getElem? there) constant (by
    rw [constants]
    exact List.mem_cons_self)
  have planned : (defaultKey dir (scanPlan dir q)).plan = .orderedIndexScan := by
    unfold defaultKey
    rw [active]
    dsimp only
    rw [there,Option.bind_some,constants]
    exact plan
  rw [there,Option.bind_some]
  unfold Items.planned planOf
  rw [planned,ordered]
  rfl

theorem raised_implied (whole : Whole dir) {keys : List (Nat × Text)}
    {before after : AccessPlan × Option Nat} (raised : Raised (columnsOf dir keys) before after)
    (implied : Implied dir before) : Implied dir after := by
  by_cases higher : before.1.value < after.1.value
  · obtain ⟨keycol,found,index⟩ := raised.first higher
    have plan : keycol.impliedPlan = after.1 := by
      have chosen := List.find?_some found
      exact of_decide_eq_true chosen
    obtain ⟨key,_,column⟩ := List.mem_filterMap.mp (List.mem_of_find?_eq_some found)
    have planned := (whole 0).planned keycol (List.mem_of_getElem? column) (by
      rw [plan]
      intro none
      rw [none] at higher
      exact absurd higher (Nat.not_lt_zero _))
    intro n active
    rw [← index,active,Option.bind_some,plan] at planned
    exact planned
  · rw [raised.kept higher]
    exact implied

end

/-- What a method has set up, and what `Query` makes of it in view of the keys of a request. -/
structure Decides (r : RequestRec) (dir : Dir) (q : Items) : Prop where
  raised : Raised (columnsOf dir (givenKeys r dir)) (defaultKey dir (scanPlan dir q)).planned
    (findPlan r dir q).planned
  suited : Suited dir (findPlan r dir q).planned

theorem Begun.decides {formats : Text → Option Format.OutputFormat} {r : RequestRec} {dir : Dir}
    {tab : Ndb.Table} {q : Items} (reached : Reached formats dir) (begun : Begun r dir tab q) :
    Decides r dir q := by
  have raised := giveKeys_raised dir (givenKeys r dir) (defaultKey dir (scanPlan dir q))
  rw [← begun.given] at raised
  exact ⟨raised,Implied.suited
    (raised_implied reached.sound raised (defaultKey_implied reached.sound q begun.activeIndex))⟩

/-- After the arguments and the path info, the plan is the highest, the index that of the
first column that has raised it, and of the type for the plan. -/
theorem findPlan_decides {formats : Text → Option Format.OutputFormat} (srv : ServerConfig)
    (r : RequestRec) (dir : Dir) (source : QuerySource) (reached : Reached formats dir)
    (tab : Ndb.Table) (w next : World) (q : Items)
    (ran : setUpMethod srv r dir source (.init tab) w = (.ok q,next)) : Decides r dir q :=
  (setUpMethod_begun srv r dir source tab ran).2.decides reached

def shopDirectives (scan : Option Text) : List Config.Directive :=
  [.database (text "shop"),.table (text "items") scan none,.allowUpdate [text "id"],
    .primaryKey [text "id"]]

def shopDir (tableScan : Bool) : Dir :=
  {itemsDir with visible := [], aliases := [], updatable := [text "id"], tableScan := tableScan}

theorem shopDir_reached : Reached (fun _ => none) (shopDir false) :=
  .configured (shopDirectives none) _ rfl

/-- A read by key. -/
theorem findPlan_decides_id :
    Decides (asking false (text "id=7")) (shopDir false) {Items.init items with data := .slot 0} :=
  findPlan_decides ⟨1,0,false⟩ _ _ (httpSource (asking false (text "id=7"))) shopDir_reached items
    World.init _ _ rfl

/-- The query inserts: there is an index object for the primary key, and the set-up of an
insert. -/
def Inserts (srv : ServerConfig) (setting : Setting) (r : RequestRec) (dir : Dir)
    (source : QuerySource) (w : World) : Prop :=
  ∃ q next, planQuery srv setting r dir source w = (.ok q,next) ∧ q.plan = .primaryKey ∧
    chooseIndex setting dir q = pure {q with idxobj := some ⟨.pk,0,0,0⟩} ∧ q.opSetup = .insert

section
variable {r : RequestRec} {dir : Dir}

theorem chooseIndex_primaryKey (setting : Setting) (dir : Dir) {q : Items} (plan : q.plan = .primaryKey) :
    chooseIndex setting dir q = pure {q with idxobj := some ⟨.pk,0,0,0⟩} := by
  unfold chooseIndex
  rw [plan,if_neg (by decide),if_pos rfl]

/-- Neither arguments nor a path: what is there by default decides. -/
theorem findPlan_bare (none : r.args.getD [] = []) (path : dir.pathinfo = []) (q : Items) :
    findPlan r dir q = defaultKey dir (scanPlan dir q) := by
  unfold findPlan usePathInfo useArgs
  rw [if_neg fun looks => looks.1 path]
  cases args : r.args with
  | none => rfl
  | some given =>
    rw [args] at none
    obtain rfl : given = [] := none
    rfl

theorem setUpPost_opSetup (form : FormTable) (q : Items) (path : dir.pathinfo = []) :
    (setUpPost r dir form q).opSetup = if r.args = none then .insert else .write := by
  unfold setUpPost
  simp only [path,and_true]
  split <;> rfl

theorem default_primaryKey_iff (whole : Whole dir) (q : Items) (unset : q.activeIndex = none)
    (plan : q.plan = .primaryKey) : (defaultKey dir (scanPlan dir q)).plan = .primaryKey ↔
      dir.tableScan = false ∧ dir.defaultKey = none := by
  cases key : dir.defaultKey with
  | some n =>
    have implied := defaultKey_implied whole q unset n
      ((defaultKey_activeIndex dir q unset).trans key)
    obtain ⟨record,there,bound⟩ := (whole 0).default n key
    obtain ⟨constant,rest,constants⟩ := List.exists_cons_of_ne_nil bound
    obtain ⟨ordered,_⟩ := (whole 0).constants record (List.mem_of_getElem? there) constant (by
      rw [constants]
      exact List.mem_cons_self)
    rw [there,Option.bind_some,ordered] at implied
    have scans : .orderedIndexScan = (defaultKey dir (scanPlan dir q)).plan := Option.some.inj implied
    rw [← scans]
    simp
  | none =>
    unfold defaultKey scanPlan
    rw [key]
    cases dir.tableScan with
    | true => simp
    | false => simpa using plan

theorem posted_insert (form : FormTable) (tab : Ndb.Table) (args : r.args = none)
    (path : dir.pathinfo = []) : (setUpPost r dir form (.init tab)).plan = .primaryKey ∧
      (setUpPost r dir form (.init tab)).activeIndex = none := by
  unfold setUpPost
  rw [if_pos ⟨args,path⟩]
  exact ⟨rfl,rfl⟩

theorem findPlan_opSetup (form : FormTable) (tab : Ndb.Table) (path : dir.pathinfo = []) :
    (findPlan r dir (setUpPost r dir form (.init tab))).opSetup =
      if r.args = none then .insert else .write :=
  (congrArg (fun setup => setup.2.2.2.1) (findPlan_setup dir _ r)).trans (setUpPost_opSetup form _ path)

/-- A POST that is planned, or refused because there is no plan. -/
theorem planQuery_post (srv : ServerConfig) (setting : Setting) {source : QuerySource} (tab : Ndb.Table)
    (found : setting.ndb.table = some tab) (method : source.reqMethod = .post) {form : FormTable}
    {passed : Option (Option Text × Nat)} (read : source.formData = .ok ⟨0,form,passed⟩) :
    planQuery srv setting r dir source =
      checkPlan r dir (findPlan r dir (setUpPost r dir form (.init tab))) := by
  rw [planQuery_found srv setting r dir source tab found,setUpMethod_post method read]
  rfl

end

/-- A POST without arguments to a place without a path inserts exactly if there is a table,
the form data is read, there is no question mark, nothing to scan and no default key, and
the server does not call it a GET. -/
theorem inserts_iff {formats : Text → Option Format.OutputFormat} (srv : ServerConfig)
    (setting : Setting) (r : RequestRec) (dir : Dir) (w : World) (reached : Reached formats dir)
    (method : (sourceOf r).reqMethod = .post) (bare : r.args.getD [] = []) (path : dir.pathinfo = []) :
    Inserts srv setting r dir (sourceOf r) w ↔
      setting.ndb.table ≠ none ∧ (∃ form passed, (sourceOf r).formData = .ok ⟨0,form,passed⟩) ∧
        r.args = none ∧ dir.tableScan = false ∧ dir.defaultKey = none ∧ r.methodNumber ≠ .get := by
  constructor
  · rintro ⟨q,next,ran,plan,_,setup⟩
    obtain ⟨tab,planning⟩ := planQuery_planning srv setting r dir (sourceOf r) ran
    obtain ⟨form,passed,read⟩ : ∃ form passed, (sourceOf r).formData = .ok ⟨0,form,passed⟩ := by
      rcases planning.admitted with get | ⟨_,read⟩ | ⟨delete,_⟩
      · cases get.symm.trans method
      · exact read
      · cases delete.symm.trans method
    rw [planQuery_post srv setting tab planning.found method read] at ran
    have same : findPlan r dir (setUpPost r dir form (.init tab)) = q := by
      unfold checkPlan at ran
      split at ran
      · cases (Prod.mk.inj ran).1
      · exact Except.ok.inj (Prod.mk.inj ran).1
    rw [← same,findPlan_opSetup form tab path] at setup
    have args : r.args = none := by
      by_contra given
      rw [if_neg given] at setup
      cases setup
    obtain ⟨primary,unset⟩ := posted_insert form tab args path
    rw [← same,findPlan_bare bare path] at plan
    obtain ⟨scan,key⟩ := (default_primaryKey_iff reached.sound _ unset primary).mp plan
    refine ⟨by rw [planning.found]; exact Option.some_ne_none tab,⟨form,passed,read⟩,args,scan,key,?_⟩
    intro get
    rw [checkPlan_get _ get,findPlan_bare bare path,defaultKey_activeIndex dir _ unset,key,scan] at ran
    cases (Prod.mk.inj ran).1
  · rintro ⟨found,⟨form,passed,read⟩,args,scan,key,other⟩
    obtain ⟨tab,found⟩ := Option.ne_none_iff_exists'.mp found
    obtain ⟨primary,unset⟩ := posted_insert form tab args path
    have plan : (findPlan r dir (setUpPost r dir form (.init tab))).plan = .primaryKey := by
      rw [findPlan_bare bare path]
      exact (default_primaryKey_iff reached.sound _ unset primary).mpr ⟨scan,key⟩
    refine ⟨findPlan r dir (setUpPost r dir form (.init tab)),w,?_,plan,
      chooseIndex_primaryKey setting dir plan,?_⟩
    · rw [planQuery_post srv setting tab found method read,checkPlan_other _ other]
      rfl
    · rw [findPlan_opSetup form tab path,if_pos args]

/-- An insert. -/
theorem inserts_shop :
    Inserts ⟨1,0,false⟩ (serving items) (posting false none) (shopDir false)
      (sourceOf (posting false none)) World.init :=
  (inserts_iff ⟨1,0,false⟩ (serving items) (posting false none) (shopDir false) World.init shopDir_reached
    rfl rfl rfl).mpr ⟨Option.some_ne_none _,⟨_,_,rfl⟩,rfl,rfl,rfl,by decide⟩

/-- A table that may be scanned cannot be inserted into. -/
theorem scanned_not_inserted :
    Reached (fun _ => none) (shopDir true) ∧
      ¬Inserts ⟨1,0,false⟩ (serving items) (posting false none) (shopDir true)
        (sourceOf (posting false none)) World.init := by
  refine ⟨.configured (shopDirectives (some (text "scan"))) _ rfl,?_⟩
  rintro ⟨q,next,ran,plan,_⟩
  cases ran
  cases plan

end ModNdb.Query
