import ModNdb.Query.Walk

/-! Key parts and the values that a request supplies: when a query hands over nothing that
it was not given. -/
namespace ModNdb.Query
open Config (AccessPlan Dir)
open MySQL (isCharCol isDateCol encodes)
open Prog (Moves)

/-- The walk for a plan and an index: the index record, and what the walk depends on. -/
def walkOf (tab : Ndb.Table) (index : Text → Option Ndb.Index) (dir : Dir)
    (planned : AccessPlan × Option Nat) (keys : Nat → Option Text) : Option (Config.Index × Walker) :=
  (planned.2.bind fun n => dir.indexes[n]?).bind fun record =>
    match planned.1 with
    | .primaryKey => some (record,⟨tab,none,.pk,keys⟩)
    | .uniqueIndexAccess => (index record.name).bind fun idx =>
      if idx.type = .uniqueHashIndex then some (record,⟨tab,some idx,.unique,keys⟩) else none
    | .orderedIndexScan => (index record.name).bind fun idx =>
      if idx.type = .orderedIndex then some (record,⟨tab,some idx,.ordered,keys⟩) else none
    | _ => none

def Admitted (dir : Dir) (source : QuerySource) : Prop :=
  source.reqMethod = .get ∨
  (source.reqMethod = .post ∧ ∃ form passed, source.formData = .ok ⟨0,form,passed⟩) ∨
  (source.reqMethod = .delete ∧ dir.allowDelete = true)

structure Begun (r : RequestRec) (dir : Dir) (tab : Ndb.Table) (q : Items) : Prop where
  tab : q.tab = tab
  idx : q.idx = none
  idxobj : q.idxobj = none
  keys : q.keys = fun _ => none
  keyColumnsUsed : q.keyColumnsUsed = 0
  activeIndex : q.activeIndex = none
  filterList : q.filterList = []
  plan : q.plan = .noPlan ∨ r.args = none ∧ dir.pathinfo = []

theorem Begun.given {r : RequestRec} {dir : Dir} {tab : Ndb.Table} {q : Items}
    (begun : Begun r dir tab q) :
    findPlan r dir q = giveKeys dir (givenKeys r dir) (defaultKey dir (scanPlan dir q)) := by
  apply findPlan_eq
  rcases begun.plan with fresh | ⟨_,path⟩
  · exact .inl (congrArg Prod.fst (defaultKey_start dir q fresh begun.activeIndex))
  · exact .inr path

section
variable (srv : ServerConfig) (setting : Setting) (r : RequestRec) (dir : Dir) (source : QuerySource)

theorem setUpPost_begun (tab : Ndb.Table) (form : FormTable) {q : Items}
    (begun : Begun r dir tab q) (fresh : q.plan = .noPlan) :
    Begun r dir tab (setUpPost r dir form q) := by
  obtain ⟨same,idx,idxobj,keys,used,active,filters,_⟩ := begun
  unfold setUpPost
  dsimp only
  split
  · rename_i bare
    exact ⟨same,idx,idxobj,keys,used,active,filters,.inr bare⟩
  · exact ⟨same,idx,idxobj,keys,used,active,filters,.inl fresh⟩

theorem refuse_no_result {α : Type} (status : Int) (error : Option Ndb.Error) (msg : Option Text)
    {w next : World} {a : α} : (refuse status error msg : Querying α) w ≠ (.ok a,next) := by
  intro ran
  obtain ⟨_,_,_,last⟩ := Prog.bind_inv ran
  cases (Prod.mk.inj last).1

theorem setUpRead_begun (tab : Ndb.Table) {q q' : Items} (begun : Begun r dir tab q)
    {w next : World} (ran : setUpRead srv dir q w = (.ok q',next)) : Begun r dir tab q' := by
  unfold setUpRead at ran
  rw [Prog.bind_ok _ (Prog.get_run w)] at ran
  by_cases room : w.inst.nReadOps < srv.maxReadOperations
  · rw [if_pos room] at ran
    cases ran
    exact ⟨begun.tab,begun.idx,begun.idxobj,begun.keys,begun.keyColumnsUsed,begun.activeIndex,
      begun.filterList,begun.plan⟩
  · rw [if_neg room] at ran
    exact absurd ran (refuse_no_result _ _ _)

theorem getForm_inv {w next : World} {form : FormTable} (ran : getForm source w = (.ok form,next)) :
    ∃ passed, source.formData = .ok ⟨0,form,passed⟩ := by
  unfold getForm at ran
  cases read : source.formData with
  | error why =>
    rw [read] at ran
    cases (Prod.mk.inj ran).1
  | ok got =>
    rw [read] at ran
    dsimp only at ran
    by_cases fine : got.status = 0
    · rw [if_pos fine] at ran
      cases ran
      obtain ⟨status,form,passed⟩ := got
      replace fine : status = 0 := fine
      exact ⟨passed,by rw [fine]⟩
    · rw [if_neg fine] at ran
      exact absurd ran (refuse_no_result _ _ _)

theorem setUpMethod_begun (tab : Ndb.Table) {w next : World} {q : Items}
    (ran : setUpMethod srv r dir source (.init tab) w = (.ok q,next)) :
    Admitted dir source ∧ Begun r dir tab q := by
  have begun : Begun r dir tab (.init tab) := ⟨rfl,rfl,rfl,rfl,rfl,rfl,rfl,.inl rfl⟩
  unfold setUpMethod at ran
  cases method : source.reqMethod with
  | get =>
    rw [method] at ran
    exact ⟨.inl method,setUpRead_begun srv r dir tab begun ran⟩
  | post =>
    rw [method] at ran
    obtain ⟨form,middle,got,last⟩ := Prog.bind_inv ran
    obtain ⟨passed,read⟩ := getForm_inv source got
    cases last
    exact ⟨.inr (.inl ⟨method,form,passed,read⟩),setUpPost_begun r dir tab form begun rfl⟩
  | delete =>
    rw [method] at ran
    dsimp only at ran
    by_cases allowed : dir.allowDelete = true
    · rw [if_pos allowed] at ran
      cases ran
      exact ⟨.inr (.inr ⟨method,allowed⟩),begun.tab,begun.idx,begun.idxobj,begun.keys,
        begun.keyColumnsUsed,begun.activeIndex,begun.filterList,begun.plan⟩
    · rw [if_neg allowed] at ran
      exact absurd ran (refuse_no_result _ _ _)
  | other =>
    rw [method] at ran
    exact absurd ran (refuse_no_result _ _ _)

structure Planning (tab : Ndb.Table) (q : Items) : Prop where
  found : setting.ndb.table = some tab
  admitted : Admitted dir source
  tab : q.tab = tab
  idx : q.idx = none
  idxobj : q.idxobj = none
  keys : q.keys = supplied r dir
  keyColumnsUsed : q.keyColumnsUsed = keysUsed r dir
  planned : q.planned = chosen r dir ∨ keysUsed r dir = 0

theorem planQuery_planning {w next : World} {q : Items}
    (ran : planQuery srv setting r dir source w = (.ok q,next)) :
    ∃ tab, Planning setting r dir source tab q := by
  cases found : setting.ndb.table with
  | none =>
    unfold planQuery getTable at ran
    rw [found] at ran
    obtain ⟨_,_,first,_⟩ := Prog.bind_inv ran
    obtain ⟨_,_,_,refused⟩ := Prog.bind_inv first
    exact absurd refused (refuse_no_result _ _ _)
  | some tab =>
    rw [planQuery_found srv setting r dir source tab found] at ran
    obtain ⟨q₀,_,made,checked⟩ := Prog.bind_inv ran
    obtain ⟨admitted,begun⟩ := setUpMethod_begun srv r dir source tab made
    have same : findPlan r dir q₀ = q := by
      unfold checkPlan at checked
      split at checked
      · cases (Prod.mk.inj checked).1
      · exact Except.ok.inj (Prod.mk.inj checked).1
    obtain rfl := same
    have setup := findPlan_setup dir q₀ r
    have keyed := findPlan_keys r dir q₀
      (begun.plan.imp (fun fresh => ⟨fresh,begun.activeIndex⟩) And.right) begun.keys begun.keyColumnsUsed
    refine ⟨tab,found,admitted,?_,?_,?_,keyed.1,keyed.2,?_⟩
    · exact (congrArg Prod.fst setup).trans begun.tab
    · exact (congrArg (fun setup => setup.2.1) setup).trans begun.idx
    · exact (congrArg (fun setup => setup.2.2.1) setup).trans begun.idxobj
    · rcases begun.plan with fresh | ⟨args,path⟩
      · exact .inl (findPlan_planned r dir q₀ fresh begun.activeIndex)
      · right
        unfold keysUsed
        rw [givenKeys_nil r dir args path]
        exact Int.zero_bmod

theorem ready_walk {q q' : Items} (bare : q.idxobj = none) (unset : q.idx = none)
    (ready : Ready setting dir q q') (plan : q'.plan ≠ .scan) {n : Nat} {record : Config.Index}
    (active : q'.activeIndex = some n) (entry : dir.indexes[n]? = some record) :
    ∃ k, walkOf q.tab setting.ndb.index dir q.planned q.keys = some (record,k) ∧ k.At 0 q' := by
  obtain ⟨q₁,obj,setVals,chose,made,rfl⟩ := ready
  unfold walkOf Items.planned
  cases chose with
  | indexScan name _ scans _ typed =>
    obtain ⟨_,_,_,rfl⟩ := typed
    exact absurd scans plan
  | tableScan scans => exact absurd scans plan
  | primaryKey planned =>
    cases made
    replace active : q.activeIndex = some n := active
    rw [active,Option.bind_some,entry,Option.bind_some,planned]
    exact ⟨_,rfl,rfl,rfl,unset,rfl⟩
  | unique m index _ planned active' entry' typed =>
    obtain ⟨idx,found,typed,rfl⟩ := typed
    cases made
    replace active : q.activeIndex = some n := active
    cases active'.symm.trans active
    cases entry'.symm.trans entry
    rw [active,Option.bind_some,entry,Option.bind_some,planned]
    dsimp only
    rw [found,Option.bind_some,if_pos typed]
    exact ⟨_,rfl,rfl,rfl,rfl,rfl⟩
  | ordered m index _ planned active' entry' typed =>
    obtain ⟨idx,found,typed,rfl⟩ := typed
    cases made
    replace active : q.activeIndex = some n := active
    cases active'.symm.trans active
    cases entry'.symm.trans entry
    rw [active,Option.bind_some,entry,Option.bind_some,planned]
    dsimp only
    rw [found,Option.bind_some,if_pos typed]
    exact ⟨_,rfl,rfl,rfl,rfl,rfl⟩
  | none idx =>
    rw [bare] at made
    cases made

theorem chainAt_zero (first : Option Nat) : chainAt dir 0 first = first := by
  cases first <;> rfl

theorem Ready.keyColumnsUsed {setting : Setting} {dir : Dir} {q q' : Items}
    (ready : Ready setting dir q q') : q'.keyColumnsUsed = q.keyColumnsUsed := by
  obtain ⟨q₁,obj,setVals,chose,_,rfl⟩ := ready
  cases chose with
  | indexScan _ _ _ _ typed | unique _ _ _ _ _ _ typed | ordered _ _ _ _ _ _ typed =>
    obtain ⟨_,_,_,rfl⟩ := typed
    rfl
  | tableScan | primaryKey | none => rfl

/-- A key part is that of a column that the request supplies, with the value supplied. -/
def Supplies (event : Event) : Prop :=
  ∀ n value call, event = .keyPart n value call →
    ∃ given, supplied r dir n = some given ∧ value = some given

instance : AllowsPages (Supplies r dir) := ⟨fun _ _ _ _ _ none => by cases none⟩

/-- Where the walk for a request comes to a column that the request has no value for, the
column of the dictionary is not one that takes a null. -/
def Covered (tab : Ndb.Table) (index : Text → Option Ndb.Index) : Prop :=
  Admitted dir (sourceOf r) → ∀ record k,
    walkOf tab index dir (chosen r dir) (supplied r dir) = some (record,k) →
      ∀ p c, k.Reaches dir record.firstCol (keysUsed r dir).toNat p c → supplied r dir c = none →
        ¬k.Fits dir p c

theorem walkOf_keys {tab : Ndb.Table} {index : Text → Option Ndb.Index} {planned : AccessPlan × Option Nat}
    {keys : Nat → Option Text} {record : Config.Index} {k : Walker}
    (walk : walkOf tab index dir planned keys = some (record,k)) : k.keys = keys := by
  unfold walkOf at walk
  obtain ⟨entry,_,made⟩ := Option.bind_eq_some_iff.mp walk
  revert made
  cases planned.1 with
  | primaryKey =>
    intro made
    cases made
    rfl
  | uniqueIndexAccess | orderedIndexScan =>
    intro made
    obtain ⟨idx,_,typed⟩ := Option.bind_eq_some_iff.mp made
    split_ifs at typed
    cases typed
    rfl
  | noPlan | useIndex | scan =>
    intro none
    cases none

theorem setIndexParts_supplies {tab : Ndb.Table} {q q' : Items}
    (planning : Planning setting r dir (sourceOf r) tab q) (ready : Ready setting dir q q')
    (covered : Covered r dir tab setting.ndb.index) :
    Moves (Local (Supplies r dir) q'.data) (setIndexParts setting dir setting.mval q')
      fun result => result.2.data = q'.data := by
  have used : q'.keyColumnsUsed = keysUsed r dir := ready.keyColumnsUsed.trans planning.keyColumnsUsed
  unfold setIndexParts
  by_cases scans : q'.plan = .scan
  · rw [if_pos scans]
    exact Moves.pure rfl
  rw [if_neg scans]
  cases active : q'.activeIndex with
  | none => exact Moves.pure rfl
  | some n =>
    dsimp only
    cases entry : dir.indexes[n]? with
    | none => exact Moves.fail _
    | some record =>
      obtain ⟨k,walk,start⟩ := ready_walk setting dir planning.idxobj planning.idx ready scans active entry
      have keyed : k.keys = supplied r dir := (walkOf_keys dir walk).trans planning.keys
      have walked : Moves (Local (Supplies r dir) q'.data)
          (setKeyParts setting dir q'.keyColumnsUsed.toNat record.firstCol setting.mval q')
          fun result => result.2.data = q'.data := by
        rw [used]
        rcases planning.planned with planned | idle
        · rw [planning.tab,planned,planning.keys] at walk
          rw [← chainAt_zero dir record.firstCol]
          apply setKeyParts_sound setting dir k record.firstCol (keysUsed r dir).toNat ?_ 0 _
            (Nat.zero_add _) (fun _ => .inl rfl) (fun _ none => absurd none (Nat.not_lt_zero _)) q' start
          intro p c reaches fits call n value call' same
          cases same
          cases here : supplied r dir c with
          | none => exact absurd fits (covered planning.admitted record k walk p c reaches here)
          | some given => exact ⟨given,rfl,by rw [keyed,here]⟩
        · rw [idle]
          exact Moves.pure rfl
      apply walked.bind
      rintro ⟨mval,q₁⟩ same
      replace same : q₁.data = q'.data := same
      rw [← same]
      exact setConstants_moves setting q₁ _ _ _

/-- Whatever is in the database and went before, the query of a request hands over no key
part but those that the request supplies. -/
def PartsSupplied (tab : Ndb.Table) (index : Text → Option Ndb.Index) : Prop :=
  ∀ srv setting w, setting.ndb.table = some tab → setting.ndb.index = index →
    Adds (Supplies r dir) w (query srv setting r dir (sourceOf r) w).2

theorem covered_supplied (tab : Ndb.Table) (index : Text → Option Ndb.Index)
    (covered : Covered r dir tab index) : PartsSupplied r dir tab index := by
  intro srv setting w found same
  apply query_adds srv setting r dir (sourceOf r)
  · intro e outcome n value call same
    rw [same] at outcome
    cases outcome
  · exact fun _ _ _ _ none => by cases none
  · exact fun _ _ _ _ _ _ none => by cases none
  · intro q next q' ran ready
    obtain ⟨tab',planning⟩ := planQuery_planning srv setting r dir (sourceOf r) ran
    cases planning.found.symm.trans found
    exact setIndexParts_supplies setting r dir planning ready (same ▸ covered)

/-- What is in a trace stays in it. -/
theorem Adds.kept {allowed : Event → Prop} {w w' : World} (adds : Adds allowed w w') {e : Event}
    (inside : e ∈ w.trace) : e ∈ w'.trace := by
  obtain ⟨more,split,_⟩ := adds
  rw [split]
  exact List.mem_append_left _ inside

theorem bind_kept {α β : Type} {x : Querying α} {f : α → Querying β} {w : World} {e : Event}
    (inside : e ∈ (x w).2.trace) (rest : ∀ a next, Adds (fun _ => True) next (f a next).2) :
    e ∈ ((x >>= f) w).2.trace := by
  rcases ran : x w with ⟨outcome,next⟩
  rw [ran] at inside
  cases outcome with
  | error why => rwa [Prog.bind_error _ ran]
  | ok a =>
    rw [Prog.bind_ok _ ran]
    exact (rest a next).kept inside

theorem call_quiet (quiet : ∀ calls, setting.ndb.refuses calls = false) (c : Ndb.Call) (w : World) :
    call setting c w = (.ok false,{w with calls := w.calls ++ [c]}) := by
  have accepted := quiet (w.calls ++ [c])
  rw [← accepted]
  rfl

section
variable {n : Nat} {record : Config.Index} {q : Items} (quiet : ∀ calls, setting.ndb.refuses calls = false)
  (active : q.activeIndex = some n) (entry : dir.indexes[n]? = some record)

include quiet active entry

theorem readSetup_quiet (w : World) : ∃ next, readSetup setting dir q w = (.ok false,next) := by
  unfold readSetup
  by_cases scans : q.plan = .scan
  · rw [if_pos scans]
    cases dir.indexScan.name with
    | none => exact ⟨_,call_quiet setting quiet _ w⟩
    | some name => exact ⟨_,call_quiet setting quiet _ w⟩
  rw [if_neg scans]
  by_cases ordered : q.plan = .orderedIndexScan
  · rw [if_pos ordered,active,Option.bind_some,entry]
    exact ⟨_,call_quiet setting quiet _ w⟩
  · rw [if_neg ordered]
    exact ⟨_,call_quiet setting quiet _ w⟩

theorem opSetup_quiet (w : World) :
    ∃ setVals next, opSetup setting dir q w = (.ok (false,q.withVals setVals),next) := by
  have written (isInsert : Bool) : ∃ setVals next,
      setUpWrite setting dir q isInsert w = (.ok (false,q.withVals setVals),next) := by
    unfold setUpWrite
    rw [Prog.bind_ok _ (call_quiet setting quiet _ w)]
    exact ⟨_,_,rfl⟩
  unfold opSetup
  cases q.opSetup with
  | read =>
    obtain ⟨next,ran⟩ := readSetup_quiet setting dir quiet active entry w
    dsimp only
    rw [Prog.bind_ok _ ran]
    exact ⟨q.setVals,_,rfl⟩
  | write => exact written false
  | insert => exact written true
  | delete =>
    dsimp only
    rw [Prog.bind_ok _ (call_quiet setting quiet _ w)]
    exact ⟨q.setVals,_,rfl⟩

end

theorem getNdbOperation_run {q : Items} {obj : IndexObject} (made : q.idxobj = some obj)
    (answers : setting.ndb.operation = true) {w : World} {t : Nat} (tx : w.inst.tx = some t) :
    ∃ next, getNdbOperation setting q w =
      (.ok {q with idxobj := some {obj with nParts := numberOfParts q obj.kind}},next) := by
  unfold getNdbOperation
  rw [Prog.bind_ok _ (Prog.get_run w),made,tx]
  dsimp only
  rw [if_pos answers,Prog.bind_ok _ (Prog.modify_run _ w)]
  have stores : Local (fun _ => True) q.data (w.addOperation t)
      (setData q (storeOperation obj.kind ⟨w.request⟩) (w.addOperation t)).2 ∧
      (setData q (storeOperation obj.kind ⟨w.request⟩) (w.addOperation t)).1 = .ok () :=
    setData_local q (storeOperation obj.kind ⟨w.request⟩) (w.addOperation t)
      fun data => by cases obj.kind <;> exact .inr rfl
  have stored := stores.2
  exact ⟨_,Prog.bind_ok _ (Prod.ext stored rfl)⟩

theorem indexOfType_run {name : Text} {idx : Ndb.Index} (named : setting.ndb.index name = some idx)
    (kind : IndexKind) (q : Items) : indexOfType setting name idx.type kind q =
      pure {q with idx := some idx, idxobj := some ⟨kind,0,0,0⟩} := by
  unfold indexOfType getIndex
  rw [named]
  funext w
  exact (Prog.bind_ok _ (Prog.pure_run idx w)).trans (by rw [if_neg (not_not.mpr rfl)])

/-- A plan that has a walk finds its index. -/
theorem chooseIndex_walk {q : Items} {record : Config.Index} {k : Walker}
    (walk : walkOf q.tab setting.ndb.index dir q.planned q.keys = some (record,k)) :
    ∃ q₁ obj n, chooseIndex setting dir q = pure q₁ ∧ q₁.idxobj = some obj ∧
      q₁.activeIndex = some n ∧ dir.indexes[n]? = some record ∧ q₁.plan ≠ .scan := by
  unfold walkOf Items.planned at walk
  obtain ⟨entry,listed,made⟩ := Option.bind_eq_some_iff.mp walk
  obtain ⟨n,active,found⟩ := Option.bind_eq_some_iff.mp listed
  replace active : q.activeIndex = some n := active
  revert made
  cases plan : q.plan with
  | primaryKey =>
    intro made
    cases made
    refine ⟨{q with idxobj := some ⟨.pk,0,0,0⟩},_,n,?_,rfl,active,found,?_⟩
    · unfold chooseIndex
      rw [plan]
      rfl
    · intro scans
      cases plan.symm.trans scans
  | uniqueIndexAccess =>
    intro made
    obtain ⟨idx,named,typed⟩ := Option.bind_eq_some_iff.mp made
    obtain ⟨type,same⟩ := Option.ite_none_right_eq_some.mp typed
    cases same
    refine ⟨{q with idx := some idx, idxobj := some ⟨.unique,0,0,0⟩},_,n,?_,rfl,active,found,?_⟩
    · have run := indexOfType_run setting named .unique q
      rw [type,plan,active] at run
      unfold chooseIndex
      rw [plan,active]
      dsimp only
      rw [found,if_neg (by decide),if_neg (by decide)]
      dsimp only
      rw [if_pos rfl]
      exact run
    · intro scans
      cases plan.symm.trans scans
  | orderedIndexScan =>
    intro made
    obtain ⟨idx,named,typed⟩ := Option.bind_eq_some_iff.mp made
    obtain ⟨type,same⟩ := Option.ite_none_right_eq_some.mp typed
    cases same
    refine ⟨{q with idx := some idx, idxobj := some ⟨.ordered,0,0,0⟩},_,n,?_,rfl,active,found,?_⟩
    · have run := indexOfType_run setting named .ordered q
      rw [type,plan,active] at run
      unfold chooseIndex
      rw [plan,active]
      dsimp only
      rw [found,if_neg (by decide),if_neg (by decide)]
      dsimp only
      rw [if_neg (by decide),if_pos rfl]
      exact run
    · intro scans
      cases plan.symm.trans scans
  | noPlan | useIndex | scan =>
    intro none
    cases none

theorem fillOperation_hands (quiet : ∀ calls, setting.ndb.refuses calls = false) {q : Items} {k : Walker}
    (start : k.At 0 q) (scans : q.plan ≠ .scan) {n : Nat} {record : Config.Index}
    (active : q.activeIndex = some n) (entry : dir.indexes[n]? = some record) {p c : Nat}
    (reaches : k.Reaches dir record.firstCol q.keyColumnsUsed.toNat p c) (fits : k.Fits dir p c)
    (w : World) : ∃ call, .keyPart c (k.keys c) call ∈
      (fillOperation setting dir source (false,q) w).2.trace := by
  obtain ⟨call,handed⟩ := setKeyParts_complete setting dir k record.firstCol quiet _ p c reaches fits
    0 _ (Nat.zero_add _) (Nat.zero_le _) q start setting.mval w
  rw [chainAt_zero] at handed
  refine ⟨call,?_⟩
  have parts : .keyPart c (k.keys c) call ∈ (setIndexParts setting dir setting.mval q w).2.trace := by
    unfold setIndexParts
    rw [if_neg scans,active]
    dsimp only
    rw [entry]
    apply bind_kept handed
    rintro ⟨mval,q'⟩ next
    exact (setConstants_moves setting q' q'.data record.constants mval next).1.trace
  apply bind_kept parts
  rintro ⟨mval,q'⟩ next
  exact (useOperation_moves setting dir q' source (fun _ _ _ => trivial) mval next).1.trace

def Setting.indexed (tab : Ndb.Table) (index : Text → Option Ndb.Index) : Setting :=
  {serving tab with ndb := {(serving tab).ndb with index := index}}

theorem setUpMethod_admitted (admitted : Admitted dir source) (tab : Ndb.Table) : ∃ q next,
    setUpMethod ⟨1,0,false⟩ r dir source (.init tab) World.init = (.ok q,next) ∧
      next.inst.tx = none ∧ next.inst.aborted = false := by
  unfold setUpMethod
  rcases admitted with method | ⟨method,form,passed,read⟩ | ⟨method,allowed⟩
  · rw [method]
    exact ⟨_,_,rfl,rfl,rfl⟩
  · rw [method]
    have got : getForm source World.init = (.ok form,World.init) := by
      unfold getForm
      rw [read]
      rfl
    exact ⟨_,_,Prog.bind_ok _ got,rfl,rfl⟩
  · rw [method]
    dsimp only
    rw [if_pos allowed]
    exact ⟨_,_,rfl,rfl,rfl⟩

theorem planQuery_admitted (admitted : Admitted dir source) (tab : Ndb.Table)
    (index : Text → Option Ndb.Index) {n : Nat} (active : (chosen r dir).2 = some n) : ∃ q next,
    planQuery ⟨1,0,false⟩ (.indexed tab index) r dir source World.init = (.ok q,next) ∧
      next.inst.tx = none ∧ next.inst.aborted = false := by
  obtain ⟨q,next,ran,tx,aborted⟩ := setUpMethod_admitted r dir source admitted tab
  obtain ⟨_,begun⟩ := setUpMethod_begun _ r dir source tab ran
  have planned : (findPlan r dir q).activeIndex = some n :=
    (findPlan_activeIndex r dir q begun.activeIndex begun.plan).trans active
  rw [planQuery_found _ (.indexed tab index) r dir source tab rfl,Prog.bind_ok _ ran]
  refine ⟨findPlan r dir q,next,?_,tx,aborted⟩
  unfold checkPlan
  rw [if_neg]
  · rfl
  · rintro ⟨_,none⟩
    exact none (.inr (by rw [planned]; exact Option.some_ne_none n))

/-- `Query` up to the index parts. -/
def prepare : Querying (Bool × Items) := do
  let q ← planQuery srv setting r dir source
  openTransaction setting
  let q ← chooseIndex setting dir q
  let q ← getNdbOperation setting q
  opSetup setting dir q

theorem queryBody_eq : queryBody srv setting r dir source =
    prepare srv setting r dir source >>= fillOperation setting dir source := by
  unfold queryBody prepare
  simp only [Prog.bind_assoc]
  rfl

structure Begins (record : Config.Index) (k : Walker) (used : Int) (q : Items) : Prop where
  start : k.At 0 q
  scans : q.plan ≠ .scan
  active : ∃ n, q.activeIndex = some n ∧ dir.indexes[n]? = some record
  used : q.keyColumnsUsed = used

/-- A walk that there is begins, where NDB has the table and its indexes and refuses nothing. -/
theorem prepare_begins (admitted : Admitted dir source) {tab : Ndb.Table}
    {index : Text → Option Ndb.Index} {record : Config.Index} {k : Walker}
    (walk : walkOf tab index dir (chosen r dir) (supplied r dir) = some (record,k))
    (counted : 0 < (keysUsed r dir).toNat) : ∃ q next,
      prepare ⟨1,0,false⟩ (.indexed tab index) r dir source World.init = (.ok (false,q),next) ∧
        Begins dir record k (keysUsed r dir) q := by
  have listed := walk
  unfold walkOf at listed
  obtain ⟨_,listed,_⟩ := Option.bind_eq_some_iff.mp listed
  obtain ⟨_,chosenIndex,_⟩ := Option.bind_eq_some_iff.mp listed
  obtain ⟨q,w,ran,tx,aborted⟩ := planQuery_admitted r dir source admitted tab index chosenIndex
  obtain ⟨tab',planning⟩ := planQuery_planning _ (.indexed tab index) r dir source ran
  cases planning.found
  have planned : q.planned = chosen r dir := by
    apply planning.planned.resolve_right
    intro idle
    rw [idle] at counted
    exact absurd counted (Nat.lt_irrefl 0)
  have walk' : walkOf q.tab index dir q.planned q.keys = some (record,k) := by
    rw [planning.tab,planned,planning.keys,walk]
  have opened : openTransaction (.indexed tab index) w = (.ok (),w.start) := by
    unfold openTransaction
    rw [Prog.bind_ok _ (Prog.get_run w),if_pos tx,aborted]
    rfl
  obtain ⟨q₁,obj,n,chosen,made,active,entry,scans⟩ := chooseIndex_walk (.indexed tab index) dir walk'
  have chose : Chose (.indexed tab index) dir q q₁ := by
    have moves : Moves (Local (fun _ => True) q.data) (chooseIndex (.indexed tab index) dir q)
        (Chose (.indexed tab index) dir q) := chooseIndex_moves (.indexed tab index) dir q q.data
    have moved := moves w
    rw [chosen] at moved
    exact moved.2 q₁ rfl
  obtain ⟨w₂,ran₂⟩ := getNdbOperation_run (.indexed tab index) made rfl (w := w.start) rfl
  obtain ⟨setVals,w₃,ran₃⟩ := opSetup_quiet (.indexed tab index) dir (fun _ => rfl)
    (q := {q₁ with idxobj := some {obj with nParts := numberOfParts q₁ obj.kind}}) active entry w₂
  have ready : Ready (.indexed tab index) dir q _ := ⟨q₁,obj,setVals,chose,made,rfl⟩
  obtain ⟨k',walk'',start⟩ :=
    ready_walk (.indexed tab index) dir planning.idxobj planning.idx ready scans active entry
  cases walk'.symm.trans walk''
  refine ⟨_,w₃,?_,start,scans,⟨n,active,entry⟩,ready.keyColumnsUsed.trans planning.keyColumnsUsed⟩
  unfold prepare
  rw [Prog.bind_ok _ ran,Prog.bind_ok _ opened,chosen,Prog.bind_ok _ (Prog.pure_run q₁ _),
    Prog.bind_ok _ ran₂,ran₃]

theorem supplied_covered (tab : Ndb.Table) (index : Text → Option Ndb.Index)
    (supplies : PartsSupplied r dir tab index) : Covered r dir tab index := by
  intro admitted record k walk p c reaches missing fits
  obtain ⟨q,w,ran,start,scans,⟨n,active,entry⟩,used⟩ :=
    prepare_begins r dir (sourceOf r) admitted walk (Nat.zero_lt_of_lt reaches.counted)
  rw [← used] at reaches
  obtain ⟨call,handed⟩ := fillOperation_hands (.indexed tab index) dir (sourceOf r) (fun _ => rfl)
    start scans active entry reaches fits w
  have body : Event.keyPart c (k.keys c) call ∈
      (queryBody ⟨1,0,false⟩ (.indexed tab index) r dir (sourceOf r) World.init).2.trace := by
    rw [queryBody_eq,Prog.bind_ok _ ran]
    exact handed
  have after : Adds (fun _ => True)
      (queryBody ⟨1,0,false⟩ (.indexed tab index) r dir (sourceOf r) World.init).2
      (query ⟨1,0,false⟩ (.indexed tab index) r dir (sourceOf r) World.init).2 :=
    query_after ⟨1,0,false⟩ (.indexed tab index) r dir (sourceOf r) (fun _ _ => trivial) World.init
  have kept := after.kept body
  obtain ⟨more,split,among⟩ := supplies ⟨1,0,false⟩ (.indexed tab index) World.init rfl rfl
  rw [split] at kept
  obtain ⟨given,there,_⟩ := among _ ((List.mem_append.mp kept).resolve_left List.not_mem_nil) c _ _ rfl
  rw [missing] at there
  cases there

/-- A query hands over parts that the request supplies, and no others, exactly if the walk
along the chain comes to no column without a value that would be handed over as a null. -/
theorem parts_supplied_iff (tab : Ndb.Table) (index : Text → Option Ndb.Index) :
    PartsSupplied r dir tab index ↔ Covered r dir tab index :=
  ⟨supplied_covered r dir tab index,covered_supplied r dir tab index⟩

end

def pairTable : Ndb.Table where
  columns := [⟨text "a",0,.int,0,0,0,false⟩,⟨text "b",1,.varchar,0,0,10,false⟩]
  primaryKeys := [text "a",text "b"]

def pairDir : Dir :=
  {itemsDir with
    visible := [text "a"]
    aliases := [text "a"]
    indexes := [⟨text "*Primary$Key*",2,some 0,some 0,code 'P',false,false,[]⟩]
    keyColumns := [⟨text "a",none,0,.primaryKey,some 0,0,0,some 1,some 1,true,false,false,false⟩,
      ⟨text "b",none,0,.primaryKey,some 0,1,1,none,none,true,false,false,false⟩]}

/-- The number is given twice, and the name is looked up as a null. -/
theorem key_part_of_nothing :
    Event.keyPart 1 none (.equal 1 (.inside (List.replicate 8 0))) ∈
      (query ⟨1,0,false⟩ (serving pairTable) (asking false (text "a=1&a=2")) pairDir
        (sourceOf (asking false (text "a=1&a=2"))) World.init).2.trace ∧
    supplied (asking false (text "a=1&a=2")) pairDir 1 = none ∧
    ¬PartsSupplied (asking false (text "a=1&a=2")) pairDir pairTable fun _ => none := by
  have handed : Event.keyPart 1 none (.equal 1 (.inside (List.replicate 8 0))) ∈
      (query ⟨1,0,false⟩ (serving pairTable) (asking false (text "a=1&a=2")) pairDir
        (sourceOf (asking false (text "a=1&a=2"))) World.init).2.trace := by decide +kernel
  refine ⟨handed,by decide +kernel,?_⟩
  intro supplies
  obtain ⟨more,split,among⟩ := supplies ⟨1,0,false⟩ (serving pairTable) World.init rfl rfl
  rw [split] at handed
  obtain ⟨given,_,same⟩ :=
    among _ ((List.mem_append.mp handed).resolve_left List.not_mem_nil) 1 _ _ rfl
  cases same

end ModNdb.Query
