import ModNdb.Query.Decided
import ModNdb.Query.Filters
import ModNdb.Query.Parts
import ModNdb.Query.TwiceRun

/-! The order of the arguments of a request, which makes no difference where they name columns
of one index. -/
namespace ModNdb.Query
open Config (AccessPlan Dir KeyCol)
open MySQL (Mvalue)
open Prog (Agrees)

section
variable {keys keys' : List (Nat × Text)}

theorem lastGiven_append (keys more : List (Nat × Text)) (n : Nat) :
    lastGiven (keys ++ more) n = (lastGiven more n).or (lastGiven keys n) := by
  unfold lastGiven
  rw [List.reverse_append,List.find?_append]
  cases more.reverse.find? fun key => key.1 == n <;> rfl

theorem lastGiven_mem (once : (keys.map Prod.fst).Nodup) (n : Nat) (value : Text) :
    lastGiven keys n = some value ↔ (n,value) ∈ keys := by
  unfold lastGiven
  constructor
  · intro given
    obtain ⟨key,found,rfl⟩ := Option.map_eq_some_iff.mp given
    have named : key.1 = n := by
      have test := List.find?_some found
      exact beq_iff_eq.mp test
    subst named
    exact List.mem_reverse.mp (List.mem_of_find?_eq_some found)
  · intro inside
    cases found : keys.reverse.find? fun key => key.1 == n with
    | none =>
      have other := List.find?_eq_none.mp found (n,value) (List.mem_reverse.mpr inside)
      simp at other
    | some key =>
      have named : key.1 = n := by
        have test := List.find?_some found
        exact beq_iff_eq.mp test
      have there := List.mem_reverse.mp (List.mem_of_find?_eq_some found)
      have same : key = (n,value) := List.inj_on_of_nodup_map once there inside named
      rw [same]
      rfl

theorem lastGiven_perm (perm : keys'.Perm keys) (once : (keys.map Prod.fst).Nodup) (n : Nat) :
    lastGiven keys' n = lastGiven keys n := by
  have once' : (keys'.map Prod.fst).Nodup := (perm.map Prod.fst).nodup_iff.mpr once
  apply Option.ext
  intro value
  rw [lastGiven_mem once',lastGiven_mem once,perm.mem_iff]

variable (dir : Dir)

theorem columnsOf_perm (perm : keys'.Perm keys) :
    (columnsOf dir keys').Perm (columnsOf dir keys) := perm.filterMap _

theorem raised_unique {cols cols' : List KeyCol} {before after after' : AccessPlan × Option Nat}
    (raised : Raised cols before after) (raised' : Raised cols' before after')
    (same : ∀ keycol, keycol ∈ cols' ↔ keycol ∈ cols) : after'.1 = after.1 := by
  have among (plan : AccessPlan) : plan ∈ before.1 :: cols'.map KeyCol.impliedPlan ↔
      plan ∈ before.1 :: cols.map KeyCol.impliedPlan := by
    rw [List.mem_cons,List.mem_cons,List.mem_map,List.mem_map]
    simp only [same]
  apply AccessPlan.value_inj
  apply Nat.le_antisymm
  · exact raised.highest after'.1 ((among _).mp raised'.among)
  · exact raised'.highest after.1 ((among _).mpr raised.among)

def OneIndex (cols : List KeyCol) : Prop :=
  ∃ i, ∀ keycol ∈ cols, keycol.impliedPlan ≠ .noPlan → keycol.indexId = some i

/-- The first of the columns with a plan is of the same index in any order. -/
theorem first_index {cols cols' path : List KeyCol} (perm : cols'.Perm cols) (one : OneIndex cols)
    {plan : AccessPlan} (planned : plan ≠ .noPlan) {first first' : KeyCol}
    (found : (cols ++ path).find? (fun col => col.impliedPlan = plan) = some first)
    (found' : (cols' ++ path).find? (fun col => col.impliedPlan = plan) = some first') :
    first'.indexId = first.indexId := by
  obtain ⟨i,index⟩ := one
  have of_cols (l : List KeyCol) (among : ∀ col ∈ l, col ∈ cols) (col : KeyCol)
      (there : l.find? (fun col => col.impliedPlan = plan) = some col) : col.indexId = some i := by
    have implied := List.find?_some there
    replace implied : col.impliedPlan = plan := of_decide_eq_true implied
    exact index col (among col (List.mem_of_find?_eq_some there)) (implied ▸ planned)
  rw [List.find?_append] at found found'
  cases args : cols.find? fun col => col.impliedPlan = plan with
  | some col =>
    rw [args] at found
    cases found
    cases args' : cols'.find? fun col => col.impliedPlan = plan with
    | some col' =>
      rw [args'] at found'
      cases found'
      rw [of_cols cols (fun _ => id) first args,of_cols cols' (fun _ => perm.mem_iff.mp) first' args']
    | none =>
      have implied := List.find?_some args
      have missing := List.find?_eq_none.mp args' first
        (perm.mem_iff.mpr (List.mem_of_find?_eq_some args))
      exact absurd implied missing
  | none =>
    have missing : cols'.find? (fun col => col.impliedPlan = plan) = none :=
      List.find?_eq_none.mpr fun col inside => List.find?_eq_none.mp args col (perm.mem_iff.mp inside)
    rw [args] at found
    rw [missing] at found'
    rw [Option.none_or] at found found'
    cases found.symm.trans found'
    rfl

theorem giveKeys_planned_perm (perm : keys'.Perm keys) (path : List (Nat × Text))
    (one : OneIndex (columnsOf dir keys)) (q : Items) :
    (giveKeys dir (keys' ++ path) q).planned = (giveKeys dir (keys ++ path) q).planned := by
  have raised := giveKeys_raised dir (keys ++ path) q
  have raised' := giveKeys_raised dir (keys' ++ path) q
  have plan := raised_unique raised raised' fun keycol =>
    (columnsOf_perm dir (perm.append_right path)).mem_iff
  by_cases higher : q.planned.1.value < (giveKeys dir (keys ++ path) q).planned.1.value
  · obtain ⟨first,found,active⟩ := raised.first higher
    obtain ⟨first',found',active'⟩ := raised'.first (by rw [plan]; exact higher)
    unfold columnsOf at found found'
    rw [plan,List.filterMap_append] at found'
    rw [List.filterMap_append] at found
    refine Prod.ext plan ?_
    rw [active,active']
    refine first_index (columnsOf_perm dir perm) one ?_ found found'
    intro none
    rw [none] at higher
    exact absurd higher (Nat.not_lt_zero _)
  · rw [raised.kept higher,raised'.kept (by rw [plan]; exact higher)]

theorem Items.besides_of (q q' : Items) (setup : q'.setup = q.setup) (planned : q'.planned = q.planned)
    (keys : q'.keys = q.keys) (used : q'.keyColumnsUsed = q.keyColumnsUsed) :
    q' = q.besides q'.filterList q'.form := by
  cases q
  cases q'
  simp only [Items.setup,Items.planned,Prod.mk.injEq] at setup planned keys used
  obtain ⟨rfl,rfl,rfl,rfl,rfl,rfl,rfl,rfl⟩ := setup
  obtain ⟨rfl,rfl⟩ := planned
  subst keys used
  rfl

/-- Keys in another order come to the same items, with the filters in another order. -/
theorem giveKeys_perm (perm : keys'.Perm keys) (once : (keys.map Prod.fst).Nodup)
    (path : List (Nat × Text)) (one : OneIndex (columnsOf dir keys)) (q : Items)
    (short : toShort q.keyColumnsUsed = q.keyColumnsUsed) :
    giveKeys dir (keys' ++ path) q = (giveKeys dir (keys ++ path) q).besides
      (giveKeys dir (keys' ++ path) q).filterList (giveKeys dir (keys' ++ path) q).form := by
  apply Items.besides_of
  · rw [giveKeys_setup,giveKeys_setup]
  · exact giveKeys_planned_perm dir perm path one q
  · funext n
    rw [giveKeys_keys,giveKeys_keys,lastGiven_append,lastGiven_append,lastGiven_perm perm once]
  · rw [giveKeys_used _ _ _ short,giveKeys_used _ _ _ short,
      (columnsOf_perm dir (perm.append_right path)).length_eq]

end

def Filters : Ndb.Call → Bool
  | .filterNotNull _ | .filterLike _ _ _ | .filterCmp _ _ _ _ => true
  | _ => false

theorem Seen.symm {hides : Ndb.Call → Bool} {w w' : World} (seen : Seen hides w w') : Seen hides w' w :=
  ⟨seen.inst.symm,seen.transactions.symm,seen.request.symm,seen.queued.symm,seen.calls.symm,
    seen.trace.symm⟩

theorem Seen.trans {hides : Ndb.Call → Bool} {u v w : World} (first : Seen hides u v)
    (second : Seen hides v w) : Seen hides u w :=
  ⟨second.inst.trans first.inst,second.transactions.trans first.transactions,
    second.request.trans first.request,second.queued.trans first.queued,
    second.calls.trans first.calls,second.trace.trans first.trace⟩

def filterColumn (dir : Dir) (tab : Ndb.Table) (n : Nat) : Option MySQL.DictColumn :=
  (dir.keyColumns[n]?).bind fun keycol => keycol.baseColName.bind tab.column

section
variable (setting : Setting) (dir : Dir) (q : Items)

theorem filterCmp_hidden (n : Nat) (c : Ndb.Call) (filters : Filters c = true) (w : World) :
    ∃ next, filterCmp setting q n c w = (.ok (),next) ∧ Seen Filters w next := by
  refine ⟨_,rfl,rfl,rfl,rfl,rfl,?_,?_⟩
  · rw [List.filter_append,List.filter_cons_of_neg (by simp [filters]),List.filter_nil,List.append_nil]
  · rw [List.filter_append,List.filter_cons_of_neg (by simp [Event.hidden,filters]),List.filter_nil,
      List.append_nil]

theorem filterNotNull_hidden (keycol : KeyCol) (col : MySQL.DictColumn) (w : World) :
    ∃ refused next, filterNotNull setting keycol col w = (.ok refused,next) ∧ Seen Filters w next := by
  unfold filterNotNull
  split
  · refine ⟨_,_,rfl,rfl,rfl,rfl,rfl,?_,rfl⟩
    rw [List.filter_append,List.filter_cons_of_neg (by simp [Filters]),List.filter_nil,List.append_nil]
  · exact ⟨_,_,rfl,.refl w⟩

theorem setFilter_hidden (n : Nat) (there : (dir.keyColumns[n]?).isSome) (mval : Mvalue) (w : World) :
    if (filterColumn dir q.tab n).isSome then
      ∃ mval' next, setFilter setting dir q mval n w = (.ok mval',next) ∧ Seen Filters w next
    else setFilter setting dir q mval n w = (.error (.crash .nullPointer),w) := by
  obtain ⟨keycol,column⟩ := Option.isSome_iff_exists.mp there
  unfold setFilter filterColumn
  rw [column,Option.bind_some]
  dsimp only
  cases keycol.baseColName.bind q.tab.column with
  | none =>
    rw [if_neg (by simp)]
    rfl
  | some col =>
    rw [if_pos (Option.isSome_some)]
    dsimp only
    split
    · obtain ⟨refused,next,ran,seen⟩ := filterNotNull_hidden setting keycol col w
      rw [Prog.bind_ok _ ran]
      obtain ⟨last,ran',seen'⟩ := filterCmp_hidden setting q n
        (.filterLike keycol.relOp col.no ((q.keys n).getD [])) rfl next
      rw [Prog.bind_ok _ ran']
      exact ⟨_,_,rfl,seen.trans seen'⟩
    · obtain ⟨next,ran,seen⟩ := filterCmp_hidden setting q n (.filterCmp keycol.relOp col.no _ _) rfl w
      rw [Prog.bind_ok _ ran]
      exact ⟨_,_,rfl,seen⟩

theorem setFilters_hidden (listed : List Nat) (there : ∀ n ∈ listed, (dir.keyColumns[n]?).isSome)
    (mval : Mvalue) (w : World) :
    Seen Filters w (setFilters setting dir q listed mval w).2 ∧
      if ∀ n ∈ listed, (filterColumn dir q.tab n).isSome then
        ∃ mval', (setFilters setting dir q listed mval w).1 = .ok mval'
      else (setFilters setting dir q listed mval w).1 = .error (.crash .nullPointer) := by
  induction listed generalizing mval w with
  | nil =>
    rw [if_pos fun _ none => absurd none List.not_mem_nil]
    exact ⟨.refl w,mval,rfl⟩
  | cons n rest ih =>
    obtain ⟨here,later⟩ := List.forall_mem_cons.mp there
    have first := setFilter_hidden setting dir q n here mval w
    unfold setFilters
    by_cases column : (filterColumn dir q.tab n).isSome
    · rw [if_pos column] at first
      obtain ⟨mval',next,ran,seen⟩ := first
      obtain ⟨seen',outcome⟩ := ih later mval' next
      rw [Prog.bind_ok _ ran]
      refine ⟨seen.trans seen',?_⟩
      simp only [List.forall_mem_cons,column,true_and]
      exact outcome
    · rw [if_neg column] at first
      rw [Prog.bind_error _ first,if_neg fun all => column (all n List.mem_cons_self)]
      exact ⟨.refl w,rfl⟩

/-- Filters in another order come to the same. -/
theorem filtering_perm {listed filters : List Nat} (perm : filters.Perm listed)
    (there : ∀ n ∈ listed, (dir.keyColumns[n]?).isSome) (form : FormTable) :
    Filtering setting dir Filters listed filters form := by
  intro q mval w w' seen
  obtain ⟨seen₁,outcome⟩ := setFilters_hidden setting dir q listed there mval w
  obtain ⟨seen₂,outcome'⟩ := setFilters_hidden setting dir (q.besides filters form) filters
    (fun n inside => there n (perm.mem_iff.mp inside)) mval w'
  refine ⟨?_,(seen₁.symm.trans seen).trans seen₂⟩
  have same : (∀ n ∈ filters, (filterColumn dir (q.besides filters form).tab n).isSome) ↔
      ∀ n ∈ listed, (filterColumn dir q.tab n).isSome :=
    ⟨fun all n inside => all n (perm.mem_iff.mpr inside),fun all n inside => all n (perm.mem_iff.mp inside)⟩
  by_cases all : ∀ n ∈ listed, (filterColumn dir q.tab n).isSome
  · rw [if_pos all] at outcome
    rw [if_pos (same.mpr all)] at outcome'
    obtain ⟨m,done⟩ := outcome
    obtain ⟨m',done'⟩ := outcome'
    rw [done,done']
    trivial
  · rw [if_neg all] at outcome
    rw [if_neg (all ∘ same.mp)] at outcome'
    rw [outcome,outcome']
    rfl

end

theorem getTable_agrees {hides : Ndb.Call → Bool} (setting : Setting) :
    Agrees (Seen hides) (getTable setting) (getTable setting) Eq := by
  unfold getTable
  cases setting.ndb.table with
  | some tab => exact Agrees.pure rfl
  | none => exact (setInst_agrees _).bind fun _ _ _ => refuse_agrees _ _ _

theorem setUpMethod_agrees {hides : Ndb.Call → Bool} (srv : ServerConfig) (r : RequestRec) (dir : Dir)
    (source : QuerySource) (q : Items) :
    Agrees (Seen hides) (setUpMethod srv r dir source q) (setUpMethod srv r dir source q) Eq := by
  unfold setUpMethod
  cases source.reqMethod with
  | get =>
    apply Agrees.get
    intro w w' seen
    rw [seen.inst]
    apply Agrees.ite
    · intro _
      have claimed : Agrees (Seen hides) (Prog.modify (World.claim dir q.tab) : Querying Unit)
          (Prog.modify (World.claim dir q.tab)) Eq := by
        refine Agrees.modify rfl fun u u' seen => ?_
        unfold World.claim
        rw [seen.inst,seen.queued,seen.request]
        exact ⟨rfl,seen.transactions,rfl,rfl,seen.calls,seen.trace⟩
      exact claimed.bind fun _ _ _ => Agrees.pure rfl
    · exact fun _ => refuse_agrees _ _ _
  | post =>
    have read : Agrees (Seen hides) (getForm source) (getForm source) Eq := by
      unfold getForm
      cases source.formData with
      | error why => exact Agrees.fail _
      | ok read => exact Agrees.ite (fun _ => Agrees.pure rfl) fun _ => refuse_agrees _ _ _
    apply read.bind
    rintro form _ rfl
    exact Agrees.pure rfl
  | delete => exact Agrees.ite (fun _ => Agrees.pure rfl) fun _ => refuse_agrees _ _ _
  | other => exact refuse_agrees _ _ _

section
variable {r : RequestRec} {dir : Dir} {args args' : Text} (given : r.args = some args)

def RequestRec.withArgs (r : RequestRec) (args : Text) : RequestRec := {r with args := some args}

include given

theorem argKeys_given : argKeys r dir = (pairs args).filterMap fun arg =>
    (keyColBinSearch arg.1 dir).map fun n => (n,arg.2) := by
  unfold argKeys
  rw [given]
  rfl

variable (dir) in
theorem argKeys_perm (perm : (pairs args').Perm (pairs args)) :
    (argKeys (r.withArgs args') dir).Perm (argKeys r dir) := by
  rw [argKeys_given given]
  exact perm.filterMap _

theorem argKeys_once (distinct : ((pairs args).map Prod.fst).Nodup) :
    ((argKeys r dir).map Prod.fst).Nodup := by
  rw [argKeys_given given]
  rw [List.Nodup,List.pairwise_map] at distinct ⊢
  rw [List.pairwise_filterMap]
  refine distinct.imp fun {a b} apart key found key' found' same => apart ?_
  obtain ⟨n,searched,rfl⟩ := Option.map_eq_some_iff.mp found
  obtain ⟨n',searched',rfl⟩ := Option.map_eq_some_iff.mp found'
  obtain rfl : n = n' := same
  obtain ⟨keycol,column,named⟩ := keyColBinSearch_found dir searched
  obtain ⟨keycol',column',named'⟩ := keyColBinSearch_found dir searched'
  cases column.symm.trans column'
  exact ((strcmp_eq_iff _ _).mp named).trans ((strcmp_eq_iff _ _).mp named').symm

variable (dir) in
theorem givenKeys_withArgs (perm : (pairs args').Perm (pairs args)) : ∃ path,
    givenKeys r dir = argKeys r dir ++ path ∧
      givenKeys (r.withArgs args') dir = argKeys (r.withArgs args') dir ++ path := by
  have columns := columnsOf_perm dir (argKeys_perm dir given perm)
  have looks : LooksAtPath (r.withArgs args') dir ↔ LooksAtPath r dir := by
    unfold LooksAtPath
    simp only [columns.mem_iff]
  refine ⟨_,rfl,?_⟩
  unfold givenKeys
  simp only [looks]
  rfl

/-- The items that keys in another order make of those set up. -/
theorem findPlan_withArgs (perm : (pairs args').Perm (pairs args))
    (distinct : ((pairs args).map Prod.fst).Nodup) (one : OneIndex (columnsOf dir (argKeys r dir)))
    {tab : Ndb.Table} {q : Items} (begun : Begun r dir tab q) :
    findPlan (r.withArgs args') dir q = (findPlan r dir q).besides
      (filtersOf dir (givenKeys (r.withArgs args') dir)) q.form ∧
    (findPlan r dir q).extras = (filtersOf dir (givenKeys r dir),q.form) := by
  have fresh : q.plan = .noPlan := by
    rcases begun.plan with fresh | ⟨none,_⟩
    · exact fresh
    · cases given.symm.trans none
  have start : (defaultKey dir (scanPlan dir q)).plan = startPlan dir :=
    congrArg Prod.fst (defaultKey_start dir q fresh begun.activeIndex)
  obtain ⟨_,used,list⟩ := defaultKey_keys dir q
  have short : toShort (defaultKey dir (scanPlan dir q)).keyColumnsUsed =
      (defaultKey dir (scanPlan dir q)).keyColumnsUsed := by
    rw [used,begun.keyColumnsUsed]
    rfl
  have filters (keys : List (Nat × Text)) :
      (giveKeys dir keys (defaultKey dir (scanPlan dir q))).filterList = filtersOf dir keys := by
    rw [giveKeys_filterList,list,begun.filterList,List.nil_append]
  have form (keys : List (Nat × Text)) :
      (giveKeys dir keys (defaultKey dir (scanPlan dir q))).form = q.form := by
    have setup := (giveKeys_setup dir keys (defaultKey dir (scanPlan dir q))).trans (defaultKey_setup dir q)
    exact congrArg (fun setup => setup.2.2.2.2.2.2.2) setup
  obtain ⟨path,keys,keys'⟩ := givenKeys_withArgs dir given perm
  rw [findPlan_eq r dir q (.inl start),findPlan_eq (r.withArgs args') dir q (.inl start),keys,keys']
  refine ⟨?_,Prod.ext (filters _) (form _)⟩
  have same := giveKeys_perm dir (argKeys_perm dir given perm) (argKeys_once given distinct) path
    one (defaultKey dir (scanPlan dir q)) short
  rwa [filters,form] at same

theorem setUpMethod_withArgs (srv : ServerConfig) (source : QuerySource) (q : Items) :
    setUpMethod srv (r.withArgs args') dir source q = setUpMethod srv r dir source q := by
  have posted (form : FormTable) : setUpPost (r.withArgs args') dir form q = setUpPost r dir form q := by
    unfold setUpPost
    rw [given]
    rfl
  unfold setUpMethod
  simp only [posted]

theorem planQuery_withArgs {hides : Ndb.Call → Bool} (srv : ServerConfig) (setting : Setting)
    (source : QuerySource) (perm : (pairs args').Perm (pairs args))
    (distinct : ((pairs args).map Prod.fst).Nodup) (one : OneIndex (columnsOf dir (argKeys r dir)))
    (filtering : ∀ form, Filtering setting dir hides (filtersOf dir (givenKeys r dir))
      (filtersOf dir (givenKeys (r.withArgs args') dir)) form) :
    Agrees (Seen hides) (planQuery srv setting r dir source)
      (planQuery srv setting (r.withArgs args') dir source)
      (PlannedTwice setting dir hides) := by
  unfold planQuery
  apply (getTable_agrees setting).bind
  rintro tab _ rfl
  rw [setUpMethod_withArgs given]
  apply (Agrees.known (setUpMethod_agrees srv r dir source (.init tab)) fun w q next ran =>
    (setUpMethod_begun srv r dir source tab ran).2).bind
  rintro q _ ⟨rfl,begun⟩
  obtain ⟨same,extras⟩ := findPlan_withArgs given perm distinct one begun
  rw [same]
  exact Agrees.ite (fun _ => Agrees.fail _) fun _ =>
    Agrees.pure ⟨_,_,_,⟨extras,rfl⟩,(fun _ _ => rfl),filtering _⟩

end

/-- Another order of the arguments: the query is planned alike, ends alike, and hands over the
same key parts with the same calls, along the chain of the active index. -/
structure OrderFree (srv : ServerConfig) (setting : Setting) (r r' : RequestRec) (dir : Dir) (w : World) :
    Prop where
  planned : (planQuery srv setting r' dir (sourceOf r') w).1.map Items.decided =
    (planQuery srv setting r dir (sourceOf r) w).1.map Items.decided
  outcome : (query srv setting r' dir (sourceOf r') w).1 = (query srv setting r dir (sourceOf r) w).1
  parts : (query srv setting r' dir (sourceOf r') w).2.trace.filter (fun e => e.part.isSome) =
    (query srv setting r dir (sourceOf r) w).2.trace.filter fun e => e.part.isSome
  chain : Hands dir (activeChain r dir) (supplied r dir) w (query srv setting r dir (sourceOf r) w).2

theorem Seen.parts {hides : Ndb.Call → Bool} {w w' : World} (seen : Seen hides w w') :
    w'.trace.filter (fun e => e.part.isSome) = w.trace.filter fun e => e.part.isSome := by
  have shown (trace : List Event) : (trace.filter fun e => !e.hidden hides).filter
      (fun e => e.part.isSome) = trace.filter fun e => e.part.isSome := by
    rw [List.filter_filter]
    apply List.filter_congr
    intro e _
    cases e <;> simp [Event.part,Event.hidden]
  rw [← shown,seen.trace,shown]

theorem orderFree_of {hides : Ndb.Call → Bool} (srv : ServerConfig) (setting : Setting) {r : RequestRec}
    {dir : Dir} {args args' : Text} (w : World) (given : r.args = some args)
    (perm : (pairs args').Perm (pairs args)) (distinct : ((pairs args).map Prod.fst).Nodup)
    (one : OneIndex (columnsOf dir (argKeys r dir))) (ignores : Ignores setting.ndb hides)
    (filtering : ∀ form, Filtering setting dir hides (filtersOf dir (givenKeys r dir))
      (filtersOf dir (givenKeys (r.withArgs args') dir)) form) :
    OrderFree srv setting r (r.withArgs args') dir w := by
  have same : sourceOf (r.withArgs args') = sourceOf r := rfl
  have planned := planQuery_withArgs given srv setting (sourceOf r) perm distinct one filtering
  obtain ⟨outcomes,states⟩ := query_agrees srv setting r (r.withArgs args') dir (sourceOf r)
    (sourceOf (r.withArgs args')) ignores planned rfl rfl rfl rfl w w (.refl w)
  refine ⟨?_,outcomes.eq.symm,states.parts,query_hands srv setting r dir w⟩
  have both := (planned w w (.refl w)).1
  rw [same]
  revert both
  cases (planQuery srv setting r dir (sourceOf r) w).1 <;>
    cases (planQuery srv setting (r.withArgs args') dir (sourceOf r) w).1 <;> intro both
  · exact congrArg Except.error both.symm
  · exact absurd both id
  · exact absurd both id
  · obtain ⟨extras,filters,form,⟨_,rfl⟩,_⟩ := both
    rfl

/-- Every call is compared. -/
theorem ignores_none (ndb : Ndb.Answers) : Ignores ndb fun _ => false := by
  intro calls calls' same
  simp only [Bool.not_false,List.filter_true] at same
  rw [same]

theorem filtersOf_append (dir : Dir) (keys more : List (Nat × Text)) :
    filtersOf dir (keys ++ more) = filtersOf dir keys ++ filtersOf dir more := by
  unfold filtersOf
  rw [List.map_append,List.filter_append]

theorem filtersOf_perm (dir : Dir) {keys keys' : List (Nat × Text)} (perm : keys'.Perm keys) :
    (filtersOf dir keys').Perm (filtersOf dir keys) := (perm.map Prod.fst).filter _

theorem filtersOf_there (dir : Dir) (keys : List (Nat × Text)) (n : Nat)
    (inside : n ∈ filtersOf dir keys) : (dir.keyColumns[n]?).isSome := by
  have test := (List.mem_filter.mp inside).2
  cases column : dir.keyColumns[n]? with
  | none =>
    rw [column] at test
    cases test
  | some keycol => rfl

theorem filtersOf_nil (dir : Dir) (keys : List (Nat × Text))
    (none : ¬∃ keycol ∈ columnsOf dir keys, keycol.isFilter = true) : filtersOf dir keys = [] := by
  apply List.filter_eq_nil_iff.mpr
  intro n inside
  obtain ⟨key,given,rfl⟩ := List.mem_map.mp inside
  cases column : dir.keyColumns[key.1]? with
  | none => simp
  | some keycol =>
    intro filter
    exact none ⟨keycol,List.mem_filterMap.mpr ⟨key,given,column⟩,filter⟩

/-- Arguments with different names, whose columns are of one index, may stand in any order.
Where some are filters, NDB may not mind the order of those. -/
theorem order_free (srv : ServerConfig) (setting : Setting) (r : RequestRec) (dir : Dir)
    (args args' : Text) (w : World) (given : r.args = some args)
    (perm : (pairs args').Perm (pairs args)) (distinct : ((pairs args).map Prod.fst).Nodup)
    (one : OneIndex (columnsOf dir (argKeys r dir)))
    (ignores : (∃ keycol ∈ columnsOf dir (argKeys r dir), keycol.isFilter = true) →
      Ignores setting.ndb Filters) :
    OrderFree srv setting r (r.withArgs args') dir w := by
  obtain ⟨path,keys,keys'⟩ := givenKeys_withArgs dir given perm
  have argsPerm := argKeys_perm dir given perm
  by_cases filters : ∃ keycol ∈ columnsOf dir (argKeys r dir), keycol.isFilter = true
  · refine orderFree_of srv setting w given perm distinct one (ignores filters) fun form =>
      filtering_perm setting dir ?_ (filtersOf_there dir _) form
    rw [keys,keys']
    exact filtersOf_perm dir (argsPerm.append_right path)
  · have shows := ignores_none setting.ndb
    refine orderFree_of srv setting w given perm distinct one shows fun form => ?_
    have none' : ¬∃ keycol ∈ columnsOf dir (argKeys (r.withArgs args') dir), keycol.isFilter = true := by
      rintro ⟨keycol,among,filter⟩
      exact filters ⟨keycol,(columnsOf_perm dir argsPerm).mem_iff.mp among,filter⟩
    rw [keys,keys',filtersOf_append,filtersOf_append,filtersOf_nil dir _ filters,filtersOf_nil dir _ none']
    exact fun q mval => (setFilters_agrees setting shows dir q _ form _ mval).mono fun _ _ _ => trivial

/-- The parts of a key in either order. -/
theorem order_free_pair :
    OrderFree ⟨1,0,false⟩ (serving pairTable) (asking false (text "a=1&b=x"))
      ((asking false (text "a=1&b=x")).withArgs (text "b=x&a=1")) pairDir World.init :=
  order_free ⟨1,0,false⟩ (serving pairTable) (asking false (text "a=1&b=x")) pairDir (text "a=1&b=x")
    (text "b=x&a=1") World.init rfl (by decide +kernel) (by decide +kernel)
    ⟨0,by decide +kernel⟩ (fun filters => absurd filters (by decide +kernel))

end ModNdb.Query
