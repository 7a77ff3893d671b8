import ModNdb.Query.Stages

/-! What `Query` calls is its script, as far as it comes. -/
namespace ModNdb.Query
open Config (Dir)
open MySQL (Mvalue)
open Prog (Moves Triple)

section
variable (setting : Setting) (dir : Dir) (before l : List Ndb.Call) (q : Items)

/-- What the conditions and the action of an operation depend on. -/
def Items.followed (q : Items) :
    Ndb.Table × (Nat → Option Text) × List Nat × Config.AccessPlan × OpAction × List Mvalue :=
  (q.tab,q.keys,q.filterList,q.plan,q.opAction,q.setVals)

theorem nextKeyPart_followed (q : Items) : (nextKeyPart q).2.followed = q.followed := by
  unfold nextKeyPart
  cases q.idxobj with
  | none => rfl
  | some obj =>
    dsimp only
    split <;> rfl

/-- Items that an operation is filled in with are those it was planned with. -/
structure Carries (q' : Items) : Prop where
  tab : q'.tab = q.tab
  keys : q'.keys = q.keys
  filterList : q'.filterList = q.filterList
  plan : q'.plan = q.plan
  opAction : q'.opAction = q.opAction
  setVals : q.opAction = .write → q'.setVals = updates setting dir q

variable {setting dir q} in
theorem Carries.next {q' q'' : Items} (carries : Carries setting dir q q')
    (same : q''.followed = q'.followed) : Carries setting dir q q'' := by
  unfold Items.followed at same
  simp only [Prod.mk.injEq] at same
  obtain ⟨tab,keys,filterList,plan,opAction,setVals⟩ := same
  exact ⟨tab.trans carries.tab,keys.trans carries.keys,filterList.trans carries.filterList,
    plan.trans carries.plan,opAction.trans carries.opAction,fun write => setVals.trans (carries.setVals write)⟩

variable {setting dir q} in
theorem Carries.condition {q' : Items} (carries : Carries setting dir q q') :
    Condition setting dir q' = Condition setting dir q := by
  unfold Condition
  rw [carries.tab,carries.keys]

variable {setting dir q} in
theorem act_triple {q' : Items} (carries : Carries setting dir q q') :
    Triple (Calls (Fine setting before l)) (act setting dir q')
      (fun _ w => ∃ actions, actions.map some = wanted setting dir q ∧
        Fine setting before (l ++ actions) w.calls)
      (Calls (Stopped setting before l fun more => more.map some <+: wanted setting dir q)) := by
  unfold act opAction wanted
  rw [carries.opAction]
  cases action : q.opAction with
  | read =>
    dsimp only
    rw [carries.tab]
    generalize (if dir.selectStar then q.tab.columns.map some else dir.visible.map q.tab.column) = cols
    have asks : Triple (Calls (Fine setting before l))
        (readColumns setting q' cols >>= fun _ => return (0 : Int))
        (fun rc w => rc = 0 ∧ ∃ asked, asked.map some = cols.map (Option.map resultCall) ∧
          Fine setting before (l ++ asked) w.calls)
        (Calls (Stopped setting before l fun more => more.map some <+: cols.map (Option.map resultCall))) := by
      apply Triple.bind ((readColumns_triple setting before l q' cols).mono (fun _ => id)
        (fun _ _ => id) ?_)
      · exact fun _ => Triple.pure _ fun w known => ⟨rfl,known⟩
      · rintro w ⟨asked,some_of,fine⟩
        exact ⟨asked,fine.1,some_of,by rw [fine.1]; exact fine.2.init⟩
    apply asks.bind
    intro rc
    refine Triple.fact fun zero => ?_
    exact Triple.ite (fun other => absurd zero other) fun _ => Triple.pure _ fun _ => id
  | write =>
    dsimp only
    rw [carries.setVals action]
    have issued {calls : List Ndb.Call} (stopped : Stopped setting before l
        (· <+: assignments setting (updates setting dir q)) calls) : Stopped setting before l
          (fun more => more.map some <+: (assignments setting (updates setting dir q)).map some) calls := by
      obtain ⟨more,split,some_of,heard⟩ := stopped
      exact ⟨more,split,some_of.map some,heard⟩
    apply Triple.bind ((writeColumns_triple setting before l (updates setting dir q) 1).mono
      (fun _ => id) (fun _ _ => id) fun _ => issued)
    intro rc
    apply Triple.ite
    · exact fun _ => Triple.fail _ fun w known => issued known.1
    · exact fun zero => Triple.pure _ fun w known => ⟨_,rfl,known.2 (not_not.mp zero)⟩
  | delete =>
    exact Triple.pure _ fun w fine => ⟨[],rfl,by rwa [List.append_nil]⟩

structure Follows (conditions : List (List Ndb.Call)) (actions : List Ndb.Call) : Prop where
  filtered : List.Forall₂ (Condition setting dir q) ((conditionsOf q).take conditions.length) conditions
  acts : actions.map some <+: wanted setting dir q
  conditionsFirst : actions ≠ [] → conditions.length = (conditionsOf q).length

variable {setting dir q} in
theorem useOperation_triple {q' : Items} (carries : Carries setting dir q q') (source : QuerySource)
    (mval : Mvalue) :
    Triple (Calls (Fine setting before l)) (useOperation setting dir source mval q')
      (fun _ w => ∃ conditions actions, Follows setting dir q conditions actions ∧
        conditions.length = (conditionsOf q).length ∧ actions.map some = wanted setting dir q ∧
          Fine setting before (l ++ (conditions.flatten ++ actions)) w.calls)
      (Calls (Stopped setting before l fun more => ∃ conditions actions,
        Follows setting dir q conditions actions ∧ more = conditions.flatten ++ actions)) := by
  have filtered : Triple (Calls (Fine setting before l))
      (if 4 ≤ q'.plan.value then setFilters setting dir q' q'.filterList mval else return mval)
      (fun _ w => ∃ blocks, List.Forall₂ (Condition setting dir q) (conditionsOf q) blocks ∧
        Fine setting before (l ++ blocks.flatten) w.calls)
      (Calls (Stopped setting before l fun more => ∃ conditions actions,
        Follows setting dir q conditions actions ∧ more = conditions.flatten ++ actions)) := by
    unfold conditionsOf
    rw [carries.plan,carries.filterList,← carries.condition]
    apply Triple.ite
    · intro scans
      rw [if_pos scans]
      refine (setFilters_triple setting dir before l q' q.filterList mval).mono (fun _ => id)
        (fun _ _ => id) ?_
      rintro w ⟨blocks,each,fine⟩
      refine ⟨blocks.flatten,fine.1,⟨blocks,[],⟨?_,List.nil_prefix,fun none => absurd rfl none⟩,
        (List.append_nil _).symm⟩,by rw [fine.1]; exact fine.2.init⟩
      unfold conditionsOf
      rwa [if_pos scans,← carries.condition]
    · intro other
      rw [if_neg other]
      exact Triple.pure _ fun w fine => ⟨[],.nil,by rwa [List.flatten_nil,List.append_nil]⟩
  apply filtered.bind
  intro _
  refine Triple.given fun blocks => Triple.fact fun each => ?_
  have whole : (conditionsOf q).take blocks.length = conditionsOf q := by
    rw [← each.length_eq,List.take_length]
  apply Triple.bind ((Silent.triple (setInst_issues _) (Fine setting before (l ++ blocks.flatten))).mono
    (fun _ => id) (fun _ _ => id) ?_)
  · intro _
    refine (act_triple before (l ++ blocks.flatten) carries).mono (fun _ => id) ?_ ?_
    · rintro _ w ⟨actions,all,fine⟩
      refine ⟨blocks,actions,⟨by rwa [whole],all ▸ List.prefix_rfl,fun _ => each.length_eq.symm⟩,
        each.length_eq.symm,all,?_⟩
      rwa [List.append_assoc] at fine
    · exact fun w stopped => stopped.behind fun actions some_of =>
        ⟨blocks,actions,⟨by rwa [whole],some_of,fun _ => each.length_eq.symm⟩,rfl⟩
  · intro w fine
    refine ⟨blocks.flatten,fine.1,⟨blocks,[],⟨by rwa [whole],List.nil_prefix,fun none => absurd rfl none⟩,
      (List.append_nil _).symm⟩,by rw [fine.1]; exact fine.2.init⟩

end

section
variable (setting : Setting) (dir : Dir) (before : List Ndb.Call)

/-- The calls are those of a script, as far as it came; the last of them may have been refused. -/
def Scripted (q : Items) (calls : List Ndb.Call) : Prop :=
  ∃ s : Script setting dir q, calls = before ++ s.calls ∧ Unrefused setting.ndb before calls.dropLast

def Performed (q : Items) (calls : List Ndb.Call) : Prop :=
  ∃ s : Script setting dir q, s.Whole ∧ Fine setting before (before ++ s.calls) calls

variable {setting dir}

section
variable {q : Items} {c : Ndb.Call}

def Script.parts (opens : Opening setting dir q c) {keys constants : List Ndb.Call}
    (parts : IndexParts setting dir q keys constants) : Script setting dir q where
  opening := c
  keys := keys
  constants := constants
  conditions := []
  actions := []
  opens := opens
  keyed := parts.keyed
  constant := parts.constant
  filtered := .nil
  acts := List.nil_prefix
  keysFirst some := parts.keysFirst fun none => some (by rw [none]; rfl)
  constantsFirst none := absurd rfl none
  conditionsFirst none := absurd rfl none

theorem Script.parts_calls (opens : Opening setting dir q c) {keys constants : List Ndb.Call}
    (parts : IndexParts setting dir q keys constants) :
    (Script.parts opens parts).calls = c::(keys ++ constants) := by
  unfold Script.calls Script.parts
  dsimp only
  rw [List.flatten_nil,List.append_nil,List.append_nil]

def Script.whole (opens : Opening setting dir q c) {keys constants : List Ndb.Call}
    (parts : IndexParts setting dir q keys constants) (walked : WalkDone setting dir q keys.length)
    (set : ConstantsDone setting dir q constants.length) {conditions : List (List Ndb.Call)}
    {actions : List Ndb.Call} (follows : Follows setting dir q conditions actions) :
    Script setting dir q where
  opening := c
  keys := keys
  constants := constants
  conditions := conditions
  actions := actions
  opens := opens
  keyed := parts.keyed
  constant := parts.constant
  filtered := follows.filtered
  acts := follows.acts
  keysFirst _ := walked
  constantsFirst _ := set
  conditionsFirst := follows.conditionsFirst

theorem Script.whole_calls (opens : Opening setting dir q c) {keys constants : List Ndb.Call}
    (parts : IndexParts setting dir q keys constants) (walked : WalkDone setting dir q keys.length)
    (set : ConstantsDone setting dir q constants.length) {conditions : List (List Ndb.Call)}
    {actions : List Ndb.Call} (follows : Follows setting dir q conditions actions) :
    (Script.whole opens parts walked set follows).calls =
      c::(keys ++ constants ++ (conditions.flatten ++ actions)) := by
  unfold Script.calls Script.whole
  dsimp only
  rw [List.append_assoc]

end

theorem setIndexParts_carries {q q₁ q' : Items} {mval mval' : Mvalue} {w next : World}
    (carries : Carries setting dir q q₁)
    (ran : setIndexParts setting dir mval q₁ w = (.ok (mval',q'),next)) : Carries setting dir q q' :=
  carries.next (setIndexParts_keeps setting dir Items.followed (fun _ => rfl) nextKeyPart_followed ran)

theorem fillOperation_triple {q q' : Items} {c : Ndb.Call} (opens : Opening setting dir q c)
    (bare : q.idxobj = none) (unset : q.idx = none) (ready : Ready setting dir q q')
    (active : q'.activeIndex = q.activeIndex) (carries : Carries setting dir q q') (source : QuerySource) :
    Triple (Calls (Fine setting before (before ++ [c])))
      (fillOperation setting dir source (false,q')) (fun _ => Calls (Performed setting dir before q))
      (Calls (Scripted setting dir before q)) := by
  unfold fillOperation
  rw [if_neg Bool.false_ne_true]
  apply Triple.bindRan ((setIndexParts_triple before (before ++ [c]) bare unset ready carries.plan active
    carries.keys setting.mval).mono (fun _ => id) (fun _ _ => id) ?_)
  · rintro w ⟨mval,q''⟩ w' _ ran ⟨keys,constants,parts,walked,set,fine⟩
    refine (useOperation_triple before (before ++ [c] ++ (keys ++ constants))
      (setIndexParts_carries carries ran) source mval).mono (fun u same => same ▸ fine) ?_ ?_
    · rintro _ u ⟨conditions,actions,follows,filtered,all,fine⟩
      refine ⟨.whole opens parts walked set follows,⟨walked,set,filtered,all⟩,?_⟩
      rw [Script.whole_calls,List.append_cons,← List.append_assoc]
      exact fine
    · rintro u ⟨more,split,⟨conditions,actions,follows,rfl⟩,heard⟩
      refine ⟨.whole opens parts walked set follows,?_,heard⟩
      rw [Script.whole_calls,List.append_cons,← List.append_assoc]
      exact split
  · rintro w ⟨more,split,⟨keys,constants,parts,rfl⟩,heard⟩
    refine ⟨.parts opens parts,?_,heard⟩
    rw [Script.parts_calls,List.append_cons]
    exact split

end

section
variable (setting : Setting) (dir : Dir) (before : List Ndb.Call)

/-- An operation is defined by the calls of its script. -/
theorem defineOperation_triple {q : Items} (bare : q.idxobj = none) (unset : q.idx = none)
    (writes : q.opAction = .write → q.opSetup = .write ∨ q.opSetup = .insert) (source : QuerySource) :
    Triple (fun w => w.calls = before) (defineOperation setting dir source q)
      (fun _ => Calls (Performed setting dir before q))
      (fun w => w.calls = before ∨ Scripted setting dir before q w.calls) := by
  have untouched {α : Type} {x : Querying α} (silent : Silent x) : Triple (fun w => w.calls = before) x
      (fun _ w => w.calls = before) fun w => w.calls = before ∨ Scripted setting dir before q w.calls :=
    (Silent.triple silent (· = before)).mono (fun _ => id) (fun _ _ => id) fun _ => .inl
  rw [defineOperation_eq]
  apply (untouched (chooseIndex_issues setting q dir)).bindRan
  rintro w q₁ w₁ _ ran₁ same₁
  have chose : Chose setting dir q q₁ := by
    have moves : Moves (Local (fun _ => True) q.data) (chooseIndex setting dir q) (Chose setting dir q) :=
      chooseIndex_moves setting dir q q.data
    exact (moves w).2 q₁ (by rw [ran₁])
  apply Triple.bindRan ((untouched (getNdbOperation_issues setting q₁)).mono
    (fun u same => (congrArg World.calls same).trans same₁) (fun _ _ => id) fun _ => id)
  rintro w₁ q₂ w₂ _ ran₂ same₂
  have made : Moves (Local (fun _ => True) q₁.data) (getNdbOperation setting q₁) fun q' => ∃ obj,
      q₁.idxobj = some obj ∧ q' = {q₁ with idxobj := some {obj with nParts := numberOfParts q₁ obj.kind}} :=
    getNdbOperation_moves setting q₁
  obtain ⟨obj,object,counted⟩ := (made w₁).2 q₂ (by rw [ran₂])
  obtain ⟨plan,idx,indexed⟩ := chose_object setting dir chose bare object
  have shape : q₂ = q.indexed idx {obj with nParts := numberOfParts q₁ obj.kind} := by
    rw [counted,indexed]
    rfl
  have opened := opSetup_triple setting dir before before q idx
    {obj with nParts := numberOfParts q₁ obj.kind} plan
  rw [← shape] at opened
  apply Triple.bind (opened.mono (fun u same => ⟨(congrArg World.calls same).trans same₂,.start _ _⟩)
    (fun _ _ => id) fun w fine => .inl fine.1)
  rintro ⟨refused,q'⟩
  refine Triple.fact ?_
  rintro ⟨vals,same,update⟩
  replace same : q' = q₂.withVals vals := same
  have ready : Ready setting dir q q' := ⟨q₁,obj,vals,chose,object,by rw [same,counted]⟩
  rw [shape] at same
  subst same
  have carries : Carries setting dir q ((q.indexed idx
      {obj with nParts := numberOfParts q₁ obj.kind}).withVals vals) :=
    ⟨rfl,rfl,rfl,rfl,rfl,fun write => update (writes write)⟩
  refine Triple.given fun c => Triple.fact fun opens => ?_
  cases refused with
  | true =>
    refine Triple.fail _ ?_
    rintro u ⟨split,heard,_⟩
    refine .inr ⟨.parts opens (.nil setting dir q),?_,by rw [split]; exact heard.last c⟩
    rw [Script.parts_calls]
    exact split
  | false =>
    exact (fillOperation_triple before opens bare unset ready rfl carries source).mono
      (fun u called => called.2.2 rfl) (fun _ _ => id) fun _ => .inr

end

section
variable {srv : ServerConfig} {setting : Setting} {r : RequestRec} {dir : Dir} {source : QuerySource}

theorem setUpMethod_does {tab : Ndb.Table} {w next : World} {q : Items}
    (ran : setUpMethod srv r dir source (.init tab) w = (.ok q,next)) : Does dir q source := by
  unfold setUpMethod at ran
  cases method : source.reqMethod with
  | get =>
    rw [method] at ran
    dsimp only at ran
    unfold setUpRead at ran
    rw [Prog.bind_ok _ (Prog.get_run w)] at ran
    split at ran
    · cases ran
      exact .get method rfl rfl
    · exact absurd ran (refuse_no_result _ _ _)
  | post =>
    rw [method] at ran
    obtain ⟨form,_,_,last⟩ := Prog.bind_inv ran
    cases last
    unfold setUpPost
    dsimp only
    split
    · exact .post method (.inr rfl) rfl
    · exact .post method (.inl rfl) rfl
  | delete =>
    rw [method] at ran
    dsimp only at ran
    split at ran
    · next allowed =>
      cases ran
      exact .delete method allowed rfl rfl
    · exact absurd ran (refuse_no_result _ _ _)
  | other =>
    rw [method] at ran
    exact absurd ran (refuse_no_result _ _ _)

theorem planQuery_does {w next : World} {q : Items}
    (ran : planQuery srv setting r dir source w = (.ok q,next)) : Does dir q source := by
  unfold planQuery at ran
  obtain ⟨tab,_,_,ran⟩ := Prog.bind_inv ran
  obtain ⟨q₀,_,made,checked⟩ := Prog.bind_inv ran
  have does := setUpMethod_does made
  have kept := findPlan_setup dir q₀ r
  rw [checkPlan_same r dir checked] at kept
  unfold Items.setup at kept
  simp only [Prod.mk.injEq] at kept
  obtain ⟨_,_,_,setup,action,_⟩ := kept
  cases does with
  | get method here there => exact .get method (setup.trans here) (action.trans there)
  | post method here there => exact .post method (setup ▸ here) (action.trans there)
  | delete method allowed here there => exact .delete method allowed (setup.trans here) (action.trans there)

theorem Does.writes {q : Items} (does : Does dir q source) (write : q.opAction = .write) :
    q.opSetup = .write ∨ q.opSetup = .insert := by
  cases does with
  | post _ setup _ => exact setup
  | get _ _ action => cases action.symm.trans write
  | delete _ _ _ action => cases action.symm.trans write

end

/-- Whatever the configuration, the request and NDB's answers, a query that is planned calls on its
operation what its script says, stage by stage, and nothing behind a call that is refused; where it is
not planned it calls nothing, and where it defines its operation it has issued the whole script. -/
theorem query_script (srv : ServerConfig) (setting : Setting) (r : RequestRec) (dir : Dir)
    (source : QuerySource) (w : World) :
    ((query srv setting r dir source w).2.calls = w.calls ∧
      (queryBody srv setting r dir source w).1 ≠ .ok ()) ∨
    ∃ q next, planQuery srv setting r dir source w = (.ok q,next) ∧ Does dir q source ∧
      ∃ s : Script setting dir q, (query srv setting r dir source w).2.calls = w.calls ++ s.calls ∧
        Unrefused setting.ndb w.calls (query srv setting r dir source w).2.calls.dropLast ∧
        ((queryBody srv setting r dir source w).1 = .ok () →
          s.Whole ∧ Unrefused setting.ndb w.calls (query srv setting r dir source w).2.calls) := by
  rw [query_calls]
  have quiet {α : Type} {x : Querying α} (silent : Silent x) : Triple (fun u => u.calls = w.calls) x
      (fun _ u => u.calls = w.calls) fun u => u.calls = w.calls := Silent.triple silent (· = w.calls)
  unfold queryBody
  rcases planned : planQuery srv setting r dir source w with ⟨outcome,w₁⟩
  have kept₁ := quiet (planQuery_issues srv setting r dir source)
  cases outcome with
  | error stop =>
    rw [Prog.bind_error _ planned]
    exact .inl ⟨kept₁.stops w stop w₁ rfl planned,nofun⟩
  | ok q =>
    rw [Prog.bind_ok _ planned]
    have same₁ := kept₁.returns w q w₁ rfl planned
    rcases opened : openTransaction setting w₁ with ⟨outcome,w₂⟩
    have kept₂ := quiet (openTransaction_issues setting)
    cases outcome with
    | error stop =>
      rw [Prog.bind_error _ opened]
      exact .inl ⟨kept₂.stops w₁ stop w₂ same₁ opened,nofun⟩
    | ok u =>
      rw [Prog.bind_ok _ opened]
      have same₂ := kept₂.returns w₁ u w₂ same₁ opened
      obtain ⟨tab,planning⟩ := planQuery_planning srv setting r dir source planned
      have does := planQuery_does planned
      have defined := defineOperation_triple setting dir w.calls planning.idxobj planning.idx does.writes source
      rcases ran : defineOperation setting dir source q w₂ with ⟨outcome,w₃⟩
      cases outcome with
      | error stop =>
        rcases defined.stops w₂ stop w₃ same₂ ran with same | ⟨s,split,heard⟩
        · exact .inl ⟨same,nofun⟩
        · exact .inr ⟨q,w₁,rfl,does,s,split,heard,nofun⟩
      | ok u =>
        obtain ⟨s,whole,split,heard⟩ := defined.returns w₂ u w₃ same₂ ran
        refine .inr ⟨q,w₁,rfl,does,s,split,?_,fun _ => ⟨whole,?_⟩⟩
        · rw [split]
          exact heard.init
        · rw [split]
          exact heard

end ModNdb.Query
