import ModNdb.Query.KeyParts

/-! The key parts that a query hands over, in their order: they go along the chain of the
active index. -/
namespace ModNdb.Query
open Config (Dir)
open MySQL (Mvalue)
open Prog (Moves)

def Event.part : Event → Option (Nat × Option Text)
  | .keyPart n value _ => some (n,value)
  | _ => none

def partsOf (trace : List Event) : List (Nat × Option Text) := trace.filterMap Event.part

def chainFrom (dir : Dir) : Nat → Option Nat → List Nat
  | 0, _ => []
  | _, none => []
  | m + 1, some c => c :: chainFrom dir m ((dir.keyColumns[c]?).bind Config.KeyCol.nextInKey)

def activeChain (r : RequestRec) (dir : Dir) : Option Nat :=
  ((chosen r dir).2.bind fun n => dir.indexes[n]?).bind Config.Index.firstCol

def NotPart (event : Event) : Prop := event.part = none

instance : AllowsPages NotPart := ⟨fun _ _ => rfl⟩

theorem Adds.parts {w w' : World} (adds : Adds NotPart w w') :
    partsOf w'.trace = partsOf w.trace := by
  obtain ⟨more,split,others⟩ := adds
  unfold partsOf
  rw [split,List.filterMap_append,List.filterMap_eq_nil_iff.mpr others,List.append_nil]

def Hands (dir : Dir) (first : Option Nat) (values : Nat → Option Text) (w w' : World) : Prop :=
  ∃ m, partsOf w'.trace = partsOf w.trace ++ (chainFrom dir m first).map fun c => (c,values c)

section
variable {dir : Dir} {first : Option Nat} {values : Nat → Option Text}

theorem Hands.none {w w' : World} (adds : Adds NotPart w w') : Hands dir first values w w' :=
  ⟨0,by rw [adds.parts]; exact (List.append_nil _).symm⟩

theorem Hands.after {u v w : World} (adds : Adds NotPart u v) (hands : Hands dir first values v w) :
    Hands dir first values u w := by
  obtain ⟨m,parts⟩ := hands
  exact ⟨m,by rw [parts,adds.parts]⟩

theorem Hands.before {u v w : World} (hands : Hands dir first values u v) (adds : Adds NotPart v w) :
    Hands dir first values u w := by
  obtain ⟨m,parts⟩ := hands
  exact ⟨m,by rw [adds.parts,parts]⟩

theorem bind_hands {α β : Type} {x : Querying α} {f : α → Querying β} {w : World}
    (quiet : Adds NotPart w (x w).2)
    (rest : ∀ a next, x w = (.ok a,next) → Hands dir first values next (f a next).2) :
    Hands dir first values w ((x >>= f) w).2 := by
  rcases ran : x w with ⟨outcome,next⟩
  rw [ran] at quiet
  cases outcome with
  | error why =>
    rw [Prog.bind_error _ ran]
    exact .none quiet
  | ok a =>
    rw [Prog.bind_ok _ ran]
    exact (rest a next ran).after quiet

theorem hands_bind {α β : Type} {x : Querying α} {f : α → Querying β} {w : World}
    (hands : Hands dir first values w (x w).2) (quiet : ∀ a next, Adds NotPart next (f a next).2) :
    Hands dir first values w ((x >>= f) w).2 := by
  rcases ran : x w with ⟨outcome,next⟩
  rw [ran] at hands
  cases outcome with
  | error why =>
    rw [Prog.bind_error _ ran]
    exact hands
  | ok a =>
    rw [Prog.bind_ok _ ran]
    exact hands.before (quiet a next)

end

section
variable (setting : Setting) (dir : Dir)

theorem getColumn_pure (q : Items) (baseColName : Option Text) (relOp : Nat) :
    (∃ got, getColumn q baseColName relOp = pure got) ∨
      ∃ why, getColumn q baseColName relOp = crash why := by
  cases made : q.idxobj with
  | none =>
    unfold getColumn
    rw [made]
    exact .inr ⟨_,rfl⟩
  | some obj =>
    rcases getColumn_cases q obj made baseColName relOp with ⟨make,got⟩ | ⟨_,why,crashed⟩
    · exact .inl ⟨_,got⟩
    · exact .inr ⟨why,crashed⟩

theorem refused_parts (n : Option Nat) (result : Mvalue × Items) (w : World) :
    (∀ got, (afterPart setting n result true w).1 ≠ .ok got) ∧
      partsOf (afterPart setting n result true w).2.trace = partsOf w.trace := by
  have refused : Moves (Local NotPart result.2.data) (afterPart setting n result true) fun _ => False :=
    afterPart_refused setting result.2.data n result
  exact ⟨fun got => (refused w).2 got,(refused w).1.trace.parts⟩

theorem partsOf_append (trace more : List Event) :
    partsOf (trace ++ more) = partsOf trace ++ partsOf more := List.filterMap_append

theorem setPart_parts (n : Nat) (baseColName : Option Text) (relOp : Nat) (value : Option Text)
    (mval : Mvalue) (q : Items) (w : World) :
    (∃ mval' q' next, setPart setting (some n) baseColName relOp value mval q w = (.ok (mval',q'),next) ∧
      q'.keys = q.keys ∧ partsOf next.trace = partsOf w.trace ++ [(n,value)]) ∨
    ((∀ got, (setPart setting (some n) baseColName relOp value mval q w).1 ≠ .ok got) ∧
      ∃ handed, partsOf (setPart setting (some n) baseColName relOp value mval q w).2.trace =
        partsOf w.trace ++ handed ∧ (handed = [] ∨ handed = [(n,value)])) := by
  have stopped {x : Querying (Mvalue × Items)} (fails : (∀ got, (x w).1 ≠ .ok got) ∧
      partsOf (x w).2.trace = partsOf w.trace) : (∀ got, (x w).1 ≠ .ok got) ∧
        ∃ handed, partsOf (x w).2.trace = partsOf w.trace ++ handed ∧ (handed = [] ∨ handed = [(n,value)]) :=
    ⟨fails.1,[],by rw [fails.2,List.append_nil],.inl rfl⟩
  rcases getColumn_pure q baseColName relOp with ⟨⟨col,make⟩,got⟩ | ⟨why,crashed⟩
  · rw [setPart_encoded setting (some n) baseColName relOp value mval got]
    cases good : (MySQL.value setting.out mval col value).useValue.isGood with
    | false =>
      right
      apply stopped
      rcases mvalIsUsable_bad good with unusable | crashed
      · rw [unusable]
        exact refused_parts setting (some n) _ w
      · rw [crashed]
        exact ⟨(fun _ none => by cases none),rfl⟩
    | true =>
      rw [mvalIsUsable_good good]
      generalize make (passed (MySQL.value setting.out mval col value)) = c
      let after : World := {w with
        calls := w.calls ++ [c], trace := w.trace ++ [.keyPart n value c]}
      have handed : handPart setting (some n) value true c w =
          (.ok (setting.ndb.refuses after.calls),after) := rfl
      have parts : partsOf after.trace = partsOf w.trace ++ [(n,value)] := partsOf_append _ _
      rw [Prog.bind_ok _ (Prog.pure_run true w),Prog.bind_ok _ handed]
      cases setting.ndb.refuses after.calls with
      | false => exact .inl ⟨_,_,_,rfl,rfl,parts⟩
      | true =>
        right
        obtain ⟨fails,kept⟩ := refused_parts setting (some n)
          (MySQL.value setting.out mval col value,countPart q) after
        exact ⟨fails,_,kept.trans parts,.inr rfl⟩
  · right
    apply stopped
    unfold setPart
    rw [crashed]
    exact ⟨(fun _ none => by cases none),rfl⟩

theorem nextKeyPart_keys (q : Items) : (nextKeyPart q).2.keys = q.keys := by
  unfold nextKeyPart
  cases q.idxobj with
  | none => rfl
  | some obj =>
    dsimp only
    split <;> rfl

/-- The walk hands over the first columns of the chain, with their values. -/
theorem setKeyParts_hands (used : Nat) (col : Option Nat) (mval : Mvalue) (q : Items) (w : World) :
    Hands dir col q.keys w (setKeyParts setting dir used col mval q w).2 := by
  induction used generalizing col mval q w with
  | zero => exact .none (.none rfl)
  | succ used ih =>
    cases col with
    | none => exact .none (.none rfl)
    | some col =>
      unfold setKeyParts
      cases entry : dir.keyColumns[col]? with
      | none => exact .none (.none rfl)
      | some keycol =>
        dsimp only
        rcases setPart_parts setting col keycol.baseColName keycol.relOp (q.keys col) mval q w with
          ⟨mval',q',next,ran,keys,parts⟩ | ⟨fails,handed,parts,one⟩
        · rw [Prog.bind_ok _ ran]
          dsimp only
          have next_keys : (nextKeyPart q').2.keys = q.keys := (nextKeyPart_keys q').trans keys
          split
          · obtain ⟨m,rest⟩ := ih keycol.nextInKey mval' (nextKeyPart q').2 next
            refine ⟨m + 1,?_⟩
            rw [rest,parts,next_keys,List.append_assoc]
            have chain : chainFrom dir (m + 1) (some col) = col :: chainFrom dir m keycol.nextInKey := by
              rw [chainFrom,entry,Option.bind_some]
            rw [chain]
            rfl
          · refine ⟨1,?_⟩
            rw [Prog.pure_run]
            exact parts
        · rcases ran : setPart setting (some col) keycol.baseColName keycol.relOp (q.keys col) mval q w
            with ⟨outcome,next⟩
          rw [ran] at fails parts
          cases outcome with
          | ok result => exact absurd rfl (fails result)
          | error why =>
            rw [Prog.bind_error _ ran]
            rcases one with rfl | rfl
            · exact ⟨0,parts⟩
            · exact ⟨1,parts⟩

theorem setPart_counts {n : Option Nat} {baseColName : Option Text} {relOp : Nat} {value : Option Text}
    {mval mval' : Mvalue} {q q' : Items} {w next : World}
    (ran : setPart setting n baseColName relOp value mval q w = (.ok (mval',q'),next)) :
    q' = countPart q := by
  rcases getColumn_pure q baseColName relOp with ⟨⟨col,make⟩,got⟩ | ⟨why,crashed⟩
  · rw [setPart_encoded setting n baseColName relOp value mval got] at ran
    obtain ⟨usable,_,_,rest⟩ := Prog.bind_inv ran
    obtain ⟨refused,middle,_,last⟩ := Prog.bind_inv rest
    have stays : Moves (Local (fun _ => True) q.data) (afterPart setting n
        (MySQL.value setting.out mval col value,countPart q) refused) fun got =>
          got = (MySQL.value setting.out mval col value,countPart q) :=
      afterPart_moves setting q.data n _ refused
    exact (Prod.mk.inj ((stays middle).2 _ (by rw [last]))).2
  · unfold setPart at ran
    rw [crashed] at ran
    cases ran

section
variable {β : Type} (f : Items → β) (counts : ∀ q, f (countPart q) = f q)
include counts

theorem setKeyParts_keeps (steps : ∀ q, f (nextKeyPart q).2 = f q) {used : Nat} {col : Option Nat}
    {mval mval' : Mvalue} {q q' : Items} {w next : World}
    (ran : setKeyParts setting dir used col mval q w = (.ok (mval',q'),next)) : f q' = f q := by
  induction used generalizing col mval q w with
  | zero =>
    cases ran
    rfl
  | succ used ih =>
    cases col with
    | none =>
      cases ran
      rfl
    | some col =>
      unfold setKeyParts at ran
      cases entry : dir.keyColumns[col]? with
      | none =>
        rw [entry] at ran
        cases ran
      | some keycol =>
        rw [entry] at ran
        obtain ⟨⟨mval₁,q₁⟩,w₁,set,rest⟩ := Prog.bind_inv ran
        have counted := setPart_counts setting set
        subst counted
        have same : f (nextKeyPart (countPart q)).2 = f q := (steps _).trans (counts q)
        dsimp only at rest
        split at rest
        · exact (ih rest).trans same
        · cases rest
          exact same

theorem setConstants_keeps {constants : List Config.Constant} {mval mval' : Mvalue} {q q' : Items}
    {w next : World} (ran : setConstants setting constants mval q w = (.ok (mval',q'),next)) :
    f q' = f q := by
  induction constants generalizing mval q w with
  | nil =>
    cases ran
    rfl
  | cons constant constants ih =>
    obtain ⟨⟨mval₁,q₁⟩,w₁,set,rest⟩ := Prog.bind_inv ran
    have counted := setPart_counts setting set
    subst counted
    exact (ih rest).trans (counts q)

theorem setIndexParts_keeps (steps : ∀ q, f (nextKeyPart q).2 = f q) {mval mval' : Mvalue}
    {q q' : Items} {w next : World}
    (ran : setIndexParts setting dir mval q w = (.ok (mval',q'),next)) : f q' = f q := by
  unfold setIndexParts at ran
  cases active : if q.plan = .scan then none else q.activeIndex with
  | none =>
    rw [active] at ran
    cases ran
    rfl
  | some n =>
    rw [active] at ran
    cases entry : dir.indexes[n]? with
    | none =>
      dsimp only at ran
      rw [entry] at ran
      cases ran
    | some record =>
      dsimp only at ran
      rw [entry] at ran
      obtain ⟨⟨mval₁,q₁⟩,w₁,walked,rest⟩ := Prog.bind_inv ran
      exact (setConstants_keeps setting f counts rest).trans
        (setKeyParts_keeps setting dir f counts steps walked)

end

theorem setIndexParts_hands (mval : Mvalue) (q : Items) (w : World) :
    Hands dir ((q.activeIndex.bind fun n => dir.indexes[n]?).bind Config.Index.firstCol) q.keys w
      (setIndexParts setting dir mval q w).2 := by
  unfold setIndexParts
  by_cases scans : q.plan = .scan
  · rw [if_pos scans]
    exact .none (.none rfl)
  rw [if_neg scans]
  cases q.activeIndex with
  | none => exact .none (.none rfl)
  | some n =>
    dsimp only
    cases entry : dir.indexes[n]? with
    | none => exact .none (.none rfl)
    | some record =>
      dsimp only
      rw [Option.bind_some,entry,Option.bind_some]
      apply hands_bind (setKeyParts_hands setting dir _ record.firstCol mval q w)
      rintro ⟨mval,q'⟩ next
      have constants : Moves (Local NotPart q'.data) (setConstants setting record.constants mval q')
          fun result => result.2.data = q'.data := setConstants_moves setting q' q'.data record.constants mval
      exact (constants next).1.trace

end

theorem Ready.activeIndex {setting : Setting} {dir : Dir} {q q' : Items}
    (ready : Ready setting dir q q') : q'.activeIndex = q.activeIndex ∧ q'.keys = q.keys := by
  obtain ⟨q₁,obj,setVals,chose,_,rfl⟩ := ready
  cases chose with
  | indexScan _ _ _ _ typed | unique _ _ _ _ _ _ typed | ordered _ _ _ _ _ _ typed =>
    obtain ⟨_,_,_,rfl⟩ := typed
    exact ⟨rfl,rfl⟩
  | tableScan | primaryKey | none => exact ⟨rfl,rfl⟩

section
variable (srv : ServerConfig) (setting : Setting) (r : RequestRec) (dir : Dir)

theorem defineOperation_hands_chain (source : QuerySource) (q : Items) (w : World) :
    Hands dir ((q.activeIndex.bind fun n => dir.indexes[n]?).bind Config.Index.firstCol) q.keys w
      (defineOperation setting dir source q w).2 := by
  rw [defineOperation_eq]
  have chose : Moves (Local NotPart q.data) (chooseIndex setting dir q) (Chose setting dir q) :=
    chooseIndex_moves setting dir q q.data
  apply bind_hands (chose w).1.trace
  intro q₁ w₁ ran₁
  have chosen := (chose w).2 q₁ (by rw [ran₁])
  have made : Moves (Local NotPart q₁.data) (getNdbOperation setting q₁) fun q' => ∃ obj,
      q₁.idxobj = some obj ∧ q' = {q₁ with idxobj := some {obj with nParts := numberOfParts q₁ obj.kind}} :=
    getNdbOperation_moves setting q₁
  apply bind_hands (made w₁).1.trace
  intro q₂ w₂ ran₂
  obtain ⟨obj,object,same⟩ := (made w₁).2 q₂ (by rw [ran₂])
  have set : Moves (Local NotPart q₂.data) (opSetup setting dir q₂)
      fun result => ∃ setVals, result.2 = q₂.withVals setVals := opSetup_moves setting dir q₂ q₂.data
  apply bind_hands (set w₂).1.trace
  rintro ⟨refused,q₃⟩ w₃ ran₃
  obtain ⟨setVals,same₃⟩ := (set w₂).2 (refused,q₃) (by rw [ran₃])
  obtain ⟨active,keys⟩ := Ready.activeIndex ⟨q₁,obj,setVals,chosen,object,same ▸ same₃⟩
  rw [← active,← keys]
  cases refused with
  | true => exact .none (.none rfl)
  | false =>
    apply hands_bind (setIndexParts_hands setting dir _ q₃ w₃)
    rintro ⟨mval,q₄⟩ w₄
    have used : Moves (Local NotPart q₄.data) (useOperation setting dir source mval q₄) fun _ => True :=
      useOperation_moves setting dir q₄ source (fun _ _ _ => rfl) mval
    exact (used w₄).1.trace

theorem checkPlan_same {q q' : Items} {w next : World} (ran : checkPlan r dir q w = (.ok q',next)) :
    q = q' := by
  unfold checkPlan at ran
  split at ran
  · cases (Prod.mk.inj ran).1
  · exact Except.ok.inj (Prod.mk.inj ran).1

theorem planQuery_activeIndex (source : QuerySource) {tab : Ndb.Table}
    (found : setting.ndb.table = some tab) {w next : World} {q : Items}
    (ran : planQuery srv setting r dir source w = (.ok q,next)) :
    q.activeIndex = (chosen r dir).2 := by
  rw [planQuery_found srv setting r dir source tab found] at ran
  obtain ⟨q₀,_,made,checked⟩ := Prog.bind_inv ran
  obtain ⟨_,begun⟩ := setUpMethod_begun srv r dir source tab made
  rw [← checkPlan_same r dir checked]
  exact findPlan_activeIndex r dir q₀ begun.activeIndex begun.plan

/-- The key parts of a query are those of the first columns of the active index, in the
order of its chain, each with the value that the request supplies for it. -/
theorem query_hands (w : World) : Hands dir (activeChain r dir) (supplied r dir) w
    (query srv setting r dir (sourceOf r) w).2 := by
  have outcomes (e : Event) (outcome : e.IsOutcome) : NotPart e := by
    cases e with
    | keyPart n value call => cases outcome
    | _ => rfl
  refine Hands.before ?_ (query_after srv setting r dir (sourceOf r) outcomes w)
  unfold queryBody
  apply bind_hands (planQuery_adds srv setting r dir (sourceOf r) w)
  intro q next ran
  apply bind_hands (openTransaction_adds setting (fun _ => rfl) next)
  intro _ last _
  obtain ⟨tab,planning⟩ := planQuery_planning srv setting r dir (sourceOf r) ran
  have hands := defineOperation_hands_chain setting dir (sourceOf r) q last
  rw [planning.keys,planQuery_activeIndex srv setting r dir (sourceOf r) planning.found ran] at hands
  exact hands

end

end ModNdb.Query
