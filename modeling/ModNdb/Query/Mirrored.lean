import ModNdb.Query.Owned
import ModNdb.Query.Results

/-! `Query` and `cleanup` do to the slots of the instance what `Results` says: a read takes a slot
and fills it, or leaves it empty. -/
namespace ModNdb.Query
open Config (Dir)
open Prog (Moves Stops)

/-- The columns of a slot, and how many of them have a result. -/
abbrev Shape := Nat × Option Nat

def Shape.grow (m : Nat) (shape : Shape) : Shape := (shape.1,shape.2.map (· + m))

theorem Shape.grow_zero (shape : Shape) : shape.grow 0 = shape := by
  obtain ⟨n,filled⟩ := shape
  cases filled <;> rfl

theorem Shape.grow_grow (shape : Shape) (m m' : Nat) : (shape.grow m).grow m' = shape.grow (m + m') := by
  obtain ⟨n,filled⟩ := shape
  cases filled with
  | none => rfl
  | some k => exact congrArg (fun sum => (n,some sum)) (Nat.add_assoc k m m')

def DataOperation.shape (data : DataOperation) : Shape :=
  (data.nResultCols,data.resultCols.map List.length)

def ResultSlot.shape (slot : ResultSlot) : Shape :=
  (slot.nResultCols,some (slot.resultCols.countP Option.isSome))

/-- The slots in use have the columns and as many results as those of the model of results. -/
structure Mirrors (s : Results) (i : Instance) : Prop where
  used : s.data.length = i.nReadOps
  shape : ∀ (k : Nat) (slot : ResultSlot), s.data[k]? = some slot → slot.shape = (i.data k).shape

/-- The slot of a query has got so many results, and all else about the slots is as it was. -/
structure Grown (d : DataRef) (m : Nat) (w v : World) : Prop where
  nReadOps : v.inst.nReadOps = w.inst.nReadOps
  shape : ∀ k, (v.inst.data k).shape =
    if d = .slot k then (w.inst.data k).shape.grow m else (w.inst.data k).shape

section
variable {d : DataRef} {m m' : Nat} {u v w : World}

theorem Grown.same (nReadOps : v.inst.nReadOps = w.inst.nReadOps)
    (shape : ∀ k, (v.inst.data k).shape = (w.inst.data k).shape) : Grown d 0 w v where
  nReadOps := nReadOps
  shape k := by rw [shape k,Shape.grow_zero,ite_self]

theorem Grown.trans (first : Grown d m u v) (second : Grown d m' v w) : Grown d (m + m') u w where
  nReadOps := second.nReadOps.trans first.nReadOps
  shape k := by
    rw [second.shape k,first.shape k]
    split
    · exact Shape.grow_grow _ m m'
    · rfl

instance (d : DataRef) : IsPreorder World (Grown d 0) where
  refl _ := .same rfl fun _ => rfl
  trans _ _ _ := Grown.trans

theorem Local.grown {allowed : Event → Prop} (moved : Local allowed .localData w v) : Grown d 0 w v :=
  .same moved.nReadOps fun k => congrArg DataOperation.shape (moved.data k nofun)

theorem Settled.grown (settled : Settled w v) : Grown d 0 w v :=
  .same settled.nReadOps fun k => congrArg (fun data => (data k).shape) settled.data

/-- What keeps to the local structure keeps the slots. -/
theorem moves_grown {α : Type} {x : Querying α} {P : α → Prop}
    (moves : Moves (Local (fun _ => True) .localData) x P) : Moves (Grown d 0) x P :=
  fun w => ⟨(moves w).1.grown,(moves w).2⟩

theorem setData_grown (q : Items) (f : DataOperation → DataOperation) (m : Nat)
    (grows : ∀ data, (f data).shape = data.shape.grow m) (w : World) :
    (setData q f w).1 = .ok () ∧ Grown q.data m w (setData q f w).2 := by
  unfold setData
  cases q.data with
  | localData => exact ⟨rfl,rfl,fun _ => rfl⟩
  | slot n =>
    refine ⟨rfl,rfl,fun k => ?_⟩
    change DataOperation.shape (Function.update w.inst.data n (f (w.inst.data n)) k) = _
    by_cases own : n = k
    · subst own
      rw [Function.update_self,if_pos rfl]
      exact grows _
    · rw [Function.update_of_ne (Ne.symm own),if_neg fun same => own (DataRef.slot.inj same)]

end

def IsInside : Stop → Prop
  | .returns _ => False
  | .crash _ | .abort1 _ | .abort2 _ => True

theorem Late.inside {stop : Stop} (late : Late stop) : IsInside stop := by
  cases stop with
  | returns => exact late.elim
  | crash | abort1 | abort2 => trivial

/-- How a query may end that has entered: its columns are read, or it crashes, or it is given up. -/
def Ends (read kept : World → Prop) : Except Stop Unit × World → Prop
  | (.ok (),v) => read v
  | (.error (.crash _),_) => True
  | (.error (.returns _),_) => False
  | (.error (.abort1 _),v) | (.error (.abort2 _),v) => kept v

theorem Ends.mono {read kept read' kept' : World → Prop} {result : Except Stop Unit × World}
    (ends : Ends read kept result) (reads : ∀ v, read v → read' v) (keeps : ∀ v, kept v → kept' v) :
    Ends read' kept' result := by
  obtain ⟨outcome,v⟩ := result
  cases outcome with
  | ok => exact reads v ends
  | error stop =>
    cases stop with
    | crash => trivial
    | returns => exact ends
    | abort1 => exact keeps v ends
    | abort2 => exact keeps v ends

def Fills (d : DataRef) (m : Nat) (w : World) : Except Stop Unit × World → Prop :=
  Ends (Grown d m w) (Grown d 0 w)

section
variable {d : DataRef} {m : Nat} {w : World}

theorem Fills.after {v : World} {result : Except Stop Unit × World} (first : Grown d 0 w v)
    (fills : Fills d m v result) : Fills d m w result :=
  Ends.mono fills (fun _ grown => Nat.zero_add m ▸ first.trans grown) fun _ => first.trans

theorem Fills.bind {α : Type} {x : Querying α} {P : α → Prop} {f : α → Querying Unit}
    (first : Moves (Grown d 0) x P) (enters : Stops IsInside x)
    (rest : ∀ a, P a → ∀ v, Fills d m v (f a v)) (w : World) : Fills d m w ((x >>= f) w) := by
  obtain ⟨grown,holds⟩ := first w
  have inside := enters w
  rcases ran : x w with ⟨outcome,v⟩
  rw [ran] at grown holds inside
  cases outcome with
  | ok a =>
    rw [Prog.bind_ok f ran]
    exact (rest a (holds a rfl) v).after grown
  | error stop =>
    rw [Prog.bind_error f ran]
    cases stop with
    | crash => trivial
    | returns => exact (inside _ rfl).elim
    | abort1 => exact grown
    | abort2 => exact grown

end

section
variable (setting : Setting) (dir : Dir) (q : Items)

theorem late_inside {α : Type} {x : Querying α} (stops : Stops Late x) : Stops IsInside x :=
  fun w why stopped => (stops w why stopped).inside

theorem storeOperation_shape (kind : IndexKind) (op : Ndb.Operation) (data : DataOperation) :
    (storeOperation kind op data).shape = data.shape := by
  cases kind <;> rfl

/-- The operation is stored in the slot, which has its results still. -/
theorem getNdbOperation_grown : Moves (Grown q.data 0) (getNdbOperation setting q)
    fun q' => ∃ obj, q' = {q with idxobj := some obj} := by
  intro w
  unfold getNdbOperation
  rw [Prog.bind_ok _ (Prog.get_run w)]
  cases q.idxobj with
  | none => exact Moves.fail _ w
  | some obj =>
    cases w.inst.tx with
    | none => exact Moves.fail _ w
    | some t =>
      dsimp only
      split
      · rw [Prog.bind_ok _ (Prog.modify_run _ w)]
        have stored := setData_grown q (storeOperation obj.kind ⟨w.request⟩) 0
          (fun data => (storeOperation_shape _ _ data).trans data.shape.grow_zero.symm)
          (w.addOperation t)
        rcases ran : setData q (storeOperation obj.kind ⟨w.request⟩) (w.addOperation t)
          with ⟨result,next⟩
        rw [ran] at stored
        obtain ⟨rfl,grown⟩ := stored
        rw [Prog.bind_ok _ ran]
        have defined : Grown q.data 0 w (w.addOperation t) := .same rfl fun _ => rfl
        exact ⟨defined.trans grown,fun _ same => by cases same; exact ⟨_,rfl⟩⟩
      · exact Moves.fail _ w

theorem result_grows (col : MySQL.DictColumn) (data : DataOperation) :
    ({data with resultCols := data.resultCols.map (· ++ [col])} : DataOperation).shape =
      data.shape.grow 1 := by
  obtain ⟨op,scanop,n,results,_⟩ := data
  cases results with
  | none => rfl
  | some results => exact congrArg (fun k => (n,some k)) List.length_append

/-- Each column that is asked for is a result more. -/
theorem readColumns_grown (cols : List (Option MySQL.DictColumn)) {w v : World}
    (ran : readColumns setting q cols w = (.ok (),v)) : Grown q.data cols.length w v := by
  induction cols generalizing w with
  | nil =>
    cases ran
    exact .same rfl fun _ => rfl
  | cons col cols ih =>
    cases col with
    | none => cases ran
    | some col =>
      obtain ⟨_,u,asked,ran⟩ := Prog.bind_inv ran
      obtain ⟨_,u',stored,ran⟩ := Prog.bind_inv ran
      have moves : Moves (Local (fun _ => True) .localData) (newResult setting col) fun _ => True :=
        Moves.ite (fun _ => Moves.ite (fun _ => call_moves setting _ _) fun _ => Moves.fail _)
          fun _ => call_moves setting _ _
      have kept : Grown q.data 0 w u := by
        have grown : Grown q.data 0 w _ := (moves_grown moves w).1
        rwa [asked] at grown
      have added : Grown q.data 1 u
          (setData q (fun data => {data with resultCols := data.resultCols.map (· ++ [col])}) u).2 :=
        (setData_grown q _ 1 (result_grows col) u).2
      rw [stored] at added
      have total : 0 + 1 + cols.length = (some col::cols).length := by
        rw [List.length_cons,Nat.zero_add,Nat.add_comm]
      exact total ▸ (kept.trans added).trans (ih ran)

theorem readColumns_crashes (cols : List (Option MySQL.DictColumn)) :
    Stops (fun stop => ∃ why, stop = .crash why) (readColumns setting q cols) := by
  induction cols with
  | nil => exact Stops.pure _
  | cons col cols ih =>
    cases col with
    | none => exact Stops.fail ⟨_,rfl⟩
    | some col =>
      have asked : Stops (fun stop => ∃ why, stop = .crash why) (newResult setting col) :=
        Stops.ite (fun _ => Stops.ite (fun _ => nofun) fun _ => Stops.fail ⟨_,rfl⟩) fun _ => nofun
      refine asked.bind fun _ => Stops.bind ?_ fun _ => ih
      unfold setData
      cases q.data with
      | localData => exact Stops.pure _
      | slot n => exact Stops.modify _

/-- The columns that `Plan::Read` goes through. -/
def readCols (tab : Ndb.Table) : List (Option MySQL.DictColumn) :=
  if dir.selectStar then tab.columns.map some else dir.visible.map tab.column

def Items.aim (q : Items) : DataRef × OpAction × Ndb.Table := (q.data,q.opAction,q.tab)

theorem nextKeyPart_aim : (nextKeyPart q).2.aim = q.aim := by
  unfold nextKeyPart
  cases q.idxobj with
  | none => rfl
  | some obj =>
    dsimp only
    split <;> rfl

theorem Chose.aim {setting : Setting} {dir : Dir} {q q' : Items} (chose : Chose setting dir q q') :
    q'.aim = q.aim := by
  cases chose with
  | indexScan _ _ _ _ typed | unique _ _ _ _ _ _ typed | ordered _ _ _ _ _ _ typed =>
    obtain ⟨_,_,_,rfl⟩ := typed
    rfl
  | tableScan | primaryKey | none => rfl

theorem setIndexParts_aim (d : DataRef) (mval : MySQL.Mvalue) :
    Moves (Grown d 0) (setIndexParts setting dir mval q) fun result => result.2.aim = q.aim := by
  intro w
  have moves : Moves (Local (fun _ => True) .localData) (setIndexParts setting dir mval q) _ :=
    setIndexParts_moves setting dir q .localData (fun _ _ _ => trivial) mval
  refine ⟨(moves w).1.grown,fun result same => ?_⟩
  rcases ran : setIndexParts setting dir mval q w with ⟨outcome,v⟩
  rw [ran] at same
  replace same : outcome = .ok result := same
  rw [same] at ran
  exact setIndexParts_keeps setting dir Items.aim (fun _ => rfl) nextKeyPart_aim ran

variable {q} {d : DataRef} {tab : Ndb.Table} (aims : q.aim = (d,.read,tab))
include aims

/-- `Plan::Read` fills the slot. -/
theorem act_fills (w : World) : Fills d (readCols dir tab).length w (act setting dir q w) := by
  obtain ⟨rfl,action,rfl⟩ : q.data = d ∧ q.opAction = .read ∧ q.tab = tab := by
    simpa only [Items.aim,Prod.mk.injEq] using aims
  have reads : act setting dir q = readColumns setting q (readCols dir q.tab) >>= fun _ => pure () := by
    unfold act opAction
    rw [action]
    exact Prog.bind_assoc _ _ _
  rw [reads]
  rcases ran : readColumns setting q (readCols dir q.tab) w with ⟨outcome,v⟩
  cases outcome with
  | ok =>
    rw [Prog.bind_ok _ ran]
    exact readColumns_grown setting q _ ran
  | error stop =>
    obtain ⟨why,rfl⟩ := readColumns_crashes setting q _ w stop (by rw [ran])
    rw [Prog.bind_error _ ran]
    trivial

theorem useOperation_fills (source : QuerySource) (mval : MySQL.Mvalue) (w : World) :
    Fills d (readCols dir tab).length w (useOperation setting dir source mval q w) := by
  have filtered : Moves (Local (fun _ => True) .localData)
      (if 4 ≤ q.plan.value then setFilters setting dir q q.filterList mval else return mval)
      fun _ => True :=
    Moves.ite (fun _ => setFilters_moves setting dir q _ (fun _ _ _ => trivial) _ _) fun _ => Moves.pure trivial
  have stops : Stops Late
      (if 4 ≤ q.plan.value then setFilters setting dir q q.filterList mval else return mval) :=
    Stops.ite (fun _ => setFilters_stops setting dir q _ _) fun _ => Stops.pure _
  refine Fills.bind (moves_grown filtered) (late_inside stops) ?_ w
  intro _ _ v
  have flagged : Moves (Grown d 0) (setInst fun i => {i with
      jsonrequest := i.jsonrequest ||
        (source.contentType.map fun type => type.map toLower) = some (text "application/jsonrequest")})
      fun _ => True :=
    Moves.modify (fun _ => .same rfl fun _ => rfl) trivial
  refine Fills.bind flagged (Stops.modify _) ?_ v
  intro _ _ v
  exact act_fills setting dir aims v

theorem defineOperation_fills (source : QuerySource) (w : World) :
    Fills d (readCols dir tab).length w (defineOperation setting dir source q w) := by
  rw [defineOperation_eq]
  refine Fills.bind (moves_grown (chooseIndex_moves setting dir q _))
    (late_inside (chooseIndex_stops setting dir q)) ?_ w
  intro q₁ chose v
  have aims₁ := chose.aim.trans aims
  have slot : q₁.data = d := (Prod.mk.inj aims₁).1
  have stored : Moves (Grown d 0) (getNdbOperation setting q₁) fun q' =>
      ∃ obj, q' = {q₁ with idxobj := some obj} := by
    rw [← slot]
    exact getNdbOperation_grown setting q₁
  refine Fills.bind stored (late_inside (getNdbOperation_stops setting q₁)) ?_ v
  rintro q₂ ⟨obj,rfl⟩ v
  refine Fills.bind (moves_grown (opSetup_moves setting dir _ _)) (late_inside (opSetup_stops setting dir _)) ?_ v
  rintro ⟨refused,q₃⟩ ⟨setVals,same⟩ v
  unfold fillOperation
  split
  · exact refl v
  · replace same : q₃ = _ := same
    refine Fills.bind (setIndexParts_aim setting dir q₃ d setting.mval)
      (late_inside (setIndexParts_stops setting dir q₃ _)) ?_ v
    rintro ⟨mval,q₄⟩ same₄ v
    replace same₄ : q₄.aim = q₃.aim := same₄
    have aims₄ : q₄.aim = (d,.read,tab) := by
      rw [same₄,same]
      exact aims₁
    exact useOperation_fills setting dir aims₄ source mval v

end

/-- A read that enters is planned in a slot of its own, or there is no plan for it. -/
theorem planQuery_reads {srv : ServerConfig} {setting : Setting} (r : RequestRec) (dir : Dir)
    {source : QuerySource} {tab : Ndb.Table} {w : World} (get : source.reqMethod = .get)
    (found : setting.ndb.table = some tab) (room : w.inst.nReadOps < srv.maxReadOperations) :
    (planQuery srv setting r dir source w).2 = w.claim dir tab ∧
      ((∃ q, (planQuery srv setting r dir source w).1 = .ok q ∧
        q.aim = (.slot w.inst.nReadOps,.read,tab)) ∨
      (planQuery srv setting r dir source w).1 = .error (.abort2 404)) := by
  have made : setUpMethod srv r dir source (.init tab) w =
      (.ok {Items.init tab with data := .slot w.inst.nReadOps},w.claim dir tab) := by
    unfold setUpMethod setUpRead
    rw [get]
    dsimp only
    rw [Prog.bind_ok _ (Prog.get_run w),if_pos room]
    rfl
  rw [planQuery_found srv setting r dir source tab found,Prog.bind_ok _ made]
  unfold checkPlan
  split
  · exact ⟨rfl,.inr rfl⟩
  · have kept := findPlan_setup dir {Items.init tab with data := .slot w.inst.nReadOps} r
    unfold Items.setup at kept
    simp only [Prod.mk.injEq] at kept
    obtain ⟨table,_,_,_,action,_,data,_⟩ := kept
    refine ⟨rfl,.inl ⟨_,rfl,?_⟩⟩
    unfold Items.aim
    rw [table,action,data]
    rfl

theorem newRead_shape (dir : Dir) (tab : Ndb.Table) (data : DataOperation) :
    (newRead dir tab data).shape = ((readCols dir tab).length,some 0) := by
  unfold newRead readCols
  dsimp only
  split
  · rw [List.length_map]
    rfl
  · rw [List.length_map]
    rfl

theorem empty_shape (n : Nat) : ResultSlot.shape ⟨n,List.replicate n none,false⟩ = (n,some 0) := by
  unfold ResultSlot.shape
  rw [List.countP_replicate]
  rfl

theorem filled_shape (made n : Nat) :
    ResultSlot.shape ⟨n,(List.range' made n).map some,false⟩ = (n,some n) := by
  have all : ((List.range' made n).map some).countP Option.isSome = n := by
    rw [List.countP_eq_length.mpr,List.length_map,List.length_range']
    intro p inside
    obtain ⟨o,_,rfl⟩ := List.mem_map.mp inside
    rfl
  unfold ResultSlot.shape
  rw [all]

theorem getElem?_concat {α : Type} {l : List α} {last a : α} {k : Nat} (there : (l ++ [last])[k]? = some a) :
    l[k]? = some a ∧ k ≠ l.length ∨ k = l.length ∧ a = last := by
  rcases Nat.lt_trichotomy k l.length with below | rfl | above
  · rw [List.getElem?_append_left below] at there
    exact .inl ⟨there,Nat.ne_of_lt below⟩
  · rw [List.getElem?_concat_length] at there
    exact .inr ⟨rfl,(Option.some.inj there).symm⟩
  · rw [List.getElem?_eq_none (by rw [List.length_append]; exact above)] at there
    cases there

section
variable {s : Results} {v w : World}

theorem Mirrors.kept (mirrors : Mirrors s w.inst) {d : DataRef} (grown : Grown d 0 w v) :
    Mirrors s v.inst where
  used := mirrors.used.trans grown.nReadOps.symm
  shape k slot there := by
    rw [mirrors.shape k slot there,grown.shape k,Shape.grow_zero,ite_self]

/-- A read takes the next slot. -/
theorem Mirrors.claim (mirrors : Mirrors s w.inst) (dir : Dir) (tab : Ndb.Table) :
    Mirrors (s.claim (readCols dir tab).length) (w.claim dir tab).inst where
  used := List.length_append.trans (congrArg (· + 1) mirrors.used)
  shape k slot there := by
    have stored : (w.claim dir tab).inst.data k = Function.update w.inst.data s.data.length
        (newRead dir tab (w.inst.data s.data.length)) k := by
      rw [mirrors.used]
      rfl
    rw [stored]
    rcases getElem?_concat there with ⟨there,other⟩ | ⟨rfl,rfl⟩
    · rw [Function.update_of_ne other]
      exact mirrors.shape k slot there
    · rw [Function.update_self,newRead_shape]
      exact empty_shape _

/-- `Plan::Read` fills it. -/
theorem Mirrors.fill {n : Nat} (mirrors : Mirrors (s.claim n) w.inst)
    (grown : Grown (.slot s.data.length) n w v) :
    Mirrors ((s.claim n).planRead s.data.length) v.inst := by
  have ran : (s.claim n).planRead s.data.length = _ :=
    planRead_run s.data n s.made s.live s.deleted
  rw [ran]
  refine ⟨?_,fun k slot there => ?_⟩
  · have taken : (s.claim n).data.length = s.data.length + 1 := List.length_append
    rw [grown.nReadOps,← mirrors.used,taken]
    exact List.length_append
  rw [grown.shape k]
  rcases getElem?_concat there with ⟨there,other⟩ | ⟨rfl,rfl⟩
  · rw [if_neg fun same => other (DataRef.slot.inj same).symm]
    refine mirrors.shape k slot ?_
    rw [← there]
    exact List.getElem?_append_left (List.getElem?_eq_some_iff.mp there).1
  · have claimed := mirrors.shape s.data.length _ List.getElem?_concat_length
    rw [if_pos rfl,← claimed,empty_shape,filled_shape]
    exact congrArg (fun k => (n,some k)) (Nat.zero_add n).symm

end

/-- A read, up to where it is given up or its batch is executed. -/
def Results.read (s : Results) (op : ReadOp) : Results :=
  if op.completes then (s.claim op.nResultCols).planRead s.data.length else s.claim op.nResultCols

section
variable (srv : ServerConfig) (setting : Setting) (r : RequestRec) (dir : Dir) (source : QuerySource)

theorem openTransaction_grown (d : DataRef) : Moves (Grown d 0) (openTransaction setting) fun _ => True := by
  refine fun w => ⟨?_,fun _ _ => trivial⟩
  rcases openTransaction_inst setting w with same | same
  · rw [same]
    exact refl w
  · rw [same]
    exact .same rfl fun _ => rfl

theorem openTransaction_inside : Stops IsInside (openTransaction setting) :=
  Stops.get fun _ => Stops.ite (fun _ => Stops.ite (fun _ => Stops.fail trivial) fun _ =>
    Stops.ite (fun _ => Stops.modify _) fun _ => Stops.fail trivial) fun _ => Stops.pure _

variable {srv setting source} in
/-- A read that enters takes a slot of the columns of its directory, and has filled it where it
does not fail. -/
theorem queryBody_reads {tab : Ndb.Table} {s : Results} {w : World} (get : source.reqMethod = .get)
    (found : setting.ndb.table = some tab) (room : w.inst.nReadOps < srv.maxReadOperations)
    (mirrors : Mirrors s w.inst) :
    Ends (fun v => Mirrors (s.read ⟨(readCols dir tab).length,true⟩) v.inst)
      (fun v => Mirrors (s.read ⟨(readCols dir tab).length,false⟩) v.inst)
      (queryBody srv setting r dir source w) := by
  have claimed := mirrors.claim dir tab
  obtain ⟨taken,planned⟩ := planQuery_reads r dir get found room
  unfold queryBody
  rcases ran : planQuery srv setting r dir source w with ⟨outcome,v⟩
  rw [ran] at taken planned
  replace taken : v = w.claim dir tab := taken
  subst taken
  rcases planned with ⟨q,passed,aims⟩ | refused
  · replace passed : outcome = .ok q := passed
    subst passed
    rw [Prog.bind_ok _ ran]
    rw [← mirrors.used] at aims
    have fills := Fills.bind (openTransaction_grown setting (.slot s.data.length))
      (openTransaction_inside setting)
      (fun _ _ => defineOperation_fills setting dir aims source) (w.claim dir tab)
    exact Ends.mono fills (fun _ => claimed.fill) fun _ => claimed.kept
  · replace refused : outcome = _ := refused
    subst refused
    rw [Prog.bind_error _ ran]
    exact claimed

end

/-- Any other query leaves the slots alone. -/
theorem planQuery_local {srv : ServerConfig} {setting : Setting} (r : RequestRec) (dir : Dir)
    {source : QuerySource} (other : source.reqMethod ≠ .get) :
    Moves (Local (fun _ => True) .localData) (planQuery srv setting r dir source)
      fun q => q.data = .localData := by
  have set (tab : Ndb.Table) : Moves (Local (fun _ => True) .localData)
      (setUpMethod srv r dir source (.init tab)) fun q => q.data = .localData := by
    unfold setUpMethod
    cases method : source.reqMethod with
    | get => exact absurd method other
    | post =>
      exact (getForm_moves source _).bind fun form _ =>
        Moves.pure ((setUpPost_data r dir form _).trans rfl)
    | delete => exact Moves.ite (fun _ => Moves.pure rfl) fun _ => refuse_moves _ _ _ _
    | other => exact refuse_moves _ _ _ _
  apply (getTable_moves setting .localData).bind
  intro tab _
  apply (set tab).bind
  intro q slot
  exact Moves.ite (fun _ => Moves.fail _) fun _ => Moves.pure ((findPlan_data r dir q).trans slot)

section
variable {srv : ServerConfig} {setting : Setting} {r : RequestRec} {dir : Dir} {w v : World}
  {outcome : Except Stop Unit}

theorem queryBody_kept {source : QuerySource} (other : source.reqMethod ≠ .get)
    (ran : queryBody srv setting r dir source w = (outcome,v)) : Grown .localData 0 w v := by
  have body : Moves (Grown .localData 0) (queryBody srv setting r dir source) fun _ => True := by
    apply (moves_grown (planQuery_local r dir other)).bind
    intro q slot
    apply (openTransaction_grown setting .localData).bind
    intro _ _
    rw [← slot]
    have defined : Moves (Local (fun _ => True) q.data) (defineOperation setting dir source q) _ :=
      defineOperation_local setting dir q (fun _ _ _ => trivial) (fun _ _ _ => trivial) source
    rw [slot] at defined ⊢
    exact moves_grown defined
  have grown := (body w).1
  rwa [ran] at grown

/-- A read that does not enter has no slot. -/
theorem queryBody_early (outside : ¬Enters srv setting dir (sourceOf r) w)
    (ran : queryBody srv setting r dir (sourceOf r) w = (outcome,v)) : Grown .localData 0 w v := by
  obtain ⟨⟨stop,stopped,_⟩,moved⟩ :=
    planQuery_rejects srv setting r dir (sourceOf r) (fun _ => formData_notClosing r) outside
  rcases planned : planQuery srv setting r dir (sourceOf r) w with ⟨first,u⟩
  rw [planned] at stopped moved
  replace stopped : first = .error stop := stopped
  subst stopped
  unfold queryBody at ran
  rw [Prog.bind_error _ planned] at ran
  cases ran
  exact moved.grown

variable (stale : Nat → Option Nat)

theorem cleanup_mirrors (s : Results) (i : Instance) : Mirrors (s.cleanup stale) i.cleanup :=
  ⟨rfl,fun _ _ none => by cases none⟩

def Results.settle (keeps : Bool) (s : Results) : Results := if keeps then s else s.cleanup stale

theorem giveUp_mirrors {s : Results} (mirrors : Mirrors s v.inst) (keeps : Bool) :
    Mirrors (s.settle stale keeps) (v.giveUp keeps).inst := by
  cases keeps with
  | true => exact ⟨mirrors.used,mirrors.shape⟩
  | false => exact cleanup_mirrors stale s {v.inst with tx := none}

theorem executeAll_mirrors {ndb : Ndb.Answers} {rendering : Rendering} {status : Int} (s : Results)
    (ran : executeAll srv ndb rendering r w = (.ok status,v)) : Mirrors (s.cleanup stale) v.inst := by
  unfold executeAll at ran
  obtain ⟨_,u,_,ran⟩ := Prog.bind_inv ran
  cases ran
  exact cleanup_mirrors stale s u.inst

/-- The end of a query that does not return early keeps the slots or cleans them up, and a
subrequest answers 0 exactly if it is not given up. -/
theorem query_settles {source : QuerySource} {s : Results} {last : World} {status : Int}
    (body : queryBody srv setting r dir source w = (outcome,v))
    (inside : ∀ stop, outcome = .error stop → IsInside stop) (mirrors : Mirrors s v.inst)
    (ran : query srv setting r dir source w = (.ok status,last)) :
    Mirrors (s.settle stale source.keepTxOpen) last.inst ∧
      (source.keepTxOpen = true → (status = 0 ↔ outcome = .ok ())) := by
  have failed (code : Int) : (if code = 0 then 500 else code) ≠ 0 := by
    split
    · decide
    · assumption
  unfold query at ran
  rw [body] at ran
  cases outcome with
  | ok =>
    dsimp only at ran
    cases keeps : source.keepTxOpen with
    | true =>
      rw [keeps,if_pos rfl] at ran
      cases ran
      exact ⟨mirrors,fun _ => iff_of_true rfl rfl⟩
    | false =>
      rw [keeps,if_neg Bool.false_ne_true] at ran
      exact ⟨executeAll_mirrors stale s ran,nofun⟩
  | error stop =>
    cases stop with
    | crash => cases ran
    | returns => exact (inside _ rfl).elim
    | abort1 code =>
      dsimp only at ran
      obtain ⟨_,u,closed,ran⟩ := Prog.bind_inv ran
      rw [abort_run] at ran
      cases ran
      have settled := (closeTx_executes v).1.settled
      rw [closed] at settled
      exact ⟨giveUp_mirrors stale (mirrors.kept (settled.grown (d := .localData))) _,fun _ =>
        iff_of_false (failed code) nofun⟩
    | abort2 code =>
      dsimp only at ran
      rw [abort_run] at ran
      cases ran
      exact ⟨giveUp_mirrors stale mirrors _,fun _ => iff_of_false (failed code) nofun⟩

theorem release_mirrors {s : Results} {i : Instance} (mirrors : Mirrors s i) (k : Nat) :
    Mirrors (s.release k) i where
  used := (List.length_modify _ _ _).trans mirrors.used
  shape n slot there := by
    replace there : (s.data.modify k fun slot => {slot with released := true})[n]? = some slot := there
    rw [List.getElem?_modify] at there
    obtain ⟨old,same,rfl⟩ := Option.map_eq_some_iff.mp there
    have kept := mirrors.shape n old same
    split
    · exact kept
    · exact kept

theorem readKept_mirrors {s : Results} {i : Instance} {op : ReadOp} (mirrors : Mirrors (s.read op) i) :
    Mirrors (s.readKept op) i := by
  obtain ⟨n,completes⟩ := op
  cases completes with
  | true => exact mirrors
  | false => exact release_mirrors (s := s.claim n) mirrors s.data.length

theorem readTop_read (s : Results) (op : ReadOp) : s.readTop stale op = (s.read op).cleanup stale := by
  unfold Results.readTop Results.read
  split <;> rfl

/-- What a query that reads makes of the results, as a subrequest or at the top. -/
def Results.readBy (keeps : Bool) (s : Results) (op : ReadOp) : Results :=
  if keeps then s.readKept op else s.readTop stale op

theorem settle_readBy {s : Results} {i : Instance} {op : ReadOp} (keeps : Bool)
    (settled : Mirrors ((s.read op).settle stale keeps) i) : Mirrors (s.readBy stale keeps op) i := by
  cases keeps with
  | true => exact readKept_mirrors settled
  | false =>
    change Mirrors (s.readTop stale op) i
    rw [readTop_read]
    exact settled

/-- A read does to the slots what the model of results says, up to the end of the operation and
behind it. -/
theorem query_reads {source : QuerySource} {tab : Ndb.Table} {s : Results} {last : World} {status : Int}
    (get : source.reqMethod = .get) (found : setting.ndb.table = some tab)
    (room : w.inst.nReadOps < srv.maxReadOperations) (mirrors : Mirrors s w.inst)
    (ran : query srv setting r dir source w = (.ok status,last)) :
    let body := queryBody srv setting r dir source w
    let op : ReadOp := ⟨(readCols dir tab).length,body.1.isOk⟩
    Mirrors (s.read op) body.2.inst ∧ Mirrors (s.readBy stale source.keepTxOpen op) last.inst ∧
      (source.keepTxOpen = true → (op.completes = true ↔ status = 0)) := by
  have ends := queryBody_reads r dir get found room mirrors
  rcases body : queryBody srv setting r dir source w with ⟨outcome,u⟩
  rw [body] at ends
  dsimp only
  have inside : ∀ stop, outcome = .error stop → IsInside stop := by
    rintro stop rfl
    cases stop with
    | returns => exact ends.elim
    | crash | abort1 | abort2 => trivial
  have read : Mirrors (s.read ⟨(readCols dir tab).length,outcome.isOk⟩) u.inst := by
    cases outcome with
    | ok => exact ends
    | error stop =>
      cases stop with
      | crash =>
        unfold query at ran
        rw [body] at ran
        cases ran
      | returns => exact ends.elim
      | abort1 => exact ends
      | abort2 => exact ends
  obtain ⟨settled,answers⟩ := query_settles stale body inside read ran
  refine ⟨read,settle_readBy stale _ settled,fun keeps => Iff.trans ?_ (answers keeps).symm⟩
  cases outcome with
  | ok => exact iff_of_true rfl rfl
  | error stop => exact iff_of_false Bool.false_ne_true nofun

end

def Request.Reads (op : ReadOp) : Request → Prop
  | .query setting r dir => (sourceOf r).reqMethod = .get ∧
      ∃ tab, setting.ndb.table = some tab ∧ op.nResultCols = (readCols dir tab).length
  | .execBatch _ _ => False

section
variable {srv : ServerConfig} {request : Request} {s : Results} {w v : World} {status : Int}

/-- A query that reads nothing leaves the slots to the end of its batch. -/
theorem query_idle {setting : Setting} {r : RequestRec} {dir : Dir} (subrequest : r.main = true)
    (mirrors : Mirrors s w.inst)
    (idle : (sourceOf r).reqMethod ≠ .get ∨ ¬Enters srv setting dir (sourceOf r) w)
    (ran : query srv setting r dir (sourceOf r) w = (.ok status,v)) : Mirrors s v.inst := by
  rcases body : queryBody srv setting r dir (sourceOf r) w with ⟨outcome,u⟩
  have kept : Grown .localData 0 w u := by
    rcases idle with other | outside
    · exact queryBody_kept other body
    · exact queryBody_early outside body
  by_cases early : ∃ code, outcome = .error (.returns code)
  · obtain ⟨code,rfl⟩ := early
    unfold query at ran
    rw [body] at ran
    cases ran
    exact mirrors.kept kept
  · have inside : ∀ stop, outcome = .error stop → IsInside stop := by
      rintro stop rfl
      cases stop with
      | returns code => exact (early ⟨code,rfl⟩).elim
      | crash | abort1 | abort2 => trivial
    have settled := (query_settles (fun _ => none) body inside (mirrors.kept kept) ran).1
    rw [sourceOf_keeps subrequest] at settled
    exact settled

/-- A subrequest takes a slot and reads, or leaves the slots alone. -/
theorem serve_mirrors (subrequest : request.IsSubrequest) (mirrors : Mirrors s w.inst)
    (ran : serve srv request w = (.ok status,v)) :
    Mirrors s v.inst ∨ ∃ op, request.Reads op ∧ (op.completes = true ↔ status = 0) ∧
      Mirrors (s.readKept op) v.inst := by
  cases request with
  | execBatch => exact subrequest.elim
  | query setting r dir =>
    have counted : Mirrors s w.next.count.inst := ⟨mirrors.used,mirrors.shape⟩
    by_cases bare : dir.database = none ∨ dir.table = none
    · rw [serve_bare srv setting r dir w bare] at ran
      cases ran
      exact .inl ⟨mirrors.used,mirrors.shape⟩
    obtain ⟨database,table⟩ := not_or.mp bare
    rw [serve_query srv setting r dir w database table] at ran
    by_cases reads : (sourceOf r).reqMethod = .get ∧ Enters srv setting dir (sourceOf r) w.next.count
    · obtain ⟨get,found,_,room⟩ := reads
      obtain ⟨tab,found⟩ := Option.ne_none_iff_exists'.mp found
      obtain ⟨_,kept,answers⟩ := query_reads (fun _ => none) get found (room get) counted ran
      rw [sourceOf_keeps subrequest] at kept answers
      exact .inr ⟨_,⟨get,tab,found,rfl⟩,answers rfl,kept⟩
    · exact .inl (query_idle subrequest counted (not_and_or.mp reads) ran)

/-- The slots that subrequests leave for the end of a batch are those of the reads among them, one
after another. -/
theorem run_mirrors {requests : List Request}
    (subrequests : ∀ request ∈ requests, request.IsSubrequest) (mirrors : Mirrors s w.inst)
    (ran : run srv requests w = (.ok (),v)) :
    ∃ reads : List (Request × ReadOp), (reads.map Prod.fst).Sublist requests ∧
      (∀ read ∈ reads, read.1.Reads read.2) ∧
      Mirrors ((reads.map Prod.snd).foldl Results.readKept s) v.inst := by
  induction requests generalizing s w with
  | nil =>
    cases ran
    exact ⟨[],List.Sublist.refl _,fun _ none => absurd none List.not_mem_nil,mirrors⟩
  | cons request requests ih =>
    obtain ⟨_,u,first,rest⟩ := Prog.bind_inv ran
    obtain ⟨status,_,served,last⟩ := Prog.bind_inv first
    cases last
    have later := fun request inside => subrequests request (List.mem_cons_of_mem _ inside)
    rcases serve_mirrors (subrequests _ List.mem_cons_self) mirrors served with same | ⟨op,reads,_,kept⟩
    · obtain ⟨others,among,each,final⟩ := ih later same rest
      exact ⟨others,among.cons _,each,final⟩
    · obtain ⟨others,among,each,final⟩ := ih later kept rest
      exact ⟨(request,op)::others,among.cons_cons _,List.forall_mem_cons.mpr ⟨reads,each⟩,final⟩

theorem begin_mirrors {i : Instance} (none : i.nReadOps = 0) (made : Nat) (live : List Nat) :
    Mirrors (Results.begin made live) i :=
  ⟨none.symm,fun _ _ slot => by cases slot⟩

/-- A batch that is executed is a batch of the model of results: its reads are those of the
subrequests, and the slots are its slots when they are cleaned up. -/
theorem batch_mirrors {requests : List Request} {setting : Setting} {r : RequestRec} {u : World}
    (subrequests : ∀ request ∈ requests, request.IsSubrequest) (fresh : w.inst.nReadOps = 0)
    (ran : run srv requests w = (.ok (),v))
    (executed : serve srv (.execBatch setting r) v = (.ok status,u)) (stale : Nat → Option Nat)
    (made : Nat) (live : List Nat) :
    ∃ batch : ReadBatch, batch.top = none ∧
      (∀ op ∈ batch.kept, ∃ request ∈ requests, request.Reads op) ∧
      Mirrors (batch.kept.foldl Results.readKept (Results.begin made live)) v.inst ∧
      Mirrors (batch.run stale (Results.begin made live)) u.inst := by
  obtain ⟨reads,among,each,slots⟩ := run_mirrors subrequests (begin_mirrors fresh made live) ran
  refine ⟨⟨reads.map Prod.snd,none⟩,rfl,fun op inside => ?_,slots,?_⟩
  · obtain ⟨read,listed,rfl⟩ := List.mem_map.mp inside
    exact ⟨read.1,among.subset (List.mem_map_of_mem listed),each read listed⟩
  · exact executeAll_mirrors stale _ (w := v.next.count) executed

end

end ModNdb.Query
