import ModNdb.Query.Frame

/-! Two runs of a query side by side. Worlds may differ in calls that are hidden, and the items
of a query in the list of filters and the form data. -/
namespace ModNdb.Query
open Config (Dir)
open MySQL (DictColumn Mvalue)
open Prog (Agrees Turns)

def Event.hidden (hides : Ndb.Call → Bool) : Event → Bool
  | .filter _ _ c => hides c
  | _ => false

/-- Worlds that differ in hidden calls and their events at most. -/
structure Seen (hides : Ndb.Call → Bool) (w w' : World) : Prop where
  inst : w'.inst = w.inst
  transactions : w'.transactions = w.transactions
  request : w'.request = w.request
  queued : w'.queued = w.queued
  calls : w'.calls.filter (fun c => !hides c) = w.calls.filter fun c => !hides c
  trace : w'.trace.filter (fun e => !e.hidden hides) = w.trace.filter fun e => !e.hidden hides

/-- What NDB refuses does not depend on the calls that are hidden. -/
def Ignores (ndb : Ndb.Answers) (hides : Ndb.Call → Bool) : Prop :=
  ∀ calls calls' : List Ndb.Call, calls'.filter (fun c => !hides c) = calls.filter (fun c => !hides c) →
    ndb.refuses calls' = ndb.refuses calls

def Items.besides (q : Items) (filters : List Nat) (form : FormTable) : Items :=
  {q with filterList := filters, form := form}

def Items.extras (q : Items) : List Nat × FormTable := (q.filterList,q.form)

structure Like (extras : List Nat × FormTable) (filters : List Nat) (form : FormTable)
    (q q' : Items) : Prop where
  extras : q.extras = extras
  same : q' = q.besides filters form

section
variable {hides : Ndb.Call → Bool}

theorem Seen.refl (w : World) : Seen hides w w := ⟨rfl,rfl,rfl,rfl,rfl,rfl⟩

theorem Seen.setInst {w w' : World} (seen : Seen hides w w') (f : Instance → Instance) :
    Seen hides {w with inst := f w.inst} {w' with inst := f w'.inst} :=
  ⟨congrArg f seen.inst,seen.transactions,seen.request,seen.queued,seen.calls,seen.trace⟩

theorem Seen.emit {w w' : World} (seen : Seen hides w w') (event : Event) :
    Seen hides {w with trace := w.trace ++ [event]} {w' with trace := w'.trace ++ [event]} where
  inst := seen.inst
  transactions := seen.transactions
  request := seen.request
  queued := seen.queued
  calls := seen.calls
  trace := by
    dsimp only
    rw [List.filter_append,List.filter_append,seen.trace]

theorem Seen.called {w w' : World} (seen : Seen hides w w') (c : Ndb.Call) :
    Seen hides {w with calls := w.calls ++ [c]} {w' with calls := w'.calls ++ [c]} where
  inst := seen.inst
  transactions := seen.transactions
  request := seen.request
  queued := seen.queued
  calls := by
    dsimp only
    rw [List.filter_append,List.filter_append,seen.calls]
  trace := seen.trace

theorem emit_agrees {ε : Type} (event : Event) :
    Agrees (Seen hides) (emit event : Prog ε World Unit) (emit event) Eq :=
  Agrees.modify rfl fun _ _ seen => seen.emit event

theorem setInst_agrees (f : Instance → Instance) :
    Agrees (Seen hides) (setInst f) (setInst f) Eq :=
  Agrees.modify rfl fun _ _ seen => seen.setInst f

theorem handleError_agrees (status : Int) (error : Option Ndb.Error) (msg : Option Text) :
    Agrees (Seen hides) (handleError status error msg) (handleError status error msg) Eq := by
  unfold handleError
  cases errorText status error msg with
  | none => exact Agrees.fail _
  | some content => exact (emit_agrees _).bind fun _ _ _ => Agrees.pure rfl

theorem errorPage_agrees (status : Int) (error : Option Ndb.Error) (msg : Option Text) :
    Agrees (Seen hides) (errorPage status error msg) (errorPage status error msg) Eq := by
  intro w w' seen
  unfold errorPage handleError
  cases errorText status error msg with
  | none => exact ⟨rfl,seen⟩
  | some content => exact ⟨rfl,seen.emit _⟩

theorem refuse_agrees {α β : Type} {P : α → β → Prop} (status : Int) (error : Option Ndb.Error)
    (msg : Option Text) : Agrees (Seen hides) (refuse status error msg) (refuse status error msg) P := by
  refine (errorPage_agrees status error msg).bind fun rc rc' same => ?_
  rw [same]
  exact Agrees.fail _

theorem setData_agrees (d : DataRef) (q q' : Items) (data : q.data = d) (data' : q'.data = d)
    (f : DataOperation → DataOperation) :
    Agrees (Seen hides) (setData q f) (setData q' f) Eq := by
  unfold setData
  rw [data,data']
  cases d with
  | localData => exact Agrees.pure rfl
  | slot n => exact setInst_agrees _

theorem mvalIsUsable_agrees {R : World → World → Prop} (mval : Mvalue) :
    Agrees R (mvalIsUsable mval) (mvalIsUsable mval) Eq := by
  unfold mvalIsUsable
  apply Agrees.ite
  · exact fun _ => Agrees.pure rfl
  · intro _
    cases mval.useValue with
    | errBadUserValue | errBadColumn | errBadDataType => exact Agrees.pure rfl
    | _ => exact Agrees.fail _

section
variable (setting : Setting) (dir : Dir)

theorem getIndex_agrees (name : Text) :
    Agrees (Seen hides) (getIndex setting name) (getIndex setting name) Eq := by
  unfold getIndex
  cases setting.ndb.index name with
  | none => exact Agrees.fail _
  | some idx => exact Agrees.pure rfl

variable (q : Items) {extras : List Nat × FormTable} (kept : q.extras = extras) (filters : List Nat)
  (form : FormTable)

include kept in
theorem indexOfType_agrees (name : Text) (type : Ndb.IndexType) (kind : IndexKind) :
    Agrees (Seen hides) (indexOfType setting name type kind q)
      (indexOfType setting name type kind (q.besides filters form)) (Like extras filters form) := by
  apply (getIndex_agrees setting name).bind
  rintro idx _ rfl
  apply Agrees.ite
  · exact fun _ => Agrees.fail _
  · exact fun _ => Agrees.pure ⟨kept,rfl⟩

include kept in
theorem chooseIndex_agrees :
    Agrees (Seen hides) (chooseIndex setting dir q) (chooseIndex setting dir (q.besides filters form))
      (Like extras filters form) := by
  apply Agrees.ite (c := q.plan = .scan)
  · intro _
    cases dir.indexScan.name with
    | none => exact Agrees.pure ⟨kept,rfl⟩
    | some name => exact indexOfType_agrees setting q kept filters form _ _ _
  intro _
  apply Agrees.ite (c := q.plan = .primaryKey)
  · exact fun _ => Agrees.pure ⟨kept,rfl⟩
  intro _
  dsimp only [Items.besides]
  cases active : q.activeIndex with
  | none => exact Agrees.fail _
  | some n =>
    dsimp only
    cases dir.indexes[n]? with
    | none => exact Agrees.fail _
    | some index =>
      apply Agrees.ite
      · exact fun _ => active ▸ indexOfType_agrees setting q kept filters form _ _ _
      intro _
      apply Agrees.ite
      · exact fun _ => active ▸ indexOfType_agrees setting q kept filters form _ _ _
      intro _
      apply (getIndex_agrees setting _).bind
      rintro idx _ rfl
      exact Agrees.pure ⟨kept,by rw [← active]; rfl⟩

include kept in
theorem getNdbOperation_agrees :
    Agrees (Seen hides) (getNdbOperation setting q) (getNdbOperation setting (q.besides filters form))
      (Like extras filters form) := by
  apply Agrees.get
  intro w w' seen
  rw [seen.inst]
  dsimp only [Items.besides]
  cases made : q.idxobj with
  | none => exact Agrees.fail _
  | some obj =>
    cases w.inst.tx with
    | none => exact Agrees.fail _
    | some t =>
      apply Agrees.ite
      · intro _
        have added : Agrees (Seen hides) (Prog.modify (World.addOperation t) : Querying Unit)
            (Prog.modify (World.addOperation t)) Eq :=
          Agrees.modify rfl fun u u' seen => ⟨seen.inst,by
            unfold World.addOperation
            rw [seen.transactions,seen.request],seen.request,seen.queued,seen.calls,seen.trace⟩
        apply added.bind
        intro _ _ _
        rw [seen.request]
        apply (setData_agrees q.data _ _ rfl rfl _).bind
        intro _ _ _
        exact Agrees.pure ⟨kept,rfl⟩
      · exact fun _ => Agrees.fail _

theorem getColumn_agrees (baseColName : Option Text) (relOp : Nat) :
    Agrees (Seen hides) (getColumn q baseColName relOp)
      (getColumn (q.besides filters form) baseColName relOp) Eq := by
  have same : getColumn (q.besides filters form) baseColName relOp = getColumn q baseColName relOp := rfl
  rw [same]
  unfold getColumn
  cases q.idxobj with
  | none => exact Agrees.fail _
  | some obj =>
    dsimp only
    cases obj.kind with
    | pk =>
      dsimp only
      cases (q.tab.primaryKeys[obj.keyPart]?).bind q.tab.column with
      | none => exact Agrees.fail _
      | some col => exact Agrees.pure rfl
    | unique => exact Agrees.pure rfl
    | ordered =>
      dsimp only
      split
      · exact Agrees.fail _
      · exact Agrees.pure rfl
      · exact Agrees.pure rfl
    | tableScan => exact Agrees.fail _

theorem nextKeyPart_besides : nextKeyPart (q.besides filters form) =
    ((nextKeyPart q).1,(nextKeyPart q).2.besides filters form) := by
  rcases q with ⟨tab,idx,keys,activeIndex,idxobj,used,list,plan,opSetup,opAction,setVals,data,table⟩
  cases idxobj with
  | none => rfl
  | some obj =>
    unfold nextKeyPart Items.besides
    dsimp only
    split <;> rfl

theorem nextKeyPart_extras : (nextKeyPart q).2.extras = q.extras := by
  unfold nextKeyPart
  cases q.idxobj with
  | none => rfl
  | some obj =>
    dsimp only
    split <;> rfl

end

/-- Relations between worlds that the rest of a query keeps, once its operation is set up. -/
structure Suffices (setting : Setting) (R : World → World → Prop) : Prop where
  calls : ∀ c, Agrees R (call setting c) (call setting c) Eq
  pages : ∀ status error msg, Agrees R (errorPage status error msg) (errorPage status error msg) Eq
  stores : ∀ f, Agrees R (setInst f) (setInst f) Eq

section
variable {R : World → World → Prop} {setting : Setting} (acts : Suffices setting R)
include acts

theorem writeColumn_agrees (mval : Mvalue) (col : DictColumn) :
    Agrees R (writeColumn setting mval col) (writeColumn setting mval col) Eq := by
  have calls := acts.calls
  apply (mvalIsUsable_agrees mval).bind
  rintro usable _ rfl
  apply Agrees.ite
  · intro _
    cases mval.useValue with
    | useAutoinc =>
      cases setting.ndb.autoInc with
      | none => exact Agrees.pure rfl
      | some next => exact calls _
    | useInterpreted =>
      cases mval.interpreted with
      | notInterpreted => exact Agrees.fail _
      | isIncrement => exact calls _
      | isDecrement => exact calls _
    | useBlob => exact Agrees.ite (fun _ => calls _) fun _ => Agrees.fail _
    | _ => exact calls _
  · exact fun _ => Agrees.pure rfl

theorem writeColumns_agrees (mvals : List Mvalue) (eqr : Int) :
    Agrees R (writeColumns setting mvals eqr) (writeColumns setting mvals eqr) Eq := by
  induction mvals generalizing eqr with
  | nil => exact Agrees.pure rfl
  | cons mval mvals ih =>
    unfold writeColumns
    cases mval.column with
    | none => exact ih eqr
    | some col =>
      apply (writeColumn_agrees acts mval col).bind
      rintro failed _ rfl
      apply Agrees.ite
      · exact fun _ => acts.pages _ _ _
      · exact fun _ => ih 0

theorem newResult_agrees (col : DictColumn) :
    Agrees R (newResult setting col) (newResult setting col) Eq := by
  apply Agrees.ite
  · exact fun _ => Agrees.ite (fun _ => acts.calls _) fun _ => Agrees.fail _
  · exact fun _ => acts.calls _

variable (dir : Dir) (q : Items) (filters : List Nat) (form : FormTable)

theorem readColumns_agrees (cols : List (Option DictColumn)) :
    Agrees R (readColumns setting q cols) (readColumns setting (q.besides filters form) cols) Eq := by
  induction cols with
  | nil => exact Agrees.pure rfl
  | cons col cols ih =>
    cases col with
    | none => exact Agrees.fail _
    | some col =>
      apply (newResult_agrees acts col).bind
      intro _ _ _
      have stored (f : DataOperation → DataOperation) :
          Agrees R (setData q f) (setData (q.besides filters form) f) Eq := by
        unfold setData Items.besides
        dsimp only
        cases q.data with
        | localData => exact Agrees.pure rfl
        | slot n => exact acts.stores _
      exact (stored _).bind fun _ _ _ => ih

theorem opAction_agrees :
    Agrees R (opAction setting dir q) (opAction setting dir (q.besides filters form)) Eq := by
  unfold opAction
  have action : (q.besides filters form).opAction = q.opAction := rfl
  rw [action]
  cases q.opAction with
  | read => exact (readColumns_agrees acts q filters form _).bind fun _ _ _ => Agrees.pure rfl
  | write => exact writeColumns_agrees acts _ _
  | delete => exact Agrees.pure rfl

end

section
variable (setting : Setting) (ignores : Ignores setting.ndb hides) (dir : Dir) (q : Items)
  {extras : List Nat × FormTable} (filters : List Nat) (form : FormTable)

section
include ignores

theorem call_agrees (c : Ndb.Call) :
    Agrees (Seen hides) (call setting c) (call setting c) Eq := by
  intro w w' seen
  have calls := (seen.called c).calls
  exact ⟨(ignores _ _ calls).symm,seen.called c⟩

theorem readSetup_agrees :
    Agrees (Seen hides) (readSetup setting dir q) (readSetup setting dir (q.besides filters form)) Eq := by
  have same : readSetup setting dir (q.besides filters form) = readSetup setting dir q := rfl
  rw [same]
  unfold readSetup
  apply Agrees.ite
  · intro _
    cases dir.indexScan.name with
    | none => exact call_agrees setting ignores _
    | some name => exact call_agrees setting ignores _
  intro _
  apply Agrees.ite
  · intro _
    cases q.activeIndex.bind fun n => dir.indexes[n]? with
    | none => exact Agrees.fail _
    | some index => exact call_agrees setting ignores _
  · exact fun _ => call_agrees setting ignores _

end

/-- What is set up is alike if the form data have the same values for updatable columns. -/
def Agreeing (dir : Dir) (form form' : FormTable) : Prop :=
  ∀ key ∈ dir.updatable, form'.getItem key = form.getItem key

theorem updateValue_besides (agreeing : Agreeing dir q.form form) :
    List.zipWith (updateValue setting (q.besides filters form)) dir.updatable
        (q.besides filters form).setVals =
      List.zipWith (updateValue setting q) dir.updatable q.setVals := by
  unfold Agreeing at agreeing
  have vals : (q.besides filters form).setVals = q.setVals := rfl
  rw [vals]
  generalize q.setVals = vals
  revert agreeing
  induction dir.updatable generalizing vals with
  | nil => exact fun _ => rfl
  | cons key keys ih =>
    intro agreeing
    cases vals with
    | nil => rfl
    | cons val vals =>
      rw [List.zipWith_cons_cons,List.zipWith_cons_cons,
        ih vals fun key later => agreeing key (List.mem_cons_of_mem _ later)]
      congr 1
      unfold updateValue
      have same : (q.besides filters form).form.getItem key = q.form.getItem key :=
        agreeing key List.mem_cons_self
      rw [same]
      rfl

include ignores

theorem setUpWrite_agrees (kept : q.extras = extras) (agreeing : Agreeing dir extras.2 form)
    (isInsert : Bool) :
    Agrees (Seen hides) (setUpWrite setting dir q isInsert)
      (setUpWrite setting dir (q.besides filters form) isInsert)
      fun result result' => result.1 = result'.1 ∧ Like extras filters form result.2 result'.2 := by
  unfold setUpWrite
  have posted : q.form = extras.2 := congrArg Prod.snd kept
  rw [updateValue_besides setting dir q filters form (posted ▸ agreeing)]
  apply (call_agrees setting ignores _).bind
  rintro refused _ rfl
  exact Agrees.pure ⟨rfl,kept,rfl⟩

theorem opSetup_agrees (kept : q.extras = extras) (agreeing : Agreeing dir extras.2 form) :
    Agrees (Seen hides) (opSetup setting dir q) (opSetup setting dir (q.besides filters form))
      fun result result' => result.1 = result'.1 ∧ Like extras filters form result.2 result'.2 := by
  unfold opSetup
  have same : (q.besides filters form).opSetup = q.opSetup := rfl
  rw [same]
  cases q.opSetup with
  | read =>
    apply (readSetup_agrees setting ignores dir q filters form).bind
    rintro refused _ rfl
    exact Agrees.pure ⟨rfl,kept,rfl⟩
  | write => exact setUpWrite_agrees setting ignores dir q filters form kept agreeing _
  | insert => exact setUpWrite_agrees setting ignores dir q filters form kept agreeing _
  | delete =>
    apply (call_agrees setting ignores _).bind
    rintro refused _ rfl
    exact Agrees.pure ⟨rfl,kept,rfl⟩

theorem handPart_agrees (n : Option Nat) (value : Option Text) (usable : Bool) (c : Ndb.Call) :
    Agrees (Seen hides) (handPart setting n value usable c) (handPart setting n value usable c) Eq := by
  apply Agrees.ite
  · intro _
    have noted : Agrees (Seen hides) (n.forM fun n => emit (.keyPart n value c) : Querying Unit)
        (n.forM fun n => emit (.keyPart n value c)) Eq := by
      cases n with
      | none => exact Agrees.pure rfl
      | some n => exact emit_agrees _
    exact noted.bind fun _ _ _ => call_agrees setting ignores c
  · exact fun _ => Agrees.pure rfl

theorem setPart_agrees (kept : q.extras = extras) (n : Option Nat) (baseColName : Option Text)
    (relOp : Nat) (value : Option Text) (mval : Mvalue) :
    Agrees (Seen hides) (setPart setting n baseColName relOp value mval q)
      (setPart setting n baseColName relOp value mval (q.besides filters form))
      fun result result' => result.1 = result'.1 ∧ Like extras filters form result.2 result'.2 := by
  apply (getColumn_agrees q filters form baseColName relOp).bind
  rintro ⟨col,make⟩ _ rfl
  apply (mvalIsUsable_agrees _).bind
  rintro usable _ rfl
  apply (handPart_agrees setting ignores n value usable _).bind
  rintro refused _ rfl
  apply Agrees.ite
  · intro _
    apply (errorPage_agrees _ _ _).bind
    rintro rc _ rfl
    exact Agrees.fail _
  · exact fun _ => Agrees.pure ⟨rfl,kept,rfl⟩

theorem setKeyParts_agrees (kept : q.extras = extras) (used : Nat) (col : Option Nat) (mval : Mvalue) :
    Agrees (Seen hides) (setKeyParts setting dir used col mval q)
      (setKeyParts setting dir used col mval (q.besides filters form))
      fun result result' => result.1 = result'.1 ∧ Like extras filters form result.2 result'.2 := by
  induction used generalizing col mval q with
  | zero => exact Agrees.pure ⟨rfl,kept,rfl⟩
  | succ used ih =>
    cases col with
    | none => exact Agrees.pure ⟨rfl,kept,rfl⟩
    | some col =>
      unfold setKeyParts
      cases dir.keyColumns[col]? with
      | none => exact Agrees.fail _
      | some keycol =>
        apply (setPart_agrees setting ignores q filters form kept _ _ _ _ mval).bind
        rintro ⟨mval,q₁⟩ ⟨mval',q₂⟩ ⟨same,kept₁,like⟩
        replace same : mval = mval' := same
        replace like : q₂ = q₁.besides filters form := like
        subst same like
        dsimp only
        rw [nextKeyPart_besides]
        have kept₂ : (nextKeyPart q₁).2.extras = extras := (nextKeyPart_extras q₁).trans kept₁
        apply Agrees.ite
        · exact fun _ => ih _ kept₂ _ _
        · exact fun _ => Agrees.pure ⟨rfl,kept₂,rfl⟩

theorem setConstants_agrees (kept : q.extras = extras) (constants : List Config.Constant)
    (mval : Mvalue) :
    Agrees (Seen hides) (setConstants setting constants mval q)
      (setConstants setting constants mval (q.besides filters form))
      fun result result' => result.1 = result'.1 ∧ Like extras filters form result.2 result'.2 := by
  induction constants generalizing mval q with
  | nil => exact Agrees.pure ⟨rfl,kept,rfl⟩
  | cons constant constants ih =>
    apply (setPart_agrees setting ignores q filters form kept _ _ _ _ mval).bind
    rintro ⟨mval,q₁⟩ ⟨mval',q₂⟩ ⟨same,kept₁,like⟩
    replace same : mval = mval' := same
    replace like : q₂ = q₁.besides filters form := like
    subst same like
    exact ih _ kept₁ _

theorem setIndexParts_agrees (kept : q.extras = extras) (mval : Mvalue) :
    Agrees (Seen hides) (setIndexParts setting dir mval q)
      (setIndexParts setting dir mval (q.besides filters form))
      fun result result' => result.1 = result'.1 ∧ Like extras filters form result.2 result'.2 := by
  unfold setIndexParts
  have plan : (q.besides filters form).plan = q.plan := rfl
  have active : (q.besides filters form).activeIndex = q.activeIndex := rfl
  have used : (q.besides filters form).keyColumnsUsed = q.keyColumnsUsed := rfl
  rw [plan,active,used]
  cases if q.plan = .scan then none else q.activeIndex with
  | none => exact Agrees.pure ⟨rfl,kept,rfl⟩
  | some n =>
    dsimp only
    cases dir.indexes[n]? with
    | none => exact Agrees.fail _
    | some index =>
      apply (setKeyParts_agrees setting ignores dir q filters form kept _ _ mval).bind
      rintro ⟨mval,q₁⟩ ⟨mval',q₂⟩ ⟨same,kept₁,like⟩
      replace same : mval = mval' := same
      replace like : q₂ = q₁.besides filters form := like
      subst same like
      exact setConstants_agrees setting ignores q₁ filters form kept₁ _ _

theorem seen_suffices : Suffices setting (Seen hides) where
  calls := call_agrees setting ignores
  pages := errorPage_agrees
  stores := setInst_agrees

theorem filterCmp_agrees (n : Nat) (c : Ndb.Call) :
    Agrees (Seen hides) (filterCmp setting q n c) (filterCmp setting (q.besides filters form) n c) Eq :=
  (emit_agrees _).bind fun _ _ _ => (call_agrees setting ignores c).bind fun _ _ _ => Agrees.pure rfl

theorem setFilter_agrees (mval : Mvalue) (n : Nat) :
    Agrees (Seen hides) (setFilter setting dir q mval n)
      (setFilter setting dir (q.besides filters form) mval n) Eq := by
  unfold setFilter
  cases dir.keyColumns[n]? with
  | none => exact Agrees.fail _
  | some keycol =>
    dsimp only
    have tab : (q.besides filters form).tab = q.tab := rfl
    rw [tab]
    cases keycol.baseColName.bind q.tab.column with
    | none => exact Agrees.fail _
    | some col =>
      apply Agrees.ite
      · intro _
        have notNull : Agrees (Seen hides) (filterNotNull setting keycol col)
            (filterNotNull setting keycol col) Eq :=
          Agrees.ite (fun _ => call_agrees setting ignores _) fun _ => Agrees.pure rfl
        exact notNull.bind fun _ _ _ => (filterCmp_agrees setting ignores q filters form n _).bind
          fun _ _ _ => Agrees.pure rfl
      · exact fun _ => (filterCmp_agrees setting ignores q filters form n _).bind
          fun _ _ _ => Agrees.pure rfl

theorem setFilters_agrees (listed : List Nat) (mval : Mvalue) :
    Agrees (Seen hides) (setFilters setting dir q listed mval)
      (setFilters setting dir (q.besides filters form) listed mval) Eq := by
  induction listed generalizing mval with
  | nil => exact Agrees.pure rfl
  | cons n rest ih =>
    apply (setFilter_agrees setting ignores dir q filters form mval n).bind
    rintro mval _ rfl
    exact ih mval

/-- Two lists of filters that come to the same, but for what is hidden. -/
def Filtering (hides : Ndb.Call → Bool) (listed filters : List Nat) (form : FormTable) : Prop :=
  ∀ q mval, Agrees (Seen hides) (setFilters setting dir q listed mval)
    (setFilters setting dir (q.besides filters form) filters mval) fun _ _ => True

def setFlag (source : QuerySource) : Querying Unit := setInst fun i => {i with
  jsonrequest := i.jsonrequest ||
    (source.contentType.map fun type => type.map toLower) = some (text "application/jsonrequest")}

variable {S : World → World → Prop} (weaker : ∀ w w', Seen hides w w' → S w w')
  (acts : Suffices setting S) (source source' : QuerySource)
  (flagged : Turns (Seen hides) S (setFlag source) (setFlag source') Eq)
include weaker acts flagged

omit ignores in
theorem useOperation_turns (kept : q.extras = extras)
    (filtering : Filtering setting dir hides extras.1 filters form) (mval : Mvalue) :
    Turns (Seen hides) S (useOperation setting dir source mval q)
      (useOperation setting dir source' mval (q.besides filters form)) Eq := by
  have filtered : Agrees (Seen hides)
      (if 4 ≤ q.plan.value then setFilters setting dir q q.filterList mval else return mval)
      (if 4 ≤ (q.besides filters form).plan.value then
        setFilters setting dir (q.besides filters form) (q.besides filters form).filterList mval
        else return mval) fun _ _ => True := by
    have listed : q.filterList = extras.1 := congrArg Prod.fst kept
    rw [listed]
    exact Agrees.ite (fun _ => filtering q mval) fun _ => Agrees.pure trivial
  apply Turns.bind filtered weaker
  intro _ _ _
  apply flagged.bind fun _ _ => id
  intro _ _ _
  apply Agrees.bind (opAction_agrees acts dir q filters form)
  rintro rc _ rfl
  exact Agrees.ite (fun _ => Agrees.fail _) fun _ => Agrees.pure rfl

/-- Operations that are defined alike, up to a relation that the rest keeps. -/
theorem defineOperation_turns (kept : q.extras = extras) (agreeing : Agreeing dir extras.2 form)
    (filtering : Filtering setting dir hides extras.1 filters form) :
    Turns (Seen hides) S (defineOperation setting dir source q)
      (defineOperation setting dir source' (q.besides filters form)) Eq := by
  rw [defineOperation_eq,defineOperation_eq]
  apply Turns.bind (chooseIndex_agrees setting dir q kept filters form) weaker
  rintro q₁ _ ⟨kept₁,rfl⟩
  apply Turns.bind (getNdbOperation_agrees setting q₁ kept₁ filters form) weaker
  rintro q₂ _ ⟨kept₂,rfl⟩
  apply Turns.bind (opSetup_agrees setting ignores dir q₂ filters form kept₂ agreeing) weaker
  rintro ⟨refused,q₃⟩ ⟨refused',q₃'⟩ ⟨same,kept₃,like⟩
  replace same : refused = refused' := same
  replace like : q₃' = q₃.besides filters form := like
  subst same like
  apply Turns.ite
  · exact fun _ w w' seen => ⟨rfl,weaker w w' seen⟩
  intro _
  apply Turns.bind (setIndexParts_agrees setting ignores dir q₃ filters form kept₃ _) weaker
  rintro ⟨mval,q₄⟩ ⟨mval',q₄'⟩ ⟨same,kept₄,like⟩
  replace same : mval = mval' := same
  replace like : q₄' = q₄.besides filters form := like
  subst same like
  exact useOperation_turns setting dir q₄ filters form weaker acts source source' flagged kept₄
    filtering mval

end

end

end ModNdb.Query
