import ModNdb.Query.FormData
import ModNdb.Query.Methods
import ModNdb.Query.Permuted
import ModNdb.Query.Statuses

/-! What a POST writes: nothing but the columns that AllowUpdate lists, and nothing that depends
on other items of its body. -/
namespace ModNdb.Query
open Config (Dir)
open MySQL (DictColumn Mvalue)
open Prog (Agrees Grows Moves Steps Turns)

def Assigns : Ndb.Call → Bool
  | .setValue _ _ | .setAutoInc _ _ _ | .setNull _ | .incValue _ | .subValue _ | .setBlob _ _ => true
  | _ => false

inductive AssignsTo (col : DictColumn) : Ndb.Call → Prop
  | value (value : Ndb.Passed) : AssignsTo col (.setValue col.no value)
  | autoInc (bytes value : Nat) : AssignsTo col (.setAutoInc col.no bytes value)
  | null : AssignsTo col (.setNull col.no)
  | inc : AssignsTo col (.incValue col.no)
  | sub : AssignsTo col (.subValue col.no)
  | blob (value : Text) : AssignsTo col (.setBlob col.name value)

abbrev Issues (kind : Ndb.Call → Prop) : World → World → Prop := Grows World.calls kind

section
variable {kind : Ndb.Call → Prop}

theorem modify_issues {f : World → World} (same : ∀ w, (f w).calls = w.calls) :
    Steps (Issues kind) (Prog.modify f : Querying Unit) := Steps.modify fun w => .none (same w)

theorem setInst_issues (f : Instance → Instance) : Steps (Issues kind) (setInst f) :=
  modify_issues fun _ => rfl

theorem emit_issues (event : Event) : Steps (Issues kind) (emit event : Querying Unit) :=
  modify_issues fun _ => rfl

theorem errorPage_issues (status : Int) (error : Option Ndb.Error) (msg : Option Text) :
    Steps (Issues kind) (errorPage status error msg) := by
  intro w
  refine ⟨?_,fun _ _ => trivial⟩
  unfold errorPage handleError
  cases errorText status error msg with
  | none => exact .none rfl
  | some content => exact .none rfl

theorem refuse_issues {α : Type} (status : Int) (error : Option Ndb.Error) (msg : Option Text) :
    Steps (Issues kind) (refuse status error msg : Querying α) :=
  (errorPage_issues status error msg).bind fun _ => Steps.fail _

theorem mvalIsUsable_issues (mval : Mvalue) : Steps (Issues kind) (mvalIsUsable mval) := by
  unfold mvalIsUsable
  apply Steps.ite
  · exact Steps.pure _
  · cases mval.useValue with
    | errBadUserValue | errBadColumn | errBadDataType => exact Steps.pure _
    | _ => exact Steps.fail _

section
variable (setting : Setting) (q : Items)

theorem setData_issues (f : DataOperation → DataOperation) : Steps (Issues kind) (setData q f) := by
  unfold setData
  cases q.data with
  | localData => exact Steps.pure _
  | slot n => exact setInst_issues _

theorem call_issues (c : Ndb.Call) (among : kind c) : Steps (Issues kind) (call setting c) :=
  fun _ => ⟨.one rfl among,fun _ _ => trivial⟩

theorem getIndex_issues (name : Text) : Steps (Issues kind) (getIndex setting name) := by
  unfold getIndex
  cases setting.ndb.index name with
  | none => exact Steps.fail _
  | some idx => exact Steps.pure _

theorem indexOfType_issues (name : Text) (type : Ndb.IndexType) (kind' : IndexKind) :
    Steps (Issues kind) (indexOfType setting name type kind' q) :=
  (getIndex_issues setting name).bind fun _ => Steps.ite (Steps.fail _) (Steps.pure _)

theorem chooseIndex_issues (dir : Dir) : Steps (Issues kind) (chooseIndex setting dir q) := by
  unfold chooseIndex
  apply Steps.ite
  · cases dir.indexScan.name with
    | none => exact Steps.pure _
    | some name => exact indexOfType_issues setting q _ _ _
  apply Steps.ite
  · exact Steps.pure _
  cases q.activeIndex with
  | none => exact Steps.fail _
  | some n =>
    dsimp only
    cases dir.indexes[n]? with
    | none => exact Steps.fail _
    | some index =>
      apply Steps.ite
      · exact indexOfType_issues setting q _ _ _
      apply Steps.ite
      · exact indexOfType_issues setting q _ _ _
      · exact (getIndex_issues setting _).bind fun _ => Steps.pure _

theorem getNdbOperation_issues : Steps (Issues kind) (getNdbOperation setting q) := by
  apply Steps.get
  intro w
  cases q.idxobj with
  | none => exact Steps.fail _
  | some obj =>
    cases w.inst.tx with
    | none => exact Steps.fail _
    | some t =>
      apply Steps.ite
      · refine Steps.modifyThen (f := World.addOperation t) (fun _ => .none rfl) ?_
        exact (setData_issues q _).bind fun _ => Steps.pure _
      · exact Steps.fail _

theorem openTransaction_issues : Steps (Issues kind) (openTransaction setting) := by
  apply Steps.get
  intro w
  exact Steps.ite (Steps.ite (Steps.fail _) (Steps.ite (modify_issues fun _ => rfl) (Steps.fail _)))
    (Steps.pure _)

end

section
variable (srv : ServerConfig) (setting : Setting) (r : RequestRec) (dir : Dir) (source : QuerySource)

theorem getTable_issues : Steps (Issues kind) (getTable setting) := by
  unfold getTable
  cases setting.ndb.table with
  | some tab => exact Steps.pure _
  | none => exact (setInst_issues _).bind fun _ => refuse_issues _ _ _

theorem getForm_issues : Steps (Issues kind) (getForm source) := by
  unfold getForm
  cases source.formData with
  | error why => exact Steps.fail _
  | ok read => exact Steps.ite (Steps.pure _) (refuse_issues _ _ _)

theorem setUpMethod_issues (q : Items) : Steps (Issues kind) (setUpMethod srv r dir source q) := by
  unfold setUpMethod
  cases source.reqMethod with
  | get =>
    apply Steps.get
    intro w
    apply Steps.ite
    · exact (modify_issues fun _ => rfl).bind fun _ => Steps.pure _
    · exact refuse_issues _ _ _
  | post => exact (getForm_issues source).bind fun _ => Steps.pure _
  | delete => exact Steps.ite (Steps.pure _) (refuse_issues _ _ _)
  | other => exact refuse_issues _ _ _

theorem planQuery_issues : Steps (Issues kind) (planQuery srv setting r dir source) :=
  (getTable_issues setting).bind fun _ => (setUpMethod_issues srv r dir source _).bind fun _ =>
    Steps.ite (Steps.fail _) (Steps.pure _)

end

end

abbrev Prepares : World → World → Prop := Issues fun c => Assigns c = false

section
variable (setting : Setting) (dir : Dir) (q : Items)

theorem call_prepares (c : Ndb.Call) (quiet : Assigns c = false) : Steps Prepares (call setting c) :=
  call_issues setting c quiet

theorem readSetup_prepares : Steps Prepares (readSetup setting dir q) := by
  unfold readSetup
  apply Steps.ite
  · cases dir.indexScan.name with
    | none => exact call_prepares setting _ rfl
    | some name =>
      apply call_prepares
      split <;> rfl
  apply Steps.ite
  · cases q.activeIndex.bind fun n => dir.indexes[n]? with
    | none => exact Steps.fail _
    | some index =>
      apply call_prepares
      split <;> rfl
  · exact call_prepares setting _ rfl

theorem setUpWrite_prepares (isInsert : Bool) :
    Steps Prepares (setUpWrite setting dir q isInsert) := by
  refine Steps.bind (call_prepares setting _ ?_) fun _ => Steps.pure _
  split_ifs <;> rfl

theorem opSetup_prepares : Steps Prepares (opSetup setting dir q) := by
  unfold opSetup
  cases q.opSetup with
  | read => exact (readSetup_prepares setting dir q).bind fun _ => Steps.pure _
  | write => exact setUpWrite_prepares setting dir q _
  | insert => exact setUpWrite_prepares setting dir q _
  | delete => exact (call_prepares setting _ rfl).bind fun _ => Steps.pure _

/-- A key part is set with `equal` or `setBound`. -/
theorem getColumn_prepares (baseColName : Option Text) (relOp : Nat) :
    Moves Prepares (getColumn q baseColName relOp) fun got => ∀ value, Assigns (got.2 value) = false := by
  unfold getColumn
  cases q.idxobj with
  | none => exact Moves.fail _
  | some obj =>
    dsimp only
    cases obj.kind with
    | pk =>
      dsimp only
      cases (q.tab.primaryKeys[obj.keyPart]?).bind q.tab.column with
      | none => exact Moves.fail _
      | some col => exact Moves.pure fun _ => rfl
    | unique => exact Moves.pure fun _ => rfl
    | ordered =>
      dsimp only
      split
      · exact Moves.fail _
      · exact Moves.pure fun _ => rfl
      · exact Moves.pure fun _ => rfl
    | tableScan => exact Moves.fail _

theorem handPart_prepares (n : Option Nat) (value : Option Text) (usable : Bool) (c : Ndb.Call)
    (quiet : Assigns c = false) : Steps Prepares (handPart setting n value usable c) := by
  apply Steps.ite
  · have noted : Steps Prepares (n.forM fun n => emit (.keyPart n value c) : Querying Unit) := by
      cases n with
      | none => exact Steps.pure _
      | some n => exact emit_issues _
    exact noted.bind fun _ => call_prepares setting c quiet
  · exact Steps.pure _

theorem setPart_prepares (n : Option Nat) (baseColName : Option Text) (relOp : Nat)
    (value : Option Text) (mval : Mvalue) :
    Steps Prepares (setPart setting n baseColName relOp value mval q) := by
  apply (getColumn_prepares q baseColName relOp).bind
  rintro ⟨col,make⟩ quiet
  apply Steps.bind (mvalIsUsable_issues _)
  intro usable
  apply Steps.bind (handPart_prepares setting n value usable _ (quiet _))
  intro refused
  exact Steps.ite ((errorPage_issues _ _ _).bind fun _ => Steps.fail _) (Steps.pure _)

theorem setKeyParts_prepares (used : Nat) (col : Option Nat) (mval : Mvalue) :
    Steps Prepares (setKeyParts setting dir used col mval q) := by
  induction used generalizing col mval q with
  | zero => exact Steps.pure _
  | succ used ih =>
    cases col with
    | none => exact Steps.pure _
    | some col =>
      unfold setKeyParts
      cases dir.keyColumns[col]? with
      | none => exact Steps.fail _
      | some keycol =>
        apply Steps.bind (setPart_prepares setting q _ _ _ _ _)
        rintro ⟨mval',q'⟩
        exact Steps.ite (ih _ _ _) (Steps.pure _)

theorem setConstants_prepares (constants : List Config.Constant) (mval : Mvalue) :
    Steps Prepares (setConstants setting constants mval q) := by
  induction constants generalizing mval q with
  | nil => exact Steps.pure _
  | cons constant constants ih =>
    apply Steps.bind (setPart_prepares setting q _ _ _ _ _)
    rintro ⟨mval',q'⟩
    exact ih q' mval'

theorem setIndexParts_prepares (mval : Mvalue) :
    Steps Prepares (setIndexParts setting dir mval q) := by
  unfold setIndexParts
  cases if q.plan = .scan then none else q.activeIndex with
  | none => exact Steps.pure _
  | some n =>
    dsimp only
    cases dir.indexes[n]? with
    | none => exact Steps.fail _
    | some index =>
      apply Steps.bind (setKeyParts_prepares setting dir q _ _ _)
      rintro ⟨mval',q'⟩
      exact setConstants_prepares setting q' _ _

theorem filterCmp_prepares (n : Nat) (c : Ndb.Call) (quiet : Assigns c = false) :
    Steps Prepares (filterCmp setting q n c) :=
  (emit_issues _).bind fun _ => (call_prepares setting c quiet).bind fun _ => Steps.pure _

theorem setFilter_prepares (mval : Mvalue) (n : Nat) :
    Steps Prepares (setFilter setting dir q mval n) := by
  unfold setFilter
  cases dir.keyColumns[n]? with
  | none => exact Steps.fail _
  | some keycol =>
    dsimp only
    cases keycol.baseColName.bind q.tab.column with
    | none => exact Steps.fail _
    | some col =>
      apply Steps.ite
      · have notNull : Steps Prepares (filterNotNull setting keycol col) :=
          Steps.ite (call_prepares setting _ rfl) (Steps.pure _)
        exact notNull.bind fun _ => (filterCmp_prepares setting q n _ rfl).bind fun _ => Steps.pure _
      · exact (filterCmp_prepares setting q n _ rfl).bind fun _ => Steps.pure _

theorem setFilters_prepares (filters : List Nat) (mval : Mvalue) :
    Steps Prepares (setFilters setting dir q filters mval) := by
  induction filters generalizing mval with
  | nil => exact Steps.pure _
  | cons n filters ih => exact (setFilter_prepares setting dir q mval n).bind fun _ => ih _

/-- Nothing is assigned before the action. -/
theorem beforeAction_prepares (srv : ServerConfig) (r : RequestRec) (source : QuerySource) :
    Steps Prepares (beforeAction srv setting r dir source) := by
  have prepared : Steps Prepares (prepare srv setting r dir source) :=
    (planQuery_issues srv setting r dir source).bind fun _ => (openTransaction_issues setting).bind
      fun _ => (chooseIndex_issues setting _ dir).bind fun _ => (getNdbOperation_issues setting _).bind
        fun _ => opSetup_prepares setting dir _
  apply prepared.bind
  rintro ⟨refused,q⟩
  apply Steps.ite
  · exact Steps.fail _
  apply Steps.bind (setIndexParts_prepares setting dir q _)
  rintro ⟨mval,q'⟩
  have filtered : Steps Prepares
      (if 4 ≤ q'.plan.value then setFilters setting dir q' q'.filterList mval else return mval) :=
    Steps.ite (setFilters_prepares setting dir q' _ _) (Steps.pure _)
  exact filtered.bind fun _ => (setInst_issues _).bind fun _ => Steps.pure _

end

section
variable (setting : Setting)

theorem writeColumn_assigns (mval : Mvalue) (col : DictColumn) :
    Steps (Issues (AssignsTo col)) (writeColumn setting mval col) := by
  apply Steps.bind (mvalIsUsable_issues mval)
  intro usable
  apply Steps.ite
  · cases mval.useValue with
    | useAutoinc =>
      cases setting.ndb.autoInc with
      | none => exact Steps.pure _
      | some next => exact call_issues setting _ (.autoInc _ _)
    | useNull => exact call_issues setting _ .null
    | useInterpreted =>
      cases mval.interpreted with
      | notInterpreted => exact Steps.fail _
      | isIncrement => exact call_issues setting _ .inc
      | isDecrement => exact call_issues setting _ .sub
    | useBlob => exact Steps.ite (call_issues setting _ (.blob _)) (Steps.fail _)
    | _ => exact call_issues setting _ (.value _)
  · exact Steps.pure _

/-- A write assigns to the columns that its values are for. -/
theorem writeColumns_assigns {listed : DictColumn → Prop} (mvals : List Mvalue)
    (each : ∀ mval ∈ mvals, ∀ col, mval.column = some col → listed col) (eqr : Int) :
    Steps (Issues fun c => ∃ col, listed col ∧ AssignsTo col c) (writeColumns setting mvals eqr) := by
  induction mvals generalizing eqr with
  | nil => exact Steps.pure _
  | cons mval mvals ih =>
    obtain ⟨here,later⟩ := List.forall_mem_cons.mp each
    unfold writeColumns
    cases column : mval.column with
    | none => exact ih later eqr
    | some col =>
      have written : Steps (Issues fun c => ∃ col, listed col ∧ AssignsTo col c)
          (writeColumn setting mval col) :=
        (writeColumn_assigns setting mval col).mono fun _ _ grows =>
          grows.mono fun _ assigns => ⟨col,here col column,assigns⟩
      apply written.bind
      intro failed
      exact Steps.ite (errorPage_issues _ _ _) (ih later 0)

end

def Updatable (dir : Dir) (setting : Setting) (col : DictColumn) : Prop :=
  ∃ tab, setting.ndb.table = some tab ∧ ∃ key ∈ dir.updatable, tab.column key = some col

/-- The values that a write sets up are for columns that AllowUpdate lists. -/
theorem newVals_updatable {setting : Setting} {dir : Dir} {q : Items}
    (found : setting.ndb.table = some q.tab) (mval : Mvalue) (inside : mval ∈ newVals setting dir q)
    (col : DictColumn) (column : mval.column = some col) : Updatable dir setting col := by
  rw [newVals_eq] at inside
  obtain ⟨key,listed,rfl⟩ := List.mem_map.mp inside
  rw [updateValue_column] at column
  split at column
  · exact ⟨q.tab,found,key,listed,column⟩
  · cases column

section
variable (srv : ServerConfig) (setting : Setting) (r : RequestRec) (dir : Dir) (w : World)

theorem query_calls (source : QuerySource) :
    (query srv setting r dir source w).2.calls = (queryBody srv setting r dir source w).2.calls := by
  have given (status : Int) (u : World) : (abort source status u).2.calls = u.calls := by
    unfold abort
    rw [Prog.bind_ok _ (Prog.modify_run _ u)]
    cases source.keepTxOpen <;> rfl
  unfold query
  rcases queryBody srv setting r dir source w with ⟨outcome,next⟩
  cases outcome with
  | ok u =>
    dsimp only
    cases source.keepTxOpen with
    | true => rfl
    | false =>
      have executed := (executeOpen_executes srv setting.ndb setting.rendering r next).1.calls
      unfold executeAll
      rcases ran : executeOpen srv setting.ndb setting.rendering r next with ⟨status,last⟩
      rw [ran] at executed
      cases status with
      | error why =>
        rw [if_neg Bool.false_ne_true,Prog.bind_error _ ran]
        exact executed
      | ok status =>
        rw [if_neg Bool.false_ne_true,Prog.bind_ok _ ran]
        exact executed
  | error stop =>
    cases stop with
    | crash why => rfl
    | returns status => rfl
    | abort1 status =>
      have closed := (closeTx_executes next).1.calls
      dsimp only
      rcases ran : closeTx next with ⟨result,last⟩
      rw [ran] at closed
      cases result with
      | error why =>
        rw [Prog.bind_error _ ran]
        exact closed
      | ok _ =>
        rw [Prog.bind_ok _ ran]
        exact (given status last).trans closed
    | abort2 status => exact given status next

/-- Every assignment of a POST is to a column that AllowUpdate lists. -/
theorem query_assigns (source : QuerySource) (post : source.reqMethod = .post) :
    Issues (fun c => Assigns c = true → ∃ col, Updatable dir setting col ∧ AssignsTo col c) w
      (query srv setting r dir source w).2 := by
  have body : Issues (fun c => Assigns c = true → ∃ col, Updatable dir setting col ∧ AssignsTo col c) w
      (queryBody srv setting r dir source w).2 := by
    have quiet : Issues (fun c => Assigns c = true → ∃ col, Updatable dir setting col ∧ AssignsTo col c)
        w (beforeAction srv setting r dir source w).2 :=
      (beforeAction_prepares setting dir srv r source w).1.mono fun c none some => by
        rw [none] at some
        cases some
    rw [queryBody_act]
    rcases ran : beforeAction srv setting r dir source w with ⟨outcome,next⟩
    rw [ran] at quiet
    cases outcome with
    | error stop =>
      rw [Prog.bind_error _ ran]
      exact quiet
    | ok q =>
      rw [Prog.bind_ok _ ran]
      rcases beforeAction_posted ran with ⟨other,_⟩ | ⟨form,tab,posted⟩
      · exact absurd post other
      obtain ⟨base,vals,_,rfl⟩ := posted.vals
      have acted : Steps (Issues fun c => ∃ col, Updatable dir setting col ∧ AssignsTo col c)
          (act setting dir q) := by
        unfold act opAction
        rw [posted.action]
        refine (writeColumns_assigns setting q.setVals ?_ 1).bind fun rc =>
          Steps.ite (Steps.fail _) (Steps.pure _)
        rw [vals]
        exact newVals_updatable posted.found
      exact quiet.trans ((acted next).1.mono fun c assigns _ => assigns)
  obtain ⟨more,split,among⟩ := body
  exact ⟨more,(query_calls srv setting r dir w source).trans split,among⟩

end

structure SameUrl (r r' : RequestRec) : Prop where
  main : r'.main = r.main
  method : r'.methodNumber = r.methodNumber
  args : r'.args = r.args
  pathInfo : r'.pathInfo = r.pathInfo

/-- A POST whose body was read, with the items that are in it. -/
structure Posts (r : RequestRec) (items : List (Text × Text)) : Prop where
  method : (sourceOf r).reqMethod = .post
  read : ∃ passed, (sourceOf r).formData = .ok ⟨0,setItems items,passed⟩

theorem setItems_snoc (items : List (Text × Text)) (item : Text × Text) :
    setItems (items ++ [item]) = (setItems items).setItem item := List.foldl_append

/-- The actions of the JSON parser fill a form with items. -/
theorem runActions_items (actions : List JSON.Action) :
    Prog.Keeps (fun r : JSON.Reading => ∃ items, r.form = setItems items) (JSON.runActions actions) := by
  have blobs (token : JSON.Token) :
      Prog.Keeps (fun r : JSON.Reading => ∃ items, r.form = setItems items) (JSON.blob token) :=
    fun _ items => items
  apply Prog.Keeps.forM
  intro action _
  cases action with
  | name token => exact (blobs token).bind fun _ => Prog.Keeps.modify _ fun _ => id
  | value token => exact (blobs token).bind fun _ => Prog.Keeps.modify _ fun _ => id
  | null => exact Prog.Keeps.modify _ fun _ => id
  | setItem =>
    rintro ⟨key,val,form,opened,members,calls⟩ ⟨items,filled⟩
    replace filled : form = setItems items := filled
    subst filled
    cases key with
    | made key =>
      cases val with
      | made val => exact ⟨_,(setItems_snoc items (cstring key.bytes,val.bytes)).symm⟩
      | unset => exact ⟨items,rfl⟩
      | null => exact ⟨items,rfl⟩
    | unset => exact ⟨items,rfl⟩
    | null => cases val <;> exact ⟨items,rfl⟩

theorem readBody_items {reader : BodyReader} {databuffer : Option Text} {length : Nat}
    {rc : Int} {form : FormTable} (read : readBody reader databuffer length = .ok (rc,form)) :
    ∃ items, form = setItems items := by
  cases reader with
  | urlencoded =>
    cases databuffer with
    | none => cases read
    | some data =>
      cases read
      exact ⟨_,rfl⟩
  | jsonrequest =>
    unfold readBody readJsonrequest at read
    dsimp only at read
    split at read
    · cases read
    · rename_i chars begun
      split at read
      · have items := runActions_items (JSON.parse (JSON.tokens chars)).2.actions .init ⟨[],rfl⟩
        split at read
        · rename_i r ran
          rw [ran] at items
          cases read
          exact items
        · cases read
      · cases read

/-- Every form that is read is made of items. -/
theorem read_items {r : RequestRec} {form : FormTable} {passed : Option (Option Text × Nat)}
    (read : (sourceOf r).formData = .ok ⟨0,form,passed⟩) : ∃ items, form = setItems items := by
  have nothing (answer : FormRead) (same : Except.ok answer = (.ok ⟨0,form,passed⟩ : Except Crash FormRead))
      (empty : answer.form = .empty) : ∃ items, form = setItems items := by
    cases same
    exact ⟨[],empty⟩
  unfold sourceOf at read
  cases main : r.main with
  | true =>
    rw [if_pos main] at read
    replace read : subrequestFormData r = .ok ⟨0,form,passed⟩ := read
    unfold subrequestFormData at read
    split at read
    · cases read
    · cases read
      exact ⟨_,rfl⟩
  | false =>
    rw [if_neg (by rw [main]; exact Bool.false_ne_true)] at read
    replace read : getFormData r = .ok ⟨0,form,passed⟩ := read
    by_cases post : r.methodNumber = .post
    · rcases type : bodyReader r.contentType with why | reader
      · rw [getFormData_crashes r post why type] at read
        cases read
      cases reader with
      | none =>
        rw [getFormData_declined r post type] at read
        exact nothing _ read rfl
      | some reader =>
        by_cases refused : r.body.setup ≠ 0
        · rw [getFormData_refused r post reader type refused] at read
          exact nothing _ read rfl
        rcases got : utilRead r.body with why | ⟨rc,databuffer,length⟩
        · rw [getFormData_unread r post reader type why got] at read
          cases read
        have fine : rc = 0 := by
          cases filled : r.body.should with
          | false =>
            rw [utilRead_nothing r.body (not_not.mp refused) filled] at got
            cases got
            rfl
          | true =>
            rcases utilRead_body r.body (not_not.mp refused) filled with ⟨_,ran⟩ | ⟨_,ran⟩
            · rw [ran] at got
              cases got
              rfl
            · rw [ran] at got
              cases got
        subst fine
        rw [getFormData_read r post reader type databuffer length got] at read
        rcases body : readBody reader databuffer length with why | ⟨rc,form'⟩
        · rw [body] at read
          cases read
        · rw [body] at read
          cases read
          exact readBody_items body
    · have other : getFormData r = .ok ⟨0,.empty,none⟩ := if_pos post
      rw [other] at read
      exact nothing _ read rfl

def Items.posting (q : Items) (form : FormTable) : Items := {q with form := form}

section
variable (dir : Dir) (q : Items) (form : FormTable)

theorem setKey_posting (n : Nat) (value : Text) :
    setKey dir n value (q.posting form) = (setKey dir n value q).posting form := by
  unfold setKey
  cases dir.keyColumns[n]? with
  | none => rfl
  | some keycol =>
    dsimp only [Items.posting]
    split <;> rfl

theorem giveKeys_posting (keys : List (Nat × Text)) :
    giveKeys dir keys (q.posting form) = (giveKeys dir keys q).posting form := by
  induction keys generalizing q with
  | nil => rfl
  | cons key keys ih => rw [giveKeys_cons,giveKeys_cons,setKey_posting,ih]

theorem defaultKey_posting :
    defaultKey dir (scanPlan dir (q.posting form)) = (defaultKey dir (scanPlan dir q)).posting form := by
  have scanned : scanPlan dir (q.posting form) = (scanPlan dir q).posting form := by
    unfold scanPlan
    split <;> rfl
  rw [scanned]
  unfold defaultKey
  cases dir.defaultKey with
  | none => rfl
  | some key =>
    dsimp only
    split <;> rfl

/-- What stands in front of a path makes no difference: an empty path has no components. -/
theorem pathKeys_before (path : Text) (before before' : UInt8) (elements : List Nat) :
    pathKeys (pathChars path before') [] elements = pathKeys (pathChars path before) [] elements := by
  have empty (c : UInt8) : pathKeys (pathChars [] c) [] elements = [] := by
    unfold pathChars
    split <;> cases elements <;> rfl
  cases path with
  | nil => rw [empty,empty]
  | cons c path =>
    unfold pathChars
    rw [List.getLast?_cons]
    rfl

/-- The form data are not looked at in planning. -/
theorem findPlan_posting {r r' : RequestRec} (alike : SameUrl r r') :
    findPlan r' dir (q.posting form) = (findPlan r dir q).posting form := by
  have keys : argKeys r' dir = argKeys r dir := by
    unfold argKeys
    rw [alike.args]
  unfold findPlan
  rw [useArgs_eq,useArgs_eq,defaultKey_posting,giveKeys_posting,keys]
  generalize giveKeys dir (argKeys r dir) (defaultKey dir (scanPlan dir q)) = given
  unfold usePathInfo
  rw [pathLoop_eq,pathLoop_eq,alike.pathInfo,pathKeys_before _ r.beforePathInfo,giveKeys_posting]
  have plan : (given.posting form).plan = given.plan := rfl
  rw [plan]
  split_ifs <;> rfl

end

theorem Seen.allCalls {w w' : World} (seen : Seen (fun _ => false) w w') : w'.calls = w.calls := by
  simpa using seen.calls

section
variable {srv : ServerConfig} {setting : Setting} {r r' : RequestRec} {dir : Dir} {source : QuerySource}
  {source' : QuerySource} {form form' : FormTable} {passed passed' : Option (Option Text × Nat)}

/-- Two POSTs are planned alike, up to their form data. -/
theorem planQuery_posts (alike : SameUrl r r') (method : source.reqMethod = .post)
    (method' : source'.reqMethod = .post) (read : source.formData = .ok ⟨0,form,passed⟩)
    (read' : source'.formData = .ok ⟨0,form',passed'⟩) (agreeing : Agreeing dir form form') :
    Agrees (Seen fun _ => false) (planQuery srv setting r dir source)
      (planQuery srv setting r' dir source') (PlannedTwice setting dir fun _ => false) := by
  unfold planQuery
  apply (getTable_agrees setting).bind
  rintro tab _ rfl
  rw [setUpMethod_post method read,setUpMethod_post method' read']
  have posted : setUpPost r' dir form' (.init tab) = (setUpPost r dir form (.init tab)).posting form' := by
    unfold setUpPost
    rw [alike.args]
    dsimp only
    split <;> rfl
  have given : (setUpPost r dir form (.init tab)).form = form := by
    unfold setUpPost
    dsimp only
    split <;> rfl
  have kept : (findPlan r dir (setUpPost r dir form (.init tab))).form = form :=
    (congrArg (fun setup => setup.2.2.2.2.2.2.2) (findPlan_setup dir _ r)).trans given
  have planned : Agrees (Seen fun _ => false)
      (checkPlan r dir (findPlan r dir (setUpPost r dir form (.init tab))))
      (checkPlan r' dir (findPlan r' dir (setUpPost r' dir form' (.init tab))))
      (PlannedTwice setting dir fun _ => false) := by
    rw [posted,findPlan_posting dir _ form' alike]
    unfold checkPlan
    rw [alike.method]
    refine Agrees.ite (fun _ => Agrees.fail _) fun _ => Agrees.pure ⟨_,_,form',⟨rfl,rfl⟩,?_,?_⟩
    · unfold Items.extras
      rw [kept]
      exact agreeing
    · exact fun q mval => (setFilters_agrees setting (ignores_none _) dir q _ form' _ mval).mono
        fun _ _ _ => trivial
  exact planned

theorem sameCalls_suffices (setting : Setting) :
    Suffices setting fun w w' => w'.calls = w.calls where
  calls c w w' same := by
    unfold call
    dsimp only
    rw [same]
    exact ⟨rfl,rfl⟩
  pages status error msg w w' same := by
    unfold errorPage handleError
    cases errorText status error msg with
    | none => exact ⟨rfl,same⟩
    | some content => exact ⟨rfl,same⟩
  stores f w w' same := ⟨rfl,same⟩

end

/-- POSTs to the same URL, whose bodies have the same values for the columns that AllowUpdate
lists, issue the same calls, and assign to no other columns. -/
theorem assigned_alike (srv : ServerConfig) (setting : Setting) (dir : Dir) (w : World)
    (r r' : RequestRec) (alike : SameUrl r r') (items items' : List (Text × Text))
    (posts : Posts r items) (posts' : Posts r' items')
    (agree : ∀ key ∈ dir.updatable, lastNamed items' key = lastNamed items key) :
    (query srv setting r' dir (sourceOf r') w).2.calls =
      (query srv setting r dir (sourceOf r) w).2.calls ∧
    ∃ more, (query srv setting r dir (sourceOf r) w).2.calls = w.calls ++ more ∧
      ∀ c ∈ more, Assigns c = true → ∃ col, Updatable dir setting col ∧ AssignsTo col c := by
  obtain ⟨passed,read⟩ := posts.read
  obtain ⟨passed',read'⟩ := posts'.read
  have agreeing : Agreeing dir (setItems items) (setItems items') := by
    intro key listed
    rw [getItem_setItems,getItem_setItems,agree key listed]
  refine ⟨?_,query_assigns srv setting r dir w (sourceOf r) posts.method⟩
  rw [query_calls,query_calls]
  exact (queryBody_turns srv setting r r' dir (sourceOf r) (sourceOf r') (ignores_none _)
    (planQuery_posts alike posts.method posts'.method read read' agreeing)
    (fun _ _ => Seen.allCalls) (sameCalls_suffices setting)
    (fun _ _ seen => ⟨rfl,seen.allCalls⟩) w w (.refl w)).2

def postingAdmin : RequestRec := {posting false none with body := ⟨0,true,12,[text "admin=1&id=7"]⟩}

/-- The item changes nothing: the column `id` is assigned to, with it and without. -/
theorem assigned_alike_admin :
    (query ⟨1,0,false⟩ (storing items) postingAdmin (shopDir false) (sourceOf postingAdmin)
        World.init).2.calls =
      (query ⟨1,0,false⟩ (storing items) (posting false none) (shopDir false)
        (sourceOf (posting false none)) World.init).2.calls ∧
    (∃ more, (query ⟨1,0,false⟩ (storing items) (posting false none) (shopDir false)
        (sourceOf (posting false none)) World.init).2.calls = World.init.calls ++ more ∧
      ∀ c ∈ more, Assigns c = true → ∃ col, Updatable (shopDir false) (storing items) col ∧ AssignsTo col c) ∧
    (query ⟨1,0,false⟩ (storing items) (posting false none) (shopDir false)
      (sourceOf (posting false none)) World.init).2.calls.any Assigns = true := by
  obtain ⟨same,listed⟩ := assigned_alike ⟨1,0,false⟩ (storing items) (shopDir false) World.init
    (posting false none) postingAdmin ⟨rfl,rfl,rfl,rfl⟩ [(text "id",text "7")]
    [(text "admin",text "1"),(text "id",text "7")] ⟨rfl,_,rfl⟩ ⟨rfl,_,rfl⟩ (by decide)
  exact ⟨same,listed,by decide +kernel⟩

end ModNdb.Query
