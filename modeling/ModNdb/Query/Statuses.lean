import ModNdb.Format.Output
import ModNdb.Query.Decided
import ModNdb.Query.Written

/-! The values that `Query` returns: where each of them comes from, and when it is one that the
server understands. -/
namespace ModNdb.Query
open Config (Dir Reached)
open MySQL (DictColumn Mvalue)
open Prog (Gives Leads Moves Stops)

/-- `OK`, `DONE`, `DECLINED`, or an HTTP status of three digits. -/
def Proper (status : Int) : Prop := status = 0 ∨ status = -2 ∨ status = -1 ∨ 100 ≤ status ∧ status ≤ 999

/-- `DONE`, after an error page, or the HTTP status of an error. -/
def Failing (status : Int) : Prop := status = -2 ∨ 400 ≤ status ∧ status ≤ 599

theorem Failing.proper {status : Int} (failing : Failing status) : Proper status := by
  rcases failing with done | error
  · exact .inr (.inl done)
  · exact .inr (.inr (.inr ⟨by omega,by omega⟩))

/-- What NDB delivers to `build_results`: the result columns, the rows, and the content of the
first column where it is a blob. -/
structure Delivery where
  printers : MySQL.Printers
  sentinels : Format.Sentinels
  columns : DataOperation → Format.DataOperation
  cursor : DataOperation → Format.Cursor
  contents : DataOperation → Option Text
  fuel : Nat

/-- `build_results`, with `Results_raw` for a raw format. -/
def Delivery.build (d : Delivery) (data : DataOperation) : Except Crash (Int × Text) :=
  match data.fmt with
  | none => .error .nullPointer
  | some fmt =>
    if fmt.isRaw then
      match d.contents data with
      | some contents => .ok (0,contents)
      | none => .ok (500,[])
    else
      match Format.buildResults d.printers d.sentinels (d.columns data) fmt d.fuel
        ⟨[],[],false,d.cursor data⟩ with
      | (.ok .ok,page) => .ok (0,page.bytes)
      | (.ok .notFound,page) => .ok (404,page.bytes)
      | (.error .nullPointer,_) => .error .nullPointer
      | (.error .outOfFuel,_) => .error .outOfFuel

/-- Why a query stops before it is executed. -/
def Erring : Stop → Prop
  | .crash _ => True
  | .returns status => status = -2
  | .abort1 status | .abort2 status => status = 0 ∨ Failing status

/-- Why it stops once there is a transaction: it crashes, though not where a transaction is
closed, or the transaction is given up. -/
def Late : Stop → Prop
  | .crash why => why ≠ .closeNull ∧ why ≠ .closeClosed
  | .abort1 status => status = 0 ∨ Failing status
  | .returns _ | .abort2 _ => False

theorem Late.erring {why : Stop} (late : Late why) : Erring why := by
  cases why with
  | crash => trivial
  | abort1 => exact late
  | returns => exact late.elim
  | abort2 => exact late.elim

section
variable (setting : Setting) (dir : Dir) (q : Items)

theorem errorPage_done (status : Int) (error : Option Ndb.Error) (msg : Option Text) :
    Gives (fun rc => rc = -2) (errorPage status error msg) := by
  refine fun w => ⟨trivial,fun rc ran => ?_⟩
  unfold errorPage handleError at ran
  cases content : errorText status error msg with
  | none =>
    rw [content] at ran
    cases ran
  | some text =>
    rw [content] at ran
    cases ran
    rfl

theorem errorPage_stops (status : Int) (error : Option Ndb.Error) (msg : Option Text) :
    Stops Late (errorPage status error msg) := by
  intro w why stopped
  unfold errorPage at stopped
  split at stopped
  · cases stopped
  · next failed =>
    cases stopped
    unfold handleError at failed
    cases content : errorText status error msg with
    | none =>
      rw [content] at failed
      cases failed
      exact ⟨by decide,by decide⟩
    | some text =>
      rw [content] at failed
      cases failed

/-- An error page, and the end of a query with its status. -/
theorem errorPage_then_stops {α : Type} (status : Int) (error : Option Ndb.Error) (msg : Option Text)
    {P : Stop → Prop} (crashes : ∀ why, Late why → P why) (stop : Int → Stop) (ends : P (stop (-2))) :
    Stops P (errorPage status error msg >>= fun rc => (Prog.fail (stop rc) : Querying α)) :=
  Stops.known (fun w why stopped => crashes why (errorPage_stops status error msg w why stopped))
    (errorPage_done status error msg) fun rc done => Stops.fail (by rw [done]; exact ends)

theorem setData_stops (f : DataOperation → DataOperation) : Stops Late (setData q f) := by
  unfold setData
  cases q.data with
  | localData => exact Stops.pure ()
  | slot n => exact Stops.modify _

theorem call_stops (c : Ndb.Call) : Stops Late (call setting c) := nofun

theorem crash_stops {α : Type} (why : Crash) (other : why ≠ .closeNull ∧ why ≠ .closeClosed) :
    Stops Late (crash why : Querying α) := Stops.fail other

theorem failed_stops {α : Type} (status : Int) (failing : status = 0 ∨ Failing status) :
    Stops Late (Prog.fail (.abort1 status) : Querying α) := Stops.fail failing

theorem failing_500 : (500 : Int) = 0 ∨ Failing 500 := .inr (.inr ⟨by decide,by decide⟩)

theorem getIndex_stops (name : Text) : Stops Late (getIndex setting name) := by
  unfold getIndex
  cases setting.ndb.index name with
  | none => exact failed_stops 500 failing_500
  | some idx => exact Stops.pure idx

theorem indexOfType_stops (name : Text) (type : Ndb.IndexType) (kind : IndexKind) :
    Stops Late (indexOfType setting name type kind q) :=
  (getIndex_stops setting name).bind fun _ =>
    Stops.ite (fun _ => failed_stops 0 (.inl rfl)) fun _ => Stops.pure _

theorem chooseIndex_stops : Stops Late (chooseIndex setting dir q) := by
  unfold chooseIndex
  apply Stops.ite
  · intro _
    cases dir.indexScan.name with
    | none => exact Stops.pure _
    | some name => exact indexOfType_stops setting q name _ _
  intro _
  apply Stops.ite
  · exact fun _ => Stops.pure _
  intro _
  cases q.activeIndex with
  | none => exact failed_stops 500 failing_500
  | some n =>
    dsimp only
    cases dir.indexes[n]? with
    | none => exact crash_stops _ (by decide)
    | some index =>
      apply Stops.ite
      · exact fun _ => indexOfType_stops setting q _ _ _
      intro _
      apply Stops.ite
      · exact fun _ => indexOfType_stops setting q _ _ _
      · exact fun _ => (getIndex_stops setting _).bind fun _ => Stops.pure _

theorem getNdbOperation_stops : Stops Late (getNdbOperation setting q) := by
  apply Stops.get
  intro w
  split
  · apply Stops.ite
    · exact fun _ => (Stops.modify _).bind fun _ => (setData_stops q _).bind fun _ => Stops.pure _
    · exact fun _ => crash_stops _ (by decide)
  · exact crash_stops _ (by decide)

theorem readSetup_stops : Stops Late (readSetup setting dir q) := by
  unfold readSetup
  apply Stops.ite
  · intro _
    cases dir.indexScan.name with
    | none => exact call_stops setting _
    | some name => exact call_stops setting _
  intro _
  apply Stops.ite
  · intro _
    cases q.activeIndex.bind fun n => dir.indexes[n]? with
    | none => exact crash_stops _ (by decide)
    | some index => exact call_stops setting _
  · exact fun _ => call_stops setting _

theorem opSetup_stops : Stops Late (opSetup setting dir q) := by
  unfold opSetup
  cases q.opSetup with
  | read => exact (readSetup_stops setting dir q).bind fun _ => Stops.pure _
  | write => exact (call_stops setting _).bind fun _ => Stops.pure _
  | insert => exact (call_stops setting _).bind fun _ => Stops.pure _
  | delete => exact (call_stops setting _).bind fun _ => Stops.pure _

theorem mvalIsUsable_stops (mval : Mvalue) : Stops Late (mvalIsUsable mval) := by
  apply Stops.ite
  · exact fun _ => Stops.pure _
  · intro _
    split
    · exact Stops.pure _
    · exact Stops.pure _
    · exact Stops.pure _
    · exact crash_stops _ (by decide)

theorem getColumn_stops (baseColName : Option Text) (relOp : Nat) :
    Stops Late (getColumn q baseColName relOp) := by
  unfold getColumn
  cases q.idxobj with
  | none => exact crash_stops _ (by decide)
  | some obj =>
    dsimp only
    cases obj.kind with
    | pk =>
      dsimp only
      cases (q.tab.primaryKeys[obj.keyPart]?).bind q.tab.column with
      | none => exact crash_stops _ (by decide)
      | some col => exact Stops.pure _
    | unique => exact Stops.pure _
    | ordered =>
      cases baseColName with
      | none => exact crash_stops _ (by decide)
      | some name => cases name <;> exact Stops.pure _
    | tableScan => exact crash_stops _ (by decide)

theorem handPart_stops (n : Option Nat) (value : Option Text) (usable : Bool) (c : Ndb.Call) :
    Stops Late (handPart setting n value usable c) := by
  apply Stops.ite
  · intro _
    have noted : Stops Late (n.forM fun n => emit (.keyPart n value c) : Querying Unit) := by
      cases n with
      | none => exact Stops.pure ()
      | some n => exact Stops.modify _
    exact noted.bind fun _ => call_stops setting c
  · exact fun _ => Stops.pure _

theorem setPart_stops (n : Option Nat) (baseColName : Option Text) (relOp : Nat) (value : Option Text)
    (mval : Mvalue) : Stops Late (setPart setting n baseColName relOp value mval q) := by
  apply (getColumn_stops q baseColName relOp).bind
  rintro ⟨col,make⟩
  apply (mvalIsUsable_stops _).bind
  intro usable
  apply (handPart_stops setting n value usable _).bind
  intro refused
  apply Stops.ite
  · exact fun _ => errorPage_then_stops 500 _ _ (fun _ => id) .abort1 (.inr (.inl rfl))
  · exact fun _ => Stops.pure _

theorem setKeyParts_stops (used : Nat) (col : Option Nat) (mval : Mvalue) :
    Stops Late (setKeyParts setting dir used col mval q) := by
  induction used generalizing col mval q with
  | zero => exact Stops.pure _
  | succ used ih =>
    cases col with
    | none => exact Stops.pure _
    | some col =>
      unfold setKeyParts
      cases dir.keyColumns[col]? with
      | none => exact crash_stops _ (by decide)
      | some keycol =>
        apply (setPart_stops setting q _ _ _ _ mval).bind
        rintro ⟨mval',q'⟩
        exact Stops.ite (fun _ => ih _ _ _) fun _ => Stops.pure _

theorem setConstants_stops (constants : List Config.Constant) (mval : Mvalue) :
    Stops Late (setConstants setting constants mval q) := by
  induction constants generalizing mval q with
  | nil => exact Stops.pure _
  | cons constant constants ih =>
    apply (setPart_stops setting q _ _ _ _ mval).bind
    rintro ⟨mval',q'⟩
    exact ih q' mval'

theorem setIndexParts_stops (mval : Mvalue) : Stops Late (setIndexParts setting dir mval q) := by
  unfold setIndexParts
  cases if q.plan = .scan then none else q.activeIndex with
  | none => exact Stops.pure _
  | some n =>
    dsimp only
    cases dir.indexes[n]? with
    | none => exact crash_stops _ (by decide)
    | some record =>
      apply (setKeyParts_stops setting dir q _ _ _).bind
      rintro ⟨mval',q'⟩
      exact setConstants_stops setting q' _ _

theorem setFilter_stops (mval : Mvalue) (n : Nat) : Stops Late (setFilter setting dir q mval n) := by
  unfold setFilter
  cases dir.keyColumns[n]? with
  | none => exact crash_stops _ (by decide)
  | some keycol =>
    dsimp only
    cases keycol.baseColName.bind q.tab.column with
    | none => exact crash_stops _ (by decide)
    | some col =>
      have compared (c : Ndb.Call) : Stops Late (filterCmp setting q n c) :=
        (Stops.modify _).bind fun _ => (call_stops setting c).bind fun _ => Stops.pure _
      have notNull : Stops Late (filterNotNull setting keycol col) :=
        Stops.ite (fun _ => call_stops setting _) fun _ => Stops.pure _
      apply Stops.ite
      · exact fun _ => notNull.bind fun _ => (compared _).bind fun _ => Stops.pure _
      · exact fun _ => (compared _).bind fun _ => Stops.pure _

theorem setFilters_stops (filters : List Nat) (mval : Mvalue) :
    Stops Late (setFilters setting dir q filters mval) := by
  induction filters generalizing mval with
  | nil => exact Stops.pure _
  | cons n filters ih => exact (setFilter_stops setting dir q mval n).bind fun _ => ih _

end

section
variable (srv : ServerConfig) (setting : Setting) (r : RequestRec) (dir : Dir) (source : QuerySource)

/-- `Query` up to `Q.op_action`. -/
def beforeAction : Querying Items := do
  let (refused,q) ← prepare srv setting r dir source
  if refused then Prog.fail (.abort1 404)
  else
    let (mval,q) ← setIndexParts setting dir setting.mval q
    let _ ← (if 4 ≤ q.plan.value then setFilters setting dir q q.filterList mval else return mval)
    setInst fun i => {i with
      jsonrequest := i.jsonrequest ||
        (source.contentType.map fun type => type.map toLower) = some (text "application/jsonrequest")}
    return q

/-- `Q.op_action` and what its result leads to. -/
def act (q : Items) : Querying Unit := do
  let rc ← opAction setting dir q
  if rc ≠ 0 then Prog.fail (.abort1 rc)

theorem queryBody_act : queryBody srv setting r dir source =
    beforeAction srv setting r dir source >>= act setting dir := by
  rw [queryBody_eq,beforeAction,Prog.bind_assoc]
  congr 1
  funext setup
  rcases setup with ⟨refused,q⟩
  unfold fillOperation useOperation act
  dsimp only
  cases refused with
  | true => rfl
  | false =>
    simp only [Bool.false_eq_true,if_false,Prog.bind_assoc]
    rfl

end

section
variable (setting : Setting) (dir : Dir)

theorem writeColumn_stops (mval : Mvalue) (col : DictColumn) :
    Stops Late (writeColumn setting mval col) := by
  apply (mvalIsUsable_stops mval).bind
  intro usable
  apply Stops.ite
  · intro _
    split
    · split
      · exact Stops.pure _
      · exact call_stops setting _
    · exact call_stops setting _
    · split
      · exact call_stops setting _
      · exact call_stops setting _
      · exact crash_stops _ (by decide)
    · exact Stops.ite (fun _ => call_stops setting _) fun _ => crash_stops _ (by decide)
    · exact call_stops setting _
  · exact fun _ => Stops.pure _

theorem writeColumns_stops (mvals : List Mvalue) (eqr : Int) :
    Stops Late (writeColumns setting mvals eqr) := by
  induction mvals generalizing eqr with
  | nil => exact Stops.pure _
  | cons mval mvals ih =>
    unfold writeColumns
    cases mval.column with
    | none => exact ih eqr
    | some col =>
      apply (writeColumn_stops setting mval col).bind
      intro failed
      apply Stops.ite
      · exact fun _ => errorPage_stops _ _ _
      · exact fun _ => ih 0

theorem newResult_stops (col : DictColumn) : Stops Late (newResult setting col) :=
  Stops.ite (fun _ => Stops.ite (fun _ => call_stops setting _) fun _ => crash_stops _ (by decide)) fun _ =>
    call_stops setting _

theorem readColumns_stops (q : Items) (cols : List (Option DictColumn)) :
    Stops Late (readColumns setting q cols) := by
  induction cols with
  | nil => exact Stops.pure _
  | cons col cols ih =>
    cases col with
    | none => exact crash_stops _ (by decide)
    | some col =>
      exact (newResult_stops setting col).bind fun _ => (setData_stops q _).bind fun _ => ih

theorem opAction_stops (q : Items) : Stops Late (opAction setting dir q) := by
  unfold opAction
  cases q.opAction with
  | read => exact (readColumns_stops setting q _).bind fun _ => Stops.pure _
  | write => exact writeColumns_stops setting _ _
  | delete => exact Stops.pure _

end

section
variable (srv : ServerConfig) (ndb : Ndb.Answers) (delivery : Delivery) (meets : Text → Int)
  (r : RequestRec)

variable {meets}

end

/-- The transaction of the instance is open, if there is one. -/
def World.TxOpen (w : World) : Prop := ∀ t, w.inst.tx = some t → w.isOpen t = some true

section
variable (srv : ServerConfig) (setting : Setting) (r : RequestRec) (dir : Dir) (source : QuerySource)

theorem Local.txOpen {allowed : Event → Prop} {d : DataRef} {w w' : World} (moved : Local allowed d w w')
    (sound : w.TxOpen) : w'.TxOpen := by
  intro t tx
  rw [moved.isOpen]
  exact sound t (moved.tx ▸ tx)

theorem start_txOpen (w : World) : w.start.TxOpen := by
  intro t tx
  cases tx
  unfold World.isOpen World.start
  rw [List.getElem?_append_right (Nat.le_refl _),Nat.sub_self]
  rfl

theorem planQuery_txOpen {w : World} (sound : w.TxOpen) :
    (planQuery srv setting r dir source w).2.TxOpen := by
  rcases planQuery_claims srv setting r dir source w with ⟨moved,_⟩ | ⟨_,⟨tab,claimed⟩,_⟩
  · exact moved.txOpen sound
  · rw [claimed]
    exact sound

theorem openTransaction_txOpen {w : World} (sound : w.TxOpen) :
    (openTransaction setting w).2.TxOpen ∧
      ((openTransaction setting w).1 = .ok () → (openTransaction setting w).2.inst.tx ≠ none) := by
  rcases openTransaction_cases setting w with
    ⟨joined,ran⟩ | ⟨_,_,ran⟩ | ⟨_,_,_,ran⟩ | ⟨_,_,_,ran⟩ <;> rw [ran]
  · exact ⟨sound,fun _ => joined⟩
  · exact ⟨sound,nofun⟩
  · exact ⟨start_txOpen w,fun _ => Option.some_ne_none _⟩
  · exact ⟨sound,nofun⟩

/-- Whatever comes of planning and defining an operation, the transaction is left open. -/
theorem queryBody_txOpen {w : World} (sound : w.TxOpen) :
    (queryBody srv setting r dir source w).2.TxOpen := by
  have planned := planQuery_txOpen srv setting r dir source sound
  unfold queryBody
  rcases ran : planQuery srv setting r dir source w with ⟨outcome,next⟩
  rw [ran] at planned
  cases outcome with
  | error why =>
    rw [Prog.bind_error _ ran]
    exact planned
  | ok q =>
    rw [Prog.bind_ok _ ran]
    have opened := (openTransaction_txOpen setting planned).1
    rcases ran' : openTransaction setting next with ⟨outcome,last⟩
    rw [ran'] at opened
    cases outcome with
    | error why =>
      rw [Prog.bind_error _ ran']
      exact opened
    | ok u =>
      rw [Prog.bind_ok _ ran']
      have defined : Moves (Local (fun _ => True) q.data) (defineOperation setting dir source q)
          fun _ => True :=
        defineOperation_local setting dir q (fun _ _ _ => trivial) (fun _ _ _ => trivial) source
      exact (defined last).1.txOpen opened

theorem txOpen_none {w : World} (ended : w.inst.tx = none) : w.TxOpen := by
  intro t tx
  rw [ended] at tx
  cases tx

theorem abort_tx (status : Int) (w : World) : (abort source status w).2.inst.tx = none := by
  unfold abort
  rw [Prog.bind_ok _ (Prog.modify_run _ w)]
  cases source.keepTxOpen <;> rfl

theorem executeAll_txOpen (ndb : Ndb.Answers) (rendering : Rendering) :
    Leads World.TxOpen (executeAll srv ndb rendering r) fun _ => World.TxOpen := by
  have opened : Leads World.TxOpen (executeOpen srv ndb rendering r) fun _ => World.TxOpen := by
    intro w status next sound ran
    unfold executeOpen at ran
    rw [Prog.bind_ok _ (Prog.get_run w)] at ran
    split at ran
    · cases ran
      exact sound
    · obtain ⟨conclusion,w₁,_,ran⟩ := Prog.bind_inv ran
      obtain ⟨_,w₂,_,ran⟩ := Prog.bind_inv ran
      obtain ⟨_,w₃,_,ran⟩ := Prog.bind_inv ran
      obtain ⟨_,w₄,ended,ran⟩ := Prog.bind_inv ran
      cases ended
      cases ran
      exact txOpen_none rfl
  refine opened.bind fun status => ?_
  intro w rc next sound ran
  obtain ⟨_,w₁,cleaned,last⟩ := Prog.bind_inv ran
  cases cleaned
  cases last
  exact sound

theorem query_txOpen :
    Leads World.TxOpen (query srv setting r dir source) fun _ => World.TxOpen := by
  intro w status next sound ran
  have body := queryBody_txOpen srv setting r dir source sound
  unfold query at ran
  rcases stopped : queryBody srv setting r dir source w with ⟨outcome,last⟩
  rw [stopped] at ran body
  cases outcome with
  | ok u =>
    dsimp only at ran
    split at ran
    · cases ran
      exact body
    · exact executeAll_txOpen srv r setting.ndb setting.rendering last status next body ran
  | error stop =>
    cases stop with
    | crash why => cases ran
    | returns rc =>
      cases ran
      exact body
    | abort1 rc =>
      obtain ⟨_,closed,_,ran⟩ := Prog.bind_inv ran
      have ended := abort_tx source rc closed
      rw [ran] at ended
      exact txOpen_none ended
    | abort2 rc =>
      have ended := abort_tx source rc last
      dsimp only at ran
      rw [ran] at ended
      exact txOpen_none ended

theorem serve_txOpen (request : Request) :
    Leads World.TxOpen (serve srv request) fun _ => World.TxOpen := by
  have counted {α : Type} {rest : Prog Crash World α}
      (leads : Leads World.TxOpen rest fun _ => World.TxOpen) :
      Leads World.TxOpen (Prog.modify World.count >>= fun _ => rest) fun _ => World.TxOpen :=
    (Leads.modify World.count fun _ sound => sound).bind fun _ => leads
  have next : Leads World.TxOpen (Prog.modify World.next : Prog Crash World Unit) fun _ => World.TxOpen :=
    Leads.modify World.next fun _ sound => sound
  refine next.bind fun _ => ?_
  cases request with
  | query setting r dir =>
    apply Leads.ite
    · intro _ w status last sound ran
      unfold handleError at ran
      cases ran
      exact sound
    · exact fun _ => counted (query_txOpen srv setting r dir (sourceOf r))
  | execBatch setting r => exact counted (executeAll_txOpen srv r setting.ndb setting.rendering)

def Reachable (srv : ServerConfig) (w : World) : Prop := ∃ requests, run srv requests World.init = (.ok (),w)

theorem Reachable.txOpen {srv : ServerConfig} {w : World} (reachable : Reachable srv w) : w.TxOpen := by
  obtain ⟨requests,ran⟩ := reachable
  have leads : Leads World.TxOpen (run srv requests) fun _ => World.TxOpen :=
    Leads.forM fun request _ => (serve_txOpen srv request).bind fun _ => Leads.pure _ fun _ sound => sound
  exact leads World.init () w (txOpen_none rfl) ran

end

section
variable {srv : ServerConfig} {setting : Setting} {r : RequestRec} {dir : Dir} {source : QuerySource}

theorem beforeAction_posted {w next : World} {q : Items}
    (ran : beforeAction srv setting r dir source w = (.ok q,next)) :
    (source.reqMethod ≠ .post ∧ q.opAction ≠ .write) ∨
      ∃ form tab, Posted dir setting source form tab q := by
  unfold beforeAction at ran
  obtain ⟨⟨refused,q₁⟩,w₁,prepared,ran⟩ := Prog.bind_inv ran
  dsimp only at ran
  split at ran
  · cases ran
  obtain ⟨⟨mval,q₂⟩,w₂,parts,ran⟩ := Prog.bind_inv ran
  obtain ⟨_,w₃,_,ran⟩ := Prog.bind_inv ran
  obtain ⟨_,w₄,_,last⟩ := Prog.bind_inv ran
  cases last
  have kept := setIndexParts_keeps setting dir Items.writes countPart_writes nextKeyPart_writes parts
  simp only [Items.writes,Prod.mk.injEq] at kept
  obtain ⟨_,action,vals,_,_⟩ := kept
  rcases prepare_posted prepared with ⟨method,other⟩ | ⟨form,tab,method,read,found,write,base⟩
  · exact .inl ⟨method,action ▸ other⟩
  · exact .inr ⟨form,tab,method,read,found,action.trans write,vals ▸ base⟩

theorem getNdbOperation_tx {q q' : Items} {w next : World}
    (ran : getNdbOperation setting q w = (.ok q',next)) : next.inst.tx ≠ none := by
  have moved : Moves (Local (fun _ => True) q.data) (getNdbOperation setting q) _ :=
    getNdbOperation_moves setting q
  have kept := (moved w).1.tx
  rw [ran] at kept
  rw [kept]
  unfold getNdbOperation at ran
  rw [Prog.bind_ok _ (Prog.get_run w)] at ran
  intro none
  rw [none] at ran
  cases made : q.idxobj with
  | none =>
    rw [made] at ran
    cases ran
  | some obj =>
    rw [made] at ran
    cases ran

/-- An answer that the server understands, and an error for a POST that names nothing which may
be updated. -/
structure Answers (srv : ServerConfig) (setting : Setting) (r : RequestRec) (dir : Dir) (w : World) :
    Prop where
  proper : ∀ status, (query srv setting r dir (sourceOf r) w).1 = .ok status → Proper status
  failing : (sourceOf r).reqMethod = .post →
    ∀ form passed, (sourceOf r).formData = .ok ⟨0,form,passed⟩ →
      (∀ key ∈ dir.updatable, form.getItem key = none) →
        ∀ status, (query srv setting r dir (sourceOf r) w).1 = .ok status → Failing status

/-- A POST that comes to `Plan::Write` names a column of the table that may be updated. -/
def WritesSomething (srv : ServerConfig) (setting : Setting) (r : RequestRec) (dir : Dir) (w : World) :
    Prop :=
  (sourceOf r).reqMethod = .post → ∀ q next,
    beforeAction srv setting r dir (sourceOf r) w = (.ok q,next) →
      ∀ form passed tab, (sourceOf r).formData = .ok ⟨0,form,passed⟩ → setting.ndb.table = some tab →
        Named dir tab form

end

section
variable {srv : ServerConfig} {setting : Setting} {r : RequestRec} {dir : Dir} {w : World}

end

/-- A POST without a name that may be updated does not come to `Plan::Write`, if what comes there
has something to write. -/
theorem WritesSomething.apart {srv : ServerConfig} {setting : Setting} {r : RequestRec} {dir : Dir}
    {w next : World} {q : Items} (writes : WritesSomething srv setting r dir w)
    (ran : beforeAction srv setting r dir (sourceOf r) w = (.ok q,next)) :
    (q.opAction = .write → ¬∀ mval ∈ q.setVals, mval.column = none) ∧
      ((sourceOf r).reqMethod = .post → ∀ form passed, (sourceOf r).formData = .ok ⟨0,form,passed⟩ →
        ¬∀ key ∈ dir.updatable, form.getItem key = none) := by
  rcases beforeAction_posted ran with ⟨method,other⟩ | ⟨form,tab,posted⟩
  · exact ⟨fun write => absurd write other,fun post => absurd post method⟩
  · obtain ⟨passed,read⟩ := posted.read
    have named := writes posted.method q next ran form passed tab read posted.found
    constructor
    · intro _
      obtain ⟨base,vals,given,table⟩ := posted.vals
      rw [vals,newVals_none_iff,given,table]
      exact not_not.mpr named
    · intro _ form' passed' read' unnamed
      cases read.symm.trans read'
      obtain ⟨key,listed,present,_⟩ := named
      rw [unnamed key listed] at present
      cases present

def noRows : Delivery :=
  ⟨⟨fun _ => [],fun _ => [],fun _ _ _ => []⟩,.initial,fun _ => ⟨false,[],false,Nat.two_pow_pos 32⟩,
    fun _ => ⟨fun _ => ⟨true,[]⟩,[],[]⟩,fun _ => none,3⟩

def storing (tab : Ndb.Table) : Setting := {serving tab with rendering := ⟨noRows.build,fun _ => 0⟩}

end ModNdb.Query
