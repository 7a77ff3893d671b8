import ModNdb.Query.Statuses

/-! The courses that a query can take: where it ends before a transaction is opened, and what it
leaves behind where there is one. -/
namespace ModNdb.Query
open Config (Dir)
open Prog (Moves Steps Stops)

/-- A crash for another reason than that a transaction is closed. -/
def NotClosing (why : Crash) : Prop := why ≠ .closeNull ∧ why ≠ .closeClosed

theorem readBlocks_notClosing (length : Nat) (blocks : List Text) (rbuf : Text) {why : Crash}
    (crashed : readBlocks length blocks rbuf = .error why) : NotClosing why := by
  induction blocks generalizing rbuf with
  | nil => cases crashed
  | cons block blocks ih =>
    unfold readBlocks at crashed
    split at crashed
    · cases crashed
    split at crashed
    · cases crashed
      exact ⟨by decide,by decide⟩
    · exact ih _ crashed

theorem action_notClosing (action : JSON.Action) : Stops NotClosing action.run := by
  have blob (token : JSON.Token) : Stops NotClosing (JSON.blob token) := by
    intro r why crashed
    unfold JSON.blob JSON.jsonBlob at crashed
    dsimp only at crashed
    cases outcome : JSON.jsonUnescape token.chars with
    | ok read =>
      rw [outcome] at crashed
      cases crashed
    | error fault =>
      rw [outcome] at crashed
      cases crashed
      cases fault <;> exact ⟨by decide,by decide⟩
  cases action with
  | name token => exact (blob token).bind fun _ => Stops.modify _
  | value token => exact (blob token).bind fun _ => Stops.modify _
  | null => exact Stops.modify _
  | setItem =>
    intro r why crashed
    unfold JSON.Action.run JSON.setItem at crashed
    dsimp only at crashed
    split at crashed <;> cases crashed <;> exact ⟨by decide,by decide⟩

theorem runActions_notClosing (actions : List JSON.Action) :
    Stops NotClosing (JSON.runActions actions) := by
  unfold JSON.runActions
  induction actions with
  | nil => exact Stops.pure _
  | cons action actions ih => exact (action_notClosing action).bind fun _ => ih

theorem readBody_notClosing (reader : BodyReader) (databuffer : Option Text) (length : Nat)
    {why : Crash} (crashed : readBody reader databuffer length = .error why) : NotClosing why := by
  cases reader with
  | urlencoded =>
    cases databuffer with
    | none =>
      cases crashed
      exact ⟨by decide,by decide⟩
    | some data => cases crashed
  | jsonrequest =>
    unfold readBody readJsonrequest at crashed
    dsimp only at crashed
    cases begun : JSON.scannerInit ((databuffer.getD []).take length) with
    | none =>
      rw [begun] at crashed
      cases crashed
      exact ⟨by decide,by decide⟩
    | some chars =>
      rw [begun] at crashed
      dsimp only at crashed
      split at crashed
      · rcases ran : JSON.runActions (JSON.parse (JSON.tokens chars)).2.actions .init with
          ⟨outcome,reading⟩
        rw [ran] at crashed
        cases outcome with
        | ok u => cases crashed
        | error fault =>
          cases crashed
          exact runActions_notClosing _ .init why (by rw [ran])
      · cases crashed
        exact ⟨by decide,by decide⟩

theorem failed_bind {α β : Type} {x : Except Crash α} {f : α → Except Crash β} {why : Crash}
    (failed : (x >>= f) = .error why) : x = .error why ∨ ∃ a, x = .ok a ∧ f a = .error why := by
  cases x with
  | error fault =>
    cases failed
    exact .inl rfl
  | ok a => exact .inr ⟨a,rfl,failed⟩

theorem utilRead_notClosing (body : ClientBlock) {why : Crash}
    (crashed : utilRead body = .error why) : NotClosing why := by
  unfold utilRead at crashed
  split at crashed
  · cases crashed
  split at crashed
  · rcases failed_bind crashed with blocks | ⟨_,_,none⟩
    · exact readBlocks_notClosing _ _ _ blocks
    · cases none
  · cases crashed

/-- Form data are read without a transaction. -/
theorem formData_notClosing (r : RequestRec) {why : Crash}
    (crashed : (sourceOf r).formData = .error why) : NotClosing why := by
  unfold sourceOf at crashed
  split at crashed
  · replace crashed : subrequestFormData r = .error why := crashed
    unfold subrequestFormData at crashed
    split at crashed
    · cases crashed
      exact ⟨by decide,by decide⟩
    · cases crashed
  · replace crashed : getFormData r = .error why := crashed
    unfold getFormData at crashed
    split at crashed
    · cases crashed
    rcases failed_bind crashed with reader | ⟨reader,_,crashed⟩
    · unfold bodyReader at reader
      split at reader
      · cases reader
      · split_ifs at reader
        cases reader
        exact ⟨by decide,by decide⟩
    cases reader with
    | none => cases crashed
    | some reader =>
      rcases failed_bind crashed with read | ⟨_,_,crashed⟩
      · exact utilRead_notClosing _ read
      dsimp only at crashed
      split at crashed
      · cases crashed
      rcases failed_bind crashed with read | ⟨_,_,none⟩
      · exact readBody_notClosing _ _ _ read
      · cases none

theorem Delivery.build_notClosing (d : Delivery) (data : DataOperation) {why : Crash}
    (crashed : d.build data = .error why) : NotClosing why := by
  unfold Delivery.build at crashed
  split at crashed
  · cases crashed
    exact ⟨by decide,by decide⟩
  split at crashed
  · split at crashed <;> cases crashed
  · split at crashed <;> cases crashed <;> exact ⟨by decide,by decide⟩

/-- An end before there is a plan: with `DONE`, after an error page. -/
def Early : Stop → Prop
  | .crash why => NotClosing why
  | .returns status => status = -2
  | .abort1 _ | .abort2 _ => False

def Rejects {α : Type} (x : Querying α) (w : World) : Prop :=
  (∃ stop, (x w).1 = .error stop ∧ Early stop) ∧ Local Event.IsPage .localData w (x w).2

theorem refuse_rejects {α : Type} (status : Int) (error : Option Ndb.Error) (msg : Option Text)
    (w : World) : Rejects (refuse status error msg : Querying α) w := by
  have moved : Moves (Local Event.IsPage .localData) (refuse status error msg : Querying α)
      fun _ => True := refuse_moves _ _ _ _
  refine ⟨?_,(moved w).1⟩
  cases page : errorText status error msg with
  | some content => exact ⟨.returns (-2),congrArg Prod.fst (refuse_run content page w),rfl⟩
  | none =>
    have crashed : errorPage status error msg w = (.error (.crash .nullPointer),w) := by
      unfold errorPage handleError
      rw [page]
      rfl
    exact ⟨.crash .nullPointer,congrArg Prod.fst (Prog.bind_error _ crashed),by decide,by decide⟩

theorem Rejects.bind {α β : Type} {x : Querying α} {w : World} (rejects : Rejects x w)
    (f : α → Querying β) : Rejects (x >>= f) w := by
  obtain ⟨⟨stop,stopped,early⟩,moved⟩ := rejects
  rcases ran : x w with ⟨outcome,v⟩
  rw [ran] at stopped moved
  replace stopped : outcome = .error stop := stopped
  subst stopped
  unfold Rejects
  rw [Prog.bind_error _ ran]
  exact ⟨⟨stop,rfl,early⟩,moved⟩

section
variable (srv : ServerConfig) (setting : Setting) (r : RequestRec) (dir : Dir) (source : QuerySource)

/-- The query comes to look for a plan: there is a table, the method is admitted, and a read finds a
slot. -/
def Enters (w : World) : Prop :=
  setting.ndb.table ≠ none ∧ Admitted dir source ∧
    (source.reqMethod = .get → w.inst.nReadOps < srv.maxReadOperations)

/-- What the server calls a GET needs a plan. -/
def Plans : Prop := r.methodNumber = .get → HasPlan dir r

variable (forms : ∀ why, source.formData = .error why → NotClosing why)

theorem setUpMethod_enters (tab : Ndb.Table) {w : World} (admitted : Admitted dir source)
    (room : source.reqMethod = .get → w.inst.nReadOps < srv.maxReadOperations) :
    ∃ q next, setUpMethod srv r dir source (.init tab) w = (.ok q,next) := by
  rcases admitted with get | ⟨post,form,passed,read⟩ | ⟨delete,allowed⟩
  · unfold setUpMethod setUpRead
    rw [get]
    dsimp only
    rw [Prog.bind_ok _ (Prog.get_run w),if_pos (room get)]
    exact ⟨_,_,rfl⟩
  · rw [setUpMethod_post post read]
    exact ⟨_,_,rfl⟩
  · unfold setUpMethod
    rw [delete]
    dsimp only
    rw [if_pos allowed]
    exact ⟨_,_,rfl⟩

include forms in
theorem setUpMethod_rejects (tab : Ndb.Table) {w : World}
    (outside : ¬(Admitted dir source ∧
      (source.reqMethod = .get → w.inst.nReadOps < srv.maxReadOperations))) :
    Rejects (setUpMethod srv r dir source (.init tab)) w := by
  unfold setUpMethod
  cases method : source.reqMethod with
  | get =>
    have full : ¬w.inst.nReadOps < srv.maxReadOperations :=
      fun room => outside ⟨.inl method,fun _ => room⟩
    change Rejects (setUpRead srv dir (.init tab)) w
    unfold setUpRead Rejects
    rw [Prog.bind_ok _ (Prog.get_run w),if_neg full]
    exact refuse_rejects _ _ _ w
  | post =>
    refine Rejects.bind ?_ _
    unfold getForm
    cases read : source.formData with
    | error why => exact ⟨⟨.crash why,rfl,forms why read⟩,Local.refl _ w⟩
    | ok got =>
      dsimp only
      rw [if_neg]
      · exact refuse_rejects _ _ _ w
      · obtain ⟨status,form,passed⟩ := got
        rintro (rfl : status = 0)
        exact outside ⟨.inr (.inl ⟨method,form,passed,read⟩),fun get => by cases get.symm.trans method⟩
  | delete =>
    dsimp only
    rw [if_neg]
    · exact refuse_rejects _ _ _ w
    · exact fun allowed => outside ⟨.inr (.inr ⟨method,allowed⟩),fun get => by cases get.symm.trans method⟩
  | other => exact refuse_rejects _ _ _ w

include forms in
theorem planQuery_rejects {w : World} (outside : ¬Enters srv setting dir source w) :
    Rejects (planQuery srv setting r dir source) w := by
  cases found : setting.ndb.table with
  | none =>
    refine Rejects.bind ?_ _
    unfold getTable
    rw [found]
    have refused := refuse_rejects (α := Ndb.Table) 500 (some setting.ndb.error)
      (some (text "Configuration error.")) {w with inst := {w.inst with
        stats := {w.inst.stats with errors := w.inst.stats.errors + 1}}}
    refine ⟨refused.1,Local.trans ?_ refused.2⟩
    exact Local.setInst _ w {w.inst with stats := _} rfl rfl rfl rfl (fun _ _ => rfl) fun _ => .inl rfl
  | some tab =>
    rw [planQuery_found srv setting r dir source tab found]
    refine Rejects.bind (setUpMethod_rejects srv r dir source forms tab fun inside => outside ?_) _
    exact ⟨by rw [found]; exact Option.some_ne_none tab,inside⟩

/-- A query that enters is planned, or there is no plan for a GET. -/
theorem planQuery_enters {w : World} (enters : Enters srv setting dir source w) :
    (Plans r dir → ∃ q next, planQuery srv setting r dir source w = (.ok q,next)) ∧
      (¬Plans r dir → ∃ next, planQuery srv setting r dir source w = (.error (.abort2 404),next)) := by
  obtain ⟨found,admitted,room⟩ := enters
  obtain ⟨tab,found⟩ := Option.ne_none_iff_exists'.mp found
  obtain ⟨q,next,ran⟩ := setUpMethod_enters srv r dir source tab admitted room
  have begun := (setUpMethod_begun srv r dir source tab ran).2
  have active := findPlan_activeIndex r dir q begun.activeIndex begun.plan
  rw [planQuery_found srv setting r dir source tab found,Prog.bind_ok _ ran]
  unfold checkPlan
  rw [active]
  constructor
  · intro plans
    rw [if_neg fun unplanned => unplanned.2 (plans unplanned.1)]
    exact ⟨_,_,rfl⟩
  · intro unplanned
    have none : r.methodNumber = .get ∧ ¬(dir.tableScan = true ∨ (chosen r dir).2 ≠ none) :=
      Classical.not_imp.mp unplanned
    rw [if_pos none]
    exact ⟨_,rfl⟩

end

/-- What planning leaves alone. Operations of slots are named by their requests. -/
structure Plotted (w v : World) : Prop where
  tx : v.inst.tx = w.inst.tx
  aborted : v.inst.aborted = w.inst.aborted
  request : v.request = w.request
  op : ∀ k, (v.inst.data k).op = (w.inst.data k).op ∨ (v.inst.data k).op = some ⟨w.request⟩
  isOpen : ∀ t, v.isOpen t = w.isOpen t
  ops : ∀ t, w.inst.tx ≠ some t → v.ops t = w.ops t
  trace : Adds Event.IsPage w v

theorem Local.plotted {d : DataRef} {w v : World} (moved : Local Event.IsPage d w v) :
    Plotted w v where
  tx := moved.tx
  aborted := moved.aborted
  request := moved.request
  op := moved.op
  isOpen := moved.isOpen
  ops t other := by
    obtain ⟨more,added,own⟩ := moved.ops t
    cases more with
    | nil => rw [added,List.append_nil]
    | cons op more => exact absurd (own op List.mem_cons_self).1 other
  trace := moved.trace

theorem claim_plotted (dir : Dir) (tab : Ndb.Table) (w : World) : Plotted w (w.claim dir tab) where
  tx := rfl
  aborted := rfl
  request := rfl
  op k := by
    left
    by_cases own : k = w.inst.nReadOps
    · subst own
      have stored : (w.claim dir tab).inst.data w.inst.nReadOps =
          newRead dir tab (w.inst.data w.inst.nReadOps) := Function.update_self _ _ _
      rw [stored]
      unfold newRead
      dsimp only
      split <;> rfl
    · have kept : (w.claim dir tab).inst.data k = w.inst.data k := Function.update_of_ne own _ _
      rw [kept]
  isOpen _ := rfl
  ops _ _ := rfl
  trace := .none rfl

theorem planQuery_plotted (srv : ServerConfig) (setting : Setting) (r : RequestRec) (dir : Dir)
    (source : QuerySource) (w : World) : Plotted w (planQuery srv setting r dir source w).2 := by
  rcases planQuery_claims srv setting r dir source w with ⟨moved,_⟩ | ⟨_,⟨tab,claimed⟩,_⟩
  · exact moved.plotted
  · exact claimed ▸ claim_plotted dir tab w

inductive Opens (setting : Setting) (w : World) : World → Prop
  | joins {v : World} (plotted : Plotted w v) (joined : w.inst.tx ≠ none) : Opens setting w v
  | starts {v : World} (plotted : Plotted w v) (free : w.inst.tx = none)
    (fresh : w.inst.aborted = false) (started : setting.ndb.startTransaction = true) :
    Opens setting w v.start

def Event.IsDefining : Event → Prop
  | .keyPart _ _ _ | .filter _ _ _ | .errorPage _ _ => True
  | _ => False

instance : AllowsPages Event.IsDefining := ⟨fun _ _ => trivial⟩

def Event.IsSetup : Event → Prop
  | .keyPart _ _ _ | .filter _ _ _ | .errorPage _ _ | .started _ => True
  | .executed _ _ _ | .closed _ | .built _ | .note _ | .page _ => False

theorem Event.IsDefining.setup {event : Event} (defining : event.IsDefining) : event.IsSetup := by
  cases event with
  | keyPart | filter | errorPage | started => trivial
  | executed | closed | built | note | page => exact defining.elim

theorem Event.IsPage.setup {event : Event} (page : event.IsPage) : event.IsSetup := by
  obtain ⟨status,content,rfl⟩ := page
  trivial

theorem Opens.adds {setting : Setting} {w u : World} (opens : Opens setting w u) :
    Adds Event.IsSetup w u := by
  cases opens with
  | joins plotted => exact plotted.trace.mono fun _ => Event.IsPage.setup
  | starts plotted =>
    exact Adds.trans (plotted.trace.mono fun _ => Event.IsPage.setup) (.one rfl trivial)

/-- What executing leaves alone while the transaction is open. -/
structure Calm (w v : World) : Prop where
  same : {v with inst := {v.inst with stats := w.inst.stats}, trace := w.trace} = w
  trace : Adds (Event.IsReport w) w v

theorem Event.IsReport.congr {w v : World} (tx : v.inst.tx = w.inst.tx) (data : v.inst.data = w.inst.data)
    (transactions : v.transactions = w.transactions) {event : Event} (report : event.IsReport v) :
    event.IsReport w := by
  cases event with
  | executed t ops outcome =>
    obtain ⟨own,ops⟩ := report
    refine ⟨tx ▸ own,ops.trans ?_⟩
    unfold World.ops
    rw [transactions]
  | built op =>
    obtain ⟨k,slot⟩ := report
    exact ⟨k,data ▸ slot⟩
  | note | page | errorPage => trivial
  | keyPart | filter | started | closed => exact report.elim

section
variable {w v : World} (calm : Calm w v)
include calm

theorem Calm.tx : v.inst.tx = w.inst.tx := congrArg (·.inst.tx) calm.same

theorem Calm.aborted : v.inst.aborted = w.inst.aborted := congrArg (·.inst.aborted) calm.same

theorem Calm.data : v.inst.data = w.inst.data := congrArg (·.inst.data) calm.same

theorem Calm.transactions : v.transactions = w.transactions :=
  congrArg (·.transactions) calm.same

theorem Calm.isOpen (t : Nat) : v.isOpen t = w.isOpen t := by
  unfold World.isOpen
  rw [calm.transactions]

end

instance : IsPreorder World Calm where
  refl _ := ⟨rfl,.none rfl⟩
  trans u v w first second := by
    refine ⟨?_,first.trace.trans (second.trace.mono fun _ report =>
      report.congr first.tx first.data first.transactions)⟩
    have same := second.same
    have same' := first.same
    rw [← same] at same'
    exact same'

theorem calm_records : Records Calm where
  emits _ _ report := ⟨rfl,.one rfl report⟩
  counts _ _ := ⟨rfl,.none rfl⟩

def World.shut (t : Nat) (w : World) : World :=
  {w with
    transactions := w.transactions.modify t fun tx => {tx with isOpen := false},
    trace := w.trace ++ [.closed t]}

/-- The batch is over, and nothing of it is left in the instance. -/
def World.leave (w : World) : World :=
  {w with inst := Instance.cleanup {w.inst with tx := none}, queued := []}

def World.giveUp (keeps : Bool) (w : World) : World :=
  if keeps then {w with inst := {w.inst with tx := none, aborted := true}} else w.leave

theorem closeTx_open {w : World} {t : Nat} (tx : w.inst.tx = some t)
    (isOpen : w.isOpen t = some true) : closeTx w = (.ok (),w.shut t) := by
  obtain ⟨⟨opened,ops⟩,there,same⟩ := Option.map_eq_some_iff.mp isOpen
  replace same : opened = true := same
  subst same
  have set : w.transactions.modify t (fun tx => {tx with isOpen := false}) =
      w.transactions.set t ⟨false,ops⟩ := by
    rw [List.modify_eq_set_getElem?,there]
    rfl
  unfold closeTx World.shut
  rw [tx,set]
  dsimp only
  rw [there]

theorem abort_run (source : QuerySource) (status : Int) (w : World) : abort source status w =
    (.ok (if status = 0 then 500 else status),w.giveUp source.keepTxOpen) := by
  unfold abort
  rw [Prog.bind_ok _ (Prog.modify_run _ w)]
  cases source.keepTxOpen <;> rfl

section
variable (srv : ServerConfig) (ndb : Ndb.Answers) (rendering : Rendering) (r : RequestRec)

theorem handleError_notClosing (status : Int) (error : Option Ndb.Error) (msg : Option Text) :
    Stops NotClosing (handleError status error msg) := by
  unfold handleError
  cases errorText status error msg with
  | none => exact Stops.fail ⟨by decide,by decide⟩
  | some content => exact (Stops.modify _).bind fun _ => Stops.pure _

theorem execCommit_notClosing (fuel retries waited : Nat) :
    Stops NotClosing (execCommit srv ndb fuel retries waited) := by
  induction fuel generalizing retries waited with
  | zero => exact Stops.fail ⟨by decide,by decide⟩
  | succ fuel ih =>
    have executes : Stops NotClosing (execute ndb retries) := by
      intro w why crashed
      unfold execute at crashed
      split at crashed
      · cases crashed
        exact ⟨by decide,by decide⟩
      · cases crashed
    apply executes.bind
    intro error
    apply Stops.ite
    · intro _
      apply Stops.ite
      · exact fun _ => (Stops.modify _).bind fun _ => ih _ _
      · exact fun _ => (Stops.modify _).bind fun _ => Stops.pure _
    · exact fun _ => Stops.pure _

/-- Building results closes no transaction. -/
def Rendering.Builds (rendering : Rendering) : Prop :=
  ∀ data why, rendering.build data = .error why → NotClosing why

variable {rendering} (builds : rendering.Builds)
include builds

theorem buildPage_notClosing (notes : Bool) (opn : Nat) (soFar : Int × Option Text) :
    Stops NotClosing (buildPage rendering notes opn soFar) := by
  have results (data : DataOperation) (fmt : Format.OutputFormat) :
      Stops NotClosing (buildResults rendering data fmt soFar.2) := by
    apply Stops.get
    intro w
    apply Stops.ite
    · exact fun _ => Stops.pure _
    · intro _
      cases built : rendering.build data with
      | error why => exact Stops.fail (builds data why built)
      | ok page => exact (Stops.modify _).bind fun _ => Stops.pure _
  have noted : Stops NotClosing (setNote notes opn) :=
    Stops.ite (fun _ => Stops.modify _) fun _ => Stops.pure _
  apply Stops.get
  intro w
  dsimp only
  split
  · exact (results _ _).bind fun _ => noted.bind fun _ => Stops.pure _
  · exact Stops.pure _

theorem conclude_notClosing (notes : Bool) :
    Stops NotClosing (conclude srv ndb rendering notes) := by
  have pages (opns : List Nat) (soFar : Int × Option Text) :
      Stops NotClosing (buildPages rendering notes opns soFar) := by
    induction opns generalizing soFar with
    | nil => exact Stops.pure _
    | cons opn opns ih => exact (buildPage_notClosing builds notes opn soFar).bind fun _ => ih _
  have page (buff : Option Text) : Stops NotClosing (sendPage rendering buff) := by
    apply Stops.get
    intro w
    exact Stops.ite (fun _ => (Stops.modify _).bind fun _ => Stops.pure _) fun _ => Stops.pure _
  apply (execCommit_notClosing srv ndb _ _ _).bind
  rintro ⟨late,error⟩
  apply Stops.ite
  · exact fun _ => Stops.pure _
  intro _
  apply Stops.ite
  · exact fun _ => Stops.pure _
  intro _
  apply Stops.get
  intro w
  apply (pages _ _).bind
  rintro ⟨status,buff⟩
  have sent : Stops NotClosing
      (if status = 0 ∧ notes = false then sendPage rendering buff else return status) :=
    Stops.ite (fun _ => page buff) fun _ => Stops.pure _
  exact sent.bind fun _ => Stops.pure _

end

section
variable (srv : ServerConfig) (ndb : Ndb.Answers) (rendering : Rendering) (r : RequestRec)

/-- `ExecuteAll` reports, and closes the transaction that was open. -/
theorem executeAll_open {w : World} {t : Nat} (tx : w.inst.tx = some t)
    (isOpen : w.isOpen t = some true) : ∃ v, Calm w v ∧
      ((∃ why, (rendering.Builds → NotClosing why) ∧
          executeAll srv ndb rendering r w = (.error why,v)) ∨
        ∃ status, executeAll srv ndb rendering r w = (.ok status,(v.shut t).leave)) := by
  have concluded := (conclude_records calm_records srv ndb rendering (r.main && !r.sendResult) w).1
  have stops (builds : rendering.Builds) :=
    conclude_notClosing srv ndb builds (r.main && !r.sendResult) w
  have opened : executeOpen srv ndb rendering r w = (conclude srv ndb rendering (r.main && !r.sendResult) >>=
      finish srv) w := by
    unfold executeOpen
    rw [Prog.bind_ok _ (Prog.get_run w),if_neg (by rw [tx]; exact Option.some_ne_none t)]
  unfold executeAll
  rcases ran : conclude srv ndb rendering (r.main && !r.sendResult) w with ⟨outcome,v⟩
  rw [ran] at concluded
  cases outcome with
  | error why =>
    rw [Prog.bind_error _ ran] at opened
    exact ⟨v,concluded,.inl ⟨why,fun builds => stops builds why (by rw [ran]),Prog.bind_error _ opened⟩⟩
  | ok conclusion =>
    rw [Prog.bind_ok _ ran] at opened
    have reported := report_records calm_records srv conclusion v
    have stops' : Stops NotClosing (report srv conclusion) :=
      Stops.ite (fun _ => handleError_notClosing _ _ _) fun _ =>
        Stops.ite (fun _ => handleError_notClosing _ _ _) fun _ => Stops.pure _
    rw [finish_report] at opened
    rcases told : report srv conclusion v with ⟨outcome,u⟩
    rw [told] at reported
    have calm : Calm w u := Trans.trans concluded reported.1
    cases outcome with
    | error why =>
      rw [Prog.bind_error _ told] at opened
      exact ⟨u,calm,.inl ⟨why,fun _ => stops' v why (by rw [told]),Prog.bind_error _ opened⟩⟩
    | ok status =>
      have closed := closeTx_open (calm.tx.trans tx) ((calm.isOpen t).trans isOpen)
      rw [Prog.bind_ok _ told,Prog.bind_ok _ closed,Prog.bind_ok _ (Prog.modify_run _ _)] at opened
      exact ⟨u,calm,.inr ⟨status,Prog.bind_ok _ opened⟩⟩

theorem executeAll_none {w : World} (tx : w.inst.tx = none) :
    executeAll srv ndb rendering r w = (.ok 400,w.leave) := by
  have opened : executeOpen srv ndb rendering r w = (.ok 400,w) := by
    unfold executeOpen
    rw [Prog.bind_ok _ (Prog.get_run w),if_pos tx]
    rfl
  unfold executeAll World.leave
  rw [Prog.bind_ok _ opened,← tx]
  rfl

end

/-- A query that has a transaction gives it up, or crashes for another reason. -/
def Yields : Stop → Prop
  | .crash why => NotClosing why
  | .abort1 _ => True
  | .returns _ | .abort2 _ => False

theorem Late.yields {stop : Stop} (late : Late stop) : Yields stop := by
  cases stop with
  | crash why => exact late
  | abort1 => trivial
  | returns => exact late.elim
  | abort2 => exact late.elim

theorem defineOperation_yields (setting : Setting) (dir : Dir) (source : QuerySource) (q : Items) :
    Stops Yields (defineOperation setting dir source q) := by
  have weaken {α : Type} {x : Querying α} (stops : Stops Late x) : Stops Yields x :=
    fun w why stopped => (stops w why stopped).yields
  rw [defineOperation_eq]
  apply (weaken (chooseIndex_stops setting dir q)).bind
  intro q₁
  apply (weaken (getNdbOperation_stops setting q₁)).bind
  intro q₂
  apply (weaken (opSetup_stops setting dir q₂)).bind
  rintro ⟨refused,q₃⟩
  apply Stops.ite
  · exact fun _ => Stops.fail trivial
  intro _
  apply (weaken (setIndexParts_stops setting dir q₃ _)).bind
  rintro ⟨mval,q₄⟩
  have filtered : Stops Yields
      (if 4 ≤ q₄.plan.value then setFilters setting dir q₄ q₄.filterList mval else return mval) :=
    Stops.ite (fun _ => weaken (setFilters_stops setting dir q₄ _ _)) fun _ => Stops.pure _
  apply filtered.bind
  intro _
  refine (Stops.modify _).bind fun _ => (weaken (opAction_stops setting dir q₄)).bind fun rc => ?_
  exact Stops.ite (fun _ => Stops.fail trivial) fun _ => Stops.pure _

section
variable (srv : ServerConfig) (setting : Setting) (r : RequestRec) (dir : Dir) (source : QuerySource)

/-- How a query ends, in a world where the transaction of the instance is open if there is one. -/
inductive Course (w : World) : Except Crash Int × World → Prop
  | crashes {why : Crash} {v : World} (other : NotClosing why) (quiet : Adds Event.IsSetup w v)
    (opened : Enters srv setting dir source w → Plans r dir ∧ ∃ u, Opens setting w u) :
    Course w (.error why,v)
  | returns {v : World} (outside : ¬Enters srv setting dir source w)
    (moved : Local Event.IsPage .localData w v) : Course w (.ok (-2),v)
  | unplanned {v : World} (enters : Enters srv setting dir source w) (unplanned : ¬Plans r dir)
    (plotted : Plotted w v) : Course w (.ok 404,v.giveUp source.keepTxOpen)
  | barred {v : World} (enters : Enters srv setting dir source w) (plans : Plans r dir)
    (free : w.inst.tx = none) (aborted : w.inst.aborted = true) (plotted : Plotted w v) :
    Course w (.ok 500,v.giveUp source.keepTxOpen)
  | unstarted {v : World} (enters : Enters srv setting dir source w) (plans : Plans r dir)
    (free : w.inst.tx = none) (fresh : w.inst.aborted = false)
    (refused : setting.ndb.startTransaction = false) (plotted : Plotted w v) :
    Course w (.error .closeNull,v)
  | aborts {u v : World} {d : DataRef} {t : Nat} {status : Int}
    (enters : Enters srv setting dir source w) (plans : Plans r dir) (opens : Opens setting w u)
    (moved : Local Event.IsDefining d u v) (tx : v.inst.tx = some t) (isOpen : v.isOpen t = some true)
    (failed : status ≠ 0) : Course w (.ok status,(v.shut t).giveUp source.keepTxOpen)
  | queues {u v : World} {d : DataRef} {t : Nat} (enters : Enters srv setting dir source w)
    (plans : Plans r dir) (opens : Opens setting w u) (moved : Local Event.IsDefining d u v)
    (tx : v.inst.tx = some t) (isOpen : v.isOpen t = some true)
    (keeps : source.keepTxOpen = true) : Course w (.ok 0,v)
  | executes {u v : World} {d : DataRef} {t : Nat} (enters : Enters srv setting dir source w)
    (plans : Plans r dir) (opens : Opens setting w u) (moved : Local Event.IsDefining d u v)
    (tx : v.inst.tx = some t) (isOpen : v.isOpen t = some true)
    (alone : source.keepTxOpen = false) :
    Course w (executeAll srv setting.ndb setting.rendering r v)

variable {w : World}

theorem Plotted.txOpen {v : World} (plotted : Plotted w v) (sound : w.TxOpen) : v.TxOpen := by
  intro t tx
  rw [plotted.isOpen]
  exact sound t (plotted.tx ▸ tx)

theorem Opens.txOpen {setting : Setting} {u : World} (opens : Opens setting w u) (sound : w.TxOpen) :
    ∃ t, u.inst.tx = some t ∧ u.isOpen t = some true := by
  cases opens with
  | joins plotted joined =>
    obtain ⟨t,tx⟩ := Option.ne_none_iff_exists'.mp joined
    have tx' := plotted.tx.trans tx
    exact ⟨t,tx',plotted.txOpen sound t tx'⟩
  | @starts v _ _ _ _ => exact ⟨_,rfl,start_txOpen v _ rfl⟩

theorem defined_course (enters : Enters srv setting dir source w) (plans : Plans r dir) {q : Items}
    {v u : World} (planned : planQuery srv setting r dir source w = (.ok q,v))
    (opened : openTransaction setting v = (.ok (),u)) (opens : Opens setting w u) (sound : w.TxOpen) :
    Course srv setting r dir source w (query srv setting r dir source w) := by
  have body : queryBody srv setting r dir source w = defineOperation setting dir source q u := by
    unfold queryBody
    rw [Prog.bind_ok _ planned,Prog.bind_ok _ opened]
  have defined : Moves (Local Event.IsDefining q.data) (defineOperation setting dir source q) fun _ => True :=
    defineOperation_local setting dir q (fun _ _ _ => trivial) (fun _ _ _ => trivial) source
  have moved := (defined u).1
  have yields := defineOperation_yields setting dir source q u
  obtain ⟨t,tx,isOpen⟩ := opens.txOpen sound
  rcases ran : defineOperation setting dir source q u with ⟨outcome,last⟩
  rw [ran] at moved yields body
  have tx' := moved.tx.trans tx
  have isOpen' := (moved.isOpen t).trans isOpen
  unfold query
  rw [body]
  cases outcome with
  | ok done =>
    dsimp only
    by_cases keeps : source.keepTxOpen = true
    · rw [if_pos keeps]
      exact .queues enters plans opens moved tx' isOpen' keeps
    · rw [if_neg keeps]
      exact .executes enters plans opens moved tx' isOpen' (Bool.eq_false_iff.mpr keeps)
  | error stop =>
    have yields := yields stop rfl
    cases stop with
    | crash why =>
      have quiet := opens.adds.trans (moved.trace.mono fun _ => Event.IsDefining.setup)
      exact .crashes yields quiet fun _ => ⟨plans,u,opens⟩
    | returns => exact yields.elim
    | abort2 => exact yields.elim
    | abort1 status =>
      dsimp only
      rw [Prog.bind_ok _ (closeTx_open tx' isOpen'),abort_run]
      refine .aborts enters plans opens moved tx' isOpen' ?_
      split
      · decide
      · assumption

theorem query_course (forms : ∀ why, source.formData = .error why → NotClosing why)
    (sound : w.TxOpen) : Course srv setting r dir source w (query srv setting r dir source w) := by
  by_cases enters : Enters srv setting dir source w
  · have entered := planQuery_enters srv setting r dir source enters
    have plotted := planQuery_plotted srv setting r dir source w
    by_cases plans : Plans r dir
    · obtain ⟨q,v,planned⟩ := entered.1 plans
      rw [planned] at plotted
      rcases openTransaction_cases setting v with
        ⟨joined,opened⟩ | ⟨free,aborted,opened⟩ | ⟨free,fresh,started,opened⟩ | ⟨free,fresh,refused,opened⟩
      · exact defined_course srv setting r dir source enters plans planned opened
          (.joins plotted (plotted.tx ▸ joined)) sound
      · have body : queryBody srv setting r dir source w = (.error (.abort2 500),v) := by
          unfold queryBody
          rw [Prog.bind_ok _ planned,Prog.bind_error _ opened]
        unfold query
        rw [body]
        dsimp only
        rw [abort_run]
        exact .barred enters plans (plotted.tx.symm.trans free) (plotted.aborted.symm.trans aborted) plotted
      · exact defined_course srv setting r dir source enters plans planned opened
          (.starts plotted (plotted.tx.symm.trans free) (plotted.aborted.symm.trans fresh) started) sound
      · have body : queryBody srv setting r dir source w = (.error (.abort1 500),v) := by
          unfold queryBody
          rw [Prog.bind_ok _ planned,Prog.bind_error _ opened]
        have closed : closeTx v = (.error .closeNull,v) := by
          unfold closeTx
          rw [free]
        unfold query
        rw [body]
        dsimp only
        rw [Prog.bind_error _ closed]
        exact .unstarted enters plans (plotted.tx.symm.trans free) (plotted.aborted.symm.trans fresh) refused
          plotted
    · obtain ⟨v,refused⟩ := entered.2 plans
      rw [refused] at plotted
      have body : queryBody srv setting r dir source w = (.error (.abort2 404),v) := by
        unfold queryBody
        rw [Prog.bind_error _ refused]
      unfold query
      rw [body]
      dsimp only
      rw [abort_run]
      exact .unplanned enters plans plotted
  · obtain ⟨⟨stop,stopped,early⟩,moved⟩ :=
      planQuery_rejects srv setting r dir source forms enters
    rcases ran : planQuery srv setting r dir source w with ⟨outcome,v⟩
    rw [ran] at stopped moved
    replace stopped : outcome = .error stop := stopped
    subst stopped
    have body : queryBody srv setting r dir source w = (.error stop,v) := by
      unfold queryBody
      rw [Prog.bind_error _ ran]
    unfold query
    rw [body]
    cases stop with
    | crash why =>
      have quiet := moved.trace.mono fun _ => Event.IsPage.setup
      exact .crashes early quiet fun inside => absurd inside enters
    | returns status =>
      replace early : status = -2 := early
      subst early
      exact .returns enters moved
    | abort1 => exact early.elim
    | abort2 => exact early.elim

end

section
variable (srv : ServerConfig) (setting : Setting) (r : RequestRec) (dir : Dir) (w : World)

theorem serve_bare (bare : dir.database = none ∨ dir.table = none) :
    serve srv (.query setting r dir) w = (.ok (-2),{w.next with
      trace := w.trace ++ [.errorPage 500 (text "Configuration error.")]}) := by
  have handled : serve srv (.query setting r dir) w = ndbHandler srv setting r dir w.next :=
    Prog.bind_ok _ (Prog.modify_run _ w)
  rw [handled]
  unfold ndbHandler
  rw [if_pos bare]
  rfl

theorem serve_query (database : dir.database ≠ none) (table : dir.table ≠ none) :
    serve srv (.query setting r dir) w = query srv setting r dir (sourceOf r) w.next.count := by
  have handled : serve srv (.query setting r dir) w = ndbHandler srv setting r dir w.next :=
    Prog.bind_ok _ (Prog.modify_run _ w)
  rw [handled]
  unfold ndbHandler
  rw [if_neg (not_or.mpr ⟨database,table⟩)]
  exact Prog.bind_ok _ (Prog.modify_run _ w.next)

end

end ModNdb.Query
