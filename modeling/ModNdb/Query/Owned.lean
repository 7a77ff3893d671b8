import ModNdb.Query.Batch
import ModNdb.Query.Transactions

/-! Whose operations are executed: a batch that a subrequest has failed in, and a request from
outside. -/
namespace ModNdb.Query
open Config (Dir)
open Prog (Leads)

/-- Between requests a batch that was aborted has no transaction, and without a transaction no slot is
in use unless a batch was aborted. -/
structure Steady (w : World) : Prop where
  txOpen : w.TxOpen
  barred : w.inst.aborted = true → w.inst.tx = none
  idle : w.inst.tx = none → w.inst.aborted = false → w.inst.nReadOps = 0

section
variable {w v : World}

theorem Steady.same (steady : Steady w) (txOpen : v.TxOpen) (tx : v.inst.tx = w.inst.tx)
    (aborted : v.inst.aborted = w.inst.aborted) (nReadOps : v.inst.nReadOps = w.inst.nReadOps) :
    Steady v where
  txOpen := txOpen
  barred gone := tx.trans (steady.barred (aborted.symm.trans gone))
  idle free fresh := nReadOps.trans (steady.idle (tx.symm.trans free) (aborted.symm.trans fresh))

theorem leave_steady (w : World) : Steady w.leave where
  txOpen := txOpen_none rfl
  barred _ := rfl
  idle _ _ := rfl

theorem giveUp_steady (keeps : Bool) (w : World) : Steady (w.giveUp keeps) := by
  cases keeps with
  | false => exact leave_steady w
  | true => exact ⟨txOpen_none rfl,fun _ => rfl,fun _ fresh => by cases fresh⟩

theorem executeAll_steady (srv : ServerConfig) (ndb : Ndb.Answers) {rendering : Rendering}
    (r : RequestRec) (sound : w.TxOpen) {status : Int} (ran : executeAll srv ndb rendering r w = (.ok status,v)) :
    Steady v := by
  cases tx : w.inst.tx with
  | none =>
    rw [executeAll_none srv ndb rendering r tx] at ran
    cases ran
    exact leave_steady w
  | some t =>
    obtain ⟨u,_,⟨why,_,crashed⟩ | ⟨rc,ended⟩⟩ := executeAll_open srv ndb rendering r tx (sound t tx)
    · rw [crashed] at ran
      cases ran
    · rw [ended] at ran
      cases ran
      exact leave_steady _

end

section
variable {srv : ServerConfig} {setting : Setting} {r : RequestRec} {dir : Dir} {source : QuerySource}
  {w v : World}

theorem Opens.fresh {u : World} (opens : Opens setting w u) (steady : Steady w) :
    w.inst.aborted = false ∧ u.inst.aborted = false := by
  cases opens with
  | joins plotted joined =>
    have fresh : w.inst.aborted = false :=
      Bool.eq_false_iff.mpr fun barred => joined (steady.barred barred)
    exact ⟨fresh,plotted.aborted.trans fresh⟩
  | starts plotted _ fresh => exact ⟨fresh,plotted.aborted.trans fresh⟩

theorem Course.steady {result : Except Crash Int × World}
    (course : Course srv setting r dir source w result) (steady : Steady w) {status : Int}
    (returned : result = (.ok status,v)) : Steady v := by
  cases course with
  | crashes | unstarted => cases returned
  | returns outside moved =>
    cases returned
    exact steady.same (moved.txOpen steady.txOpen) moved.tx moved.aborted moved.nReadOps
  | unplanned | barred | aborts =>
    cases returned
    exact giveUp_steady _ _
  | queues enters plans opens moved tx isOpen =>
    cases returned
    have fresh := moved.aborted.trans (opens.fresh steady).2
    refine ⟨fun t own => ?_,fun barred => ?_,fun free => ?_⟩
    · cases tx.symm.trans own
      exact isOpen
    · cases fresh.symm.trans barred
    · cases tx.symm.trans free
  | executes enters plans opens moved tx isOpen =>
    refine executeAll_steady srv setting.ndb r (fun t own => ?_) returned
    cases tx.symm.trans own
    exact isOpen

/-- In a batch that was aborted, every further subrequest is in vain. -/
theorem Course.barred_stays {result : Except Crash Int × World}
    (course : Course srv setting r dir source w result) (steady : Steady w)
    (keeps : source.keepTxOpen = true) (barred : w.inst.aborted = true) {status : Int}
    (returned : result = (.ok status,v)) : v.inst.aborted = true := by
  have apart {u : World} (opens : Opens setting w u) : False := by
    cases (opens.fresh steady).1.symm.trans barred
  have given (u : World) : (u.giveUp source.keepTxOpen).inst.aborted = true := by
    rw [keeps]
    rfl
  cases course with
  | crashes | unstarted => cases returned
  | returns outside moved =>
    cases returned
    exact moved.aborted.trans barred
  | unplanned | barred =>
    cases returned
    exact given _
  | aborts _ _ opens | queues _ _ opens | executes _ _ opens => exact (apart opens).elim

/-- A subrequest that fails after it came to look for a plan aborts the batch. -/
theorem Course.fails {result : Except Crash Int × World}
    (course : Course srv setting r dir source w result) (enters : Enters srv setting dir source w)
    (keeps : source.keepTxOpen = true) {status : Int} (failed : status ≠ 0)
    (returned : result = (.ok status,v)) : v.inst.aborted = true := by
  have given (u : World) : (u.giveUp source.keepTxOpen).inst.aborted = true := by
    rw [keeps]
    rfl
  cases course with
  | crashes | unstarted => cases returned
  | returns outside => exact absurd enters outside
  | unplanned | barred | aborts =>
    cases returned
    exact given _
  | queues =>
    cases returned
    exact absurd rfl failed
  | executes _ _ _ _ _ _ alone => cases keeps.symm.trans alone

end

section
variable (srv : ServerConfig)

theorem serve_steady (request : Request) :
    Leads Steady (serve srv request) fun _ => Steady := by
  intro w status v steady ran
  have counted : Steady w.next.count := steady.same steady.txOpen rfl rfl rfl
  cases request with
  | execBatch setting r => exact executeAll_steady srv setting.ndb r counted.txOpen ran
  | query setting r dir =>
    by_cases bare : dir.database = none ∨ dir.table = none
    · rw [serve_bare srv setting r dir w bare] at ran
      cases ran
      exact steady.same steady.txOpen rfl rfl rfl
    · obtain ⟨database,table⟩ := not_or.mp bare
      rw [serve_query srv setting r dir w database table] at ran
      have course := query_course srv setting r dir (sourceOf r) (fun _ => formData_notClosing r)
        counted.txOpen
      exact course.steady counted ran

theorem run_steady (requests : List Request) : Leads Steady (run srv requests) fun _ => Steady :=
  Leads.forM fun request _ =>
    (serve_steady srv request).bind fun _ => Leads.pure _ fun _ steady => steady

variable {srv}

theorem Reachable.steady {w : World} (reachable : Reachable srv w) : Steady w := by
  obtain ⟨requests,ran⟩ := reachable
  exact run_steady srv requests World.init () w ⟨txOpen_none rfl,fun _ => rfl,fun _ _ => rfl⟩ ran

theorem sourceOf_keeps {r : RequestRec} (subrequest : r.main = true) :
    (sourceOf r).keepTxOpen = true := by
  unfold sourceOf
  rw [if_pos subrequest]
  rfl

/-- A subrequest to `ndb_handler`, whose source keeps the transaction open. -/
def Request.IsSubrequest : Request → Prop
  | .query _ r _ => r.main = true
  | .execBatch _ _ => False

/-- `Query` is called for it, and returns something else than `OK`. -/
def Request.Fails (srv : ServerConfig) (w : World) : Request → Prop
  | .query setting r dir => dir.database ≠ none ∧ dir.table ≠ none ∧
      ∃ status, (Query.query srv setting r dir (sourceOf r) w.next.count).1 = .ok status ∧ status ≠ 0
  | .execBatch _ _ => False

/-- If it fails, it does so where it can still abort the batch, or the batch was aborted before. -/
def Request.Heeded (srv : ServerConfig) (w : World) : Request → Prop
  | .query setting r dir => dir.database ≠ none → dir.table ≠ none →
      Enters srv setting dir (sourceOf r) w ∨ w.inst.aborted = true
  | .execBatch _ _ => True

section
variable {request : Request} {w v : World} {status : Int}

theorem serve_barred (subrequest : request.IsSubrequest) (steady : Steady w)
    (barred : w.inst.aborted = true) (ran : serve srv request w = (.ok status,v)) :
    v.inst.aborted = true := by
  have counted : Steady w.next.count := steady.same steady.txOpen rfl rfl rfl
  cases request with
  | execBatch => exact subrequest.elim
  | query setting r dir =>
    by_cases bare : dir.database = none ∨ dir.table = none
    · rw [serve_bare srv setting r dir w bare] at ran
      cases ran
      exact barred
    · obtain ⟨database,table⟩ := not_or.mp bare
      rw [serve_query srv setting r dir w database table] at ran
      have course := query_course srv setting r dir (sourceOf r) (fun _ => formData_notClosing r)
        counted.txOpen
      exact course.barred_stays counted (sourceOf_keeps subrequest) barred ran

theorem serve_fails (subrequest : request.IsSubrequest) (steady : Steady w)
    (heeded : request.Heeded srv w) (fails : request.Fails srv w)
    (ran : serve srv request w = (.ok status,v)) : v.inst.aborted = true := by
  have counted : Steady w.next.count := steady.same steady.txOpen rfl rfl rfl
  cases request with
  | execBatch => exact subrequest.elim
  | query setting r dir =>
    obtain ⟨database,table,rc,returned,failed⟩ := fails
    rcases heeded database table with enters | barred
    · rw [serve_query srv setting r dir w database table] at ran
      rw [ran] at returned
      cases returned
      have course := query_course srv setting r dir (sourceOf r) (fun _ => formData_notClosing r)
        counted.txOpen
      exact course.fails enters (sourceOf_keeps subrequest) failed ran
    · exact serve_barred subrequest steady barred ran

end

theorem run_single_inv {request : Request} {v next : World}
    (ran : run srv [request] v = (.ok (),next)) : ∃ status, serve srv request v = (.ok status,next) := by
  rcases served : serve srv request v with ⟨outcome,last⟩
  cases outcome with
  | error why =>
    rw [run_single_error srv served] at ran
    cases ran
  | ok status =>
    rw [run_single_ok srv served] at ran
    cases ran
    exact ⟨status,rfl⟩

theorem run_barred {requests : List Request} (subrequests : ∀ request ∈ requests, request.IsSubrequest) :
    Leads (fun w => Steady w ∧ w.inst.aborted = true) (run srv requests)
      fun _ w => Steady w ∧ w.inst.aborted = true := by
  refine Leads.forM fun request inside => Leads.bind (Q := fun _ w => Steady w ∧ w.inst.aborted = true)
    ?_ fun _ => Leads.pure _ fun _ barred => barred
  intro w status v barred ran
  exact ⟨serve_steady srv request w status v barred.1 ran,
    serve_barred (subrequests request inside) barred.1 barred.2 ran⟩

/-- If each subrequest of a batch is heeded, executing the batch does nothing after one of them has
failed. -/
theorem failed_batch {w : World} (reachable : Reachable srv w) (requests : List Request)
    (subrequests : ∀ request ∈ requests, request.IsSubrequest)
    (heeded : ∀ served request, served ++ [request] <+: requests → ∀ v,
      run srv served w = (.ok (),v) → request.Heeded srv v)
    (failed : ∃ served request v, served ++ [request] <+: requests ∧
      run srv served w = (.ok (),v) ∧ request.Fails srv v)
    {last : World} (ran : run srv requests w = (.ok (),last)) (setting : Setting) (r : RequestRec) :
    (serve srv (.execBatch setting r) last).2.trace = last.trace := by
  obtain ⟨served,request,v,part,before,fails⟩ := failed
  have steady : Steady v := run_steady srv served w () v reachable.steady before
  have heeds := heeded served request part v before
  obtain ⟨rest,whole⟩ := part
  have inside (other : Request) (among : other ∈ request::rest) : other.IsSubrequest := by
    refine subrequests other (whole ▸ ?_)
    rw [List.append_assoc]
    exact List.mem_append_right served among
  rw [← whole,List.append_assoc,run_append,Prog.bind_ok _ before,run_append] at ran
  obtain ⟨_,next,once,after⟩ := Prog.bind_inv ran
  obtain ⟨status,ran⟩ := run_single_inv once
  have barred := serve_fails (inside request List.mem_cons_self) steady heeds fails ran
  have steady' := serve_steady srv request v status next steady ran
  obtain ⟨steady'',aborted⟩ := run_barred (fun other among => inside other (List.mem_cons_of_mem _ among))
    next () last ⟨steady',barred⟩ after
  have free : last.next.count.inst.tx = none := steady''.barred aborted
  have executed : serve srv (.execBatch setting r) last = (.ok 400,last.next.count.leave) :=
    executeAll_none srv setting.ndb setting.rendering r free
  rw [executed]
  rfl

end

/-- The second of two subrequests has no plan. -/
theorem failed_batch_planless :
    (serve ⟨2,0,false⟩ (.execBatch (storing items) (asking true []))
      (run ⟨2,0,false⟩ planless World.init).2).2.trace =
      (run ⟨2,0,false⟩ planless World.init).2.trace := by
  have fine : run ⟨2,0,false⟩ (planless.take 1) World.init =
      (.ok (),(run ⟨2,0,false⟩ (planless.take 1) World.init).2) := rfl
  refine failed_batch (w := World.init) ⟨[],rfl⟩ planless (fun request inside => ?_)
    (fun served request part v ran => ?_) ⟨planless.take 1,planless[1],_,⟨[],rfl⟩,fine,?_⟩ rfl _ _
  · rcases List.mem_cons.mp inside with rfl | inside
    · rfl
    · rw [List.mem_singleton.mp inside]
      rfl
  · obtain ⟨rest,whole⟩ := part
    cases served with
    | nil =>
      cases ran
      cases whole
      exact fun _ _ => .inl ⟨Option.some_ne_none _,.inl rfl,fun _ => by decide⟩
    | cons first served =>
      cases served with
      | nil =>
        cases whole
        cases ran
        exact fun _ _ => .inl ⟨Option.some_ne_none _,.inl rfl,fun _ => by decide +kernel⟩
      | cons second served =>
        have long := congrArg List.length whole
        simp [planless] at long
  · exact ⟨Option.some_ne_none _,Option.some_ne_none _,404,by decide +kernel,by decide⟩

def crowded : List Request :=
  [.query (storing items) (asking true (text "id=7")) itemsDir,
    .query (storing items) (asking true (text "id=8")) itemsDir]

/-- The second subrequest fails, and the operation of the first is executed. -/
theorem crowded_executed :
    (crowded[1]).Fails ⟨1,0,false⟩ (run ⟨1,0,false⟩ (crowded.take 1) World.init).2 ∧
    (run ⟨1,0,false⟩ crowded World.init).1 = .ok () ∧
    .executed 0 [⟨1⟩] ⟨false,.noError,0,[]⟩ ∈ (serve ⟨1,0,false⟩ (.execBatch (storing items) (asking true []))
      (run ⟨1,0,false⟩ crowded World.init).2).2.trace := by
  refine ⟨⟨Option.some_ne_none _,Option.some_ne_none _,-2,?_,by decide⟩,?_,?_⟩ <;> decide +kernel

/-- Executed operations and results that are built are those of one request. -/
def Event.OwnedBy (n : Nat) : Event → Prop
  | .executed _ ops _ => ∀ op ∈ ops, op = ⟨n⟩
  | .built op => ∀ o ∈ op, o = ⟨n⟩
  | _ => True

theorem Event.IsSetup.owned {event : Event} (setup : event.IsSetup) (n : Nat) : event.OwnedBy n := by
  cases event with
  | keyPart | filter | errorPage | started => trivial
  | executed | closed | built | note | page => exact setup.elim

/-- The transaction and the slots have nothing but operations of the request. -/
structure Owning (n : Nat) (w : World) : Prop where
  ops : ∀ t, w.inst.tx = some t → ∀ op ∈ w.ops t, op = ⟨n⟩
  slots : ∀ k, ∀ o ∈ (w.inst.data k).op, o = ⟨n⟩

theorem Owning.report {n : Nat} {w : World} (owning : Owning n w) {event : Event}
    (report : event.IsReport w) : event.OwnedBy n := by
  cases event with
  | executed t ops outcome =>
    obtain ⟨tx,rfl⟩ := report
    exact owning.ops t tx
  | built op =>
    obtain ⟨k,rfl⟩ := report
    exact owning.slots k
  | note | page | errorPage => trivial
  | keyPart | filter | started | closed => trivial

theorem Owning.calm {n : Nat} {w v : World} (owning : Owning n w) (calm : Calm w v) :
    Adds (Event.OwnedBy n) w v := calm.trace.mono fun _ => owning.report

theorem executeAll_owned {n : Nat} {w : World} (owning : Owning n w) (srv : ServerConfig)
    (ndb : Ndb.Answers) (rendering : Rendering) (r : RequestRec) {t : Nat} (tx : w.inst.tx = some t)
    (isOpen : w.isOpen t = some true) :
    Adds (Event.OwnedBy n) w (executeAll srv ndb rendering r w).2 := by
  obtain ⟨v,calm,⟨why,_,crashed⟩ | ⟨status,ended⟩⟩ := executeAll_open srv ndb rendering r tx isOpen
  · rw [crashed]
    exact owning.calm calm
  · rw [ended]
    exact (owning.calm calm).trans (.one rfl trivial)

section
variable {srv : ServerConfig} {setting : Setting} {r : RequestRec} {dir : Dir} {source : QuerySource}
  {w : World}

/-- A transaction that is started has the operations of its request only. -/
theorem Opens.owning {u v : World} {d : DataRef} (opens : Opens setting w u)
    (moved : Local Event.IsDefining d u v) (free : w.inst.tx = none)
    (empty : w.inst.aborted = false → ∀ k, (w.inst.data k).op = none) : Owning w.request v := by
  cases opens with
  | joins _ joined => exact absurd free joined
  | @starts m plotted _ fresh =>
    refine ⟨fun t tx op inside => ?_,fun k o stored => ?_⟩
    · obtain ⟨more,added,own⟩ := moved.ops t
      have own_t : t = m.transactions.length := Option.some.inj (tx.symm.trans moved.tx)
      have none : m.start.ops t = [] := by
        unfold World.ops World.start
        rw [own_t,List.getElem?_append_right (Nat.le_refl _),Nat.sub_self]
        rfl
      rw [added,none] at inside
      rw [(own op inside).2]
      exact congrArg Ndb.Operation.mk plotted.request
    · have before : (m.inst.data k).op = none ∨ (m.inst.data k).op = some ⟨w.request⟩ :=
        (plotted.op k).imp (fun same => same.trans (empty fresh k)) id
      rcases moved.op k with same | own
      · have same : (v.inst.data k).op = (m.inst.data k).op := same
        rcases before with none | own <;> rw [same] at stored
        · cases none.symm.trans stored
        · exact Option.some.inj (stored.symm.trans own)
      · have stored' := stored.symm.trans own
        cases stored'
        exact congrArg Ndb.Operation.mk plotted.request

theorem Course.owned {result : Except Crash Int × World}
    (course : Course srv setting r dir source w result)
    (free : Enters srv setting dir source w → Plans r dir → w.inst.tx = none)
    (empty : w.inst.tx = none → w.inst.aborted = false → ∀ k, (w.inst.data k).op = none) :
    Adds (Event.OwnedBy w.request) w result.2 := by
  have setup {u v : World} (quiet : Adds Event.IsSetup u v) : Adds (Event.OwnedBy w.request) u v :=
    quiet.mono fun _ setup => setup.owned _
  have defined {u v : World} {d : DataRef} (opens : Opens setting w u)
      (moved : Local Event.IsDefining d u v) : Adds Event.IsSetup w v :=
    opens.adds.trans (moved.trace.mono fun _ => Event.IsDefining.setup)
  have given {u : World} (adds : Adds (Event.OwnedBy w.request) w u) :
      Adds (Event.OwnedBy w.request) w (u.giveUp source.keepTxOpen) :=
    adds.trans (.none (giveUp_trace _ _))
  cases course with
  | crashes other quiet => exact setup quiet
  | returns outside moved => exact setup (moved.trace.mono fun _ => Event.IsPage.setup)
  | unstarted _ _ _ _ _ plotted => exact setup (plotted.trace.mono fun _ => Event.IsPage.setup)
  | unplanned _ _ plotted | barred _ _ _ _ plotted =>
    exact given (setup (plotted.trace.mono fun _ => Event.IsPage.setup))
  | aborts _ _ opens moved =>
    exact given ((setup (defined opens moved)).trans (.one rfl trivial))
  | queues _ _ opens moved => exact setup (defined opens moved)
  | executes enters plans opens moved tx isOpen =>
    have owning := opens.owning moved (free enters plans) (empty (free enters plans))
    exact (setup (defined opens moved)).trans (executeAll_owned owning srv _ _ r tx isOpen)

end

theorem Reachable.slots {srv : ServerConfig} {w : World} (reachable : Reachable srv w) : Slots srv w := by
  obtain ⟨requests,ran⟩ := reachable
  have kept := run_slots srv requests World.init (init_slots srv)
  rwa [ran] at kept

/-- A request that finds no transaction open, if it comes to have a plan, executes its own operations
and no others, and is answered with their results. -/
theorem serve_owned {srv : ServerConfig} {w : World} (reachable : Reachable srv w) (setting : Setting)
    (r : RequestRec) (dir : Dir) (free : dir.database ≠ none → dir.table ≠ none →
      Enters srv setting dir (sourceOf r) w → Plans r dir → w.inst.tx = none) :
    Adds (Event.OwnedBy (w.request + 1)) w (serve srv (.query setting r dir) w).2 := by
  by_cases bare : dir.database = none ∨ dir.table = none
  · rw [serve_bare srv setting r dir w bare]
    exact .one rfl trivial
  · obtain ⟨database,table⟩ := not_or.mp bare
    rw [serve_query srv setting r dir w database table]
    have counted : w.next.count.TxOpen := reachable.txOpen
    have course := query_course srv setting r dir (sourceOf r) (fun _ => formData_notClosing r) counted
    refine course.owned (free database table) fun none fresh k => ?_
    have unused : w.inst.data k = .zero :=
      reachable.slots.unused k (reachable.steady.idle none fresh ▸ Nat.zero_le k)
    exact congrArg DataOperation.op unused

def finished : List Request :=
  [.query (storing items) (asking true (text "id=7")) itemsDir,
    .execBatch (storing items) (asking true [])]

/-- A request from outside, behind a batch. -/
theorem serve_owned_later :
    Adds (Event.OwnedBy 3) (run ⟨2,0,false⟩ finished World.init).2 (serve ⟨2,0,false⟩
      (.query (storing items) (asking false (text "id=8")) itemsDir)
      (run ⟨2,0,false⟩ finished World.init).2).2 ∧
    .executed 1 [⟨3⟩] ⟨false,.noError,0,[]⟩ ∈ (serve ⟨2,0,false⟩
      (.query (storing items) (asking false (text "id=8")) itemsDir)
      (run ⟨2,0,false⟩ finished World.init).2).2.trace := by
  have served : (run ⟨2,0,false⟩ finished World.init).1 = .ok () := by decide +kernel
  have reachable : Reachable ⟨2,0,false⟩ (run ⟨2,0,false⟩ finished World.init).2 :=
    ⟨finished,Prod.ext served rfl⟩
  have free : (run ⟨2,0,false⟩ finished World.init).2.inst.tx = none := by decide +kernel
  have count : (run ⟨2,0,false⟩ finished World.init).2.request = 2 := by decide +kernel
  have owned := serve_owned reachable (storing items) (asking false (text "id=8")) itemsDir
    fun _ _ _ _ => free
  rw [count] at owned
  exact ⟨owned,by decide +kernel⟩

def abandoned : List Request := [.query (storing items) (asking true (text "id=7")) itemsDir]

/-- The next request executes the operation, too. -/
theorem abandoned_executed :
    (run ⟨2,0,false⟩ abandoned World.init).1 = .ok () ∧
    ¬Adds (Event.OwnedBy 2) (run ⟨2,0,false⟩ abandoned World.init).2 (serve ⟨2,0,false⟩
      (.query (storing items) (asking false (text "id=8")) itemsDir)
      (run ⟨2,0,false⟩ abandoned World.init).2).2 := by
  refine ⟨by decide +kernel,?_⟩
  rintro ⟨more,added,owned⟩
  have executed : Event.executed 0 [⟨1⟩,⟨2⟩] ⟨false,.noError,0,[]⟩ ∈ (serve ⟨2,0,false⟩
      (.query (storing items) (asking false (text "id=8")) itemsDir)
      (run ⟨2,0,false⟩ abandoned World.init).2).2.trace := by decide +kernel
  have before : Event.executed 0 [⟨1⟩,⟨2⟩] ⟨false,.noError,0,[]⟩ ∉
      (run ⟨2,0,false⟩ abandoned World.init).2.trace := by decide +kernel
  rw [added] at executed
  have own := owned _ ((List.mem_append.mp executed).resolve_left before) ⟨1⟩ List.mem_cons_self
  cases own

end ModNdb.Query
