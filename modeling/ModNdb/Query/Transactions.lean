import ModNdb.Query.Courses

/-! The life of a transaction over runs of requests: when each one that is started is closed once,
and none is lost. -/
namespace ModNdb.Query
open Config (Dir)

/-- The transaction of the instance is the one that is open, and all others were closed once. -/
structure Tidy (w : World) : Prop where
  owned : ∀ t, w.isOpen t = some true ↔ w.inst.tx = some t
  closed : ∀ t, w.trace.count (.closed t) = if w.isOpen t = some false then 1 else 0

theorem Tidy.txOpen {w : World} (tidy : Tidy w) : w.TxOpen := fun t => (tidy.owned t).mpr

/-- A call did not close through a null pointer or a second time, and if it returned it left the
transactions tidy. -/
structure Kept {α : Type} (result : Except Crash α × World) : Prop where
  closes : ∀ why, result.1 = .error why → NotClosing why
  tidy : ∀ a, result.1 = .ok a → Tidy result.2

theorem Kept.ok {α : Type} {a : α} {w : World} (tidy : Tidy w) : Kept (.ok a,w) where
  closes _ none := by cases none
  tidy _ _ := tidy

theorem Kept.error {α : Type} {why : Crash} {w : World} (other : NotClosing why) :
    Kept ((.error why,w) : Except Crash α × World) where
  closes _ same := by
    cases same
    exact other
  tidy _ none := by cases none

section
variable {w v : World} (tidy : Tidy w)
include tidy

theorem Tidy.same (tx : v.inst.tx = w.inst.tx) (isOpen : ∀ t, v.isOpen t = w.isOpen t)
    (adds : Adds (fun e => ∀ t, e ≠ .closed t) w v) : Tidy v where
  owned t := by
    rw [isOpen,tx]
    exact tidy.owned t
  closed t := by
    obtain ⟨more,added,other⟩ := adds
    have none : more.count (.closed t) = 0 := List.count_eq_zero.mpr fun inside => other _ inside t rfl
    rw [added,List.count_append,none,Nat.add_zero,isOpen]
    exact tidy.closed t

theorem Tidy.moved {allowed : Event → Prop} {d : DataRef} (moved : Local allowed d w v)
    (other : ∀ e, allowed e → ∀ t, e ≠ .closed t) : Tidy v :=
  tidy.same moved.tx moved.isOpen (moved.trace.mono other)

theorem Tidy.plotted (plotted : Plotted w v) : Tidy v := by
  refine tidy.same plotted.tx plotted.isOpen (plotted.trace.mono fun e page t closed => ?_)
  obtain ⟨status,content,same⟩ := page
  cases same.symm.trans closed

theorem Tidy.calm (calm : Calm w v) : Tidy v := by
  refine tidy.same calm.tx calm.isOpen (calm.trace.mono fun e report t closed => ?_)
  rw [closed] at report
  exact report

theorem Tidy.start (free : w.inst.tx = none) : Tidy w.start := by
  have isOpen (t : Nat) : w.start.isOpen t =
      if t = w.transactions.length then some true else w.isOpen t := by
    unfold World.isOpen World.start
    dsimp only
    by_cases new : t = w.transactions.length
    · rw [if_pos new,new,List.getElem?_append_right (Nat.le_refl _),Nat.sub_self]
      rfl
    · rw [if_neg new]
      by_cases old : t < w.transactions.length
      · rw [List.getElem?_append_left old]
      · rw [List.getElem?_append_right (Nat.not_lt.mp old),List.getElem?_eq_none (Nat.not_lt.mp old),
          List.getElem?_eq_none]
        simp only [List.length_singleton]
        omega
  have missing : w.isOpen w.transactions.length = none := by
    unfold World.isOpen
    rw [List.getElem?_eq_none (Nat.le_refl _)]
    rfl
  refine ⟨fun t => ?_,fun t => ?_⟩
  · have tx : w.start.inst.tx = some w.transactions.length := rfl
    rw [isOpen,tx]
    by_cases new : t = w.transactions.length
    · simp [new]
    · rw [if_neg new,tidy.owned,free]
      simp [Ne.symm new]
  · have other : (w.trace ++ [Event.started w.transactions.length]).count (Event.closed t) =
        w.trace.count (Event.closed t) := by
      rw [List.count_append,List.count_singleton,Nat.add_eq_left]
      rfl
    have trace : w.start.trace = w.trace ++ [.started w.transactions.length] := rfl
    rw [trace,other,tidy.closed,isOpen]
    by_cases new : t = w.transactions.length
    · subst new
      rw [missing,if_pos rfl]
      rfl
    · rw [if_neg new]

theorem Tidy.shut {t : Nat} (tx : w.inst.tx = some t) (gone : v.inst.tx = none)
    (transactions : v.transactions = (w.shut t).transactions) (trace : v.trace = (w.shut t).trace) :
    Tidy v := by
  have opened := (tidy.owned t).mpr tx
  have isOpen (k : Nat) : v.isOpen k = if t = k then some false else w.isOpen k := by
    unfold World.isOpen
    rw [transactions]
    unfold World.shut
    dsimp only
    rw [List.getElem?_modify]
    by_cases same : t = k
    · subst same
      obtain ⟨there,found,_⟩ := Option.map_eq_some_iff.mp opened
      rw [found,if_pos rfl]
      simp
    · cases w.transactions[k]? <;> simp [same]
  refine ⟨fun k => ?_,fun k => ?_⟩
  · rw [isOpen,gone]
    by_cases same : t = k
    · simp [same]
    · rw [if_neg same,tidy.owned,tx]
      simp [same]
  · rw [trace,isOpen]
    unfold World.shut
    dsimp only
    rw [List.count_append,List.count_singleton,tidy.closed]
    by_cases same : t = k
    · subst same
      rw [opened]
      simp
    · simp [same]

end

theorem giveUp_tx (keeps : Bool) (w : World) : (w.giveUp keeps).inst.tx = none := by
  cases keeps <;> rfl

theorem giveUp_transactions (keeps : Bool) (w : World) :
    (w.giveUp keeps).transactions = w.transactions := by
  cases keeps <;> rfl

theorem giveUp_trace (keeps : Bool) (w : World) : (w.giveUp keeps).trace = w.trace := by
  cases keeps <;> rfl

theorem giveUp_isOpen (keeps : Bool) (w : World) (t : Nat) :
    (w.giveUp keeps).isOpen t = w.isOpen t := by
  unfold World.isOpen
  rw [giveUp_transactions]

/-- Giving up a transaction that is there loses it. -/
theorem giveUp_tidy_iff {w : World} (tidy : Tidy w) (keeps : Bool) :
    Tidy (w.giveUp keeps) ↔ w.inst.tx = none := by
  constructor
  · intro given
    by_contra there
    obtain ⟨t,tx⟩ := Option.ne_none_iff_exists'.mp there
    have opened := (tidy.owned t).mpr tx
    rw [← giveUp_isOpen keeps,given.owned,giveUp_tx] at opened
    cases opened
  · intro free
    exact tidy.same ((giveUp_tx keeps w).trans free.symm) (giveUp_isOpen keeps w) (.none (giveUp_trace keeps w))

section
variable (srv : ServerConfig) (setting : Setting) (r : RequestRec) (dir : Dir) (source : QuerySource)

/-- If a query comes to open a transaction, it starts; where there is no plan, none is open. -/
def Spares (w : World) : Prop :=
  Enters srv setting dir source w →
    (Plans r dir → w.inst.tx = none → w.inst.aborted = false → setting.ndb.startTransaction = true) ∧
    (¬Plans r dir → w.inst.tx = none)

variable {srv setting r dir source} {w : World}

theorem Opens.spares {u : World} (opens : Opens setting w u) (plans : Plans r dir) :
    Spares srv setting r dir source w := by
  refine fun _ => ⟨fun _ free _ => ?_,fun unplanned => absurd plans unplanned⟩
  cases opens with
  | joins _ joined => exact absurd free joined
  | starts _ _ _ started => exact started

theorem Opens.tidy {u : World} (opens : Opens setting w u) (tidy : Tidy w) : Tidy u := by
  cases opens with
  | joins plotted => exact tidy.plotted plotted
  | starts plotted free => exact (tidy.plotted plotted).start (plotted.tx.trans free)

theorem defining_not_closed (e : Event) (defining : e.IsDefining) (t : Nat) : e ≠ .closed t := by
  rintro rfl
  exact defining

theorem executeAll_kept (srv : ServerConfig) (ndb : Ndb.Answers) {rendering : Rendering} (r : RequestRec)
    (builds : rendering.Builds) (tidy : Tidy w) :
    Kept (executeAll srv ndb rendering r w) := by
  cases tx : w.inst.tx with
  | none =>
    rw [executeAll_none srv ndb rendering r tx]
    exact .ok (tidy.same tx.symm (fun _ => rfl) (.none rfl))
  | some t =>
    obtain ⟨v,calm,⟨why,other,crashed⟩ | ⟨status,ended⟩⟩ :=
      executeAll_open srv ndb rendering r tx ((tidy.owned t).mpr tx)
    · rw [crashed]
      exact .error (other builds)
    · rw [ended]
      exact .ok ((tidy.calm calm).shut (calm.tx.trans tx) rfl rfl rfl)

/-- What a query does with transactions, by its course. -/
theorem Course.kept_iff {result : Except Crash Int × World}
    (course : Course srv setting r dir source w result) (tidy : Tidy w)
    (builds : setting.rendering.Builds) :
    Kept result ↔ Spares srv setting r dir source w := by
  cases course with
  | crashes other _ opened =>
    refine iff_of_true (.error other) fun enters => ?_
    obtain ⟨plans,u,opens⟩ := opened enters
    exact opens.spares plans enters
  | returns outside moved =>
    refine iff_of_true (.ok (tidy.moved moved fun e page t closed => ?_)) (absurd · outside)
    obtain ⟨status,content,same⟩ := page
    cases same.symm.trans closed
  | @unplanned v enters unplanned plotted =>
    have given := giveUp_tidy_iff (tidy.plotted plotted) source.keepTxOpen
    rw [plotted.tx] at given
    constructor
    · exact fun kept _ => ⟨fun plans => absurd plans unplanned,fun _ => given.mp (kept.tidy _ rfl)⟩
    · exact fun spares => .ok (given.mpr ((spares enters).2 unplanned))
  | barred enters plans free aborted plotted =>
    refine iff_of_true (.ok ?_) fun _ => ⟨fun _ _ fresh => ?_,fun unplanned => absurd plans unplanned⟩
    · exact (giveUp_tidy_iff (tidy.plotted plotted) _).mpr (plotted.tx.trans free)
    · cases aborted.symm.trans fresh
  | unstarted enters plans free fresh refused =>
    refine iff_of_false (fun kept => (kept.closes _ rfl).1 rfl) fun spares => ?_
    exact absurd ((spares enters).1 plans free fresh) (by rw [refused]; exact Bool.false_ne_true)
  | aborts enters plans opens moved tx isOpen =>
    refine iff_of_true (.ok ?_) (opens.spares plans)
    refine ((opens.tidy tidy).moved moved defining_not_closed).shut tx (giveUp_tx _ _) ?_ ?_
    · exact giveUp_transactions _ _
    · exact giveUp_trace _ _
  | queues enters plans opens moved =>
    exact iff_of_true (.ok ((opens.tidy tidy).moved moved defining_not_closed)) (opens.spares plans)
  | executes enters plans opens moved =>
    refine iff_of_true (executeAll_kept srv setting.ndb r builds ?_) (opens.spares plans)
    exact (opens.tidy tidy).moved moved defining_not_closed

end

def Request.Delivers : Request → Prop
  | .query setting _ _ | .execBatch setting _ =>
    ∃ (delivery : Delivery) (meets : Text → Int), setting.rendering = ⟨delivery.build,meets⟩

/-- A request loses no transaction, and closes none that could not be started. -/
def Request.Spares (srv : ServerConfig) (w : World) : Request → Prop
  | .query setting r dir => dir.database ≠ none → dir.table ≠ none →
      Query.Spares srv setting r dir (sourceOf r) w
  | .execBatch _ _ => True

section
variable (srv : ServerConfig) {w : World}

theorem serve_kept_iff (request : Request) (delivers : request.Delivers) (tidy : Tidy w) :
    Kept (serve srv request w) ↔ request.Spares srv w := by
  have counted : Tidy w.next.count := tidy.same rfl (fun _ => rfl) (.none rfl)
  cases request with
  | execBatch setting r =>
    obtain ⟨delivery,meets,rendering⟩ := delivers
    refine iff_of_true (executeAll_kept srv setting.ndb r ?_ counted) trivial
    rw [rendering]
    exact fun _ _ => delivery.build_notClosing _
  | query setting r dir =>
    obtain ⟨delivery,meets,rendering⟩ := delivers
    by_cases bare : dir.database = none ∨ dir.table = none
    · rw [serve_bare srv setting r dir w bare]
      refine iff_of_true (.ok (tidy.same rfl (fun _ => rfl) (.one rfl fun _ same => by cases same))) fun database table => ?_
      exact absurd bare (not_or.mpr ⟨database,table⟩)
    · obtain ⟨database,table⟩ := not_or.mp bare
      rw [serve_query srv setting r dir w database table]
      have course := query_course srv setting r dir (sourceOf r) (fun _ => formData_notClosing r)
        counted.txOpen
      refine (course.kept_iff counted ?_).trans ⟨fun spares _ _ => spares,fun spares => spares database table⟩
      rw [rendering]
      exact fun _ _ => delivery.build_notClosing _

theorem run_append (before after : List Request) :
    run srv (before ++ after) = run srv before >>= fun _ => run srv after := by
  induction before with
  | nil => rfl
  | cons request before ih =>
    have cons (rest : List Request) : run srv (request::rest) =
        (serve srv request >>= fun _ => pure PUnit.unit) >>= fun _ => run srv rest := rfl
    rw [List.cons_append,cons,cons,ih]
    exact (Prog.bind_assoc _ _ _).symm

theorem run_single_ok {request : Request} {v next : World} {status : Int}
    (served : serve srv request v = (.ok status,next)) : run srv [request] v = (.ok (),next) := by
  have once : (serve srv request >>= fun _ => (pure () : Prog Crash World Unit)) v = (.ok (),next) :=
    Prog.bind_ok _ served
  exact Prog.bind_ok _ once

theorem run_single_error {request : Request} {v next : World} {why : Crash}
    (crashed : serve srv request v = (.error why,next)) : run srv [request] v = (.error why,next) := by
  have once : (serve srv request >>= fun _ => (pure () : Prog Crash World Unit)) v = (.error why,next) :=
    Prog.bind_error _ crashed
  exact Prog.bind_error _ once

theorem run_kept_single (request : Request) (v : World) :
    Kept (run srv [request] v) ↔ Kept (serve srv request v) := by
  rcases ran : serve srv request v with ⟨outcome,next⟩
  cases outcome with
  | error why =>
    rw [run_single_error srv ran]
    exact ⟨fun kept => .error (kept.closes why rfl),fun kept => .error (kept.closes why rfl)⟩
  | ok status =>
    rw [run_single_ok srv ran]
    exact ⟨fun kept => .ok (kept.tidy _ rfl),fun kept => .ok (kept.tidy _ rfl)⟩

theorem init_tidy : Tidy World.init where
  owned t := by
    have missing : World.init.isOpen t = none := rfl
    rw [missing]
    exact iff_of_false nofun nofun
  closed _ := rfl

theorem run_kept_next (served : List Request) (request : Request) (delivers : request.Delivers)
    (kept : Kept (run srv served World.init)) : Kept (run srv (served ++ [request]) World.init) ↔
      ∀ w, run srv served World.init = (.ok (),w) → request.Spares srv w := by
  rw [run_append]
  rcases ran : run srv served World.init with ⟨outcome,w⟩
  rw [ran] at kept
  cases outcome with
  | error why =>
    rw [Prog.bind_error _ ran]
    exact iff_of_true (.error (kept.closes why rfl)) fun _ none => by cases none
  | ok u =>
    rw [Prog.bind_ok _ ran,run_kept_single,serve_kept_iff srv request delivers (kept.tidy u rfl)]
    exact ⟨fun spares _ same => by cases same; exact spares,fun spares => spares w rfl⟩

/-- In a run, every transaction that is started is closed once and before the next one, and nothing
else is closed, exactly if each request spares the transactions. -/
theorem run_kept_iff (requests : List Request) (delivers : ∀ request ∈ requests, request.Delivers) :
    (∀ served, served <+: requests → Kept (run srv served World.init)) ↔
      ∀ served request, served ++ [request] <+: requests → ∀ w,
        run srv served World.init = (.ok (),w) → request.Spares srv w := by
  have among (served : List Request) (request : Request) (part : served ++ [request] <+: requests) :
      request.Delivers :=
    delivers request (part.subset (List.mem_append_right served (List.mem_singleton_self request)))
  constructor
  · intro kept served request part
    refine (run_kept_next srv served request (among served request part) (kept served ?_)).mp (kept _ part)
    exact (List.prefix_append served [request]).trans part
  · intro spares served part
    induction served using List.reverseRecOn with
    | nil => exact .ok init_tidy
    | append_singleton served request ih =>
      have before := ih ((List.prefix_append served [request]).trans part)
      exact (run_kept_next srv served request (among served request part) before).mpr
        (spares served request part)

end

def batch : List Request :=
  [.query (storing items) (asking true (text "id=7")) itemsDir,.execBatch (storing items) (asking true [])]

theorem batch_kept : Kept (run ⟨1,0,false⟩ batch World.init) := by
  refine (run_kept_iff ⟨1,0,false⟩ batch fun request inside => ?_).mpr
    (fun served request part w ran => ?_) batch (List.prefix_refl batch)
  · have delivered : ∃ (delivery : Delivery) (meets : Text → Int),
        (storing items).rendering = ⟨delivery.build,meets⟩ := ⟨noRows,fun _ => 0,rfl⟩
    rcases List.mem_cons.mp inside with rfl | inside
    · exact delivered
    · rw [List.mem_singleton.mp inside]
      exact delivered
  · cases request with
    | execBatch => trivial
    | query setting r dir =>
      obtain ⟨rest,whole⟩ := part
      cases served with
      | nil =>
        cases ran
        cases whole
        exact fun _ _ _ => ⟨fun _ _ _ => rfl,fun _ => rfl⟩
      | cons first served =>
        cases served with
        | nil => cases whole
        | cons second served =>
          have long := congrArg List.length whole
          simp [batch] at long

def refusing (tab : Ndb.Table) : Setting :=
  {storing tab with ndb := {(storing tab).ndb with startTransaction := false}}

def unstarted : List Request := [.query (refusing items) (asking true (text "id=7")) itemsDir]

def planless : List Request :=
  [.query (storing items) (asking true (text "id=7")) itemsDir,
    .query (storing items) (asking true []) itemsDir]

/-- A null pointer is closed; and the instance forgets a transaction that is open. -/
theorem transactions_lost :
    (run ⟨1,0,false⟩ unstarted World.init).1 = .error .closeNull ∧
    ¬Kept (run ⟨1,0,false⟩ unstarted World.init) ∧ ¬Kept (run ⟨2,0,false⟩ planless World.init) := by
  have null : (run ⟨1,0,false⟩ unstarted World.init).1 = .error .closeNull := by decide +kernel
  have returned : (run ⟨2,0,false⟩ planless World.init).1 = .ok () := by decide +kernel
  have opened : (run ⟨2,0,false⟩ planless World.init).2.isOpen 0 = some true := by decide +kernel
  have gone : (run ⟨2,0,false⟩ planless World.init).2.inst.tx = none := by decide +kernel
  refine ⟨null,fun kept => (kept.closes _ null).1 rfl,fun kept => ?_⟩
  have owned := ((kept.tidy () returned).owned 0).mp opened
  rw [gone] at owned
  cases owned

end ModNdb.Query
