import ModNdb.Query.Frame

/-! What executing a transaction may change: the transaction, the statistics and the trace. -/
namespace ModNdb.Query
open Config (Dir)
open Prog (Moves Steps)

def Event.IsOutcome : Event → Prop
  | .keyPart _ _ _ | .filter _ _ _ | .started _ => False
  | _ => True

/-- What executing leaves alone, the slots and the flags, and what it adds to the trace. -/
structure Settled (w w' : World) : Prop where
  nReadOps : w'.inst.nReadOps = w.inst.nReadOps
  data : w'.inst.data = w.inst.data
  aborted : w'.inst.aborted = w.inst.aborted
  queued : w'.queued = w.queued
  trace : Adds Event.IsOutcome w w'

instance : IsPreorder World Settled where
  refl _ := ⟨rfl,rfl,rfl,rfl,.none rfl⟩
  trans _ _ _ first second := ⟨second.nReadOps.trans first.nReadOps,second.data.trans first.data,
    second.aborted.trans first.aborted,second.queued.trans first.queued,
    first.trace.trans second.trace⟩

inductive Outcome : World → World → Prop
  | emits {w : World} {event : Event} (outcome : event.IsOutcome) :
    Outcome w {w with trace := w.trace ++ [event]}
  | counts {w : World} (stats : Stats) : Outcome w {w with inst := {w.inst with stats := stats}}
  | closes {w : World} (t : Nat) (transactions : List Ndb.Transaction) :
    Outcome w {w with transactions := transactions, trace := w.trace ++ [.closed t]}
  | ends {w : World} : Outcome w {w with inst := {w.inst with tx := none}}

abbrev Executing := Relation.ReflTransGen Outcome

theorem Outcome.settled {w w' : World} (step : Outcome w w') : Settled w w' := by
  cases step with
  | emits outcome => exact ⟨rfl,rfl,rfl,rfl,.one rfl outcome⟩
  | counts stats => exact ⟨rfl,rfl,rfl,rfl,.none rfl⟩
  | closes t transactions => exact ⟨rfl,rfl,rfl,rfl,.one rfl trivial⟩
  | ends => exact ⟨rfl,rfl,rfl,rfl,.none rfl⟩

theorem Executing.settled {w w' : World} (steps : Executing w w') : Settled w w' := by
  induction steps with
  | refl => exact refl w
  | tail _ step ih => exact Trans.trans ih step.settled

/-- No operation is called while a transaction is executed. -/
theorem Executing.calls {w w' : World} (steps : Executing w w') : w'.calls = w.calls := by
  induction steps with
  | refl => rfl
  | tail _ step ih =>
    rw [← ih]
    cases step <;> rfl

/-- What executing reports: the transaction of the instance with its operations, the results of
slots, and pages. -/
def Event.IsReport (w : World) : Event → Prop
  | .executed t ops _ => w.inst.tx = some t ∧ ops = w.ops t
  | .built op => ∃ k, op = (w.inst.data k).op
  | .note _ | .page _ | .errorPage _ _ => True
  | .keyPart _ _ _ | .filter _ _ _ | .started _ | .closed _ => False

structure Records (R : World → World → Prop) : Prop where
  emits : ∀ w (event : Event), event.IsReport w → R w {w with trace := w.trace ++ [event]}
  counts : ∀ w stats, R w {w with inst := {w.inst with stats := stats}}

theorem Event.IsReport.outcome {w : World} {event : Event} (report : event.IsReport w) :
    event.IsOutcome := by
  cases event with
  | keyPart | filter | started => exact report.elim
  | executed | closed | built | note | page | errorPage => trivial

theorem executing_records : Records Executing where
  emits _ _ report := .single (.emits report.outcome)
  counts _ _ := .single (.counts _)

/-- The error page of `cleanup1`, and what is left to do. -/
def report (srv : ServerConfig) (conclusion : Conclusion) : Prog Crash World Int :=
  if conclusion.stale = true ∧ srv.forceRestart = true then
    handleError 503 (some conclusion.error) (some (text "10"))
  else if 399 < conclusion.status then
    handleError conclusion.status (some conclusion.error) conclusion.message
  else return conclusion.status

theorem finish_report (srv : ServerConfig) (conclusion : Conclusion) : finish srv conclusion =
    report srv conclusion >>= fun status => closeTx >>= fun _ =>
      Prog.modify (fun w => {w with inst := {w.inst with tx := none}}) >>= fun _ => pure status := rfl

section
variable {R : World → World → Prop} [IsPreorder World R] (records : Records R)
  (srv : ServerConfig) (ndb : Ndb.Answers) (rendering : Rendering)
include records

theorem handleError_records (status : Int) (error : Option Ndb.Error) (msg : Option Text) :
    Steps R (handleError status error msg) := by
  unfold handleError
  cases errorText status error msg with
  | none => exact Steps.fail _
  | some content =>
    have emitted : Steps R (emit (.errorPage status content) : Prog Crash World Unit) :=
      Steps.modify fun w => records.emits w _ trivial
    exact emitted.bind fun _ => Steps.pure _

theorem execute_records (n : Nat) : Steps R (execute ndb n) := by
  intro w
  refine ⟨?_,fun _ _ => trivial⟩
  unfold execute
  cases tx : w.inst.tx with
  | none => exact refl w
  | some t => exact records.emits w _ ⟨tx,rfl⟩

theorem execCommit_records (fuel retries waited : Nat) :
    Steps R (execCommit srv ndb fuel retries waited) := by
  induction fuel generalizing retries waited with
  | zero => exact Steps.fail _
  | succ fuel ih =>
    have counted (stats : World → Stats) : Steps R (Prog.modify fun w =>
        {w with inst := {w.inst with stats := stats w}} : Prog Crash World Unit) :=
      Steps.modify fun w => records.counts w _
    apply (execute_records records ndb retries).bind
    intro error
    apply Moves.ite
    · intro _
      apply Moves.ite
      · exact fun _ => (counted _).bind fun _ => ih _ _
      · exact fun _ => (counted _).bind fun _ => Steps.pure _
    · exact fun _ => Steps.pure _

theorem buildResults_records (opn : Nat) (fmt : Format.OutputFormat) (page : Option Text)
    (w : World) : R w (buildResults rendering (w.inst.data opn) fmt page w).2 := by
  unfold buildResults
  rw [Prog.bind_ok _ (Prog.get_run w)]
  split
  · exact refl w
  · cases rendering.build (w.inst.data opn) with
    | error why => exact refl w
    | ok built => exact records.emits w _ ⟨opn,rfl⟩

theorem setNote_records (notes : Bool) (opn : Nat) : Steps R (setNote notes opn) :=
  Moves.ite (fun _ => Steps.modify fun w => records.emits w _ trivial) fun _ => Steps.pure _

theorem buildPage_records (notes : Bool) (opn : Nat) (soFar : Int × Option Text) :
    Steps R (buildPage rendering notes opn soFar) := by
  intro w
  refine ⟨?_,fun _ _ => trivial⟩
  unfold buildPage
  rw [Prog.bind_ok _ (Prog.get_run w)]
  cases (w.inst.data opn).resultCols with
  | none => exact refl w
  | some cols =>
    cases (w.inst.data opn).fmt with
    | none => exact refl w
    | some fmt =>
      change R w ((buildResults rendering (w.inst.data opn) fmt soFar.2 >>= fun built =>
        setNote notes opn >>= fun _ => pure built) w).2
      have built := buildResults_records records rendering opn fmt soFar.2 w
      rcases ran : buildResults rendering (w.inst.data opn) fmt soFar.2 w with ⟨outcome,next⟩
      rw [ran] at built
      cases outcome with
      | error why =>
        rw [Prog.bind_error _ ran]
        exact built
      | ok result =>
        have noted := (setNote_records records notes opn).bind fun _ => Steps.pure result
        rw [Prog.bind_ok _ ran]
        exact Trans.trans built (noted next).1

theorem buildPages_records (notes : Bool) (opns : List Nat) (soFar : Int × Option Text) :
    Steps R (buildPages rendering notes opns soFar) := by
  induction opns generalizing soFar with
  | nil => exact Steps.pure _
  | cons opn opns ih => exact (buildPage_records records rendering notes opn soFar).bind fun _ => ih _

theorem sendPage_records (buff : Option Text) : Steps R (sendPage rendering buff) := by
  apply Moves.get
  intro w
  apply Moves.ite
  · intro _
    have emitted (page : Option Text) : Steps R (emit (.page page) : Prog Crash World Unit) :=
      Steps.modify fun w => records.emits w _ trivial
    exact (emitted _).bind fun _ => Steps.pure _
  · exact fun _ => Steps.pure _

theorem conclude_records (notes : Bool) : Steps R (conclude srv ndb rendering notes) := by
  apply (execCommit_records records srv ndb _ _ _).bind
  rintro ⟨late,error⟩
  apply Moves.ite
  · exact fun _ => Steps.pure _
  intro _
  apply Moves.ite
  · exact fun _ => Steps.pure _
  intro _
  apply Moves.get
  intro w
  apply (buildPages_records records rendering notes _ _).bind
  rintro ⟨status,buff⟩
  have sent : Steps R (if status = 0 ∧ notes = false then sendPage rendering buff else return status) :=
    Moves.ite (fun _ => sendPage_records records rendering buff) fun _ => Steps.pure _
  exact sent.bind fun _ => Steps.pure _

theorem report_records (conclusion : Conclusion) : Steps R (report srv conclusion) :=
  Moves.ite (fun _ => handleError_records records _ _ _) fun _ =>
    Moves.ite (fun _ => handleError_records records _ _ _) fun _ => Steps.pure _

end

theorem closeTx_executes : Steps Executing closeTx := by
  intro w
  refine ⟨?_,fun _ _ => trivial⟩
  unfold closeTx
  cases w.inst.tx with
  | none => exact refl w
  | some t =>
    dsimp only
    split
    · exact .single (.closes t _)
    · exact refl w

section
variable (srv : ServerConfig) (ndb : Ndb.Answers) (rendering : Rendering)

theorem finish_executes (conclusion : Conclusion) : Steps Executing (finish srv conclusion) := by
  have ended : Steps Executing (Prog.modify fun w => {w with inst := {w.inst with tx := none}} :
      Prog Crash World Unit) := Steps.modify fun _ => .single .ends
  rw [finish_report]
  exact (report_records executing_records srv conclusion).bind fun _ =>
    closeTx_executes.bind fun _ => ended.bind fun _ => Steps.pure _

theorem executeOpen_executes (r : RequestRec) : Steps Executing (executeOpen srv ndb rendering r) := by
  apply Moves.get
  intro w
  apply Moves.ite
  · exact fun _ => Steps.pure _
  · exact fun _ => (conclude_records executing_records srv ndb rendering _).bind fun _ =>
      finish_executes srv _

end

section
variable {allowed : Event → Prop} (srv : ServerConfig) (setting : Setting) (r : RequestRec) (dir : Dir)
  (source : QuerySource)

theorem planQuery_adds [AllowsPages allowed] (w : World) :
    Adds allowed w (planQuery srv setting r dir source w).2 := by
  rcases planQuery_claims srv setting r dir source w with ⟨moved,_⟩ | ⟨_,⟨tab,claimed⟩,_⟩
  · apply moved.trace.mono
    rintro e ⟨status,content,rfl⟩
    exact AllowsPages.page status content
  · rw [claimed]
    exact .none rfl

theorem openTransaction_adds (starts : ∀ t, allowed (.started t)) (w : World) :
    Adds allowed w (openTransaction setting w).2 := by
  rcases openTransaction_cases setting w with ⟨_,ran⟩ | ⟨_,_,ran⟩ | ⟨_,_,_,ran⟩ | ⟨_,_,_,ran⟩ <;>
    rw [ran]
  · exact .none rfl
  · exact .none rfl
  · exact .one rfl (starts _)
  · exact .none rfl

/-- What a part adds to the trace, and what the rest adds in each state that it returns in. -/
theorem Adds.bind {ε α β : Type} {x : Prog ε World α} {f : α → Prog ε World β} {w : World}
    (first : Adds allowed w (x w).2)
    (rest : ∀ a next, x w = (.ok a,next) → Adds allowed next (f a next).2) :
    Adds allowed w ((x >>= f) w).2 := by
  rcases ran : x w with ⟨outcome,next⟩
  rw [ran] at first
  cases outcome with
  | error why => rwa [Prog.bind_error _ ran]
  | ok a =>
    rw [Prog.bind_ok _ ran]
    exact first.trans (rest a next ran)

theorem query_after (outcomes : ∀ e : Event, e.IsOutcome → allowed e) (w : World) :
    Adds allowed (queryBody srv setting r dir source w).2 (query srv setting r dir source w).2 := by
  have settles {u v : World} (settled : Settled u v) : Adds allowed u v := settled.trace.mono outcomes
  have given (status : Int) (u : World) : Adds allowed u (abort source status u).2 := by
    unfold abort
    rw [Prog.bind_ok _ (Prog.modify_run _ u)]
    cases source.keepTxOpen <;> exact .none rfl
  unfold query
  rcases queryBody srv setting r dir source w with ⟨outcome,next⟩
  cases outcome with
  | ok u =>
    dsimp only
    cases source.keepTxOpen with
    | true => exact .none rfl
    | false =>
      apply Adds.bind (settles (executeOpen_executes srv setting.ndb setting.rendering r next).1.settled)
      exact fun _ _ _ => .none rfl
  | error stop =>
    cases stop with
    | crash why => exact .none rfl
    | returns status => exact .none rfl
    | abort1 status =>
      exact Adds.bind (settles (closeTx_executes next).1.settled) fun _ last _ => given status last
    | abort2 status => exact given status next

/-- The events of a query are those of its key parts, and others that every query may have. -/
theorem query_adds (outcomes : ∀ e : Event, e.IsOutcome → allowed e)
    (starts : ∀ t, allowed (.started t)) (filters : ∀ n value c, allowed (.filter n value c))
    (w : World) (parts : ∀ q next q', planQuery srv setting r dir source w = (.ok q,next) →
      Ready setting dir q q' → Moves (Local allowed q'.data) (setIndexParts setting dir setting.mval q')
        fun result => result.2.data = q'.data) :
    Adds allowed w (query srv setting r dir source w).2 := by
  have pages : AllowsPages allowed := ⟨fun _ _ => outcomes _ trivial⟩
  refine Adds.trans ?_ (query_after srv setting r dir source outcomes w)
  apply Adds.bind (planQuery_adds srv setting r dir source w)
  intro q next planned
  apply Adds.bind (openTransaction_adds setting starts next)
  intro _ last _
  exact (defineOperation_moves setting dir q (fun q' ready _ => parts q next q' planned ready)
    filters source last).1.trace

end

end ModNdb.Query
