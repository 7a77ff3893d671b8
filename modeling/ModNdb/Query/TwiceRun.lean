import ModNdb.Query.Twice

/-! Two runs of a query side by side: executing, and the whole of a query. -/
namespace ModNdb.Query
open Config (Dir)
open Prog (Agrees Turns)

section
variable {hides : Ndb.Call → Bool}

theorem closeTx_agrees : Agrees (Seen hides) closeTx closeTx Eq := by
  intro w w' seen
  unfold closeTx
  rw [seen.inst,seen.transactions]
  cases w.inst.tx with
  | none => exact ⟨rfl,seen⟩
  | some t =>
    dsimp only
    split
    · exact ⟨rfl,rfl,rfl,seen.request,seen.queued,seen.calls,(seen.emit (.closed t)).trace⟩
    · exact ⟨rfl,seen⟩

theorem cleanup_agrees {ε : Type} : Agrees (Seen hides) (cleanup : Prog ε World Unit) cleanup Eq :=
  Agrees.modify rfl fun _ _ seen => ⟨congrArg Instance.cleanup seen.inst,seen.transactions,
    seen.request,rfl,seen.calls,seen.trace⟩

section
variable (srv : ServerConfig) (ndb : Ndb.Answers) (rendering : Rendering)

theorem change_agrees (f : Instance → Instance) :
    Agrees (Seen hides) (Prog.modify fun w => {w with inst := f w.inst} : Prog Crash World Unit)
      (Prog.modify fun w => {w with inst := f w.inst}) Eq :=
  Agrees.modify rfl fun _ _ seen => seen.setInst f

theorem execute_agrees (n : Nat) : Agrees (Seen hides) (execute ndb n) (execute ndb n) Eq := by
  intro w w' seen
  unfold execute
  rw [seen.inst]
  cases w.inst.tx with
  | none => exact ⟨rfl,seen⟩
  | some t =>
    dsimp only
    rw [seen.transactions]
    exact ⟨rfl,rfl,rfl,seen.request,seen.queued,seen.calls,(seen.emit _).trace⟩

theorem execCommit_agrees (fuel retries waited : Nat) :
    Agrees (Seen hides) (execCommit srv ndb fuel retries waited)
      (execCommit srv ndb fuel retries waited) Eq := by
  induction fuel generalizing retries waited with
  | zero => exact Agrees.fail _
  | succ fuel ih =>
    apply (execute_agrees ndb retries).bind
    rintro error _ rfl
    apply Agrees.ite
    · intro _
      apply Agrees.ite
      · exact fun _ => (change_agrees fun i => {i with stats := {i.stats with
          totalRetryMs := i.stats.totalRetryMs + (5 + 2 * retries * retries),
          tempErrors := i.stats.tempErrors + 1}}).bind fun _ _ _ => ih _ _
      · exact fun _ => (change_agrees fun i => {i with stats := {i.stats with
          tempTimeouts := i.stats.tempTimeouts + 1}}).bind fun _ _ _ => Agrees.pure rfl
    · exact fun _ => Agrees.pure rfl

theorem buildResults_agrees (data : DataOperation) (fmt : Format.OutputFormat) (page : Option Text) :
    Agrees (Seen hides) (buildResults rendering data fmt page) (buildResults rendering data fmt page)
      Eq := by
  apply Agrees.get
  intro w w' seen
  rw [seen.inst]
  apply Agrees.ite
  · exact fun _ => Agrees.pure rfl
  · intro _
    cases rendering.build data with
    | error why => exact Agrees.fail _
    | ok built => exact (emit_agrees _).bind fun _ _ _ => Agrees.pure rfl

theorem buildPage_agrees (notes : Bool) (opn : Nat) (soFar : Int × Option Text) :
    Agrees (Seen hides) (buildPage rendering notes opn soFar) (buildPage rendering notes opn soFar)
      Eq := by
  apply Agrees.get
  intro w w' seen
  rw [seen.inst]
  dsimp only
  split
  · apply (buildResults_agrees rendering _ _ _).bind
    rintro built _ rfl
    have noted : Agrees (Seen hides) (setNote notes opn) (setNote notes opn) Eq :=
      Agrees.ite (fun _ => emit_agrees _) fun _ => Agrees.pure rfl
    exact noted.bind fun _ _ _ => Agrees.pure rfl
  · exact Agrees.pure rfl

theorem buildPages_agrees (notes : Bool) (opns : List Nat) (soFar : Int × Option Text) :
    Agrees (Seen hides) (buildPages rendering notes opns soFar) (buildPages rendering notes opns soFar)
      Eq := by
  induction opns generalizing soFar with
  | nil => exact Agrees.pure rfl
  | cons opn opns ih =>
    apply (buildPage_agrees rendering notes opn soFar).bind
    rintro next _ rfl
    exact ih next

theorem sendPage_agrees (buff : Option Text) :
    Agrees (Seen hides) (sendPage rendering buff) (sendPage rendering buff) Eq := by
  apply Agrees.get
  intro w w' seen
  rw [seen.inst]
  apply Agrees.ite
  · exact fun _ => (emit_agrees _).bind fun _ _ _ => Agrees.pure rfl
  · exact fun _ => Agrees.pure rfl

theorem conclude_agrees (notes : Bool) :
    Agrees (Seen hides) (conclude srv ndb rendering notes) (conclude srv ndb rendering notes) Eq := by
  apply (execCommit_agrees srv ndb _ _ _).bind
  rintro ⟨late,error⟩ _ rfl
  apply Agrees.ite
  · exact fun _ => Agrees.pure rfl
  intro _
  apply Agrees.ite
  · exact fun _ => Agrees.pure rfl
  intro _
  apply Agrees.get
  intro w w' seen
  rw [seen.inst]
  apply (buildPages_agrees rendering notes _ _).bind
  rintro ⟨status,buff⟩ _ rfl
  have sent : Agrees (Seen hides)
      (if status = 0 ∧ notes = false then sendPage rendering buff else return status)
      (if status = 0 ∧ notes = false then sendPage rendering buff else return status) Eq :=
    Agrees.ite (fun _ => sendPage_agrees rendering buff) fun _ => Agrees.pure rfl
  apply sent.bind
  rintro status _ rfl
  exact Agrees.pure rfl

theorem finish_agrees (conclusion : Conclusion) :
    Agrees (Seen hides) (finish srv conclusion) (finish srv conclusion) Eq := by
  have reported : Agrees (Seen hides) (
      if conclusion.stale = true ∧ srv.forceRestart = true then
        handleError 503 (some conclusion.error) (some (text "10"))
      else if 399 < conclusion.status then
        handleError conclusion.status (some conclusion.error) conclusion.message
      else return conclusion.status) (
      if conclusion.stale = true ∧ srv.forceRestart = true then
        handleError 503 (some conclusion.error) (some (text "10"))
      else if 399 < conclusion.status then
        handleError conclusion.status (some conclusion.error) conclusion.message
      else return conclusion.status) Eq :=
    Agrees.ite (fun _ => handleError_agrees _ _ _) fun _ =>
      Agrees.ite (fun _ => handleError_agrees _ _ _) fun _ => Agrees.pure rfl
  apply reported.bind
  rintro status _ rfl
  apply closeTx_agrees.bind
  intro _ _ _
  exact (change_agrees fun i => {i with tx := none}).bind fun _ _ _ => Agrees.pure rfl

theorem executeAll_agrees (r r' : RequestRec) (main : r'.main = r.main)
    (result : r'.sendResult = r.sendResult) :
    Agrees (Seen hides) (executeAll srv ndb rendering r) (executeAll srv ndb rendering r') Eq := by
  have opened : Agrees (Seen hides) (executeOpen srv ndb rendering r)
      (executeOpen srv ndb rendering r') Eq := by
    apply Agrees.get
    intro w w' seen
    rw [seen.inst,main,result]
    apply Agrees.ite
    · exact fun _ => Agrees.pure rfl
    · intro _
      apply (conclude_agrees srv ndb rendering _).bind
      rintro conclusion _ rfl
      exact finish_agrees srv conclusion
  apply opened.bind
  rintro status _ rfl
  exact cleanup_agrees.bind fun _ _ _ => Agrees.pure rfl

end

section
variable (srv : ServerConfig) (setting : Setting) (r r' : RequestRec) (dir : Dir)
  (source source' : QuerySource)

theorem openTransaction_agrees :
    Agrees (Seen hides) (openTransaction setting) (openTransaction setting) Eq := by
  apply Agrees.get
  intro w w' seen
  rw [seen.inst]
  apply Agrees.ite
  · intro _
    apply Agrees.ite
    · exact fun _ => Agrees.fail _
    intro _
    apply Agrees.ite
    · intro _
      refine Agrees.modify rfl fun u u' seen => ?_
      unfold World.start
      rw [seen.inst,seen.transactions]
      exact ⟨rfl,rfl,seen.request,seen.queued,seen.calls,(seen.emit _).trace⟩
    · exact fun _ => Agrees.fail _
  · exact fun _ => Agrees.pure rfl

theorem abort_agrees (keeps : source'.keepTxOpen = source.keepTxOpen) (status : Int) :
    Agrees (Seen hides) (abort source status) (abort source' status) Eq := by
  unfold abort
  rw [keeps]
  apply (change_agrees fun i => {i with tx := none}).bind
  intro _ _ _
  have given : Agrees (Seen hides)
      (if source.keepTxOpen then
        Prog.modify fun w => {w with inst := {w.inst with aborted := true}}
      else cleanup : Prog Crash World Unit)
      (if source.keepTxOpen then
        Prog.modify fun w => {w with inst := {w.inst with aborted := true}}
      else cleanup) Eq :=
    Agrees.ite (fun _ => change_agrees fun i => {i with aborted := true}) fun _ => cleanup_agrees
  exact given.bind fun _ _ _ => Agrees.pure rfl

def PlannedTwice (hides : Ndb.Call → Bool) (q q' : Items) : Prop :=
  ∃ extras filters form, Like extras filters form q q' ∧ Agreeing dir extras.2 form ∧
    Filtering setting dir hides extras.1 filters form

section
variable (ignores : Ignores setting.ndb hides)
  (planned : Agrees (Seen hides) (planQuery srv setting r dir source)
    (planQuery srv setting r' dir source') (PlannedTwice setting dir hides))
include ignores planned

/-- The bodies of queries that are planned alike, up to a relation that the last part keeps. -/
theorem queryBody_turns {S : World → World → Prop} (weaker : ∀ w w', Seen hides w w' → S w w')
    (acts : Suffices setting S) (flagged : Turns (Seen hides) S (setFlag source) (setFlag source') Eq) :
    Turns (Seen hides) S (queryBody srv setting r dir source) (queryBody srv setting r' dir source')
      Eq := by
  apply Turns.bind planned weaker
  rintro q q' ⟨extras,filters,form,⟨kept,rfl⟩,agreeing,filtering⟩
  apply Turns.bind (openTransaction_agrees setting) weaker
  intro _ _ _
  exact defineOperation_turns setting ignores dir q filters form weaker acts source source' flagged
    kept agreeing filtering

/-- Two queries that are planned alike do the same. -/
theorem query_agrees (keeps : source'.keepTxOpen = source.keepTxOpen)
    (typed : source'.contentType = source.contentType)
    (main : r'.main = r.main) (result : r'.sendResult = r.sendResult) :
    Agrees (Seen hides) (query srv setting r dir source) (query srv setting r' dir source') Eq := by
  have flagged : Agrees (Seen hides) (setFlag source) (setFlag source') Eq := by
    unfold setFlag
    rw [typed]
    exact setInst_agrees _
  have body : Agrees (Seen hides) (queryBody srv setting r dir source)
      (queryBody srv setting r' dir source') Eq :=
    queryBody_turns srv setting r r' dir source source' ignores planned (fun _ _ => id)
      (seen_suffices setting ignores) flagged
  intro w w' seen
  obtain ⟨outcomes,states⟩ := body w w' seen
  unfold query
  rcases ran : queryBody srv setting r dir source w with ⟨outcome,next⟩
  rcases ran' : queryBody srv setting r' dir source' w' with ⟨outcome',next'⟩
  rw [ran,ran'] at outcomes states
  obtain rfl : outcome = outcome' := outcomes.eq
  cases outcome with
  | ok u =>
    dsimp only
    rw [keeps]
    cases source.keepTxOpen with
    | true => exact ⟨rfl,states⟩
    | false => exact executeAll_agrees srv setting.ndb setting.rendering r r' main result next next' states
  | error stop =>
    cases stop with
    | crash why => exact ⟨rfl,states⟩
    | returns status => exact ⟨rfl,states⟩
    | abort1 status =>
      exact (closeTx_agrees.bind fun _ _ _ => abort_agrees source source' keeps status) next next' states
    | abort2 status => exact abort_agrees source source' keeps status next next' states

end

end

end

end ModNdb.Query
