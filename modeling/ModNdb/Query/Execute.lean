import ModNdb.Query.Instance

/-! `ExecuteAll` (Execute.cc): the transaction of the instance is executed and closed, and the
results of its read operations are put in pages or notes. -/
namespace ModNdb.Query

/-- What becomes of results: `build_results` for the format of an operation, and
`ap_meets_conditions` for a page. -/
structure Rendering where
  build : DataOperation → Except Crash (Int × Text)
  meetsConditions : Text → Int

/-- The result of the `n`th execution. -/
def outcome (ndb : Ndb.Answers) (n : Nat) : Ndb.Error :=
  ndb.executions.getD n ⟨false,.noError,0,[]⟩

/-- `handle_exec_error`: the status, the message, and whether the dictionary is stale. -/
def handleExecError (error : Ndb.Error) : Int × Option Text × Bool :=
  match error.classification with
  | .noDataFound => (404,none,false)
  | .constraintViolation => (409,none,false)
  | .applicationError => (403,some error.message,false)
  | .schemaError =>
    (500,none,error.code = 241 ∨ error.code = 283 ∨ error.code = 284 ∨ error.code = 709)
  | .noError | .misc => (500,none,false)

section
variable (srv : ServerConfig) (ndb : Ndb.Answers) (rendering : Rendering) (r : RequestRec)

/-- `i->tx->execute(...)` -/
def execute (n : Nat) : Prog Crash World Ndb.Error := fun w =>
  match w.inst.tx with
  | none => (.error .nullPointer,w)
  | some t =>
    let ops := (w.transactions[t]?.map Ndb.Transaction.ops).getD []
    (.ok (outcome ndb n),{w with trace := w.trace ++ [.executed t ops (outcome ndb n)]})

/-- `exec_commit`, again after temporary errors as long as there is time; every round waits
for 5 milliseconds at least. Whether the time ran out, and the error of the transaction. -/
def execCommit : Nat → Nat → Nat → Prog Crash World (Bool × Ndb.Error)
  | 0, _, _ => Prog.fail .outOfFuel
  | fuel + 1, retries, waited => do
    let error ← execute ndb retries
    if error.temporary then
      let sleepMs := 5 + 2 * retries * retries
      if waited + sleepMs < srv.maxRetryMs then
        Prog.modify fun w => {w with inst := {w.inst with stats := {w.inst.stats with
          totalRetryMs := w.inst.stats.totalRetryMs + sleepMs,
          tempErrors := w.inst.stats.tempErrors + 1}}}
        execCommit fuel (retries + 1) (waited + sleepMs)
      else
        Prog.modify fun w => {w with inst := {w.inst with stats := {w.inst.stats with
          tempTimeouts := w.inst.stats.tempTimeouts + 1}}}
        return (true,error)
    else return (false,error)

/-- `build_results`, where the client accepts the format; the status and the page. -/
def buildResults (data : DataOperation) (fmt : Format.OutputFormat) (page : Option Text) :
    Prog Crash World (Int × Option Text) := do
  let w ← Prog.get
  if w.inst.jsonrequest ∧ fmt.isJSON = false then return (406,page)
  else
    match rendering.build data with
    | .error why => Prog.fail why
    | .ok (status,page) => do
      emit (.built data.op)
      return (status,some page)

/-- `set_note`, for a subrequest. -/
def setNote (notes : Bool) (opn : Nat) : Prog Crash World Unit :=
  if notes then emit (.note opn) else return ()

/-- The results of an operation, with the status and the page so far. -/
def buildPage (notes : Bool) (opn : Nat) (soFar : Int × Option Text) :
    Prog Crash World (Int × Option Text) := do
  let w ← Prog.get
  let data := w.inst.data opn
  match data.resultCols, data.fmt with
  | some _, some fmt => do
    let built ← buildResults rendering data fmt soFar.2
    setNote notes opn
    return built
  | _, _ => return soFar

def buildPages (notes : Bool) : List Nat → Int × Option Text → Prog Crash World (Int × Option Text)
  | [], soFar => return soFar
  | opn::opns, soFar => do
    let next ← buildPage rendering notes opn soFar
    buildPages notes opns next

/-- A page is sent, if there is one and the client does not have it; the status. -/
def sendPage (buff : Option Text) : Prog Crash World Int := do
  let w ← Prog.get
  let status : Int :=
    match buff with
    | none => 204
    | some page => if w.inst.useEtag then rendering.meetsConditions page else 0
  let (status,buff) :=
    if w.inst.jsonrequest ∧ buff = none then ((0 : Int),some (text "\x7b \x7d\n")) else (status,buff)
  if status = 0 then do
    emit (.page buff)
    return status
  else return status

/-- The status so far, and what an error page and a restart depend on. -/
structure Conclusion where
  status : Int
  message : Option Text
  stale : Bool
  error : Ndb.Error

/-- From the execution up to `cleanup1`. -/
def conclude (notes : Bool) : Prog Crash World Conclusion := do
  let (late,error) ← execCommit srv ndb (srv.maxRetryMs + 1) 0 0
  if late then return ⟨503,none,false,error⟩
  else if error.classification ≠ .noError then
    let (status,message,stale) := handleExecError error
    return ⟨status,message,stale,error⟩
  else
    let w ← Prog.get
    let (status,buff) ← buildPages rendering notes (List.range w.inst.nReadOps) (0,none)
    let status ← (if status = 0 ∧ notes = false then sendPage rendering buff else return status)
    return ⟨status,none,false,error⟩

/-- `cleanup1`: an error page is sent, and the transaction closed. -/
def finish (conclusion : Conclusion) : Prog Crash World Int := do
  let status ← (
    if conclusion.stale = true ∧ srv.forceRestart = true then
      handleError 503 (some conclusion.error) (some (text "10"))
    else if 399 < conclusion.status then
      handleError conclusion.status (some conclusion.error) conclusion.message
    else return conclusion.status)
  closeTx
  Prog.modify fun w => {w with inst := {w.inst with tx := none}}
  return status

/-- `ExecuteAll`, up to `cleanup2`. -/
def executeOpen : Prog Crash World Int := do
  let w ← Prog.get
  if w.inst.tx = none then return 400
  else do
    let conclusion ← conclude srv ndb rendering (r.main && !r.sendResult)
    finish srv conclusion

/-- `ExecuteAll` -/
def executeAll : Prog Crash World Int := do
  let status ← executeOpen srv ndb rendering r
  cleanup
  return status

end

end ModNdb.Query
