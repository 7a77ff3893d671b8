import ModNdb.Query.Plan
import ModNdb.Query.Body

/-! The private instance of a thread (mod_ndb.h), and what requests leave in it. -/
namespace ModNdb.Query

/-- `config::srv` -/
structure ServerConfig where
  maxReadOperations : Nat
  maxRetryMs : Nat
  forceRestart : Bool

/-- `data_operation`; operations are named by the requests that defined them. -/
structure DataOperation where
  op : Option Ndb.Operation
  scanop : Option Ndb.Operation
  nResultCols : Nat
  resultCols : Option (List MySQL.DictColumn)
  aliases : Option (List Text)
  fmt : Option Format.OutputFormat
  selectStar : Bool

def DataOperation.zero : DataOperation := ⟨none,none,0,none,none,none,false⟩

structure Stats where
  requests : Nat
  errors : Nat
  tempErrors : Nat
  totalRetryMs : Nat
  tempTimeouts : Nat
  deriving DecidableEq

/-- `ndb_instance` -/
structure Instance where
  tx : Option Nat
  nReadOps : Nat
  data : Nat → DataOperation
  aborted : Bool
  useEtag : Bool
  jsonrequest : Bool
  stats : Stats

/-- What happens on the way: a key part or a filter was handed to NDB for a parameter,
transactions start, are executed and closed, results are put in a page, pages are sent. -/
inductive Event
  | keyPart (n : Nat) (value : Option Text) (call : Ndb.Call)
  | filter (n : Nat) (value : Option Text) (call : Ndb.Call)
  | started (tx : Nat)
  | executed (tx : Nat) (ops : List Ndb.Operation) (outcome : Ndb.Error)
  | closed (tx : Nat)
  | built (op : Option Ndb.Operation)
  | note (op : Nat)
  | page (content : Option Text)
  | errorPage (status : Int) (content : Text)
  deriving DecidableEq

/-- The state of a run: `transactions` are all that were started, `request` is the number of
the request served, `calls` are those on its operation, `queued` the read operations since
the last cleanup, with their requests and slots. -/
structure World where
  inst : Instance
  transactions : List Ndb.Transaction
  request : Nat
  calls : List Ndb.Call
  queued : List (Nat × Nat)
  trace : List Event

/-- How a part of `Query` ends early: with a crash, a return, or at a label. -/
inductive Stop
  | crash (why : Crash)
  | returns (status : Int)
  | abort1 (status : Int)
  | abort2 (status : Int)
  deriving DecidableEq

abbrev Querying (α : Type) := Prog Stop World α

def emit {ε : Type} (event : Event) : Prog ε World Unit :=
  Prog.modify fun w => {w with trace := w.trace ++ [event]}

def crash {α : Type} (why : Crash) : Querying α := Prog.fail (.crash why)

/-- `ndb_instance::cleanup` clears the slots that are used. -/
def Instance.cleanup (i : Instance) : Instance :=
  {i with
    data := fun k => if k < i.nReadOps then .zero else i.data k,
    nReadOps := 0, aborted := false, useEtag := false, jsonrequest := false}

def cleanup {ε : Type} : Prog ε World Unit :=
  Prog.modify fun w => {w with inst := w.inst.cleanup, queued := []}

/-- `i->tx->close()` -/
def closeTx : Prog Crash World Unit := fun w =>
  match w.inst.tx with
  | none => (.error .closeNull,w)
  | some t =>
    match w.transactions[t]? with
    | some ⟨true,ops⟩ => (.ok (),{w with
        transactions := w.transactions.set t ⟨false,ops⟩, trace := w.trace ++ [.closed t]})
    | _ => (.error .closeClosed,w)

/-- The content of an error page; there may be no error or message where one is printed. -/
def errorText (status : Int) (error : Option Ndb.Error) (msg : Option Text) : Option Text :=
  if status = 400 then some (text "Bad request.\n")
  else if status = 403 then msg
  else if status = 404 then some (msg.getD (text "No data could be found.\n"))
  else if status = 405 ∨ status = 406 ∨ status = 503 then some []
  else if status = 409 then error.map fun error => error.message ++ text ".\n"
  else if status = 500 then some (msg.getD [])
  else some (text "HTTP return code " ++ MySQL.decimalInt status ++ text ".\n")

/-- `ndb_handle_error` returns `DONE`. -/
def handleError (status : Int) (error : Option Ndb.Error) (msg : Option Text) :
    Prog Crash World Int :=
  match errorText status error msg with
  | none => Prog.fail .nullPointer
  | some content => do
    emit (.errorPage status content)
    return -2

end ModNdb.Query
