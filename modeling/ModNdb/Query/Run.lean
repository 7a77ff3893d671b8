import ModNdb.Query.Query

/-! Runs of requests on the instance of a thread (handlers.cc). -/
namespace ModNdb.Query
open Config (Dir)

/-- A request to a handler of the module: `ndb_handler`, with the directory it is for, or
`ndb_exec_batch_handler`. -/
inductive Request
  | query (setting : Setting) (r : RequestRec) (dir : Dir)
  | execBatch (setting : Setting) (r : RequestRec)

/-- `ndb_instance` after `init_instance`, and nothing done yet. -/
def World.init : World where
  inst := ⟨none,0,fun _ => .zero,false,false,false,⟨0,0,0,0,0⟩⟩
  transactions := []
  request := 0
  calls := []
  queued := []
  trace := []

def World.next (w : World) : World := {w with request := w.request + 1, calls := []}

/-- `i->stats.requests++` -/
def World.count (w : World) : World :=
  {w with inst := {w.inst with stats := {w.inst.stats with requests := w.inst.stats.requests + 1}}}

def sourceOf (r : RequestRec) : QuerySource := if r.main then subrequestSource r else httpSource r

/-- `ndb_handler` -/
def ndbHandler (srv : ServerConfig) (setting : Setting) (r : RequestRec) (dir : Dir) :
    Prog Crash World Int :=
  if dir.database = none ∨ dir.table = none then
    handleError 500 none (some (text "Configuration error."))
  else do
    Prog.modify World.count
    query srv setting r dir (sourceOf r)

/-- `ndb_exec_batch_handler` -/
def ndbExecBatchHandler (srv : ServerConfig) (setting : Setting) (r : RequestRec) :
    Prog Crash World Int := do
  Prog.modify World.count
  executeAll srv setting.ndb setting.rendering r

def serve (srv : ServerConfig) (request : Request) : Prog Crash World Int := do
  Prog.modify World.next
  match request with
  | .query setting r dir => ndbHandler srv setting r dir
  | .execBatch setting r => ndbExecBatchHandler srv setting r

def run (srv : ServerConfig) (requests : List Request) : Prog Crash World Unit :=
  requests.forM fun request => do
    let _ ← serve srv request

def items : Ndb.Table where
  columns := [⟨text "id",0,.int,0,0,0,false⟩]
  primaryKeys := [text "id"]

def itemsDir : Dir :=
  {Dir.init none with
    database := some (text "shop")
    table := some (text "items")
    visible := [text "id"]
    aliases := [text "id"]
    indexes := [⟨text "*Primary$Key*",1,some 0,some 0,code 'P',false,false,[]⟩]
    keyColumns := [⟨text "id",none,0,.primaryKey,some 0,0,0,none,none,true,false,false,false⟩]}

def serving (tab : Ndb.Table) : Setting where
  ndb := ⟨some tab,true,fun _ => none,true,fun _ => false,none,fun _ => true,⟨false,.noError,0,[]⟩,[]⟩
  out := ⟨List.replicate 8 0,List.replicate 8 0,fun _ => 0,fun _ => [],fun _ => [],fun _ _ _ => []⟩
  mval := .zero
  rendering := ⟨fun _ => .ok (0,[]),fun _ => 0⟩

def asking (main : Bool) (args : Text) : RequestRec where
  main := main
  methodNumber := .get
  args := some args
  pathInfo := []
  beforePathInfo := 0
  contentType := none
  requestMethod := none
  requestData := none
  sendResult := false
  body := ⟨0,false,0,[]⟩

end ModNdb.Query
