import ModNdb.Lib.Interleaving
import ModNdb.Query.Statuses

/-! A process of the server (mod_ndb_ap20.cc): its connection to the cluster, the instances of its
threads, and how a request finds the instance it is for. -/
namespace ModNdb.Process
open Query (ServerConfig World Request serve)

/-- `config::srv` -/
structure Server where
  connectString : Option Text
  config : ServerConfig

/-- `Ndb_cluster_connection`: what it was made for, whether it was connected, and whether the cluster
was found ready. -/
structure Cluster where
  connectString : Option Text
  connected : Bool
  ready : Bool

/-- `mod_ndb_connection`; cluster connections are named by the order in which they were made. -/
structure Connection where
  connected : Bool
  connection : Option Nat
  made : List Cluster

/-- What `connect` returns: 0, 1 or -1. -/
inductive Connects | success | recoverable | unrecoverable

/-- What NDB answers: to `connect`, and to `wait_until_ready`. -/
structure Reply where
  connect : Connects
  readyNodes : Int

/-- Where a thread is in `connect_to_cluster`: at the `new`, at `set_name`, in the loop with
`conn_retries`, at `wait_until_ready`, at `c->connected = 1`, and behind it. -/
inductive Connecting
  | making
  | naming
  | trying (retries : Nat)
  | waiting
  | marking
  | left

/-- A call on `c->connection`, which may be another one by now. -/
def Connection.touch (c : Connection) (f : Cluster → Cluster) : Connection :=
  match c.connection with
  | none => c
  | some k => {c with made := c.made.modify k f}

def Connecting.advance (server : Server) (inParent : Bool) (reply : Reply) (c : Connection) :
    Connecting → Connection × Connecting
  | .making => ({c with
      connection := some c.made.length, made := c.made ++ [⟨server.connectString,false,false⟩]},.naming)
  | .naming => (c,.trying 0)
  | .trying retries =>
    match reply.connect with
    | .success => (c.touch fun cluster => {cluster with connected := true},
        if inParent then .marking else .waiting)
    | .unrecoverable => (c,.left)
    | .recoverable => (c,if retries + 1 = 5 then .left else .trying (retries + 1))
  | .waiting =>
    if reply.readyNodes < 0 then (c,.left)
    else (c.touch fun cluster => {cluster with ready := true},.marking)
  | .marking => ({c with connected := true},.left)
  | .left => (c,.left)

def Connecting.run (server : Server) (inParent : Bool) (replies : Nat → Reply) :
    Nat → Connection → Connecting → Connection × Connecting
  | 0, c, place => (c,place)
  | steps + 1, c, place =>
    let next := place.advance server inParent (replies steps) c
    Connecting.run server inParent replies steps next.1 next.2

/-- `connect_to_cluster` has nine steps at most. -/
def connectToCluster (server : Server) (inParent : Bool) (replies : Nat → Reply) (c : Connection) :
    Connection := (Connecting.run server inParent replies 9 c .making).1

/-- `ndb_instance`, with the connection that its `Ndb` object was made for, if it has one. -/
structure Slot where
  db : Option Nat
  serverConfig : ServerConfig
  world : World

/-- `mod_ndb_process` -/
structure Child where
  threaded : Bool
  threadLimit : Nat
  conn : Connection
  instances : List Slot
  crashed : Option Crash

/-- What the server and NDB answer while a child starts: whether there are threads, how many at most
and what their limit is, the connection, and whether the `n`th `Ndb` object is initialized. -/
structure Starting where
  threaded : Bool
  maxThreads : Nat
  hardLimit : Nat
  replies : Nat → Reply
  ndbInit : Nat → Bool

/-- `init_instance` -/
def initInstance (conn : Connection) (server : Server) (initialized : Bool) : Slot where
  db := if initialized then conn.connection else none
  serverConfig := server.config
  world := .init

def Connection.none : Connection := ⟨false,.none,[]⟩

/-- `mod_ndb_child_init`, with the settings of the main server. -/
def childInit (server : Server) (starting : Starting) : Child :=
  let conn := connectToCluster server false starting.replies .none
  { threaded := starting.threaded
    threadLimit := if starting.threaded then starting.hardLimit else 1
    conn := conn
    instances := (List.range (if starting.threaded then starting.maxThreads else 1)).map fun n =>
      initInstance conn server (starting.ndbInit n)
    crashed := none }

/-- What is asked for: a request, or the page of `ndb_status_handler`. -/
inductive Asked
  | request (request : Request)
  | status

/-- `request_rec`, with the id of its connection and the server it is for. -/
structure Arrival where
  connectionId : Nat
  server : Server
  asked : Asked

/-- What a request comes to: the error page of `ndb_handler` for its configuration, no instance, the
status it is answered with, or the page with the counters. -/
inductive Answer
  | misconfigured
  | unavailable
  | answered (status : Int)
  | page (stats : Option Query.Stats)

/-- Where a thread is with a request: in `my_instance`, where it looks whether the process is
connected, connects, looks again, and takes an instance, and in the handler. -/
inductive Place
  | free
  | asking (a : Arrival)
  | connecting (a : Arrival) (place : Connecting)
  | checking (a : Arrival)
  | fetching (a : Arrival)
  | handling (a : Arrival) (n : Nat)

structure Thread where
  place : Place
  coming : List Arrival
  done : List (Arrival × Answer)

/-- `ndb_handler` refuses before it asks for an instance. -/
def Asked.misconfigured : Asked → Bool
  | .request (.query _ _ dir) => dir.database = none ∨ dir.table = none
  | .request (.execBatch _ _) => false
  | .status => false

/-- `thread_id` -/
def Child.threadId (c : Child) (a : Arrival) : Nat :=
  if c.threaded then a.connectionId % c.threadLimit else 0

def Asked.noInstance : Asked → Answer
  | .request _ => .unavailable
  | .status => .page none

/-- Only `Query` looks at `i->db`. -/
def Request.needsDb : Request → Bool
  | .query _ _ _ => true
  | .execBatch _ _ => false

def Thread.finish (t : Thread) (a : Arrival) (answer : Answer) : Thread :=
  {t with place := .free, done := t.done ++ [(a,answer)]}

def Thread.handle (c : Child) (t : Thread) (a : Arrival) (n : Nat) : Child × Thread :=
  match c.instances[n]? with
  | none => ({c with crashed := some .wildPointer},t)
  | some slot =>
    match a.asked with
    | .status => (c,t.finish a (.page (some slot.world.inst.stats)))
    | .request request =>
      if Request.needsDb request ∧ slot.db = none then ({c with crashed := some .nullPointer},t)
      else
        match serve slot.serverConfig request slot.world with
        | (.ok status,world) =>
          ({c with instances := c.instances.set n {slot with world := world}},
            t.finish a (.answered status))
        | (.error why,_) => ({c with crashed := some why},t)

def Thread.advance (reply : Reply) (c : Child) (t : Thread) : Child × Thread :=
  match t.place with
  | .free =>
    match t.coming with
    | [] => (c,t)
    | a::coming =>
      if a.asked.misconfigured then (c,{t with coming := coming}.finish a .misconfigured)
      else (c,{t with place := .asking a, coming := coming})
  | .asking a =>
    (c,{t with place := if c.conn.connected then .fetching a else .connecting a .making})
  | .connecting a .left => (c,{t with place := .checking a})
  | .connecting a place =>
    let next := place.advance a.server false reply c.conn
    ({c with conn := next.1},{t with place := .connecting a next.2})
  | .checking a =>
    if c.conn.connected then (c,{t with place := .fetching a}) else (c,t.finish a a.asked.noInstance)
  | .fetching a =>
    if c.threadId a < c.instances.length then (c,{t with place := .handling a (c.threadId a)})
    else ({c with crashed := some .wildPointer},t)
  | .handling a n => t.handle c a n

/-- A thread of a process that is alive makes a step, whatever NDB answers. -/
def Child.Step (_ : Nat) (c : Child) (t : Thread) (c' : Child) (t' : Thread) : Prop :=
  c.crashed = none ∧ ∃ reply, t.advance reply c = (c',t')

def Thread.start (coming : List Arrival) : Thread := ⟨.free,coming,[]⟩

end ModNdb.Process
