import ModNdb.Process.Child

/-! What holds of a process whichever of its threads run, and in whatever order. -/
namespace ModNdb.Process
open Interleaving (Outlined Reaches)
open Query (ServerConfig World serve)

/-- The steps that `connect_to_cluster` has still to make, at most. -/
def Connecting.rank : Connecting → Nat
  | .making => 9
  | .naming => 8
  | .trying retries => 7 - retries
  | .waiting => 2
  | .marking => 1
  | .left => 0

/-- `conn_retries` does not come to 5 in the loop. -/
def Connecting.Within : Connecting → Prop
  | .trying retries => retries < 5
  | _ => True

theorem Connecting.within_advance (server : Server) (inParent : Bool) (reply : Reply) (c : Connection)
    (place : Connecting) (within : place.Within) :
    (place.advance server inParent reply c).2.Within ∧
      (place.advance server inParent reply c).2.rank ≤ place.rank - 1 := by
  cases place with
  | making => exact ⟨trivial,Nat.le_refl _⟩
  | naming => exact ⟨Nat.zero_lt_succ 4,Nat.le_refl _⟩
  | marking => exact ⟨trivial,Nat.le_refl _⟩
  | left => exact ⟨trivial,Nat.le_refl _⟩
  | waiting =>
    change (ite _ _ _ : Connection × Connecting).2.Within ∧ (ite _ _ _ : Connection × Connecting).2.rank ≤ 1
    split
    · exact ⟨trivial,Nat.zero_le _⟩
    · exact ⟨trivial,Nat.le_refl _⟩
  | trying retries =>
    have bound : retries < 5 := within
    have left : 2 ≤ 7 - retries - 1 := by omega
    cases answer : reply.connect with
    | success =>
      simp only [advance,answer]
      cases inParent with
      | true => exact ⟨trivial,Nat.le_trans (by decide) left⟩
      | false => exact ⟨trivial,left⟩
    | unrecoverable =>
      simp only [advance,answer]
      exact ⟨trivial,Nat.zero_le _⟩
    | recoverable =>
      simp only [advance,answer]
      split
      · exact ⟨trivial,Nat.zero_le _⟩
      · next more =>
        refine ⟨?_,?_⟩
        · change retries + 1 < 5
          omega
        · change 7 - (retries + 1) ≤ 7 - retries - 1
          omega

/-- A thread that connects has left within the steps that its place allows: nine are enough. -/
theorem Connecting.run_left (server : Server) (inParent : Bool) (replies : Nat → Reply) (steps : Nat)
    (c : Connection) (place : Connecting) (within : place.Within) (enough : place.rank ≤ steps) :
    (Connecting.run server inParent replies steps c place).2 = .left := by
  induction steps generalizing c place with
  | zero =>
    cases place with
    | left => rfl
    | making | naming | waiting | marking => cases enough
    | trying retries =>
      have bound : retries < 5 := within
      have none : 7 - retries ≤ 0 := enough
      omega
  | succ steps ih =>
    obtain ⟨within',less⟩ := within_advance server inParent (replies steps) c place within
    exact ih _ _ within' (by omega)

/-- Some cluster that the process was connected to was found ready. -/
def Connection.Ready (c : Connection) : Prop := ∃ cluster ∈ c.made, cluster.ready = true

def Connection.Latest (c : Connection) : Prop :=
  c.made ≠ [] ∧ c.connection = some (c.made.length - 1)

/-- What a thread does not take back: that the process is connected, connections that were made and
those that were found ready. -/
structure Connection.Grows (c c' : Connection) : Prop where
  connected : c.connected = true → c'.connected = true
  made : c.made.length ≤ c'.made.length
  ready : c.Ready → c'.Ready

theorem Connection.Grows.rfl {c : Connection} : c.Grows c := ⟨id,Nat.le_refl _,id⟩

/-- What a call on the connection leaves as it is. -/
theorem Connection.touch_same (c : Connection) (f : Cluster → Cluster) :
    (c.touch f).connected = c.connected ∧ (c.touch f).connection = c.connection ∧
      (c.touch f).made.length = c.made.length := by
  unfold touch
  split
  · exact ⟨.refl _,.refl _,.refl _⟩
  · exact ⟨.refl _,.refl _,List.length_modify ..⟩

theorem Connection.touch_ready (c : Connection) (f : Cluster → Cluster)
    (keeps : ∀ cluster, cluster.ready = true → (f cluster).ready = true) (ready : c.Ready) :
    (c.touch f).Ready := by
  unfold touch
  split
  · exact ready
  · next k _ =>
    obtain ⟨cluster,member,found⟩ := ready
    obtain ⟨n,here⟩ := List.mem_iff_getElem?.mp member
    have moved : (c.made.modify k f)[n]? = some (if k = n then f cluster else cluster) := by
      rw [List.getElem?_modify,here]
      split <;> rfl
    refine ⟨_,List.mem_of_getElem? moved,?_⟩
    split
    · exact keeps cluster found
    · exact found

theorem Connection.touch_grows (c : Connection) (f : Cluster → Cluster)
    (keeps : ∀ cluster, cluster.ready = true → (f cluster).ready = true) : c.Grows (c.touch f) := by
  obtain ⟨connected,_,length⟩ := c.touch_same f
  exact ⟨connected.trans,length.ge,c.touch_ready f keeps⟩

theorem Connection.touch_latest (c : Connection) (f : Cluster → Cluster) (latest : c.Latest) :
    (c.touch f).Latest := by
  obtain ⟨_,connection,length⟩ := c.touch_same f
  obtain ⟨some_,last⟩ := latest
  refine ⟨fun none => ?_,?_⟩
  · rw [none] at length
    exact some_ (List.length_eq_zero_iff.mp length.symm)
  · rw [connection,length,last]

/-- `wait_until_ready` finds the latest connection ready. -/
theorem Connection.found_ready (c : Connection) (latest : c.Latest) :
    (c.touch fun cluster => {cluster with ready := true}).Ready := by
  obtain ⟨some_,last⟩ := latest
  have inside : c.made.length - 1 < c.made.length :=
    Nat.sub_lt (List.length_pos_of_ne_nil some_) Nat.one_pos
  unfold touch
  rw [last]
  dsimp only
  have moved : (c.made.modify (c.made.length - 1) fun cluster => {cluster with ready := true})[
      c.made.length - 1]? = some {c.made[c.made.length - 1] with ready := true} := by
    rw [List.getElem?_modify,List.getElem?_eq_getElem inside]
    simp only [if_true]
    rfl
  exact ⟨_,List.mem_of_getElem? moved,.refl _⟩

/-- What holds of the connection where a thread is in `connect_to_cluster`, which began when so many
connections were made. -/
def Connecting.Holds (before : Nat) (c : Connection) : Connecting → Prop
  | .making => before ≤ c.made.length
  | .marking => c.Latest ∧ before < c.made.length ∧ c.Ready
  | .naming | .trying _ | .waiting | .left => c.Latest ∧ before < c.made.length

theorem Connecting.Holds.inside {before : Nat} {c : Connection} {place : Connecting}
    (holds : place.Holds before c) : place = .making ∨ c.Latest ∧ before < c.made.length := by
  cases place with
  | making => exact .inl rfl
  | marking => exact .inr ⟨holds.1,holds.2.1⟩
  | naming | trying | waiting | left => exact .inr holds

/-- A step of `connect_to_cluster` in a child. -/
structure Connecting.Advances (before : Nat) (c c' : Connection) (place place' : Connecting) : Prop where
  grows : c.Grows c'
  holds : place'.Holds before c'
  latest : c'.Latest
  more : before < c'.made.length
  ready : c'.connected = true → c.connected = true ∨ c'.Ready

theorem Connecting.Advances.stays {before : Nat} {c : Connection} {place place' : Connecting}
    (latest : c.Latest) (more : before < c.made.length) (holds : place'.Holds before c) :
    Connecting.Advances before c c place place' := ⟨.rfl,holds,latest,more,.inl⟩

theorem Connecting.advance_spec (before : Nat) (server : Server) (reply : Reply) (c : Connection)
    (place : Connecting) (holds : place.Holds before c) :
    Connecting.Advances before c (place.advance server false reply c).1 place
      (place.advance server false reply c).2 := by
  have touched : ∀ (f : Cluster → Cluster) (place' : Connecting),
      (∀ cluster, cluster.ready = true → (f cluster).ready = true) → c.Latest →
      before < c.made.length → place'.Holds before (c.touch f) →
      Connecting.Advances before c (c.touch f) place place' := by
    intro f place' keeps latest more holds'
    obtain ⟨connected,_,length⟩ := c.touch_same f
    exact ⟨c.touch_grows f keeps,holds',c.touch_latest f latest,length ▸ more,
      fun on => .inl (connected ▸ on)⟩
  cases place with
  | making =>
    have length : (c.made ++ [Cluster.mk server.connectString false false]).length = c.made.length + 1 :=
      List.length_append
    have latest : Connection.Latest {c with
        connection := some c.made.length, made := c.made ++ [⟨server.connectString,false,false⟩]} :=
      ⟨List.append_ne_nil_of_right_ne_nil _ (List.cons_ne_nil _ _),by simp⟩
    have more : before < (c.made ++ [Cluster.mk server.connectString false false]).length :=
      length ▸ Nat.lt_succ_of_le holds
    refine ⟨⟨id,?_,?_⟩,⟨latest,more⟩,latest,more,.inl⟩
    · exact length ▸ Nat.le_succ _
    · rintro ⟨cluster,member,found⟩
      exact ⟨cluster,List.mem_append_left _ member,found⟩
  | naming => exact .stays holds.1 holds.2 (And.intro holds.1 holds.2)
  | left => exact .stays holds.1 holds.2 holds
  | marking =>
    obtain ⟨latest,more,ready⟩ := holds
    exact ⟨⟨fun _ => rfl,Nat.le_refl _,id⟩,And.intro latest more,latest,more,fun _ => .inr ready⟩
  | waiting =>
    obtain ⟨latest,more⟩ := holds
    change Connecting.Advances before c (ite _ _ _ : Connection × Connecting).1 .waiting
      (ite _ _ _ : Connection × Connecting).2
    split
    · exact .stays latest more (And.intro latest more)
    · refine touched _ .marking (fun _ _ => rfl) latest more ⟨c.touch_latest _ latest,?_,c.found_ready latest⟩
      exact (c.touch_same _).2.2 ▸ more
  | trying retries =>
    obtain ⟨latest,more⟩ := holds
    cases answer : reply.connect with
    | success =>
      simp only [advance,answer]
      have more' : before < (c.touch fun cluster => {cluster with connected := true}).made.length :=
        (c.touch_same _).2.2 ▸ more
      exact touched _ .waiting (fun _ => id) latest more (And.intro (c.touch_latest _ latest) more')
    | unrecoverable =>
      simp only [advance,answer]
      exact .stays latest more (And.intro latest more)
    | recoverable =>
      simp only [advance,answer]
      split
      · exact .stays latest more (And.intro latest more)
      · exact .stays latest more (And.intro latest more)

/-- Connections are made at one place. -/
theorem Connecting.advance_made (server : Server) (inParent : Bool) (reply : Reply) (c : Connection)
    (place : Connecting) (other : place ≠ .making) :
    (place.advance server inParent reply c).1.made.length = c.made.length ∧
      (place.advance server inParent reply c).2 ≠ .making := by
  cases place with
  | making => exact absurd rfl other
  | naming | marking | left => exact ⟨rfl,nofun⟩
  | waiting =>
    change (ite _ _ _ : Connection × Connecting).1.made.length = _ ∧
      (ite _ _ _ : Connection × Connecting).2 ≠ .making
    split
    · exact ⟨rfl,nofun⟩
    · exact ⟨(c.touch_same _).2.2,nofun⟩
  | trying retries =>
    cases answer : reply.connect with
    | success =>
      simp only [advance,answer]
      refine ⟨(c.touch_same _).2.2,?_⟩
      cases inParent <;> nofun
    | unrecoverable =>
      simp only [advance,answer]
      exact ⟨trivial,nofun⟩
    | recoverable =>
      simp only [advance,answer]
      refine ⟨trivial,?_⟩
      split <;> nofun

theorem Connecting.run_made (server : Server) (inParent : Bool) (replies : Nat → Reply) (steps : Nat)
    (c : Connection) (place : Connecting) (other : place ≠ .making) :
    (Connecting.run server inParent replies steps c place).1.made.length = c.made.length := by
  induction steps generalizing c place with
  | zero => rfl
  | succ steps ih =>
    obtain ⟨same,other'⟩ := advance_made server inParent (replies steps) c place other
    exact (ih _ _ other').trans same

theorem Connecting.run_spec (before : Nat) (server : Server) (replies : Nat → Reply) (steps : Nat)
    (c : Connection) (place : Connecting) (latest : c.Latest) (holds : place.Holds before c)
    (ready : c.connected = true → c.Ready) :
    (Connecting.run server false replies steps c place).1.Latest ∧
      ((Connecting.run server false replies steps c place).1.connected = true →
        (Connecting.run server false replies steps c place).1.Ready) := by
  induction steps generalizing c place with
  | zero => exact ⟨latest,ready⟩
  | succ steps ih =>
    have step := advance_spec before server (replies steps) c place holds
    refine ih _ _ step.latest step.holds fun on => ?_
    rcases step.ready on with earlier | found
    · exact step.grows.ready (ready earlier)
    · exact found

theorem connectToCluster_first (server : Server) (replies : Nat → Reply) :
    (connectToCluster server false replies .none).Latest ∧
      (connectToCluster server false replies .none).made.length = 1 ∧
      ((connectToCluster server false replies .none).connected = true →
        (connectToCluster server false replies .none).Ready) := by
  have first := Connecting.advance_spec 0 server (replies 8) .none .making (Nat.le_refl 0)
  have spec := Connecting.run_spec 0 server replies 8 _ .naming first.latest first.holds nofun
  exact ⟨spec.1,Connecting.run_made server false replies 8 _ .naming nofun,spec.2⟩

inductive Moved (c : Child) (t : Thread) : Child → Thread → Prop
  | idle : t.place = .free → t.coming = [] → Moved c t c t
  | misconfigured (a : Arrival) (coming : List Arrival) : t.place = .free → t.coming = a::coming →
    a.asked.misconfigured = true → Moved c t c ({t with coming := coming}.finish a .misconfigured)
  | take (a : Arrival) (coming : List Arrival) : t.place = .free → t.coming = a::coming →
    Moved c t c {t with place := .asking a, coming := coming}
  | found (a : Arrival) : t.place = .asking a ∨ t.place = .checking a → c.conn.connected = true →
    Moved c t c {t with place := .fetching a}
  | missing (a : Arrival) : t.place = .asking a → c.conn.connected = false →
    Moved c t c {t with place := .connecting a .making}
  | connect (a : Arrival) (place : Connecting) (reply : Reply) : t.place = .connecting a place →
    Moved c t {c with conn := (place.advance a.server false reply c.conn).1}
      {t with place := .connecting a (place.advance a.server false reply c.conn).2}
  | left (a : Arrival) : t.place = .connecting a .left → Moved c t c {t with place := .checking a}
  | unavailable (a : Arrival) : t.place = .checking a → c.conn.connected = false →
    Moved c t c (t.finish a a.asked.noInstance)
  | fetched (a : Arrival) : t.place = .fetching a → c.threadId a < c.instances.length →
    Moved c t c {t with place := .handling a (c.threadId a)}
  | page (a : Arrival) (n : Nat) (slot : Slot) : t.place = .handling a n → a.asked = .status →
    c.instances[n]? = some slot → Moved c t c (t.finish a (.page (some slot.world.inst.stats)))
  | answered (a : Arrival) (n : Nat) (slot : Slot) (request : Query.Request) (status : Int)
      (world : World) : t.place = .handling a n → a.asked = .request request →
    c.instances[n]? = some slot → serve slot.serverConfig request slot.world = (.ok status,world) →
    Moved c t {c with instances := c.instances.set n {slot with world := world}}
      (t.finish a (.answered status))
  | crashed (why : Crash) : Moved c t {c with crashed := some why} t

theorem Thread.handle_moved (c : Child) (t : Thread) (a : Arrival) (n : Nat)
    (here : t.place = .handling a n) : Moved c t (t.handle c a n).1 (t.handle c a n).2 := by
  unfold handle
  cases stands : c.instances[n]? with
  | none => exact .crashed .wildPointer
  | some slot =>
    dsimp only
    cases asked : a.asked with
    | status => exact .page a n slot here asked stands
    | request request =>
      dsimp only
      split
      · exact .crashed .nullPointer
      · cases ran : serve slot.serverConfig request slot.world with
        | mk outcome world =>
          cases outcome with
          | ok status => exact .answered a n slot request status world here asked stands ran
          | error why => exact .crashed why

theorem Thread.advance_moved (reply : Reply) (c : Child) (t : Thread) :
    Moved c t (t.advance reply c).1 (t.advance reply c).2 := by
  cases here : t.place with
  | free =>
    cases coming : t.coming with
    | nil =>
      simp only [advance,here,coming]
      exact .idle here coming
    | cons a rest =>
      simp only [advance,here,coming]
      split
      · next refused => exact .misconfigured a rest here coming refused
      · exact .take a rest here coming
  | asking a =>
    simp only [advance,here]
    split
    · next on => exact .found a (.inl here) on
    · next off => exact .missing a here (Bool.not_eq_true _ ▸ off)
  | connecting a place =>
    cases place with
    | left =>
      simp only [advance,here]
      exact .left a here
    | making | naming | trying | waiting | marking =>
      simp only [advance,here]
      exact .connect a _ reply here
  | checking a =>
    simp only [advance,here]
    split
    · next on => exact .found a (.inr here) on
    · next off => exact .unavailable a here (Bool.not_eq_true _ ▸ off)
  | fetching a =>
    simp only [advance,here]
    split
    · next inside => exact .fetched a here inside
    · exact .crashed .wildPointer
  | handling a n =>
    simp only [advance,here]
    exact t.handle_moved c a n here

theorem Child.Step.moved {i : Nat} {c c' : Child} {t t' : Thread} (step : Child.Step i c t c' t') :
    Moved c t c' t' := by
  obtain ⟨_,reply,same⟩ := step
  have moved := t.advance_moved reply c
  rwa [same] at moved

/-- What a process keeps of what it started with. -/
structure Child.Keeps (start c : Child) : Prop where
  threaded : c.threaded = start.threaded
  threadLimit : c.threadLimit = start.threadLimit
  instances : c.instances.map (fun slot => (slot.db,slot.serverConfig)) =
    start.instances.map fun slot => (slot.db,slot.serverConfig)
  latest : c.conn.Latest
  ready : c.conn.connected = true → c.conn.Ready
  grown : start.conn.made.length ≤ c.conn.made.length
  first : start.conn.connected = true → c.conn = start.conn
  again : start.conn.connected = false → c.conn.connected = true →
    start.conn.made.length < c.conn.made.length

theorem Child.Keeps.length {start c : Child} (kept : Child.Keeps start c) :
    c.instances.length = start.instances.length := by
  simpa using congrArg List.length kept.instances

/-- An instance keeps its `Ndb` object and its settings. -/
theorem Child.Keeps.slot {start c : Child} (kept : Child.Keeps start c) {n : Nat} {slot : Slot}
    (stands : c.instances[n]? = some slot) : ∃ first, start.instances[n]? = some first ∧
      slot.db = first.db ∧ slot.serverConfig = first.serverConfig := by
  have same := congrArg (·[n]?) kept.instances
  simp only [List.getElem?_map,stands,Option.map_some] at same
  obtain ⟨first,found,equal⟩ := Option.map_eq_some_iff.mp same.symm
  obtain ⟨db,config⟩ := Prod.mk.inj equal
  exact ⟨first,found,db.symm,config.symm⟩

def Place.Holds (start c : Child) : Place → Prop
  | .free | .asking _ => True
  | .connecting _ place => start.conn.connected = false ∧ place.Holds start.conn.made.length c.conn
  | .checking _ => start.conn.connected = false ∧ start.conn.made.length < c.conn.made.length
  | .fetching _ => c.conn.connected = true
  | .handling _ n => c.conn.connected = true ∧ n < start.instances.length

theorem Connecting.Holds.grows {before : Nat} {c c' : Connection} {place : Connecting}
    (holds : place.Holds before c) (grows : c.Grows c') (latest : c'.Latest) :
    place.Holds before c' := by
  cases place with
  | making => exact Nat.le_trans holds grows.made
  | naming | trying | waiting | left => exact ⟨latest,Nat.lt_of_lt_of_le holds.2 grows.made⟩
  | marking => exact ⟨latest,Nat.lt_of_lt_of_le holds.2.1 grows.made,grows.ready holds.2.2⟩

theorem Place.Holds.grows {start c c' : Child} {place : Place} (holds : place.Holds start c)
    (grows : c.conn.Grows c'.conn) (latest : c'.conn.Latest) : place.Holds start c' := by
  cases place with
  | free | asking => trivial
  | connecting => exact ⟨holds.1,holds.2.grows grows latest⟩
  | checking => exact ⟨holds.1,Nat.lt_of_lt_of_le holds.2 grows.made⟩
  | fetching => exact grows.connected holds
  | handling => exact ⟨grows.connected holds.1,holds.2⟩

theorem set_statics (instances : List Slot) (n : Nat) (slot : Slot) (world : World)
    (stands : instances[n]? = some slot) :
    (instances.set n {slot with world := world}).map (fun slot => (slot.db,slot.serverConfig)) =
      instances.map fun slot => (slot.db,slot.serverConfig) := by
  have inside : n < instances.length := (List.getElem?_eq_some_iff.mp stands).1
  apply List.ext_getElem?
  intro k
  rw [List.getElem?_map,List.getElem?_map,List.getElem?_set]
  by_cases same : n = k
  · subst same
    rw [if_pos rfl,if_pos inside,stands]
    rfl
  · rw [if_neg same]

/-- A step of a thread keeps what the process keeps, takes nothing back, and comes to a place where what
has to hold holds. -/
theorem Moved.keeps {start c c' : Child} {t t' : Thread} (moved : Moved c t c' t')
    (kept : Child.Keeps start c) (holds : t.place.Holds start c) :
    Child.Keeps start c' ∧ c.conn.Grows c'.conn ∧ t'.place.Holds start c' := by
  cases moved with
  | idle => exact ⟨kept,.rfl,holds⟩
  | misconfigured => exact ⟨kept,.rfl,trivial⟩
  | take => exact ⟨kept,.rfl,trivial⟩
  | found a _ on => exact ⟨kept,.rfl,on⟩
  | missing a _ off =>
    refine ⟨kept,.rfl,?_,?_⟩
    · by_contra started
      rw [Bool.not_eq_false] at started
      have same := kept.first started
      rw [same,started] at off
      cases off
    · exact kept.grown
  | connect a place reply here =>
    rw [here] at holds
    obtain ⟨off,holds⟩ := holds
    have step := place.advance_spec _ a.server reply c.conn holds
    refine ⟨⟨kept.threaded,kept.threadLimit,kept.instances,step.latest,?_,?_,?_,?_⟩,
      step.grows,off,step.holds⟩
    · intro on
      rcases step.ready on with earlier | found
      · exact step.grows.ready (kept.ready earlier)
      · exact found
    · exact Nat.le_trans kept.grown step.grows.made
    · intro started
      exact absurd (off.symm.trans started) nofun
    · exact fun _ _ => step.more
  | left a here =>
    rw [here] at holds
    obtain ⟨off,_,more⟩ := holds
    exact ⟨kept,.rfl,off,more⟩
  | unavailable => exact ⟨kept,.rfl,trivial⟩
  | fetched a here inside =>
    rw [here] at holds
    exact ⟨kept,.rfl,holds,kept.length ▸ inside⟩
  | page => exact ⟨kept,.rfl,trivial⟩
  | answered a n slot request status world _ _ stands =>
    refine ⟨⟨kept.threaded,kept.threadLimit,?_,kept.latest,kept.ready,kept.grown,kept.first,
      kept.again⟩,.rfl,trivial⟩
    exact (set_statics _ n slot world stands).trans kept.instances
  | crashed => exact ⟨⟨kept.threaded,kept.threadLimit,kept.instances,kept.latest,kept.ready,kept.grown,
      kept.first,kept.again⟩,.rfl,holds⟩

theorem connection_outlined (start : Child) :
    Outlined Child.Step (Child.Keeps start) fun _ c t => t.place.Holds start c where
  keeps := by
    intro i c t c' t' kept holds step
    obtain ⟨kept',_,holds'⟩ := step.moved.keeps kept holds
    exact ⟨kept',holds'⟩
  spares := by
    intro i j c t c' t' u _ kept holds other step
    obtain ⟨kept',grows,_⟩ := step.moved.keeps kept holds
    exact other.grows grows kept'.latest

theorem childInit_keeps (server : Server) (starting : Starting) :
    (childInit server starting).Keeps (childInit server starting) := by
  obtain ⟨latest,_,ready⟩ := connectToCluster_first server starting.replies
  exact ⟨rfl,rfl,rfl,latest,ready,Nat.le_refl _,fun _ => rfl,
    fun off on => absurd (off.symm.trans on) nofun⟩

theorem childInit_instance (server : Server) (starting : Starting) (n : Nat) (slot : Slot)
    (stands : (childInit server starting).instances[n]? = some slot) :
    slot.serverConfig = server.config ∧ slot.db = if starting.ndbInit n then some 0 else none := by
  obtain ⟨⟨_,connection⟩,made,_⟩ := connectToCluster_first server starting.replies
  unfold childInit at stands
  rw [List.getElem?_map] at stands
  obtain ⟨k,member,same⟩ := Option.map_eq_some_iff.mp stands
  obtain ⟨_,rfl⟩ := List.getElem?_eq_some_iff.mp member
  rw [List.getElem_range] at same
  subst same
  unfold initInstance
  rw [connection,made]
  exact ⟨rfl,rfl⟩

def turn (s : Interleaving.State Nat Child Thread) (i : Nat) : Interleaving.State Nat Child Thread where
  shared := ((s.own i).advance ⟨.success,1⟩ s.shared).1
  own := Function.update s.own i ((s.own i).advance ⟨.success,1⟩ s.shared).2

theorem turn_step (s : Interleaving.State Nat Child Thread) (i : Nat) (alive : s.shared.crashed = none) :
    Interleaving.Step Child.Step s (turn s i) :=
  .run i _ _ _ _ ⟨alive,⟨.success,1⟩,rfl⟩

/-- However the threads of a child interleave, and whatever NDB answers: a request is handled with an
instance that has the settings of the main server, in a process that has found a cluster ready. The
`Ndb` object of the instance is one of the connection that the process has by then if the process was
connected when it started, which it then remains, and the object was initialized; and only then. -/
theorem instance_current_iff (server : Server) (starting : Starting) (coming : Nat → List Arrival)
    (s : Interleaving.State Nat Child Thread)
    (reached : Reaches Child.Step ⟨childInit server starting,fun i => .start (coming i)⟩ s)
    (i : Nat) (a : Arrival) (n : Nat) (here : (s.own i).place = .handling a n) :
    ∃ slot, s.shared.instances[n]? = some slot ∧ slot.serverConfig = server.config ∧
      s.shared.conn.connected = true ∧ s.shared.conn.Ready ∧
      ((childInit server starting).conn.connected = true →
        s.shared.conn = (childInit server starting).conn) ∧
      (slot.db = s.shared.conn.connection ↔
        (childInit server starting).conn.connected = true ∧ starting.ndbInit n = true) := by
  obtain ⟨kept,each⟩ := (connection_outlined _).reaches reached ⟨childInit_keeps server starting,
    fun _ => trivial⟩
  have holds := each i
  rw [here] at holds
  obtain ⟨on,inside⟩ := holds
  have stands : s.shared.instances[n]? = some (s.shared.instances.get ⟨n,kept.length ▸ inside⟩) :=
    List.getElem?_eq_getElem _
  obtain ⟨first,found,db,config⟩ := kept.slot stands
  obtain ⟨settings,made⟩ := childInit_instance server starting n first found
  obtain ⟨_,one,_⟩ := connectToCluster_first server starting.replies
  have one : (childInit server starting).conn.made.length = 1 := one
  have last := kept.latest.2
  refine ⟨_,stands,config.trans settings,on,kept.ready on,kept.first,?_⟩
  rw [db,made,last]
  cases started : (childInit server starting).conn.connected with
  | true =>
    rw [kept.first started,one]
    cases starting.ndbInit n with
    | true => exact iff_of_true rfl ⟨rfl,rfl⟩
    | false => exact iff_of_false nofun fun both => nomatch both.2
  | false =>
    have more := kept.again started on
    refine iff_of_false (fun same => ?_) fun both => nomatch both.1
    split at same
    · have equal := Option.some.inj same
      omega
    · cases same

def plainServer : Server := ⟨none,⟨20,50,false⟩⟩

def quickStart : Starting := ⟨true,2,64,fun _ => ⟨.success,1⟩,fun _ => true⟩

def twoThreads : Nat → List Arrival
  | 0 => [⟨64,plainServer,.status⟩]
  | 1 => [⟨65,plainServer,.status⟩]
  | _ => []

def sharing : Interleaving.State Nat Child Thread :=
  ⟨childInit plainServer quickStart,fun i => .start (twoThreads i)⟩

def second : Interleaving.State Nat Child Thread := turn (turn (turn sharing 1) 1) 1

theorem second_reached : Reaches Child.Step sharing second :=
  ((Relation.ReflTransGen.single (turn_step sharing 1 rfl)).tail (turn_step _ 1 rfl)).tail
    (turn_step _ 1 rfl)

theorem instance_current_iff_second : ∃ slot, second.shared.instances[1]? = some slot ∧
    slot.serverConfig = plainServer.config ∧ second.shared.conn.connected = true ∧
    second.shared.conn.Ready ∧
    ((childInit plainServer quickStart).conn.connected = true →
      second.shared.conn = (childInit plainServer quickStart).conn) ∧
    (slot.db = second.shared.conn.connection ↔
      (childInit plainServer quickStart).conn.connected = true ∧ quickStart.ndbInit 1 = true) :=
  instance_current_iff plainServer quickStart twoThreads second second_reached 1
    ⟨65,plainServer,.status⟩ 1 rfl

end ModNdb.Process
