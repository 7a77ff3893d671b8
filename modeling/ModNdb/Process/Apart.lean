import ModNdb.Process.Threads
import ModNdb.Query.Transactions

/-! The threads of a process do not share instances, so that each one's requests are served as if it
were alone. -/
namespace ModNdb.Process
open Interleaving (Outlined Reaches)
open Query (ServerConfig World serve)

/-- Requests served one after the other on an instance that nobody else uses, with their statuses. -/
inductive Alone (settings : ServerConfig) : List (Query.Request × Int) → World → Prop
  | none : Alone settings [] .init
  | next (served : List (Query.Request × Int)) (w w' : World) (request : Query.Request) (status : Int) :
    Alone settings served w → serve settings request w = (.ok status,w') →
    Alone settings (served ++ [(request,status)]) w'

theorem Alone.reachable {settings : ServerConfig} {served : List (Query.Request × Int)} {w : World}
    (alone : Alone settings served w) : Query.run settings (served.map Prod.fst) .init = (.ok (),w) := by
  induction alone with
  | none => rfl
  | next served w w' request status _ ran ih =>
    rw [List.map_append,Query.run_append,Prog.bind_ok _ ih]
    exact Query.run_single_ok settings ran

def served : List (Arrival × Answer) → List (Query.Request × Int)
  | [] => []
  | (a,answer)::rest =>
    match a.asked, answer with
    | .request request, .answered status => (request,status) :: served rest
    | _, _ => served rest

theorem served_append (before after : List (Arrival × Answer)) :
    served (before ++ after) = served before ++ served after := by
  induction before with
  | nil => rfl
  | cons one rest ih =>
    obtain ⟨a,answer⟩ := one
    simp only [List.cons_append,served,ih]
    split <;> rfl

def Place.arrival : Place → List Arrival
  | .free => []
  | .asking a | .connecting a _ | .checking a | .fetching a | .handling a _ => [a]

/-- What a thread was given, what it is at and what it has answered. -/
def Thread.all (t : Thread) : List Arrival := t.done.map Prod.fst ++ t.place.arrival ++ t.coming

/-- A thread is at the instance of its own number, where its requests were served and nothing else. -/
structure Thread.Apart (start : Child) (settings : ServerConfig) (given : List Arrival) (i : Nat)
    (c : Child) (t : Thread) : Prop where
  all : t.all = given
  own : ∀ a n, t.place = .handling a n → n = i
  alone : ∀ slot, c.instances[i]? = some slot → Alone settings (served t.done) slot.world

theorem Thread.all_finish (t : Thread) (a : Arrival) (answer : Answer) :
    (t.finish a answer).all = t.done.map Prod.fst ++ [a] ++ t.coming := by
  unfold all finish
  simp only [List.map_append,List.map_cons,List.map_nil,Place.arrival,List.append_nil]

theorem served_finish (t : Thread) (a : Arrival) (answer : Answer)
    (other : ∀ request status, a.asked = .request request → answer ≠ .answered status) :
    served (t.finish a answer).done = served t.done := by
  unfold Thread.finish
  rw [served_append]
  refine (congrArg (served t.done ++ ·) ?_).trans (List.append_nil _)
  simp only [served]

theorem Asked.noInstance_ne (asked : Asked) (status : Int) : asked.noInstance ≠ .answered status := by
  cases asked <;> nofun

section
variable {start c c' : Child} {settings : ServerConfig} {given : List Arrival} {i : Nat} {t t' : Thread}

theorem Thread.Apart.goes (apart : t.Apart start settings given i c) (place : Place)
    (same : place.arrival = t.place.arrival) (own : ∀ a n, place = .handling a n → n = i) :
    Thread.Apart start settings given i c {t with place := place} where
  all := by
    rw [← apart.all]
    unfold Thread.all
    rw [same]
  own := own
  alone := apart.alone

theorem Thread.Apart.answers (apart : t.Apart start settings given i c) (a : Arrival) (answer : Answer)
    (here : t.place.arrival = [a])
    (other : ∀ request status, a.asked = .request request → answer ≠ .answered status) :
    Thread.Apart start settings given i c (t.finish a answer) where
  all := by
    rw [← apart.all,t.all_finish]
    unfold Thread.all
    rw [here]
  own := fun _ _ handling => by cases handling
  alone := by
    rw [served_finish t a answer other]
    exact apart.alone

/-- The arrivals of a thread are for the instance of its own number. -/
theorem Moved.apart (moved : Moved c t c' t') (kept : Child.Keeps start c)
    (settled : ∀ slot, start.instances[i]? = some slot → slot.serverConfig = settings)
    (ids : ∀ a ∈ given, start.threadId a = i) (apart : t.Apart start settings given i c) :
    t'.Apart start settings given i c' := by
  cases moved with
  | idle => exact apart
  | misconfigured a coming here next =>
    refine ⟨?_,(fun _ _ handling => by cases handling),?_⟩
    · rw [← apart.all,Thread.all_finish]
      unfold Thread.all
      rw [here,next]
      simp only [Place.arrival,List.append_nil,List.append_assoc,List.singleton_append]
    · rw [served_finish _ a .misconfigured fun _ _ _ same => by cases same]
      exact apart.alone
  | take a coming here next =>
    refine ⟨?_,(fun _ _ handling => by cases handling),apart.alone⟩
    rw [← apart.all]
    unfold Thread.all
    rw [here,next]
    simp only [Place.arrival,List.append_nil,List.append_assoc,List.singleton_append]
  | found a here =>
    refine apart.goes _ ?_ fun _ _ handling => by cases handling
    rcases here with here | here
    all_goals
      rw [here]
      rfl
  | missing a here => exact apart.goes _ (by rw [here]; rfl) fun _ _ handling => by cases handling
  | connect a place reply here =>
    have goes := apart.goes (.connecting a (place.advance a.server false reply c.conn).2)
      (by rw [here]; rfl) fun _ _ handling => by cases handling
    exact ⟨goes.all,goes.own,goes.alone⟩
  | left a here => exact apart.goes _ (by rw [here]; rfl) fun _ _ handling => by cases handling
  | unavailable a here =>
    refine apart.answers a _ (by rw [here]; rfl) fun _ status _ => a.asked.noInstance_ne status
  | fetched a here inside =>
    refine apart.goes _ (by rw [here]; rfl) ?_
    rintro _ _ ⟨⟩
    have given : a ∈ given := by
      rw [← apart.all]
      unfold Thread.all
      rw [here]
      simp [Place.arrival]
    rw [← ids a given]
    unfold Child.threadId
    rw [kept.threaded,kept.threadLimit]
  | page a n slot here asked =>
    refine apart.answers a _ (by rw [here]; rfl) fun request _ same => ?_
    rw [asked] at same
    cases same
  | answered a n slot request status world here asked stands ran =>
    obtain rfl := apart.own a n here
    refine ⟨?_,(fun _ _ handling => by cases handling),fun slot' stands' => ?_⟩
    · rw [← apart.all,t.all_finish]
      unfold Thread.all
      rw [here]
      rfl
    · have inside : n < c.instances.length := (List.getElem?_eq_some_iff.mp stands).1
      rw [List.getElem?_set,if_pos rfl,if_pos inside] at stands'
      cases stands'
      obtain ⟨first,found,_,config⟩ := kept.slot stands
      rw [config,settled first found] at ran
      unfold Thread.finish
      rw [served_append]
      simp only [served,asked]
      exact .next _ _ _ _ _ (apart.alone slot stands) ran
  | crashed why => exact ⟨apart.all,apart.own,apart.alone⟩

theorem Moved.others {j : Nat} (moved : Moved c t c' t') (own : ∀ a n, t.place = .handling a n → n = i)
    (other : i ≠ j) : c'.instances[j]? = c.instances[j]? := by
  cases moved with
  | answered a n slot request status world here =>
    obtain rfl := own a n here
    exact List.getElem?_set_ne other
  | idle | misconfigured | take | found | missing | connect | left | unavailable | fetched | page | crashed => rfl

end

theorem apart_outlined (start : Child) (settings : ServerConfig) (coming : Nat → List Arrival)
    (settled : ∀ (n : Nat) (slot : Slot), start.instances[n]? = some slot → slot.serverConfig = settings)
    (ids : ∀ i, ∀ a ∈ coming i, start.threadId a = i) :
    Outlined Child.Step (Child.Keeps start) fun i c t =>
      t.place.Holds start c ∧ t.Apart start settings (coming i) i c where
  keeps := by
    rintro i c t c' t' kept ⟨holds,apart⟩ step
    obtain ⟨kept',_,holds'⟩ := step.moved.keeps kept holds
    exact ⟨kept',holds',step.moved.apart kept (settled i) (ids i) apart⟩
  spares := by
    rintro i j c t c' t' u other kept ⟨holds,apart⟩ ⟨holds',apart'⟩ step
    obtain ⟨kept',grows,_⟩ := step.moved.keeps kept holds
    refine ⟨holds'.grows grows kept'.latest,apart'.all,apart'.own,?_⟩
    rw [step.moved.others apart.own other]
    exact apart'.alone

/-- Where the connections that a thread is given have ids that lead to its number, as those of the
threads of a server have: however the threads interleave and whatever NDB answers, no two of them are at
one instance, each goes through its requests in order, and the state of its instance and the statuses
that it has answered with are those of its requests served alone, so that what holds in every state
that requests lead an instance to holds of it. -/
theorem threads_apart (server : Server) (starting : Starting) (coming : Nat → List Arrival)
    (ids : ∀ i, ∀ a ∈ coming i, (childInit server starting).threadId a = i)
    (s : Interleaving.State Nat Child Thread)
    (reached : Reaches Child.Step ⟨childInit server starting,fun i => .start (coming i)⟩ s) :
    (∀ i j a b n, (s.own i).place = .handling a n → (s.own j).place = .handling b n → i = j) ∧
      ∀ i, (s.own i).done.map Prod.fst ++ (s.own i).place.arrival ++ (s.own i).coming = coming i ∧
        ∀ slot, s.shared.instances[i]? = some slot →
          Alone server.config (served (s.own i).done) slot.world ∧
          Query.Reachable server.config slot.world := by
  have settled : ∀ (n : Nat) (slot : Slot), (childInit server starting).instances[n]? = some slot →
      slot.serverConfig = server.config := fun n slot stands =>
    (childInit_instance server starting n slot stands).1
  have first : ∀ (i : Nat) (slot : Slot), (childInit server starting).instances[i]? = some slot →
      slot.world = .init := by
    intro i slot stands
    unfold childInit at stands
    rw [List.getElem?_map] at stands
    obtain ⟨_,_,rfl⟩ := Option.map_eq_some_iff.mp stands
    rfl
  obtain ⟨_,each⟩ := (apart_outlined _ server.config coming settled ids).reaches reached
    ⟨childInit_keeps server starting,fun i => ⟨trivial,by
      refine ⟨rfl,(fun _ _ handling => by cases handling),fun slot stands => ?_⟩
      rw [first i slot stands]
      exact .none⟩⟩
  refine ⟨fun i j a b n mine yours => ?_,fun i => ⟨(each i).2.all,fun slot stands => ?_⟩⟩
  · exact ((each i).2.own a n mine).symm.trans ((each j).2.own b n yours)
  · have alone := (each i).2.alone slot stands
    exact ⟨alone,_,alone.reachable⟩

def queries : Nat → List Arrival
  | 0 => [⟨64,plainServer,.request (.query (Query.storing Query.items)
      (Query.asking false (text "id=7")) Query.itemsDir)⟩]
  | 1 => [⟨65,plainServer,.request (.query (Query.storing Query.items)
      (Query.asking false (text "id=8")) Query.itemsDir)⟩]
  | _ => []

def queried : Interleaving.State Nat Child Thread :=
  ⟨childInit plainServer quickStart,fun i => .start (queries i)⟩

def answered : Interleaving.State Nat Child Thread := [1,1,0,1,0,1,0].foldl turn queried

theorem answered_reached : Reaches Child.Step queried answered :=
  ((((((Relation.ReflTransGen.single (turn_step queried 1 rfl)).tail (turn_step _ 1 rfl)).tail
    (turn_step _ 0 rfl)).tail (turn_step _ 1 rfl)).tail (turn_step _ 0 rfl)).tail
    (turn_step _ 1 rfl)).tail (turn_step _ 0 rfl)

/-- Two threads of a server that has 64 at most. -/
theorem threads_apart_answered :
    ((served (answered.own 1).done).map Prod.snd = [204] ∧
      (answered.own 0).place.arrival = queries 0) ∧
    (∀ i j a b n, (answered.own i).place = .handling a n →
        (answered.own j).place = .handling b n → i = j) ∧
      ∀ i, (answered.own i).done.map Prod.fst ++ (answered.own i).place.arrival ++
          (answered.own i).coming = queries i ∧
        ∀ slot, answered.shared.instances[i]? = some slot →
          Alone plainServer.config (served (answered.own i).done) slot.world ∧
          Query.Reachable plainServer.config slot.world := by
  refine ⟨⟨by decide +kernel,rfl⟩,threads_apart plainServer quickStart queries ?_ _ answered_reached⟩
  intro i a given
  rcases i with _ | _ | _
  · obtain rfl := List.mem_singleton.mp given
    rfl
  · obtain rfl := List.mem_singleton.mp given
    rfl
  · cases given

end ModNdb.Process
