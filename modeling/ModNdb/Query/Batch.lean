import ModNdb.Query.Settled

/-! The slots of the instance: reads take them one after another, and the end of a batch
clears them. -/
namespace ModNdb.Query
open Config (Dir)
open Prog (Moves Keeps)

structure Slots (srv : ServerConfig) (w : World) : Prop where
  room : w.inst.nReadOps ≤ srv.maxReadOperations
  unused : ∀ k, w.inst.nReadOps ≤ k → w.inst.data k = .zero
  apart : (w.queued.map Prod.snd).Nodup
  taken : ∀ read ∈ w.queued, read.2 < w.inst.nReadOps

structure Cleared (w : World) : Prop where
  nReadOps : w.inst.nReadOps = 0
  aborted : w.inst.aborted = false
  useEtag : w.inst.useEtag = false
  jsonrequest : w.inst.jsonrequest = false
  data : ∀ k, w.inst.data k = .zero
  queued : w.queued = []

section
variable {srv : ServerConfig} {w w' : World}

theorem Slots.congr (slots : Slots srv w) (nReadOps : w'.inst.nReadOps = w.inst.nReadOps)
    (data : w'.inst.data = w.inst.data) (queued : w'.queued = w.queued) : Slots srv w' where
  room := nReadOps ▸ slots.room
  unused k above := by
    rw [data]
    exact slots.unused k (nReadOps ▸ above)
  apart := queued ▸ slots.apart
  taken read inside := by
    rw [nReadOps]
    exact slots.taken read (queued ▸ inside)

/-- A query writes to its own slot only, and that is in use. -/
theorem Slots.moved (slots : Slots srv w) {allowed : Event → Prop} (d : DataRef)
    (used : ∀ n, d = .slot n → n < w.inst.nReadOps) (moved : Local allowed d w w') :
    Slots srv w' where
  room := moved.nReadOps ▸ slots.room
  unused k above := by
    rw [moved.nReadOps] at above
    rw [moved.data k fun same => absurd (used k same) (Nat.not_lt.mpr above)]
    exact slots.unused k above
  apart := moved.queued ▸ slots.apart
  taken read inside := by
    rw [moved.nReadOps]
    exact slots.taken read (moved.queued ▸ inside)

theorem Slots.claim (slots : Slots srv w) (free : w.inst.nReadOps < srv.maxReadOperations)
    (dir : Dir) (tab : Ndb.Table) : Slots srv (w.claim dir tab) where
  room := free
  unused k above := by
    have apart : k ≠ w.inst.nReadOps := fun same => absurd (same ▸ above) (Nat.not_succ_le_self _)
    have kept : (w.claim dir tab).inst.data k = w.inst.data k := Function.update_of_ne apart _ _
    rw [kept]
    exact slots.unused k (Nat.le_of_succ_le above)
  apart := by
    have split : (w.claim dir tab).queued.map Prod.snd =
        w.queued.map Prod.snd ++ [w.inst.nReadOps] := List.map_append
    rw [split,List.nodup_append]
    refine ⟨slots.apart,List.nodup_singleton _,?_⟩
    intro slot before last new same
    obtain ⟨read,inside,rfl⟩ := List.mem_map.mp before
    rw [List.mem_singleton.mp new] at same
    exact absurd (slots.taken read inside) (Nat.not_lt.mpr same.ge)
  taken read inside := by
    rcases List.mem_append.mp inside with inside | new
    · exact Nat.lt_succ_of_lt (slots.taken read inside)
    · rw [List.mem_singleton.mp new]
      exact Nat.lt_succ_self _

/-- `cleanup` clears as many slots as were taken, which are all that hold something. -/
theorem Slots.cleanup (slots : Slots srv w) :
    Cleared {w with inst := w.inst.cleanup, queued := []} where
  nReadOps := rfl
  aborted := rfl
  useEtag := rfl
  jsonrequest := rfl
  data k := by
    unfold Instance.cleanup
    dsimp only
    split
    · rfl
    · exact slots.unused k (Nat.not_lt.mp ‹_›)
  queued := rfl

theorem Cleared.slots (cleared : Cleared w) : Slots srv w where
  room := cleared.nReadOps ▸ Nat.zero_le _
  unused k _ := cleared.data k
  apart := by
    rw [cleared.queued]
    exact List.nodup_nil
  taken read inside := by
    rw [cleared.queued] at inside
    cases inside

theorem planQuery_slots (setting : Setting) (r : RequestRec) (dir : Dir) (source : QuerySource)
    (slots : Slots srv w) :
    Slots srv (planQuery srv setting r dir source w).2 ∧
    ∀ q, (planQuery srv setting r dir source w).1 = .ok q →
      ∀ n, q.data = .slot n → n < (planQuery srv setting r dir source w).2.inst.nReadOps := by
  rcases planQuery_claims srv setting r dir source w with ⟨moved,mine⟩ | ⟨room,⟨tab,claimed⟩,mine⟩
  · refine ⟨slots.moved .localData (fun _ none => by cases none) moved,fun q same n slot => ?_⟩
    rw [mine q same] at slot
    cases slot
  · rw [claimed]
    refine ⟨slots.claim room dir tab,fun q same n slot => ?_⟩
    rw [mine q same] at slot
    cases slot
    exact Nat.lt_succ_self _

theorem openTransaction_inst (setting : Setting) (w : World) :
    (openTransaction setting w).2 = w ∨ (openTransaction setting w).2 = w.start := by
  rcases openTransaction_cases setting w with ⟨_,ran⟩ | ⟨_,_,ran⟩ | ⟨_,_,_,ran⟩ | ⟨_,_,_,ran⟩ <;>
    rw [ran]
  · exact .inl rfl
  · exact .inl rfl
  · exact .inr rfl
  · exact .inl rfl

theorem queryBody_slots (setting : Setting) (r : RequestRec) (dir : Dir) (source : QuerySource) :
    Keeps (Slots srv) (queryBody srv setting r dir source) := by
  intro w slots
  have planned := planQuery_slots setting r dir source slots
  unfold queryBody
  rcases ran : planQuery srv setting r dir source w with ⟨outcome,middle⟩
  rw [ran] at planned
  cases outcome with
  | error why =>
    rw [Prog.bind_error _ ran]
    exact planned.1
  | ok q =>
    rw [Prog.bind_ok _ ran]
    obtain ⟨kept,used⟩ := planned
    have opened : Slots srv (openTransaction setting middle).2 ∧
        ∀ n, q.data = .slot n → n < (openTransaction setting middle).2.inst.nReadOps := by
      rcases openTransaction_inst setting middle with same | same
      · rw [same]
        exact ⟨kept,used q rfl⟩
      · rw [same]
        exact ⟨kept.congr rfl rfl rfl,used q rfl⟩
    rcases ran' : openTransaction setting middle with ⟨outcome,next⟩
    rw [ran'] at opened
    cases outcome with
    | error why =>
      rw [Prog.bind_error _ ran']
      exact opened.1
    | ok u =>
      rw [Prog.bind_ok _ ran']
      have moved : Local (fun _ => True) q.data next _ :=
        (defineOperation_local setting dir q (fun _ _ _ => trivial) (fun _ _ _ => trivial) source next).1
      exact opened.1.moved q.data opened.2 moved

end

theorem Slots.settled {srv : ServerConfig} {w w' : World} (slots : Slots srv w)
    (settled : Settled w w') : Slots srv w' :=
  slots.congr settled.nReadOps settled.data settled.queued

section
variable (srv : ServerConfig) (ndb : Ndb.Answers) (rendering : Rendering)

/-- `ExecuteAll` returns with everything cleared. -/
theorem executeAll_slots (r : RequestRec) (w : World) (slots : Slots srv w) :
    Slots srv (executeAll srv ndb rendering r w).2 ∧
    ∀ status, (executeAll srv ndb rendering r w).1 = .ok status →
      Cleared (executeAll srv ndb rendering r w).2 := by
  unfold executeAll
  have settled := slots.settled (executeOpen_executes srv ndb rendering r w).1.settled
  rcases ran : executeOpen srv ndb rendering r w with ⟨outcome,next⟩
  rw [ran] at settled
  cases outcome with
  | error why =>
    rw [Prog.bind_error _ ran]
    exact ⟨settled,fun _ none => by cases none⟩
  | ok status =>
    rw [Prog.bind_ok _ ran]
    exact ⟨settled.cleanup.slots,fun _ _ => settled.cleanup⟩

end

section
variable (srv : ServerConfig) (setting : Setting) (r : RequestRec) (dir : Dir) (source : QuerySource)

/-- A query that ends by one of its early returns, before there is an operation to give up. -/
def ReturnsEarly (w : World) : Prop :=
  ∃ status, (queryBody srv setting r dir source w).1 = .error (.returns status)

theorem abort_slots (status : Int) (w : World) (slots : Slots srv w) :
    Slots srv (abort source status w).2 ∧
    (source.keepTxOpen = false → Cleared (abort source status w).2) := by
  unfold abort
  rw [Prog.bind_ok _ (Prog.modify_run _ w)]
  have given : Slots srv {w with inst := {w.inst with tx := none}} := slots.congr rfl rfl rfl
  cases source.keepTxOpen with
  | true => exact ⟨given.congr rfl rfl rfl,fun none => by cases none⟩
  | false => exact ⟨given.cleanup.slots,fun _ => given.cleanup⟩

theorem query_slots (w : World) (slots : Slots srv w) :
    Slots srv (query srv setting r dir source w).2 ∧
    (source.keepTxOpen = false → ¬ReturnsEarly srv setting r dir source w →
      ∀ status, (query srv setting r dir source w).1 = .ok status →
        Cleared (query srv setting r dir source w).2) := by
  have keeps : Keeps (Slots srv) (queryBody srv setting r dir source) :=
    queryBody_slots setting r dir source
  have kept := keeps w slots
  unfold query ReturnsEarly
  rcases ran : queryBody srv setting r dir source w with ⟨outcome,next⟩
  rw [ran] at kept
  replace kept : Slots srv next := kept
  cases outcome with
  | ok u =>
    dsimp only
    cases source.keepTxOpen with
    | true => exact ⟨kept,fun none => by cases none⟩
    | false =>
      have executed := executeAll_slots srv setting.ndb setting.rendering r next kept
      exact ⟨executed.1,fun _ _ => executed.2⟩
  | error stop =>
    cases stop with
    | crash why => exact ⟨kept,fun _ _ _ none => by cases none⟩
    | returns status => exact ⟨kept,fun _ late => absurd ⟨status,rfl⟩ late⟩
    | abort1 status =>
      dsimp only
      have closed := kept.settled (closeTx_executes next).1.settled
      rcases ran' : closeTx next with ⟨outcome,last⟩
      rw [ran'] at closed
      cases outcome with
      | error why =>
        rw [Prog.bind_error _ ran']
        exact ⟨closed,fun _ _ _ none => by cases none⟩
      | ok u =>
        rw [Prog.bind_ok _ ran']
        have given := abort_slots srv source status last closed
        exact ⟨given.1,fun top _ _ _ => given.2 top⟩
    | abort2 status =>
      have given := abort_slots srv source status next kept
      exact ⟨given.1,fun top _ _ _ => given.2 top⟩

end

/-- The requests that run `ExecuteAll` or reach the cleanup of a query from outside. -/
def Request.EndsBatch (srv : ServerConfig) (w : World) : Request → Prop
  | .execBatch _ _ => True
  | .query setting r dir => r.main = false ∧ dir.database ≠ none ∧ dir.table ≠ none ∧
      ¬ReturnsEarly srv setting r dir (httpSource r) w.next.count

theorem serve_slots (srv : ServerConfig) (request : Request) (w : World) (slots : Slots srv w) :
    Slots srv (serve srv request w).2 ∧
    (request.EndsBatch srv w → ∀ status, (serve srv request w).1 = .ok status →
      Cleared (serve srv request w).2) := by
  have counted : Slots srv w.next.count := slots.congr rfl rfl rfl
  cases request with
  | execBatch setting r =>
    have executed := executeAll_slots srv setting.ndb setting.rendering r _ counted
    exact ⟨executed.1,fun _ => executed.2⟩
  | query setting r dir =>
    unfold serve
    rw [Prog.bind_ok _ (Prog.modify_run _ w)]
    dsimp only
    unfold ndbHandler
    by_cases bare : dir.database = none ∨ dir.table = none
    · rw [if_pos bare]
      have numbered : Slots srv w.next := slots.congr rfl rfl rfl
      refine ⟨numbered.settled (handleError_records executing_records _ _ _ w.next).1.settled,?_⟩
      rintro ⟨_,database,table,_⟩
      exact absurd bare (not_or.mpr ⟨database,table⟩)
    · rw [if_neg bare,Prog.bind_ok _ (Prog.modify_run _ w.next)]
      have ran := query_slots srv setting r dir (sourceOf r) w.next.count counted
      refine ⟨ran.1,?_⟩
      rintro ⟨top,_,_,late⟩
      have http : sourceOf r = httpSource r := by rw [sourceOf,top]; rfl
      rw [http] at ran ⊢
      exact ran.2 rfl late

theorem run_slots (srv : ServerConfig) (requests : List Request) :
    Keeps (Slots srv) (run srv requests) := by
  apply Keeps.forM
  intro request _
  exact Keeps.bind (fun w slots => (serve_slots srv request w slots).1) fun _ => Keeps.pure _

theorem init_slots (srv : ServerConfig) : Slots srv World.init where
  room := Nat.zero_le _
  unused _ _ := rfl
  apart := List.nodup_nil
  taken _ none := absurd none List.not_mem_nil

/-- The slots of a batch are apart, and nothing of a batch is left for the next. -/
theorem batches_apart (srv : ServerConfig) (requests : List Request) :
    Slots srv (run srv requests World.init).2 ∧
    ∀ (request : Request) (status : Int), (run srv requests World.init).1 = .ok () →
      (serve srv request (run srv requests World.init).2).1 = .ok status →
      request.EndsBatch srv (run srv requests World.init).2 →
        Cleared (serve srv request (run srv requests World.init).2).2 := by
  have slots := run_slots srv requests World.init (init_slots srv)
  refine ⟨slots,?_⟩
  intro request status _ returned ends
  exact (serve_slots srv request _ slots).2 ends status returned

/-- A subrequest takes a slot, and executing the batch clears it. -/
theorem batches_apart_read :
    (run ⟨1,0,false⟩ [.query (serving items) (asking true (text "id=7")) itemsDir]
      World.init).2.inst.nReadOps = 1 ∧
    Cleared (serve ⟨1,0,false⟩ (.execBatch (serving items) (asking true [])) (run ⟨1,0,false⟩
      [.query (serving items) (asking true (text "id=7")) itemsDir] World.init).2).2 := by
  refine ⟨rfl,?_⟩
  exact (batches_apart ⟨1,0,false⟩ _).2 _ 0 rfl rfl trivial

end ModNdb.Query
