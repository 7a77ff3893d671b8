import ModNdb.Query.Given
import ModNdb.Query.Run

/-! What defining an operation may change: the slot of the request, the transaction that is
open, and the trace. Every invariant of runs is derived from this. -/
namespace ModNdb.Query
open Config (Dir)
open MySQL (Mvalue)
open Prog (Grows Moves)

/-- Events that include error pages. -/
class AllowsPages (allowed : Event → Prop) : Prop where
  page : ∀ status content, allowed (.errorPage status content)

def World.isOpen (w : World) (t : Nat) : Option Bool := w.transactions[t]?.map Ndb.Transaction.isOpen

def World.ops (w : World) (t : Nat) : List Ndb.Operation :=
  (w.transactions[t]?.map Ndb.Transaction.ops).getD []

def Adds (allowed : Event → Prop) (w w' : World) : Prop :=
  ∃ more, w'.trace = w.trace ++ more ∧ ∀ e ∈ more, allowed e

section
variable {allowed : Event → Prop}

theorem Adds.none {w w' : World} (same : w'.trace = w.trace) : Adds allowed w w' := Grows.none same

theorem Adds.one {w w' : World} {event : Event} (added : w'.trace = w.trace ++ [event])
    (among : allowed event) : Adds allowed w w' := Grows.one added among

theorem Adds.trans {u v w : World} (first : Adds allowed u v) (second : Adds allowed v w) :
    Adds allowed u w := Grows.trans first second

theorem Adds.mono {w w' : World} {others : Event → Prop} (adds : Adds allowed w w')
    (weaker : ∀ e, allowed e → others e) : Adds others w w' := Grows.mono adds weaker

end

/-- What a part of a query may do for which the events allowed are enough. -/
structure Local (allowed : Event → Prop) (d : DataRef) (w w' : World) : Prop where
  tx : w'.inst.tx = w.inst.tx
  nReadOps : w'.inst.nReadOps = w.inst.nReadOps
  aborted : w'.inst.aborted = w.inst.aborted
  useEtag : w'.inst.useEtag = w.inst.useEtag
  request : w'.request = w.request
  queued : w'.queued = w.queued
  data : ∀ k, d ≠ .slot k → w'.inst.data k = w.inst.data k
  op : ∀ k, (w'.inst.data k).op = (w.inst.data k).op ∨ (w'.inst.data k).op = some ⟨w.request⟩
  isOpen : ∀ t, w'.isOpen t = w.isOpen t
  ops : ∀ t, ∃ more, w'.ops t = w.ops t ++ more ∧ ∀ op ∈ more, w.inst.tx = some t ∧ op = ⟨w.request⟩
  trace : Adds allowed w w'

section
variable {allowed : Event → Prop}

theorem Local.refl (d : DataRef) (w : World) : Local allowed d w w where
  tx := rfl
  nReadOps := rfl
  aborted := rfl
  useEtag := rfl
  request := rfl
  queued := rfl
  data _ _ := rfl
  op _ := .inl rfl
  isOpen _ := rfl
  ops _ := ⟨[],(List.append_nil _).symm,fun _ none => absurd none List.not_mem_nil⟩
  trace := .none rfl

theorem Local.trans {d : DataRef} {u v w : World} (first : Local allowed d u v)
    (second : Local allowed d v w) : Local allowed d u w where
  tx := second.tx.trans first.tx
  nReadOps := second.nReadOps.trans first.nReadOps
  aborted := second.aborted.trans first.aborted
  useEtag := second.useEtag.trans first.useEtag
  request := second.request.trans first.request
  queued := second.queued.trans first.queued
  data k other := (second.data k other).trans (first.data k other)
  op k := by
    rcases second.op k with same | own
    · rw [same]
      exact first.op k
    · exact .inr (first.request ▸ own)
  isOpen t := (second.isOpen t).trans (first.isOpen t)
  ops t := by
    obtain ⟨more,split,own⟩ := first.ops t
    obtain ⟨more',split',own'⟩ := second.ops t
    refine ⟨more ++ more',by rw [split',split,List.append_assoc],fun op inside => ?_⟩
    rcases List.mem_append.mp inside with inside | inside
    · exact own op inside
    · rw [← first.tx,← first.request]
      exact own' op inside
  trace := first.trace.trans second.trace

instance (d : DataRef) : IsPreorder World (Local allowed d) where
  refl := Local.refl d
  trans _ _ _ := Local.trans

/-- A change of the instance that touches the flag of JSON requests, the statistics and the
slot at most. -/
theorem Local.setInst (d : DataRef) (w : World) (i : Instance) (tx : i.tx = w.inst.tx)
    (nReadOps : i.nReadOps = w.inst.nReadOps) (aborted : i.aborted = w.inst.aborted)
    (useEtag : i.useEtag = w.inst.useEtag)
    (data : ∀ k, d ≠ .slot k → i.data k = w.inst.data k)
    (op : ∀ k, (i.data k).op = (w.inst.data k).op ∨ (i.data k).op = some ⟨w.request⟩) :
    Local allowed d w {w with inst := i} where
  tx := tx
  nReadOps := nReadOps
  aborted := aborted
  useEtag := useEtag
  request := rfl
  queued := rfl
  data := data
  op := op
  isOpen _ := rfl
  ops _ := ⟨[],(List.append_nil _).symm,fun _ none => absurd none List.not_mem_nil⟩
  trace := .none rfl

theorem Local.setTrace (d : DataRef) (w : World) (calls : List Ndb.Call) (trace : List Event)
    (adds : Adds allowed w {w with trace := trace}) :
    Local allowed d w {w with calls := calls, trace := trace} where
  tx := rfl
  nReadOps := rfl
  aborted := rfl
  useEtag := rfl
  request := rfl
  queued := rfl
  data _ _ := rfl
  op _ := .inl rfl
  isOpen _ := rfl
  ops _ := ⟨[],(List.append_nil _).symm,fun _ none => absurd none List.not_mem_nil⟩
  trace := adds

theorem errorPage_moves [AllowsPages allowed] (d : DataRef) (status : Int) (error : Option Ndb.Error) (msg : Option Text) :
    Moves (Local allowed d) (errorPage status error msg) fun _ => True := by
  intro w
  refine ⟨?_,fun _ _ => trivial⟩
  unfold errorPage handleError
  cases errorText status error msg with
  | none => exact Local.refl d w
  | some content =>
    exact Local.setTrace d w w.calls _ (.one rfl (AllowsPages.page _ _))

theorem refuse_moves [AllowsPages allowed] {α : Type} {P : α → Prop} (d : DataRef) (status : Int)
    (error : Option Ndb.Error) (msg : Option Text) :
    Moves (Local allowed d) (refuse status error msg) P :=
  (errorPage_moves d status error msg).bind fun _ _ => Moves.fail _

theorem refuse_run {α : Type} {status : Int} {error : Option Ndb.Error} {msg : Option Text}
    (content : Text) (page : errorText status error msg = some content) (w : World) :
    (refuse status error msg : Querying α) w =
      (.error (.returns (-2)),{w with trace := w.trace ++ [.errorPage status content]}) := by
  unfold refuse
  refine Prog.bind_ok _ ?_
  unfold errorPage handleError
  rw [page]
  rfl

theorem refuse_bind {α β : Type} (status : Int) (error : Option Ndb.Error) (msg : Option Text)
    (f : α → Querying β) : (refuse status error msg >>= f) = refuse status error msg :=
  Prog.bind_assoc _ _ f

theorem emit_moves (d : DataRef) (event : Event) (among : allowed event) :
    Moves (Local allowed d) (emit event : Querying Unit) fun _ => True :=
  Moves.modify (fun w => Local.setTrace d w w.calls _ (.one rfl among)) trivial

theorem Local.setSlot (n : Nat) (w : World) (value : DataOperation)
    (op : value.op = (w.inst.data n).op ∨ value.op = some ⟨w.request⟩) :
    Local allowed (.slot n) w {w with inst := {w.inst with data := Function.update w.inst.data n value}} := by
  refine Local.setInst (.slot n) w {w.inst with data := _} rfl rfl rfl rfl ?_ ?_
  · intro k other
    have apart : k ≠ n := fun same => other (same ▸ rfl)
    exact Function.update_of_ne apart _ _
  · intro k
    dsimp only
    by_cases same : k = n
    · subst same
      rwa [Function.update_self]
    · left
      rw [Function.update_of_ne same]

theorem setData_local (q : Items) (f : DataOperation → DataOperation) (w : World)
    (op : ∀ data, (f data).op = data.op ∨ (f data).op = some ⟨w.request⟩) :
    Local allowed q.data w (setData q f w).2 ∧ (setData q f w).1 = .ok () := by
  unfold setData
  cases q.data with
  | localData => exact ⟨Local.refl _ w,rfl⟩
  | slot n => exact ⟨Local.setSlot n w _ (op _),rfl⟩

theorem setData_moves (q : Items) (f : DataOperation → DataOperation)
    (op : ∀ data, (f data).op = data.op) : Moves (Local allowed q.data) (setData q f) fun _ => True :=
  fun w => ⟨(setData_local q f w fun data => .inl (op data)).1,fun _ _ => trivial⟩

section
variable (setting : Setting) (dir : Dir) (q : Items)

theorem getIndex_moves (d : DataRef) (name : Text) :
    Moves (Local allowed d) (getIndex setting name) fun idx => setting.ndb.index name = some idx := by
  unfold getIndex
  cases setting.ndb.index name with
  | none => exact Moves.fail _
  | some idx => exact Moves.pure rfl

/-- What `indexOfType` leaves: an index of the dictionary that has the type. -/
def Typed (name : Text) (type : Ndb.IndexType) (kind : IndexKind) (q q' : Items) : Prop :=
  ∃ idx, setting.ndb.index name = some idx ∧ idx.type = type ∧
    q' = {q with idx := some idx, idxobj := some ⟨kind,0,0,0⟩}

theorem indexOfType_moves (d : DataRef) (name : Text) (type : Ndb.IndexType) (kind : IndexKind) :
    Moves (Local allowed d) (indexOfType setting name type kind q) (Typed setting name type kind q) := by
  apply (getIndex_moves setting d name).bind
  intro idx found
  apply Moves.ite
  · exact fun _ => Moves.fail _
  · exact fun typed => Moves.pure ⟨idx,found,not_not.mp typed,rfl⟩

/-- What `chooseIndex` leaves, for each plan. -/
inductive Chose (q : Items) : Items → Prop
  | indexScan (name : Text) (q' : Items) (plan : q.plan = .scan) (named : dir.indexScan.name = some name)
    (typed : Typed setting name .orderedIndex .ordered q q') : Chose q q'
  | tableScan (plan : q.plan = .scan) : Chose q {q with idxobj := some ⟨.tableScan,0,0,0⟩}
  | primaryKey (plan : q.plan = .primaryKey) : Chose q {q with idxobj := some ⟨.pk,0,0,0⟩}
  | unique (n : Nat) (index : Config.Index) (q' : Items) (plan : q.plan = .uniqueIndexAccess)
    (active : q.activeIndex = some n) (entry : dir.indexes[n]? = some index)
    (typed : Typed setting index.name .uniqueHashIndex .unique q q') : Chose q q'
  | ordered (n : Nat) (index : Config.Index) (q' : Items) (plan : q.plan = .orderedIndexScan)
    (active : q.activeIndex = some n) (entry : dir.indexes[n]? = some index)
    (typed : Typed setting index.name .orderedIndex .ordered q q') : Chose q q'
  | none (idx : Ndb.Index) : Chose q {q with idx := some idx}

theorem chooseIndex_moves (d : DataRef) :
    Moves (Local allowed d) (chooseIndex setting dir q) (Chose setting dir q) := by
  unfold chooseIndex
  apply Moves.ite
  · intro plan
    cases named : dir.indexScan.name with
    | none => exact Moves.pure (.tableScan plan)
    | some name =>
      exact (indexOfType_moves setting q d name _ _).mono fun q' typed => .indexScan name q' plan named typed
  intro _
  apply Moves.ite
  · exact fun plan => Moves.pure (.primaryKey plan)
  intro _
  cases active : q.activeIndex with
  | none => exact Moves.fail _
  | some n =>
    dsimp only
    cases entry : dir.indexes[n]? with
    | none => exact Moves.fail _
    | some index =>
      apply Moves.ite
      · exact fun plan => (indexOfType_moves setting q d _ _ _).mono fun q' typed =>
          .unique n index q' plan active entry typed
      intro _
      apply Moves.ite
      · exact fun plan => (indexOfType_moves setting q d _ _ _).mono fun q' typed =>
          .ordered n index q' plan active entry typed
      intro _
      apply (getIndex_moves setting d _).bind
      intro idx _
      rw [← active]
      exact Moves.pure (.none idx)

theorem call_moves (d : DataRef) (c : Ndb.Call) :
    Moves (Local allowed d) (call setting c) fun _ => True := by
  intro w
  exact ⟨Local.setTrace d w (w.calls ++ [c]) w.trace (.none rfl),fun _ _ => trivial⟩

theorem readSetup_moves (d : DataRef) :
    Moves (Local allowed d) (readSetup setting dir q) fun _ => True := by
  unfold readSetup
  apply Moves.ite
  · intro _
    cases dir.indexScan.name with
    | none => exact call_moves setting d _
    | some name => exact call_moves setting d _
  intro _
  apply Moves.ite
  · intro _
    cases q.activeIndex.bind fun n => dir.indexes[n]? with
    | none => exact Moves.fail _
    | some index => exact call_moves setting d _
  · exact fun _ => call_moves setting d _

def Items.withVals (q : Items) (setVals : List Mvalue) : Items := {q with setVals := setVals}

theorem setUpWrite_moves (d : DataRef) (isInsert : Bool) :
    Moves (Local allowed d) (setUpWrite setting dir q isInsert)
      fun result => ∃ setVals, result.2 = q.withVals setVals :=
  (call_moves setting d _).bind fun _ _ => Moves.pure ⟨_,rfl⟩

theorem opSetup_moves (d : DataRef) :
    Moves (Local allowed d) (opSetup setting dir q)
      fun result => ∃ setVals, result.2 = q.withVals setVals := by
  unfold opSetup
  cases q.opSetup with
  | read => exact (readSetup_moves setting dir q d).bind fun _ _ => Moves.pure ⟨q.setVals,rfl⟩
  | write => exact setUpWrite_moves setting dir q d false
  | insert => exact setUpWrite_moves setting dir q d true
  | delete => exact (call_moves setting d _).bind fun _ _ => Moves.pure ⟨q.setVals,rfl⟩

theorem mvalIsUsable_moves (d : DataRef) (mval : Mvalue) :
    Moves (Local allowed d) (mvalIsUsable mval) fun _ => True := by
  unfold mvalIsUsable
  apply Moves.ite
  · exact fun _ => Moves.pure trivial
  · intro _
    cases mval.useValue with
    | errBadUserValue | errBadColumn | errBadDataType => exact Moves.pure trivial
    | _ => exact Moves.fail _

theorem getColumn_moves (d : DataRef) (baseColName : Option Text) (relOp : Nat) :
    Moves (Local allowed d) (getColumn q baseColName relOp) fun _ => True := by
  unfold getColumn
  cases q.idxobj with
  | none => exact Moves.fail _
  | some obj =>
    dsimp only
    cases obj.kind with
    | pk =>
      dsimp only
      cases (q.tab.primaryKeys[obj.keyPart]?).bind q.tab.column with
      | none => exact Moves.fail _
      | some col => exact Moves.pure trivial
    | unique => exact Moves.pure trivial
    | ordered =>
      dsimp only
      split
      · exact Moves.fail _
      · exact Moves.pure trivial
      · exact Moves.pure trivial
    | tableScan => exact Moves.fail _

@[simp] theorem countPart_data : (countPart q).data = q.data := rfl

@[simp] theorem nextKeyPart_data : (nextKeyPart q).2.data = q.data := by
  unfold nextKeyPart
  cases q.idxobj with
  | none => rfl
  | some obj =>
    dsimp only
    split <;> rfl

theorem handPart_moves (d : DataRef) (n : Option Nat) (value : Option Text) (usable : Bool)
    (c : Ndb.Call) (parts : ∀ k, n = some k → allowed (.keyPart k value c)) : Moves (Local allowed d) (handPart setting n value usable c) fun _ => True := by
  apply Moves.ite
  · intro _
    have noted : Moves (Local allowed d) (n.forM fun n => emit (.keyPart n value c) : Querying Unit)
        fun _ => True := by
      cases n with
      | none => exact Moves.pure trivial
      | some n => exact emit_moves d _ (parts n rfl)
    exact noted.bind fun _ _ => call_moves setting d c
  · exact fun _ => Moves.pure trivial

theorem setPart_moves [AllowsPages allowed] (d : DataRef) (n : Option Nat) (baseColName : Option Text)
    (relOp : Nat) (value : Option Text) (mval : Mvalue)
    (parts : ∀ k, n = some k → ∀ c, allowed (.keyPart k value c)) :
    Moves (Local allowed d) (setPart setting n baseColName relOp value mval q)
      fun result => result.2.data = q.data := by
  apply (getColumn_moves q d baseColName relOp).bind
  rintro ⟨col,make⟩ _
  apply (mvalIsUsable_moves d _).bind
  intro usable _
  apply (handPart_moves setting d n value usable _ fun k same => parts k same _).bind
  intro refused _
  apply Moves.ite
  · exact fun _ => (errorPage_moves d _ _ _).bind fun _ _ => Moves.fail _
  · exact fun _ => Moves.pure rfl

theorem setKeyParts_moves [AllowsPages allowed] (d : DataRef)
    (parts : ∀ n value c, allowed (.keyPart n value c)) (used : Nat) (col : Option Nat) (mval : Mvalue) :
    Moves (Local allowed d) (setKeyParts setting dir used col mval q)
      fun result => result.2.data = q.data := by
  induction used generalizing col mval q with
  | zero => exact Moves.pure rfl
  | succ used ih =>
    cases col with
    | none => exact Moves.pure rfl
    | some col =>
      unfold setKeyParts
      cases dir.keyColumns[col]? with
      | none => exact Moves.fail _
      | some keycol =>
        apply (setPart_moves setting q d _ _ _ _ mval fun k _ => parts k _).bind
        rintro ⟨mval,q'⟩ same
        replace same : q'.data = q.data := same
        have next : (nextKeyPart q').2.data = q.data := by rw [nextKeyPart_data,same]
        apply Moves.ite
        · intro _
          rw [← next]
          exact ih _ _ _
        · exact fun _ => Moves.pure next

theorem setConstants_moves [AllowsPages allowed] (d : DataRef) (constants : List Config.Constant)
    (mval : Mvalue) :
    Moves (Local allowed d) (setConstants setting constants mval q)
      fun result => result.2.data = q.data := by
  induction constants generalizing mval q with
  | nil => exact Moves.pure rfl
  | cons constant constants ih =>
    apply (setPart_moves setting q d _ _ _ _ mval fun _ none => by cases none).bind
    rintro ⟨mval,q'⟩ same
    replace same : q'.data = q.data := same
    rw [← same]
    exact ih _ _

theorem setIndexParts_moves [AllowsPages allowed] (d : DataRef)
    (parts : ∀ n value c, allowed (.keyPart n value c)) (mval : Mvalue) :
    Moves (Local allowed d) (setIndexParts setting dir mval q)
      fun result => result.2.data = q.data := by
  unfold setIndexParts
  cases if q.plan = .scan then none else q.activeIndex with
  | none => exact Moves.pure rfl
  | some n =>
    dsimp only
    cases dir.indexes[n]? with
    | none => exact Moves.fail _
    | some index =>
      apply (setKeyParts_moves setting dir q d parts _ _ mval).bind
      rintro ⟨mval,q'⟩ same
      replace same : q'.data = q.data := same
      rw [← same]
      exact setConstants_moves setting q' d _ _

theorem setFilters_moves (d : DataRef) (allows : ∀ n value c, allowed (.filter n value c))
    (filters : List Nat) (mval : Mvalue) :
    Moves (Local allowed d) (setFilters setting dir q filters mval) fun _ => True := by
  have handed (n : Nat) (c : Ndb.Call) : Moves (Local allowed d) (filterCmp setting q n c) fun _ => True :=
    (emit_moves d _ (allows n _ c)).bind fun _ _ => (call_moves setting d c).bind fun _ _ => Moves.pure trivial
  induction filters generalizing mval with
  | nil => exact Moves.pure trivial
  | cons n filters ih =>
    have first : Moves (Local allowed d) (setFilter setting dir q mval n) fun _ => True := by
      unfold setFilter
      cases dir.keyColumns[n]? with
      | none => exact Moves.fail _
      | some keycol =>
        dsimp only
        cases keycol.baseColName.bind q.tab.column with
        | none => exact Moves.fail _
        | some col =>
          apply Moves.ite
          · intro _
            have notNull : Moves (Local allowed d) (filterNotNull setting keycol col) fun _ => True :=
              Moves.ite (fun _ => call_moves setting d _) fun _ => Moves.pure trivial
            exact notNull.bind fun _ _ => (handed n _).bind fun _ _ => Moves.pure trivial
          · exact fun _ => (handed n _).bind fun _ _ => Moves.pure trivial
    exact first.bind fun mval _ => ih mval

theorem readColumns_moves (cols : List (Option MySQL.DictColumn)) :
    Moves (Local allowed q.data) (readColumns setting q cols) fun _ => True := by
  induction cols with
  | nil => exact Moves.pure trivial
  | cons col cols ih =>
    cases col with
    | none => exact Moves.fail _
    | some col =>
      have asked : Moves (Local allowed q.data) (newResult setting col) fun _ => True := by
        apply Moves.ite
        · exact fun _ => Moves.ite (fun _ => call_moves setting q.data _) fun _ => Moves.fail _
        · exact fun _ => call_moves setting q.data _
      apply asked.bind
      intro _ _
      apply (setData_moves q _ ?_).bind
      · exact fun _ _ => ih
      · exact fun _ => rfl

theorem writeColumn_moves (d : DataRef) (mval : Mvalue) (col : MySQL.DictColumn) :
    Moves (Local allowed d) (writeColumn setting mval col) fun _ => True := by
  apply (mvalIsUsable_moves d mval).bind
  intro usable _
  apply Moves.ite
  · intro _
    cases mval.useValue with
    | useAutoinc =>
      cases setting.ndb.autoInc with
      | none => exact Moves.pure trivial
      | some next => exact call_moves setting d _
    | useInterpreted =>
      cases mval.interpreted with
      | notInterpreted => exact Moves.fail _
      | isIncrement => exact call_moves setting d _
      | isDecrement => exact call_moves setting d _
    | useBlob => exact Moves.ite (fun _ => call_moves setting d _) fun _ => Moves.fail _
    | _ => exact call_moves setting d _
  · exact fun _ => Moves.pure trivial

theorem writeColumns_moves [AllowsPages allowed] (d : DataRef) (mvals : List Mvalue) (eqr : Int) :
    Moves (Local allowed d) (writeColumns setting mvals eqr) fun _ => True := by
  induction mvals generalizing eqr with
  | nil => exact Moves.pure trivial
  | cons mval mvals ih =>
    unfold writeColumns
    cases mval.column with
    | none => exact ih eqr
    | some col =>
      apply (writeColumn_moves setting d mval col).bind
      intro failed _
      apply Moves.ite
      · exact fun _ => errorPage_moves d _ _ _
      · exact fun _ => ih 0

theorem opAction_moves [AllowsPages allowed] : Moves (Local allowed q.data) (opAction setting dir q) fun _ => True := by
  unfold opAction
  cases q.opAction with
  | read => exact (readColumns_moves setting q _).bind fun _ _ => Moves.pure trivial
  | write => exact writeColumns_moves setting q.data _ _
  | delete => exact Moves.pure trivial

theorem Local.define (d : DataRef) (w : World) (t : Nat) (tx : w.inst.tx = some t) :
    Local allowed d w (w.addOperation t) where
  tx := rfl
  nReadOps := rfl
  aborted := rfl
  useEtag := rfl
  request := rfl
  queued := rfl
  data _ _ := rfl
  op _ := .inl rfl
  isOpen k := by
    unfold World.isOpen World.addOperation
    rw [List.getElem?_modify]
    cases w.transactions[k]? with
    | none => rfl
    | some old => by_cases same : t = k <;> simp [same]
  ops k := by
    unfold World.ops World.addOperation
    rw [List.getElem?_modify]
    cases w.transactions[k]? with
    | none => exact ⟨[],rfl,fun _ none => absurd none List.not_mem_nil⟩
    | some old =>
      by_cases same : t = k
      · subst same
        exact ⟨[⟨w.request⟩],by simp,fun op inside => ⟨tx,List.mem_singleton.mp inside⟩⟩
      · exact ⟨[],by simp [same],fun _ none => absurd none List.not_mem_nil⟩
  trace := .none rfl

theorem getNdbOperation_moves :
    Moves (Local allowed q.data) (getNdbOperation setting q) fun q' => ∃ obj, q.idxobj = some obj ∧
      q' = {q with idxobj := some {obj with nParts := numberOfParts q obj.kind}} := by
  intro w
  unfold getNdbOperation
  rw [Prog.bind_ok _ (Prog.get_run w)]
  cases made : q.idxobj with
  | none => exact Moves.fail _ w
  | some obj =>
    cases tx : w.inst.tx with
    | none => exact Moves.fail _ w
    | some t =>
      dsimp only
      split
      · rw [Prog.bind_ok _ (Prog.modify_run _ w)]
        have stored : Local allowed q.data (w.addOperation t) _ ∧ _ :=
          setData_local q (storeOperation obj.kind ⟨w.request⟩) (w.addOperation t) fun data => by
            cases obj.kind <;> exact .inr rfl
        rcases ran : setData q (storeOperation obj.kind ⟨w.request⟩) (w.addOperation t)
          with ⟨result,next⟩
        rw [ran] at stored
        obtain ⟨moved,rfl⟩ := stored
        rw [Prog.bind_ok _ ran]
        have defined : Local allowed q.data w _ := Local.define q.data w t tx
        exact ⟨defined.trans moved,fun _ same => by cases same; exact ⟨obj,rfl,rfl⟩⟩
      · exact Moves.fail _ w

def Ready (q' : Items) : Prop :=
  ∃ q₁ obj setVals, Chose setting dir q q₁ ∧ q₁.idxobj = some obj ∧
    q' = ({q₁ with idxobj := some {obj with nParts := numberOfParts q₁ obj.kind}} : Items).withVals setVals

theorem Chose.data {setting : Setting} {dir : Dir} {q q' : Items} (chose : Chose setting dir q q') :
    q'.data = q.data := by
  cases chose with
  | indexScan _ _ _ _ typed | unique _ _ _ _ _ _ typed | ordered _ _ _ _ _ _ typed =>
    obtain ⟨_,_,_,rfl⟩ := typed
    rfl
  | tableScan | primaryKey | none => rfl

def useOperation (source : QuerySource) (mval : Mvalue) (q : Items) : Querying Unit := do
  let _ ← (if 4 ≤ q.plan.value then setFilters setting dir q q.filterList mval else return mval)
  setInst fun i => {i with
    jsonrequest := i.jsonrequest ||
      (source.contentType.map fun type => type.map toLower) = some (text "application/jsonrequest")}
  let rc ← opAction setting dir q
  if rc ≠ 0 then Prog.fail (.abort1 rc)

theorem useOperation_moves [AllowsPages allowed] (source : QuerySource)
    (allows : ∀ n value c, allowed (.filter n value c)) (mval : Mvalue) :
    Moves (Local allowed q.data) (useOperation setting dir source mval q) fun _ => True := by
  have filtered : Moves (Local allowed q.data)
      (if 4 ≤ q.plan.value then setFilters setting dir q q.filterList mval else return mval)
      fun _ => True :=
    Moves.ite (fun _ => setFilters_moves setting dir q _ allows _ _) fun _ => Moves.pure trivial
  apply filtered.bind
  intro _ _
  have flagged : Moves (Local allowed q.data) (setInst fun i => {i with
      jsonrequest := i.jsonrequest ||
        (source.contentType.map fun type => type.map toLower) = some (text "application/jsonrequest")})
      fun _ => True :=
    Moves.modify (fun w => Local.setInst _ w {w.inst with jsonrequest := _} rfl rfl rfl rfl
      (fun _ _ => rfl) fun _ => .inl rfl) trivial
  apply flagged.bind
  intro _ _
  apply (opAction_moves setting dir q).bind
  intro rc _
  exact Moves.ite (fun _ => Moves.fail _) fun _ => Moves.pure trivial

def fillOperation (source : QuerySource) (setup : Bool × Items) : Querying Unit :=
  if setup.1 then Prog.fail (.abort1 404)
  else do
    let (mval,q) ← setIndexParts setting dir setting.mval setup.2
    useOperation setting dir source mval q

theorem defineOperation_eq (source : QuerySource) : defineOperation setting dir source q =
    chooseIndex setting dir q >>= fun q => getNdbOperation setting q >>= fun q =>
      opSetup setting dir q >>= fillOperation setting dir source := rfl

theorem defineOperation_moves [AllowsPages allowed]
    (parts : ∀ q', Ready setting dir q q' → q'.data = q.data →
      Moves (Local allowed q'.data) (setIndexParts setting dir setting.mval q')
        fun result => result.2.data = q'.data)
    (allows : ∀ n value c, allowed (.filter n value c)) (source : QuerySource) :
    Moves (Local allowed q.data) (defineOperation setting dir source q) fun _ => True := by
  rw [defineOperation_eq]
  apply (chooseIndex_moves setting dir q q.data).bind
  intro q₁ chose
  rw [← chose.data]
  apply (getNdbOperation_moves setting q₁).bind
  rintro q₂ ⟨obj,made,rfl⟩
  apply (opSetup_moves setting dir _ q₁.data).bind
  rintro ⟨refused,q₃⟩ ⟨setVals,same₃⟩
  replace same₃ : q₃ = _ := same₃
  apply Moves.ite
  · exact fun _ => Moves.fail _
  intro _
  have data₃ : q₃.data = q₁.data := by
    rw [same₃]
    rfl
  rw [← data₃]
  apply (parts q₃ ⟨q₁,obj,setVals,chose,made,same₃⟩ (data₃.trans chose.data)).bind
  rintro ⟨mval,q₄⟩ same₄
  replace same₄ : q₄.data = q₃.data := same₄
  rw [← same₄]
  exact useOperation_moves setting dir q₄ source allows mval

/-- The same, where every key part is allowed. -/
theorem defineOperation_local [AllowsPages allowed] (parts : ∀ n value c, allowed (.keyPart n value c))
    (allows : ∀ n value c, allowed (.filter n value c)) (source : QuerySource) :
    Moves (Local allowed q.data) (defineOperation setting dir source q) fun _ => True :=
  defineOperation_moves setting dir q
    (fun q' _ _ => setIndexParts_moves setting dir q' q'.data parts setting.mval) allows source

end

theorem findPlan_data (r : RequestRec) (dir : Dir) (q : Items) :
    (findPlan r dir q).data = q.data :=
  congrArg (fun setup => setup.2.2.2.2.2.2.1) (findPlan_setup dir q r)

section
variable (srv : ServerConfig) (setting : Setting) (r : RequestRec) (dir : Dir) (source : QuerySource)

def Event.IsPage (event : Event) : Prop := ∃ status content, event = .errorPage status content

instance : AllowsPages fun _ => True := ⟨fun _ _ => trivial⟩

instance : AllowsPages Event.IsPage := ⟨fun _ _ => ⟨_,_,rfl⟩⟩

/-- What planning does to a world: a read that finds room takes a slot, anything else
leaves the slots alone. -/
def Claims (w : World) (result : Except Stop Items × World) : Prop :=
  (Local Event.IsPage .localData w result.2 ∧ ∀ q, result.1 = .ok q → q.data = .localData) ∨
  (w.inst.nReadOps < srv.maxReadOperations ∧ (∃ tab, result.2 = w.claim dir tab) ∧
    ∀ q, result.1 = .ok q → q.data = .slot w.inst.nReadOps)

theorem claims_of_moves {x : Querying Items} (moves : Moves (Local Event.IsPage .localData) x
    fun q => q.data = .localData) (w : World) : Claims srv dir w (x w) := .inl (moves w)

theorem getForm_moves [AllowsPages allowed] (d : DataRef) : Moves (Local allowed d) (getForm source) fun _ => True := by
  unfold getForm
  cases source.formData with
  | error why => exact Moves.fail _
  | ok read => exact Moves.ite (fun _ => Moves.pure trivial) fun _ => refuse_moves d _ _ _

theorem setUpRead_claims (q : Items) (w : World) : Claims srv dir w (setUpRead srv dir q w) := by
  unfold setUpRead
  rw [Prog.bind_ok _ (Prog.get_run w)]
  by_cases room : w.inst.nReadOps < srv.maxReadOperations
  · rw [if_pos room]
    exact .inr ⟨room,⟨q.tab,rfl⟩,fun q' same => by cases same; rfl⟩
  · rw [if_neg room]
    exact claims_of_moves srv dir (refuse_moves _ _ _ _) w

theorem setUpPost_data (form : FormTable) (q : Items) : (setUpPost r dir form q).data = q.data := by
  unfold setUpPost
  dsimp only
  split <;> rfl

theorem setUpMethod_claims (q : Items) (start : q.data = .localData) (w : World) :
    Claims srv dir w (setUpMethod srv r dir source q w) := by
  unfold setUpMethod
  cases source.reqMethod with
  | get => exact setUpRead_claims srv dir q w
  | post =>
    apply claims_of_moves
    apply (getForm_moves source _).bind
    intro form _
    exact Moves.pure ((setUpPost_data r dir form q).trans start)
  | delete =>
    apply claims_of_moves
    exact Moves.ite (fun _ => Moves.pure start) fun _ => refuse_moves _ _ _ _
  | other => exact claims_of_moves srv dir (refuse_moves _ _ _ _) w

theorem getTable_moves [AllowsPages allowed] (d : DataRef) :
    Moves (Local allowed d) (getTable setting) fun tab => setting.ndb.table = some tab := by
  unfold getTable
  cases setting.ndb.table with
  | some tab => exact Moves.pure rfl
  | none =>
    have counted : Moves (Local allowed d) (setInst fun i =>
        {i with stats := {i.stats with errors := i.stats.errors + 1}}) fun _ => True :=
      Moves.modify (fun w => Local.setInst d w {w.inst with stats := _} rfl rfl rfl rfl
        (fun _ _ => rfl) fun _ => .inl rfl) trivial
    exact counted.bind fun _ _ => refuse_moves d _ _ _

theorem checkPlan_claims (x : Querying Items) (w : World) (first : Claims srv dir w (x w)) :
    Claims srv dir w ((x >>= fun q => checkPlan r dir (findPlan r dir q)) w) := by
  rcases ran : x w with ⟨outcome,next⟩
  rw [ran] at first
  cases outcome with
  | error why =>
    rw [Prog.bind_error _ ran]
    rcases first with ⟨moved,_⟩ | ⟨room,claimed,_⟩
    · exact .inl ⟨moved,fun _ none => by cases none⟩
    · exact .inr ⟨room,claimed,fun _ none => by cases none⟩
  | ok q =>
    rw [Prog.bind_ok _ ran]
    have kept : (checkPlan r dir (findPlan r dir q) next).2 = next ∧
        ∀ q', (checkPlan r dir (findPlan r dir q) next).1 = .ok q' → q'.data = q.data := by
      unfold checkPlan
      split
      · exact ⟨rfl,fun _ none => by cases none⟩
      · exact ⟨rfl,fun _ same => by cases same; exact findPlan_data r dir q⟩
    rcases first with ⟨moved,mine⟩ | ⟨room,claimed,mine⟩
    · exact .inl ⟨kept.1.symm ▸ moved,fun q' same => (kept.2 q' same).trans (mine q rfl)⟩
    · exact .inr ⟨room,kept.1.symm ▸ claimed,fun q' same => (kept.2 q' same).trans (mine q rfl)⟩

theorem planQuery_found (tab : Ndb.Table) (found : setting.ndb.table = some tab) :
    planQuery srv setting r dir source =
      setUpMethod srv r dir source (.init tab) >>= fun q => checkPlan r dir (findPlan r dir q) := by
  unfold planQuery getTable
  rw [found]
  rfl

theorem planQuery_claims (w : World) :
    Claims srv dir w (planQuery srv setting r dir source w) := by
  cases found : setting.ndb.table with
  | none =>
    apply claims_of_moves
    apply (getTable_moves setting .localData).bind
    intro tab other
    rw [found] at other
    cases other
  | some tab =>
    rw [planQuery_found srv setting r dir source tab found]
    exact checkPlan_claims srv r dir _ w (setUpMethod_claims srv r dir source (.init tab) rfl w)

theorem openTransaction_cases (w : World) :
    (w.inst.tx ≠ none ∧ openTransaction setting w = (.ok (),w)) ∨
    (w.inst.tx = none ∧ w.inst.aborted = true ∧
      openTransaction setting w = (.error (.abort2 500),w)) ∨
    (w.inst.tx = none ∧ w.inst.aborted = false ∧ setting.ndb.startTransaction = true ∧
      openTransaction setting w = (.ok (),w.start)) ∨
    (w.inst.tx = none ∧ w.inst.aborted = false ∧ setting.ndb.startTransaction = false ∧
      openTransaction setting w = (.error (.abort1 500),w)) := by
  unfold openTransaction
  rw [Prog.bind_ok _ (Prog.get_run w)]
  by_cases joined : w.inst.tx = none
  · right
    rw [if_pos joined]
    cases w.inst.aborted with
    | true => exact .inl ⟨joined,rfl,rfl⟩
    | false =>
      right
      cases setting.ndb.startTransaction with
      | true => exact .inl ⟨joined,rfl,rfl,rfl⟩
      | false => exact .inr ⟨joined,rfl,rfl,rfl⟩
  · rw [if_neg joined]
    exact .inl ⟨joined,rfl⟩

end

end

end ModNdb.Query
