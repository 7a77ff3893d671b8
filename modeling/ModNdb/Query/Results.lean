import ModNdb.Query.Batch

/-! The `MySQL::result` objects of a batch: `Plan::Read` makes them, one for each column, and
`cleanup` deletes those that it finds through the first slot. -/
namespace ModNdb.Query

/-- A slot with the array it owns. An array that was given to `delete[]` is no longer its own. -/
structure ResultSlot where
  nResultCols : Nat
  resultCols : List (Option Nat)
  released : Bool
  deriving DecidableEq

/-- The slots in use and the objects, which are numbered in the order in which they are made:
those that are live, and those deleted since the batch began. -/
structure Results where
  data : List ResultSlot
  made : Nat
  live : List Nat
  deleted : List Nat
  deriving DecidableEq

/-- `delete` of a pointer, which may be null. -/
def Results.delete (p : Option Nat) (s : Results) : Results :=
  match p with
  | none => s
  | some o => {s with live := s.live.erase o, deleted := s.deleted ++ [o]}

def Results.claim (nResultCols : Nat) (s : Results) : Results :=
  {s with data := s.data ++ [⟨nResultCols,List.replicate nResultCols none,false⟩]}

/-- `q->data->result_cols[n] = new MySQL::result(...)` -/
def Results.newResult (k n : Nat) (s : Results) : Results :=
  {s with
    data := s.data.modify k fun slot => {slot with resultCols := slot.resultCols.set n (some s.made)}
    made := s.made + 1
    live := s.live ++ [s.made]}

/-- `Plan::Read` -/
def Results.planRead (k : Nat) (s : Results) : Results :=
  (List.range ((s.data[k]?.map ResultSlot.nResultCols).getD 0)).foldl (fun s n => s.newResult k n) s

/-- `delete[] q->data->result_cols`: the array, but not what is in it. -/
def Results.release (k : Nat) (s : Results) : Results :=
  {s with data := s.data.modify k fun slot => {slot with released := true}}

section
variable (stale : Nat → Option Nat)

/-- `data->result_cols[n]` of the first slot. What is in memory that was released is not known. -/
def Results.firstCol (s : Results) (n : Nat) : Option Nat :=
  match s.data with
  | [] => none
  | slot::_ => if slot.released then stale n else (slot.resultCols[n]?).getD none

def Results.deleteCols (n : Nat) (s : Results) : Results :=
  (List.range n).foldl (fun s n => s.delete (s.firstCol stale n)) s

/-- `ndb_instance::cleanup` -/
def Results.cleanup (s : Results) : Results :=
  {s.deleteCols stale ((s.data.head?.map ResultSlot.nResultCols).getD 0) with data := []}

/-- A read operation; one that fails does so before `Plan::Read`, for which there is no way to
fail. -/
structure ReadOp where
  nResultCols : Nat
  completes : Bool
  deriving DecidableEq

/-- A read that leaves the transaction open. The abort path releases its array. -/
def Results.readKept (s : Results) (op : ReadOp) : Results :=
  let k := s.data.length
  let s := s.claim op.nResultCols
  if op.completes then s.planRead k else s.release k

/-- A read at the top, which comes to `cleanup` on both paths. Behind it the slot is cleared,
and there is no array to release. -/
def Results.readTop (s : Results) (op : ReadOp) : Results :=
  let k := s.data.length
  let s := s.claim op.nResultCols
  (if op.completes then s.planRead k else s).cleanup stale

/-- Reads of one transaction; the last may be at the top, or else the batch is executed. -/
structure ReadBatch where
  kept : List ReadOp
  top : Option ReadOp

def ReadBatch.reads (batch : ReadBatch) : List ReadOp := batch.kept ++ batch.top.toList

def ReadBatch.run (batch : ReadBatch) (s : Results) : Results :=
  let s := batch.kept.foldl Results.readKept s
  match batch.top with
  | none => s.cleanup stale
  | some op => s.readTop stale op

end

def Results.begin (made : Nat) (live : List Nat) : Results := ⟨[],made,live,[]⟩

/-- The objects made since `first` are those that are deleted, each of them once. -/
structure DeletedOnce (first : Nat) (s : Results) : Prop where
  once : ∀ o, first ≤ o → o < s.made → s.deleted.count o = 1
  twice : s.deleted.Nodup
  others : ∀ o ∈ s.deleted, first ≤ o ∧ o < s.made

/-- The first read keeps its array, if there is something in it. -/
def ReadBatch.FirstIntact (batch : ReadBatch) : Prop :=
  ∀ op ∈ batch.kept.head?, op.completes = true ∨ op.nResultCols = 0

/-- No read but the first has made results. -/
def ReadBatch.OthersEmpty (batch : ReadBatch) : Prop :=
  ∀ op ∈ batch.reads.tail, op.completes = false ∨ op.nResultCols = 0

def ReadOp.makes (op : ReadOp) : Nat := if op.completes then op.nResultCols else 0

def ReadOp.slot (op : ReadOp) (made : Nat) (kept : Bool) : ResultSlot where
  nResultCols := op.nResultCols
  resultCols := if op.completes then (List.range' made op.nResultCols).map some
    else List.replicate op.nResultCols none
  released := !op.completes && kept

theorem modify_last {α : Type} (before : List α) (last : α) (f : α → α) :
    (before ++ [last]).modify before.length f = before ++ [f last] := by
  induction before with
  | nil => rfl
  | cons a before ih => exact congrArg (List.cons a) ih

/-- The pointers of an array whose first `m` objects are made. -/
def filled (made m n : Nat) : List (Option Nat) :=
  (List.range' made m).map some ++ List.replicate (n - m) none

theorem filled_set (made m n : Nat) (room : m < n) :
    (filled made m n).set m (some (made + m)) = filled made (m + 1) n := by
  have length : ((List.range' made m).map some).length = m := by
    rw [List.length_map,List.length_range']
  obtain ⟨more,rfl⟩ := Nat.exists_eq_add_of_lt room
  have blanks : m + more + 1 - m = more + 1 := by omega
  have fewer : m + more + 1 - (m + 1) = more := by omega
  unfold filled
  rw [List.set_append_right _ _ (Nat.le_of_eq length),length,Nat.sub_self,blanks,fewer,
    List.replicate_succ,List.set_cons_zero,List.range'_concat,List.map_append,Nat.one_mul]
  exact List.append_cons _ _ _

/-- The loop of `Plan::Read` makes one object after the other. -/
theorem newResults_run (before : List ResultSlot) (n made : Nat) (live deleted : List Nat)
    (m : Nat) (within : m ≤ n) :
    (List.range m).foldl (fun s c => Results.newResult before.length c s)
        ⟨before ++ [⟨n,List.replicate n none,false⟩],made,live,deleted⟩ =
      ⟨before ++ [⟨n,filled made m n,false⟩],made + m,live ++ List.range' made m,deleted⟩ := by
  induction m with
  | zero => simp [filled]
  | succ m ih =>
    have stored := filled_set made m n within
    rw [List.range_succ,List.foldl_append,ih (Nat.le_of_succ_le within),List.foldl_cons,List.foldl_nil]
    unfold Results.newResult
    dsimp only
    rw [modify_last]
    dsimp only
    rw [stored,List.append_assoc,List.range'_concat,Nat.one_mul,Nat.add_assoc]

theorem filled_all (made n : Nat) : filled made n n = (List.range' made n).map some := by
  unfold filled
  rw [Nat.sub_self,List.replicate_zero,List.append_nil]

theorem planRead_run (before : List ResultSlot) (n made : Nat) (live deleted : List Nat) :
    Results.planRead before.length ⟨before ++ [⟨n,List.replicate n none,false⟩],made,live,deleted⟩ =
      ⟨before ++ [⟨n,(List.range' made n).map some,false⟩],made + n,live ++ List.range' made n,
        deleted⟩ := by
  unfold Results.planRead
  rw [List.getElem?_concat_length,← filled_all made n]
  exact newResults_run before n made live deleted n (Nat.le_refl n)

theorem readKept_run (s : Results) (op : ReadOp) : s.readKept op =
    ⟨s.data ++ [op.slot s.made true],s.made + op.makes,s.live ++ List.range' s.made op.makes,
      s.deleted⟩ := by
  unfold Results.readKept ReadOp.slot ReadOp.makes
  cases op.completes with
  | true => exact planRead_run s.data op.nResultCols s.made s.live s.deleted
  | false =>
    have released := modify_last s.data ⟨op.nResultCols,List.replicate op.nResultCols none,false⟩
      fun slot => {slot with released := true}
    refine Results.mk.injEq _ _ _ _ _ _ _ _ |>.mpr ⟨released,rfl,?_,rfl⟩
    exact (List.append_nil s.live).symm

/-- The same of a read at the top, up to `cleanup`. -/
theorem readTop_run (stale : Nat → Option Nat) (s : Results) (op : ReadOp) :
    s.readTop stale op =
      (⟨s.data ++ [op.slot s.made false],s.made + op.makes,s.live ++ List.range' s.made op.makes,
        s.deleted⟩ : Results).cleanup stale := by
  unfold Results.readTop ReadOp.slot ReadOp.makes
  cases op.completes with
  | true =>
    exact congrArg (Results.cleanup stale) (planRead_run s.data op.nResultCols s.made s.live s.deleted)
  | false =>
    refine congrArg (Results.cleanup stale) (Results.mk.injEq _ _ _ _ _ _ _ _ |>.mpr ⟨rfl,rfl,?_,rfl⟩)
    exact (List.append_nil s.live).symm

def madeBy (ops : List ReadOp) : Nat := (ops.map ReadOp.makes).sum

theorem readsKept_run (ops : List ReadOp) (s : Results) :
    (ops.foldl Results.readKept s).made = s.made + madeBy ops ∧
      (ops.foldl Results.readKept s).deleted = s.deleted ∧
      ∃ slots, (ops.foldl Results.readKept s).data = s.data ++ slots := by
  induction ops generalizing s with
  | nil => exact ⟨rfl,rfl,[],(List.append_nil _).symm⟩
  | cons op ops ih =>
    obtain ⟨made,deleted,slots,data⟩ := ih (s.readKept op)
    rw [readKept_run] at made deleted data
    rw [List.foldl_cons,readKept_run]
    refine ⟨?_,deleted,op.slot s.made true :: slots,?_⟩
    · rw [made,Nat.add_assoc]
      rfl
    · rw [data]
      exact (List.append_cons _ _ _).symm

section
variable (stale : Nat → Option Nat)

theorem delete_keeps (p : Option Nat) (s : Results) : (s.delete p).data = s.data ∧
    (s.delete p).made = s.made ∧ (s.delete p).deleted = s.deleted ++ p.toList := by
  cases p with
  | none => exact ⟨rfl,rfl,(List.append_nil _).symm⟩
  | some o => exact ⟨rfl,rfl,rfl⟩

theorem firstCol_congr {s t : Results} (data : s.data = t.data) : s.firstCol stale = t.firstCol stale := by
  funext n
  unfold Results.firstCol
  rw [data]

/-- The loop of `cleanup` deletes what it reads. -/
theorem deleteCols_run (s : Results) (n : Nat) :
    (s.deleteCols stale n).data = s.data ∧ (s.deleteCols stale n).made = s.made ∧
      (s.deleteCols stale n).deleted =
        s.deleted ++ (List.range n).filterMap (s.firstCol stale) := by
  induction n with
  | zero => exact ⟨rfl,rfl,(List.append_nil _).symm⟩
  | succ n ih =>
    obtain ⟨data,made,deleted⟩ := ih
    have next : s.deleteCols stale (n + 1) =
        (s.deleteCols stale n).delete ((s.deleteCols stale n).firstCol stale n) := by
      unfold Results.deleteCols
      rw [List.range_succ,List.foldl_append,List.foldl_cons,List.foldl_nil]
    obtain ⟨data',made',deleted'⟩ := delete_keeps (s.firstCol stale n) (s.deleteCols stale n)
    have last : [n].filterMap (s.firstCol stale) = (s.firstCol stale n).toList := by
      cases read : s.firstCol stale n with
      | none => exact List.filterMap_cons_none read
      | some o => exact List.filterMap_cons_some read
    rw [next,firstCol_congr stale data]
    refine ⟨data'.trans data,made'.trans made,?_⟩
    rw [deleted',deleted,List.range_succ,List.filterMap_append,List.append_assoc,last]

/-- What `cleanup` finds through the first slot. -/
def ResultSlot.found (slot : ResultSlot) : List Nat :=
  (List.range slot.nResultCols).filterMap fun n =>
    if slot.released then stale n else (slot.resultCols[n]?).getD none

theorem cleanup_run (slot : ResultSlot) (slots : List ResultSlot) (made : Nat) (live deleted : List Nat) :
    ((⟨slot::slots,made,live,deleted⟩ : Results).cleanup stale).made = made ∧
      ((⟨slot::slots,made,live,deleted⟩ : Results).cleanup stale).deleted =
        deleted ++ slot.found stale := by
  have loop := deleteCols_run stale ⟨slot::slots,made,live,deleted⟩ slot.nResultCols
  exact ⟨loop.2.1,loop.2.2⟩

/-- Where the array is its own, what the read has made is found. -/
theorem slot_found (op : ReadOp) (made : Nat) (kept : Bool)
    (intact : kept = true → op.completes = true ∨ op.nResultCols = 0) :
    (op.slot made kept).found stale = List.range' made op.makes := by
  unfold ResultSlot.found ReadOp.slot ReadOp.makes
  dsimp only
  cases completes : op.completes with
  | true =>
    have each : ∀ n ∈ List.range op.nResultCols,
        (((List.range' made op.nResultCols).map some)[n]?).getD none = some (made + n) := by
      intro n inside
      rw [List.getElem?_map,List.getElem?_range' (List.mem_range.mp inside),Nat.one_mul]
      rfl
    have shifted : (List.range op.nResultCols).filterMap (fun n => some (made + n)) =
        List.range' made op.nResultCols := by
      rw [List.range'_eq_map_range]
      exact congrFun (List.filterMap_eq_map (f := (made + ·))) (List.range op.nResultCols)
    exact (List.filterMap_congr each).trans shifted
  | false =>
    have unread : ∀ n ∈ List.range op.nResultCols,
        (if (!false && kept) = true then stale n
        else ((List.replicate op.nResultCols (none : Option Nat))[n]?).getD none) = none := by
      intro n inside
      have below := List.mem_range.mp inside
      cases kept with
      | true =>
        rcases intact rfl with done | empty
        · rw [completes] at done
          cases done
        · omega
      | false =>
        rw [List.getElem?_replicate]
        exact congrArg (fun p => Option.getD p none) (if_pos below)
    exact List.filterMap_eq_nil_iff.mpr unread

/-- What the objects of a batch are, and which of them are deleted at its end. -/
theorem batch_run (batch : ReadBatch) (first : ReadOp) (others : List ReadOp)
    (reads : batch.reads = first::others) (made : Nat) (live : List Nat) :
    ∃ kept, (kept = true → batch.kept.head? = some first) ∧ (kept = false → batch.kept = []) ∧
      (batch.run stale (Results.begin made live)).made = made + (first.makes + madeBy others) ∧
      (batch.run stale (Results.begin made live)).deleted = (first.slot made kept).found stale := by
  rcases batch with ⟨kept,top⟩
  cases kept with
  | nil =>
    refine ⟨false,nofun,fun _ => rfl,?_⟩
    cases top with
    | none => cases reads
    | some op =>
      obtain ⟨rfl,rfl⟩ : op = first ∧ [] = others := List.cons.inj reads
      have ran : ReadBatch.run stale ⟨[],some op⟩ (Results.begin made live) =
          (Results.begin made live).readTop stale op := rfl
      have ended := cleanup_run stale (op.slot made false) [] (made + op.makes)
        (live ++ List.range' made op.makes) []
      rw [ran,readTop_run]
      exact ended
  | cons op ops =>
    have same : op = first ∧ ops ++ top.toList = others := List.cons.inj reads
    obtain ⟨rfl,rfl⟩ := same
    refine ⟨true,fun _ => rfl,nofun,?_⟩
    obtain ⟨more,deleted,slots,data⟩ := readsKept_run ops ((Results.begin made live).readKept op)
    have total : madeBy (ops ++ top.toList) = madeBy ops + madeBy top.toList := by
      unfold madeBy
      rw [List.map_append,List.sum_append]
    rw [readKept_run] at more deleted data
    have begun : ReadBatch.run stale ⟨op::ops,top⟩ (Results.begin made live) =
        ReadBatch.run stale ⟨ops,top⟩ ((Results.begin made live).readKept op) := rfl
    rw [begun,readKept_run]
    unfold ReadBatch.run
    dsimp only
    generalize ops.foldl Results.readKept _ = s at more deleted data ⊢
    obtain ⟨data',made',live',deleted'⟩ := s
    dsimp only at more deleted data
    subst more deleted data
    cases top with
    | none =>
      have ended := cleanup_run stale (op.slot made true) slots (made + op.makes + madeBy ops) live' []
      refine ⟨ended.1.trans ?_,ended.2⟩
      rw [total]
      exact Nat.add_assoc _ _ _
    | some last =>
      have ended := cleanup_run stale (op.slot made true)
        (slots ++ [last.slot (made + op.makes + madeBy ops) false])
        (made + op.makes + madeBy ops + last.makes)
        (live' ++ List.range' (made + op.makes + madeBy ops) last.makes) []
      dsimp only
      rw [readTop_run]
      refine ⟨ended.1.trans ?_,ended.2⟩
      rw [total]
      unfold madeBy
      rw [Option.toList_some,List.map_singleton,List.sum_singleton,Nat.add_assoc,Nat.add_assoc]

theorem madeBy_zero (ops : List ReadOp) : madeBy ops = 0 ↔ ∀ op ∈ ops, op.makes = 0 := by
  unfold madeBy
  rw [List.sum_eq_zero_iff]
  exact List.forall_mem_map

theorem makes_zero (op : ReadOp) : op.makes = 0 ↔ op.completes = false ∨ op.nResultCols = 0 := by
  unfold ReadOp.makes
  cases op.completes <;> simp

end

/-- What a released array reads as is deleted. -/
theorem slot_wild (op : ReadOp) (made : Nat) (kept : Bool) (o : Nat) (failed : op.completes = false)
    (cols : 0 < op.nResultCols) (isKept : kept ≠ false) :
    o ∈ (op.slot made kept).found fun _ => some o := by
  have released : (op.slot made kept).released = true := by
    unfold ReadOp.slot
    rw [failed,Bool.eq_true_of_not_eq_false isKept]
    rfl
  unfold ResultSlot.found
  exact List.mem_filterMap.mpr ⟨0,List.mem_range.mpr cols,if_pos released⟩

theorem batch_head (batch : ReadBatch) (op first : ReadOp) (others : List ReadOp)
    (head : op ∈ batch.kept.head?) (reads : batch.reads = first::others) : op = first := by
  unfold ReadBatch.reads at reads
  cases kept : batch.kept with
  | nil =>
    rw [kept] at head
    cases head
  | cons next more =>
    rw [kept] at head reads
    exact (Option.some.inj head).symm.trans (List.cons.inj reads).1

/-- At the end of a batch every result that was made is deleted, and once, whatever is in memory
that was released, exactly if the first read keeps its array and the others make no results. -/
theorem results_deleted_iff (batch : ReadBatch) (made : Nat) (live : List Nat) :
    (∀ stale, DeletedOnce made (batch.run stale (Results.begin made live))) ↔
      batch.FirstIntact ∧ batch.OthersEmpty := by
  unfold ReadBatch.FirstIntact ReadBatch.OthersEmpty
  cases reads : batch.reads with
  | nil =>
    obtain ⟨kept,top⟩ := List.append_eq_nil_iff.mp reads
    have none : batch.top = none := Option.toList_eq_nil_iff.mp top
    refine iff_of_true (fun stale => ?_) ⟨?_,nofun⟩
    · unfold ReadBatch.run
      rw [kept,none]
      exact ⟨fun o above below => absurd below (Nat.not_lt_of_le above),List.nodup_nil,nofun⟩
    · rw [kept]
      nofun
  | cons first others =>
    constructor
    · intro deletes
      have intact : ∀ op ∈ batch.kept.head?, op.completes = true ∨ op.nResultCols = 0 := by
        intro op head
        by_contra lost
        obtain ⟨failed,cols⟩ := not_or.mp lost
        obtain ⟨kept,_,unkept,total,deleted⟩ := batch_run
          (fun _ => some (made + (first.makes + madeBy others))) batch first others reads made live
        have same := batch_head batch op first others head reads
        subst same
        have one := (deletes _).others (made + (op.makes + madeBy others)) (by
          rw [deleted]
          exact slot_wild op made kept _ (Bool.eq_false_of_not_eq_true failed) (Nat.pos_of_ne_zero cols)
            fun none => by rw [unkept none] at head; cases head)
        rw [total] at one
        exact Nat.lt_irrefl _ one.2
      refine ⟨intact,fun op inside => (makes_zero op).mp ?_⟩
      obtain ⟨kept,head,_,total,deleted⟩ := batch_run (fun _ => none) batch first others reads made live
      have found := slot_found (fun _ => none) first made kept fun same => intact first (head same)
      have each := (deletes fun _ => none).once (made + first.makes) (Nat.le_add_right _ _)
      rw [deleted,found,total] at each
      by_contra more
      have positive : madeBy others ≠ 0 := fun none => more ((madeBy_zero others).mp none op inside)
      have lost : (List.range' made first.makes).count (made + first.makes) = 0 :=
        List.count_eq_zero_of_not_mem fun among =>
          Nat.lt_irrefl _ (List.mem_range'_1.mp among).2
      have counted := each (by omega)
      omega
    · rintro ⟨intact,empty⟩ stale
      obtain ⟨kept,head,_,total,deleted⟩ := batch_run stale batch first others reads made live
      have found := slot_found stale first made kept fun same => intact first (head same)
      have none : madeBy others = 0 := (madeBy_zero others).mpr fun op inside =>
        (makes_zero op).mpr (empty op inside)
      rw [none,Nat.add_zero] at total
      rw [found] at deleted
      refine ⟨fun o above below => ?_,?_,fun o inside => ?_⟩
      · rw [deleted]
        exact List.count_eq_one_of_mem List.nodup_range' (List.mem_range'_1.mpr ⟨above,total ▸ below⟩)
      · rw [deleted]
        exact List.nodup_range'
      · rw [deleted,List.mem_range'_1] at inside
        rwa [total]

/-- Two reads of a column: the result of the second is never deleted. -/
theorem second_result_lost : ¬∀ stale, DeletedOnce 0
    (ReadBatch.run stale ⟨[⟨1,true⟩,⟨1,true⟩],none⟩ (Results.begin 0 [])) := by
  intro deletes
  have once := (deletes fun _ => none).once 1 (Nat.zero_le _) (by decide)
  exact absurd once (by decide)

end ModNdb.Query
