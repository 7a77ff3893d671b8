import ModNdb.Lib.Triple
import ModNdb.Query.Asked
import ModNdb.Query.WrittenBack

/-! The calls that define an operation: `Query` makes them stage by stage, those of a stage in
their order, and none behind a call that NDB refuses. -/
namespace ModNdb.Query
open Config (Dir)
open MySQL (DictColumn Mvalue)
open Prog (Steps Triple)

def Ignored : Ndb.Call → Bool
  | .filterNotNull _ | .filterLike _ _ _ | .filterCmp _ _ _ _ | .getValue _ | .getBlobHandle _ => true
  | _ => false

/-- No call behind those before was refused, but for calls whose result is not looked at. -/
def Unrefused (ndb : Ndb.Answers) (before calls : List Ndb.Call) : Prop :=
  ∀ first c, first ++ [c] <+: calls → before.length ≤ first.length → Ignored c = false →
    ndb.refuses (first ++ [c]) = false

section
variable {ndb : Ndb.Answers} {before calls : List Ndb.Call}

theorem Unrefused.start (ndb : Ndb.Answers) (before : List Ndb.Call) : Unrefused ndb before before := by
  intro first c begun behind
  have longer := begun.length_le
  rw [List.length_append,List.length_singleton] at longer
  exact absurd behind (by omega)

theorem Unrefused.prefix_of {calls' : List Ndb.Call} (fine : Unrefused ndb before calls)
    (begun : calls' <+: calls) : Unrefused ndb before calls' :=
  fun first c inside => fine first c (inside.trans begun)

theorem Unrefused.init (fine : Unrefused ndb before calls) : Unrefused ndb before calls.dropLast :=
  fine.prefix_of (List.dropLast_prefix calls)

theorem Unrefused.snoc (fine : Unrefused ndb before calls) {c : Ndb.Call}
    (heard : Ignored c = true ∨ ndb.refuses (calls ++ [c]) = false) :
    Unrefused ndb before (calls ++ [c]) := by
  intro first d inside behind looked
  rcases List.prefix_concat_iff.mp inside with same | inside
  · obtain ⟨rfl,last⟩ := List.append_inj' same rfl
    cases last
    exact heard.resolve_left (by rw [looked]; exact Bool.false_ne_true)
  · exact fine first d inside behind looked

theorem Unrefused.last (fine : Unrefused ndb before calls) (c : Ndb.Call) :
    Unrefused ndb before (calls ++ [c]).dropLast := by
  rw [List.dropLast_concat]
  exact fine

end

def Each {α : Type} (P : Nat → α → Prop) (l : List α) : Prop := ∀ i a, l[i]? = some a → P i a

section
variable {α : Type} {P : Nat → α → Prop}

theorem Each.nil : Each P [] := fun i a here => by cases here

theorem Each.cons {a : α} {l : List α} (first : P 0 a) (rest : Each (fun i => P (i + 1)) l) :
    Each P (a::l) := by
  intro i b here
  cases i with
  | zero =>
    cases here
    exact first
  | succ i => exact rest i b here

theorem Each.mono {Q : Nat → α → Prop} {l : List α} (each : Each P l) (weaker : ∀ i a, P i a → Q i a) :
    Each Q l := fun i a here => weaker i a (each i a here)

end

def partCall (k : Walker) (part : Nat) (baseColName : Option Text) (relOp : Nat) (value : Ndb.Passed) :
    Option Ndb.Call :=
  match k.kind with
  | .pk => ((k.tab.primaryKeys[part]?).bind k.tab.column).map fun col => .equal col.no value
  | .unique => some (.equal part value)
  | .ordered => baseColName.map fun name =>
    .setBound (if name = [] then .at part else .named name) relOp value
  | .tableScan => none

section
variable (setting : Setting) (dir : Dir)

def Sets (k : Walker) (part : Nat) (baseColName : Option Text) (relOp : Nat) (value : Option Text)
    (c : Ndb.Call) : Prop :=
  ∃ mval, partCall k part baseColName relOp (passed (MySQL.value setting.out mval
    (partColumn k.tab k.idx k.kind part baseColName) value)) = some c

def compared (mval : Mvalue) : Ndb.Passed × Nat :=
  (passed mval,if mval.useValue = .useChar then mval.colLen else 0)

def Condition (q : Items) (n : Nat) (calls : List Ndb.Call) : Prop :=
  ∃ keycol col, dir.keyColumns[n]? = some keycol ∧ keycol.baseColName.bind q.tab.column = some col ∧
    if condLike ≤ keycol.relOp then
      calls = (if keycol.relOp = condLike ∧ col.nullable = true then [.filterNotNull col.no] else []) ++
        [.filterLike keycol.relOp col.no ((q.keys n).getD [])]
    else ∃ mval value, compared (MySQL.value setting.out mval (some col) (q.keys n)) = value ∧
      calls = [.filterCmp keycol.relOp col.no value.1 value.2]

def resultCall (col : DictColumn) : Ndb.Call :=
  if col.type = .blob ∨ col.type = .text then .getBlobHandle col.no else .getValue col.no

variable (q : Items)

def Items.walk : Option (Config.Index × Walker) := walkOf q.tab setting.ndb.index dir q.planned q.keys

/-- Whether an index scan is sorted, and whether it descends. -/
def scanOrder : Option (Bool × Bool) :=
  if q.plan = .scan then dir.indexScan.name.map fun _ => (dir.indexScan.sorted,dir.indexScan.descending)
  else if q.plan = .orderedIndexScan then
    (q.activeIndex.bind fun n => dir.indexes[n]?).map fun index => (index.sorted,index.descending)
  else none

def updates : List Mvalue := List.zipWith (updateValue setting q) dir.updatable q.setVals

def conditionsOf : List Nat := if 4 ≤ q.plan.value then q.filterList else []

/-- The calls of the action; of a column that the table does not have there is none. -/
def wanted : List (Option Ndb.Call) :=
  match q.opAction with
  | .read => (if dir.selectStar then q.tab.columns.map some else dir.visible.map q.tab.column).map
    fun col => col.map resultCall
  | .write => (assignments setting (updates setting dir q)).map some
  | .delete => []

inductive Opening : Ndb.Call → Prop
  | key (setup : q.opSetup = .read) (plan : q.plan = .primaryKey ∨ q.plan = .uniqueIndexAccess) :
    Opening .readTuple
  | table (setup : q.opSetup = .read) (plan : q.plan = .scan) (unnamed : dir.indexScan.name = none) :
    Opening .readTuples
  | sorted (descending : Bool) (setup : q.opSetup = .read)
    (order : scanOrder dir q = some (true,descending)) : Opening (.readTuplesSorted descending)
  | unsorted (descending : Bool) (setup : q.opSetup = .read)
    (order : scanOrder dir q = some (false,descending)) : Opening .readTuplesCommitted
  | insert (setup : q.opSetup = .insert) : Opening .insertTuple
  | write (setup : q.opSetup = .write)
    (plain : ∀ mval ∈ updates setting dir q, mval.useValue ≠ .useInterpreted) : Opening .writeTuple
  | update (setup : q.opSetup = .write)
    (interpreted : ∃ mval ∈ updates setting dir q, mval.useValue = .useInterpreted) :
    Opening .interpretedUpdateTuple
  | delete (setup : q.opSetup = .delete) : Opening .deleteTuple

/-- What a method has `Query` do. -/
inductive Does (source : QuerySource) : Prop
  | get (method : source.reqMethod = .get) (setup : q.opSetup = .read) (action : q.opAction = .read)
  | post (method : source.reqMethod = .post) (setup : q.opSetup = .write ∨ q.opSetup = .insert)
    (action : q.opAction = .write)
  | delete (method : source.reqMethod = .delete) (allowed : dir.allowDelete = true)
    (setup : q.opSetup = .delete) (action : q.opAction = .delete)

/-- A walk has set `parts` parts, and no more are to be set. -/
def WalkDone (parts : Nat) : Prop :=
  ∀ record k, q.walk setting dir = some (record,k) →
    q.keyColumnsUsed.toNat ≤ parts ∨ chainAt dir parts record.firstCol = none ∨ k.nParts ≤ parts

def ConstantsDone (count : Nat) : Prop :=
  ∀ record k, q.walk setting dir = some (record,k) → count = record.constants.length

def KeyPart (i : Nat) (c : Ndb.Call) : Prop :=
  ∃ record k col keycol, q.walk setting dir = some (record,k) ∧
    chainAt dir i record.firstCol = some col ∧ dir.keyColumns[col]? = some keycol ∧
    Sets setting k i keycol.baseColName keycol.relOp (q.keys col) c

def ConstantPart (parts i : Nat) (c : Ndb.Call) : Prop :=
  ∃ record k constant, q.walk setting dir = some (record,k) ∧ record.constants[i]? = some constant ∧
    Sets setting k parts constant.baseColName constant.relOp (some constant.value) c

/-- The calls that define an operation, as far as `Query` comes: no stage begins before the one
before it is done. -/
structure Script where
  opening : Ndb.Call
  keys : List Ndb.Call
  constants : List Ndb.Call
  conditions : List (List Ndb.Call)
  actions : List Ndb.Call
  opens : Opening setting dir q opening
  keyed : Each (KeyPart setting dir q) keys
  constant : Each (ConstantPart setting dir q keys.length) constants
  filtered : List.Forall₂ (Condition setting dir q) ((conditionsOf q).take conditions.length) conditions
  acts : actions.map some <+: wanted setting dir q
  keysFirst : constants ++ conditions.flatten ++ actions ≠ [] → WalkDone setting dir q keys.length
  constantsFirst : conditions.flatten ++ actions ≠ [] → ConstantsDone setting dir q constants.length
  conditionsFirst : actions ≠ [] → conditions.length = (conditionsOf q).length

namespace Script
variable {setting : Setting} {dir : Dir} {q : Items} (s : Script setting dir q)

def calls : List Ndb.Call := s.opening::(s.keys ++ s.constants ++ s.conditions.flatten ++ s.actions)

structure Whole : Prop where
  keys : WalkDone setting dir q s.keys.length
  constants : ConstantsDone setting dir q s.constants.length
  conditions : s.conditions.length = (conditionsOf q).length
  actions : s.actions.map some = wanted setting dir q

end Script

end

abbrev Calls (P : List Ndb.Call → Prop) (w : World) : Prop := P w.calls

abbrev Silent {α : Type} (x : Querying α) : Prop := Steps (Issues fun _ => False) x

theorem Silent.triple {α : Type} {x : Querying α} (silent : Silent x) (P : List Ndb.Call → Prop) :
    Triple (Calls P) x (fun _ => Calls P) (Calls P) := by
  refine Steps.triple silent fun w w' issued holds => ?_
  obtain ⟨more,split,none⟩ := issued
  cases more with
  | nil => rwa [Calls,split,List.append_nil]
  | cons c more => exact (none c List.mem_cons_self).elim

section
variable (setting : Setting) (dir : Dir) (before l : List Ndb.Call)

def Fine (calls : List Ndb.Call) : Prop := calls = l ∧ Unrefused setting.ndb before l

/-- Calls of a kind have been added, and all but the last were heard. -/
def Stopped (kind : List Ndb.Call → Prop) (calls : List Ndb.Call) : Prop :=
  ∃ more, calls = l ++ more ∧ kind more ∧ Unrefused setting.ndb before calls.dropLast

section
variable {setting : Setting} {before l : List Ndb.Call} {kind : List Ndb.Call → Prop}

theorem Fine.stopped {calls : List Ndb.Call} (fine : Fine setting before l calls) (none : kind []) :
    Stopped setting before l kind calls := by
  obtain ⟨rfl,heard⟩ := fine
  exact ⟨[],(List.append_nil _).symm,none,heard.init⟩

theorem Stopped.behind {first : List Ndb.Call} {kind' : List Ndb.Call → Prop} {calls : List Ndb.Call}
    (stopped : Stopped setting before (l ++ first) kind' calls)
    (kinds : ∀ more, kind' more → kind (first ++ more)) : Stopped setting before l kind calls := by
  obtain ⟨more,split,among,heard⟩ := stopped
  exact ⟨first ++ more,by rw [split,List.append_assoc],kinds more among,heard⟩

end

theorem call_triple (c : Ndb.Call) : Triple (Calls (Fine setting before l)) (call setting c)
    (fun refused w => w.calls = l ++ [c] ∧ Unrefused setting.ndb before l ∧
      (Ignored c = true ∨ refused = false → Fine setting before (l ++ [c]) w.calls)) fun _ => False where
  returns w refused next fine ran := by
    obtain ⟨rfl,heard⟩ := fine
    cases ran
    exact ⟨rfl,heard,fun fine => ⟨rfl,heard.snoc fine⟩⟩
  stops w why next _ ran := by cases ran

/-- What `get_column` gives makes the call of the part. -/
theorem getColumn_partCall {k : Walker} {q : Items} {obj : IndexObject} (made : q.idxobj = some obj)
    (kind : obj.kind = k.kind) (tab : q.tab = k.tab) (idx : q.idx = k.idx) (baseColName : Option Text)
    (relOp : Nat) : (∃ why, getColumn q baseColName relOp = crash why) ∨
      ∃ make, getColumn q baseColName relOp =
        pure (partColumn k.tab k.idx k.kind obj.keyPart baseColName,make) ∧
          ∀ value, partCall k obj.keyPart baseColName relOp value = some (make value) := by
  unfold getColumn partColumn partCall
  rw [made,← kind,← tab,← idx]
  dsimp only
  cases obj.kind with
  | pk =>
    dsimp only
    cases (q.tab.primaryKeys[obj.keyPart]?).bind q.tab.column with
    | none => exact .inl ⟨_,rfl⟩
    | some col => exact .inr ⟨_,rfl,fun _ => rfl⟩
  | unique => exact .inr ⟨_,rfl,fun _ => rfl⟩
  | ordered =>
    cases baseColName with
    | none => exact .inl ⟨_,rfl⟩
    | some name =>
      cases name with
      | nil => exact .inr ⟨_,rfl,fun _ => rfl⟩
      | cons c rest => exact .inr ⟨_,rfl,fun _ => rfl⟩
  | tableScan => exact .inl ⟨_,rfl⟩

structure Stands (k : Walker) (part : Nat) (q : Items) : Prop where
  obj : ∃ obj, q.idxobj = some obj ∧ obj.kind = k.kind ∧ obj.keyPart = part
  tab : q.tab = k.tab
  idx : q.idx = k.idx

theorem Walker.At.stands {k : Walker} {part : Nat} {q : Items} (here : k.At part q) : Stands k part q :=
  ⟨⟨_,here.idxobj,rfl,rfl⟩,here.tab,here.idx⟩

theorem Stands.count {k : Walker} {part : Nat} {q : Items} (stands : Stands k part q) :
    Stands k part (countPart q) := by
  obtain ⟨⟨obj,made,kind,at_part⟩,tab,idx⟩ := stands
  refine ⟨?_,tab,idx⟩
  unfold countPart
  rw [made]
  refine ⟨_,rfl,?_⟩
  dsimp only
  split <;> exact ⟨kind,at_part⟩

/-- A part is handed over once, or not at all. -/
theorem setPart_triple {k : Walker} {part : Nat} {q : Items} (stands : Stands k part q) (n : Option Nat)
    (baseColName : Option Text) (relOp : Nat) (value : Option Text) (mval : Mvalue) :
    Triple (Calls (Fine setting before l)) (setPart setting n baseColName relOp value mval q)
      (fun _ w => ∃ c, Sets setting k part baseColName relOp value c ∧
        Fine setting before (l ++ [c]) w.calls)
      (Calls (Stopped setting before l fun more => ∀ c ∈ more,
        more = [c] ∧ Sets setting k part baseColName relOp value c)) := by
  obtain ⟨⟨obj,made,kind,rfl⟩,tab,idx⟩ := stands
  have unmoved (w : World) (fine : Fine setting before l w.calls) : Stopped setting before l
      (fun more => ∀ c ∈ more, more = [c] ∧ Sets setting k obj.keyPart baseColName relOp value c)
      w.calls := fine.stopped fun _ none => absurd none List.not_mem_nil
  rcases getColumn_partCall made kind tab idx baseColName relOp with ⟨why,crashed⟩ | ⟨make,got,makes⟩
  · unfold setPart
    rw [crashed]
    exact Triple.fail _ unmoved
  rw [setPart_encoded setting n baseColName relOp value mval got]
  have sets : Sets setting k obj.keyPart baseColName relOp value (make (passed (MySQL.value setting.out
    mval (partColumn k.tab k.idx k.kind obj.keyPart baseColName) value))) := ⟨mval,makes _⟩
  generalize MySQL.value setting.out mval (partColumn k.tab k.idx k.kind obj.keyPart baseColName) value
    = encoded at sets ⊢
  generalize make (passed encoded) = c at sets ⊢
  apply Triple.bind ((Silent.triple (mvalIsUsable_issues encoded) (Fine setting before l)).mono
    (fun _ => id) (fun _ _ => id) unmoved)
  intro usable
  have one (w : World) (split : w.calls = l ++ [c]) (heard : Unrefused setting.ndb before l) :
      Stopped setting before l
        (fun more => ∀ c ∈ more, more = [c] ∧ Sets setting k obj.keyPart baseColName relOp value c)
        w.calls := by
    refine ⟨[c],split,fun d inside => ?_,by rw [split]; exact heard.last c⟩
    obtain rfl := List.mem_singleton.mp inside
    exact ⟨rfl,sets⟩
  apply Triple.bind (Q := fun refused w => Stopped setting before l (fun more => ∀ c ∈ more,
    more = [c] ∧ Sets setting k obj.keyPart baseColName relOp value c) w.calls ∧
      (refused = false → Fine setting before (l ++ [c]) w.calls))
  · apply Triple.ite
    · intro _
      have noted : Silent (n.forM fun n => emit (.keyPart n value c) : Querying Unit) := by
        cases n with
        | none => exact Steps.pure _
        | some n => exact emit_issues _
      apply Triple.bind ((Silent.triple noted (Fine setting before l)).mono
        (fun _ => id) (fun _ _ => id) unmoved)
      intro _
      exact (call_triple setting before l c).mono (fun _ => id)
        (fun _ w called => ⟨one w called.1 called.2.1,fun heard => called.2.2 (.inr heard)⟩)
        fun _ none => none.elim
    · exact fun _ => Triple.pure _ fun w fine => ⟨unmoved w fine,fun heard => by cases heard⟩
  intro refused
  cases refused with
  | true =>
    apply Triple.bind ((Silent.triple (errorPage_issues _ _ _) _).mono (fun _ known => known.1)
      (fun _ _ => id) fun _ => id)
    exact fun _ => Triple.fail _ fun _ => id
  | false => exact Triple.pure _ fun w known => ⟨c,sets,known.2 rfl⟩

section
variable {k : Walker} {first : Option Nat}

def PartsFrom (k : Walker) (first : Option Nat) (part : Nat) : List Ndb.Call → Prop :=
  Each fun i c => ∃ col keycol, chainAt dir (part + i) first = some col ∧
    dir.keyColumns[col]? = some keycol ∧
      Sets setting k (part + i) keycol.baseColName keycol.relOp (k.keys col) c

theorem PartsFrom.cons {part : Nat} {c : Ndb.Call} {calls : List Ndb.Call} {col : Nat}
    {keycol : Config.KeyCol} (column : chainAt dir part first = some col)
    (entry : dir.keyColumns[col]? = some keycol)
    (sets : Sets setting k part keycol.baseColName keycol.relOp (k.keys col) c)
    (rest : PartsFrom setting dir k first (part + 1) calls) :
    PartsFrom setting dir k first part (c::calls) :=
  Each.cons ⟨col,keycol,column,entry,sets⟩ (Each.mono rest fun i c here => by
    rwa [Nat.add_assoc,Nat.add_comm 1 i] at here)

/-- The walk hands over the parts of the chain, until it comes to the end of the budget, of the
chain or of the key. -/
theorem setKeyParts_triple {total part used : Nat} (budget : part + used = total) {q : Items}
    (here : k.At part q) (mval : Mvalue) :
    Triple (Calls (Fine setting before l)) (setKeyParts setting dir used (chainAt dir part first) mval q)
      (fun result w => ∃ keys, PartsFrom setting dir k first part keys ∧
        Fine setting before (l ++ keys) w.calls ∧ k.At (part + keys.length) result.2 ∧
          (total ≤ part + keys.length ∨ chainAt dir (part + keys.length) first = none ∨
            k.nParts ≤ part + keys.length))
      (Calls (Stopped setting before l (PartsFrom setting dir k first part))) := by
  induction used generalizing part q mval l with
  | zero =>
    exact Triple.pure _ fun w fine => ⟨[],Each.nil,by rwa [List.append_nil],here,.inl budget.ge⟩
  | succ used ih =>
    cases column : chainAt dir part first with
    | none =>
      exact Triple.pure _ fun w fine => ⟨[],Each.nil,by rwa [List.append_nil],here,.inr (.inl column)⟩
    | some col =>
      unfold setKeyParts
      cases entry : dir.keyColumns[col]? with
      | none => exact Triple.fail _ fun w fine => fine.stopped Each.nil
      | some keycol =>
        have value : q.keys col = k.keys col := congrFun here.keys col
        have next : chainAt dir (part + 1) first = keycol.nextInKey := by
          rw [chainAt_succ,column,Option.bind_some,entry,Option.bind_some]
        have one (c : Ndb.Call) (sets : Sets setting k part keycol.baseColName keycol.relOp (q.keys col) c) :
            PartsFrom setting dir k first part [c] :=
          .cons setting dir column entry (value ▸ sets) Each.nil
        apply Triple.bindRan ((setPart_triple setting before l here.stands (some col)
          keycol.baseColName keycol.relOp (q.keys col) mval).mono (fun _ => id) (fun _ _ => id) ?_)
        · rintro w ⟨mval',q'⟩ w' _ ran ⟨c,sets,fine⟩
          have counted := setPart_counts setting ran
          subst counted
          obtain ⟨there,goes⟩ := here.next
          apply Triple.ite
          · intro _
            rw [← next]
            refine (ih (l := l ++ [c]) (by omega) there mval').mono
              (fun _ same => same ▸ fine) ?_ ?_
            · rintro result u ⟨keys,parts,fine,last,done⟩
              have moved : part + 1 + keys.length = part + (c::keys).length := by
                rw [List.length_cons]
                omega
              rw [moved] at last done
              exact ⟨c::keys,.cons setting dir column entry (value ▸ sets) parts,
                by rwa [List.append_assoc] at fine,last,done⟩
            · exact fun u stopped => stopped.behind fun more parts =>
                .cons setting dir column entry (value ▸ sets) parts
          · intro ends
            refine Triple.pure _ fun u same => ?_
            subst same
            refine ⟨[c],one c sets,fine,there,.inr (.inr ?_)⟩
            by_contra small
            refine ends (goes.mpr ?_)
            have small : part + 1 < k.nParts := Nat.lt_of_not_le small
            split_ifs <;> omega
        · rintro w ⟨more,split,sets,heard⟩
          refine ⟨more,split,?_,heard⟩
          cases more with
          | nil => exact Each.nil
          | cons c rest =>
            obtain ⟨alone,sets⟩ := sets c List.mem_cons_self
            rw [alone]
            exact one c sets

end

theorem setConstants_triple {k : Walker} {part : Nat} {q : Items} (stands : Stands k part q)
    (constants : List Config.Constant) (mval : Mvalue) :
    Triple (Calls (Fine setting before l)) (setConstants setting constants mval q)
      (fun _ w => ∃ made, Each (fun i c => ∃ constant, constants[i]? = some constant ∧
        Sets setting k part constant.baseColName constant.relOp (some constant.value) c) made ∧
          made.length = constants.length ∧ Fine setting before (l ++ made) w.calls)
      (Calls (Stopped setting before l (Each fun i c => ∃ constant, constants[i]? = some constant ∧
        Sets setting k part constant.baseColName constant.relOp (some constant.value) c))) := by
  induction constants generalizing q mval l with
  | nil => exact Triple.pure _ fun w fine => ⟨[],Each.nil,rfl,by rwa [List.append_nil]⟩
  | cons constant constants ih =>
    apply Triple.bindRan ((setPart_triple setting before l stands none constant.baseColName
      constant.relOp (some constant.value) mval).mono (fun _ => id) (fun _ _ => id) ?_)
    · rintro w ⟨mval',q'⟩ w' _ ran ⟨c,sets,fine⟩
      have counted := setPart_counts setting ran
      subst counted
      refine (ih (l := l ++ [c]) stands.count mval').mono (fun _ same => same ▸ fine) ?_ ?_
      · rintro result u ⟨made,each,all,fine⟩
        exact ⟨c::made,Each.cons ⟨constant,rfl,sets⟩ each,congrArg Nat.succ all,
          by rwa [List.append_assoc] at fine⟩
      · exact fun u stopped => stopped.behind fun more each => Each.cons ⟨constant,rfl,sets⟩ each
    · rintro w ⟨more,split,sets,heard⟩
      refine ⟨more,split,?_,heard⟩
      cases more with
      | nil => exact Each.nil
      | cons c rest =>
        obtain ⟨alone,sets⟩ := sets c List.mem_cons_self
        rw [alone]
        exact Each.cons ⟨constant,rfl,sets⟩ Each.nil

end

end ModNdb.Query
