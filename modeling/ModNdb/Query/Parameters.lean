import ModNdb.MySQL.Integers
import ModNdb.Query.Courses

/-! The parameters of a request as NDB reads them: which are passed as values of their own texts, and
which leave in `mval` what was there before. -/
namespace ModNdb.Query
open Config (Dir KeyCol)
open MySQL (ColType DictColumn Mvalue Surroundings dynamicTexts encodes isBinaryCol isCharCol isDateCol
  isUnsupported)
open Prog (Moves)

/-- The columns that hold a `time_t`, or the low bytes of one. -/
def holdsTime : ColType → Bool
  | .int | .unsigned | .timestamp | .bigint | .bigunsigned => true
  | _ => false

/-- `MySQL::value` encodes the text as a value of the column. -/
def Encodable (type : ColType) (val : Text) : Prop :=
  isCharCol type = true ∨ isDateCol type = true ∨
    isBinaryCol type = false ∧ isUnsupported type = false ∧
      (cstring val ∉ dynamicTexts ∨ cstring val = text "@time" ∧ holdsTime type = true)

def storedBytes : ColType → Nat
  | .tinyint | .tinyunsigned | .year => 1
  | .smallint | .smallunsigned => 2
  | .mediumint | .mediumunsigned | .date | .time => 3
  | .int | .unsigned | .timestamp | .float => 4
  | _ => 8

def readPassed (type : ColType) : Ndb.Passed → Text
  | .target block => block.bytes
  | .inside u => u.take (storedBytes type)

def passedLength (mval : Mvalue) : Nat := if mval.useValue = .useChar then mval.colLen else 0

/-- The sizes of `time_t`, `float` and `double`. -/
structure Sized (out : Surroundings) : Prop where
  now : out.now.length = 8
  float : ∀ t, (out.atof t).length = 4
  double : ∀ t, (out.strtod t).length = 8

/-- NDB reads the same of what is left in `mval`, whatever was there before. -/
def Fixed (type : ColType) (encode : Mvalue → Mvalue) : Prop :=
  ∃ bytes length, ∀ mval,
    readPassed type (passed (encode mval)) = bytes ∧ passedLength (encode mval) = length

/-- What NDB reads for a text depends on nothing else. -/
def Determined (out : Surroundings) (col : DictColumn) (val : Text) : Prop :=
  Fixed col.type fun mval => MySQL.value out mval (some col) (some val)

section
variable {type : ColType} {encode : Mvalue → Mvalue}

theorem fixed_target {block : MySQL.Block} {length : Nat}
    (char : ∀ mval, (encode mval).useValue = .useChar) (target : ∀ mval, (encode mval).target = block)
    (sized : ∀ mval, (encode mval).colLen = length) : Fixed type encode := by
  refine ⟨block.bytes,length,fun mval => ?_⟩
  unfold passed passedLength
  rw [if_pos (char mval),if_pos (char mval),target,sized]
  exact ⟨rfl,rfl⟩

theorem fixed_inside {bytes : Text} (other : ∀ mval, (encode mval).useValue ≠ .useChar)
    (stored : ∀ mval, (encode mval).u.take (storedBytes type) = bytes) : Fixed type encode := by
  refine ⟨bytes,0,fun mval => ?_⟩
  unfold passed passedLength
  rw [if_neg (other mval),if_neg (other mval)]
  exact ⟨stored mval,rfl⟩

theorem store_take (bytes : Text) (mval : Mvalue) (k : Nat) (long : k ≤ bytes.length) :
    (mval.store bytes).u.take k = bytes.take k := by
  unfold Mvalue.store
  exact List.take_append_of_le_length long

end

section
variable {out : Surroundings} {col : DictColumn} {val : Text}

theorem charValue_fixed (val : Text) :
    Fixed col.type fun mval => MySQL.charValue out {mval with column := some col} col val := by
  unfold MySQL.charValue
  cases col.type <;> exact fixed_target (fun _ => rfl) (fun _ => rfl) fun _ => rfl

theorem dateValue_fixed (val : Text) (date : isDateCol col.type = true) :
    Fixed col.type fun mval => MySQL.dateValue {mval with column := some col} col val := by
  unfold MySQL.dateValue
  cases type : col.type with
  | time | date | datetime =>
    exact fixed_inside (fun _ => by nofun) fun mval => MySQL.storeInt_take _ _ _
  | _ =>
    rw [type] at date
    cases date

def clampedInt (low high : Int) (val : Text) : Int :=
  if MySQL.toInt32 (MySQL.strtol 0 val) < low then low
  else if high < MySQL.toInt32 (MySQL.strtol 0 val) then high
  else MySQL.toInt32 (MySQL.strtol 0 val)

theorem clamped_u (use : MySQL.MvalueUse) (bytes : Nat) (low high : Int) (val : Text) (mval : Mvalue) :
    (MySQL.clamped use bytes low high val mval).u = (mval.storeInt bytes (clampedInt low high val)).u := by
  unfold MySQL.clamped clampedInt
  dsimp only
  split_ifs <;> rfl

theorem clamped_fixed {type : ColType} {use : MySQL.MvalueUse} (other : use ≠ .useChar) (low high : Int)
    (val : Text) : Fixed type fun mval =>
      MySQL.clamped use (storedBytes type) low high val {mval with column := some col} := by
  have stored (mval : Mvalue) : (MySQL.clamped use (storedBytes type) low high val
      {mval with column := some col}).u.take (storedBytes type) =
        MySQL.leBytes (storedBytes type) (clampedInt low high val % 2^(8 * storedBytes type)).toNat := by
    rw [clamped_u]
    exact MySQL.storeInt_take _ _ _
  exact fixed_inside (fun mval => by rw [MySQL.clamped_use]; exact other) stored

theorem numericValue_fixed (sized : Sized out) (val : Text) (char : isCharCol col.type = false)
    (date : isDateCol col.type = false) (binary : isBinaryCol col.type = false)
    (supported : isUnsupported col.type = false) :
    Fixed col.type fun mval => MySQL.numericValue out {mval with column := some col} col val := by
  unfold MySQL.numericValue
  cases type : col.type with
  | int | unsigned | timestamp | bigint | bigunsigned | bit | year =>
    exact fixed_inside (fun _ => by nofun) fun mval => MySQL.storeInt_take _ _ _
  | float =>
    exact fixed_inside (fun _ => by nofun) fun mval => store_take _ _ _ (sized.float val).ge
  | double =>
    exact fixed_inside (fun _ => by nofun) fun mval => store_take _ _ _ (sized.double val).ge
  | tinyint | smallint | mediumint | tinyunsigned | smallunsigned | mediumunsigned =>
    exact clamped_fixed (by nofun) _ _ val
  | decimal | decimalunsigned =>
    exact fixed_target (fun _ => rfl) (fun _ => rfl) fun _ => rfl
  | varchar | longvarchar | char => rw [type] at char; cases char
  | time | date | datetime => rw [type] at date; cases date
  | text | blob | longvarbinary | varbinary | binary => rw [type] at binary; cases binary
  | undefined | olddecimal | olddecimalunsigned => rw [type] at supported; cases supported

/-- Behind `@time` stands the clock. -/
theorem time_fixed (sized : Sized out) (val : Text) (time : val = text "@time") :
    Fixed col.type fun mval =>
      (MySQL.dynamicValue out {mval with column := some col} col.type val).getD
        (MySQL.numericValue out {mval with column := some col} col val) := by
  subst time
  have short : storedBytes col.type ≤ out.now.length := by
    rw [sized.now]
    unfold storedBytes
    cases col.type <;> decide
  exact fixed_inside (fun _ => by nofun) fun mval => store_take _ _ _ short

theorem Encodable.determined (sized : Sized out) (encodable : Encodable col.type val) :
    Determined out col val := by
  unfold Determined MySQL.value
  dsimp only
  cases char : isCharCol col.type with
  | true =>
    simp only [if_true]
    exact charValue_fixed _
  | false =>
    cases date : isDateCol col.type with
    | true =>
      simp only [if_true,Bool.false_eq_true,if_false]
      exact dateValue_fixed _ date
    | false =>
      simp only [Bool.false_eq_true,if_false]
      rcases encodable with char' | date' | ⟨binary,supported,plain | ⟨time,_⟩⟩
      · cases char.symm.trans char'
      · cases date.symm.trans date'
      · have same (mval : Mvalue) : MySQL.dynamicValue out mval col.type (cstring val) = none :=
          (MySQL.dynamicValue_eq_none_iff out mval col.type _).mpr plain
        simp only [same,Option.getD_none]
        exact numericValue_fixed sized _ char date binary supported
      · exact time_fixed sized _ time

end

/-- What NDB reads of the value in a call, and the length that is passed with it. -/
def readCall (type : ColType) : Ndb.Call → Option (Text × Nat)
  | .equal _ value => some (readPassed type value,0)
  | .setBound _ _ value => some (readPassed type value,0)
  | .filterCmp _ _ value length => some (readPassed type value,length)
  | .filterLike _ _ value => some (value,value.length)
  | _ => none

inductive Role | part | filter
  deriving DecidableEq

/-- A parameter where a query uses it: the key column and its column in the table, the text that was
given, and the items and the world then. -/
structure Use where
  role : Role
  n : Nat
  keycol : KeyCol
  col : DictColumn
  val : Text
  q : Items
  w : World

def Use.column (use : Use) : Option DictColumn :=
  match use.role with
  | .part => use.q.idxobj.bind fun obj =>
    partColumn use.q.tab use.q.idx obj.kind obj.keyPart use.keycol.baseColName
  | .filter => use.keycol.baseColName.bind use.q.tab.column

structure Use.Placed (dir : Dir) (use : Use) : Prop where
  entry : dir.keyColumns[use.n]? = some use.keycol
  column : use.column = some use.col
  value : use.q.keys use.n = some use.val

/-- A LIKE compares with the text itself, and other conditions with what the column encodes. -/
def Use.Comparable (use : Use) : Prop :=
  use.role = .filter ∧ condLike ≤ use.keycol.relOp ∨ Encodable use.col.type use.val

/-- What is neither a dynamic value nor a value of a column that has none is noticed in a key. -/
def Use.Noticed (use : Use) : Prop :=
  use.role = .part ∧ isUnsupported use.col.type = true ∧ cstring use.val ∉ dynamicTexts

section
variable (setting : Setting) (dir : Dir)

/-- The world behind a use, where `mval` held something. -/
def Use.after (use : Use) (mval : Mvalue) : World :=
  match use.role with
  | .part => (setPart setting (some use.n) use.keycol.baseColName use.keycol.relOp (some use.val) mval
      use.q use.w).2
  | .filter => (setFilter setting dir use.q mval use.n use.w).2

def Use.reads (use : Use) (mval : Mvalue) : List (Text × Nat) :=
  ((use.after setting dir mval).calls.drop use.w.calls.length).filterMap (readCall use.col.type)

theorem errorPage_calls (status : Int) (error : Option Ndb.Error) (msg : Option Text) (w : World) :
    (errorPage status error msg w).2.calls = w.calls := by
  unfold errorPage handleError
  cases errorText status error msg <;> rfl

theorem afterPart_calls (n : Option Nat) (result : Mvalue × Items) (refused : Bool) (w : World) :
    (afterPart setting n result refused w).2.calls = w.calls := by
  cases refused with
  | false => rfl
  | true =>
    generalize page : errorPage 500 (some setting.ndb.error)
      (some (if n.isSome then text "Configuration error" else text "Configuration error.")) = told
    have kept : (told w).2.calls = w.calls := by
      rw [← page]
      exact errorPage_calls _ _ _ w
    have refused : afterPart setting n result true = told >>= fun rc => Prog.fail (.abort1 rc) := by
      rw [← page]
      rfl
    rw [refused]
    rcases ran : told w with ⟨outcome,v⟩
    rw [ran] at kept
    cases outcome with
    | ok rc =>
      rw [Prog.bind_ok _ ran]
      exact kept
    | error why =>
      rw [Prog.bind_error _ ran]
      exact kept

theorem getColumn_reads {q : Items} {obj : IndexObject} (made : q.idxobj = some obj)
    {baseColName : Option Text} {col : DictColumn}
    (column : partColumn q.tab q.idx obj.kind obj.keyPart baseColName = some col) (relOp : Nat) :
    ∃ make, getColumn q baseColName relOp = pure (some col,make) ∧
      ∀ type value, readCall type (make value) = some (readPassed type value,0) := by
  unfold partColumn at column
  unfold getColumn
  rw [made]
  dsimp only
  cases kind : obj.kind with
  | pk =>
    rw [kind] at column
    dsimp only at column ⊢
    rw [column]
    exact ⟨_,rfl,fun _ _ => rfl⟩
  | unique =>
    rw [kind] at column
    dsimp only at column ⊢
    rw [column]
    exact ⟨_,rfl,fun _ _ => rfl⟩
  | ordered =>
    rw [kind] at column
    dsimp only at column ⊢
    cases baseColName with
    | none => cases column
    | some name =>
      cases name with
      | nil =>
        replace column : (q.idx.bind fun idx => idx.columns[obj.keyPart]?) = some col := column
        dsimp only
        rw [column]
        exact ⟨_,rfl,fun _ _ => rfl⟩
      | cons c rest =>
        replace column : q.tab.column (c::rest) = some col := column
        dsimp only
        rw [column]
        exact ⟨_,rfl,fun _ _ => rfl⟩
  | tableScan =>
    rw [kind] at column
    cases column

variable {setting dir} {use : Use} {mval : Mvalue}

/-- What is left in `mval` for a use. -/
def Use.encoded (setting : Setting) (use : Use) (mval : Mvalue) : Mvalue :=
  MySQL.value setting.out mval (some use.col) (some use.val)

theorem Use.reads_added {added : List Ndb.Call}
    (calls : (use.after setting dir mval).calls = use.w.calls ++ added) :
    use.reads setting dir mval = added.filterMap (readCall use.col.type) := by
  unfold Use.reads
  rw [calls,List.drop_left]

/-- What is done about a part: its value is encoded, looked at and handed over. -/
theorem part_run (setting : Setting) (placed : use.Placed dir) (role : use.role = .part)
    (mval : Mvalue) : ∃ make : Ndb.Passed → Ndb.Call,
    (∀ type value, readCall type (make value) = some (readPassed type value,0)) ∧
      setPart setting (some use.n) use.keycol.baseColName use.keycol.relOp (some use.val) mval use.q =
        mvalIsUsable (use.encoded setting mval) >>= fun usable =>
          handPart setting (some use.n) (some use.val) usable (make (passed (use.encoded setting mval))) >>=
            afterPart setting (some use.n) (use.encoded setting mval,countPart use.q) := by
  have column := placed.column
  unfold Use.column at column
  rw [role] at column
  obtain ⟨obj,made,column⟩ := Option.bind_eq_some_iff.mp column
  obtain ⟨make,got,read⟩ := getColumn_reads made column use.keycol.relOp
  exact ⟨make,read,setPart_encoded setting (some use.n) _ _ _ mval got⟩

theorem Use.after_part (role : use.role = .part) (mval : Mvalue) : use.after setting dir mval =
    (setPart setting (some use.n) use.keycol.baseColName use.keycol.relOp (some use.val) mval
      use.q use.w).2 := by
  unfold Use.after
  rw [role]

theorem part_reads (placed : use.Placed dir) (role : use.role = .part)
    (fits : encodes use.col.type (some use.val) = true) :
    use.reads setting dir mval = [(readPassed use.col.type (passed (use.encoded setting mval)),0)] := by
  obtain ⟨make,read,run⟩ := part_run setting placed role mval
  have good : (use.encoded setting mval).useValue.isGood = true := by
    unfold Use.encoded
    rw [MySQL.value_isGood]
    exact fits
  rw [mvalIsUsable_good good] at run
  generalize passed (use.encoded setting mval) = value at run ⊢
  have handed : handPart setting (some use.n) (some use.val) true (make value) use.w =
      (.ok (setting.ndb.refuses (use.w.calls ++ [make value])),{use.w with
        calls := use.w.calls ++ [make value]
        trace := use.w.trace ++ [.keyPart use.n (some use.val) (make value)]}) := rfl
  have calls : (use.after setting dir mval).calls = use.w.calls ++ [make value] := by
    rw [Use.after_part role,run,Prog.bind_ok _ (Prog.pure_run true _),Prog.bind_ok _ handed,
      afterPart_calls]
  rw [Use.reads_added calls,List.filterMap_cons,read]
  rfl

theorem filter_reads (placed : use.Placed dir) (role : use.role = .filter) :
    use.reads setting dir mval =
      if condLike ≤ use.keycol.relOp then [(use.val,use.val.length)]
      else [(readPassed use.col.type (passed (use.encoded setting mval)),
        passedLength (use.encoded setting mval))] := by
  have column := placed.column
  unfold Use.column at column
  rw [role] at column
  replace column : use.keycol.baseColName.bind use.q.tab.column = some use.col := column
  have after : use.after setting dir mval = (setFilter setting dir use.q mval use.n use.w).2 := by
    unfold Use.after
    rw [role]
  unfold setFilter at after
  rw [placed.entry] at after
  dsimp only at after
  rw [column,placed.value] at after
  dsimp only at after
  by_cases like : condLike ≤ use.keycol.relOp
  · rw [if_pos like] at after
    rw [if_pos like]
    by_cases null : use.keycol.relOp = condLike ∧ use.col.nullable = true
    · have checked : filterNotNull setting use.keycol use.col = call setting (.filterNotNull use.col.no) :=
        if_pos null
      rw [checked] at after
      have calls : (use.after setting dir mval).calls = (use.w.calls ++ [.filterNotNull use.col.no]) ++
          [.filterLike use.keycol.relOp use.col.no use.val] := by
        rw [after]
        rfl
      rw [List.append_assoc] at calls
      exact Use.reads_added calls
    · have unchecked : filterNotNull setting use.keycol use.col = pure false := if_neg null
      rw [unchecked] at after
      have calls : (use.after setting dir mval).calls = use.w.calls ++
          [.filterLike use.keycol.relOp use.col.no use.val] := by
        rw [after]
        rfl
      exact Use.reads_added calls
  · rw [if_neg like] at after
    rw [if_neg like]
    have calls : (use.after setting dir mval).calls = use.w.calls ++ [.filterCmp use.keycol.relOp
        use.col.no (passed (use.encoded setting mval)) (passedLength (use.encoded setting mval))] := by
      rw [after]
      rfl
    exact Use.reads_added calls

end

section
variable (setting : Setting) (dir : Dir)

inductive Walks (n : Nat) (mval' : Mvalue) (q' : Items) (w' : World) :
    Nat → Option Nat → Mvalue → Items → World → Prop
  | here (used) : Walks n mval' q' w' (used + 1) (some n) mval' q' w'
  | later (used col mval q w keycol mval₁ q₁ next) (entry : dir.keyColumns[col]? = some keycol)
      (ran : setPart setting (some col) keycol.baseColName keycol.relOp (q.keys col) mval q w =
        (.ok (mval₁,q₁),next))
      (goes : (nextKeyPart q₁).1 = true)
      (walks : Walks n mval' q' w' used keycol.nextInKey mval₁ (nextKeyPart q₁).2 next) :
      Walks n mval' q' w' (used + 1) (some col) mval q w

variable {setting dir}

theorem Walks.stops {n : Nat} {mval mval' : Mvalue} {q q' : Items} {w w' : World} {used : Nat}
    {col : Option Nat} (walks : Walks setting dir n mval' q' w' used col mval q w) {keycol : KeyCol}
    (entry : dir.keyColumns[n]? = some keycol) {stop : Stop} {last : World}
    (stopped : setPart setting (some n) keycol.baseColName keycol.relOp (q'.keys n) mval' q' w' =
      (.error stop,last)) : setKeyParts setting dir used col mval q w = (.error stop,last) := by
  induction walks with
  | here used =>
    unfold setKeyParts
    rw [entry]
    exact Prog.bind_error _ stopped
  | later used col mval q w keycol' mval₁ q₁ next entry' ran goes walks ih =>
    unfold setKeyParts
    rw [entry']
    dsimp only
    rw [Prog.bind_ok _ ran]
    dsimp only
    rw [if_pos goes]
    exact ih

end

/-- A query comes to a use of a parameter, with something in `mval`. -/
inductive Comes (srv : ServerConfig) (setting : Setting) (r : RequestRec) (dir : Dir) (w : World)
    (use : Use) (mval : Mvalue) : Prop
  | part (q next i record)
      (prepared : prepare srv setting r dir (sourceOf r) w = (.ok (false,q),next))
      (scans : q.plan ≠ .scan) (active : q.activeIndex = some i) (entry : dir.indexes[i]? = some record)
      (walks : Walks setting dir use.n mval use.q use.w q.keyColumnsUsed.toNat record.firstCol
        setting.mval q next)
      (role : use.role = .part) (placed : use.Placed dir)
  | filter (q next mval₁ v before others)
      (prepared : prepare srv setting r dir (sourceOf r) w = (.ok (false,q),next))
      (ran : setIndexParts setting dir setting.mval q next = (.ok (mval₁,use.q),v))
      (scans : 4 ≤ use.q.plan.value) (listed : use.q.filterList = before ++ use.n::others)
      (set : setFilters setting dir use.q before mval₁ v = (.ok mval,use.w))
      (role : use.role = .filter) (placed : use.Placed dir)

/-- What NDB is to be passed for a parameter: a function of its text and its column. -/
def Use.given (setting : Setting) (use : Use) : Text × Nat :=
  match use.role with
  | .part => (readPassed use.col.type (passed (use.encoded setting .zero)),0)
  | .filter =>
    if condLike ≤ use.keycol.relOp then (use.val,use.val.length)
    else (readPassed use.col.type (passed (use.encoded setting .zero)),
      passedLength (use.encoded setting .zero))

/-- A parameter that can be compared is passed as its own value, whatever was in `mval`, and another
is not used: the query fails. -/
structure Use.Sound (srv : ServerConfig) (setting : Setting) (r : RequestRec) (dir : Dir) (w : World)
    (use : Use) (mval : Mvalue) : Prop where
  determined : use.Comparable → ∀ mval, use.reads setting dir mval = [use.given setting]
  refused : ¬use.Comparable → use.reads setting dir mval = [] ∧
    ∃ status, (query srv setting r dir (sourceOf r) w).1 = .ok status ∧ Failing status

section
variable {srv : ServerConfig} {setting : Setting} {r : RequestRec} {dir : Dir} {w : World} {use : Use}
  {mval : Mvalue}

/-- An operation that is set up has a transaction. -/
theorem prepare_tx {source : QuerySource} {q : Items} {refused : Bool} {next : World}
    (ran : prepare srv setting r dir source w = (.ok (refused,q),next)) : next.inst.tx ≠ none := by
  unfold prepare at ran
  obtain ⟨planned,_,_,ran⟩ := Prog.bind_inv ran
  obtain ⟨_,_,_,ran⟩ := Prog.bind_inv ran
  obtain ⟨q₁,_,_,ran⟩ := Prog.bind_inv ran
  obtain ⟨q₂,w₂,made,set⟩ := Prog.bind_inv ran
  have setup : Moves (Local (fun _ => True) q₂.data) (opSetup setting dir q₂) _ :=
    opSetup_moves setting dir q₂ q₂.data
  have tx := (setup w₂).1.tx
  rw [set] at tx
  rw [tx]
  exact getNdbOperation_tx made

/-- A query stops with a part that it stops at, after a transaction was opened. -/
theorem Comes.stops (comes : Comes srv setting r dir w use mval) (role : use.role = .part) {stop : Stop}
    {last : World} (stopped : setPart setting (some use.n) use.keycol.baseColName use.keycol.relOp
      (some use.val) mval use.q use.w = (.error stop,last)) :
    queryBody srv setting r dir (sourceOf r) w = (.error stop,last) ∧ last.inst.tx ≠ none := by
  cases comes with
  | filter _ _ _ _ _ _ _ _ _ _ _ other => cases role.symm.trans other
  | part q next i record prepared scans active entry walks _ placed =>
    rw [← placed.value] at stopped
    have walked := walks.stops placed.entry stopped
    have set : setIndexParts setting dir setting.mval q next = (.error stop,last) := by
      unfold setIndexParts
      rw [if_neg scans,active]
      dsimp only
      rw [entry]
      exact Prog.bind_error _ walked
    have moved : Moves (Local (fun _ => True) q.data) (setIndexParts setting dir setting.mval q) _ :=
      setIndexParts_moves setting dir q q.data (fun _ _ _ => trivial) setting.mval
    have tx := (moved next).1.tx
    rw [set] at tx
    refine ⟨?_,by rw [tx]; exact prepare_tx prepared⟩
    rw [queryBody_eq,Prog.bind_ok _ prepared]
    exact Prog.bind_error _ set

/-- A transaction that is given up is closed, and the query returns. -/
theorem query_gives_up {source : QuerySource} (sound : w.TxOpen) {status : Int} {last : World}
    (stopped : queryBody srv setting r dir source w = (.error (.abort1 status),last))
    (tx : last.inst.tx ≠ none) :
    (query srv setting r dir source w).1 = .ok (if status = 0 then 500 else status) := by
  have body := queryBody_txOpen srv setting r dir source sound
  rw [stopped] at body
  obtain ⟨t,tx⟩ := Option.ne_none_iff_exists'.mp tx
  unfold query
  rw [stopped]
  dsimp only
  rw [Prog.bind_ok _ (closeTx_open tx (body t tx)),abort_run]

/-- A number is read of a text that stands for nothing else. -/
theorem value_plain (out : Surroundings) (mval : Mvalue) {col : DictColumn} {val : Text}
    (char : isCharCol col.type = false) (date : isDateCol col.type = false)
    (plain : cstring val ∉ dynamicTexts) : MySQL.value out mval (some col) (some val) =
      MySQL.numericValue out {mval with column := some col} col (cstring val) := by
  unfold MySQL.value
  dsimp only
  rw [char,date,if_neg Bool.false_ne_true,if_neg Bool.false_ne_true,
    (MySQL.dynamicValue_eq_none_iff out _ _ _).mpr plain,Option.getD_none]

/-- A column without values ends the request with an error page. -/
theorem part_noticed (setting : Setting) (mval : Mvalue) (placed : use.Placed dir)
    (noticed : use.Noticed) : ∃ last,
    setPart setting (some use.n) use.keycol.baseColName use.keycol.relOp (some use.val) mval use.q use.w =
      (.error (.abort1 (-2)),last) ∧ last.calls = use.w.calls := by
  obtain ⟨role,unsupported,plain⟩ := noticed
  obtain ⟨make,_,run⟩ := part_run setting placed role mval
  have char : isCharCol use.col.type = false := by
    cases type : use.col.type <;> rw [type] at unsupported <;> first | rfl | cases unsupported
  have date : isDateCol use.col.type = false := by
    cases type : use.col.type <;> rw [type] at unsupported <;> first | rfl | cases unsupported
  have unusable : mvalIsUsable (use.encoded setting mval) = pure false := by
    unfold Use.encoded
    rw [value_plain setting.out mval char date plain]
    unfold MySQL.numericValue
    cases type : use.col.type <;> rw [type] at unsupported <;> first | rfl | cases unsupported
  rw [unusable] at run
  rw [run]
  exact ⟨_,rfl,rfl⟩

/-- Bytes end the process. -/
theorem part_asserts (placed : use.Placed dir) (role : use.role = .part)
    (binary : isBinaryCol use.col.type = true) (plain : cstring use.val ∉ dynamicTexts) :
    setPart setting (some use.n) use.keycol.baseColName use.keycol.relOp (some use.val) mval use.q use.w =
      (.error (.crash .assertion),use.w) := by
  obtain ⟨make,_,run⟩ := part_run setting placed role mval
  have char : isCharCol use.col.type = false := by
    cases type : use.col.type <;> rw [type] at binary <;> first | rfl | cases binary
  have date : isDateCol use.col.type = false := by
    cases type : use.col.type <;> rw [type] at binary <;> first | rfl | cases binary
  have crashed : mvalIsUsable (use.encoded setting mval) = crash .assertion := by
    unfold Use.encoded
    rw [value_plain setting.out mval char date plain]
    unfold MySQL.numericValue
    cases type : use.col.type <;> rw [type] at binary <;> first | rfl | cases binary
  rw [crashed] at run
  rw [run]
  rfl

/-- What a part is passed for, if it is passed. -/
theorem Use.Comparable.encodes (comparable : use.Comparable) (role : use.role = .part) :
    encodes use.col.type (some use.val) = true := by
  rcases comparable with ⟨other,_⟩ | char | date | ⟨binary,supported,plain | ⟨time,_⟩⟩
  · cases role.symm.trans other
  · simp [MySQL.encodes,char]
  · simp [MySQL.encodes,date]
  · simp [MySQL.encodes,binary,supported]
  · have dynamic : cstring use.val ∈ dynamicTexts := by
      rw [time]
      decide
    simp [MySQL.encodes,dynamic]

theorem Comes.placed (comes : Comes srv setting r dir w use mval) : use.Placed dir := by
  cases comes <;> assumption

/-- A parameter that can be compared is passed as what its text and its column make of it. -/
theorem Use.Comparable.determined (comparable : use.Comparable) (placed : use.Placed dir)
    (sized : Sized setting.out) (mval : Mvalue) :
    use.reads setting dir mval = [use.given setting] := by
  have same (encodable : Encodable use.col.type use.val) :
      readPassed use.col.type (passed (use.encoded setting mval)) =
        readPassed use.col.type (passed (use.encoded setting .zero)) ∧
      passedLength (use.encoded setting mval) = passedLength (use.encoded setting .zero) := by
    obtain ⟨bytes,length,fixed⟩ := encodable.determined sized
    exact ⟨(fixed mval).1.trans (fixed .zero).1.symm,(fixed mval).2.trans (fixed .zero).2.symm⟩
  unfold Use.given
  cases role : use.role with
  | part =>
    rw [part_reads placed role (comparable.encodes role)]
    rcases comparable with ⟨other,_⟩ | encodable
    · cases role.symm.trans other
    · rw [(same encodable).1]
  | filter =>
    rw [filter_reads placed role]
    dsimp only
    by_cases like : condLike ≤ use.keycol.relOp
    · rw [if_pos like,if_pos like]
    · rw [if_neg like,if_neg like]
      rcases comparable with ⟨_,other⟩ | encodable
      · exact absurd other like
      · rw [(same encodable).1,(same encodable).2]

end

/-- A parameter that a query comes to is passed as its own value or refused, exactly if it can be
compared, or is for a part of a key whose column has no values. -/
theorem use_sound_iff (srv : ServerConfig) (setting : Setting) (r : RequestRec) (dir : Dir) (w : World)
    (reachable : Reachable srv w) (sized : Sized setting.out) (use : Use) (mval : Mvalue)
    (comes : Comes srv setting r dir w.next.count use mval) :
    use.Sound srv setting r dir w.next.count mval ↔ use.Comparable ∨ use.Noticed := by
  have placed := comes.placed
  constructor
  · intro sound
    by_contra neither
    obtain ⟨other,unnoticed⟩ := not_or.mp neither
    obtain ⟨unread,status,returned,_⟩ := sound.refused other
    cases role : use.role with
    | filter =>
      rw [filter_reads placed role] at unread
      split_ifs at unread
    | part =>
      cases fits : encodes use.col.type (some use.val) with
      | true =>
        rw [part_reads placed role fits] at unread
        cases unread
      | false =>
        simp only [MySQL.encodes,Bool.or_eq_false_iff,Bool.not_eq_eq_eq_not,Bool.not_false,
          Bool.or_eq_true,decide_eq_false_iff_not] at fits
        obtain ⟨⟨_,plain⟩,binary | unsupported⟩ := fits
        · have stopped := (comes.stops role (part_asserts placed role binary plain)).1
          unfold query at returned
          rw [stopped] at returned
          cases returned
        · exact unnoticed ⟨role,unsupported,plain⟩
  · intro either
    refine ⟨fun comparable mval => comparable.determined placed sized mval,fun other => ?_⟩
    have noticed := either.resolve_left other
    obtain ⟨last,stopped,calls⟩ := part_noticed setting mval placed noticed
    obtain ⟨body,tx⟩ := comes.stops noticed.1 stopped
    have sound : w.next.count.TxOpen := reachable.txOpen
    refine ⟨?_,-2,query_gives_up sound body tx,.inl rfl⟩
    have kept : (use.after setting dir mval).calls = use.w.calls ++ [] := by
      rw [Use.after_part noticed.1,stopped,List.append_nil]
      exact calls
    rw [Use.reads_added kept]
    rfl

def sizedSetting : Setting :=
  {serving items with out := ⟨List.replicate 8 0,List.replicate 8 0,fun _ => 0,
    fun _ => List.replicate 4 0,fun _ => List.replicate 8 0,fun _ _ _ => []⟩}

/-- The number of an item, where a GET uses it. -/
theorem use_sound_id : ∃ q v, Use.Sound ⟨1,0,false⟩ sizedSetting (asking false (text "id=7")) itemsDir
    World.init.next.count ⟨.part,0,itemsDir.keyColumns.get ⟨0,by decide⟩,items.columns.get ⟨0,by decide⟩,
      text "7",q,v⟩ .zero := by
  have sized : Sized sizedSetting.out := ⟨rfl,fun _ => rfl,fun _ => rfl⟩
  have encodable : Encodable .int (text "7") := .inr (.inr ⟨rfl,rfl,.inl (by decide)⟩)
  have comes : ∃ q v, Comes ⟨1,0,false⟩ sizedSetting (asking false (text "id=7")) itemsDir
      World.init.next.count ⟨.part,0,itemsDir.keyColumns.get ⟨0,by decide⟩,
        items.columns.get ⟨0,by decide⟩,text "7",q,v⟩ .zero :=
    ⟨_,_,.part _ _ 0 _ rfl (by decide +kernel) rfl rfl (.here 0) rfl ⟨rfl,rfl,by decide +kernel⟩⟩
  obtain ⟨q,v,comes⟩ := comes
  exact ⟨q,v,(use_sound_iff ⟨1,0,false⟩ sizedSetting (asking false (text "id=7")) itemsDir World.init
    ⟨[],rfl⟩ sized _ .zero comes).mpr (.inl (.inr encodable))⟩

end ModNdb.Query
