import ModNdb.Lib.Grammar
import ModNdb.NSql.Parser

/-! The grammar of NSQL.atg: which tokens spell which query. -/
namespace ModNdb.NSql.Grammar
open Config (Condition IndexValue Lookup Query QueryPlan RelOp TableSpec)
open Phrase (empty list never optional)

def token (kind : Kind) : Phrase Token Token := .one (·.kind = kind)

def word (k : Keyword) : Phrase Token Token := token (.word k)

def mark (m : Mark) : Phrase Token Token := token (.mark m)

/-- `Name` -/
def name : Phrase Token Text := (token .name).map Token.copy

/-- `IndexValue` -/
def indexValue : Phrase Token IndexValue :=
  ((mark .dollar).next (name.map .param)).or <| (name.map .param).or <|
    ((token .qstring).map fun t => .const t.copy).or ((token .number).map fun t => .const t.copy)

/-- `ValueList` -/
def valueList : Phrase Token (List IndexValue) := list (mark .comma) indexValue

/-- The index that `UniqueIndexSpec` begins with; the primary key has no name. -/
def uniqueIndex : Phrase Token (Option Text) :=
  (((word .primary).next (word .key)).map fun _ => none).or
    (((word .unique).next ((word .index).next name)).map some)

def lookup (index : Option Text) (values : List IndexValue) : Lookup :=
  match index with
  | none => .primaryKey values
  | some name => .uniqueIndex name values

/-- `UniqueIndexSpec` -/
def uniqueIndexSpec : Phrase Token Lookup :=
  (uniqueIndex.seq ((mark .eq).next valueList)).map fun a => lookup a.1 a.2

/-- `OneRowWhereClause` -/
def oneRowWhereClause : Phrase Token Lookup := (word .where_).next uniqueIndexSpec

/-- `relop` -/
def relop : Phrase Token RelOp :=
  ((mark .eq).map fun _ => .eq).or <| ((mark .lt).map fun _ => .lt).or <|
    ((mark .le).map fun _ => .le).or <| ((mark .gt).map fun _ => .gt).or ((mark .ge).map fun _ => .ge)

/-- `IndexCondition` -/
def condition : Phrase Token Condition :=
  (name.seq (relop.seq indexValue)).map fun a => ⟨a.1,a.2.1,a.2.2⟩

/-- `WhereClause` -/
def whereClause : Phrase Token (List Condition) := (word .where_).next (list (word .and_) condition)

theorem whereClause_ne_nil {conditions : List Condition} {used : List Token}
    (spelled : whereClause conditions used) : conditions ≠ [] := by
  obtain ⟨_,_,_,_,_,spelled⟩ := (Phrase.next_iff _ _ _ _).mp spelled
  exact Phrase.list_ne_nil spelled

/-- The index of an `IndexScan`. -/
def scanIndex : Phrase Token (Option Text) :=
  (name.map some).or (((word .primary).map fun _ => none).or (empty.map fun _ => none))

/-- `IndexScan` -/
def indexScan : Phrase Token (Option Text × List Condition) :=
  (word .ordered).next ((word .index).next (scanIndex.seq (whereClause.or (empty.map fun _ => []))))

/-- `Order`, whether it is descending. -/
def order : Phrase Token Bool := ((word .asc).map fun _ => false).or ((word .desc).map fun _ => true)

/-- `Scan` -/
def scanPlan : Phrase Token QueryPlan :=
  (word .using_).next <|
    (((word .table).next (word .scan)).map fun _ => .tableScan).or
      ((indexScan.seq (optional ((word .order).next order))).map fun a => .indexScan a.1.1 a.1.2 a.2)

/-- `QueryPlan` -/
def queryPlan : Phrase Token QueryPlan := (oneRowWhereClause.map .lookup).or scanPlan

/-- `Column` -/
def column : Phrase Token (Text × Option Text) := name.seq (optional ((word .as_).next name))

/-- `TableSpec` -/
def tableSpec : Phrase Token TableSpec :=
  ((optional (((token .dbName).map Token.copy).before (mark .dot))).seq name).map fun a => ⟨a.1,a.2⟩

def columns : Phrase Token (Option (List (Text × Option Text))) :=
  ((mark .star).map fun _ => none).or ((list (mark .comma) column).map some)

/-- `SelectQuery` -/
def selectQuery : Phrase Token Query :=
  ((word .select).next (columns.seq ((word .from_).next (tableSpec.seq (optional queryPlan))))).map
    fun a => .select a.1 a.2.1 a.2.2

/-- `DeleteQuery` -/
def deleteQuery : Phrase Token Query :=
  ((word .delete).next ((word .from_).next (tableSpec.seq oneRowWhereClause))).map
    fun a => .delete a.1 a.2

/-- `NSQL` -/
def nsql : Phrase Token Query :=
  (selectQuery.or (deleteQuery.or (queryPlan.map .queryPlan))).before (mark .semicolon)

def First {α : Type} (phrase : Phrase Token α) (kinds : List Kind) : Prop :=
  phrase.Begins (fun _ => True) (laKind · ∈ kinds)

section
variable {α β : Type} {phrase other : Phrase Token α} {second : Phrase Token β} {kinds kinds' : List Kind}
  {behind : List Token → Prop}

theorem First.token (kind : Kind) : First (token kind) [kind] :=
  .one fun _ _ same _ => List.mem_singleton.mpr same

theorem First.map {f : α → β} (first : First phrase kinds) : First (phrase.map f) kinds :=
  Phrase.Begins.map first

theorem First.seq (first : First phrase kinds) : First (phrase.seq second) kinds :=
  Phrase.Begins.seq first fun _ _ _ _ _ => trivial

theorem First.next (first : First phrase kinds) : First (phrase.next second) kinds := first.seq.map

theorem First.before (first : First phrase kinds) : First (phrase.before second) kinds := first.seq.map

theorem First.list {separator : Phrase Token β} (first : First phrase kinds) :
    First (list separator phrase) kinds := first.seq.map

theorem First.or (first : First phrase kinds) (rest : First other kinds') :
    First (phrase.or other) (kinds ++ kinds') :=
  Phrase.Begins.or (first.mono (fun _ => id) fun _ inside => List.mem_append_left _ inside)
    (rest.mono (fun _ => id) fun _ inside => List.mem_append_right _ inside)

theorem among {kind : Kind} (absent : kind ∉ kinds) (ahead : List Token) (inside : laKind ahead ∈ kinds) :
    laKind ahead ≠ kind := fun same => absent (same ▸ inside)

theorem First.all {whole : List Token → Prop} (first : First phrase kinds)
    (good : ∀ ahead, laKind ahead ∈ kinds → whole ahead) : phrase.Begins behind whole :=
  first.mono (fun _ _ => trivial) good

theorem First.is {kind : Kind} (first : First phrase [kind]) : phrase.Begins behind (laKind · = kind) :=
  first.all fun _ => List.mem_singleton.mp

theorem First.apart {kind : Kind} (first : First phrase kinds) (absent : kind ∉ kinds) :
    phrase.Begins behind (laKind · ≠ kind) :=
  first.all (among absent)

end

theorem first_name : First name [.name] := (First.token .name).map

theorem first_lookup : First oneRowWhereClause [.word .where_] := (First.token _).next

theorem first_scanPlan : First scanPlan [.word .using_] := (First.token _).next

theorem first_queryPlan : First queryPlan [.word .where_,.word .using_] :=
  first_lookup.map.or first_scanPlan

end ModNdb.NSql.Grammar
