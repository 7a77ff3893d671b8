import ModNdb.MySQL.Value

/-! The NDB API as Query and ExecuteAll use it. Transactions and operations are named by
the order in which they were made; what NDB answers is part of the input of a run. -/
namespace ModNdb.Ndb
open MySQL (Block DictColumn)

structure Table where
  columns : List DictColumn
  primaryKeys : List Text
  deriving DecidableEq

/-- `getColumn(name)` -/
def Table.column (t : Table) (name : Text) : Option DictColumn :=
  t.columns.find? fun col => col.name == name

inductive IndexType | uniqueHashIndex | orderedIndex | other
  deriving DecidableEq

structure Index where
  type : IndexType
  columns : List DictColumn
  deriving DecidableEq

inductive Classification
  | noError | noDataFound | constraintViolation | applicationError | schemaError | misc
  deriving DecidableEq

/-- `NdbError`; `temporary` is the status `TemporaryError`. -/
structure Error where
  temporary : Bool
  classification : Classification
  code : Int
  message : Text
  deriving DecidableEq

/-- An operation defined in a transaction, by the request that defined it. -/
structure Operation where
  request : Nat
  deriving DecidableEq

structure Transaction where
  isOpen : Bool
  ops : List Operation
  deriving DecidableEq

/-- The part of an index a bound is set on: a column name or a position. -/
inductive BoundPart
  | named (name : Text)
  | at (part : Nat)
  deriving DecidableEq

/-- The bytes behind a pointer that is passed: what `val_char` points at, or the union itself. -/
inductive Passed
  | target (block : Block)
  | inside (u : Text)
  deriving DecidableEq

/-- The calls on an operation, most of which return 0 or an error. -/
inductive Call
  | readTuples
  | readTuplesSorted (descending : Bool)
  | readTuplesCommitted
  | readTuple
  | insertTuple
  | writeTuple
  | interpretedUpdateTuple
  | deleteTuple
  | equal (attr : Nat) (value : Passed)
  | setBound (part : BoundPart) (relOp : Nat) (value : Passed)
  | setValue (attr : Nat) (value : Passed)
  | setAutoInc (attr : Nat) (bytes : Nat) (value : Nat)
  | setNull (attr : Nat)
  | incValue (attr : Nat)
  | subValue (attr : Nat)
  | setBlob (name : Text) (value : Text)
  | filterNotNull (attr : Nat)
  | filterLike (relOp : Nat) (attr : Nat) (value : Text)
  | filterCmp (relOp : Nat) (attr : Nat) (value : Passed) (length : Nat)
  | getValue (attr : Nat)
  | getBlobHandle (attr : Nat)
  deriving DecidableEq

/-- What NDB answers during a request: the dictionary, whether a transaction starts and an
operation is made, which calls on it are refused after those before, the next value of an
auto-increment column, and the errors of `execute`, one for each time it is called. -/
structure Answers where
  table : Option Table
  startTransaction : Bool
  index : Text → Option Index
  operation : Bool
  refuses : List Call → Bool
  autoInc : Option Nat
  blobHandle : Text → Bool
  error : Error
  executions : List Error

end ModNdb.Ndb
