import ModNdb.Format.Compile

/-! The per-directory configuration (mod_ndb_config.h). Ids and serial numbers of columns
are `short`s that count from 0; -1 is `none`. -/
namespace ModNdb.Config

inductive AccessPlan | noPlan | useIndex | primaryKey | uniqueIndexAccess | scan | orderedIndexScan
  deriving DecidableEq

/-- The values of the enumeration, which code compares and uses as a bitmap. -/
def AccessPlan.value : AccessPlan → Nat
  | .noPlan => 0
  | .useIndex => 1
  | .primaryKey => 2
  | .uniqueIndexAccess => 3
  | .scan => 4
  | .orderedIndexScan => 5

/-- `config::key_col`, with what it inherits from `base_expr`. -/
structure KeyCol where
  name : Text
  baseColName : Option Text
  relOp : Nat
  impliedPlan : AccessPlan
  indexId : Option Nat
  serialNo : Nat
  idxMapBucket : Nat
  nextInKeySerial : Option Nat
  nextInKey : Option Nat
  inPk : Bool
  isFilter : Bool
  inOrdIdx : Bool
  inHashIdx : Bool
  deriving DecidableEq

/-- What `bzero` leaves of a column: every id in it is 0, not -1. -/
def KeyCol.zero : KeyCol :=
  ⟨[],none,0,.noPlan,some 0,0,0,some 0,some 0,false,false,false,false⟩

/-- `NSQL::Expr`, where it is a constant of an index. -/
structure Constant where
  baseColName : Option Text
  relOp : Nat
  impliedPlan : AccessPlan
  value : Text
  deriving DecidableEq

/-- `config::index`; the list of constants starts at the one given last. -/
structure Index where
  name : Text
  nColumns : Nat
  firstColSerial : Option Nat
  firstCol : Option Nat
  type : UInt8
  sorted : Bool
  descending : Bool
  constants : List Constant
  deriving DecidableEq

/-- `dir->index_scan`: the ordered index of an unbounded scan, if it has a name. -/
structure IndexScan where
  name : Option Text
  sorted : Bool
  descending : Bool
  deriving DecidableEq

/-- `config::dir`. The array behind `pathinfo` holds the column ids and then the serial
numbers. -/
structure Dir where
  database : Option Text
  table : Option Text
  pathinfo : List Nat
  pathinfoSerials : List Nat
  fmt : Option Format.OutputFormat
  defaultKey : Option Nat
  pathinfoAlways : Bool
  hasFilters : Bool
  tableScan : Bool
  useEtags : Bool
  allowDelete : Bool
  selectStar : Bool
  indexScan : IndexScan
  visible : List Text
  updatable : List Text
  aliases : List Text
  indexes : List Index
  keyColumns : List KeyCol

/-- `init_dir`, given the format registered as JSON. -/
def Dir.init (json : Option Format.OutputFormat) : Dir where
  database := none
  table := none
  pathinfo := []
  pathinfoSerials := []
  fmt := json
  defaultKey := none
  pathinfoAlways := false
  hasFilters := false
  tableScan := false
  useEtags := true
  allowDelete := false
  selectStar := false
  indexScan := ⟨none,false,false⟩
  visible := []
  updatable := []
  aliases := []
  indexes := []
  keyColumns := []

end ModNdb.Config
