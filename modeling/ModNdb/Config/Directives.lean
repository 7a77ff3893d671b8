import ModNdb.Config.Dir
import ModNdb.Lib.Prog
import ModNdb.Format.Container

/-! The configuration directives (config.cc, N-SQL/NSQL.atg): what each does to the
configuration of a directory. -/
namespace ModNdb.Config
open Format (OutputFormat lower)

/-- A directive is refused with a message, and the server does not start. -/
inductive Refusal
  | message (text : Text)
  | crash (why : Crash)

abbrev Setup (α : Type) := Prog Refusal Dir α

def refuse {α : Type} (message : Text) : Setup α := Prog.fail (.message message)

def keyCol (n : Nat) : Setup KeyCol := fun dir =>
  match dir.keyColumns[n]? with
  | some key => (.ok key,dir)
  | none => (.error (.crash .wildPointer),dir)

def setKeyCol (n : Nat) (change : KeyCol → KeyCol) : Setup Unit :=
  Prog.modify fun dir => {dir with keyColumns := dir.keyColumns.modify n change}

def index (n : Nat) : Setup Index := fun dir =>
  match dir.indexes[n]? with
  | some index => (.ok index,dir)
  | none => (.error (.crash .wildPointer),dir)

def setIndex (n : Nat) (change : Index → Index) : Setup Unit :=
  Prog.modify fun dir => {dir with indexes := dir.indexes.modify n change}

def keyPlace (name : Text) : List KeyCol → Nat × Bool
  | [] => (0,false)
  | key::keys =>
    match strcmp name key.name with
    | .lt => (0,false)
    | .eq => (0,true)
    | .gt => ((keyPlace name keys).1 + 1,(keyPlace name keys).2)

/-- The bucket at the serial number of a column is its id. -/
def mapSerial (keys : List KeyCol) (n : Nat) : List KeyCol :=
  match keys[n]? with
  | some key => keys.modify key.serialNo fun key => {key with idxMapBucket := n}
  | none => keys

/-- `idx_map_bucket` maps serial numbers to column ids. -/
def mapSerials (keys : List KeyCol) : List KeyCol := (List.range keys.length).foldl mapSerial keys

/-- The links behind a column, one level of the chain for each unit of fuel. A chain that
is longer than there are columns has no end. -/
def relinkChain : Nat → Nat → Setup Unit
  | 0, _ => Prog.fail (.crash .outOfFuel)
  | fuel + 1, thisCol => do
    match (← keyCol thisCol).nextInKeySerial with
    | none => return ()
    | some serial =>
      let nextCol := (← keyCol serial).idxMapBucket
      setKeyCol thisCol fun key => {key with nextInKey := some nextCol}
      relinkChain fuel nextCol

def relinkIndex (n : Nat) : Setup Unit := do
  match (← index n).firstColSerial with
  | none => return ()
  | some serial =>
    let thisCol := (← keyCol serial).idxMapBucket
    setIndex n fun index => {index with firstCol := some thisCol}
    let dir ← Prog.get
    relinkChain (dir.keyColumns.length + 1) thisCol

def mappedIds : List Nat → Setup (List Nat)
  | [] => return []
  | serial::serials => do
    let key ← keyCol serial
    return key.idxMapBucket :: (← mappedIds serials)

/-- Columns have moved: every link is made anew from the serial numbers. -/
def fixLinks : Setup Unit := do
  Prog.modify fun dir => {dir with keyColumns := mapSerials dir.keyColumns}
  let dir ← Prog.get
  (List.range dir.indexes.length).forM relinkIndex
  let pathinfo ← mappedIds dir.pathinfoSerials
  Prog.modify fun dir => {dir with pathinfo}

/-- `add_key_column`: the id of the column, and whether it was there before. -/
def addKeyColumn (keyname : Text) : Setup (Nat × Bool) := do
  let dir ← Prog.get
  let listSize := dir.keyColumns.length
  let (place,exists_) := keyPlace keyname dir.keyColumns
  if exists_ then return (place,true)
  else
    let key := {KeyCol.zero with name := keyname, serialNo := listSize}
    Prog.modify fun dir => {dir with keyColumns := dir.keyColumns.insertIdx place key}
    if place < listSize then fixLinks
    return (place,false)

/-- `NSQL::Expr`, where it compares a column with a parameter or with a constant. -/
structure Expr where
  baseColName : Text
  relOp : Nat
  isConst : Bool
  value : Text
  deriving DecidableEq

/-- `add_column_to_index`, which is given the id of an index. -/
def addColumnToIndex (indexId : Nat) (expr : Expr) : Setup Nat := do
  let (id,_) ← addKeyColumn expr.value
  let record ← index indexId
  setKeyCol id fun key =>
    let key := {key with indexId := some indexId}
    let key :=
      if record.type = code 'P' then {key with inPk := true, impliedPlan := .primaryKey}
      else if record.type = code 'U' then
        {key with inHashIdx := true, impliedPlan := .uniqueIndexAccess}
      else if record.type = code 'O' then
        {key with
          inOrdIdx := true, impliedPlan := .orderedIndexScan, relOp := expr.relOp,
          baseColName := some expr.baseColName}
      else key
    {key with nextInKeySerial := none, nextInKey := none}
  return id

def getIndexByName (dir : Dir) (idx : Text) : Option Nat :=
  dir.indexes.findIdx? fun index => index.name = idx

/-- `get_index_by_name` where the index is asserted to be there. -/
def namedIndexId (idx : Text) : Setup Nat := do
  match getIndexByName (← Prog.get) idx with
  | some id => return id
  | none => Prog.fail (.crash .assertion)

def buildIndexRecord (idxtype : UInt8) (name : Text) : Setup Unit :=
  Prog.modify fun dir =>
    {dir with indexes := dir.indexes ++ [⟨name,0,none,none,idxtype,false,false,[]⟩]}

/-- `build_index`, and the beginning of `named_index`: an index of the name may be there. -/
def buildIndex (idxtype : UInt8) (name : Text) : Setup Unit := do
  if (getIndexByName (← Prog.get) name).isNone then buildIndexRecord idxtype name

/-- `sort_scan` -/
def sortScan (bounded : Bool) (idxname : Text) (descending : Bool) : Setup Unit := do
  if bounded then
    let id ← namedIndexId idxname
    setIndex id fun index =>
      {index with sorted := true, descending := index.descending || descending}
  else
    Prog.modify fun dir => {dir with indexScan :=
      {dir.indexScan with sorted := true, descending := dir.indexScan.descending || descending}}

def chainEnd : Nat → Nat → Setup Nat
  | 0, _ => Prog.fail (.crash .outOfFuel)
  | fuel + 1, col => do
    match (← keyCol col).nextInKey with
    | none => return col
    | some next => chainEnd fuel next

def linkColumn (indexId colId : Nat) : Setup Unit := do
  let serial := (← keyCol colId).serialNo
  match (← index indexId).firstCol with
  | none =>
    setIndex indexId fun index =>
      {index with firstColSerial := some serial, firstCol := some colId}
  | some head =>
    let dir ← Prog.get
    let tail ← chainEnd (dir.keyColumns.length + 1) head
    setKeyCol tail fun key => {key with nextInKeySerial := some serial, nextInKey := some colId}

/-- `named_idx` -/
def namedIdx (idx : Text) (expr : Expr) : Setup Unit := do
  let indexId ← namedIndexId idx
  let record ← index indexId
  if record.type = code 'O' ∧ expr.value.head? = some (code '[') then
    if expr.value = text "[ASC]" then sortScan true idx false
    else if expr.value = text "[DESC]" then sortScan true idx true
    else refuse (text "Unrecognized sort flag: " ++ expr.value ++ text ".")
  else
    let colId ← addColumnToIndex indexId expr
    setIndex indexId fun index => {index with nColumns := index.nColumns + 1}
    linkColumn indexId colId

/-- `named_index`, for one column of the directive. -/
def namedIndex (which : UInt8) (idx col : Text) : Setup Unit := do
  let dir ← Prog.get
  if dir.indexScan.name = some idx then
    refuse (text "Cannot define key columns for an ordered index scan.")
  else
    buildIndex which idx
    namedIdx idx ⟨[],4,false,col⟩

def primaryKeyName : Text := text "*Primary$Key*"

/-- `unquote_qstring`, behind the opening quote. -/
def unquoted : Text → Text
  | [] => []
  | c::str =>
    if c = code '\\' then
      match str with
      | [] => []
      | d::str => d :: unquoted str
    else if c = code '"' then []
    else c :: unquoted str

/-- `index_constant` -/
def indexConstant (idx : Text) (expr : Expr) : Setup Unit := do
  let indexId ← namedIndexId idx
  Prog.modify fun dir => {dir with defaultKey := some indexId}
  let record ← index indexId
  if record.type = code 'P' ∨ record.type = code 'U' then
    refuse (text "Sorry, you cannot compare a primary key or unique index " ++
      text "to a constant value in mod_ndb 1.0")
  else if record.type ≠ code 'O' then Prog.fail (.crash .assertion)
  else
    let value := if expr.value.head? = some (code '"') then unquoted expr.value.tail else expr.value
    setIndex indexId fun index => {index with constants :=
      ⟨some expr.baseColName,expr.relOp,.orderedIndexScan,value⟩ :: index.constants}

def pathWords (spec : Text) : List Text := (spec.splitOn (code '/')).filter (· ≠ [])

/-- `pathinfo`; the array is there before its columns are. -/
def pathInfo (spec : Text) (arg2 : Option Text) : Setup Unit := do
  let items := pathWords spec
  Prog.modify fun dir => {dir with
    pathinfo := List.replicate items.length 0, pathinfoSerials := List.replicate items.length 0}
  items.zipIdx.forM fun item => do
    let (colId,_) ← addKeyColumn item.1
    let serial := (← keyCol colId).serialNo
    Prog.modify fun dir => {dir with
      pathinfo := dir.pathinfo.set item.2 colId,
      pathinfoSerials := dir.pathinfoSerials.set item.2 serial}
  if arg2.map (·.map lower) = some (text "always") then
    Prog.modify fun dir => {dir with pathinfoAlways := true}

/-- `table` -/
def table (arg1 : Text) (arg2 arg3 : Option Text) : Setup Unit := do
  Prog.modify fun dir => {dir with table := some arg1}
  if arg2.map (·.map lower) = some (text "scan") then
    Prog.modify fun dir => {dir with
      tableScan := true, indexScan := {dir.indexScan with name := arg3.or dir.indexScan.name}}

/-- `non_key_column`, for one word of Columns or AllowUpdate. -/
def visibleColumn (arg : Text) : Setup Unit :=
  Prog.modify fun dir =>
    if arg = text "*" then {dir with selectStar := true}
    else {dir with visible := dir.visible ++ [arg], aliases := dir.aliases ++ [arg]}

def updatableColumn (arg : Text) : Setup Unit :=
  Prog.modify fun dir => {dir with updatable := dir.updatable ++ [arg]}

def filterOps : List Text :=
  [text "<=",text "<",text ">=",text ">",text "=",text "!=",text "LIKE",text "NOTLIKE"]

/-- `filter` -/
def filter (baseColName filterOp aliasColName : Text) : Setup Unit := do
  let (id,exists_) ← addKeyColumn aliasColName
  if exists_ then refuse (text "Filter parameter " ++ aliasColName ++ text " already defined.")
  else
    setKeyCol id fun key => {key with isFilter := true, baseColName := some baseColName}
    Prog.modify fun dir => {dir with hasFilters := true}
    match filterOps.findIdx? (· = filterOp) with
    | some n => setKeyCol id fun key => {key with relOp := n}
    | none => refuse (text "invalid filter operator '" ++ filterOp ++ text "'")

/-- `result_format` -/
def resultFormat (formats : Text → Option OutputFormat) (format : Text) : Setup Unit := do
  Prog.modify fun dir => {dir with fmt := formats format}
  if (formats format).isNone then
    refuse (text "Undefined result format \"" ++ format ++ text "\".")

inductive IndexValue
  | param (name : Text)
  | const (token : Text)

def IndexValue.expr (baseColName : Text) (relOp : Nat) : IndexValue → Expr
  | .param name => ⟨baseColName,relOp,false,name⟩
  | .const token => ⟨baseColName,relOp,true,token⟩

/-- `index_condition` -/
def indexCondition (idx : Text) (expr : Expr) : Setup Unit :=
  if expr.isConst then indexConstant idx expr else namedIdx idx expr

/-- `relop`, by the number of its bound. -/
inductive RelOp | ge | gt | le | lt | eq
  deriving DecidableEq

def RelOp.value : RelOp → Nat
  | .ge => 0
  | .gt => 1
  | .le => 2
  | .lt => 3
  | .eq => 4

structure Condition where
  column : Text
  relop : RelOp
  value : IndexValue

/-- `UniqueIndexSpec` -/
inductive Lookup
  | primaryKey (values : List IndexValue)
  | uniqueIndex (name : Text) (values : List IndexValue)

def Lookup.run : Lookup → Setup Unit
  | .primaryKey values => do
    buildIndex (code 'P') primaryKeyName
    values.forM fun value => indexCondition primaryKeyName (value.expr [] 4)
  | .uniqueIndex name values => do
    buildIndex (code 'U') name
    values.forM fun value => indexCondition name (value.expr [] 4)

/-- `QueryPlan`; an index scan without a name is one of `PRIMARY`, and one without
conditions is of the whole index. -/
inductive QueryPlan
  | lookup (spec : Lookup)
  | tableScan
  | indexScan (name : Option Text) (conditions : List Condition) (descending : Option Bool)

def QueryPlan.run : QueryPlan → Setup Unit
  | .lookup spec => spec.run
  | .tableScan => Prog.modify fun dir => {dir with tableScan := true}
  | .indexScan name conditions descending => do
    let idxname := name.getD (text "PRIMARY")
    if conditions = [] then
      Prog.modify fun dir => {dir with
        tableScan := true, indexScan := {dir.indexScan with name := some idxname}}
    else
      buildIndex (code 'O') idxname
      conditions.forM fun condition =>
        indexCondition idxname (condition.value.expr condition.column condition.relop.value)
    match descending with
    | some descending => sortScan (conditions ≠ []) idxname descending
    | none => return ()

structure TableSpec where
  database : Option Text
  table : Text

def TableSpec.run (spec : TableSpec) : Setup Unit :=
  Prog.modify fun dir => {dir with
    database := spec.database.or dir.database, table := some spec.table}

/-- `NSQL`; a column has a name of its own unless it is given one with `AS`. -/
inductive Query
  | select (columns : Option (List (Text × Option Text))) (table : TableSpec)
      (plan : Option QueryPlan)
  | delete (table : TableSpec) (spec : Lookup)
  | queryPlan (plan : QueryPlan)

def selectColumn (column : Text × Option Text) : Setup Unit :=
  Prog.modify fun dir => {dir with
    visible := dir.visible ++ [column.1], aliases := dir.aliases ++ [column.2.getD column.1]}

def Query.run : Query → Setup Unit
  | .select columns table plan => do
    match columns with
    | none => Prog.modify fun dir => {dir with selectStar := true}
    | some columns => columns.forM selectColumn
    table.run
    match plan with
    | some plan => plan.run
    | none => return ()
  | .delete table spec => do
    table.run
    spec.run
    Prog.modify fun dir => {dir with allowDelete := true}
  | .queryPlan plan => plan.run

inductive Directive
  | database (name : Text)
  | table (arg1 : Text) (arg2 arg3 : Option Text)
  | deletes (flag : Bool)
  | eTags (flag : Bool)
  | format (name : Text)
  | columns (names : List Text)
  | allowUpdate (names : List Text)
  | primaryKey (cols : List Text)
  | uniqueIndex (idx : Text) (cols : List Text)
  | orderedIndex (idx : Text) (cols : List Text)
  | pathInfo (spec : Text) (arg2 : Option Text)
  | filter (baseColName filterOp aliasColName : Text)
  | sql (query : Query)

def Directive.run (formats : Text → Option OutputFormat) : Directive → Setup Unit
  | .database name => Prog.modify fun dir => {dir with database := some name}
  | .table arg1 arg2 arg3 => Config.table arg1 arg2 arg3
  | .deletes flag => Prog.modify fun dir => {dir with allowDelete := flag}
  | .eTags flag => Prog.modify fun dir => {dir with useEtags := flag}
  | .format name => resultFormat formats name
  | .columns names => names.forM visibleColumn
  | .allowUpdate names => names.forM updatableColumn
  | .primaryKey cols => cols.forM (namedIndex (code 'P') primaryKeyName)
  | .uniqueIndex idx cols => cols.forM (namedIndex (code 'U') idx)
  | .orderedIndex idx cols => cols.forM (namedIndex (code 'O') idx)
  | .pathInfo spec arg2 => Config.pathInfo spec arg2
  | .filter baseColName filterOp aliasColName => Config.filter baseColName filterOp aliasColName
  | .sql query => query.run

def configure (formats : Text → Option OutputFormat) (directives : List Directive) : Setup Unit :=
  directives.forM (Directive.run formats)

end ModNdb.Config
