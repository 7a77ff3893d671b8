import ModNdb.Config.Directives
import ModNdb.NSql.Scanner

/-! The parser that Coco makes of NSQL.atg (Parser.frame), with its semantic actions, and
`sql_container` (config.cc). It goes on after an error, and runs the actions that follow. What no
action has set is `none`. -/
namespace ModNdb.NSql
open Config (ConfigLine Dir Expr Refusal Setup)

structure Vars where
  idxname : Option Text
  isBounded : Bool
  baseColName : Text
  relOp : Nat
  isConst : Option Bool
  value : Text

/-- `t`, `la` with what the scanner has in store behind it, and the errors. -/
structure Parsing where
  t : Token
  ahead : List Token
  errDist : Nat
  count : Nat
  vars : Vars
  dir : Dir

def laKind (ahead : List Token) : Kind := (ahead.head?.getD .eof).kind

inductive Halt
  | outOfFuel
  | crash (why : Crash)

abbrev Production := Prog Halt Parsing Unit

/-- `Get`, which scans the next token. -/
def getToken : Production := fun p =>
  let next := {p with t := p.ahead.head?.getD .eof, ahead := p.ahead.tail, errDist := p.errDist + 1}
  if laKind next.ahead = .wild then (.error (.crash .wildPointer),next) else (.ok (),next)

/-- An error is counted, unless the last one was at most one token before. -/
def Parsing.report (p : Parsing) : Parsing :=
  {p with count := if 2 ≤ p.errDist then p.count + 1 else p.count, errDist := 0}

/-- `SynErr` and `SemErr` -/
def synErr : Production := Prog.modify Parsing.report

def branch (kind : Kind) (yes no : Production) : Production := do
  let p ← Prog.get
  if laKind p.ahead = kind then yes else no

/-- `Expect` -/
def expect (kind : Kind) : Production := branch kind getToken synErr

def act (action : Token → Vars → Setup Unit) : Production := fun p =>
  match action p.t p.vars p.dir with
  | (.ok (),dir) => (.ok (),{p with dir})
  | (.error (.message _),dir) => (.ok (),{p with dir}.report)
  | (.error (.crash why),dir) => (.error (.crash why),{p with dir})

def set (change : Token → Vars → Vars) : Production :=
  Prog.modify fun p => {p with vars := change p.t p.vars}

/-- An action with the index of the query; a variable that was never set may have any value. -/
def withIdxname (vars : Vars) (action : Text → Setup Unit) : Setup Unit :=
  match vars.idxname with
  | some idxname => action idxname
  | none => Prog.fail (.crash .wildPointer)

/-- `build_index` -/
def buildIndex (idxtype : UInt8) : Production :=
  act fun _ vars => withIdxname vars (Config.buildIndex idxtype)

/-- `index_condition` -/
def indexCondition : Production :=
  act fun _ vars => withIdxname vars fun idxname =>
    match vars.isConst with
    | some isConst =>
      Config.indexCondition idxname ⟨vars.baseColName,vars.relOp,isConst,vars.value⟩
    | none => Prog.fail (.crash .wildPointer)

/-- `{ separator item }` -/
def furtherItems (separator : Kind) (item : Production) : Nat → Production
  | 0 => Prog.fail .outOfFuel
  | fuel + 1 => do
    let p ← Prog.get
    if laKind p.ahead = separator then
      getToken
      item
      furtherItems separator item fuel

def further (separator : Kind) (item : Production) : Production := do
  let p ← Prog.get
  furtherItems separator item (p.ahead.length + 1)

def nothing : Production := return ()

/-- `Column`; `c_name` is a variable of the production. -/
def column : Production := do
  expect .name
  let p ← Prog.get
  let cName := p.t.copy
  branch (.word .as_) (do
    getToken
    expect .name
    act fun t _ => Config.selectColumn (cName,some t.copy))
    (act fun _ _ => Config.selectColumn (cName,none))

/-- `TableSpec` -/
def tableSpec : Production := do
  branch .dbName (do
    getToken
    act fun t _ => Prog.modify fun dir => {dir with database := some t.copy}
    expect (.mark .dot)) nothing
  expect .name
  act fun t _ => Prog.modify fun dir => {dir with table := some t.copy}

/-- `IndexValue`, with `constant` -/
def indexValue : Production := do
  let parameter : Production := do
    expect .name
    set fun t vars => {vars with isConst := some false, value := t.copy}
  let constant : Production := do
    getToken
    set fun t vars => {vars with isConst := some true, value := t.copy}
  branch (.mark .dollar) (getToken >>= fun _ => parameter)
    (branch .name parameter
      (branch .qstring constant (branch .number constant synErr)))
  indexCondition

/-- `ValueList` -/
def valueList : Production := do
  set fun _ vars => {vars with baseColName := [], relOp := 4}
  indexValue
  further (.mark .comma) indexValue

/-- `UniqueIndexSpec`; the type of the index is empty if neither kind was found. -/
def uniqueIndexSpec : Production := do
  branch (.word .primary) (do
    getToken
    expect (.word .key)
    set fun _ vars => {vars with idxname := some Config.primaryKeyName}
    buildIndex (code 'P'))
    (branch (.word .unique) (do
      getToken
      expect (.word .index)
      expect .name
      set fun t vars => {vars with idxname := some t.copy}
      buildIndex (code 'U'))
      (synErr >>= fun _ => buildIndex 0))
  expect (.mark .eq)
  valueList

/-- `OneRowWhereClause` -/
def oneRowWhereClause : Production := do
  expect (.word .where_)
  uniqueIndexSpec

/-- `relop` -/
def relop : Production :=
  let takes (relOp : Nat) : Production := getToken >>= fun _ => set fun _ vars => {vars with relOp}
  branch (.mark .eq) (takes 4)
    (branch (.mark .lt) (takes 3)
      (branch (.mark .le) (takes 2)
        (branch (.mark .gt) (takes 1)
          (branch (.mark .ge) (takes 0) synErr))))

/-- `IndexCondition` -/
def condition : Production := do
  expect .name
  set fun t vars => {vars with baseColName := t.copy}
  relop
  indexValue

/-- `WhereClause` -/
def whereClause : Production := do
  expect (.word .where_)
  buildIndex (code 'O')
  set fun _ vars => {vars with isBounded := true}
  condition
  further (.word .and_) condition

def wholeIndex : Production :=
  act fun _ vars => withIdxname vars fun idxname => Prog.modify fun dir =>
    {dir with tableScan := true, indexScan := {dir.indexScan with name := some idxname}}

/-- `IndexScan`; what may follow it stands for the empty alternative. -/
def indexScan : Production := do
  expect (.word .ordered)
  expect (.word .index)
  branch .name (getToken >>= fun _ => set fun t vars => {vars with idxname := some t.copy})
    (branch (.word .primary) getToken nothing)
  branch (.word .where_) whereClause
    (branch (.word .order) wholeIndex (branch (.mark .semicolon) wholeIndex synErr))

/-- `Order` -/
def order : Production :=
  let takes (descending : Bool) : Production := getToken >>= fun _ =>
    act fun _ vars => withIdxname vars fun idxname => Config.sortScan vars.isBounded idxname descending
  branch (.word .asc) (takes false) (branch (.word .desc) (takes true) synErr)

/-- `Scan` -/
def scanPlan : Production := do
  expect (.word .using_)
  set fun _ vars => {vars with idxname := some (text "PRIMARY"), isBounded := false}
  branch (.word .table) (do
    getToken
    expect (.word .scan)
    act fun _ _ => Prog.modify fun dir => {dir with tableScan := true})
    (branch (.word .ordered) (do
      indexScan
      branch (.word .order) (getToken >>= fun _ => order) nothing) synErr)

/-- `QueryPlan` -/
def queryPlan : Production :=
  branch (.word .where_) oneRowWhereClause (branch (.word .using_) scanPlan synErr)

/-- `SelectQuery` -/
def selectQuery : Production := do
  expect (.word .select)
  branch (.mark .star) (do
    getToken
    act fun _ _ => Prog.modify fun dir => {dir with selectStar := true})
    (branch .name (do
      column
      further (.mark .comma) column) synErr)
  expect (.word .from_)
  tableSpec
  branch (.word .where_) queryPlan (branch (.word .using_) queryPlan nothing)

/-- `DeleteQuery` -/
def deleteQuery : Production := do
  expect (.word .delete)
  expect (.word .from_)
  tableSpec
  oneRowWhereClause
  act fun _ _ => Prog.modify fun dir => {dir with allowDelete := true}

/-- `NSQL` -/
def nsql : Production := do
  branch (.word .select) selectQuery
    (branch (.word .delete) deleteQuery
      (branch (.word .where_) queryPlan (branch (.word .using_) queryPlan synErr)))
  expect (.mark .semicolon)

def Parsing.init (input : List Token) (dir : Dir) : Parsing :=
  ⟨.eof,⟨.noSym,text "Dummy Token"⟩::input,2,0,⟨none,false,[],0,none,[]⟩,dir⟩

/-- `Parse`; what stands behind the semicolon is not looked at. -/
def parse (input : List Token) (dir : Dir) : Except Halt Unit × Parsing :=
  (getToken >>= fun _ => nsql) (.init input dir)

/-- How `sql_container` refuses a query. -/
def errorMessage (count : Nat) (query : Text) : Text :=
  text "NSQL parser: " ++ MySQL.digits count ++ text " error" ++ (if count = 1 then [] else text "s") ++
    text " in '" ++ query ++ text "'."

/-- `sql_container`, of a query that is in the buffer. -/
def compileQuery (query : Text) : Setup Unit := fun dir =>
  match parse (sqlTokens query) dir with
  | (.ok (),p) => if p.count = 0 then (.ok (),p.dir) else (.error (.message (errorMessage p.count query)),p.dir)
  | (.error .outOfFuel,p) => (.error (.crash .outOfFuel),p.dir)
  | (.error (.crash why),p) => (.error (.crash why),p.dir)

/-- `sql_container`, of the lines of a section: what it leaves the server to read. -/
def sqlContainer (inLocation : Bool) (line : ConfigLine) (next : List ConfigLine) :
    Setup (List ConfigLine) :=
  if inLocation then do
    let copied := Config.copySqlIntoBuffer line next
    match copied.error with
    | some message => Config.refuse message
    | none => do
      compileQuery copied.buffer.text
      return copied.left
  else Config.refuse (text "N-SQL query found outside of <Location> section")

end ModNdb.NSql
