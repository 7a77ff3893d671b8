import ModNdb.Lib.Prog
import ModNdb.Format.Compile
import ModNdb.MySQL.Result

/-! Running a compiled format over a result (output_format.cc). A page under
construction records, next to its bytes, every index that was used on
`result_cols` and `aliases`, and any escape table read outside its bounds. -/
namespace ModNdb.Format
open MySQL (Column Value Printers)

/-- The values of one row by position; those below `n_result_cols` are read. -/
abbrev Row := Nat → Value

structure ResultCol where
  column : Column
  aliased : Text

/-- `data_operation`: `result_cols` and `aliases` have `n_result_cols` entries. -/
structure DataOperation where
  selectStar : Bool
  cols : List ResultCol
  scanop : Bool
  few : cols.length < 2^32

def DataOperation.nResultCols (data : DataOperation) : Nat := data.cols.length

/-- The row the record attributes show, the rows in the scan's cache, and the batches
NDB has not sent yet. -/
structure Cursor where
  current : Row
  cached : List Row
  later : List (Row × List Row)

structure Page where
  bytes : Text
  reads : List Nat
  outside : Bool
  cursor : Cursor

/-- A call through a null pointer, or a run longer than the fuel. -/
inductive Stop | nullPointer | outOfFuel
  deriving DecidableEq

abbrev Build (α : Type) := Prog Stop Page α

inductive Status | ok | notFound
  deriving DecidableEq

def print (bytes : Text) : Build Unit := Prog.modify fun p => {p with bytes := p.bytes ++ bytes}

@[simp] theorem print_run (bytes : Text) (p : Page) :
    print bytes p = (.ok (),{p with bytes := p.bytes ++ bytes}) := rfl

def readColumn (n : Nat) : Build Unit := Prog.modify fun p => {p with reads := p.reads ++ [n]}

/-- `result->out(res, escapes)` -/
def printResult (printers : Printers) (col : Column) (n : Nat) (escapes : ReEsc) : Build Unit :=
  Prog.modify fun p =>
    let printed := MySQL.out printers col (p.cursor.current n).raw (MySQL.getEscapes escapes)
    {p with bytes := p.bytes ++ printed.bytes, outside := p.outside || printed.outside}

/-- The types whose values `quote_char` puts between quotes. -/
def isQuoted : MySQL.ColType → Bool
  | .char | .varchar | .longvarchar | .date | .time | .datetime | .text => true
  | _ => false

section
variable (printers : Printers) (s : Sentinels) (data : DataOperation)

/-- `Cell::out(data, n, res)`. Nothing is known of what stands behind an index outside the
arrays, so nothing is printed there. -/
def Cell.outAt (c : Cell) (n : Nat) : Build Unit := do
  if c.elemType = .constString then
    print c.string
  else
    readColumn n
    match data.cols[n]? with
    | none => return ()
    | some col =>
      let colName := if data.selectStar then col.column.name else col.aliased
      if c.elemType = .itemName then
        if c.elemQuote = .noQuot then print colName
        else print ([code '"'] ++ colName ++ [code '"'])
      else if c.elemQuote = .quoteAll ∨ c.elemQuote = .quoteChar ∧ isQuoted col.column.type then
        print [code '"']
        printResult printers col.column n c.escapes
        print [code '"']
      else printResult printers col.column n c.escapes

/-- `Cell::out(data, res)`: `i - 1` wraps for the cells that have no number. -/
def Cell.outNumbered (c : Cell) : Build Unit :=
  if c.elemType = .constString then print c.string
  else if data.nResultCols < c.i.toNat then return ()
  else c.outAt printers data (c.i - 1).toNat

/-- The cells a chain prints: those of the sentinel include what is linked behind it. -/
def CellPtr.cells : CellPtr → List Cell
  | .theNullCell => s.nullCell :: s.nullCellNext
  | .chain first next => first::next

/-- The cell a `Cell *` points at. -/
def CellPtr.first : CellPtr → Cell
  | .theNullCell => s.nullCell
  | .chain first _ => first

def chainOut (c : CellPtr) : Build Unit := (c.cells s).forM (Cell.outNumbered printers data)

/-- `chain_out(res)`, which prints the text of every cell. -/
def chainText (c : CellPtr) : Build Unit := (c.cells s).forM fun cell => print cell.string

/-- `nextResult(fetchAllowed) == 0` -/
def nextResult (fetchAllowed : Bool) : Build Bool := fun p =>
  match p.cursor.cached, p.cursor.later with
  | row::cached, later => (.ok true,{p with cursor := ⟨row,cached,later⟩})
  | [], (row,cached)::later =>
    if fetchAllowed then (.ok true,{p with cursor := ⟨row,cached,later⟩}) else (.ok false,p)
  | [], [] => (.ok false,p)

def Cursor.remaining (c : Cursor) : Nat :=
  c.cached.length + (c.later.map fun batch => batch.2.length + 1).sum

/-- The inner loop of `ScanLoop::Run`: the rows already cached. -/
def cachedRows (row : Nat → Build Unit) : Nat → Nat → Build Nat
  | 0, _ => Prog.fail .outOfFuel
  | fuel + 1, nrows => do
    row nrows
    if ← nextResult false then cachedRows row fuel (nrows + 1) else return nrows + 1

def fetchedRows (row : Nat → Build Unit) : Nat → Nat → Build Nat
  | 0, _ => Prog.fail .outOfFuel
  | fuel + 1, nrows => do
    if ← nextResult true then
      fetchedRows row fuel (← cachedRows row (fuel + 1) nrows)
    else return nrows

def scanRow (parts : LoopParts) (core : Build Status) (nrows : Nat) : Build Unit := do
  if nrows ≠ 0 then print (parts.sep.getD s.nullString) else chainText s parts.begin
  let _ ← core

/-- `ScanLoop::Run`, given how its core runs. -/
def scanRun (parts : LoopParts) (core : Build Status) : Build Status := do
  if data.scanop then
    let p ← Prog.get
    let nrows ← fetchedRows (scanRow s parts core) (p.cursor.remaining + 1) 0
    if nrows ≠ 0 then chainText s parts.end_
    return if nrows ≠ 0 then .ok else .notFound
  else core

/-- `RecAttr::out`; without its formats it prints nothing. -/
def recAttrOut (n : Nat) : Compiled → Build Unit
  | .record fmt nullFmt => do
    readColumn n
    let p ← Prog.get
    ((if (p.cursor.current n).isNull then nullFmt else fmt).cells s).forM
      fun c => c.outAt printers data n
  | _ => readColumn n

/-- `out(data, n, res)` of a node: `Node::out` uses `cell`, which loops do not have. -/
def nodeOut (f : OutputFormat) (n : Nat) : NodeRef → Build Unit
  | .theNullNode => (s.nullNode.first s).outAt printers data n
  | .node id =>
    match f.nodes[id]? with
    | none => Prog.fail .nullPointer
    | some node =>
      if node.kind = .recAttr then recAttrOut printers s data n node.compiled
      else Prog.fail .nullPointer

/-- `RowLoop::Run` -/
def rowRun (f : OutputFormat) (parts : LoopParts) : Build Status := do
  chainOut printers s data parts.begin
  (List.range data.nResultCols).forM fun n => do
    if n ≠ 0 then print (parts.sep.getD s.nullString)
    nodeOut printers s data f n parts.core
  chainOut printers s data parts.end_
  return .ok

/-- `MainLoop::Run`, given how its core runs. -/
def mainRun (parts : LoopParts) (core : Build Status) : Build Status := do
  print (parts.begin.first s).string
  let status ← core
  print (parts.end_.first s).string
  return status

/-- `Run`, one level of nodes for each unit of fuel. Only a main loop checks the pointers
it was never given; a record inherits `Node::Run` without the cell this needs. -/
def nodeRun (f : OutputFormat) : Nat → NodeRef → Build Status
  | 0, _ => Prog.fail .outOfFuel
  | _ + 1, .theNullNode => do
    (s.nullNode.first s).outNumbered printers data
    return .ok
  | fuel + 1, .node id =>
    match f.nodes[id]? with
    | none => Prog.fail .nullPointer
    | some node =>
      match node.compiled with
      | .loop parts =>
        match node.kind with
        | .mainLoop => mainRun s parts (nodeRun f fuel parts.core)
        | .scanLoop => scanRun s data parts (nodeRun f fuel parts.core)
        | .rowLoop => rowRun printers s data f parts
        | .recAttr => Prog.fail .nullPointer
      | _ => if node.kind = .mainLoop then return .ok else Prog.fail .nullPointer

/-- `build_results` for a format that is not raw; `next_node` of a top node is null. -/
def buildResults (f : OutputFormat) (fuel : Nat) : Build Status :=
  match f.topNode with
  | none => return .ok
  | some top => nodeRun printers s data f fuel (.node top)

end

end ModNdb.Format
