import ModNdb.Format.Scan

/-! The parser functions, the node graph of an output format and
`output_format::compile`. Nodes live in a list and refer to each other by
position, as the C++ objects do by address. -/
namespace ModNdb.Format

/-- `get_cell`; `none` is `&the_null_cell`. -/
def getCell (required : Bool) (start : Option Text) : Parse (Option Cell) := do
  scan start
  let p ← Prog.get
  if p.currentToken.isCell then
    return some (← buildCell)
  expectedUnless required "terminal"
  return none
where
  expectedUnless (required : Bool) (what : String) : Parse Unit := fun p =>
    if required then
      (.error (.parserError (text "Parser error: " ++ text what ++ text " expected at '" ++
        p.tokenStart ++ text "'")),p)
    else (.ok (),p)

/-- `c1->next = c2`. The last linked cell is the sentinel itself when the chain
began with it and nothing has been linked yet. -/
def link (first : Option Cell) (linked : List Cell) (c : Cell) : Parse Unit :=
  match first with
  | some _ => pure ()
  | none => Prog.modify fun p =>
      {p with sentinels := {p.sentinels with nullCellNext := linked ++ [c]}}

/-- The loop of `get_cell_chain`; a cell token consumes text, so `fuel` above
the length of the text is never used up. -/
def chainLoop (first : Option Cell) : Nat → List Cell → Parse (List Cell)
  | 0, _ => Prog.fail .stalled
  | fuel + 1, linked => do
    match ← getCell false none with
    | none => return linked
    | some c =>
      link first linked c
      chainLoop first fuel (linked ++ [c])

/-- The `Cell *` a chain is returned as: its first cell, or the sentinel. -/
def chainPtr : Option Cell → List Cell → CellPtr
  | none, _ => .theNullCell
  | some c, linked => .chain c linked

def getCellChain (required : Bool) (start : Option Text) : Parse CellPtr := do
  let first ← getCell required start
  let p ← Prog.get
  let linked ← chainLoop first (p.tokenNext.length + 1) []
  let p ← Prog.get
  if p.currentToken ≠ .noMore then rollback
  return chainPtr first linked

/-- `get_string`; `none` is `&the_null_string`. -/
def getString (required : Bool) (start : Option Text) : Parse (Option Text) := do
  scan start
  let p ← Prog.get
  if p.currentToken = .plaintext then
    return some (← copyNodeText)
  getCell.expectedUnless required "constant string"
  return none

def getEllipses (required : Bool) (start : Option Text) : Parse Bool := do
  scan start
  let p ← Prog.get
  if p.currentToken = .ellipses then return true
  getCell.expectedUnless required "ellipses"
  return false

def theEnd (required : Bool) (start : Option Text) : Parse Bool := do
  scan start
  let p ← Prog.get
  if p.currentToken = .noMore then return true
  if required then Prog.fail (.parserError (text "Unexpected text at end of format."))
  return false

inductive NodeKind | mainLoop | scanLoop | rowLoop | recAttr
  deriving DecidableEq

inductive NodeRef
  | theNullNode
  | node (id : Nat)
  deriving DecidableEq

/-- begin, core, sep and end of a loop; a `sep` of `none` is `&the_null_string`. -/
structure LoopParts where
  begin : CellPtr
  core : NodeRef
  sep : Option Text
  end_ : CellPtr
  deriving DecidableEq

inductive Compiled
  | no
  | loop (parts : LoopParts)
  | record (fmt nullFmt : CellPtr)
  deriving DecidableEq

structure Node where
  name : Text
  kind : NodeKind
  unresolved : Text
  unresolved2 : Option Text
  compiled : Compiled
  deriving DecidableEq

structure OutputFormat where
  name : Text
  isInternal : Bool
  canOverride : Bool
  isRaw : Bool
  isJSON : Bool
  topNode : Option Nat
  nodes : List Node
  symbolTable : Fin 16 → List Nat

namespace OutputFormat

def new (name : Text) : OutputFormat :=
  ⟨name,false,false,false,false,none,[],fun _ => []⟩

def nameOf (f : OutputFormat) (id : Nat) : Option Text := (f.nodes[id]?).map Node.name

/-- `symbol(name)`: the first node of that name in its bucket. -/
def symbol (f : OutputFormat) (name : Text) : Option Nat :=
  (f.symbolTable (hash name)).find? (fun id => f.nameOf id == some name)

/-- `symbol(name, p, node)`: a name that is taken keeps its first node. The new
object exists either way; only a node in the table gets compiled. -/
def addSymbol (f : OutputFormat) (name : Text) (kind : NodeKind) (source : Text)
    (source2 : Option Text) : OutputFormat :=
  let grown := {f with nodes := f.nodes ++ [⟨name,kind,source,source2,.no⟩]}
  match f.symbol name with
  | some _ => grown
  | none => {grown with
      symbolTable := Function.update f.symbolTable (hash name)
        (f.nodes.length :: f.symbolTable (hash name))}

def kindOf (f : OutputFormat) (id : Nat) : Option NodeKind := (f.nodes[id]?).map Node.kind

/-- `core->type == loop_node`. -/
def isLoopNode (f : OutputFormat) (id : Nat) : Bool :=
  f.kindOf id == some .scanLoop || f.kindOf id == some .rowLoop

end OutputFormat

def getNode (required : Bool) (f : OutputFormat) (start : Option Text) : Parse NodeRef := do
  scan start
  let p ← Prog.get
  if p.currentToken = .node then
    match f.symbol p.nodeSymbol with
    | some id => return .node id
    | none => Prog.fail (.parserError (text "Undefined symbol '" ++ p.nodeSymbol ++ text "'"))
  else
    getCell.expectedUnless required "node"
    return .theNullNode

/-- `Loop::compile`, which `ScanLoop` and `RowLoop` share. -/
def compileLoop (f : OutputFormat) (unresolved : Text) : Parse LoopParts := do
  let begin ← getCellChain false (some unresolved)
  let core ← getNode false f none
  if core = .theNullNode then
    let _ ← theEnd true none
    return ⟨begin,core,none,.theNullCell⟩
  else
    let sep ← getString false none
    if sep = none then rollback
    let _ ← getEllipses true none
    let end_ ← getCellChain false none
    let _ ← theEnd true none
    return ⟨begin,core,sep,end_⟩

/-- `MainLoop::compile`. -/
def compileMain (f : OutputFormat) (unresolved : Text) : Parse LoopParts := do
  let begin ← getCell false (some unresolved)
  if begin = none then rollback
  let core ← getNode false f none
  match core with
  | .theNullNode => pure ()
  | .node id =>
    if f.isLoopNode id then pure ()
    else Prog.fail (.parserError
      (text "The core of a Format object must be a Row or Scan object."))
  let end_ ← getCell false none
  let _ ← theEnd true none
  return ⟨chainPtr begin [],core,none,chainPtr end_ []⟩

/-- `RecAttr::compile`: the format and, where there is one, the NULL format. -/
def compileRecord (unresolved : Text) (unresolved2 : Option Text) : Parse (CellPtr × CellPtr) := do
  let fmt ← getCellChain true (some unresolved)
  match unresolved2 with
  | none => return (fmt,fmt)
  | some source => return (fmt,← getCellChain true (some source))

def Node.compile (f : OutputFormat) (n : Node) : Parse Compiled :=
  match n.kind with
  | .mainLoop => do return .loop (← compileMain f n.unresolved)
  | .scanLoop | .rowLoop => do return .loop (← compileLoop f n.unresolved)
  | .recAttr => do
    let (fmt,nullFmt) ← compileRecord n.unresolved n.unresolved2
    return .record fmt nullFmt

inductive CompileResult
  | accepted (f : OutputFormat)
  | rejected (message : Text)
  | aborted

def OutputFormat.setCompiled (f : OutputFormat) (id : Nat) (c : Compiled) : OutputFormat :=
  {f with nodes := f.nodes.modify id (fun n => {n with compiled := c})}

/-- One pass over the symbols, stopping at the first node that does not compile. -/
def compileSymbols : List Nat → OutputFormat → Parser → CompileResult × Parser
  | [], f, p => (.accepted f,p)
  | id::ids, f, p =>
    match f.nodes[id]? with
    | none => compileSymbols ids f p
    | some n =>
      match n.compile f p with
      | (.ok c,next) => compileSymbols ids (f.setCompiled id c) next
      | (.error (.parserError message),next) =>
        (.rejected (message ++ text " [compiling: " ++ n.name ++ text "]"),next)
      | (.error _,next) => (.aborted,next)

/-- The nodes in the order `output_format::compile` visits the symbol table. -/
def OutputFormat.symbols (f : OutputFormat) : List Nat :=
  (List.finRange 16).flatMap f.symbolTable

def OutputFormat.compile (f : OutputFormat) (p : Parser) : CompileResult × Parser :=
  compileSymbols f.symbols f p

end ModNdb.Format
