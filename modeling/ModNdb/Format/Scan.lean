import ModNdb.Text
import ModNdb.Lib.Prog

/-! Cells, sentinels and the scanner of format_compiler.cc. A pointer into a
format text is the suffix it points at, so `token_next > token_start` is a
comparison of lengths. The parser is one global object: its state, with the
shared sentinels, survives a parse that throws. -/
namespace ModNdb.Format

inductive ReType | constString | itemName | itemValue
  deriving DecidableEq

inductive ReEsc | noEsc | escXml | escJson | escXmljson
  deriving DecidableEq

inductive ReQuot | noQuot | quoteChar | quoteAll
  deriving DecidableEq

inductive Token | noMore | plaintext | ellipses | fieldname | fieldval | fieldnum | node
  deriving DecidableEq

/-- A cell without its `next` link; `escapes` names the table of `get_escapes`. -/
structure Cell where
  elemType : ReType
  elemQuote : ReQuot
  escapes : ReEsc
  i : UInt32
  string : Text
  deriving DecidableEq

def Cell.constant (txt : Text) : Cell := ⟨.constString,.noQuot,.noEsc,0,txt⟩

/-- A `Cell *`: the shared sentinel, or a cell of its own with the cells linked
behind it. -/
inductive CellPtr
  | theNullCell
  | chain (first : Cell) (next : List Cell)
  deriving DecidableEq

def CellPtr.own : CellPtr → List Cell
  | .theNullCell => []
  | .chain first next => first::next

@[simp] theorem own_null : CellPtr.theNullCell.own = [] := rfl

@[simp] theorem own_chain (first : Cell) (next : List Cell) :
    (CellPtr.chain first next).own = first::next := rfl

/-- The global objects every format shares. `nullCellNext` is the chain hanging
from `the_null_cell.next`. -/
structure Sentinels where
  nullCell : Cell
  nullCellNext : List Cell
  nullString : Text
  nullNode : CellPtr
  deriving DecidableEq

def Sentinels.initial : Sentinels := ⟨Cell.constant [],[],[],.theNullCell⟩

structure Parser where
  tokenStart : Text
  tokenNext : Text
  oldStart : Text
  nodeSymbol : Text
  currentToken : Token
  oldToken : Token
  sentinels : Sentinels
  deriving DecidableEq

def Parser.initial : Parser := ⟨[],[],[],[],.noMore,.noMore,.initial⟩

/-- Why a parse stops: a `ParserError` with its message, a failed `assert`, or a
loop that makes no progress. -/
inductive Failure
  | parserError (message : Text)
  | assertion
  | stalled
  deriving DecidableEq

abbrev Parse (α : Type) := Prog Failure Parser α

/-- The characters of one token, from `token_start` up to `token_next`. -/
structure Lexeme where
  kind : Token
  text : Text
  deriving DecidableEq

/-- What stands between the dollar signs of a `$...$` token. -/
def Lexeme.symbol (l : Lexeme) : Text := (l.text.drop 1).dropLast

inductive Scanned
  | noMore
  | unterminated
  | token (lexeme : Lexeme) (next : Text)
  deriving DecidableEq

def untilDollar : Text → Option (Text × Text)
  | [] => none
  | c::cs =>
    if c = code '$' then some ([],cs)
    else (untilDollar cs).map (fun (body,next) => (c::body,next))

/-- Plaintext runs up to two dots, or a dollar sign without a backslash before it. -/
def plaintext (before : UInt8) : Text → Text × Text
  | [] => ([],[])
  | c::cs =>
    if c = code '.' ∧ cs.head? = some (code '.') ∨ c = code '$' ∧ before ≠ code '\\' then ([],c::cs)
    else let (taken,next) := plaintext c cs; (c::taken,next)

def isdigit (c : UInt8) : Bool := code '0' ≤ c && c ≤ code '9'

/-- `!strncmp(start, word, 6)`, the length being 6 for every word. -/
def strncmp6 (start : Text) (word : String) : Bool := start.take 6 == (text word).take 6

def dollarToken (start : Text) : Token :=
  if strncmp6 start "$name$" || strncmp6 start "$name/" then .fieldname
  else if strncmp6 start "$value$" || strncmp6 start "$value/" then .fieldval
  else if (start.drop 1).head?.any isdigit then .fieldnum
  else .node

/-- The token that starts at `start`. -/
def scanAt (start : Text) : Scanned :=
  match start with
  | [] => .noMore
  | c::cs =>
    if c = code '.' ∧ (text "..").isPrefixOf cs then .token ⟨.ellipses,text "..."⟩ (cs.drop 2)
    else if c = code '$' then
      match untilDollar cs with
      | some (body,next) => .token ⟨dollarToken start,c::body ++ [code '$']⟩ next
      | none => .unterminated
    else let (taken,next) := plaintext 0 start; .token ⟨.plaintext,taken⟩ next

/-- `Parser::scan`, with the assignment to `current_token` every caller makes.
At the end of the text `token_next` keeps its old value. -/
def scan (start : Option Text) : Parse Unit := fun p =>
  let p := {p with
    oldToken := p.currentToken, oldStart := p.tokenStart, tokenStart := start.getD p.tokenNext}
  match scanAt p.tokenStart with
  | .noMore => (.ok (),{p with currentToken := .noMore})
  | .unterminated =>
    (.error (.parserError (text "Expected terminating '$' after '" ++ p.tokenStart ++ text "'")),p)
  | .token l next => (.ok (),{p with
      currentToken := l.kind, tokenNext := next,
      nodeSymbol := if l.kind = .node then l.symbol else p.nodeSymbol})

def rollback : Parse Unit := Prog.modify fun p => {p with
  tokenNext := p.tokenStart, tokenStart := p.oldStart, currentToken := p.oldToken}

def Parser.tokenText (p : Parser) : Text :=
  p.tokenStart.take (p.tokenStart.length - p.tokenNext.length)

def copyNodeText : Parse Text := fun p =>
  if p.tokenNext.length < p.tokenStart.length then (.ok p.tokenText,p) else (.error .assertion,p)

/-- `strtol(.., 10)` on text that starts with a digit, saturating at `LONG_MAX`. -/
def strtol10 (digits : Text) : Nat :=
  min ((digits.takeWhile isdigit).foldl (fun n c => 10 * n + (c.toNat - 48)) 0) (2^63 - 1)

def quoteFlag (quote : ReQuot) (c : UInt8) : ReQuot :=
  if c = code 'q' then .quoteChar else if c = code 'Q' then .quoteAll else quote

def escapeFlag (escape : ReEsc) (c : UInt8) : ReEsc :=
  if c = code 'x' then .escXml else if c = code 'j' then .escJson
  else if c = code 'k' then .escXmljson else escape

/-- The cell `build_cell` makes of a plaintext or field token. -/
def cellOf (l : Lexeme) : Cell :=
  let flags := l.text.dropLast.dropWhile (· ≠ code '/')
  let quote := flags.foldl quoteFlag .noQuot
  let escape := flags.foldl escapeFlag .noEsc
  match l.kind with
  | .fieldnum => ⟨.itemValue,quote,escape,UInt32.ofNat (strtol10 (l.text.drop 1)),[]⟩
  | .fieldname => ⟨.itemName,quote,escape,0,[]⟩
  | .fieldval => ⟨.itemValue,quote,escape,0,[]⟩
  | _ => Cell.constant l.text

def Token.isCell : Token → Bool
  | .plaintext | .fieldname | .fieldval | .fieldnum => true
  | _ => false

def buildCell : Parse Cell := do
  let p ← Prog.get
  if p.currentToken = .plaintext then
    return Cell.constant (← copyNodeText)
  else if p.currentToken.isCell then
    return cellOf ⟨p.currentToken,p.tokenText⟩
  else Prog.fail .assertion

end ModNdb.Format
