import ModNdb.JSON.Scanner
import ModNdb.Lib.Prog

/-! The parser that Coco makes of JSON.atg (Parser.frame), up to the semantic actions: it
lists them in the order in which it runs them. It goes on after an error; that there was
one is all that is looked at. -/
namespace ModNdb.JSON

/-- The semantic actions; a name or value is made of the token read last. -/
inductive Action
  | name (token : Token)
  | value (token : Token)
  | null
  | setItem
  deriving DecidableEq

/-- `t`, and `la` with what the scanner has in store behind it. -/
structure Parsing where
  t : Token
  ahead : List Token
  erroneous : Bool
  actions : List Action
  deriving DecidableEq

def Parsing.la (p : Parsing) : Token := p.ahead.head?.getD .eof

inductive OutOfFuel | outOfFuel
  deriving DecidableEq

abbrev Production := Prog OutOfFuel Parsing Unit

/-- `Get` -/
def getToken : Production := Prog.modify fun p => {p with t := p.la, ahead := p.ahead.tail}

def synErr : Production := Prog.modify fun p => {p with erroneous := true}

def act (action : Token → Action) : Production :=
  Prog.modify fun p => {p with actions := p.actions ++ [action p.t]}

/-- `Expect` -/
def expect (kind : Kind) : Production := do
  let p ← Prog.get
  if p.la.kind = kind then getToken else synErr

/-- `{ ',' item }` -/
def furtherItems (item : Production) : Nat → Production
  | 0 => Prog.fail .outOfFuel
  | fuel + 1 => do
    let p ← Prog.get
    if p.la.kind = .comma then
      getToken
      item
      furtherItems item fuel

section
variable (value : Production)

/-- `pair = string (. key = JSON_string(pool, t); .) ':' value (. set_item .)` -/
def pair : Production := do
  expect .string
  act .name
  expect .colon
  value
  act fun _ => .setItem

/-- `object = '{' [ pair { ',' pair } ] '}'` -/
def object (fuel : Nat) : Production := do
  expect .openBrace
  let p ← Prog.get
  if p.la.kind = .string then
    pair value
    furtherItems (pair value) fuel
  expect .closeBrace

def Kind.startsValue : Kind → Bool
  | .string | .number | .openBrace | .openBracket | .true | .false | .null => Bool.true
  | _ => Bool.false

/-- `array = '[' [ value { ',' value } ] ']'` -/
def array (fuel : Nat) : Production := do
  expect .openBracket
  let p ← Prog.get
  if p.la.kind.startsValue then
    value
    furtherItems value fuel
  expect .closeBracket

end

def value : Nat → Production
  | 0 => Prog.fail .outOfFuel
  | fuel + 1 => do
    let p ← Prog.get
    match p.la.kind with
    | .string | .number | .true | .false =>
      getToken
      act .value
    | .openBrace => object (value fuel) fuel
    | .openBracket => array (value fuel) fuel
    | .null =>
      getToken
      act fun _ => .null
    | _ => synErr

/-- `JSON = object | array` -/
def json (fuel : Nat) : Production := do
  let p ← Prog.get
  match p.la.kind with
  | .openBrace => object (value fuel) fuel
  | .openBracket => array (value fuel) fuel
  | _ => synErr

/-- `Parse`, from the first `Get` on; every round takes a token. -/
def parse (input : List Token) : Except OutOfFuel Unit × Parsing :=
  (do
    json (input.length + 1)
    expect .eof) ⟨.eof,input,false,[]⟩

def scanned (input : List Token) : List Token :=
  input.take (input.length - (parse input).2.ahead.length + 1)

end ModNdb.JSON
