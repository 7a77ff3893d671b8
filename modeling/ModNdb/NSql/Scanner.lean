import ModNdb.Config.SqlBuffer
import ModNdb.Format.Container

/-! The scanner that Coco makes of NSQL.atg (Scanner.frame). Keywords are recognized among names, in
either case; a name in front of a dot or a parenthesis is a token of its own. Characters are signed:
a byte from 128 on is a negative number, which is in no set but that of quoted strings. -/
namespace ModNdb.NSql
open Config (sqlBufferLen)
open Format (lower)

inductive Keyword
  | select | from_ | delete | where_ | using_ | table | scan | as_ | primary | key | unique | index
  | ordered | and_ | order | asc | desc
  deriving DecidableEq

def Keyword.text : Keyword → Text
  | .select => ModNdb.text "select"
  | .from_ => ModNdb.text "from"
  | .delete => ModNdb.text "delete"
  | .where_ => ModNdb.text "where"
  | .using_ => ModNdb.text "using"
  | .table => ModNdb.text "table"
  | .scan => ModNdb.text "scan"
  | .as_ => ModNdb.text "as"
  | .primary => ModNdb.text "primary"
  | .key => ModNdb.text "key"
  | .unique => ModNdb.text "unique"
  | .index => ModNdb.text "index"
  | .ordered => ModNdb.text "ordered"
  | .and_ => ModNdb.text "and"
  | .order => ModNdb.text "order"
  | .asc => ModNdb.text "asc"
  | .desc => ModNdb.text "desc"

def Keyword.all : List Keyword :=
  [.select,.from_,.delete,.where_,.using_,.table,.scan,.as_,.primary,.key,.unique,.index,.ordered,
    .and_,.order,.asc,.desc]

/-- `keywords.get` of a name in lower case. -/
def keywordOf (word : Text) : Option Keyword := Keyword.all.find? fun k => k.text = word

inductive Mark | dot | comma | semicolon | star | dollar | eq | lt | le | gt | ge
  deriving DecidableEq

/-- `wild` stands for the read in front of the table of start states. -/
inductive Kind
  | eof | dbName | funcName | name | qstring | number | word (k : Keyword) | mark (m : Mark) | noSym
  | wild
  deriving DecidableEq

structure Token where
  kind : Kind
  val : Text
  deriving DecidableEq

def Token.eof : Token := ⟨.eof,[]⟩

/-- `letter`, of a character in lower case. -/
def isLetter (c : UInt8) : Bool :=
  code 'a' ≤ c ∧ c ≤ code 'z' ∨ c = code '#' ∨ c = code '%' ∨ c = code '^' ∨ c = code '_'

def isDigit (c : UInt8) : Bool := code '0' ≤ c ∧ c ≤ code '9'

def isSpecial (c : UInt8) : Bool := c ∈ text "$@!:?-/[]" ∨ c = 123 ∨ c = 125

def isWordChar (c : UInt8) : Bool := isLetter (lower c) ∨ isDigit c

/-- `char` -/
def isChar (c : UInt8) : Bool := isWordChar c ∨ isSpecial c

def isBlank (c : UInt8) : Bool := c = 32 ∨ c = 9 ∨ c = 10 ∨ c = 13

/-- The characters that `NextCh` reads: an isolated `'\r'` is replaced. -/
def readChars : Text → Text
  | [] => []
  | c::bytes => (if c = 13 ∧ bytes.head? ≠ some 10 then 10 else c) :: readChars bytes

/-- `Comment0` behind its opening; a comment that does not end ends with the file. -/
def skipComment : Text → Text
  | [] => []
  | c::chars =>
    if c = code '*' ∧ chars.head? = some (code '/') then chars.tail else skipComment chars

/-- Blanks and comments; each comment takes at least two characters. -/
def skip : Nat → Text → Text
  | 0, chars => chars
  | fuel + 1, chars =>
    match chars.dropWhile (isBlank ·) with
    | [] => []
    | c::rest =>
      if c = code '/' ∧ rest.head? = some (code '*') then skip fuel (skipComment rest.tail)
      else c::rest

/-- What a run of `char` is, by the character behind it. -/
def nameKind (word behind : Text) : Kind :=
  if behind.head? = some (code '.') then .dbName
  else if word.all (isWordChar ·) ∧ behind.head? = some (code '(') then .funcName
  else
    match keywordOf (word.map lower) with
    | some k => .word k
    | none => .name

def nameToken (c : UInt8) (chars : Text) : Token × Text :=
  let word := c :: chars.takeWhile (isChar ·)
  let behind := chars.dropWhile (isChar ·)
  (⟨nameKind word behind,word⟩,behind)

def numberToken (c : UInt8) (chars : Text) : Token × Text :=
  let digits := c :: chars.takeWhile (isDigit ·)
  let behind := chars.dropWhile (isDigit ·)
  if behind.head? = some (code '.') then
    let fraction := behind.tail.takeWhile (isDigit ·)
    (⟨if fraction = [] then .noSym else .number,digits ++ code '.' :: fraction⟩,
      behind.tail.dropWhile (isDigit ·))
  else (⟨.number,digits⟩,behind)

/-- A quoted string behind its opening quote: whether it is closed, its characters, and what is
behind them. -/
def quoted : Text → Bool × Text × Text
  | [] => (false,[],[])
  | c::chars =>
    if c = code '"' then (true,[c],chars)
    else if c = code '\\' then
      match chars with
      | [] => (false,[c],[])
      | d::rest =>
        if d = code '\\' ∨ d = code '"' then
          let (closed,taken,behind) := quoted rest
          (closed,c::d::taken,behind)
        else (false,[c],d::rest)
    else
      let (closed,taken,behind) := quoted chars
      (closed,c::taken,behind)

def stringToken (chars : Text) : Token × Text :=
  let (closed,taken,behind) := quoted chars
  (⟨if closed then .qstring else .noSym,code '"' :: taken⟩,behind)

def boundToken (c : UInt8) (alone withEq : Mark) (chars : Text) : Token × Text :=
  if chars.head? = some (code '=') then (⟨.mark withEq,[c,code '=']⟩,chars.tail)
  else (⟨.mark alone,[c]⟩,chars)

def markOf (c : UInt8) : Option Mark :=
  if c = code '.' then some .dot
  else if c = code ',' then some .comma
  else if c = code ';' then some .semicolon
  else if c = code '*' then some .star
  else if c = code '$' then some .dollar
  else if c = code '=' then some .eq
  else none

/-- `Scanner::NextToken` of what stands behind blanks. -/
def nextToken (c : UInt8) (chars : Text) : Token × Text :=
  if 128 ≤ c then (⟨.wild,[c]⟩,chars)
  else if isLetter (lower c) then nameToken c chars
  else if isDigit c then numberToken c chars
  else if c = code '"' then stringToken chars
  else if c = code '<' then boundToken c .lt .le chars
  else if c = code '>' then boundToken c .gt .ge chars
  else
    match markOf c with
    | some m => (⟨.mark m,[c]⟩,chars)
    | none => (⟨.noSym,[c]⟩,chars)

/-- The tokens in front of the end of file; each takes at least one character. -/
def scan : Nat → Text → List Token
  | 0, _ => []
  | fuel + 1, chars =>
    match skip chars.length chars with
    | [] => []
    | c::rest =>
      let (token,behind) := nextToken c rest
      token :: scan fuel behind

def tokens (bytes : Text) : List Token := scan bytes.length (readChars bytes)

/-- The scanner is given the whole buffer, with the zeros behind the query. -/
def sqlTokens (query : Text) : List Token :=
  tokens (query ++ List.replicate (sqlBufferLen - query.length) 0)

/-- `copy_token`: the string ends at a NUL. -/
def Token.copy (token : Token) : Text := cstring token.val

end ModNdb.NSql
