import ModNdb.Text

/-! The scanner that Coco makes of JSON.atg (Scanner.frame): characters are read from a
buffer, which a byte order mark turns into a UTF-8 buffer, and followed through the states
of the tokens as long as there is a transition. `'\r'` and `'\n'` are not told apart. -/
namespace ModNdb.JSON

/-- `Buffer::EoF` -/
def eof : Nat := 65536

/-- `Buffer::Read` -/
def bufferRead : Text → Nat × Text
  | [] => (eof,[])
  | b::bytes => (b.toNat,bytes)

/-- `UTF8Buffer::Read`. It looks for the first byte of a character, and takes the bytes
behind it as they come. -/
def utf8Read : Text → Nat × Text
  | [] => (eof,[])
  | b::bytes =>
    if b < 128 then (b.toNat,bytes)
    else if b < 192 then utf8Read bytes
    else
      let (c2,bytes) := bufferRead bytes
      if b < 224 then ((b.toNat &&& 0x1F) <<< 6 ||| (c2 &&& 0x3F),bytes)
      else
        let (c3,bytes) := bufferRead bytes
        if b < 240 then
          (((b.toNat &&& 0x0F) <<< 6 ||| (c2 &&& 0x3F)) <<< 6 ||| (c3 &&& 0x3F),bytes)
        else
          let (c4,bytes) := bufferRead bytes
          ((((b.toNat &&& 0x07) <<< 6 ||| (c2 &&& 0x3F)) <<< 6 ||| (c3 &&& 0x3F)) <<< 6 |||
            (c4 &&& 0x3F),bytes)

/-- The characters up to the first that is `EoF`; each takes at least one byte. -/
def utf8Chars : Nat → Text → List Nat
  | 0, _ => []
  | fuel + 1, bytes =>
    let (ch,rest) := utf8Read bytes
    if ch = eof then [] else ch :: utf8Chars fuel rest

/-- `Scanner::Init`: the characters of a body. An incomplete byte order mark ends the
process. -/
def scannerInit (body : Text) : Option (List Nat) :=
  match body with
  | 0xEF::0xBB::0xBF::rest => some (utf8Chars rest.length rest)
  | 0xEF::_ => none
  | _ => some (body.map UInt8.toNat)

inductive Kind
  | eof | string | number | openBrace | closeBrace | openBracket | closeBracket | colon | comma
  | true | false | null | noSym
  deriving DecidableEq

structure Token where
  kind : Kind
  val : List Nat
  deriving DecidableEq

def Token.eof : Token := ⟨.eof,[]⟩

/-- Where a token stands; `word` has the rest of a keyword in front of it. -/
inductive State
  | other | string | escape | hex (left : Nat) | stringEnd | minus | zero | integer | point
  | fraction | exponent | sign | power | word (left : List Nat) (kind : Kind) | mark (kind : Kind)
  deriving DecidableEq

def isDec (c : Nat) : Bool := 48 ≤ c ∧ c ≤ 57

def isHex (c : Nat) : Bool := isDec c ∨ 65 ≤ c ∧ c ≤ 70 ∨ 97 ≤ c ∧ c ≤ 102

def isBlank (c : Nat) : Bool := c = 32 ∨ c = 13 ∨ c = 9 ∨ c = 10

/-- `char = ANY - control - bslash - quote` -/
def isChar (c : Nat) : Bool := 32 ≤ c ∧ c < eof ∧ c ≠ 92 ∧ c ≠ 34

/-- `escapecode = quote + bslash + "/bfnrt"` -/
def isEscapeCode (c : Nat) : Bool :=
  c = 34 ∨ c = 92 ∨ c = 47 ∨ c = 98 ∨ c = 102 ∨ c = 110 ∨ c = 114 ∨ c = 116

def letters (s : String) : List Nat := (text s).map UInt8.toNat

def State.start (c : Nat) : State :=
  if c = 34 then .string
  else if c = 45 then .minus
  else if c = 48 then .zero
  else if isDec c then .integer
  else if c = 123 then .mark .openBrace
  else if c = 125 then .mark .closeBrace
  else if c = 91 then .mark .openBracket
  else if c = 93 then .mark .closeBracket
  else if c = 58 then .mark .colon
  else if c = 44 then .mark .comma
  else if c = 116 then .word (letters "rue") .true
  else if c = 102 then .word (letters "alse") .false
  else if c = 110 then .word (letters "ull") .null
  else .other

def State.exponentFrom (c : Nat) : Option State := if c = 101 ∨ c = 69 then some .exponent else none

def State.step : State → Nat → Option State
  | .string, c =>
    if isChar c then some .string
    else if c = 92 then some .escape
    else if c = 34 then some .stringEnd
    else none
  | .escape, c =>
    if isEscapeCode c then some .string else if c = 117 then some (.hex 3) else none
  | .hex left, c =>
    if isHex c then some (if left = 0 then .string else .hex (left - 1)) else none
  | .minus, c => if c = 48 then some .zero else if isDec c then some .integer else none
  | .zero, c => if c = 46 then some .point else exponentFrom c
  | .integer, c =>
    if isDec c then some .integer else if c = 46 then some .point else exponentFrom c
  | .point, c => if isDec c then some .fraction else none
  | .fraction, c => if isDec c then some .fraction else exponentFrom c
  | .exponent, c =>
    if c = 43 ∨ c = 45 then some .sign else if isDec c then some .power else none
  | .sign, c => if isDec c then some .power else none
  | .power, c => if isDec c then some .power else none
  | .word (next::left) kind, c => if c = next then some (.word left kind) else none
  | _, _ => none

def State.kind : State → Kind
  | .stringEnd => .string
  | .zero | .integer | .fraction | .power => .number
  | .word [] kind => kind
  | .mark kind => kind
  | _ => .noSym

/-- The state and the characters a token goes on with, and the characters behind it. -/
def State.follow : State → List Nat → State × List Nat × List Nat
  | s, [] => (s,[],[])
  | s, c::chars =>
    match s.step c with
    | none => (s,[],c::chars)
    | some next =>
      let (last,taken,rest) := next.follow chars
      (last,c::taken,rest)

/-- `Scanner::NextToken` of what stands behind blanks. -/
def nextToken (c : Nat) (chars : List Nat) : Token × List Nat :=
  let (last,taken,rest) := (State.start c).follow chars
  (⟨last.kind,c::taken⟩,rest)

/-- The tokens in front of the end of file; each takes at least one character. -/
def scan : Nat → List Nat → List Token
  | 0, _ => []
  | fuel + 1, chars =>
    match chars.dropWhile (isBlank ·) with
    | [] => []
    | c::rest =>
      let (token,rest) := nextToken c rest
      token :: scan fuel rest

def tokens (chars : List Nat) : List Token := scan chars.length chars

/-- Whether `Scanner::AppendVal` finds room: `(tlen + 1) * sizeof(wchar_t)` is compared
with `HEAP_BLOCK_SIZE`. -/
def Token.fits (token : Token) : Bool := (token.val.length + 1) * 4 ≤ 64 * 1024

end ModNdb.JSON
