import ModNdb.Text
import ModNdb.Format.Scan

/-! `MySQL::result::out`: how a column value of each NDB type is printed. A value is
the bytes behind `aRef()`, or the contents buffer of a Blob or Text column;
integers are stored little-endian. -/
namespace ModNdb.MySQL
open Format (ReEsc)

inductive ColType
  | undefined | tinyint | tinyunsigned | smallint | smallunsigned | mediumint | mediumunsigned
  | int | unsigned | bigint | bigunsigned | float | double | olddecimal | olddecimalunsigned
  | decimal | decimalunsigned | char | varchar | binary | varbinary | datetime | date | blob
  | text | bit | longvarchar | longvarbinary | time | year | timestamp
  deriving DecidableEq

structure Column where
  name : Text
  type : ColType
  precision : Nat
  scale : Nat
  deriving DecidableEq

structure Value where
  isNull : Bool
  raw : Text
  deriving DecidableEq

/-- `%G` of a stored float or double, and `decimal2string` of a stored decimal of some
precision and scale. -/
structure Printers where
  float : Text → Text
  double : Text → Text
  decimal : Nat → Nat → Text → Text

def le : Text → Nat
  | [] => 0
  | b::bs => b.toNat + 256 * le bs

def unsignedOf (bytes : Nat) (raw : Text) : Nat := le (raw.take bytes)

def signedOf (bytes : Nat) (raw : Text) : Int := Int.bmod (unsignedOf bytes raw) (2^(8 * bytes))

def digits (n : Nat) : Text := (Nat.toDigits 10 n).map code

/-- `%0<width>d` -/
def padded (width : Nat) (i : Int) : Text :=
  let ds := digits i.natAbs
  let sign := if i < 0 then [code '-'] else []
  sign ++ (List.replicate (width - sign.length - ds.length) (code '0') ++ ds)

/-- `%d` -/
def decimalInt (i : Int) : Text := (if i < 0 then [code '-'] else []) ++ digits i.natAbs

structure Tm where
  neg : Bool
  year : Int
  month : Int
  day : Int
  hour : Int
  minute : Int
  second : Int

def Tm.zero : Tm := ⟨false,0,0,0,0,0,0⟩

/-- An `int` after arithmetic that may have left its range. -/
def toInt32 (i : Int) : Int := Int.bmod i (2^32)

def factorHHMMSS (tm : Tm) (intTime : Int) : Tm :=
  let t := if intTime < 0 then toInt32 (-intTime) else intTime
  {tm with
    neg := if intTime < 0 then true else tm.neg,
    hour := t.tdiv 10000, minute := (t.tdiv 100).tmod 100, second := t.tmod 100}

def factorYYYYMMDD (tm : Tm) (intDate : Int) : Tm :=
  {tm with
    year := (intDate.tdiv 10000).tmod 10000, month := (intDate.tdiv 100).tmod 100,
    day := intDate.tmod 100}

/-- `field_to_tm`; -99 and -1 mark a part that was not read. -/
def fieldToTm (type : ColType) (raw : Text) : Tm :=
  match type with
  | .datetime =>
    let datetime := unsignedOf 8 raw
    let intDate := toInt32 (datetime / 1000000 : Nat)
    let intTime := toInt32 (datetime - intDate * 1000000)
    let tm := if intTime ≠ -99 then factorHHMMSS .zero intTime else .zero
    if intDate ≠ -1 then factorYYYYMMDD tm intDate else tm
  | .time =>
    let intTime := signedOf 3 raw
    if intTime ≠ -99 then factorHHMMSS .zero intTime else .zero
  | .date =>
    let intDate := unsignedOf 3 raw
    {Tm.zero with
      day := (intDate % 32 : Nat), month := (intDate / 32 % 16 : Nat),
      year := (intDate / 512 : Nat)}
  | _ => .zero

/-- `flip64`, which `ndbapi_bit_flip` is on a 64-bit machine. -/
def flip64 (i : Nat) : Nat := i / 2^32 + i % 2^32 * 2^32

/-- The bytes of a string column: behind its length bytes, without NULs at the end. -/
def stringBytes (lengthBytes : Nat) (raw : Text) : Text :=
  let ref := raw.drop lengthBytes
  let sized := if lengthBytes = 0 then ref else ref.take (unsignedOf lengthBytes raw)
  sized.rdropWhile (· = 0)

def hexDigit (n : Nat) : UInt8 := if n < 10 then UInt8.ofNat (48 + n) else UInt8.ofNat (87 + n)

/-- `escape_leaning_toothpicks` -/
def jsonEscape (c : UInt8) : Option Text :=
  if c = 92 then some (text "\\\\")
  else if c = 34 then some (text "\\\"")
  else if c = 8 then some (text "\\b")
  else if c = 12 then some (text "\\f")
  else if c = 10 then some (text "\\n")
  else if c = 13 then some (text "\\r")
  else if c = 9 then some (text "\\t")
  else if c < 32 then some (text "\\u00" ++ [hexDigit (c.toNat / 16),hexDigit (c.toNat % 16)])
  else none

/-- `escape_xml_entities` -/
def xmlEscape (c : UInt8) : Option Text :=
  if c = code '<' then some (text "&lt;")
  else if c = code '>' then some (text "&gt;")
  else if c = code '&' then some (text "&amp;")
  else if c = code '"' then some (text "&quot;")
  else none

/-- `get_escapes` -/
def getEscapes : ReEsc → Option (UInt8 → Option Text)
  | .noEsc => none
  | .escXml => some xmlEscape
  | .escJson => some jsonEscape
  | .escXmljson => some fun c => (xmlEscape c).or (jsonEscape c)

/-- The copying pass of `escape_string`. -/
def escapeString (escapes : UInt8 → Option Text) (ref : Text) : Text :=
  ref.flatMap fun c => (escapes c).getD [c]

/-- The sizing pass of `escape_string` indexes the table with a signed character: from
128 on it reads in front of the table. -/
def sizingReadsOutside (ref : Text) : Bool := ref.any (128 ≤ ·)

/-- What is printed, and whether a table was read outside its bounds for it. -/
structure Printed where
  bytes : Text
  outside : Bool
  deriving DecidableEq

def plain (bytes : Text) : Printed := ⟨bytes,false⟩

def printString (escapes : Option (UInt8 → Option Text)) (ref : Text) : Printed :=
  match escapes with
  | none => plain ref
  | some table => ⟨escapeString table ref,sizingReadsOutside ref⟩

/-- `MySQL::result::out` -/
def out (printers : Printers) (col : Column) (raw : Text)
    (escapes : Option (UInt8 → Option Text)) : Printed :=
  let tm := fieldToTm col.type raw
  match col.type with
  | .int => plain (decimalInt (signedOf 4 raw))
  | .unsigned | .timestamp => plain (digits (unsignedOf 4 raw))
  | .varchar | .varbinary => printString escapes (stringBytes 1 raw)
  | .char | .binary => printString escapes (stringBytes 0 raw)
  | .longvarchar | .longvarbinary => printString escapes (stringBytes 2 raw)
  | .float => plain (printers.float raw)
  | .double => plain (printers.double raw)
  | .date => plain (padded 4 tm.year ++ [code '-'] ++ padded 2 tm.month ++ [code '-'] ++
      padded 2 tm.day)
  | .time => plain ((if tm.neg then [code '-'] else []) ++ padded 2 tm.hour ++ [code ':'] ++
      padded 2 tm.minute ++ [code ':'] ++ padded 2 tm.second)
  | .bigunsigned => plain (digits (unsignedOf 8 raw))
  | .bit => plain (digits (flip64 (unsignedOf 8 raw)))
  | .smallunsigned => plain (digits (unsignedOf 2 raw))
  | .tinyunsigned => plain (digits (unsignedOf 1 raw))
  | .bigint => plain (decimalInt (signedOf 8 raw))
  | .smallint => plain (decimalInt (signedOf 2 raw))
  | .tinyint => plain (decimalInt (signedOf 1 raw))
  | .mediumint => plain (decimalInt (signedOf 3 raw))
  | .mediumunsigned => plain (decimalInt (unsignedOf 3 raw))
  | .year => plain (padded 4 (1900 + unsignedOf 1 raw))
  | .datetime => plain (padded 4 tm.year ++ [code '-'] ++ padded 2 tm.month ++ [code '-'] ++
      padded 2 tm.day ++ [code ' '] ++ padded 2 tm.hour ++ [code ':'] ++ padded 2 tm.minute ++
      [code ':'] ++ padded 2 tm.second)
  | .decimal | .decimalunsigned => plain (printers.decimal col.precision col.scale raw)
  | .text => printString escapes raw
  | .blob => plain (if escapes.isSome then text "++ CANNOT ESCAPE BLOB ++" else raw)
  | .olddecimal | .olddecimalunsigned | .undefined => plain []

end ModNdb.MySQL
