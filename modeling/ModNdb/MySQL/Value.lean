import ModNdb.MySQL.Strtol

/-! `mvalue`, an encoded value on its way to NDB, and how it is encoded (MySQL_value.h,
MySQL_value.cc). `value` writes into an `mvalue` that may hold an earlier one. -/
namespace ModNdb.MySQL

/-- `NdbDictionary::Column`, where a query looks at it. -/
structure DictColumn where
  name : Text
  no : Nat
  type : ColType
  length : Nat
  precision : Nat
  scale : Nat
  nullable : Bool
  deriving DecidableEq

inductive MvalueUse
  | errBadUserValue | errBadDataType | errBadColumn | mustUseBinary | mvalueIsGood | useChar
  | useSigned | useUnsigned | use64 | useUnsigned64 | useFloat | useDouble | useInterpreted
  | useNull | useAutoinc | useBlob
  deriving DecidableEq

inductive MvalueInterpreted | notInterpreted | isIncrement | isDecrement
  deriving DecidableEq

/-- A block from the pool: its size, its bytes, and how far from its start it was written. -/
structure Block where
  size : Nat
  bytes : Text
  reach : Nat
  deriving DecidableEq

/-- The union `u` is its eight bytes; `target` is what `val_char` points at when a pointer
was stored in it last. -/
structure Mvalue where
  column : Option DictColumn
  u : Text
  target : Block
  len : Nat
  binaryInfo : Option Text
  colLen : Nat
  useValue : MvalueUse
  interpreted : MvalueInterpreted
  overflow : Bool
  deriving DecidableEq

/-- An `mvalue` of zeros, as `ap_pcalloc` makes them. -/
def Mvalue.zero : Mvalue :=
  ⟨none,List.replicate 8 0,⟨0,[],0⟩,0,none,0,.errBadUserValue,.notInterpreted,false⟩

/-- `use_value > mvalue_is_good` -/
def MvalueUse.isGood : MvalueUse → Bool
  | .errBadUserValue | .errBadDataType | .errBadColumn | .mustUseBinary | .mvalueIsGood => false
  | _ => true

/-- What encoding takes from outside: the clock, the bytes of a pointer to a new block and
of the memory in it, the readers of floating numbers, and `string2decimal` followed by
`decimal2bin`. -/
structure Surroundings where
  now : Text
  address : Text
  fresh : Nat → UInt8
  atof : Text → Text
  strtod : Text → Text
  decimal : Nat → Nat → Text → Text

def leBytes : Nat → Nat → Text
  | 0, _ => []
  | n + 1, i => UInt8.ofNat i :: leBytes n (i / 256)

/-- A store to a member of the union, which leaves the bytes behind it. -/
def Mvalue.store (bytes : Text) (m : Mvalue) : Mvalue := {m with u := bytes ++ m.u.drop bytes.length}

def Mvalue.storeInt (n : Nat) (i : Int) (m : Mvalue) : Mvalue :=
  m.store (leBytes n (i % 2^(8 * n)).toNat)

def Mvalue.point (out : Surroundings) (block : Block) (m : Mvalue) : Mvalue :=
  {m.store out.address with target := block}

/-- `use_null`, with `u.val_64 = 0` -/
def Mvalue.setNull (m : Mvalue) : Mvalue := {m.storeInt 8 0 with useValue := .useNull}

def isCharCol : ColType → Bool
  | .varchar | .longvarchar | .char => true
  | _ => false

def isDateCol : ColType → Bool
  | .time | .date | .datetime => true
  | _ => false

/-- `ap_cpystrn` -/
def cpystrn (src : Text) (size : Nat) : Text := src.take (size - 1) ++ [0]

/-- The lengths are kept in an `unsigned char`, an `unsigned short` and an `unsigned int`. -/
def charValue (out : Surroundings) (m : Mvalue) (col : DictColumn) (val : Text) : Mvalue :=
  match col.type with
  | .varchar =>
    let strlen := val.length % 2^8
    let len := if col.length < strlen then col.length % 2^8 else strlen
    {m.point out ⟨len + 2,UInt8.ofNat len :: cpystrn val (len + 1),len + 2⟩ with
      len := strlen, useValue := .useChar, colLen := col.length + 1}
  | .longvarchar =>
    let strlen := val.length % 2^16
    let len := if col.length < strlen then col.length % 2^16 else strlen
    {m.point out
      ⟨len + 3,UInt8.ofNat len :: UInt8.ofNat (len / 256) :: cpystrn val (len + 1),len + 3⟩ with
      len := strlen, useValue := .useChar, colLen := col.length + 2}
  | _ =>
    let strlen := val.length % 2^32
    let len := if col.length < strlen then col.length else strlen
    let padded := val.take len ++ List.replicate (col.length - len) 32 ++ [0]
    {m.point out ⟨col.length + 1,padded,max (val.length + 1) (col.length + 1)⟩ with
      len := strlen, useValue := .useChar, colLen := col.length}

/-- The sign and the digits among the next 62 characters. -/
def dateDigits (val : Text) : Text :=
  match val with
  | [] => []
  | c::rest =>
    if c = code '-' ∨ c = code '+' then c :: (rest.take 62).filter isDigit
    else (val.take 62).filter isDigit

/-- Years, months and days are put together as unsigned numbers. -/
def packDate (yymmdd : Int) : Nat :=
  let year := UInt32.ofInt ((yymmdd.tdiv 10000).tmod 10000)
  let month := UInt32.ofInt ((yymmdd.tdiv 100).tmod 100)
  let day := UInt32.ofInt (yymmdd.tmod 100)
  (year <<< 9 ||| month <<< 5 ||| day).toNat

def dateValue (m : Mvalue) (col : DictColumn) (val : Text) : Mvalue :=
  let buf := dateDigits val
  match col.type with
  | .datetime => {m.storeInt 8 (strtoul 10 buf) with useValue := .useUnsigned64}
  | .time => {m.storeInt 3 (toInt32 (strtol 10 buf)) with useValue := .useSigned}
  | _ => {m.storeInt 3 (packDate (toInt32 (strtol 10 buf))) with useValue := .useSigned}

/-- The dynamic values; the increments and `@autoinc` leave the union as it is. -/
def dynamicValue (out : Surroundings) (m : Mvalue) (type : ColType) (val : Text) : Option Mvalue :=
  if val = text "@null" then some m.setNull
  else if val = text "@++" then
    some {m with useValue := .useInterpreted, interpreted := .isIncrement}
  else if val = text "@--" then
    some {m with useValue := .useInterpreted, interpreted := .isDecrement}
  else if val = text "@time" then some {m.store out.now with useValue := .useUnsigned}
  else if val = text "@autoinc" then
    some {m with
      useValue := .useAutoinc, len := if type = .bigint ∨ type = .bigunsigned then 8 else 4}
  else none

/-- A number that MySQL would keep in its range. -/
def clamped (use : MvalueUse) (bytes : Nat) (low high : Int) (val : Text) (m : Mvalue) : Mvalue :=
  let auxInt := toInt32 (strtol 0 val)
  if auxInt < low then {m.storeInt bytes low with useValue := use, overflow := true}
  else if high < auxInt then {m.storeInt bytes high with useValue := use, overflow := true}
  else {m.storeInt bytes auxInt with useValue := use}

def numericValue (out : Surroundings) (m : Mvalue) (col : DictColumn) (val : Text) : Mvalue :=
  match col.type with
  | .int => {m.storeInt 4 (atoi val) with useValue := .useSigned}
  | .unsigned | .timestamp => {m.storeInt 4 (strtoul 0 val) with useValue := .useUnsigned}
  | .float => {m.store (out.atof val) with useValue := .useFloat}
  | .double => {m.store (out.strtod val) with useValue := .useDouble}
  | .bigint => {m.storeInt 8 (strtol 0 val) with useValue := .use64}
  | .bigunsigned => {m.storeInt 8 (strtoul 0 val) with useValue := .useUnsigned64}
  | .bit => {m.storeInt 8 (flip64 (strtoul 0 val)) with useValue := .useUnsigned64}
  | .tinyint => clamped .useSigned 1 (-128) 127 val m
  | .tinyunsigned => clamped .useUnsigned 1 0 255 val m
  | .smallint => clamped .useSigned 2 (-32768) 32767 val m
  | .smallunsigned => clamped .useUnsigned 2 0 65535 val m
  | .mediumint => clamped .useSigned 3 (-8388608) 8388607 val m
  | .mediumunsigned => clamped .useUnsigned 3 0 16777215 val m
  | .year => {m.storeInt 1 (toInt32 (strtol 0 val - 1900)) with useValue := .useUnsigned}
  | .decimal | .decimalunsigned =>
    {m.point out ⟨32,out.decimal col.precision col.scale val,32⟩ with
      useValue := .useChar, colLen := 0}
  | .text | .blob | .longvarbinary | .varbinary | .binary => {m with useValue := .mustUseBinary}
  | _ => {m with useValue := .errBadDataType}

/-- `MySQL::value` of a string that ends at its first NUL, or of a null pointer. -/
def value (out : Surroundings) (m : Mvalue) (col : Option DictColumn) (val : Option Text) : Mvalue :=
  match col, val with
  | none, _ => {m with useValue := .errBadColumn}
  | some col, none =>
    let m := {m with column := some col}
    if isCharCol col.type ∨ isDateCol col.type then m.setNull
    else {m with useValue := .errBadUserValue}
  | some col, some val =>
    let m := {m with column := some col}
    let val := cstring val
    if isCharCol col.type then charValue out m col val
    else if isDateCol col.type then dateValue m col val
    else (dynamicValue out m col.type val).getD (numericValue out m col val)

def Surroundings.block (out : Surroundings) (size : Nat) (written : Text) : Block :=
  let rest := (List.range (size - written.length)).map fun i => out.fresh (written.length + i)
  ⟨size,written ++ rest,written.length⟩

/-- `MySQL::binary_value` -/
def binaryValue (out : Surroundings) (m : Mvalue) (col : DictColumn) (val : Text) : Mvalue :=
  let len := if val.length < col.length then val.length else col.length
  let m := {m with colLen := col.length, len := len}
  match col.type with
  | .text | .blob => {m with useValue := .useBlob, binaryInfo := some val}
  | .binary =>
    let bytes := val.take len ++ List.replicate (col.length - len) 0
    {m.point out ⟨col.length,bytes,len⟩ with useValue := .useChar}
  | .varbinary =>
    {m.point out (out.block (len + 1) (UInt8.ofNat len :: val.take len)) with
      useValue := .useChar, colLen := col.length + 1}
  | .longvarbinary =>
    let sLen := len % 2^16
    let written := UInt8.ofNat sLen :: UInt8.ofNat (sLen / 256) :: cpystrn (cstring val) (sLen + 1)
    {m.point out (out.block (sLen + 2) written) with useValue := .useChar, colLen := col.length + 2}
  | _ => {m with useValue := .errBadDataType}

end ModNdb.MySQL
