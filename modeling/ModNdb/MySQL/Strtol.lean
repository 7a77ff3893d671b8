import ModNdb.MySQL.Result

/-! The C library's readers of numbers, on a 64-bit machine: white space, a sign, digits.
Base 0 takes the base from the spelling. -/
namespace ModNdb.MySQL

def isSpace (c : UInt8) : Bool := c = 32 ∨ 9 ≤ c ∧ c ≤ 13

def isDigit (c : UInt8) : Bool := code '0' ≤ c ∧ c ≤ code '9'

def digitValue? (c : UInt8) : Option Nat :=
  if code '0' ≤ c ∧ c ≤ code '9' then some (c.toNat - 48)
  else if code 'A' ≤ c ∧ c ≤ code 'Z' then some (c.toNat - 55)
  else if code 'a' ≤ c ∧ c ≤ code 'z' then some (c.toNat - 87)
  else none

def digitOf? (base : Nat) (c : UInt8) : Option Nat := (digitValue? c).filter (· < base)

/-- The digits at the start, read after what has been read as `n`. -/
def readDigits (base : Nat) : Nat → Text → Nat
  | n, [] => n
  | n, c::s =>
    match digitOf? base c with
    | none => n
    | some d => readDigits base (n * base + d) s

/-- The base a spelling has, and its digits. `0x` counts only in front of a digit. -/
def spelledBase (s : Text) : Nat × Text :=
  match s with
  | z::x::d::rest =>
    if z = code '0' then
      if (x = code 'x' ∨ x = code 'X') ∧ (digitOf? 16 d).isSome then (16,d::rest) else (8,s)
    else (10,s)
  | z::_ => if z = code '0' then (8,s) else (10,s)
  | [] => (10,s)

def readSign (s : Text) : Bool × Text :=
  match s with
  | [] => (false,[])
  | c::rest =>
    if c = code '-' then (true,rest) else if c = code '+' then (false,rest) else (false,s)

def readNumber (base : Nat) (s : Text) : Bool × Nat :=
  let (neg,s) := readSign (s.dropWhile isSpace)
  let (base,s) := if base = 0 then spelledBase s else (base,s)
  (neg,readDigits base 0 s)

/-- `strtol` and `strtoll`: a number out of range becomes the bound it has passed. -/
def strtol (base : Nat) (s : Text) : Int :=
  let (neg,n) := readNumber base s
  if neg then max (-2^63) (-n) else min (2^63 - 1) n

/-- `strtoul` and `strtoull`: a negative number is negated as an unsigned one. -/
def strtoul (base : Nat) (s : Text) : Nat :=
  let (neg,n) := readNumber base s
  if 2^64 ≤ n then 2^64 - 1 else if neg then (2^64 - n) % 2^64 else n

/-- `atoi` -/
def atoi (s : Text) : Int := toInt32 (strtol 10 s)

end ModNdb.MySQL
