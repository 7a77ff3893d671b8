import ModNdb.MySQL.Numbers
import ModNdb.MySQL.Usable

/-! Columns of integers, under both sets of definitions that the code is compiled with: what
is printed of a stored integer is stored as the same, and what comes of numbers that are too
large for a column. -/
namespace ModNdb.MySQL

/-- `__i386__`, where a `long` has 32 bits, and other machines. -/
inductive Platform | i386 | other
  deriving DecidableEq

namespace Platform

def longBits : Platform → Nat
  | .i386 => 32
  | .other => 64

def strtol (p : Platform) (base : Nat) (s : Text) : Int :=
  let (neg,n) := readNumber base s
  if neg then max (-2^(p.longBits - 1)) (-n) else min (2^(p.longBits - 1) - 1) n

def strtoul (p : Platform) (base : Nat) (s : Text) : Nat :=
  let (neg,n) := readNumber base s
  if 2^p.longBits ≤ n then 2^p.longBits - 1
  else if neg then (2^p.longBits - n) % 2^p.longBits
  else n

/-- `store24` stores three bytes, or an `int`. -/
def store24 (p : Platform) (i : Int) (m : Mvalue) : Mvalue :=
  match p with
  | .i386 => m.storeInt 4 i
  | .other => m.storeInt 3 i

/-- `ndbapi_bit_flip` -/
def bitFlip (p : Platform) (n : Nat) : Nat :=
  match p with
  | .i386 => n
  | .other => flip64 n

def clamped (p : Platform) (use : MvalueUse) (store : Int → Mvalue → Mvalue) (low high : Int)
    (val : Text) (m : Mvalue) : Mvalue :=
  let auxInt := toInt32 (p.strtol 0 val)
  if auxInt < low then {store low m with useValue := use, overflow := true}
  else if high < auxInt then {store high m with useValue := use, overflow := true}
  else {store auxInt m with useValue := use}

def dateValue (p : Platform) (m : Mvalue) (col : DictColumn) (val : Text) : Mvalue :=
  let buf := dateDigits val
  match col.type with
  | .datetime => {m.storeInt 8 (MySQL.strtoul 10 buf) with useValue := .useUnsigned64}
  | .time => {p.store24 (toInt32 (p.strtol 10 buf)) m with useValue := .useSigned}
  | _ => {p.store24 (packDate (toInt32 (p.strtol 10 buf))) m with useValue := .useSigned}

/-- A `long long` has 64 bits on every machine. -/
def numericValue (p : Platform) (out : Surroundings) (m : Mvalue) (col : DictColumn) (val : Text) :
    Mvalue :=
  match col.type with
  | .int => {m.storeInt 4 (toInt32 (p.strtol 10 val)) with useValue := .useSigned}
  | .unsigned | .timestamp => {m.storeInt 4 (p.strtoul 0 val) with useValue := .useUnsigned}
  | .bigint => {m.storeInt 8 (MySQL.strtol 0 val) with useValue := .use64}
  | .bigunsigned => {m.storeInt 8 (MySQL.strtoul 0 val) with useValue := .useUnsigned64}
  | .bit => {m.storeInt 8 (p.bitFlip (MySQL.strtoul 0 val)) with useValue := .useUnsigned64}
  | .tinyint => p.clamped .useSigned (Mvalue.storeInt 1) (-128) 127 val m
  | .tinyunsigned => p.clamped .useUnsigned (Mvalue.storeInt 1) 0 255 val m
  | .smallint => p.clamped .useSigned (Mvalue.storeInt 2) (-32768) 32767 val m
  | .smallunsigned => p.clamped .useUnsigned (Mvalue.storeInt 2) 0 65535 val m
  | .mediumint => p.clamped .useSigned p.store24 (-8388608) 8388607 val m
  | .mediumunsigned => p.clamped .useUnsigned p.store24 0 16777215 val m
  | .year => {m.storeInt 1 (toInt32 (p.strtol 0 val - 1900)) with useValue := .useUnsigned}
  | _ => MySQL.numericValue out m col val

def value (p : Platform) (out : Surroundings) (m : Mvalue) (col : Option DictColumn)
    (val : Option Text) : Mvalue :=
  match col, val with
  | some col, some val =>
    let m := {m with column := some col}
    let val := cstring val
    if isCharCol col.type then charValue out m col val
    else if isDateCol col.type then p.dateValue m col val
    else (dynamicValue out m col.type val).getD (p.numericValue out m col val)
  | col, val => MySQL.value out m col val

def out (p : Platform) (printers : Printers) (col : Column) (raw : Text)
    (escapes : Option (UInt8 → Option Text)) : Printed :=
  if col.type = .bit then plain (digits (p.bitFlip (unsignedOf 8 raw)))
  else MySQL.out printers col raw escapes

theorem numericValue_other (out : Surroundings) (m : Mvalue) (col : DictColumn) (val : Text) :
    numericValue .other out m col val = MySQL.numericValue out m col val := by
  unfold numericValue MySQL.numericValue
  cases col.type <;> rfl

/-- Other machines than `__i386__` are the ones the rest is about. -/
theorem value_other (out : Surroundings) (m : Mvalue) (col : Option DictColumn) (val : Option Text) :
    value .other out m col val = MySQL.value out m col val := by
  cases col with
  | none => rfl
  | some col =>
    cases val with
    | none => rfl
    | some val =>
      unfold value MySQL.value
      dsimp only
      rw [numericValue_other]
      rfl

theorem out_other (printers : Printers) (col : Column) (raw : Text)
    (escapes : Option (UInt8 → Option Text)) :
    out .other printers col raw escapes = MySQL.out printers col raw escapes := by
  unfold out MySQL.out
  split
  · rename_i bit
    rw [bit]
    rfl
  · rfl

/-- A number that is not too large for an `int` is read as it is, on both machines. -/
theorem strtol_small (p : Platform) (base : Nat) (plain : base = 0 ∨ base = 10) (i : Int)
    (low : -2^31 ≤ i) (high : i < 2^31) : p.strtol base (decimalInt i) = i := by
  unfold strtol
  rw [readNumber_decimalInt base plain]
  cases p with
  | i386 =>
    by_cases negative : i < 0
    · rw [decide_eq_true negative]
      change max (-2^31) (-(i.natAbs : Int)) = i
      omega
    · rw [decide_eq_false negative]
      change min (2^31 - 1) (i.natAbs : Int) = i
      omega
  | other =>
    by_cases negative : i < 0
    · rw [decide_eq_true negative]
      change max (-2^63) (-(i.natAbs : Int)) = i
      omega
    · rw [decide_eq_false negative]
      change min (2^63 - 1) (i.natAbs : Int) = i
      omega

theorem strtoul_small (p : Platform) (n : Nat) (small : n < 2^32) :
    p.strtoul 0 (digits n) = n := by
  unfold strtoul
  rw [readNumber_printed]
  cases p with
  | i386 => exact if_neg (Nat.not_le.mpr small)
  | other => exact if_neg (by change ¬2^64 ≤ n; omega)

end Platform

theorem decimalInt_natCast (n : Nat) : decimalInt n = digits n := rfl

theorem toInt32_small (i : Int) (low : -2^31 ≤ i) (high : i < 2^31) : toInt32 i = i := by
  unfold toInt32
  rw [Int.bmod_def]
  split <;> omega

theorem leBytes_take (w k n : Nat) (fits : w ≤ k) : (leBytes k n).take w = leBytes w n := by
  induction w generalizing k n with
  | zero => rfl
  | succ w ih =>
    cases k with
    | zero => omega
    | succ k =>
      unfold leBytes
      rw [List.take_succ_cons,ih k (n / 256) (by omega)]

theorem leBytes_mod (w n : Nat) : leBytes w (n % 2^(8 * w)) = leBytes w n := by
  induction w generalizing n with
  | zero => rfl
  | succ w ih =>
    have wide : 2^(8 * (w + 1)) = 256 * 2^(8 * w) := by rw [Nat.mul_succ,Nat.pow_add,Nat.mul_comm]
    unfold leBytes
    rw [wide]
    congr 1
    · apply UInt8.toNat_inj.mp
      rw [UInt8.toNat_ofNat',UInt8.toNat_ofNat']
      exact Nat.mod_mul_right_mod n 256 _
    · rw [Nat.mod_mul_right_div_self,ih]

/-- A wider store leaves the same bytes at the start. -/
theorem storeInt_take_le (w k : Nat) (fits : w ≤ k) (i : Int) (m : Mvalue) :
    (m.storeInt k i).u.take w = leBytes w (i % 2^(8 * w)).toNat := by
  have wide : (m.storeInt k i).u = leBytes k (i % 2^(8 * k)).toNat ++ m.u.drop k := by
    unfold Mvalue.storeInt Mvalue.store
    rw [leBytes_length]
  rw [wide,List.take_append_of_le_length (by rwa [leBytes_length]),leBytes_take w k _ fits,
    ← leBytes_mod]
  congr 1
  have divides : (2^(8 * w) : Int) ∣ 2^(8 * k) := pow_dvd_pow 2 (Nat.mul_le_mul_left 8 fits)
  have positive (b : Nat) : 0 ≤ i % 2^b := Int.emod_nonneg i (pow_ne_zero b two_ne_zero)
  apply Int.natCast_inj.mp
  rw [Int.natCast_mod,Int.toNat_of_nonneg (positive _),Int.toNat_of_nonneg (positive _)]
  exact_mod_cast Int.emod_emod_of_dvd i divides

def intBytes : ColType → Option Nat
  | .tinyint | .tinyunsigned => some 1
  | .smallint | .smallunsigned => some 2
  | .mediumint | .mediumunsigned => some 3
  | .int | .unsigned | .timestamp => some 4
  | .bigint | .bigunsigned | .bit => some 8
  | _ => none

theorem decimalInt_head (i : Int) : (decimalInt i).head? ≠ some (code '@') := by
  unfold decimalInt
  by_cases negative : i < 0
  · rw [if_pos negative]
    exact fun same => absurd (Option.some.inj same) (by decide)
  · rw [if_neg negative,List.nil_append]
    intro same
    have digit := digits_all i.natAbs _ (List.mem_of_mem_head? same)
    exact absurd digit (by decide)

theorem decimalInt_nulFree (i : Int) : 0 ∉ decimalInt i := by
  unfold decimalInt
  rw [List.mem_append,not_or]
  constructor
  · split <;> decide
  · intro inside
    exact absurd (digits_all i.natAbs 0 inside) (by decide)

theorem dynamicValue_number (out : Surroundings) (m : Mvalue) (type : ColType) (i : Int) :
    dynamicValue out m type (decimalInt i) = none := by
  apply (dynamicValue_eq_none_iff out m type _).mpr
  intro dynamic
  have first := decimalInt_head i
  simp only [dynamicTexts,List.mem_cons,List.not_mem_nil,or_false] at dynamic
  rcases dynamic with same | same | same | same | same <;>
    exact first (by rw [same]; rfl)

theorem Platform.value_number (p : Platform) (out : Surroundings) (m : Mvalue) (col : DictColumn)
    (i : Int) (char : isCharCol col.type = false) (date : isDateCol col.type = false) :
    p.value out m (some col) (some (decimalInt i)) =
      p.numericValue out {m with column := some col} col (decimalInt i) := by
  unfold value
  dsimp only
  rw [cstring_self _ (decimalInt_nulFree i),char,date,dynamicValue_number]
  rfl

theorem Platform.store24_take (p : Platform) (i : Int) (m : Mvalue) :
    (p.store24 i m).u.take 3 = leBytes 3 (i % 2^(8 * 3)).toNat := by
  cases p with
  | i386 => exact storeInt_take_le 3 4 (by decide) i m
  | other => exact storeInt_take 3 i m

def nearest (low high : Int) (i : Int) : Int := max low (min high i)

theorem nearest_range (low high i : Int) (ordered : low ≤ high) :
    low ≤ nearest low high i ∧ nearest low high i ≤ high := by
  unfold nearest
  omega

theorem Platform.clamped_take (p : Platform) (use : MvalueUse) (store : Int → Mvalue → Mvalue)
    (low high : Int) (w : Nat) (val : Text) (m : Mvalue) (ordered : low ≤ high)
    (stores : ∀ i m, (store i m).u.take w = leBytes w (i % 2^(8 * w)).toNat) :
    (p.clamped use store low high val m).u.take w =
      leBytes w (nearest low high (toInt32 (p.strtol 0 val)) % 2^(8 * w)).toNat := by
  unfold clamped nearest
  dsimp only
  by_cases below : toInt32 (p.strtol 0 val) < low
  · rw [if_pos below,show max low (min high (toInt32 (p.strtol 0 val))) = low from by omega]
    exact stores low m
  rw [if_neg below]
  by_cases above : high < toInt32 (p.strtol 0 val)
  · rw [if_pos above,show max low (min high (toInt32 (p.strtol 0 val))) = high from by omega]
    exact stores high m
  · rw [if_neg above,show max low (min high (toInt32 (p.strtol 0 val))) =
      toInt32 (p.strtol 0 val) from by omega]
    exact stores _ m

section
variable (raw : Text) (w : Nat) (sized : raw.length = w)

include sized

theorem leBytes_signed (m : Mvalue) : leBytes w (signedOf w raw % 2^(8 * w)).toNat = raw := by
  rw [← storeInt_take w _ m]
  exact storeInt_signed raw w sized m

theorem leBytes_natural (m : Mvalue) : leBytes w ((unsignedOf w raw : Int) % 2^(8 * w)).toNat = raw := by
  rw [← storeInt_take w _ m]
  exact storeInt_unsigned raw w sized m

end

theorem signedOf_range (w : Nat) (raw : Text) :
    -((2^(8 * w) : Nat) / 2 : Int) ≤ signedOf w raw ∧ signedOf w raw < ((2^(8 * w) : Nat) + 1) / 2 :=
  ⟨Int.le_bmod (Nat.two_pow_pos _),Int.bmod_lt (Nat.two_pow_pos _)⟩

theorem flip64_flip64 (n : Nat) (small : n < 2^64) : flip64 (flip64 n) = n := by
  unfold flip64
  omega

theorem Platform.bitFlip_bitFlip (p : Platform) (n : Nat) (small : n < 2^64) :
    p.bitFlip (p.bitFlip n) = n := by
  cases p with
  | i386 => rfl
  | other => exact flip64_flip64 n small

theorem Platform.bitFlip_lt (p : Platform) (n : Nat) (small : n < 2^64) : p.bitFlip n < 2^64 := by
  cases p with
  | i386 => exact small
  | other =>
    change flip64 n < 2^64
    unfold flip64
    omega

def Platform.parsed (p : Platform) (type : ColType) (val : Text) : Int :=
  match type with
  | .int => toInt32 (p.strtol 10 val)
  | .unsigned | .timestamp => p.strtoul 0 val
  | .bigint => MySQL.strtol 0 val
  | .bigunsigned => MySQL.strtoul 0 val
  | .bit => p.bitFlip (MySQL.strtoul 0 val)
  | .tinyint => nearest (-128) 127 (toInt32 (p.strtol 0 val))
  | .tinyunsigned => nearest 0 255 (toInt32 (p.strtol 0 val))
  | .smallint => nearest (-32768) 32767 (toInt32 (p.strtol 0 val))
  | .smallunsigned => nearest 0 65535 (toInt32 (p.strtol 0 val))
  | .mediumint => nearest (-8388608) 8388607 (toInt32 (p.strtol 0 val))
  | .mediumunsigned => nearest 0 16777215 (toInt32 (p.strtol 0 val))
  | _ => 0

def Platform.printedInt (p : Platform) (type : ColType) (raw : Text) : Int :=
  match type with
  | .int => signedOf 4 raw
  | .unsigned | .timestamp => unsignedOf 4 raw
  | .bigint => signedOf 8 raw
  | .bigunsigned => unsignedOf 8 raw
  | .bit => p.bitFlip (unsignedOf 8 raw)
  | .tinyint => signedOf 1 raw
  | .tinyunsigned => unsignedOf 1 raw
  | .smallint => signedOf 2 raw
  | .smallunsigned => unsignedOf 2 raw
  | .mediumint => signedOf 3 raw
  | .mediumunsigned => unsignedOf 3 raw
  | _ => 0

theorem intBytes_plain (type : ColType) (w : Nat) (typed : intBytes type = some w) :
    isCharCol type = false ∧ isDateCol type = false := by
  cases type <;> cases typed <;> exact ⟨rfl,rfl⟩

section
variable (p : Platform) (w : Nat)

theorem Platform.numericValue_take (out : Surroundings) (m : Mvalue) (col : DictColumn) (val : Text)
    (typed : intBytes col.type = some w) : (p.numericValue out m col val).u.take w =
      leBytes w (p.parsed col.type val % 2^(8 * w)).toNat := by
  unfold numericValue parsed
  cases type : col.type <;> rw [type] at typed <;> cases typed
  case int | unsigned | timestamp | bigint | bigunsigned | bit => exact storeInt_take _ _ m
  case tinyint | tinyunsigned => exact p.clamped_take _ _ _ _ 1 val m (by decide) (storeInt_take 1)
  case smallint | smallunsigned => exact p.clamped_take _ _ _ _ 2 val m (by decide) (storeInt_take 2)
  case mediumint | mediumunsigned => exact p.clamped_take _ _ _ _ 3 val m (by decide) p.store24_take

theorem Platform.out_printedInt (printers : Printers) (shown : Column) (raw : Text)
    (typed : intBytes shown.type = some w) :
    (p.out printers shown raw none).bytes = decimalInt (p.printedInt shown.type raw) := by
  unfold out printedInt MySQL.out
  cases type : shown.type <;> rw [type] at typed <;> cases typed <;> rfl

theorem nearest_self (low high i : Int) (above : low ≤ i) (below : i ≤ high) :
    nearest low high i = i := by
  unfold nearest
  omega

/-- What is read of a number in the range of an `int`, whatever the platform. -/
theorem Platform.narrow_small (base : Nat) (plain : base = 0 ∨ base = 10) (i : Int)
    (low : -2^31 ≤ i) (high : i < 2^31) : toInt32 (p.strtol base (decimalInt i)) = i := by
  rw [p.strtol_small base plain i low high,toInt32_small i low high]

/-- The bytes that come of a printed integer are those it was printed from. -/
theorem Platform.parsed_printed (type : ColType) (raw : Text) (m : Mvalue)
    (typed : intBytes type = some w) (sized : raw.length = w) :
    leBytes w (p.parsed type (decimalInt (p.printedInt type raw)) % 2^(8 * w)).toNat = raw := by
  have signed := leBytes_signed raw w sized m
  have natural := leBytes_natural raw w sized m
  have range := signedOf_range w raw
  have below := unsignedOf_lt raw w sized
  cases type <;> cases typed <;> unfold parsed printedInt <;> dsimp only
  case int =>
    rw [p.narrow_small 10 (.inr rfl) _ (by omega) (by omega)]
    exact signed
  case unsigned | timestamp =>
    rw [decimalInt_natCast,p.strtoul_small _ (by omega)]
    exact natural
  case bigint =>
    have fits : max (-2^63) (min (2^63 - 1) (signedOf 8 raw)) = signedOf 8 raw := by omega
    rw [strtol_decimalInt 0 (.inl rfl),fits]
    exact signed
  case bigunsigned =>
    have fits : min (unsignedOf 8 raw) (2^64 - 1) = unsignedOf 8 raw := by omega
    rw [decimalInt_natCast,strtoul_digits,fits]
    exact natural
  case bit =>
    have flipped := p.bitFlip_lt (unsignedOf 8 raw) below
    have fits : min (p.bitFlip (unsignedOf 8 raw)) (2^64 - 1) = p.bitFlip (unsignedOf 8 raw) := by omega
    rw [decimalInt_natCast,strtoul_digits,fits,p.bitFlip_bitFlip _ below]
    exact natural
  case tinyint | smallint | mediumint =>
    rw [p.narrow_small 0 (.inl rfl) _ (by omega) (by omega),nearest_self _ _ _ (by omega) (by omega)]
    exact signed
  case tinyunsigned | smallunsigned | mediumunsigned =>
    rw [p.narrow_small 0 (.inl rfl) _ (by omega) (by omega),nearest_self _ _ _ (by omega) (by omega)]
    exact natural

/-- What is printed of a stored integer is stored as the same bytes, on every platform. -/
theorem integers_kept (p : Platform) (printers : Printers) (out : Surroundings) (m : Mvalue)
    (col : DictColumn) (shown : Column) (raw : Text) (w : Nat) (typed : intBytes col.type = some w)
    (same : shown.type = col.type) (sized : raw.length = w) :
    (p.value out m (some col) (some (p.out printers shown raw none).bytes)).u.take w = raw := by
  obtain ⟨char,date⟩ := intBytes_plain col.type w typed
  rw [p.out_printedInt w printers shown raw (same ▸ typed),same,p.value_number out m col _ char date,
    p.numericValue_take w out _ col _ typed]
  exact p.parsed_printed w col.type raw m typed sized

/-- A negative number of three bytes under `__i386__`, and bits elsewhere. -/
theorem integers_kept_bits :
    (Platform.value .i386 ⟨[],[],fun _ => 0,id,id,fun _ _ => id⟩ .zero
      (some ⟨text "m",0,.mediumint,0,0,0,true⟩)
      (some (Platform.out .i386 ⟨id,id,fun _ _ => id⟩ ⟨text "m",.mediumint,0,0⟩ [254,255,255] none).bytes)
      ).u.take 3 = [254,255,255] ∧
    (Platform.value .other ⟨[],[],fun _ => 0,id,id,fun _ _ => id⟩ .zero
      (some ⟨text "b",0,.bit,64,0,0,true⟩)
      (some (Platform.out .other ⟨id,id,fun _ _ => id⟩ ⟨text "b",.bit,0,0⟩ [1,2,3,4,5,6,7,128] none).bytes)
      ).u.take 8 = [1,2,3,4,5,6,7,128] :=
  ⟨integers_kept .i386 _ _ _ _ _ _ 3 rfl rfl rfl,integers_kept .other _ _ _ _ _ _ 8 rfl rfl rfl⟩

end

/-- The bytes and the range of a column that MySQL keeps numbers in range for. -/
def smallRange : ColType → Option (Nat × Int × Int)
  | .tinyint => some (1,-128,127)
  | .tinyunsigned => some (1,0,255)
  | .smallint => some (2,-32768,32767)
  | .smallunsigned => some (2,0,65535)
  | .mediumint => some (3,-8388608,8388607)
  | .mediumunsigned => some (3,0,16777215)
  | _ => none

def StoresNearest (out : Surroundings) (m : Mvalue) (col : DictColumn) (w : Nat) (low high n : Int) : Prop :=
  (value out m (some col) (some (decimalInt n))).u.take w =
    leBytes w (nearest low high n % 2^(8 * w)).toNat

/-- A number that was parsed as a `long` and narrowed to an `int`. -/
def narrowed (n : Int) : Int := toInt32 (max (-2^63) (min (2^63 - 1) n))

theorem smallRange_parsed (type : ColType) (w : Nat) (low high n : Int)
    (ranged : smallRange type = some (w,low,high)) : intBytes type = some w ∧
    Platform.parsed .other type (decimalInt n) = nearest low high (narrowed n) := by
  have long : Platform.strtol .other 0 (decimalInt n) = max (-2^63) (min (2^63 - 1) n) :=
    strtol_decimalInt 0 (.inl rfl) n
  unfold Platform.parsed narrowed
  rw [long]
  cases type <;> cases ranged <;> exact ⟨rfl,rfl⟩

theorem leBytes_injective (w i j : Nat) (small : i < 2^(8 * w)) (small' : j < 2^(8 * w))
    (same : leBytes w i = leBytes w j) : i = j := by
  have read := congrArg (fun bytes => unsignedOf w (bytes ++ [])) same
  rwa [le_leBytes,le_leBytes,Nat.mod_eq_of_lt small,Nat.mod_eq_of_lt small'] at read

/-- Numbers of a range that is no wider than the bytes have different bytes. -/
theorem leBytes_range (w : Nat) (low high i j : Int) (narrow : high - low < 2^(8 * w))
    (first : low ≤ i ∧ i ≤ high) (second : low ≤ j ∧ j ≤ high) :
    leBytes w (i % 2^(8 * w)).toNat = leBytes w (j % 2^(8 * w)).toNat ↔ i = j := by
  refine ⟨fun same => ?_,fun same => by rw [same]⟩
  have positive : (0 : Int) < 2^(8 * w) := pow_pos two_pos _
  have below (k : Int) : (k % 2^(8 * w)).toNat < 2^(8 * w) := by
    have bound := Int.emod_lt_of_pos k positive
    have least := Int.emod_nonneg k positive.ne'
    zify
    rwa [Int.toNat_of_nonneg least]
  have equal := leBytes_injective w _ _ (below i) (below j) same
  have rest : i % 2^(8 * w) = j % 2^(8 * w) := by
    have least (k : Int) := Int.emod_nonneg k positive.ne'
    rw [← Int.toNat_of_nonneg (least i),← Int.toNat_of_nonneg (least j),equal]
  have divides : (2^(8 * w) : Int) ∣ j - i := Int.ModEq.dvd rest
  have apart : |j - i| < 2^(8 * w) := by
    rw [abs_lt]
    omega
  have none := Int.eq_zero_of_abs_lt_dvd divides apart
  omega

/-- The number nearest to a text is stored exactly if the text is in range, or what is left
of it in an `int` is on the same side of the range. -/
theorem stores_nearest_iff (out : Surroundings) (m : Mvalue) (col : DictColumn) (w : Nat)
    (low high n : Int) (ranged : smallRange col.type = some (w,low,high)) :
    StoresNearest out m col w low high n ↔
      low ≤ n ∧ n ≤ high ∨ n < low ∧ narrowed n ≤ low ∨ high < n ∧ high ≤ narrowed n := by
  obtain ⟨typed,parsed⟩ := smallRange_parsed col.type w low high n ranged
  obtain ⟨char,date⟩ := intBytes_plain col.type w typed
  have bounds : low < high ∧ -2^31 ≤ low ∧ high < 2^31 ∧ high - low < 2^(8 * w) := by
    unfold smallRange at ranged
    split at ranged <;> cases ranged <;> decide
  obtain ⟨ordered,least,most,narrow⟩ := bounds
  unfold StoresNearest
  rw [← Platform.value_other,Platform.value_number .other out m col n char date,
    Platform.numericValue_take .other w out _ col _ typed,parsed,
    leBytes_range w low high _ _ narrow (nearest_range low high _ ordered.le) (nearest_range low high n ordered.le)]
  have inside (low' : low ≤ n) (high' : n ≤ high) : narrowed n = n := by
    have long : max (-2^63) (min (2^63 - 1) n) = n := by omega
    unfold narrowed
    rw [long,toInt32_small n (by omega) (by omega)]
  unfold nearest
  by_cases within : low ≤ n ∧ n ≤ high
  · rw [inside within.1 within.2]
    exact iff_of_true rfl (.inl within)
  · omega

/-- A number that is a little too large for its column. -/
theorem stores_nearest_900 :
    StoresNearest ⟨[],[],fun _ => 0,id,id,fun _ _ => id⟩ .zero ⟨text "t",0,.tinyint,0,0,0,true⟩ 1
      (-128) 127 (-900) :=
  (stores_nearest_iff _ _ _ 1 (-128) 127 (-900) rfl).mpr (.inr (.inl (by decide)))

/-- A number that is much too large comes out as one in the middle of the range. -/
theorem nearest_lost :
    ¬StoresNearest ⟨[],[],fun _ => 0,id,id,fun _ _ => id⟩ .zero ⟨text "t",0,.tinyint,0,0,0,true⟩ 1
      (-128) 127 4294967301 := by
  unfold StoresNearest
  decide +kernel

end ModNdb.MySQL
