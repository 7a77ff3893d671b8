import ModNdb.MySQL.Integers

/-! Decimal numbers as clients write them, with signs and with zeros in front, in columns of
different integer types. -/
namespace ModNdb.MySQL

inductive Sign | none | plus | minus
  deriving DecidableEq

def Sign.text : Sign → Text
  | .none => []
  | .plus => [code '+']
  | .minus => [code '-']

def Sign.negative (sign : Sign) : Bool := sign = .minus

def signedBy (negative : Bool) (size : Nat) : Int := if negative then -size else size

instance (ds : Text) : Decidable (AllDigits ds) :=
  inferInstanceAs (Decidable (∀ c ∈ ds, isDigit c = true))

theorem signedBy_inj (negative : Bool) (k size : Nat) :
    signedBy negative k = signedBy negative size ↔ k = size := by
  unfold signedBy
  split <;> omega

theorem signedBy_between (negative : Bool) (k size : Nat) (low high : Int) (below : low ≤ 0)
    (above : 0 ≤ high) (le : k ≤ size)
    (range : low ≤ signedBy negative size ∧ signedBy negative size ≤ high) :
    low ≤ signedBy negative k ∧ signedBy negative k ≤ high := by
  unfold signedBy at range ⊢
  cases negative with
  | false =>
    rw [if_neg Bool.false_ne_true] at range ⊢
    omega
  | true =>
    rw [if_pos rfl] at range ⊢
    omega

structure Numeral where
  sign : Sign
  ds : Text
  all : AllDigits ds
  filled : ds ≠ []

namespace Numeral

def text (n : Numeral) : Text := n.sign.text ++ n.ds

def number (n : Numeral) : Int := signedBy n.sign.negative (behind 0 n.ds)

/-- No zero in front of a number that has more than one octal digit. -/
def Plain (n : Numeral) : Prop := n.ds.head? = some (code '0') → behind 0 n.ds < 8

instance (n : Numeral) : Decidable n.Plain := inferInstanceAs (Decidable (_ → _))

end Numeral

def intRange : ColType → Option (Nat × Int × Int)
  | .int => some (4,-2^31,2^31 - 1)
  | .unsigned => some (4,0,2^32 - 1)
  | .bigint => some (8,-2^63,2^63 - 1)
  | .bigunsigned => some (8,0,2^64 - 1)
  | type => smallRange type

/-- The base in which the number for a column is read; 0 takes it from the spelling. -/
def intBase (type : ColType) : Nat := if type = .int then 10 else 0

theorem digitOf_octal (c : UInt8) (digit : isDigit c = true) :
    digitOf? 8 c = if digitOf c < 8 then some (digitOf c) else none := by
  have range : code '0' ≤ c ∧ c ≤ code '9' := of_decide_eq_true digit
  have value : digitValue? c = some (digitOf c) := if_pos range
  unfold digitOf?
  rw [value,Option.filter_some]
  exact if_congr decide_eq_true_iff rfl rfl

theorem readDigits_octal (m : Nat) (c : UInt8) (ds : Text) (digit : isDigit c = true) :
    readDigits 8 m (c::ds) = if digitOf c < 8 then readDigits 8 (m * 8 + digitOf c) ds else m := by
  rw [readDigits,digitOf_octal c digit]
  by_cases octal : digitOf c < 8
  · rw [if_pos octal,if_pos octal]
  · rw [if_neg octal,if_neg octal]

theorem behind_cons (n : Nat) (c : UInt8) (ds : Text) :
    behind n (c::ds) = behind (n * 10 + digitOf c) ds := by
  unfold behind
  rw [List.foldl_cons]

theorem behind_ge (n : Nat) (ds : Text) : n ≤ behind n ds := by
  induction ds generalizing n with
  | nil => exact Nat.le_refl n
  | cons c ds ih =>
    rw [behind_cons]
    exact Nat.le_trans (by omega) (ih _)

/-- Digits behind a smaller number, read as octal ones, stay smaller. -/
theorem octal_lt (m n : Nat) (ds : Text) (all : AllDigits ds) (less : m < n) :
    readDigits 8 m ds < behind n ds := by
  induction ds generalizing m n with
  | nil => exact less
  | cons c ds ih =>
    have rest : AllDigits ds := fun d inside => all d (List.mem_cons_of_mem c inside)
    rw [readDigits_octal _ c ds (all c List.mem_cons_self),behind_cons]
    by_cases octal : digitOf c < 8
    · rw [if_pos octal]
      exact ih _ _ rest (by omega)
    · rw [if_neg octal]
      exact Nat.lt_of_lt_of_le (by omega) (behind_ge _ ds)

/-- Octal digits denote the number that decimal ones do only if there is just one of them. -/
theorem octal_cases (ds : Text) (all : AllDigits ds) :
    readDigits 8 0 ds = behind 0 ds ∧ behind 0 ds < 8 ∨
      readDigits 8 0 ds < behind 0 ds ∧ 8 ≤ behind 0 ds := by
  induction ds with
  | nil => exact .inl ⟨rfl,by decide⟩
  | cons c ds ih =>
    have rest : AllDigits ds := fun d inside => all d (List.mem_cons_of_mem c inside)
    rw [readDigits_octal _ c ds (all c List.mem_cons_self),behind_cons]
    by_cases octal : digitOf c < 8
    · rw [if_pos octal]
      rw [Nat.zero_mul,Nat.zero_add]
      by_cases zero : digitOf c = 0
      · rw [zero]
        exact ih rest
      · cases ds with
        | nil => exact .inl ⟨rfl,octal⟩
        | cons d ds =>
          have more : AllDigits ds := fun e inside => rest e (List.mem_cons_of_mem d inside)
          have least := behind_ge (digitOf c * 10 + digitOf d) ds
          rw [readDigits_octal _ d ds (rest d List.mem_cons_self),behind_cons]
          refine .inr ⟨?_,by omega⟩
          by_cases octal' : digitOf d < 8
          · rw [if_pos octal']
            exact octal_lt _ _ ds more (by omega)
          · rw [if_neg octal']
            exact Nat.lt_of_lt_of_le (by omega) least
    · rw [if_neg octal]
      have least := behind_ge (0 * 10 + digitOf c) ds
      exact .inr ⟨Nat.lt_of_lt_of_le (by omega) least,by omega⟩

/-- What a spelling is taken for, and when that is what it is in base ten. -/
theorem spelled_cases (ds : Text) (all : AllDigits ds) :
    readDigits (spelledBase ds).1 0 (spelledBase ds).2 ≤ behind 0 ds ∧
      (readDigits (spelledBase ds).1 0 (spelledBase ds).2 = behind 0 ds ↔
        (ds.head? = some (code '0') → behind 0 ds < 8)) := by
  by_cases zero : ds.head? = some (code '0')
  · have octal : spelledBase ds = (8,ds) := by
      unfold spelledBase
      split
      · rename_i z x d rest
        have first : z = code '0' := Option.some.inj zero
        have letter : ¬((x = code 'x' ∨ x = code 'X') ∧ (digitOf? 16 d).isSome) := by
          rintro ⟨rfl | rfl,_⟩ <;>
            exact absurd (all _ (List.mem_cons_of_mem z List.mem_cons_self)) (by decide)
        rw [if_pos first,if_neg letter]
      · rename_i z rest _
        rw [if_pos (Option.some.inj zero)]
      · cases zero
    rw [octal]
    dsimp only
    have cases := octal_cases ds all
    constructor
    · omega
    · constructor
      · intro same _
        omega
      · intro small
        have small := small zero
        omega
  · have decimal : spelledBase ds = (10,ds) := by
      unfold spelledBase
      split
      · rename_i z x d rest
        rw [if_neg fun first => zero (by rw [first]; rfl)]
      · rename_i z rest _
        rw [if_neg fun first => zero (by rw [first]; rfl)]
      · rfl
    rw [decimal]
    dsimp only
    rw [readDigits_all ds all 0]
    exact ⟨Nat.le_refl _,iff_of_true rfl fun first => absurd first zero⟩

namespace Numeral
variable (n : Numeral)

def size (base : Nat) : Nat :=
  if base = 0 then readDigits (spelledBase n.ds).1 0 (spelledBase n.ds).2 else behind 0 n.ds

theorem readNumber_text (base : Nat) (decimal : base = 0 ∨ base = 10) :
    readNumber base n.text = (n.sign.negative,n.size base) := by
  have sign : readSign (n.text.dropWhile isSpace) = (n.sign.negative,n.ds) := by
    unfold text
    cases n.sign with
    | none => exact readSign_digits n.ds n.all n.filled
    | plus =>
      change readSign ((code '+' :: n.ds).dropWhile isSpace) = _
      rw [List.dropWhile_cons_of_neg (by decide)]
      rfl
    | minus => exact readSign_minus n.ds
  unfold readNumber size
  rw [sign]
  dsimp only
  rcases decimal with rfl | rfl
  · rw [if_pos rfl,if_pos rfl]
  · rw [if_neg (by decide),if_neg (by decide),readDigits_all n.ds n.all 0]

/-- What is read is no larger, and the same exactly for numbers that are plain. -/
theorem size_cases (type : ColType) : n.size (intBase type) ≤ behind 0 n.ds ∧
    (n.size (intBase type) = behind 0 n.ds ↔ type = .int ∨ n.Plain) := by
  unfold size intBase Plain
  by_cases int : type = .int
  · rw [if_pos int,if_neg (by decide)]
    exact ⟨Nat.le_refl _,iff_of_true rfl (.inl int)⟩
  · rw [if_neg int,if_pos rfl]
    obtain ⟨le,same⟩ := spelled_cases n.ds n.all
    exact ⟨le,same.trans (or_iff_right int).symm⟩

theorem text_head : ∃ c, n.text.head? = some c ∧ c ≠ code '@' := by
  have digit (c : UInt8) (inside : c ∈ n.ds) : c ≠ code '@' := by
    rintro rfl
    exact absurd (n.all _ inside) (by decide)
  unfold text
  cases n.sign with
  | none =>
    cases same : n.ds with
    | nil => exact absurd same n.filled
    | cons c ds => exact ⟨c,rfl,digit c (same ▸ List.mem_cons_self)⟩
  | plus => exact ⟨_,rfl,by decide⟩
  | minus => exact ⟨_,rfl,by decide⟩

theorem text_nulFree : 0 ∉ n.text := by
  unfold text
  rw [List.mem_append,not_or]
  constructor
  · cases n.sign <;> decide
  · intro inside
    exact absurd (n.all 0 inside) (by decide)

theorem dynamicValue_text (out : Surroundings) (m : Mvalue) (type : ColType) :
    dynamicValue out m type n.text = none := by
  apply (dynamicValue_eq_none_iff out m type _).mpr
  intro dynamic
  obtain ⟨c,first,plain⟩ := n.text_head
  simp only [dynamicTexts,List.mem_cons,List.not_mem_nil,or_false] at dynamic
  rcases dynamic with same | same | same | same | same <;>
    exact plain (Option.some.inj (first.symm.trans (by rw [same]; rfl)))

end Numeral

theorem intRange_bytes (type : ColType) (w : Nat) (low high : Int)
    (ranged : intRange type = some (w,low,high)) : intBytes type = some w ∧
      low ≤ 0 ∧ 0 ≤ high ∧ high - low < 2^(8 * w) := by
  cases type <;> cases ranged <;> exact ⟨rfl,by decide,by decide,by decide⟩

section
variable (base : Nat) (val : Text) (neg : Bool) (k : Nat) (reads : readNumber base val = (neg,k))

include reads

theorem strtol_read (least : -2^63 ≤ signedBy neg k) (most : signedBy neg k ≤ 2^63 - 1) :
    strtol base val = signedBy neg k := by
  unfold strtol
  rw [reads]
  unfold signedBy at least most ⊢
  cases neg with
  | false => exact Int.min_eq_right most
  | true => exact Int.max_eq_right least

theorem strtoul_read (least : 0 ≤ signedBy neg k) (most : signedBy neg k ≤ 2^64 - 1) :
    (strtoul base val : Int) = signedBy neg k := by
  unfold strtoul
  rw [reads]
  unfold signedBy at least most ⊢
  cases neg with
  | false =>
    have small : k < 2^64 := by
      change (k : Int) ≤ 2^64 - 1 at most
      omega
    exact congrArg Int.ofNat (if_neg (Nat.not_le.mpr small))
  | true =>
    have zero : k = 0 := by
      change 0 ≤ -(k : Int) at least
      omega
    subst zero
    rfl

theorem Platform.strtol_read (p : Platform) (least : -2^31 ≤ signedBy neg k)
    (most : signedBy neg k ≤ 2^31 - 1) : p.strtol base val = signedBy neg k := by
  cases p with
  | i386 =>
    unfold strtol
    rw [reads]
    unfold signedBy at least most ⊢
    cases neg with
    | false => exact Int.min_eq_right most
    | true => exact Int.max_eq_right least
  | other => exact MySQL.strtol_read base val neg k reads (by omega) (by omega)

theorem Platform.strtoul_read (p : Platform) (least : 0 ≤ signedBy neg k)
    (most : signedBy neg k ≤ 2^32 - 1) : (p.strtoul base val : Int) = signedBy neg k := by
  cases p with
  | i386 =>
    unfold strtoul
    rw [reads]
    unfold signedBy at least most ⊢
    cases neg with
    | false =>
      have small : k < 2^32 := by
        change (k : Int) ≤ 2^32 - 1 at most
        omega
      exact congrArg Int.ofNat (if_neg (Nat.not_le.mpr small))
    | true =>
      have zero : k = 0 := by
        change 0 ≤ -(k : Int) at least
        omega
      subst zero
      rfl
  | other => exact MySQL.strtoul_read base val neg k reads least (by omega)

end

/-- A number that is read in the range of a column is parsed as it is. -/
theorem Platform.parsed_number (p : Platform) (type : ColType) (w : Nat) (low high : Int)
    (ranged : intRange type = some (w,low,high)) (val : Text) (neg : Bool) (k : Nat)
    (reads : readNumber (intBase type) val = (neg,k)) (least : low ≤ signedBy neg k)
    (most : signedBy neg k ≤ high) : p.parsed type val = signedBy neg k := by
  cases type <;> cases ranged <;> unfold parsed <;> dsimp only
  case int =>
    rw [p.strtol_read 10 val neg k reads least most,toInt32_small _ least (by omega)]
  case unsigned => exact p.strtoul_read 0 val neg k reads least most
  case bigint => exact MySQL.strtol_read 0 val neg k reads least most
  case bigunsigned => exact MySQL.strtoul_read 0 val neg k reads least most
  case tinyint | tinyunsigned | smallint | smallunsigned | mediumint | mediumunsigned =>
    rw [p.strtol_read 0 val neg k reads (by omega) (by omega),
      toInt32_small _ (by omega) (by omega),nearest_self _ _ _ least most]

def Stores (p : Platform) (out : Surroundings) (m : Mvalue) (col : DictColumn) (w : Nat)
    (n : Numeral) : Prop :=
  (p.value out m (some col) (some n.text)).u.take w = leBytes w (n.number % 2^(8 * w)).toNat

theorem stores_iff (p : Platform) (out : Surroundings) (m : Mvalue) (col : DictColumn) (w : Nat)
    (low high : Int) (n : Numeral) (ranged : intRange col.type = some (w,low,high))
    (least : low ≤ n.number) (most : n.number ≤ high) :
    Stores p out m col w n ↔ col.type = .int ∨ n.Plain := by
  obtain ⟨typed,below,above,narrow⟩ := intRange_bytes col.type w low high ranged
  obtain ⟨char,date⟩ := intBytes_plain col.type w typed
  obtain ⟨le,same⟩ := n.size_cases col.type
  have decimal : intBase col.type = 0 ∨ intBase col.type = 10 := by
    unfold intBase
    split
    · exact .inr rfl
    · exact .inl rfl
  have reads := n.readNumber_text (intBase col.type) decimal
  obtain ⟨least',most'⟩ := signedBy_between n.sign.negative (n.size (intBase col.type)) _ low high
    below above le ⟨least,most⟩
  have value : p.value out m (some col) (some n.text) =
      p.numericValue out {m with column := some col} col n.text := by
    unfold Platform.value
    dsimp only
    rw [cstring_self _ n.text_nulFree,char,date,n.dynamicValue_text]
    rfl
  unfold Stores
  rw [value,p.numericValue_take w out _ col _ typed,
    p.parsed_number col.type w low high ranged _ _ _ reads least' most',
    leBytes_range w low high _ _ narrow ⟨least',most'⟩ ⟨least,most⟩,← same]
  exact signedBy_inj _ _ _

/-- Two integer columns get the number from its text exactly if both take it for a decimal. -/
theorem stores_both_iff (p : Platform) (out : Surroundings) (m m' : Mvalue) (col col' : DictColumn)
    (w w' : Nat) (low high low' high' : Int) (n : Numeral)
    (ranged : intRange col.type = some (w,low,high))
    (ranged' : intRange col'.type = some (w',low',high')) (inside : low ≤ n.number ∧ n.number ≤ high)
    (inside' : low' ≤ n.number ∧ n.number ≤ high') :
    (Stores p out m col w n ∧ Stores p out m' col' w' n) ↔
      col.type = .int ∧ col'.type = .int ∨ n.Plain := by
  rw [stores_iff p out m col w low high n ranged inside.1 inside.2,
    stores_iff p out m' col' w' low' high' n ranged' inside'.1 inside'.2]
  tauto

/-- A numeral in two columns of different widths. -/
theorem stores_both_minus :
    Stores .i386 ⟨[],[],fun _ => 0,id,id,fun _ _ => id⟩ .zero ⟨text "t",0,.tinyint,0,0,0,true⟩ 1
        ⟨.minus,text "12",by decide +kernel,by decide⟩ ∧
      Stores .i386 ⟨[],[],fun _ => 0,id,id,fun _ _ => id⟩ .zero ⟨text "b",0,.bigint,0,0,0,true⟩ 8
        ⟨.minus,text "12",by decide +kernel,by decide⟩ :=
  (stores_both_iff .i386 _ _ _ _ _ 1 8 (-128) 127 (-2^63) (2^63 - 1) _ rfl rfl (by decide)
    (by decide)).mpr (.inr (by decide))

/-- The text `010` is ten for an `int`, and eight for a `bigint`. -/
theorem zero_in_front :
    Stores .other ⟨[],[],fun _ => 0,id,id,fun _ _ => id⟩ .zero ⟨text "i",0,.int,0,0,0,true⟩ 4
        ⟨.none,text "010",by decide +kernel,by decide⟩ ∧
      ¬Stores .other ⟨[],[],fun _ => 0,id,id,fun _ _ => id⟩ .zero ⟨text "b",0,.bigint,0,0,0,true⟩ 8
        ⟨.none,text "010",by decide +kernel,by decide⟩ := by
  unfold Stores
  decide +kernel

end ModNdb.MySQL
