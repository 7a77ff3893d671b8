import ModNdb.MySQL.Strings

/-! Numbers that are printed in decimals are read back by the C library's readers, and
integers that are stored are read back from their bytes. -/
namespace ModNdb.MySQL

def digitOf (c : UInt8) : Nat := c.toNat - 48

def behind (n : Nat) (ds : Text) : Nat := ds.foldl (fun n c => n * 10 + digitOf c) n

def AllDigits (ds : Text) : Prop := ∀ c ∈ ds, isDigit c = true

theorem digitByte (d : Fin 10) : isDigit (UInt8.ofNat (48 + d)) = true ∧
    digitOf (UInt8.ofNat (48 + d)) = d ∧ code (Nat.digitChar d) = UInt8.ofNat (48 + d) ∧
    UInt8.ofNat (48 + d) ≠ code '-' ∧ UInt8.ofNat (48 + d) ≠ code '+' ∧
    isSpace (UInt8.ofNat (48 + d)) = false := by
  revert d
  decide

theorem digits_split (n : Nat) :
    digits n = (if n < 10 then [] else digits (n / 10)) ++ [UInt8.ofNat (48 + n % 10)] := by
  unfold digits
  rw [Nat.toDigits_eq_if (by decide)]
  split
  · rename_i small
    rw [Nat.mod_eq_of_lt small]
    exact congrArg (fun c => [c]) (digitByte ⟨n,small⟩).2.2.1
  · rw [List.map_append]
    exact congrArg (fun c => _ ++ [c]) (digitByte ⟨n % 10,Nat.mod_lt _ (by decide)⟩).2.2.1

theorem behind_append (n : Nat) (ds more : Text) :
    behind n (ds ++ more) = behind (behind n ds) more := List.foldl_append

theorem digits_value (n : Nat) : behind 0 (digits n) = n := by
  induction n using Nat.strongRecOn with
  | ind n ih =>
    have last := (digitByte ⟨n % 10,Nat.mod_lt _ (by decide)⟩).2.1
    rw [digits_split,behind_append]
    split
    · rename_i small
      change 0 * 10 + digitOf _ = n
      rw [last]
      change 0 * 10 + n % 10 = n
      omega
    · rw [ih (n / 10) (by omega)]
      change n / 10 * 10 + digitOf _ = n
      rw [last]
      change n / 10 * 10 + n % 10 = n
      omega

theorem digits_all (n : Nat) : AllDigits (digits n) := by
  induction n using Nat.strongRecOn with
  | ind n ih =>
    intro c inside
    rw [digits_split] at inside
    rcases List.mem_append.mp inside with front | last
    · split at front
      · cases front
      · exact ih (n / 10) (by omega) c front
    · rw [List.mem_singleton.mp last]
      exact (digitByte ⟨n % 10,Nat.mod_lt _ (by decide)⟩).1

theorem digits_ne_nil (n : Nat) : digits n ≠ [] := by
  rw [digits_split]
  exact List.append_ne_nil_of_right_ne_nil _ (List.cons_ne_nil _ _)

/-- As many digits as a bound has are enough for what is below it. -/
theorem digits_length (n k : Nat) (some : 0 < k) (below : n < 10^k) : (digits n).length ≤ k := by
  unfold digits
  rw [List.length_map]
  exact (Nat.length_toDigits_le_iff (by decide) some).mpr below

/-- Only zero begins with a zero. -/
theorem digits_head (n : Nat) (positive : 0 < n) : (digits n).head? ≠ some (code '0') := by
  induction n using Nat.strongRecOn with
  | ind n ih =>
    rw [digits_split]
    split
    · rename_i small
      intro zero
      have same : digitOf (UInt8.ofNat (48 + n % 10)) = digitOf (code '0') :=
        congrArg digitOf (Option.some.inj zero)
      rw [(digitByte ⟨n % 10,Nat.mod_lt _ (by decide)⟩).2.1] at same
      change n % 10 = 0 at same
      omega
    · rw [List.head?_append_of_ne_nil _ (digits_ne_nil _)]
      exact ih (n / 10) (by omega) (by omega)

theorem digitOf_ten (c : UInt8) (digit : isDigit c = true) : digitOf? 10 c = some (digitOf c) := by
  have range : code '0' ≤ c ∧ c ≤ code '9' := of_decide_eq_true digit
  have small : c.toNat - 48 < 10 := by
    have last : c.toNat ≤ 57 := UInt8.le_iff_toNat_le.mp range.2
    omega
  unfold digitOf? digitValue?
  rw [if_pos range,Option.filter_some,if_pos (decide_eq_true small)]
  rfl

theorem readDigits_all (ds : Text) (all : AllDigits ds) (n : Nat) :
    readDigits 10 n ds = behind n ds := by
  induction ds generalizing n with
  | nil => rfl
  | cons c ds ih =>
    unfold readDigits
    rw [digitOf_ten c (all c List.mem_cons_self)]
    exact ih (fun d inside => all d (List.mem_cons_of_mem c inside)) _

theorem digit_plain (c : UInt8) (digit : isDigit c = true) :
    isSpace c = false ∧ c ≠ code '-' ∧ c ≠ code '+' := by
  have range : code '0' ≤ c ∧ c ≤ code '9' := of_decide_eq_true digit
  have low : 48 ≤ c.toNat := UInt8.le_iff_toNat_le.mp range.1
  refine ⟨?_,?_,?_⟩
  · unfold isSpace
    apply decide_eq_false
    rintro (blank | ⟨_,control⟩)
    · rw [blank] at low
      exact absurd low (by decide)
    · have high : c.toNat ≤ 13 := UInt8.le_iff_toNat_le.mp control
      omega
  · rintro rfl
    exact absurd low (by decide)
  · rintro rfl
    exact absurd low (by decide)

section
variable (ds : Text) (all : AllDigits ds) (some : ds ≠ [])

include all some

theorem readSign_digits : readSign (ds.dropWhile isSpace) = (false,ds) := by
  cases ds with
  | nil => exact absurd rfl some
  | cons c ds =>
    obtain ⟨space,minus,plus⟩ := digit_plain c (all c List.mem_cons_self)
    rw [List.dropWhile_cons_of_neg (by rw [space]; exact Bool.false_ne_true)]
    unfold readSign
    dsimp only
    rw [if_neg minus,if_neg plus]

theorem readNumber_digits : readNumber 10 ds = (false,behind 0 ds) := by
  unfold readNumber
  rw [readSign_digits ds all some]
  dsimp only
  rw [if_neg (by decide),readDigits_all ds all]

end

theorem readSign_minus (ds : Text) :
    readSign ((code '-' :: ds).dropWhile isSpace) = (true,ds) := by
  rw [List.dropWhile_cons_of_neg (by decide)]
  rfl

theorem readNumber_minus (ds : Text) (all : AllDigits ds) :
    readNumber 10 (code '-' :: ds) = (true,behind 0 ds) := by
  unfold readNumber
  rw [readSign_minus]
  dsimp only
  rw [if_neg (by decide),readDigits_all ds all]

/-- A number in decimals is not taken for one of another base. -/
theorem spelled_digits (n : Nat) :
    readDigits (spelledBase (digits n)).1 0 (spelledBase (digits n)).2 = n := by
  by_cases zero : n = 0
  · subst zero
    rfl
  have decimals : spelledBase (digits n) = (10,digits n) := by
    have front := digits_head n (Nat.pos_of_ne_zero zero)
    unfold spelledBase
    split
    · rename_i z x d rest same
      rw [same] at front
      rw [if_neg fun first => front (by rw [first]; rfl)]
    · rename_i z rest _ same
      rw [same] at front
      rw [if_neg fun first => front (by rw [first]; rfl)]
    · rfl
  rw [decimals]
  exact (readDigits_all _ (digits_all n) 0).trans (digits_value n)

theorem readNumber_printed (n : Nat) : readNumber 0 (digits n) = (false,n) := by
  unfold readNumber
  rw [readSign_digits _ (digits_all n) (digits_ne_nil n)]
  dsimp only
  rw [if_pos rfl]
  exact congrArg (Prod.mk false) (spelled_digits n)

theorem readNumber_printed_minus (n : Nat) : readNumber 0 (code '-' :: digits n) = (true,n) := by
  unfold readNumber
  rw [readSign_minus]
  dsimp only
  rw [if_pos rfl]
  exact congrArg (Prod.mk true) (spelled_digits n)

/-- A signed number in decimals, read in any base that is not another one. -/
theorem readNumber_decimalInt (base : Nat) (plain : base = 0 ∨ base = 10) (i : Int) :
    readNumber base (decimalInt i) = (decide (i < 0),i.natAbs) := by
  unfold decimalInt
  by_cases negative : i < 0
  · rw [if_pos negative,decide_eq_true negative]
    rcases plain with rfl | rfl
    · exact readNumber_printed_minus _
    · refine (readNumber_minus _ (digits_all _)).trans ?_
      rw [digits_value]
  · rw [if_neg negative,decide_eq_false negative]
    rcases plain with rfl | rfl
    · exact readNumber_printed _
    · refine (readNumber_digits _ (digits_all _) (digits_ne_nil _)).trans ?_
      rw [digits_value]

theorem strtol_decimalInt (base : Nat) (plain : base = 0 ∨ base = 10) (i : Int) :
    strtol base (decimalInt i) = max (-2^63) (min (2^63 - 1) i) := by
  unfold strtol
  rw [readNumber_decimalInt base plain]
  dsimp only
  by_cases negative : i < 0
  · rw [decide_eq_true negative,if_pos rfl]
    omega
  · rw [decide_eq_false negative,if_neg Bool.false_ne_true]
    omega

theorem strtoul_digits (n : Nat) : strtoul 0 (digits n) = min n (2^64 - 1) := by
  unfold strtoul
  rw [readNumber_printed]
  dsimp only
  rw [if_neg Bool.false_ne_true]
  split <;> omega

theorem leBytes_le (raw : Text) : leBytes raw.length (le raw) = raw := by
  induction raw with
  | nil => rfl
  | cons b raw ih =>
    have low : UInt8.ofNat (b.toNat + 256 * le raw) = b := by
      apply UInt8.toNat_inj.mp
      rw [UInt8.toNat_ofNat']
      have small := b.toNat_lt
      omega
    have high : (b.toNat + 256 * le raw) / 256 = le raw := by
      have small := b.toNat_lt
      omega
    rw [List.length_cons,leBytes,le,low,high,ih]

theorem le_lt (raw : Text) : le raw < 2^(8 * raw.length) := by
  induction raw with
  | nil => exact Nat.one_pos
  | cons b raw ih =>
    have small := b.toNat_lt
    rw [le,List.length_cons,Nat.mul_succ,Nat.pow_add]
    omega

theorem storeInt_take (w : Nat) (i : Int) (m : Mvalue) :
    (m.storeInt w i).u.take w = leBytes w (i % 2^(8 * w)).toNat :=
  List.take_left' (leBytes_length _ _)

section
variable (raw : Text) (w : Nat) (sized : raw.length = w)

include sized

theorem leBytes_unsigned : leBytes w (unsignedOf w raw) = raw := by
  unfold unsignedOf
  rw [List.take_of_length_le (Nat.le_of_eq sized),← sized]
  exact leBytes_le raw

theorem unsignedOf_lt : unsignedOf w raw < 2^(8 * w) := by
  unfold unsignedOf
  rw [List.take_of_length_le (Nat.le_of_eq sized),← sized]
  exact le_lt raw

theorem storeInt_unsigned (m : Mvalue) : (m.storeInt w (unsignedOf w raw)).u.take w = raw := by
  have below := unsignedOf_lt raw w sized
  rw [storeInt_take]
  have same : ((unsignedOf w raw : Int) % 2^(8 * w)).toNat = unsignedOf w raw := by
    exact_mod_cast Nat.mod_eq_of_lt below
  rw [same]
  exact leBytes_unsigned raw w sized

theorem storeInt_signed (m : Mvalue) : (m.storeInt w (signedOf w raw)).u.take w = raw := by
  have same : signedOf w raw % 2^(8 * w) = (unsignedOf w raw : Int) % 2^(8 * w) := by
    unfold signedOf
    have wraps := Int.bmod_emod (x := unsignedOf w raw) (m := 2^(8 * w))
    exact_mod_cast wraps
  rw [storeInt_take,same,← storeInt_take w _ m]
  exact storeInt_unsigned raw w sized m

end

end ModNdb.MySQL
