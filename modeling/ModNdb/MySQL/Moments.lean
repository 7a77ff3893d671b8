import ModNdb.MySQL.Integers

/-! Times, dates and both together: what is printed of a stored one is stored as the same,
unless it is the time that stands for no time. -/
namespace ModNdb.MySQL

theorem behind_zero (n : Nat) (ds : Text) : behind n ds = n * 10^ds.length + behind 0 ds := by
  induction ds generalizing n with
  | nil =>
    change n = n * 10^0 + 0
    omega
  | cons c ds ih =>
    have first : behind n (c::ds) = behind (n * 10 + digitOf c) ds := rfl
    have bare : behind 0 (c::ds) = behind (0 * 10 + digitOf c) ds := rfl
    rw [first,bare,ih,ih (0 * 10 + digitOf c),List.length_cons,Nat.pow_succ]
    ring

theorem zeros_value (k n : Nat) : behind n (List.replicate k (code '0')) = n * 10^k := by
  induction k generalizing n with
  | zero =>
    change n = n * 10^0
    omega
  | succ k ih =>
    rw [List.replicate_succ]
    change behind (n * 10 + 0) _ = _
    rw [ih,Nat.pow_succ]
    ring

section
variable (width n : Nat)

theorem padded_eq : padded width n =
    List.replicate (width - (digits n).length) (code '0') ++ digits n := by
  unfold padded
  rw [if_neg (Int.not_lt.mpr (Int.natCast_nonneg n))]
  rfl

theorem padded_all : AllDigits (padded width n) := by
  intro c inside
  rw [padded_eq] at inside
  rcases List.mem_append.mp inside with zero | digit
  · rw [List.eq_of_mem_replicate zero]
    rfl
  · exact digits_all n c digit

theorem padded_ne_nil : padded width n ≠ [] := by
  rw [padded_eq]
  exact List.append_ne_nil_of_right_ne_nil _ (digits_ne_nil n)

theorem padded_value : behind 0 (padded width n) = n := by
  rw [padded_eq,behind_append,zeros_value,Nat.zero_mul,digits_value]

theorem padded_length (some : 0 < width) (small : n < 10^width) : (padded width n).length = width := by
  have short := digits_length n width some small
  rw [padded_eq,List.length_append,List.length_replicate]
  omega

theorem padded_behind (m : Nat) (some : 0 < width) (small : n < 10^width) :
    behind m (padded width n) = m * 10^width + n := by
  rw [behind_zero,padded_value,padded_length width n some small]

end

theorem filter_digits (ds : Text) (all : AllDigits ds) : ds.filter isDigit = ds :=
  List.filter_eq_self.mpr all

theorem dateDigits_plain (ds rest : Text) (all : AllDigits ds) (some : ds ≠ [])
    (short : (ds ++ rest).length ≤ 62) : dateDigits (ds ++ rest) = (ds ++ rest).filter isDigit := by
  cases ds with
  | nil => exact absurd rfl some
  | cons d ds =>
    obtain ⟨_,minus,plus⟩ := digit_plain d (all d List.mem_cons_self)
    unfold dateDigits
    rw [List.cons_append] at short ⊢
    dsimp only
    rw [if_neg (not_or.mpr ⟨minus,plus⟩),List.take_of_length_le short]

theorem dateDigits_minus (rest : Text) (short : rest.length ≤ 62) :
    dateDigits (code '-' :: rest) = code '-' :: rest.filter isDigit := by
  unfold dateDigits
  dsimp only
  rw [if_pos (.inl rfl),List.take_of_length_le short]

def spaced (sep : UInt8) (width i j k : Nat) : Text :=
  padded width i ++ [sep] ++ padded 2 j ++ [sep] ++ padded 2 k

theorem spaced_filter (sep : UInt8) (other : isDigit sep = false) (width i j k : Nat) :
    (spaced sep width i j k).filter isDigit = padded width i ++ (padded 2 j ++ padded 2 k) := by
  unfold spaced
  simp only [List.filter_append,filter_digits _ (padded_all _ _),List.append_assoc]
  rw [List.filter_cons_of_neg (by rw [other]; exact Bool.false_ne_true)]
  rfl

theorem spaced_value (width i j k : Nat) (small : j < 100) (small' : k < 100) :
    behind 0 (padded width i ++ (padded 2 j ++ padded 2 k)) = i * 10000 + j * 100 + k := by
  rw [behind_append,behind_append,padded_value,padded_behind 2 j _ two_pos small,
    padded_behind 2 k _ two_pos small']
  ring

theorem strtol_digits (ds : Text) (all : AllDigits ds) (some : ds ≠ []) (small : behind 0 ds < 2^63) :
    strtol 10 ds = behind 0 ds := by
  unfold strtol
  rw [readNumber_digits ds all some]
  change min (2^63 - 1) (behind 0 ds : Int) = _
  omega

theorem strtol_minus (ds : Text) (all : AllDigits ds) (small : behind 0 ds < 2^63) :
    strtol 10 (code '-' :: ds) = -(behind 0 ds : Int) := by
  unfold strtol
  rw [readNumber_minus ds all]
  change max (-2^63) (-(behind 0 ds : Int)) = _
  omega

theorem AllDigits.append {ds more : Text} (first : AllDigits ds) (second : AllDigits more) :
    AllDigits (ds ++ more) := by
  intro c inside
  rcases List.mem_append.mp inside with inside | inside
  · exact first c inside
  · exact second c inside

section
variable (width i j k : Nat)

theorem spaced_all : AllDigits (padded width i ++ (padded 2 j ++ padded 2 k)) :=
  (padded_all width i).append ((padded_all 2 j).append (padded_all 2 k))

theorem spaced_ne_nil : padded width i ++ (padded 2 j ++ padded 2 k) ≠ [] :=
  List.append_ne_nil_of_left_ne_nil (padded_ne_nil width i) _

theorem spaced_length (sep : UInt8) (most : Nat) (bound : width ≤ most) (some : 0 < most)
    (small : i < 10^most) (small' : j < 100) (small'' : k < 100) :
    (spaced sep width i j k).length ≤ most + 6 := by
  have first : (padded width i).length ≤ most := by
    have short := digits_length i most some small
    rw [padded_eq,List.length_append,List.length_replicate]
    omega
  have second := padded_length 2 j two_pos small'
  have third := padded_length 2 k two_pos small''
  unfold spaced
  simp only [List.length_append,List.length_singleton]
  omega

/-- Numbers that are printed with something between them are read as one. -/
theorem spaced_digits (sep : UInt8) (rest : Text) (short : (spaced sep width i j k ++ rest).length ≤ 62) :
    dateDigits (spaced sep width i j k ++ rest) = (spaced sep width i j k ++ rest).filter isDigit := by
  have split : spaced sep width i j k ++ rest =
      padded width i ++ ([sep] ++ padded 2 j ++ [sep] ++ padded 2 k ++ rest) := by
    unfold spaced
    simp only [List.append_assoc]
  rw [split] at short ⊢
  exact dateDigits_plain _ _ (padded_all width i) (padded_ne_nil width i) short

theorem spaced_read (sep : UInt8) (other : isDigit sep = false)
    (short : (spaced sep width i j k).length ≤ 62) : dateDigits (spaced sep width i j k) =
      padded width i ++ (padded 2 j ++ padded 2 k) := by
  have digits := spaced_digits width i j k sep [] (by rwa [List.append_nil])
  rwa [List.append_nil,spaced_filter sep other] at digits

end

theorem spaced_width (i j k : Nat) (small : i < 100) (small' : j < 100) (small'' : k < 100) :
    (padded 2 i ++ (padded 2 j ++ padded 2 k)).length = 6 := by
  rw [List.length_append,List.length_append,padded_length 2 i two_pos small,
    padded_length 2 j two_pos small',padded_length 2 k two_pos small'']

theorem factorHHMMSS_eq (i : Int) (low : -2^31 < i) (high : i < 2^31) :
    factorHHMMSS .zero i = {Tm.zero with
      neg := decide (i < 0), hour := (i.natAbs / 10000 : Nat), minute := (i.natAbs / 100 % 100 : Nat),
      second := (i.natAbs % 100 : Nat)} := by
  have size : (if i < 0 then toInt32 (-i) else i) = (i.natAbs : Int) := by
    split
    · rw [toInt32_small (-i) (by omega) (by omega)]
      omega
    · omega
  have sign : (if i < 0 then true else Tm.zero.neg) = decide (i < 0) := by
    split <;> rename_i negative
    · exact (decide_eq_true negative).symm
    · exact (decide_eq_false negative).symm
  unfold factorHHMMSS
  rw [size,sign]
  rfl

/-- A stored time, date or both: a signed number of three bytes, a year up to 9999 with
month and day, a number of up to 14 digits. -/
def IsMoment (type : ColType) (raw : Text) : Prop :=
  match type with
  | .time => raw.length = 3
  | .date => raw.length = 3 ∧ unsignedOf 3 raw / 512 ≤ 9999
  | .datetime => raw.length = 8 ∧ unsignedOf 8 raw < 10^14
  | _ => False

/-- What is printed of a stored value is stored as the same bytes. -/
def Keeps (printers : Printers) (out : Surroundings) (m : Mvalue) (col : DictColumn) (shown : Column)
    (raw : Text) : Prop :=
  (value out m (some col) (some (MySQL.out printers shown raw none).bytes)).u.take raw.length = raw

theorem AllDigits.nulFree {ds : Text} (all : AllDigits ds) : 0 ∉ ds :=
  fun inside => absurd (all 0 inside) (by decide)

theorem spaced_nulFree (sep : UInt8) (some : sep ≠ 0) (width i j k : Nat) :
    0 ∉ spaced sep width i j k := by
  unfold spaced
  simp only [List.mem_append,List.mem_singleton,not_or]
  exact ⟨⟨⟨⟨(padded_all width i).nulFree,some.symm⟩,(padded_all 2 j).nulFree⟩,some.symm⟩,
    (padded_all 2 k).nulFree⟩

section
variable (printers : Printers) (out : Surroundings) (m : Mvalue) (col : DictColumn) (shown : Column)
  (raw : Text)

theorem value_date (val : Text) (date : isDateCol col.type = true) (nulFree : 0 ∉ val) :
    value out m (some col) (some val) = dateValue {m with column := some col} col val := by
  have char : isCharCol col.type = false := by
    revert date
    cases col.type <;> intro date <;> first | rfl | cases date
  unfold value
  dsimp only
  rw [cstring_self val nulFree,char,date]
  rfl

theorem time_printed (type : shown.type = .time) (other : signedOf 3 raw ≠ -99) :
    (MySQL.out printers shown raw none).bytes =
      (if signedOf 3 raw < 0 then [code '-'] else []) ++ spaced (code ':') 2
        ((signedOf 3 raw).natAbs / 10000) ((signedOf 3 raw).natAbs / 100 % 100)
        ((signedOf 3 raw).natAbs % 100) := by
  have range := signedOf_range 3 raw
  unfold MySQL.out fieldToTm spaced
  rw [type]
  dsimp only
  rw [if_pos other,factorHHMMSS_eq _ (by omega) (by omega)]
  simp only [plain,List.append_assoc,decide_eq_true_eq]

theorem time_read (i : Int) (low : -2^31 < i) (high : i < 2^31) :
    toInt32 (strtol 10 (dateDigits ((if i < 0 then [code '-'] else []) ++
      spaced (code ':') 2 (i.natAbs / 10000) (i.natAbs / 100 % 100) (i.natAbs % 100)))) = i := by
  have short := spaced_length 2 (i.natAbs / 10000) (i.natAbs / 100 % 100) (i.natAbs % 100) (code ':') 6
    (by decide) (by decide) (by omega) (by omega) (by omega)
  have size := spaced_value 2 (i.natAbs / 10000) (i.natAbs / 100 % 100) (i.natAbs % 100) (by omega) (by omega)
  have all := spaced_all 2 (i.natAbs / 10000) (i.natAbs / 100 % 100) (i.natAbs % 100)
  have some := spaced_ne_nil 2 (i.natAbs / 10000) (i.natAbs / 100 % 100) (i.natAbs % 100)
  by_cases negative : i < 0
  · rw [if_pos negative,List.singleton_append,dateDigits_minus _ (by omega),
      spaced_filter _ (by decide),strtol_minus _ all (by omega),size]
    rw [show -((i.natAbs / 10000 * 10000 + i.natAbs / 100 % 100 * 100 + i.natAbs % 100 : Nat) : Int) = i
      from by omega]
    exact toInt32_small i (by omega) high
  · rw [if_neg negative,List.nil_append,spaced_read _ _ _ _ _ (by decide) (by omega),
      strtol_digits _ all some (by omega),size]
    rw [show ((i.natAbs / 10000 * 10000 + i.natAbs / 100 % 100 * 100 + i.natAbs % 100 : Nat) : Int) = i
      from by omega]
    exact toInt32_small i (by omega) high

theorem time_kept (type : col.type = .time) (same : shown.type = col.type) (sized : raw.length = 3)
    (other : signedOf 3 raw ≠ -99) : Keeps printers out m col shown raw := by
  have range := signedOf_range 3 raw
  have free : 0 ∉ (MySQL.out printers shown raw none).bytes := by
    rw [time_printed printers shown raw (same.trans type) other,List.mem_append,not_or]
    refine ⟨?_,spaced_nulFree _ (by decide) _ _ _ _⟩
    split <;> decide
  unfold Keeps
  rw [value_date out m col _ (by rw [type]; rfl) free,time_printed printers shown raw (same.trans type) other]
  unfold dateValue
  rw [type]
  dsimp only
  rw [time_read _ (by omega) (by omega),sized]
  exact storeInt_signed raw 3 sized _

theorem ofInt_natCast (n : Nat) : UInt32.ofInt (n : Int) = UInt32.ofNat n := by
  unfold UInt32.ofInt
  apply UInt32.toNat_inj.mp
  rw [UInt32.toNat_ofNat',UInt32.toNat_ofNat']
  omega

theorem packed_bits (year month day : Nat) (fits : year < 2^14) (fits' : month < 16) (fits'' : day < 32) :
    (UInt32.ofNat year <<< 9 ||| UInt32.ofNat month <<< 5 ||| UInt32.ofNat day).toNat =
      year * 512 + month * 32 + day := by
  have whole (n : Nat) (small : n < 2^32) : n % 2^32 = n := Nat.mod_eq_of_lt small
  rw [UInt32.toNat_or,UInt32.toNat_or,UInt32.toNat_shiftLeft,UInt32.toNat_shiftLeft,
    UInt32.toNat_ofNat',UInt32.toNat_ofNat',UInt32.toNat_ofNat']
  rw [whole year (by omega),whole month (by omega),whole day (by omega)]
  change ((year <<< 9) % 2^32 ||| (month <<< 5) % 2^32 ||| day) = _
  have high : (year <<< 9) % 2^32 = (year * 16) <<< 5 := by
    rw [Nat.shiftLeft_eq,Nat.shiftLeft_eq]
    omega
  have low : (month <<< 5) % 2^32 = month <<< 5 := by
    rw [Nat.shiftLeft_eq]
    omega
  have both : (year * 16) <<< 5 ||| month <<< 5 = (year * 16 + month) <<< 5 := by
    have fits₄ : month < 2^4 := fits'
    rw [← Nat.shiftLeft_or_distrib,← Nat.shiftLeft_eq year 4,← Nat.shiftLeft_add_eq_or_of_lt fits₄]
  rw [high,low,both,← Nat.shiftLeft_add_eq_or_of_lt fits'',Nat.shiftLeft_eq]
  omega

theorem packDate_eq (year month day : Nat) (fits : year ≤ 9999) (fits' : month < 16) (fits'' : day < 32) :
    packDate ((year * 10000 + month * 100 + day : Nat) : Int) = year * 512 + month * 32 + day := by
  have parts : ((((year * 10000 + month * 100 + day : Nat) : Int).tdiv 10000).tmod 10000 = (year : Nat)) ∧
      ((((year * 10000 + month * 100 + day : Nat) : Int).tdiv 100).tmod 100 = (month : Nat)) ∧
      (((year * 10000 + month * 100 + day : Nat) : Int).tmod 100 = (day : Nat)) := by
    refine ⟨?_,?_,?_⟩
    · change (((year * 10000 + month * 100 + day) / 10000 % 10000 : Nat) : Int) = _
      omega
    · change (((year * 10000 + month * 100 + day) / 100 % 100 : Nat) : Int) = _
      omega
    · change (((year * 10000 + month * 100 + day) % 100 : Nat) : Int) = _
      omega
  unfold packDate
  rw [parts.1,parts.2.1,parts.2.2,ofInt_natCast,ofInt_natCast,ofInt_natCast]
  exact packed_bits year month day (by omega) fits' fits''

theorem date_kept (type : col.type = .date) (same : shown.type = col.type) (sized : raw.length = 3)
    (year : unsignedOf 3 raw / 512 ≤ 9999) : Keeps printers out m col shown raw := by
  have printed : (MySQL.out printers shown raw none).bytes = spaced (code '-') 4
      (unsignedOf 3 raw / 512) (unsignedOf 3 raw / 32 % 16) (unsignedOf 3 raw % 32) := by
    unfold MySQL.out fieldToTm spaced
    rw [same,type]
    rfl
  have short := spaced_length 4 (unsignedOf 3 raw / 512) (unsignedOf 3 raw / 32 % 16)
    (unsignedOf 3 raw % 32) (code '-') 4 (by decide) (by decide) (by omega) (by omega) (by omega)
  have size := spaced_value 4 (unsignedOf 3 raw / 512) (unsignedOf 3 raw / 32 % 16)
    (unsignedOf 3 raw % 32) (by omega) (by omega)
  have packed := packDate_eq (unsignedOf 3 raw / 512) (unsignedOf 3 raw / 32 % 16)
    (unsignedOf 3 raw % 32) year (by omega) (by omega)
  have whole : unsignedOf 3 raw / 512 * 512 + unsignedOf 3 raw / 32 % 16 * 32 + unsignedOf 3 raw % 32 =
      unsignedOf 3 raw := by omega
  unfold Keeps
  rw [printed,value_date out m col _ (by rw [type]; rfl) (spaced_nulFree _ (by decide) _ _ _ _)]
  unfold dateValue
  rw [type]
  dsimp only
  rw [spaced_read _ _ _ _ _ (by decide) (by omega),
    strtol_digits _ (spaced_all _ _ _ _) (spaced_ne_nil _ _ _ _) (by omega),size,
    toInt32_small _ (by omega) (by omega),packed,whole,sized]
  exact storeInt_unsigned raw 3 sized _

theorem fieldToTm_datetime (below : unsignedOf 8 raw < 10^14) :
    fieldToTm .datetime raw = {Tm.zero with
      year := (unsignedOf 8 raw / 1000000 / 10000 : Nat),
      month := (unsignedOf 8 raw / 1000000 / 100 % 100 : Nat),
      day := (unsignedOf 8 raw / 1000000 % 100 : Nat),
      hour := (unsignedOf 8 raw % 1000000 / 10000 : Nat),
      minute := (unsignedOf 8 raw % 1000000 / 100 % 100 : Nat),
      second := (unsignedOf 8 raw % 1000000 % 100 : Nat)} := by
  generalize number : unsignedOf 8 raw = n at *
  have date : toInt32 ((n / 1000000 : Nat) : Int) = (n / 1000000 : Nat) :=
    toInt32_small _ (by omega) (by omega)
  have time : toInt32 ((n : Int) - ((n / 1000000 : Nat) : Int) * 1000000) = (n % 1000000 : Nat) := by
    have rest : (n : Int) - ((n / 1000000 : Nat) : Int) * 1000000 = (n % 1000000 : Nat) := by omega
    rw [rest]
    exact toInt32_small _ (by omega) (by omega)
  have year : (((n / 1000000 / 10000 % 10000 : Nat)) : Int) = (n / 1000000 / 10000 : Nat) := by omega
  unfold fieldToTm
  dsimp only
  rw [number,date,time,if_pos (by omega),if_pos (by omega),factorHHMMSS_eq _ (by omega) (by omega)]
  unfold factorYYYYMMDD
  have whole : decide ((((n % 1000000 : Nat)) : Int) < 0) = false :=
    decide_eq_false (Int.not_lt.mpr (Int.natCast_nonneg _))
  rw [← year,whole]
  rfl

theorem datetime_printed (type : shown.type = .datetime) (below : unsignedOf 8 raw < 10^14) :
    (MySQL.out printers shown raw none).bytes =
      spaced (code '-') 4 (unsignedOf 8 raw / 1000000 / 10000) (unsignedOf 8 raw / 1000000 / 100 % 100)
        (unsignedOf 8 raw / 1000000 % 100) ++ [code ' '] ++
      spaced (code ':') 2 (unsignedOf 8 raw % 1000000 / 10000) (unsignedOf 8 raw % 1000000 / 100 % 100)
        (unsignedOf 8 raw % 1000000 % 100) := by
  unfold MySQL.out
  rw [type,fieldToTm_datetime raw below]
  unfold spaced
  simp only [plain,List.append_assoc]

/-- A date and a time that are printed one behind the other are read as one number. -/
theorem datetime_digits (year month day hour minute second : Nat) (fits : year ≤ 9999)
    (small : month < 100 ∧ day < 100 ∧ hour < 100 ∧ minute < 100 ∧ second < 100) :
    ∃ ds, dateDigits (spaced (code '-') 4 year month day ++ [code ' '] ++
        spaced (code ':') 2 hour minute second) = ds ∧ AllDigits ds ∧ ds ≠ [] ∧
      behind 0 ds = (year * 10000 + month * 100 + day) * 1000000 +
        (hour * 10000 + minute * 100 + second) := by
  obtain ⟨small₁,small₂,small₃,small₄,small₅⟩ := small
  have shortDate := spaced_length 4 year month day (code '-') 4 (by decide) (by decide) (by omega) small₁ small₂
  have shortTime := spaced_length 2 hour minute second (code ':') 2 (by decide) (by decide) small₃ small₄ small₅
  have read : dateDigits (spaced (code '-') 4 year month day ++ [code ' '] ++
      spaced (code ':') 2 hour minute second) =
      (padded 4 year ++ (padded 2 month ++ padded 2 day)) ++
        (padded 2 hour ++ (padded 2 minute ++ padded 2 second)) := by
    rw [List.append_assoc,spaced_digits]
    · rw [List.filter_append,List.filter_append,spaced_filter _ (by decide),spaced_filter _ (by decide)]
      rfl
    · rw [List.length_append,List.length_append,List.length_singleton]
      omega
  refine ⟨_,read,(spaced_all 4 year month day).append (spaced_all 2 hour minute second),?_,?_⟩
  · exact List.append_ne_nil_of_left_ne_nil (spaced_ne_nil 4 year month day) _
  · rw [behind_append,behind_zero,spaced_width hour minute second small₃ small₄ small₅,
      spaced_value 4 year month day small₁ small₂,spaced_value 2 hour minute second small₄ small₅]
    rfl

theorem datetime_kept (type : col.type = .datetime) (same : shown.type = col.type) (sized : raw.length = 8)
    (below : unsignedOf 8 raw < 10^14) : Keeps printers out m col shown raw := by
  obtain ⟨ds,read,all,some,size⟩ := datetime_digits (unsignedOf 8 raw / 1000000 / 10000)
    (unsignedOf 8 raw / 1000000 / 100 % 100) (unsignedOf 8 raw / 1000000 % 100)
    (unsignedOf 8 raw % 1000000 / 10000) (unsignedOf 8 raw % 1000000 / 100 % 100)
    (unsignedOf 8 raw % 1000000 % 100) (by omega) (by omega)
  have whole : behind 0 ds = unsignedOf 8 raw := by omega
  have number : strtoul 10 ds = unsignedOf 8 raw := by
    unfold strtoul
    rw [readNumber_digits ds all some,whole]
    exact if_neg (by omega)
  unfold Keeps
  rw [datetime_printed printers shown raw (same.trans type) below,value_date out m col _ (by rw [type]; rfl)]
  · unfold dateValue
    rw [type]
    dsimp only
    rw [read,number,sized]
    exact storeInt_unsigned raw 8 sized _
  · rw [List.mem_append,List.mem_append,not_or,not_or]
    exact ⟨⟨spaced_nulFree _ (by decide) _ _ _ _,by decide⟩,spaced_nulFree _ (by decide) _ _ _ _⟩

/-- The time that stands for no time is printed as zero. -/
theorem no_time_lost (type : col.type = .time) (same : shown.type = col.type) (sized : raw.length = 3)
    (none : signedOf 3 raw = -99) : ¬Keeps printers out m col shown raw := by
  have printed : (MySQL.out printers shown raw Option.none).bytes = text "00:00:00" := by
    unfold MySQL.out fieldToTm
    rw [same,type]
    dsimp only
    rw [none]
    rfl
  intro kept
  unfold Keeps at kept
  rw [printed,value_date out m col _ (by rw [type]; rfl) (by decide)] at kept
  have zero : (dateValue {m with column := some col} col (text "00:00:00")).u.take 3 = [0,0,0] := by
    unfold dateValue
    rw [type]
    rfl
  rw [sized,zero] at kept
  rw [← kept] at none
  exact absurd none (by decide)

/-- A stored time, date or both is stored again from what is printed of it, except for the
time -99. -/
theorem moments_kept_iff (moment : IsMoment col.type raw) (same : shown.type = col.type) :
    Keeps printers out m col shown raw ↔ ¬(col.type = .time ∧ signedOf 3 raw = -99) := by
  cases type : col.type with
  | time =>
    rw [type] at moment
    refine ⟨?_,fun other => ?_⟩
    · rintro kept ⟨_,none⟩
      exact no_time_lost printers out m col shown raw type same moment none kept
    · exact time_kept printers out m col shown raw type same moment fun none => other ⟨rfl,none⟩
  | date =>
    rw [type] at moment
    exact iff_of_true (date_kept printers out m col shown raw type same moment.1 moment.2)
      fun time => by cases time.1
  | datetime =>
    rw [type] at moment
    exact iff_of_true (datetime_kept printers out m col shown raw type same moment.1 moment.2)
      fun time => by cases time.1
  | _ =>
    rw [type] at moment
    exact moment.elim

end

/-- A negative time, a date and a moment come back. -/
theorem moments_kept_some :
    Keeps ⟨id,id,fun _ _ => id⟩ ⟨[],[],fun _ => 0,id,id,fun _ _ => id⟩ .zero
      ⟨text "t",0,.time,0,0,0,true⟩ ⟨text "t",.time,0,0⟩ [254,255,255] ∧
    Keeps ⟨id,id,fun _ _ => id⟩ ⟨[],[],fun _ => 0,id,id,fun _ _ => id⟩ .zero
      ⟨text "d",0,.date,0,0,0,true⟩ ⟨text "d",.date,0,0⟩ [97,178,15] :=
  ⟨(moments_kept_iff _ _ _ _ _ [254,255,255] (by exact Eq.refl 3) rfl).mpr (by decide),
    (moments_kept_iff _ _ _ _ _ [97,178,15] (by exact ⟨rfl,by decide⟩) rfl).mpr (by decide)⟩

/-- The time -00:00:99 comes back as zero. -/
theorem time_lost :
    ¬Keeps ⟨id,id,fun _ _ => id⟩ ⟨[],[],fun _ => 0,id,id,fun _ _ => id⟩ .zero
      ⟨text "t",0,.time,0,0,0,true⟩ ⟨text "t",.time,0,0⟩ [157,255,255] := by
  unfold Keeps
  decide +kernel

end ModNdb.MySQL
