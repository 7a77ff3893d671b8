import ModNdb.MySQL.Value

/-! Which texts `MySQL::value` encodes for a column, and which of the values it leaves are
usable. Neither depends on what the `mvalue` held before. -/
namespace ModNdb.MySQL

def dynamicTexts : List Text :=
  [text "@null",text "@++",text "@--",text "@time",text "@autoinc"]

/-- The columns of bytes, which only `binary_value` writes. -/
def isBinaryCol : ColType → Bool
  | .text | .blob | .longvarbinary | .varbinary | .binary => true
  | _ => false

def isUnsupported : ColType → Bool
  | .undefined | .olddecimal | .olddecimalunsigned => true
  | _ => false

def encodes (type : ColType) : Option Text → Bool
  | none => isCharCol type || isDateCol type
  | some val => isCharCol type || isDateCol type || decide (cstring val ∈ dynamicTexts) ||
      !(isBinaryCol type || isUnsupported type)

section
variable (out : Surroundings) (m : Mvalue) (col : DictColumn)

theorem charValue_use (val : Text) : (charValue out m col val).useValue = .useChar := by
  unfold charValue
  cases col.type <;> rfl

theorem dateValue_good (val : Text) : (dateValue m col val).useValue.isGood = true := by
  unfold dateValue
  cases col.type <;> rfl

theorem dynamicValue_eq_none_iff (type : ColType) (val : Text) :
    dynamicValue out m type val = none ↔ val ∉ dynamicTexts := by
  unfold dynamicValue dynamicTexts
  simp only [List.mem_cons,List.not_mem_nil,or_false,not_or]
  split_ifs <;> simp_all

theorem dynamicValue_good (type : ColType) (val : Text) (mval : Mvalue)
    (dynamic : dynamicValue out m type val = some mval) : mval.useValue.isGood = true := by
  unfold dynamicValue at dynamic
  split_ifs at dynamic <;> cases dynamic <;> rfl

theorem clamped_use (use : MvalueUse) (bytes : Nat) (low high : Int) (val : Text) :
    (clamped use bytes low high val m).useValue = use := by
  unfold clamped
  dsimp only
  split_ifs <;> rfl

/-- What a number leaves that was read for a column of neither characters nor dates. -/
theorem numericValue_good (val : Text) (char : isCharCol col.type = false)
    (date : isDateCol col.type = false) : (numericValue out m col val).useValue.isGood =
      !(isBinaryCol col.type || isUnsupported col.type) := by
  unfold numericValue
  revert char date
  cases col.type <;> intro char date <;>
    first
    | rfl
    | exact absurd char (by decide)
    | exact absurd date (by decide)
    | exact congrArg MvalueUse.isGood (clamped_use _ _ _ _ _ _)

/-- A value is usable exactly if it was encoded. -/
theorem value_isGood (val : Option Text) :
    (value out m (some col) val).useValue.isGood = encodes col.type val := by
  unfold value encodes
  cases val with
  | none =>
    dsimp only
    by_cases null : isCharCol col.type = true ∨ isDateCol col.type = true
    · rw [if_pos null,Bool.or_eq_true_iff.mpr null]
      rfl
    · rw [if_neg null,Bool.eq_false_iff.mpr fun some => null (Bool.or_eq_true_iff.mp some)]
      rfl
  | some val =>
    dsimp only
    cases char : isCharCol col.type with
    | true =>
      rw [if_pos rfl,charValue_use]
      rfl
    | false =>
      cases date : isDateCol col.type with
      | true =>
        rw [if_neg Bool.false_ne_true,if_pos rfl,dateValue_good]
        rfl
      | false =>
        rw [if_neg Bool.false_ne_true,if_neg Bool.false_ne_true]
        cases dynamic : dynamicValue out {m with column := some col} col.type (cstring val) with
        | none =>
          have plain := (dynamicValue_eq_none_iff out _ col.type (cstring val)).mp dynamic
          rw [Option.getD_none,numericValue_good out _ col _ char date,decide_eq_false plain]
          rfl
        | some mval =>
          have listed : cstring val ∈ dynamicTexts := by
            by_contra plain
            rw [(dynamicValue_eq_none_iff out _ col.type (cstring val)).mpr plain] at dynamic
            cases dynamic
          rw [Option.getD_some,dynamicValue_good out _ col.type _ mval dynamic,decide_eq_true listed]
          rfl

end

end ModNdb.MySQL
