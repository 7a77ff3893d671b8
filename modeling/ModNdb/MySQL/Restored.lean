import ModNdb.Format.JsonValue
import ModNdb.MySQL.Moments
import ModNdb.MySQL.Usable
import ModNdb.MySQL.Binary

/-! Columns that are stored again from the text that was printed of them: when what NDB is handed
for a column begins with what the column holds. -/
namespace ModNdb.MySQL
open Format (columnText)

/-- What `set_up_write` makes of a text for a column. -/
def encoded (out : Surroundings) (m : Mvalue) (col : DictColumn) (val : Text) : Mvalue :=
  let m := value out m (some col) (some val)
  if m.useValue = .mustUseBinary then binaryValue out m col val else m

def extent (type : ColType) (length : Nat) (raw : Text) : Nat :=
  match type with
  | .char | .binary => length
  | .varchar | .varbinary => 1 + unsignedOf 1 raw
  | .longvarchar | .longvarbinary => 2 + unsignedOf 2 raw
  | _ => raw.length

def content (w : Nat) (raw : Text) : Text := (raw.drop w).take (unsignedOf w raw)

def Counted (w length : Nat) (raw : Text) : Prop :=
  w + unsignedOf w raw ≤ raw.length ∧ unsignedOf w raw ≤ length ∧ length < 2^(8 * w)

/-- What a column of a type holds, where the type is not a floating one. -/
def Stored (col : DictColumn) (raw : Text) : Prop :=
  match col.type with
  | .char | .binary => raw.length = col.length ∧ col.length < 2^32
  | .varchar | .varbinary => Counted 1 col.length raw
  | .longvarchar | .longvarbinary => Counted 2 col.length raw
  | .time | .date | .datetime => IsMoment col.type raw
  | .year => raw.length = 1
  | .text => True
  | _ => intBytes col.type = some raw.length

def Told (type : ColType) (raw : Text) : Prop :=
  match type with
  | .time => signedOf 3 raw ≠ -99
  | .char => 0 ∉ raw
  | .varchar => 0 ∉ content 1 raw
  | .longvarchar => 0 ∉ content 2 raw
  | .varbinary => (content 1 raw).getLast? ≠ some 0
  | .longvarbinary => (content 2 raw).getLast? ≠ some 0
  | .text => cstring raw ∉ dynamicTexts
  | _ => True

/-- Bytes that are kept in the union, and not behind a pointer. -/
def MvalueUse.isInside : MvalueUse → Bool
  | .useSigned | .useUnsigned | .use64 | .useUnsigned64 => true
  | _ => false

theorem cstring_take_take (s : Text) : cstring (cstring s) = cstring s :=
  cstring_self _ (cstring_nulFree s)

/-- A value is encoded of a string up to its first NUL. -/
theorem value_cstring (out : Surroundings) (m : Mvalue) (col : DictColumn) (val : Text) :
    value out m (some col) (some val) = value out m (some col) (some (cstring val)) := by
  unfold value
  dsimp only
  rw [cstring_take_take]

section
variable (s : Text)

theorem rdropWhile_zeros_of (p : UInt8 → Bool) (zeros : ∀ c, p c = true → c = 0) :
    s.rdropWhile p ++ List.replicate (s.length - (s.rdropWhile p).length) 0 = s := by
  induction s using List.reverseRecOn with
  | nil => rfl
  | append_singleton s c ih =>
    by_cases zero : p c = true
    · rw [List.rdropWhile_concat_pos p s c zero,List.length_append,List.length_singleton]
      have shorter : (s.rdropWhile p).length ≤ s.length := (List.rdropWhile_prefix p s).length_le
      rw [Nat.succ_sub shorter,List.replicate_succ',← List.append_assoc,ih,zeros c zero]
    · rw [List.rdropWhile_concat_neg p s c zero,Nat.sub_self,List.replicate_zero,List.append_nil]

/-- Without the NULs at its end a string is shorter, if it has any there. -/
theorem trimmed_length_iff : (s.rdropWhile (· = 0)).length = s.length ↔ s.getLast? ≠ some 0 := by
  induction s using List.reverseRecOn with
  | nil => simp
  | append_singleton s c ih =>
    rw [List.getLast?_concat]
    by_cases zero : c = 0
    · have shorter : (s.rdropWhile (· = 0)).length ≤ s.length := (List.rdropWhile_prefix _ s).length_le
      rw [List.rdropWhile_concat_pos _ s c (by simpa using zero),List.length_append,
        List.length_singleton]
      exact iff_of_false (by omega) (by simp [zero])
    · rw [List.rdropWhile_concat_neg _ s c (by simpa using zero)]
      exact iff_of_true rfl (by simp [zero])

theorem cstring_trimmed : cstring (s.rdropWhile (· = 0)) = cstring s := by
  have split := rdropWhile_zeros_of s (· = 0) fun c zero => of_decide_eq_true zero
  conv_rhs => rw [← split]
  unfold cstring
  rw [List.takeWhile_append]
  split_ifs with whole
  · rw [show (List.replicate _ (0 : UInt8)).takeWhile (fun c => decide (c ≠ 0)) = [] from ?_]
    · rw [List.append_nil]
      exact (List.takeWhile_prefix _).eq_of_length whole
    · cases s.length - (s.rdropWhile (· = 0)).length <;> rfl
  · rfl

theorem cstring_self_iff : cstring s = s ↔ 0 ∉ s :=
  ⟨fun same => same ▸ cstring_nulFree s,cstring_self s⟩

theorem cstring_length : (cstring s).length ≤ s.length := (List.takeWhile_prefix _).length_le

end

section
variable (out : Surroundings) (m : Mvalue) (col : DictColumn) (val raw : Text)

theorem encoded_value (good : (value out m (some col) (some val)).useValue ≠ .mustUseBinary) :
    encoded out m col val = value out m (some col) (some val) := if_neg good

theorem isInside_other {use : MvalueUse} (inside : use.isInside = true) : use ≠ .mustUseBinary := by
  rintro rfl
  cases inside

theorem clamped_inside (use : MvalueUse) (bytes : Nat) (low high : Int) (inside : use.isInside = true) :
    (clamped use bytes low high val m).useValue.isInside = true := by
  unfold clamped
  dsimp only
  split_ifs <;> exact inside

theorem numericValue_inside (typed : intBytes col.type ≠ none ∨ col.type = .year) :
    (numericValue out m col val).useValue.isInside = true := by
  unfold numericValue
  cases type : col.type <;> rw [type] at typed <;>
    first
      | rfl
      | exact clamped_inside m val _ _ _ _ rfl
      | exact typed.elim (fun some => absurd rfl some) fun year => by cases year

theorem dateValue_inside : (dateValue m col val).useValue.isInside = true := by
  unfold dateValue
  cases col.type <;> rfl

theorem integer_restored (printers : Printers) (shown : Column) (same : shown.type = col.type)
    (typed : intBytes col.type = some raw.length) :
    (encoded out m col (columnText printers shown raw)).useValue.isInside = true ∧
      (encoded out m col (columnText printers shown raw)).u.take raw.length = raw := by
  obtain ⟨char,date⟩ := intBytes_plain col.type _ typed
  have printed : columnText printers shown raw =
      decimalInt (Platform.printedInt .other shown.type raw) := by
    unfold columnText
    rw [← Platform.out_other]
    exact Platform.out_printedInt .other _ printers shown raw (same ▸ typed)
  have number := Platform.value_number .other out m col (Platform.printedInt .other shown.type raw)
    char date
  rw [Platform.value_other,Platform.numericValue_other] at number
  have inside : (value out m (some col) (some (columnText printers shown raw))
      ).useValue.isInside = true := by
    rw [printed,number]
    exact numericValue_inside out _ col _ (.inl (typed ▸ Option.some_ne_none _))
  rw [encoded_value out m col _ (isInside_other inside)]
  refine ⟨inside,?_⟩
  rw [printed,number,← Platform.numericValue_other,Platform.numericValue_take .other _ out _ col _ typed,
    same]
  exact Platform.parsed_printed .other _ col.type raw m typed rfl

theorem year_restored (printers : Printers) (shown : Column) (same : shown.type = col.type)
    (type : col.type = .year) (sized : raw.length = 1) :
    (encoded out m col (columnText printers shown raw)).useValue.isInside = true ∧
      (encoded out m col (columnText printers shown raw)).u.take 1 = raw := by
  have below : unsignedOf 1 raw < 2^(8 * 1) := unsignedOf_lt raw 1 sized
  have four : ∀ n : Fin 256, padded 4 (1900 + (n.val : Int)) = decimalInt (1900 + (n.val : Int)) := by
    decide +kernel
  have printed : columnText printers shown raw =
      decimalInt (1900 + (unsignedOf 1 raw : Int)) := by
    unfold columnText MySQL.out
    rw [same,type]
    exact four ⟨_,below⟩
  have number := Platform.value_number .other out m col (1900 + (unsignedOf 1 raw : Int))
    (by rw [type]; rfl) (by rw [type]; rfl)
  rw [Platform.value_other,Platform.numericValue_other] at number
  have inside : (value out m (some col) (some (columnText printers shown raw))
      ).useValue.isInside = true := by
    rw [printed,number]
    exact numericValue_inside out _ col _ (.inr type)
  rw [encoded_value out m col _ (isInside_other inside)]
  refine ⟨inside,?_⟩
  have read : toInt32 (strtol 0 (decimalInt (1900 + (unsignedOf 1 raw : Int))) - 1900) =
      unsignedOf 1 raw := by
    rw [strtol_decimalInt 0 (.inl rfl),toInt32_small _ (by omega) (by omega)]
    omega
  rw [printed,number]
  unfold numericValue
  rw [type]
  dsimp only
  rw [read,storeInt_take,leBytes_natural raw 1 sized m]

theorem moment_restored (printers : Printers) (shown : Column) (same : shown.type = col.type)
    (moment : IsMoment col.type raw) :
    (encoded out m col (columnText printers shown raw)).useValue.isInside = true ∧
      ((encoded out m col (columnText printers shown raw)).u.take raw.length = raw ↔
        ¬(col.type = .time ∧ signedOf 3 raw = -99)) := by
  have date : isCharCol col.type = false ∧ isDateCol col.type = true := by
    cases type : col.type <;> rw [type] at moment <;> first | exact ⟨rfl,rfl⟩ | exact moment.elim
  have inside : (value out m (some col) (some (columnText printers shown raw))
      ).useValue.isInside = true := by
    unfold value
    dsimp only
    rw [date.1,if_neg Bool.false_ne_true,date.2,if_pos rfl]
    exact dateValue_inside _ col _
  rw [encoded_value out m col _ (isInside_other inside)]
  refine ⟨inside,?_⟩
  cases type : col.type with
  | time =>
    rw [type] at moment
    constructor
    · rintro kept ⟨_,none⟩
      exact no_time_lost printers out m col shown raw type same moment none kept
    · exact fun other => time_kept printers out m col shown raw type same moment fun none =>
        other ⟨rfl,none⟩
  | date =>
    rw [type] at moment
    exact iff_of_true (date_kept printers out m col shown raw type same moment.1 moment.2)
      fun time => by cases time.1
  | datetime =>
    rw [type] at moment
    exact iff_of_true (datetime_kept printers out m col shown raw type same moment.1 moment.2)
      fun time => by cases time.1
  | _ =>
    rw [type] at moment
    exact moment.elim

/-- A string is handed to NDB in a block of its own. -/
theorem char_encoded (char : isCharCol col.type = true) :
    encoded out m col val = charValue out {m with column := some col} col (cstring val) := by
  have encodes : value out m (some col) (some val) =
      charValue out {m with column := some col} col (cstring val) := by
    unfold value
    dsimp only
    rw [char,if_pos rfl]
  rw [← encodes]
  apply encoded_value
  rw [encodes,charValue_use]
  exact fun other => by cases other

theorem char_restored (printers : Printers) (shown : Column) (same : shown.type = col.type)
    (type : col.type = .char) (sized : raw.length = col.length) (small : col.length < 2^32) :
    (encoded out m col (columnText printers shown raw)).target.bytes.take col.length = raw ↔
      0 ∉ raw := by
  have printed : columnText printers shown raw = raw.rdropWhile (· = 0) := by
    unfold columnText MySQL.out printString stringBytes
    rw [same,type]
    rfl
  have short : (cstring raw).length ≤ col.length := sized ▸ cstring_length raw
  have cut : (if col.length < (cstring raw).length % 2^32 then col.length
      else (cstring raw).length % 2^32) = (cstring raw).length := by
    rw [Nat.mod_eq_of_lt (by omega),if_neg (by omega)]
  have bytes : (encoded out m col (columnText printers shown raw)).target.bytes =
      cstring raw ++ List.replicate (col.length - (cstring raw).length) 32 ++ [0] := by
    rw [char_encoded out m col _ (by rw [type]; rfl),printed,cstring_trimmed]
    unfold charValue
    rw [type]
    dsimp only
    rw [cut,List.take_length]
    rfl
  have whole : (cstring raw ++ List.replicate (col.length - (cstring raw).length) (32 : UInt8)).length =
      col.length := by
    rw [List.length_append,List.length_replicate]
    omega
  rw [bytes,List.take_left' whole]
  constructor
  · intro padded zero
    rw [← padded,List.mem_append] at zero
    rcases zero with zero | zero
    · exact cstring_nulFree raw zero
    · cases List.eq_of_mem_replicate zero
  · intro nulFree
    rw [cstring_self raw nulFree,sized,Nat.sub_self,List.replicate_zero,List.append_nil]

theorem counted_take (w : Nat) (bytes rest : Text) :
    (leBytes w bytes.length ++ (bytes ++ rest)).take (w + bytes.length) =
      leBytes w bytes.length ++ bytes := by
  rw [← List.append_assoc]
  exact List.take_left' (by rw [List.length_append,leBytes_length])

theorem counted_split (w length : Nat) (counted : Counted w length raw) :
    (content w raw).length = unsignedOf w raw ∧
      raw.take (w + unsignedOf w raw) = leBytes w (unsignedOf w raw) ++ content w raw := by
  have first : raw.take w = leBytes w (unsignedOf w raw) := by
    have natural := leBytes_natural (raw.take w) w (List.length_take_of_le
      (Nat.le_trans (Nat.le_add_right _ _) counted.1)) .zero
    have same : unsignedOf w (raw.take w) = unsignedOf w raw := by
      unfold unsignedOf
      rw [List.take_take,Nat.min_self]
    have below : unsignedOf w raw < 2^(8 * w) := Nat.lt_of_le_of_lt counted.2.1 counted.2.2
    rw [same,Int.emod_eq_of_lt (Int.natCast_nonneg _) (by exact_mod_cast below),Int.toNat_natCast]
      at natural
    exact natural.symm
  refine ⟨?_,by rw [List.take_add,first]; rfl⟩
  unfold content
  rw [List.length_take,List.length_drop]
  have fits := counted.1
  omega

/-- Bytes behind their length are those of a string exactly if there are as many, and the same. -/
theorem counted_same (w length : Nat) (counted : Counted w length raw) (bytes rest : Text)
    (short : bytes.length ≤ unsignedOf w raw) :
    (leBytes w bytes.length ++ (bytes ++ rest)).take (w + unsignedOf w raw) =
      raw.take (w + unsignedOf w raw) ↔ bytes = content w raw := by
  obtain ⟨size,split⟩ := counted_split raw w length counted
  have below : unsignedOf w raw < 2^(8 * w) := Nat.lt_of_le_of_lt counted.2.1 counted.2.2
  rw [split]
  constructor
  · intro same
    have lengths := congrArg (unsignedOf w) same
    rw [← List.append_nil (content w raw),le_leBytes,Nat.mod_eq_of_lt below] at lengths
    have first : unsignedOf w ((leBytes w bytes.length ++ (bytes ++ rest)).take
        (w + unsignedOf w raw)) = bytes.length := by
      have cut : unsignedOf w ((leBytes w bytes.length ++ (bytes ++ rest)).take
          (w + unsignedOf w raw)) = unsignedOf w (leBytes w bytes.length ++ (bytes ++ rest)) := by
        unfold unsignedOf
        rw [List.take_take,Nat.min_eq_left (Nat.le_add_right _ _)]
      rw [cut,le_leBytes,Nat.mod_eq_of_lt (Nat.lt_of_le_of_lt short below)]
    rw [first] at lengths
    rw [← lengths,counted_take] at same
    exact List.append_cancel_left same
  · rintro rfl
    rw [← size,counted_take]

theorem string_restored (printers : Printers) (shown : Column) (same : shown.type = col.type)
    (w : Nat) (sized : lengthBytes col.type = some w) (counted : Counted w col.length raw) :
    (encoded out m col (columnText printers shown raw)).target.bytes.take
        (w + unsignedOf w raw) = raw.take (w + unsignedOf w raw) ↔ 0 ∉ content w raw := by
  have size := (counted_split raw w col.length counted).1
  have printed : columnText printers shown raw = (content w raw).rdropWhile (· = 0) := by
    unfold columnText MySQL.out printString stringBytes content
    rw [same]
    cases type : col.type <;> rw [type] at sized <;> cases sized <;> rfl
  have char : isCharCol col.type = true := by
    cases type : col.type <;> rw [type] at sized <;> first | rfl | cases sized
  have short : (cstring (content w raw)).length ≤ unsignedOf w raw := size ▸ cstring_length _
  have narrow : storedLength w col (cstring (content w raw)) = (cstring (content w raw)).length := by
    unfold storedLength
    rw [Nat.mod_eq_of_lt (Nat.lt_of_le_of_lt (short.trans counted.2.1) counted.2.2)]
    exact Nat.min_eq_left (short.trans counted.2.1)
  have bytes : (encoded out m col (columnText printers shown raw)).target.bytes =
      leBytes w (cstring (content w raw)).length ++ (cstring (content w raw) ++ [0]) := by
    have built := value_string out m col (cstring (content w raw)) w sized (cstring_nulFree _)
    rw [narrow,List.take_length,← cstring_trimmed,← value_cstring,← printed] at built
    rw [encoded_value,built,printed,cstring_trimmed]
    rw [printed,value_cstring,cstring_trimmed]
    unfold value
    dsimp only
    rw [char,if_pos rfl,charValue_use]
    exact fun other => by cases other
  rw [bytes,counted_same raw w col.length counted _ [0] short]
  exact cstring_self_iff _

/-- Bytes that are no dynamic value are left to `binary_value`. -/
theorem binary_encoded (binary : isBinaryCol col.type = true) (plain : cstring val ∉ dynamicTexts) :
    encoded out m col val =
      binaryValue out {m with column := some col, useValue := .mustUseBinary} col val := by
  have encodes : value out m (some col) (some val) =
      {m with column := some col, useValue := .mustUseBinary} := by
    have dynamic := (dynamicValue_eq_none_iff out {m with column := some col} col.type _).mpr plain
    unfold value
    dsimp only
    rw [dynamic]
    cases type : col.type <;> rw [type] at binary <;> cases binary
    all_goals
      unfold numericValue
      rw [type]
      rfl
  unfold encoded
  dsimp only
  rw [encodes,if_pos rfl]

theorem binary_restored (printers : Printers) (shown : Column) (same : shown.type = col.type)
    (type : col.type = .binary) (sized : raw.length = col.length)
    (plain : cstring (columnText printers shown raw) ∉ dynamicTexts) :
    (encoded out m col (columnText printers shown raw)).useValue = .useChar ∧
      (encoded out m col (columnText printers shown raw)).target.bytes.take col.length =
        raw := by
  have printed : columnText printers shown raw = raw.rdropWhile (· = 0) := by
    unfold columnText MySQL.out printString stringBytes
    rw [same,type]
    rfl
  have short : (raw.rdropWhile (· = 0)).length ≤ col.length :=
    sized ▸ (List.rdropWhile_prefix _ raw).length_le
  have len : (if (raw.rdropWhile (· = 0)).length < col.length then (raw.rdropWhile (· = 0)).length
      else col.length) = (raw.rdropWhile (· = 0)).length := by
    split <;> omega
  rw [binary_encoded out m col _ (by rw [type]; rfl) plain,printed]
  unfold binaryValue
  rw [type,len]
  dsimp only
  rw [List.take_length]
  refine ⟨rfl,?_⟩
  have whole := rdropWhile_zeros_of raw (· = 0) fun c zero => of_decide_eq_true zero
  rw [sized] at whole
  dsimp only [Mvalue.point]
  rw [whole,← sized,List.take_length]

theorem block_full (size : Nat) (written : Text) (full : size ≤ written.length) :
    (out.block size written).bytes = written := by
  unfold Surroundings.block
  rw [Nat.sub_eq_zero_of_le full]
  exact List.append_nil _

/-- The bytes that `binary_value` counts. -/
theorem counted_encoded (w : Nat) (types : col.type = .varbinary ∧ w = 1 ∨ col.type = .longvarbinary ∧ w = 2)
    (plain : cstring val ∉ dynamicTexts) (nulFree : 0 ∉ val) (fits : val.length ≤ col.length)
    (narrow : col.length < 2^(8 * w)) :
    (encoded out m col val).useValue = .useChar ∧
      ∃ rest, (encoded out m col val).target.bytes = leBytes w val.length ++ (val ++ rest) := by
  have len : (if val.length < col.length then val.length else col.length) = val.length := by
    split <;> omega
  rcases types with ⟨type,rfl⟩ | ⟨type,rfl⟩
  · rw [binary_encoded out m col _ (by rw [type]; rfl) plain]
    unfold binaryValue
    rw [type,len]
    dsimp only
    rw [List.take_length]
    refine ⟨rfl,[],?_⟩
    rw [List.append_nil]
    exact block_full out _ _ (Nat.le_refl _)
  · have small : val.length % 2^16 = val.length := Nat.mod_eq_of_lt (by omega)
    rw [binary_encoded out m col _ (by rw [type]; rfl) plain]
    unfold binaryValue
    rw [type,len]
    dsimp only
    rw [small,cstring_self val nulFree]
    refine ⟨rfl,[0],?_⟩
    unfold cpystrn
    rw [Nat.add_sub_cancel,List.take_length]
    refine block_full out _ _ ?_
    simp only [List.length_cons,List.length_append]
    omega

theorem bytes_restored (printers : Printers) (shown : Column) (same : shown.type = col.type) (w : Nat)
    (types : col.type = .varbinary ∧ w = 1 ∨ col.type = .longvarbinary ∧ w = 2)
    (counted : Counted w col.length raw)
    (plain : cstring (columnText printers shown raw) ∉ dynamicTexts)
    (nulFree : 0 ∉ columnText printers shown raw) :
    (encoded out m col (columnText printers shown raw)).useValue = .useChar ∧
      ((encoded out m col (columnText printers shown raw)).target.bytes.take
        (w + unsignedOf w raw) = raw.take (w + unsignedOf w raw) ↔
          (content w raw).getLast? ≠ some 0) := by
  have size := (counted_split raw w col.length counted).1
  have printed : columnText printers shown raw = (content w raw).rdropWhile (· = 0) := by
    unfold columnText MySQL.out printString stringBytes content
    rw [same]
    rcases types with ⟨type,rfl⟩ | ⟨type,rfl⟩
    · rw [type]
      rfl
    · rw [type]
      rfl
  have shorter := (List.rdropWhile_prefix (· = 0) (content w raw)).length_le
  have short : (columnText printers shown raw).length ≤ unsignedOf w raw := by
    rw [printed,← size]
    exact shorter
  obtain ⟨use,rest,bytes⟩ := counted_encoded out m col _ w types plain nulFree (short.trans counted.2.1)
    counted.2.2
  refine ⟨use,?_⟩
  rw [bytes,counted_same raw w col.length counted _ rest short,printed,← trimmed_length_iff]
  exact ⟨fun all => congrArg List.length all,
    fun lengths => (List.rdropWhile_prefix _ _).eq_of_length lengths⟩

/-- A text is kept whole, unless it is one of the dynamic values. -/
theorem text_restored (printers : Printers) (shown : Column) (same : shown.type = col.type)
    (type : col.type = .text) : (encoded out m col (columnText printers shown raw)).useValue = .useBlob ∧
      (encoded out m col (columnText printers shown raw)).binaryInfo.getD [] = raw ↔
        cstring raw ∉ dynamicTexts := by
  have printed : columnText printers shown raw = raw := by
    unfold columnText MySQL.out printString
    rw [same,type]
    rfl
  rw [printed]
  by_cases plain : cstring raw ∈ dynamicTexts
  · obtain ⟨m',dynamic⟩ := Option.ne_none_iff_exists'.mp fun none =>
      (dynamicValue_eq_none_iff out {m with column := some col} col.type _).mp none plain
    have encodes : value out m (some col) (some raw) = m' := by
      unfold value
      dsimp only
      rw [dynamic,type]
      rfl
    have use : m'.useValue ≠ .mustUseBinary ∧ m'.useValue ≠ .useBlob := by
      unfold dynamicValue at dynamic
      split_ifs at dynamic <;> cases dynamic <;> exact ⟨nofun,nofun⟩
    rw [encoded_value out m col raw (by rw [encodes]; exact use.1),encodes]
    exact iff_of_false (fun both => use.2 both.1) fun other => other plain
  · rw [binary_encoded out m col raw (by rw [type]; rfl) plain]
    unfold binaryValue
    rw [type]
    exact iff_of_true ⟨rfl,rfl⟩ plain

end

end ModNdb.MySQL
