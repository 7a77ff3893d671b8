import ModNdb.MySQL.Value

/-! Strings with a length in front, from `MySQL::value` to NDB and back through
`result::out`. -/
namespace ModNdb.MySQL

def lengthBytes : ColType → Option Nat
  | .varchar => some 1
  | .longvarchar => some 2
  | _ => none

theorem le_leBytes (w n : Nat) (rest : Text) : unsignedOf w (leBytes w n ++ rest) = n % 2^(8 * w) := by
  unfold unsignedOf
  induction w generalizing n with
  | zero => simp [leBytes,le,Nat.mod_one]
  | succ w ih =>
    have split : n % 2^(8 * (w + 1)) = n % 256 + 256 * (n / 256 % 2^(8 * w)) := by
      rw [show 8 * (w + 1) = 8 + 8 * w from by omega,Nat.pow_add]
      exact Nat.mod_mul
    simp only [leBytes,List.cons_append,List.take_succ_cons,le,ih,split]
    simp

theorem leBytes_length (w n : Nat) : (leBytes w n).length = w := by
  induction w generalizing n with
  | zero => rfl
  | succ w ih => simp [leBytes,ih]

theorem rdropWhile_nulFree (s : Text) (nulFree : 0 ∉ s) : s.rdropWhile (· = 0) = s := by
  apply List.rdropWhile_eq_self_iff.mpr
  intro some
  simp only [decide_eq_true_eq]
  intro last
  apply nulFree
  rw [← last]
  exact List.getLast_mem some

/-- The narrow length of the string, cut at the length of the column. -/
def storedLength (w : Nat) (col : DictColumn) (v : Text) : Nat := min (v.length % 2^(8 * w)) col.length

theorem value_string (out : Surroundings) (m : Mvalue) (col : DictColumn) (v : Text) (w : Nat)
    (sized : lengthBytes col.type = some w) (nulFree : 0 ∉ v) :
    (value out m (some col) (some v)).target.bytes =
      leBytes w (storedLength w col v) ++ (v.take (storedLength w col v) ++ [0]) := by
  have whole := cstring_self v nulFree
  cases type : col.type with
  | varchar =>
    rw [type] at sized
    obtain rfl : 1 = w := Option.some.inj sized
    have cut : (if col.length < v.length % 2^8 then col.length % 2^8 else v.length % 2^8) =
        storedLength 1 col v := by
      unfold storedLength
      split_ifs <;> omega
    simp only [value,type,isCharCol,if_true,charValue,whole,cut]
    rfl
  | longvarchar =>
    rw [type] at sized
    obtain rfl : 2 = w := Option.some.inj sized
    have cut : (if col.length < v.length % 2^16 then col.length % 2^16 else v.length % 2^16) =
        storedLength 2 col v := by
      unfold storedLength
      split_ifs <;> omega
    simp only [value,type,isCharCol,if_true,charValue,whole,cut]
    rfl
  | _ =>
    rw [type] at sized
    cases sized

theorem stringBytes_counted (w : Nat) (bytes rest : Text) (some : w ≠ 0)
    (short : bytes.length < 2^(8 * w)) :
    stringBytes w (leBytes w bytes.length ++ (bytes ++ rest)) = bytes.rdropWhile (· = 0) := by
  have behind : (leBytes w bytes.length ++ (bytes ++ rest)).drop w = bytes ++ rest :=
    List.drop_left' (leBytes_length w bytes.length)
  have size : unsignedOf w (leBytes w bytes.length ++ (bytes ++ rest)) = bytes.length := by
    rw [le_leBytes]
    exact Nat.mod_eq_of_lt short
  rw [stringBytes,behind,size,if_neg some,List.take_left]

theorem out_string (printers : Printers) (shown : Column) (w : Nat) (v rest : Text)
    (sized : lengthBytes shown.type = some w) (nulFree : 0 ∉ v) (short : v.length < 2^(8 * w)) :
    (out printers shown (leBytes w v.length ++ (v ++ rest)) none).bytes = v := by
  have trimmed : stringBytes w (leBytes w v.length ++ (v ++ rest)) = v := by
    have some : w ≠ 0 := by
      rintro rfl
      cases type : shown.type <;> rw [type] at sized <;> cases sized
    rw [stringBytes_counted w v rest some short]
    exact rdropWhile_nulFree v nulFree
  cases type : shown.type with
  | varchar =>
    rw [type] at sized
    obtain rfl : 1 = w := Option.some.inj sized
    simp only [out,type,printString,plain]
    exact trimmed
  | longvarchar =>
    rw [type] at sized
    obtain rfl : 2 = w := Option.some.inj sized
    simp only [out,type,printString,plain]
    exact trimmed
  | _ =>
    rw [type] at sized
    cases sized

/-- `value` stores as much of the string as fits, behind its length, and that is what is
printed when the buffer comes back. -/
def KeepsString (printers : Printers) (out : Surroundings) (m : Mvalue) (col : DictColumn)
    (shown : Column) (w : Nat) (v : Text) : Prop :=
  let n := min v.length col.length
  let stored := (value out m (some col) (some v)).target.bytes
  stored = leBytes w n ++ (v.take n ++ [0]) ∧ (MySQL.out printers shown stored none).bytes = v.take n

theorem keeps_string_iff (printers : Printers) (out : Surroundings) (m : Mvalue) (col : DictColumn)
    (shown : Column) (w : Nat) (v : Text) (sized : lengthBytes col.type = some w)
    (same : shown.type = col.type) (fits : col.length < 2^(8 * w)) (nulFree : 0 ∉ v) :
    KeepsString printers out m col shown w v ↔
      v.length < 2^(8 * w) ∨ col.length ≤ v.length % 2^(8 * w) := by
  have built := value_string out m col v w sized nulFree
  have below : storedLength w col v < 2^(8 * w) := by
    have := Nat.mod_lt v.length (Nat.two_pow_pos (8 * w))
    unfold storedLength
    omega
  have narrow : v.length % 2^(8 * w) ≤ v.length := Nat.mod_le _ _
  constructor
  · intro kept
    have bytes := kept.1
    rw [built] at bytes
    have first := congrArg (unsignedOf w) bytes
    rw [le_leBytes,le_leBytes,Nat.mod_eq_of_lt below,Nat.mod_eq_of_lt (by omega)] at first
    unfold storedLength at first
    by_cases small : v.length < 2^(8 * w)
    · exact .inl small
    · right
      omega
  · intro enough
    have length : storedLength w col v = min v.length col.length := by
      unfold storedLength
      rcases enough with small | large
      · rw [Nat.mod_eq_of_lt small]
      · omega
    unfold KeepsString
    rw [built,length]
    refine ⟨rfl,?_⟩
    have part : (v.take (min v.length col.length)).length = min v.length col.length := by simp
    rw [length] at below
    have read := out_string printers shown w (v.take (min v.length col.length)) [0] (same ▸ sized)
      (fun inside => nulFree (List.mem_of_mem_take inside)) (by rw [part]; exact below)
    rw [part] at read
    exact read

theorem replicate_nulFree (n : Nat) (c : UInt8) (nonzero : c ≠ 0) : 0 ∉ List.replicate n c :=
  fun inside => nonzero (List.eq_of_mem_replicate inside).symm

/-- A string of 200 bytes in a column of 10, and of 300 bytes in one of 40. -/
theorem keeps_string_long :
    KeepsString ⟨id,id,fun _ _ => id⟩ ⟨[],[],fun _ => 0,id,id,fun _ _ => id⟩ .zero
      ⟨text "name",0,.varchar,10,0,0,true⟩ ⟨text "name",.varchar,0,0⟩ 1 (List.replicate 200 97) ∧
    KeepsString ⟨id,id,fun _ _ => id⟩ ⟨[],[],fun _ => 0,id,id,fun _ _ => id⟩ .zero
      ⟨text "name",0,.varchar,40,0,0,true⟩ ⟨text "name",.varchar,0,0⟩ 1 (List.replicate 300 97) := by
  have free (n : Nat) : 0 ∉ List.replicate n (97 : UInt8) := replicate_nulFree n 97 (by decide)
  constructor
  · apply (keeps_string_iff _ _ _ _ _ 1 _ rfl rfl (by decide) (free 200)).mpr
    left
    rw [List.length_replicate]
    decide
  · apply (keeps_string_iff _ _ _ _ _ 1 _ rfl rfl (by decide) (free 300)).mpr
    right
    rw [List.length_replicate]
    decide

/-- 256 bytes are stored as none. -/
theorem string_256_lost :
    ¬KeepsString ⟨id,id,fun _ _ => id⟩ ⟨[],[],fun _ => 0,id,id,fun _ _ => id⟩ .zero
      ⟨text "name",0,.varchar,255,0,0,true⟩ ⟨text "name",.varchar,0,0⟩ 1 (List.replicate 256 97) := by
  intro kept
  have bytes := kept.1
  rw [value_string _ _ _ _ 1 rfl (replicate_nulFree 256 97 (by decide))] at bytes
  have first := congrArg (unsignedOf 1) bytes
  rw [le_leBytes,le_leBytes,storedLength,List.length_replicate] at first
  revert first
  decide

/-- The first bytes of a text, as many as the column takes, with spaces behind them and a NUL
at the end, written inside a block of that size. -/
def PadsInside (out : Surroundings) (m : Mvalue) (col : DictColumn) (v : Text) : Prop :=
  let n := min v.length col.length
  let block := (value out m (some col) (some v)).target
  block.size = col.length + 1 ∧ block.reach ≤ block.size ∧
    block.bytes = v.take n ++ (List.replicate (col.length - n) 32 ++ [0])

/-- The block holds the whole text before it is padded. -/
theorem pads_inside_iff (out : Surroundings) (m : Mvalue) (col : DictColumn) (v : Text)
    (type : col.type = .char) (short : col.length < 2^31) (nulFree : 0 ∉ v) :
    PadsInside out m col v ↔ v.length ≤ col.length := by
  have block : (value out m (some col) (some v)).target = ⟨col.length + 1,
      v.take (if col.length < v.length % 2^32 then col.length else v.length % 2^32) ++
        List.replicate (col.length -
          if col.length < v.length % 2^32 then col.length else v.length % 2^32) 32 ++ [0],
      max (v.length + 1) (col.length + 1)⟩ := by
    unfold value
    dsimp only
    rw [cstring_self v nulFree,type]
    unfold charValue
    dsimp only
    rw [type]
    rfl
  unfold PadsInside
  rw [block]
  dsimp only
  constructor
  · rintro ⟨_,inside,_⟩
    omega
  · intro fits
    have size : (if col.length < v.length % 2^32 then col.length else v.length % 2^32) =
        min v.length col.length := by
      rw [Nat.mod_eq_of_lt (by omega)]
      split <;> omega
    rw [size,List.append_assoc]
    exact ⟨rfl,by omega,rfl⟩

/-- Three bytes in a column of four. -/
theorem pads_inside_three :
    PadsInside ⟨[],[],fun _ => 0,id,id,fun _ _ => id⟩ .zero ⟨text "c",0,.char,4,0,0,true⟩ (text "abc") :=
  (pads_inside_iff _ _ _ (text "abc") rfl (by decide) (by decide)).mpr (by decide)

/-- Five bytes in a column of four end behind the block. -/
theorem char_outside :
    ¬PadsInside ⟨[],[],fun _ => 0,id,id,fun _ _ => id⟩ .zero ⟨text "c",0,.char,4,0,0,true⟩
      (text "abcde") := by
  rintro ⟨_,inside,_⟩
  exact absurd inside (by decide)

end ModNdb.MySQL
