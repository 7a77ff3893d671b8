import ModNdb.MySQL.Numbers

/-! Bytes that `MySQL::binary_value` stores, and what `result::out` reads back of them. -/
namespace ModNdb.MySQL

section
variable (printers : Printers) (out : Surroundings) (m : Mvalue) (col : DictColumn) (shown : Column)
  (b : Text)

def stored : Block := (binaryValue out m col b).target

def readBack : Text := (MySQL.out printers shown (stored out m col b).bytes none).bytes

theorem rdropWhile_zeros (bytes : Text) (n : Nat) :
    (bytes ++ List.replicate n 0).rdropWhile (· = 0) = bytes.rdropWhile (· = 0) := by
  induction n with
  | zero => rw [List.replicate_zero,List.append_nil]
  | succ n ih =>
    rw [List.replicate_succ',← List.append_assoc,List.rdropWhile_concat_pos _ _ _ (by decide),ih]

theorem binary_read (type : col.type = .binary) (same : shown.type = col.type)
    (fits : b.length ≤ col.length) :
    readBack printers out m col shown b = b.rdropWhile (· = 0) ∧
    (stored out m col b).reach ≤ (stored out m col b).size := by
  have length : (if b.length < col.length then b.length else col.length) = b.length := by
    split <;> omega
  have block : stored out m col b =
      ⟨col.length,b ++ List.replicate (col.length - b.length) 0,b.length⟩ := by
    unfold stored binaryValue
    rw [type,length]
    dsimp only
    rw [List.take_length]
    rfl
  unfold readBack
  rw [block]
  refine ⟨?_,fits⟩
  unfold MySQL.out printString stringBytes
  rw [same,type]
  exact rdropWhile_zeros b _

theorem varbinary_read (type : col.type = .varbinary) (same : shown.type = col.type)
    (fits : b.length ≤ col.length) (narrow : col.length < 2^8) :
    readBack printers out m col shown b = b.rdropWhile (· = 0) ∧
    (stored out m col b).reach ≤ (stored out m col b).size := by
  have length : (if b.length < col.length then b.length else col.length) = b.length := by
    split <;> omega
  have block : stored out m col b = out.block (b.length + 1) (leBytes 1 b.length ++ b) := by
    unfold stored binaryValue
    rw [type,length]
    dsimp only
    rw [List.take_length]
    rfl
  have written : (leBytes 1 b.length ++ b).length = b.length + 1 := by
    rw [List.length_append,leBytes_length,Nat.add_comm]
  have bytes : (stored out m col b).bytes = leBytes 1 b.length ++ b := by
    rw [block]
    unfold Surroundings.block
    rw [written,Nat.sub_self]
    exact List.append_nil _
  constructor
  · unfold readBack
    rw [bytes]
    unfold MySQL.out printString
    rw [same,type]
    have read := stringBytes_counted 1 b [] (by decide) (by omega)
    rw [List.append_nil] at read
    exact read
  · rw [block]
    exact written.le

theorem longvarbinary_read (type : col.type = .longvarbinary) (same : shown.type = col.type)
    (fits : b.length ≤ col.length) (narrow : col.length < 2^16) (nulFree : 0 ∉ b) :
    readBack printers out m col shown b = b := by
  have length : (if b.length < col.length then b.length else col.length) = b.length := by
    split <;> omega
  have bytes : (stored out m col b).bytes = leBytes 2 b.length ++ (b ++ [0]) := by
    have small : b.length % 2^16 = b.length := Nat.mod_eq_of_lt (by omega)
    unfold stored binaryValue
    rw [type,length]
    dsimp only
    rw [small,cstring_self b nulFree]
    unfold Surroundings.block cpystrn
    rw [Nat.add_sub_cancel,List.take_length]
    dsimp only [Mvalue.point]
    have written : b.length + 2 - (UInt8.ofNat b.length :: UInt8.ofNat (b.length / 256) ::
        (b ++ [0])).length = 0 := by
      simp only [List.length_cons,List.length_append]
      omega
    rw [written]
    exact List.append_nil _
  unfold readBack
  rw [bytes]
  unfold MySQL.out printString
  rw [same,type]
  exact (stringBytes_counted 2 b [0] (by decide) (by omega)).trans (rdropWhile_nulFree b nulFree)

/-- Bytes come back as they were and stay inside the block. -/
def BytesReturn : Prop :=
  readBack printers out m col shown b = b ∧
  (stored out m col b).reach ≤ (stored out m col b).size

/-- Bytes come back without the NULs at their end. Those that are stored by length stay
inside the block, and those that are stored as a string come back when no NUL is in them. -/
theorem bytes_trimmed (same : shown.type = col.type) (fits : b.length ≤ col.length) :
    (col.type = .binary ∨ col.type = .varbinary ∧ col.length < 2^8 →
      readBack printers out m col shown b = b.rdropWhile (· = 0) ∧
      (stored out m col b).reach ≤ (stored out m col b).size) ∧
    (col.type = .longvarbinary ∧ col.length < 2^16 → 0 ∉ b →
      readBack printers out m col shown b = b) := by
  constructor
  · rintro (type | ⟨type,narrow⟩)
    · exact binary_read printers out m col shown b type same fits
    · exact varbinary_read printers out m col shown b type same fits narrow
  · rintro ⟨type,narrow⟩ nulFree
    exact longvarbinary_read printers out m col shown b type same fits narrow nulFree

end

/-- Bytes with a NUL inside and one at the end, and bytes without. -/
theorem bytes_trimmed_two :
    readBack ⟨id,id,fun _ _ => id⟩ ⟨[],[],fun _ => 7,id,id,fun _ _ => id⟩ .zero
      ⟨text "c",0,.varbinary,4,0,0,true⟩ ⟨text "c",.varbinary,0,0⟩ [65,0,66,0] = [65,0,66] ∧
    readBack ⟨id,id,fun _ _ => id⟩ ⟨[],[],fun _ => 7,id,id,fun _ _ => id⟩ .zero
      ⟨text "c",0,.longvarbinary,4,0,0,true⟩ ⟨text "c",.longvarbinary,0,0⟩ [65,66] = [65,66] :=
  ⟨((bytes_trimmed _ _ _ _ _ [65,0,66,0] rfl (by decide)).1 (.inr ⟨rfl,by decide⟩)).1,
    (bytes_trimmed _ _ _ _ _ [65,66] rfl (by decide)).2 ⟨rfl,by decide⟩ (by decide)⟩

/-- In a binary column of two bytes, a byte and a NUL come back as the byte. -/
theorem bytes_lost :
    ¬BytesReturn ⟨id,id,fun _ _ => id⟩ ⟨[],[],fun _ => 0,id,id,fun _ _ => id⟩ .zero
      ⟨text "c",0,.binary,2,0,0,true⟩ ⟨text "c",.binary,0,0⟩ [97,0] := by
  unfold BytesReturn
  decide +kernel

end ModNdb.MySQL
