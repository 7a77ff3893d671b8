import ModNdb.JSON.Lexemes

/-! What a JSON string stands for, unit by unit, and what `JSON_unescape` makes of it: it
puts any two surrogates together that come one after the other. -/
namespace ModNdb.JSON

def utf8Form (charCode : Nat) : Text := String.utf8EncodeChar (Char.ofNat charCode)

theorem or_add (n : Nat) : (0x80 ||| n &&& 0x3F) = n % 0x40 + 0x80 := by
  have small : ∀ k : Fin 64, (0x80 ||| k.val) = k + 0x80 := by decide
  rw [Nat.and_two_pow_sub_one_eq_mod n 6]
  exact small ⟨n % 0x40,Nat.mod_lt _ (by decide)⟩

/-- `JSON_unescape` makes the UTF-8 form of a code point. -/
theorem utf8_form (charCode : Nat) (valid : charCode.isValidChar) :
    utf8 charCode = utf8Form charCode := by
  have lead2 : ∀ k : Fin 32, (0xC0 ||| k.val) = k + 0xC0 := by decide
  have lead3 : ∀ k : Fin 16, (0xE0 ||| k.val) = k + 0xE0 := by decide
  have lead4 : ∀ k : Fin 8, (0xF0 ||| k.val) = k + 0xF0 := by decide
  have value : (Char.ofNat charCode).val.toNat = charCode := by
    unfold Char.ofNat
    rw [dif_pos valid]
    rfl
  unfold utf8 utf8Form String.utf8EncodeChar
  dsimp only
  rw [value]
  by_cases one : charCode < 0x80
  · rw [if_pos one,if_pos (Nat.le_of_lt_succ one)]
  rw [if_neg one,if_neg fun below => one (Nat.lt_succ_of_le below)]
  by_cases two : charCode < 0x800
  · rw [if_pos two,if_pos (Nat.le_of_lt_succ two),or_add,Nat.shiftRight_eq_div_pow,
      Nat.mod_eq_of_lt (by omega : charCode / 64 < 0x20)]
    rw [lead2 ⟨charCode / 2^6,by omega⟩]
  rw [if_neg two,if_neg fun below => two (Nat.lt_succ_of_le below)]
  by_cases three : charCode < 0x10000
  · rw [if_pos three,if_pos (Nat.le_of_lt_succ three),or_add,or_add,Nat.shiftRight_eq_div_pow,
      Nat.shiftRight_eq_div_pow,Nat.mod_eq_of_lt (by omega : charCode / 4096 < 0x10)]
    rw [lead3 ⟨charCode / 2^12,by omega⟩]
  rw [if_neg three,if_neg fun below => three (Nat.lt_succ_of_le below),or_add,or_add,or_add,
    Nat.and_two_pow_sub_one_eq_mod _ 3,lead4 ⟨charCode >>> 18 % 2^3,Nat.mod_lt _ (by decide)⟩]
  simp only [Nat.shiftRight_eq_div_pow]

def IsHigh (charCode : Nat) : Prop := 0xD800 ≤ charCode ∧ charCode < 0xDC00

def IsLow (charCode : Nat) : Prop := 0xDC00 ≤ charCode ∧ charCode < 0xE000

instance (charCode : Nat) : Decidable (IsHigh charCode) := inferInstanceAs (Decidable (_ ∧ _))

instance (charCode : Nat) : Decidable (IsLow charCode) := inferInstanceAs (Decidable (_ ∧ _))

def pairPoint (high low : Nat) : Nat := 0x10000 + (high - 0xD800) * 0x400 + (low - 0xDC00)

theorem paired_point (high low : Nat) (isHigh : IsHigh high) (isLow : IsLow low) :
    paired high low = pairPoint high low ∧ (pairPoint high low).isValidChar := by
  obtain ⟨least,below⟩ := isHigh
  obtain ⟨least',below'⟩ := isLow
  unfold paired pairPoint
  rw [Nat.and_two_pow_sub_one_eq_mod high 10,Nat.and_two_pow_sub_one_eq_mod low 10,
    Nat.shiftLeft_eq]
  refine ⟨by omega,.inr ?_⟩
  omega

/-- A unit of a string: bytes it stands for, or half of a surrogate pair. -/
inductive Piece
  | bytes (bytes : Text)
  | half (charCode : Nat) (surrogate : Surrogate charCode)
  deriving DecidableEq

def Piece.isBytes : Piece → Bool
  | .bytes _ => true
  | .half _ _ => false

def hexDigitOf (c : Nat) : Nat := if c ≤ 57 then c - 48 else if c ≤ 70 then c - 55 else c - 87

def escapedBy (e : Nat) : UInt8 :=
  if e = 98 then 8 else if e = 102 then 12 else if e = 110 then 10 else if e = 114 then 13
  else if e = 116 then 9 else UInt8.ofNat e

def pieceOf : List Nat → Piece
  | [c] => .bytes [UInt8.ofNat c]
  | [_,e] => .bytes [escapedBy e]
  | [_,_,a,b,c,d] =>
    let charCode := 4096 * hexDigitOf a + 256 * hexDigitOf b + 16 * hexDigitOf c + hexDigitOf d
    if surrogate : Surrogate charCode then .half charCode surrogate else .bytes (utf8Form charCode)
  | _ => .bytes []

/-- The decoder: a high surrogate directly before a low one is a pair with it, and other
surrogates stand for nothing. -/
def reference : Option Nat → List Piece → Text
  | _, [] => []
  | _, .bytes bytes::pieces => bytes ++ reference none pieces
  | before, .half charCode _::pieces =>
    if IsHigh charCode then reference (some charCode) pieces
    else (before.elim [] fun high => utf8Form (pairPoint high charCode)) ++ reference none pieces

/-- What `JSON_unescape` makes of the pieces, with a surrogate that it keeps. -/
def made : Option Nat → List Piece → Text
  | _, [] => []
  | kept, .bytes bytes::pieces => bytes ++ made kept pieces
  | none, .half charCode _::pieces => made (some charCode) pieces
  | some kept, .half charCode _::pieces => utf8 (paired kept charCode) ++ made none pieces

/-- Each surrogate but the last is in a pair of a high one and a low one directly behind it. -/
def pairedUp : List Piece → Bool
  | [] => true
  | .bytes _::pieces => pairedUp pieces
  | .half high _::.half low _::pieces => decide (IsHigh high) && decide (IsLow low) && pairedUp pieces
  | .half _ _::pieces => pieces.all Piece.isBytes

theorem made_bytes (kept : Option Nat) (pieces : List Piece) (plain : pieces.all Piece.isBytes = true)
    (rest : List Piece) : ∃ bytes, made kept (pieces ++ rest) = bytes ++ made kept rest ∧
      ∀ before, reference before (pieces ++ rest) =
        bytes ++ reference (if pieces = [] then before else none) rest := by
  induction pieces with
  | nil => exact ⟨[],rfl,fun _ => rfl⟩
  | cons piece pieces ih =>
    obtain ⟨first,plain⟩ := Bool.and_eq_true_iff.mp plain
    cases piece with
    | half charCode _ => cases first
    | bytes here =>
      obtain ⟨bytes,rewritten,decoded⟩ := ih plain
      refine ⟨here ++ bytes,?_,fun before => ?_⟩
      · rw [List.cons_append,made,rewritten,List.append_assoc]
      · rw [List.cons_append,reference,decoded none,ite_self,if_neg (List.cons_ne_nil _ _),
          List.append_assoc]

theorem utf8_some (charCode : Nat) : utf8 charCode ≠ [] := by
  unfold utf8
  split_ifs <;> exact List.cons_ne_nil _ _

/-- Surrogates that are paired up are decoded, up to each of the pieces. -/
theorem made_reference (pieces : List Piece) (paired : pairedUp pieces = true) (pre : List Piece)
    (front : pre <+: pieces) : made none pre = reference none pre := by
  fun_induction pairedUp pieces generalizing pre with
  | case1 =>
    rw [List.prefix_nil.mp front]
    rfl
  | case2 bytes pieces ih =>
    rcases List.prefix_cons_iff.mp front with rfl | ⟨rest,rfl,later⟩
    · rfl
    · rw [made,reference,ih paired rest later]
  | case3 high _ low _ pieces ih =>
    obtain ⟨both,paired⟩ := Bool.and_eq_true_iff.mp paired
    obtain ⟨isHigh,isLow⟩ := Bool.and_eq_true_iff.mp both
    rcases List.prefix_cons_iff.mp front with rfl | ⟨behind,rfl,later⟩
    · rfl
    have isHigh := of_decide_eq_true isHigh
    have isLow := of_decide_eq_true isLow
    rcases List.prefix_cons_iff.mp later with rfl | ⟨rest,rfl,last⟩
    · rw [made,reference,if_pos isHigh]
      rfl
    · obtain ⟨point,valid⟩ := paired_point high low isHigh isLow
      rw [made,made,reference,if_pos isHigh,reference,if_neg fun up => absurd up.2 isLow.1.not_gt,
        point,utf8_form _ valid,ih paired rest last,Option.elim_some]
  | case4 charCode _ pieces _ =>
    rcases List.prefix_cons_iff.mp front with rfl | ⟨rest,rfl,later⟩
    · rfl
    obtain ⟨more,rfl⟩ := later
    have plain : rest.all Piece.isBytes = true := by
      rw [List.all_append] at paired
      exact (Bool.and_eq_true_iff.mp paired).1
    obtain ⟨bytes,rewritten,decoded⟩ := made_bytes (some charCode) rest plain []
    rw [List.append_nil] at rewritten decoded
    rw [made,rewritten,reference]
    by_cases high : IsHigh charCode
    · rw [if_pos high,decoded]
      rfl
    · rw [if_neg high,decoded]
      rfl

theorem first_failing {α : Type} (test : α → Bool) (l : List α) (fails : ¬l.all test = true) :
    ∃ front last rest, l = front ++ last::rest ∧ front.all test = true ∧ test last = false := by
  induction l with
  | nil => exact absurd rfl fails
  | cons a l ih =>
    cases here : test a with
    | false => exact ⟨[],a,l,rfl,rfl,here⟩
    | true =>
      rw [List.all_cons,here,Bool.true_and] at fails
      obtain ⟨front,last,rest,rfl,passes,failed⟩ := ih fails
      refine ⟨a::front,last,rest,rfl,?_,failed⟩
      rw [List.all_cons,here,passes]
      rfl

theorem high_or_low (charCode : Nat) (surrogate : Surrogate charCode) :
    IsHigh charCode ∨ IsLow charCode := by
  unfold Surrogate at surrogate
  unfold IsHigh IsLow
  omega

/-- Where each beginning is decoded, surrogates are paired up. -/
theorem reference_pairs (pieces : List Piece)
    (decoded : ∀ pre, pre <+: pieces → made none pre = reference none pre) :
    pairedUp pieces = true := by
  fun_induction pairedUp pieces with
  | case1 => rfl
  | case2 bytes pieces ih =>
    apply ih
    intro pre front
    have whole := decoded (.bytes bytes::pre) ((List.prefix_cons_inj _).mpr front)
    rw [made,reference] at whole
    exact List.append_cancel_left whole
  | case3 high first low second pieces ih =>
    have two := decoded [.half high first,.half low second] ⟨pieces,rfl⟩
    rw [made,made,made,List.append_nil,reference] at two
    have isHigh : IsHigh high := by
      by_contra other
      rw [if_neg other,Option.elim_none,List.nil_append,reference] at two
      by_cases up : IsHigh low
      · rw [if_pos up] at two
        exact utf8_some _ two
      · rw [if_neg up] at two
        exact utf8_some _ two
    rw [if_pos isHigh,reference] at two
    have isLow : IsLow low := by
      apply (high_or_low low second).resolve_left
      intro up
      rw [if_pos up] at two
      exact utf8_some _ two
    rw [decide_eq_true isHigh,decide_eq_true isLow,Bool.true_and]
    apply ih
    intro pre front
    have whole := decoded (.half high first::.half low second::pre)
      ((List.prefix_cons_inj _).mpr ((List.prefix_cons_inj _).mpr front))
    obtain ⟨point,valid⟩ := paired_point high low isHigh isLow
    rw [made,made,reference,if_pos isHigh,reference,if_neg fun up => absurd up.2 isLow.1.not_gt,
      point,utf8_form _ valid,Option.elim_some] at whole
    exact List.append_cancel_left whole
  | case4 charCode surrogate pieces other =>
    by_contra mixed
    obtain ⟨front,last,rest,rfl,plain,half⟩ := first_failing Piece.isBytes pieces mixed
    cases last with
    | bytes bytes => cases half
    | half low second =>
      -- bytes stand between the two surrogates
      have between : front ≠ [] := by
        rintro rfl
        exact other low second rest rfl
      obtain ⟨bytes,rewritten,read⟩ := made_bytes (some charCode) front plain [.half low second]
      have whole := decoded (.half charCode surrogate::(front ++ [.half low second]))
        ⟨rest,by rw [List.cons_append,List.append_assoc]; rfl⟩
      have alone : reference none [.half low second] = [] := by
        rw [reference,Option.elim_none,List.nil_append,reference,reference,ite_self]
      rw [made,rewritten,made,made,List.append_nil,reference,read,read] at whole
      simp only [if_neg between,alone,Option.elim_none,List.nil_append,ite_self] at whole
      exact utf8_some _ (List.append_cancel_left whole)

end ModNdb.JSON
