import ModNdb.JSON.Surrogates

/-! `JSON_unescape` over the units of a string: one round for each, which writes only
where it has read. -/
namespace ModNdb.JSON

/-- A character that is cut down to a NUL or to a backslash. -/
def Misread : List Nat → Prop
  | [c] => UInt8.ofNat c = 0 ∨ UInt8.ofNat c = code '\\'
  | _ => False

instance : DecidablePred Misread
  | [_] => inferInstanceAs (Decidable (_ ∨ _))
  | [] => inferInstanceAs (Decidable False)
  | _::_::_ => inferInstanceAs (Decidable False)

def madeStep : Option Nat → Piece → Text × Option Nat
  | kept, .bytes bytes => (bytes,kept)
  | none, .half charCode _ => ([],some charCode)
  | some kept, .half charCode _ => (utf8 (paired kept charCode),none)

theorem made_cons (kept : Option Nat) (piece : Piece) (pieces : List Piece) :
    made kept (piece::pieces) = (madeStep kept piece).1 ++ made (madeStep kept piece).2 pieces := by
  cases piece with
  | bytes bytes => rw [made]; rfl
  | half charCode _ => cases kept <;> rw [made] <;> rfl

theorem hexDigit_value (c : Nat) (hex : isHex c = true) :
    hexValue? (UInt8.ofNat c) = some (hexDigitOf c) ∧ hexDigitOf c ≤ 15 := by
  have small : ∀ c : Fin 103, isHex c = true →
      hexValue? (UInt8.ofNat c) = some (hexDigitOf c) ∧ hexDigitOf c ≤ 15 := by decide
  have below : c < 103 := by
    unfold isHex isDec at hex
    simp only [decide_eq_true_eq] at hex
    omega
  exact small ⟨c,below⟩ hex

theorem hex_reads (a b c d : Nat) (digits : ∀ digit ∈ [a,b,c,d], isHex digit = true) :
    hexCode? (UInt8.ofNat a) (UInt8.ofNat b) (UInt8.ofNat c) (UInt8.ofNat d) =
      some (4096 * hexDigitOf a + 256 * hexDigitOf b + 16 * hexDigitOf c + hexDigitOf d) ∧
    4096 * hexDigitOf a + 256 * hexDigitOf b + 16 * hexDigitOf c + hexDigitOf d < 65536 := by
  obtain ⟨first,mostFirst⟩ := hexDigit_value a (digits a (by simp))
  obtain ⟨second,mostSecond⟩ := hexDigit_value b (digits b (by simp))
  obtain ⟨third,mostThird⟩ := hexDigit_value c (digits c (by simp))
  obtain ⟨fourth,mostFourth⟩ := hexDigit_value d (digits d (by simp))
  refine ⟨?_,by omega⟩
  unfold hexCode?
  rw [first,second,third,fourth]
  rfl

theorem escape_table (e : Nat) (inside : isEscapeCode e = true) : ¬128 ≤ UInt8.ofNat e ∧
    unescapeTable (UInt8.ofNat e) ≠ code 'u' ∧ unescapeTable (UInt8.ofNat e) = escapedBy e := by
  have among : e ∈ [34,92,47,98,102,110,114,116] := by
    unfold isEscapeCode at inside
    simpa using inside
  clear inside
  revert e
  decide

def Kept (kept : Option Nat) : Prop := ∀ charCode, kept = some charCode → Surrogate charCode

theorem Kept.step (kept : Option Nat) (keeps : Kept kept) (piece : Piece) :
    Kept (madeStep kept piece).2 := by
  cases piece with
  | bytes bytes => exact keeps
  | half charCode surrogate =>
    cases kept with
    | none =>
      intro other same
      cases same
      exact surrogate
    | some first => exact fun _ none => by cases none

/-- A unit takes a round, which adds what its piece does. -/
theorem unit_round (unit : List Nat) (string : StringUnit unit) (read : ¬Misread unit)
    (kept : Option Nat) (keeps : Kept kept) (out rest : Text) (u : Unescape)
    (state : Between out (unit.map UInt8.ofNat ++ rest) (kept.getD 0) u) :
    Prog.Returns unescapeStep u true (Between (out ++ (madeStep kept (pieceOf unit)).1) rest
      ((madeStep kept (pieceOf unit)).2.getD 0)) := by
  cases string with
  | plain c inside =>
    have some : UInt8.ofNat c ≠ 0 := fun same => read (.inl same)
    obtain ⟨v,ran,later⟩ := step_plain out rest _ u (UInt8.ofNat c) (fun same => read (.inr same)) state
    rw [decide_eq_true some] at ran
    exact ⟨v,ran,later⟩
  | escape e inside =>
    obtain ⟨ascii,short,value⟩ := escape_table e inside
    have step := step_escape out rest _ u (UInt8.ofNat e) ascii short state
    rw [value] at step
    exact step
  | hex a b c d digits =>
    obtain ⟨reads,below⟩ := hex_reads a b c d digits
    obtain ⟨v,ran,writing⟩ := step_unicode out rest _ u _ _ _ _ _ reads state
    have ends (w : Unescape) (bytes : Text) (room half : Nat) (ran' : unicode (4096 * hexDigitOf a +
        256 * hexDigitOf b + 16 * hexDigitOf c + hexDigitOf d) v = (.ok (),w)) (later : Writes (out ++ bytes) rest room half w) :
        Prog.Returns unescapeStep u true (Between (out ++ bytes) rest half) := by
      refine ⟨w,?_,.inl (later.weaken (Nat.zero_le _))⟩
      rw [ran,Prog.bind_ok _ ran']
      rfl
    unfold pieceOf
    dsimp only
    by_cases surrogate : Surrogate (4096 * hexDigitOf a + 256 * hexDigitOf b + 16 * hexDigitOf c +
        hexDigitOf d)
    · rw [dif_pos surrogate]
      cases kept with
      | none =>
        obtain ⟨w,ran',waiting⟩ := unicode_high out rest v _ surrogate writing
        exact ends w [] _ _ ran' (by rw [List.append_nil]; exact waiting)
      | some first =>
        have some_first : first ≠ 0 := by
          rintro rfl
          exact absurd (keeps 0 rfl).1 (by decide)
        obtain ⟨w,ran',written⟩ := unicode_low out rest first v _ surrogate some_first writing
        exact ends w _ _ _ ran' written
    · rw [dif_neg surrogate]
      obtain ⟨w,ran',written⟩ := unicode_alone out rest _ v _ surrogate writing
      rw [utf8_form _ (by unfold Surrogate at surrogate; unfold Nat.isValidChar; omega)] at written
      exact ends w _ _ _ ran' written

def spelling (units : List (List Nat)) : Text := units.flatten.map UInt8.ofNat

theorem spelling_cons (unit : List Nat) (units : List (List Nat)) :
    spelling (unit::units) = unit.map UInt8.ofNat ++ spelling units := by
  unfold spelling
  rw [List.flatten_cons,List.map_append]

section
variable (units : List (List Nat)) (each : ∀ unit ∈ units, StringUnit unit)
  (read : ∀ unit ∈ units, ¬Misread unit)

include each

theorem units_length : units.length ≤ (spelling units).length := by
  induction units with
  | nil => exact Nat.le_refl 0
  | cons unit units ih =>
    have some : 1 ≤ unit.length := by
      cases each unit List.mem_cons_self <;> exact Nat.succ_pos _
    have rest := ih fun one inside => each one (List.mem_cons_of_mem _ inside)
    rw [spelling_cons,List.length_append,List.length_map,List.length_cons]
    omega

include read

theorem units_lead (kept : Option Nat) (keeps : Kept kept) (out rest : Text) (u : Unescape)
    (state : Between out (spelling units ++ rest) (kept.getD 0) u) :
    ∃ v half, Leads units.length u v ∧
      Between (out ++ made kept (units.map pieceOf)) rest half v := by
  induction units generalizing kept out u with
  | nil =>
    refine ⟨u,kept.getD 0,⟨0,Nat.le_refl _,fun _ => rfl⟩,?_⟩
    rw [List.map_nil,made,List.append_nil]
    exact state
  | cons unit units ih =>
    rw [spelling_cons,List.append_assoc] at state
    obtain ⟨v,ran,between⟩ := unit_round unit (each unit List.mem_cons_self)
      (read unit List.mem_cons_self) kept keeps out _ u state
    obtain ⟨w,half,leads,ends⟩ := ih (fun one inside => each one (List.mem_cons_of_mem _ inside))
      (fun one inside => read one (List.mem_cons_of_mem _ inside)) _
      (keeps.step kept (pieceOf unit)) _ v between
    refine ⟨w,half,?_,?_⟩
    · rw [List.length_cons,Nat.add_comm]
      exact (Leads.step Nat.one_pos ran).trans leads
    · rw [List.map_cons,made_cons,← List.append_assoc]
      exact ends

/-- Up to a NUL, whatever stands behind it, the units come out as they are made. -/
theorem units_made (behind : Text) (rest : Text) (nul : behind ++ [0] = 0::rest) :
    Unescapes (spelling units ++ behind) (made none (units.map pieceOf)) := by
  have start := between_start (spelling units ++ behind)
  rw [List.append_assoc,nul] at start
  obtain ⟨v,half,leads,ends⟩ := units_lead units each read none (fun _ none => by cases none) []
    (0::rest) _ start
  obtain ⟨rounds,fewer,leads⟩ := leads
  have most := units_length units each
  refine unescapes_of_leads _ _ rest half v ⟨rounds,?_,?_⟩ ends
  · rw [List.length_append]
    omega
  · rw [List.append_assoc,nul]
    exact leads

/-- A backslash at the end is read past. -/
theorem units_backslash (decoded : Text) : ¬Unescapes (spelling units ++ [code '\\']) decoded := by
  have start := between_start (spelling units ++ [code '\\'])
  rw [List.append_assoc] at start
  obtain ⟨v,half,leads,ends⟩ := units_lead units each read none (fun _ none => by cases none) []
    (code '\\'::[0]) _ start
  obtain ⟨w,ran,later⟩ := step_escape _ [] half v 0 (by decide) (by decide) ends
  have past : fetch w = (.error .outsideBuffer,w) := by
    have outside : w.buffer.length ≤ w.r := List.drop_eq_nil_iff.mp later.ahead
    unfold fetch
    rw [List.getElem?_eq_none outside]
  have failed (fuel : Nat) : ∃ why x, unescapeLoop (fuel + 1) v = (.error why,x) := by
    rw [unescapeLoop,Prog.bind_ok _ ran,if_pos rfl]
    cases fuel with
    | zero => exact ⟨.outOfFuel,w,rfl⟩
    | succ fuel =>
      refine ⟨.outsideBuffer,w,?_⟩
      rw [unescapeLoop]
      exact Prog.bind_error _ (Prog.bind_error _ past)
  obtain ⟨rounds,fewer,leads⟩ := leads
  have most := units_length units each
  obtain ⟨why,x,stopped⟩ := failed ((spelling units).length - rounds + 1)
  rintro ⟨buffer,ended,_⟩
  have fuel : (spelling units ++ [code '\\']).length + 1 =
      (spelling units).length - rounds + 1 + 1 + rounds := by
    rw [List.length_append,List.length_singleton]
    omega
  unfold jsonUnescape at ended
  rw [fuel,List.append_assoc,leads,stopped] at ended
  cases ended

end

/-- What is behind the read position is still as it was, and nothing is written there. -/
def InPlace (start : Text) (u : Unescape) : Prop :=
  u.w.getD u.r ≤ u.r ∧ u.buffer.drop u.r = start.drop u.r

theorem Between.inPlace (out rest start : Text) (half : Nat) (u : Unescape)
    (state : Between out rest half u) (length : u.buffer.length = start.length)
    (last : rest <:+ start) : InPlace start u := by
  have inside : u.w.getD u.r ≤ u.r ∧ u.r ≤ u.buffer.length := by
    rcases state with writing | ⟨unset,_,inside,_,_⟩
    · obtain ⟨w,at_w,_,fits⟩ := writing.written
      rw [at_w]
      exact ⟨by change w ≤ u.r; omega,writing.inside⟩
    · rw [unset]
      exact ⟨Nat.le_refl _,inside⟩
  refine ⟨inside.1,?_⟩
  have behind : rest.length = u.buffer.length - u.r := by
    rw [← state.ahead,List.length_drop]
  have left : start.length - rest.length = u.r := by omega
  rw [state.ahead,← left]
  exact List.suffix_iff_eq_drop.mp last

section
variable (n : Nat)

theorem put_keeps (c : UInt8) : Prog.Keeps (fun u : Unescape => u.buffer.length = n) (put c) := by
  intro u length
  unfold put
  split
  · exact length
  · split
    · exact (List.length_set ..).trans length
    · exact length

theorem fetch_keeps : Prog.Keeps (fun u : Unescape => u.buffer.length = n) fetch := by
  intro u length
  unfold fetch
  split <;> exact length

theorem advance_keeps : Prog.Keeps (fun u : Unescape => u.buffer.length = n) advance :=
  Prog.Keeps.modify _ fun _ length => length

theorem fetchNext_keeps : Prog.Keeps (fun u : Unescape => u.buffer.length = n) fetchNext :=
  (advance_keeps n).bind fun _ => fetch_keeps n

theorem unicode_keeps (charCode : Nat) :
    Prog.Keeps (fun u : Unescape => u.buffer.length = n) (unicode charCode) := by
  have puts (bytes : Text) : Prog.Keeps (fun u : Unescape => u.buffer.length = n) (bytes.forM put) :=
    Prog.Keeps.forM fun c _ => put_keeps n c
  apply Prog.Keeps.ite
  · intro _
    apply Prog.Keeps.get
    intro u
    apply Prog.Keeps.ite
    · exact fun _ => Prog.Keeps.modify _ fun _ length => length
    · exact fun _ => (puts _).bind fun _ => Prog.Keeps.modify _ fun _ length => length
  · exact fun _ => puts _

theorem xval_keeps (c : UInt8) : Prog.Keeps (fun u : Unescape => u.buffer.length = n) (xval c) := by
  unfold xval
  split
  · exact Prog.Keeps.pure _
  · exact Prog.Keeps.fail _

theorem unicodeEscape_keeps :
    Prog.Keeps (fun u : Unescape => u.buffer.length = n) unicodeEscape := by
  have next := fetchNext_keeps n
  exact next.bind fun c4 => next.bind fun c3 => next.bind fun c2 => next.bind fun c1 =>
    (advance_keeps n).bind fun _ => (xval_keeps n c4).bind fun _ => (xval_keeps n c3).bind fun _ =>
      (xval_keeps n c2).bind fun _ => (xval_keeps n c1).bind fun _ => unicode_keeps n _

theorem unescapeStep_keeps : Prog.Keeps (fun u : Unescape => u.buffer.length = n) unescapeStep := by
  apply (fetch_keeps n).bind
  intro c
  apply Prog.Keeps.ite
  · intro _
    have marked : Prog.Keeps (fun u : Unescape => u.buffer.length = n)
        (Prog.modify fun u => {u with w := some (u.w.getD u.r)} : Unescaping Unit) :=
      Prog.Keeps.modify _ fun _ length => length
    apply marked.bind
    intro _
    apply (fetchNext_keeps n).bind
    intro e
    apply Prog.Keeps.ite
    · exact fun _ => (Prog.Keeps.fail _).bind fun _ => Prog.Keeps.pure _
    · intro _
      apply Prog.Keeps.ite
      · exact fun _ => (unicodeEscape_keeps n).bind fun _ => Prog.Keeps.pure _
      · exact fun _ => (advance_keeps n).bind fun _ => (put_keeps n _).bind fun _ => Prog.Keeps.pure _
  · exact fun _ => (advance_keeps n).bind fun _ => (put_keeps n c).bind fun _ => Prog.Keeps.pure _

end

/-- After any number of rounds over units, writing is behind reading. -/
theorem units_inPlace (units : List (List Nat)) (each : ∀ unit ∈ units, StringUnit unit)
    (read : ∀ unit ∈ units, ¬Misread unit) (kept : Option Nat) (keeps : Kept kept) (out start : Text)
    (u : Unescape) (state : Between out (spelling units ++ [0]) (kept.getD 0) u)
    (length : u.buffer.length = start.length) (last : spelling units ++ [0] <:+ start) (fuel : Nat) :
    InPlace start (unescapeLoop fuel u).2 := by
  induction units generalizing kept out u fuel with
  | nil =>
    cases fuel with
    | zero => exact state.inPlace _ _ start _ u length last
    | succ fuel =>
      obtain ⟨v,ran,later⟩ := step_plain out [] _ u 0 (by decide) state
      have same := unescapeStep_keeps start.length u length
      rw [ran] at same
      rw [unescapeLoop,Prog.bind_ok _ ran]
      exact later.inPlace _ _ start _ v same List.nil_suffix
  | cons unit units ih =>
    cases fuel with
    | zero => exact state.inPlace _ _ start _ u length last
    | succ fuel =>
      rw [spelling_cons,List.append_assoc] at state last
      obtain ⟨v,ran,between⟩ := unit_round unit (each unit List.mem_cons_self)
        (read unit List.mem_cons_self) kept keeps out _ u state
      have same := unescapeStep_keeps start.length u length
      rw [ran] at same
      rw [unescapeLoop,Prog.bind_ok _ ran,if_pos rfl]
      exact ih (fun one inside => each one (List.mem_cons_of_mem _ inside))
        (fun one inside => read one (List.mem_cons_of_mem _ inside)) _
        (keeps.step kept (pieceOf unit)) _ v between same ((List.suffix_append _ _).trans last) fuel

structure DecodesInPlace (units : List (List Nat)) : Prop where
  decoded : Unescapes (spelling units) (reference none (units.map pieceOf))
  inPlace : ∀ fuel, InPlace (spelling units ++ [0])
    (unescapeLoop fuel ⟨spelling units ++ [0],0,none,0⟩).2

theorem Unescapes.unique (str first second : Text) (one : Unescapes str first)
    (other : Unescapes str second) : first = second := by
  obtain ⟨buffer,ran,front⟩ := one
  obtain ⟨buffer',ran',front'⟩ := other
  rw [ran] at ran'
  obtain ⟨length,same⟩ := Prod.mk.inj (Except.ok.inj ran')
  rw [← front,← front',length,same]

theorem spelling_snoc (units : List (List Nat)) (c : Nat) :
    spelling (units ++ [[c]]) = spelling units ++ [UInt8.ofNat c] := by
  unfold spelling
  rw [List.flatten_append,List.map_append]
  rfl

theorem reference_snoc (pieces : List Piece) (bytes : Text) (before : Option Nat) :
    reference before (pieces ++ [.bytes bytes]) = reference before pieces ++ bytes := by
  induction pieces generalizing before with
  | nil => rw [List.nil_append,reference,reference,reference,List.nil_append,List.append_nil]
  | cons piece pieces ih =>
    cases piece with
    | bytes here => rw [List.cons_append,reference,reference,ih,List.append_assoc]
    | half charCode _ =>
      rw [List.cons_append,reference,reference]
      split
      · exact ih _
      · rw [ih,List.append_assoc]

/-- No character that is cut down is decoded, if what is before it is. -/
theorem misread_lost (units : List (List Nat)) (each : ∀ unit ∈ units, StringUnit unit)
    (read : ∀ unit ∈ units, ¬Misread unit) (unit : List Nat) (misread : Misread unit)
    (before : DecodesInPlace units) : ¬DecodesInPlace (units ++ [unit]) := by
  intro decodes
  have same := before.decoded.unique _ _ _ (by
    have made := units_made units each read [] [] rfl
    rw [List.append_nil] at made
    exact made)
  have decoded := decodes.decoded
  obtain ⟨c,rfl⟩ : ∃ c, unit = [c] := by
    cases unit with
    | nil => exact misread.elim
    | cons c more =>
      cases more with
      | nil => exact ⟨c,rfl⟩
      | cons d more => exact misread.elim
  rw [spelling_snoc] at decoded
  rcases misread with nul | backslash
  · rw [nul,List.map_append,List.map_singleton,pieceOf,reference_snoc,same] at decoded
    have stops := units_made units each read [0] [0] rfl
    have length := congrArg List.length (decoded.unique _ _ _ stops)
    rw [List.length_append,List.length_singleton] at length
    omega
  · rw [backslash] at decoded
    exact units_backslash units each read _ decoded

/-- Each beginning of a string is decoded exactly if its surrogates but for the last are in
pairs, and no character of it is cut down to a NUL or a backslash. -/
theorem decodes_iff (units : List (List Nat)) (each : ∀ unit ∈ units, StringUnit unit) :
    (∀ beginning, beginning <+: units → DecodesInPlace beginning) ↔
      (∀ unit ∈ units, ¬Misread unit) ∧ pairedUp (units.map pieceOf) = true := by
  constructor
  · intro decodes
    have read : ∀ unit ∈ units, ¬Misread unit := by
      by_contra misread
      have fails : ¬units.all (fun unit => decide (¬Misread unit)) = true := by
        simpa using misread
      obtain ⟨front,last,rest,rfl,passes,failed⟩ := first_failing _ units fails
      have read : ∀ unit ∈ front, ¬Misread unit := fun unit inside =>
        of_decide_eq_true (List.all_eq_true.mp passes unit inside)
      have lost : Misread last := not_not.mp (of_decide_eq_false failed)
      exact misread_lost front (fun unit inside => each unit (List.mem_append_left _ inside)) read last
        lost (decodes front ⟨_,rfl⟩) (decodes (front ++ [last]) ⟨rest,by rw [List.append_assoc]; rfl⟩)
    refine ⟨read,reference_pairs _ fun pre front => ?_⟩
    obtain ⟨beginning,start,rfl⟩ := List.prefix_map_iff.mp front
    have whole := units_made beginning (fun unit inside => each unit (start.subset inside))
      (fun unit inside => read unit (start.subset inside)) [] [] rfl
    rw [List.append_nil] at whole
    exact whole.unique _ _ _ (decodes beginning start).decoded
  · rintro ⟨read,paired⟩ beginning start
    have eachFront := fun unit inside => each unit (start.subset inside)
    have readFront := fun unit inside => read unit (start.subset inside)
    constructor
    · rw [← made_reference _ paired _ (start.map pieceOf)]
      have whole := units_made beginning eachFront readFront [] [] rfl
      rw [List.append_nil] at whole
      exact whole
    · exact units_inPlace beginning eachFront readFront none (fun _ none => by cases none) [] _ _
        (between_start _) rfl List.suffix_rfl

/-- A pair, a letter and a surrogate at the end. -/
theorem decodes_pair : DecodesInPlace
    [[92,117,100,56,51,100],[92,117,100,101,48,48],[97],[92,117,68,67,48,49]] := by
  refine (decodes_iff [[92,117,100,56,51,100],[92,117,100,101,48,48],[97],[92,117,68,67,48,49]]
    ?_).mpr (by decide) _ List.prefix_rfl
  intro unit inside
  simp only [List.mem_cons,List.not_mem_nil,or_false] at inside
  rcases inside with rfl | rfl | rfl | rfl
  · exact .hex _ _ _ _ (by decide)
  · exact .hex _ _ _ _ (by decide)
  · exact .plain 97 (by decide)
  · exact .hex _ _ _ _ (by decide)

/-- A high surrogate, a letter and a low surrogate: four bytes are made of the two. -/
theorem separated_surrogates :
    ¬DecodesInPlace [[92,117,100,56,48,48],[97],[92,117,100,99,48,48]] := by
  intro decodes
  have made := units_made [[92,117,100,56,48,48],[97],[92,117,100,99,48,48]] (by
    intro unit inside
    simp only [List.mem_cons,List.not_mem_nil,or_false] at inside
    rcases inside with rfl | rfl | rfl
    · exact .hex _ _ _ _ (by decide)
    · exact .plain 97 (by decide)
    · exact .hex _ _ _ _ (by decide)) (by decide) [] [] rfl
  rw [List.append_nil] at made
  exact absurd (made.unique _ _ _ decodes.decoded) (by decide)

end ModNdb.JSON
