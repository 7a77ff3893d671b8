import ModNdb.JSON.Unescape
import ModNdb.MySQL.Result

/-! The escapes of pages (output_format.cc) are undone by what reads JSON and XML. -/
namespace ModNdb.JSON
open MySQL (escapeString jsonEscape xmlEscape hexDigit)

/-- The combined table: the XML escapes take precedence. -/
def bothEscape (c : UInt8) : Option Text := (xmlEscape c).or (jsonEscape c)

example : MySQL.getEscapes .escXmljson = some bothEscape := rfl

def unit (table : UInt8 → Option Text) (c : UInt8) : Text := (table c).getD [c]

theorem escapeString_units (table : UInt8 → Option Text) (s : Text) :
    escapeString table s = (s.map (unit table)).flatten := List.flatMap_def

theorem hexCode_control (n : Fin 32) :
    hexCode? (code '0') (code '0') (hexDigit (n / 16)) (hexDigit (n % 16)) = some n.val := by
  revert n
  decide

theorem utf8_byte (c : UInt8) (small : c < 128) : utf8 c.toNat = [c] := by
  have below : c.toNat < 0x80 := UInt8.lt_iff_toNat_lt.mp small
  rw [utf8,if_pos below,UInt8.ofNat_toNat]

theorem spelled_unit (c : UInt8) : Spelled [c] (unit jsonEscape c) := by
  unfold unit jsonEscape
  split_ifs with backslash quote back feed line ret tab control
  · subst backslash
    exact .escape (code '\\') (by decide) (by decide)
  · subst quote
    exact .escape (code '"') (by decide) (by decide)
  · subst back
    exact .escape (code 'b') (by decide) (by decide)
  · subst feed
    exact .escape (code 'f') (by decide) (by decide)
  · subst line
    exact .escape (code 'n') (by decide) (by decide)
  · subst ret
    exact .escape (code 'r') (by decide) (by decide)
  · subst tab
    exact .escape (code 't') (by decide) (by decide)
  · have below : c.toNat < 32 := UInt8.lt_iff_toNat_lt.mp control
    have reads := hexCode_control ⟨c.toNat,below⟩
    have spelled := Spelled.hex _ _ _ _ c.toNat reads (by unfold Surrogate; omega)
    rwa [utf8_byte c (UInt8.lt_trans control (by decide))] at spelled
  · apply Spelled.plain c _ backslash
    rintro rfl
    exact control (by decide)

theorem spelled_units (table : UInt8 → Option Text) (s : Text)
    (each : ∀ c, Spelled [c] (unit table c)) : Unescapes (s.map (unit table)).flatten s := by
  have spelled : List.Forall₂ Spelled (s.map fun c => [c]) (s.map (unit table)) := by
    rw [List.forall₂_map_left_iff,List.forall₂_map_right_iff]
    exact List.forall₂_same.mpr fun c _ => each c
  have ends := unescapes_spelled _ _ spelled
  have single : (s.map fun c => [c]).flatten = s := by
    rw [← List.flatMap_def]
    exact List.flatMap_singleton' s
  rwa [single] at ends

theorem json_unescapes (s : Text) : Unescapes (escapeString jsonEscape s) s := by
  rw [escapeString_units]
  exact spelled_units jsonEscape s spelled_unit

def entities : List (Text × UInt8) :=
  [(text "&lt;",code '<'),(text "&gt;",code '>'),(text "&amp;",code '&'),(text "&quot;",code '"')]

def entityAt (s : Text) : Option (Text × UInt8) := entities.find? fun entity => entity.1.isPrefixOf s

/-- The entities of a text replaced, with the number of characters still to be left out. -/
def replaceFrom : Nat → Text → Text
  | _, [] => []
  | skip + 1, _::s => replaceFrom skip s
  | 0, c::s =>
    match entityAt (c::s) with
    | some entity => entity.2 :: replaceFrom (entity.1.length - 1) s
    | none => c :: replaceFrom 0 s

def replaceEntities (s : Text) : Text := replaceFrom 0 s

theorem entityAt_none (c : UInt8) (s : Text) (other : c ≠ code '&') : entityAt (c::s) = none := by
  have first : (code '&' == c) = false := beq_eq_false_iff_ne.mpr fun same => other same.symm
  apply List.find?_eq_none.mpr
  intro entity inside
  simp only [entities,List.mem_cons,List.not_mem_nil,or_false] at inside
  rcases inside with rfl | rfl | rfl | rfl <;>
    exact fun starts => Bool.false_ne_true (first.symm.trans (Bool.and_eq_true_iff.mp starts).1)

theorem replace_plain (p s : Text) (free : code '&' ∉ p) :
    replaceFrom 0 (p ++ s) = p ++ replaceFrom 0 s := by
  induction p with
  | nil => rfl
  | cons c p ih =>
    have other : c ≠ code '&' := fun same => free (same ▸ List.mem_cons_self)
    rw [List.cons_append,replaceFrom,entityAt_none c _ other]
    rw [ih fun inside => free (List.mem_cons_of_mem c inside)]
    rfl

theorem replace_unit (c : UInt8) (s : Text) :
    replaceFrom 0 (unit xmlEscape c ++ s) = c :: replaceFrom 0 s := by
  unfold unit xmlEscape
  split_ifs with lt gt amp quote
  · subst lt; rfl
  · subst gt; rfl
  · subst amp; rfl
  · subst quote; rfl
  · apply replace_plain [c] s
    intro inside
    exact amp (List.mem_singleton.mp inside).symm

theorem xml_replaces (s : Text) : replaceEntities (escapeString xmlEscape s) = s := by
  rw [escapeString_units]
  induction s with
  | nil => rfl
  | cons c s ih =>
    rw [List.map_cons,List.flatten_cons]
    exact (replace_unit c _).trans (congrArg (List.cons c) ih)

theorem forall_of_all {P : UInt8 → Prop} [DecidablePred P] (s : Text)
    (all : (s.all fun c => decide (P c)) = true) : ∀ c ∈ s, P c :=
  fun c inside => of_decide_eq_true (List.all_eq_true.mp all c inside)

theorem split_char (x : UInt8) (p e before behind : Text) (free : x ∉ p)
    (same : p ++ e = before ++ x::behind) : ∃ a, before = p ++ a ∧ e = a ++ x::behind := by
  rcases List.append_eq_append_iff.mp same with ⟨a,split,rest⟩ | ⟨a,split,rest⟩
  · exact ⟨a,split,rest⟩
  · cases a with
    | nil => exact ⟨[],by rw [split,List.append_nil,List.append_nil],by rw [List.nil_append,rest,List.nil_append]⟩
    | cons y a =>
      obtain rfl : x = y := (List.cons.inj rest).1
      exact absurd (split ▸ List.mem_append_right before List.mem_cons_self) free

def withoutXml (c : UInt8) : Option Text := if (xmlEscape c).isSome then none else jsonEscape c

theorem xmlEscape_ampersand (c : UInt8) (plain : (xmlEscape c).isSome = false) : c ≠ code '&' := by
  rintro rfl
  cases plain

theorem hexDigit_plain (n : Fin 16) : 32 ≤ hexDigit n ∧ hexDigit n ≠ code '"' ∧
    hexDigit n ≠ code '\\' ∧ hexDigit n ≠ code '&' := by
  revert n
  decide

theorem json_unit_cases (c : UInt8) :
    unit jsonEscape c = [code '\\',code '\\'] ∨ unit jsonEscape c = [code '\\',code '"'] ∨
    (∃ tail ≠ [], unit jsonEscape c = code '\\'::tail ∧
      ∀ x ∈ tail, 32 ≤ x ∧ x ≠ code '"' ∧ x ≠ code '\\' ∧ x ≠ code '&') ∨
    unit jsonEscape c = [c] ∧ 32 ≤ c ∧ c ≠ code '"' ∧ c ≠ code '\\' := by
  unfold unit jsonEscape
  split_ifs with backslash quote back feed line ret tab control
  · exact .inl rfl
  · exact .inr (.inl rfl)
  · exact .inr (.inr (.inl ⟨[code 'b'],by simp,rfl,forall_of_all _ (by decide)⟩))
  · exact .inr (.inr (.inl ⟨[code 'f'],by simp,rfl,forall_of_all _ (by decide)⟩))
  · exact .inr (.inr (.inl ⟨[code 'n'],by simp,rfl,forall_of_all _ (by decide)⟩))
  · exact .inr (.inr (.inl ⟨[code 'r'],by simp,rfl,forall_of_all _ (by decide)⟩))
  · exact .inr (.inr (.inl ⟨[code 't'],by simp,rfl,forall_of_all _ (by decide)⟩))
  · have below : c.toNat < 32 := UInt8.lt_iff_toNat_lt.mp control
    refine .inr (.inr (.inl ⟨code 'u'::code '0'::code '0'::_,by simp,rfl,?_⟩))
    have high := hexDigit_plain ⟨c.toNat / 16,by omega⟩
    have low := hexDigit_plain ⟨c.toNat % 16,by omega⟩
    intro x inside
    change x ∈ [code 'u',code '0',code '0',hexDigit (c.toNat / 16),hexDigit (c.toNat % 16)] at inside
    simp only [List.mem_cons,List.not_mem_nil,or_false] at inside
    rcases inside with rfl | rfl | rfl | rfl | rfl
    · decide
    · decide
    · decide
    · exact high
    · exact low
  · exact .inr (.inr (.inr ⟨rfl,UInt8.not_lt.mp control,quote,backslash⟩))

theorem json_unit_ampersand (c : UInt8) (other : c ≠ code '&') : code '&' ∉ unit jsonEscape c := by
  rcases json_unit_cases c with shape | shape | ⟨tail,_,shape,plain⟩ | ⟨shape,_⟩ <;> rw [shape]
  · decide
  · decide
  · intro inside
    rcases List.mem_cons.mp inside with same | later
    · revert same
      decide
    · exact (plain _ later).2.2.2 rfl
  · exact fun inside => other (List.mem_singleton.mp inside).symm

theorem replace_both (c : UInt8) (s : Text) :
    replaceFrom 0 (unit bothEscape c ++ s) = unit withoutXml c ++ replaceFrom 0 s := by
  unfold unit bothEscape withoutXml
  cases escaped : xmlEscape c with
  | some entity =>
    have replaced := replace_unit c s
    rw [unit,escaped] at replaced
    exact replaced
  | none =>
    have other := xmlEscape_ampersand c (by rw [escaped]; rfl)
    exact replace_plain _ s (json_unit_ampersand c other)

theorem spelled_withoutXml (c : UInt8) : Spelled [c] (unit withoutXml c) := by
  unfold unit withoutXml
  split_ifs with escaped
  · have nonzero : c ≠ 0 := by
      rintro rfl
      cases escaped
    have unescaped : c ≠ code '\\' := by
      rintro rfl
      cases escaped
    exact .plain c nonzero unescaped
  · exact spelled_unit c

theorem both_unescapes (s : Text) : Unescapes (replaceEntities (escapeString bothEscape s)) s := by
  have replaced : replaceEntities (escapeString bothEscape s) = (s.map (unit withoutXml)).flatten := by
    rw [escapeString_units]
    induction s with
    | nil => rfl
    | cons c s ih =>
      rw [List.map_cons,List.flatten_cons,List.map_cons,List.flatten_cons,← ih]
      exact replace_both c _
  rw [replaced]
  exact spelled_units withoutXml s spelled_withoutXml

structure NoMarkup (e : Text) : Prop where
  plain : ∀ c ∈ e, c ≠ code '<' ∧ c ≠ code '>' ∧ c ≠ code '"'
  entity : ∀ before behind, e = before ++ code '&'::behind →
    ∃ entity ∈ entities, entity.1 <+: code '&'::behind

theorem xml_unit_cases (c : UInt8) :
    (∃ entity ∈ entities, unit xmlEscape c = entity.1) ∨
    unit xmlEscape c = [c] ∧ c ≠ code '<' ∧ c ≠ code '>' ∧ c ≠ code '"' ∧ c ≠ code '&' := by
  unfold unit xmlEscape
  split_ifs with lt gt amp quote
  · exact .inl ⟨(text "&lt;",code '<'),by simp [entities],rfl⟩
  · exact .inl ⟨(text "&gt;",code '>'),by simp [entities],rfl⟩
  · exact .inl ⟨(text "&amp;",code '&'),by simp [entities],rfl⟩
  · exact .inl ⟨(text "&quot;",code '"'),by simp [entities],rfl⟩
  · exact .inr ⟨rfl,lt,gt,quote,amp⟩

theorem entity_shape (entity : Text × UInt8) (known : entity ∈ entities) :
    ∃ tail, entity.1 = code '&'::tail ∧
      ∀ c ∈ tail, c ≠ code '<' ∧ c ≠ code '>' ∧ c ≠ code '"' ∧ c ≠ code '&' := by
  simp only [entities,List.mem_cons,List.not_mem_nil,or_false] at known
  rcases known with rfl | rfl | rfl | rfl
  · exact ⟨text "lt;",rfl,forall_of_all _ (by decide)⟩
  · exact ⟨text "gt;",rfl,forall_of_all _ (by decide)⟩
  · exact ⟨text "amp;",rfl,forall_of_all _ (by decide)⟩
  · exact ⟨text "quot;",rfl,forall_of_all _ (by decide)⟩

theorem xml_noMarkup (s : Text) : NoMarkup (escapeString xmlEscape s) := by
  rw [escapeString_units]
  induction s with
  | nil => exact ⟨by simp,by simp⟩
  | cons c s ih =>
    rw [List.map_cons,List.flatten_cons]
    rcases xml_unit_cases c with ⟨entity,known,shape⟩ | ⟨shape,lt,gt,quote,amp⟩
    · obtain ⟨tail,starts,plain⟩ := entity_shape entity known
      rw [shape,starts,List.cons_append]
      constructor
      · intro x inside
        rcases List.mem_cons.mp inside with rfl | inside
        · decide
        · rcases List.mem_append.mp inside with here | later
          · exact ⟨(plain x here).1,(plain x here).2.1,(plain x here).2.2.1⟩
          · exact ih.plain x later
      · intro before behind same
        cases before with
        | nil =>
          refine ⟨entity,known,?_⟩
          rw [List.nil_append] at same
          rw [← same,starts]
          exact ⟨_,rfl⟩
        | cons x before =>
          have free : code '&' ∉ tail := fun inside => (plain _ inside).2.2.2 rfl
          obtain ⟨a,_,later⟩ := split_char _ tail _ before behind free (List.cons.inj same).2
          exact ih.entity a behind later
    · rw [shape]
      constructor
      · intro x inside
        rcases List.mem_append.mp inside with here | later
        · rw [List.mem_singleton.mp here]
          exact ⟨lt,gt,quote⟩
        · exact ih.plain x later
      · intro before behind same
        have free : code '&' ∉ [c] := fun inside => amp (List.mem_singleton.mp inside).symm
        obtain ⟨a,_,later⟩ := split_char _ [c] _ before behind free same
        exact ih.entity a behind later

def backslashes (s : Text) : Nat := (s.rtakeWhile (· = code '\\')).length

theorem backslashes_append (p s : Text) :
    backslashes (p ++ s) = backslashes s ∨ backslashes s = s.length ∧
      backslashes (p ++ s) = backslashes p + s.length := by
  unfold backslashes List.rtakeWhile
  rw [List.reverse_append,List.takeWhile_append]
  simp only [List.length_reverse]
  split_ifs with all
  · right
    refine ⟨all,?_⟩
    rw [List.length_append,List.length_reverse]
    omega
  · exact .inl rfl

theorem backslashes_even (p s : Text) (even : backslashes p % 2 = 0) :
    backslashes (p ++ s) % 2 = backslashes s % 2 := by
  rcases backslashes_append p s with same | ⟨all,more⟩ <;> omega

/-- No control character, and no quote that is not behind an escaping backslash, which is
one with an even number of backslashes in front of it. -/
structure Quotable (e : Text) : Prop where
  printable : ∀ c ∈ e, 32 ≤ c
  quoted : ∀ before behind, e = before ++ code '"'::behind → backslashes before % 2 = 1

theorem backslashes_plain (p : Text) (c : UInt8) (other : c ≠ code '\\') :
    backslashes (p ++ [c]) = 0 := by
  unfold backslashes List.rtakeWhile
  rw [List.reverse_append]
  simp [other]

theorem json_unit_even (c : UInt8) : backslashes (unit jsonEscape c) % 2 = 0 := by
  rcases json_unit_cases c with shape | shape | ⟨tail,some,shape,plain⟩ | ⟨shape,_,_,other⟩ <;>
    rw [shape]
  · rfl
  · rfl
  · obtain ⟨front,last,rfl⟩ : ∃ front last, tail = front ++ [last] :=
      ⟨tail.dropLast,tail.getLast some,(List.dropLast_append_getLast some).symm⟩
    have other := (plain last (by simp)).2.2.1
    rw [← List.cons_append,backslashes_plain _ last other]
  · rw [← List.nil_append [c],backslashes_plain [] c other]

theorem json_unit_quote (c : UInt8) (other : unit jsonEscape c ≠ [code '\\',code '"']) :
    code '"' ∉ unit jsonEscape c := by
  rcases json_unit_cases c with shape | shape | ⟨tail,_,shape,plain⟩ | ⟨shape,_,unquoted,_⟩
  · rw [shape]
    decide
  · exact absurd shape other
  · rw [shape]
    intro inside
    rcases List.mem_cons.mp inside with same | later
    · revert same
      decide
    · exact (plain _ later).2.1 rfl
  · rw [shape]
    exact fun inside => unquoted (List.mem_singleton.mp inside).symm

theorem json_quotable (s : Text) : Quotable (escapeString jsonEscape s) := by
  rw [escapeString_units]
  induction s with
  | nil => exact ⟨by simp,by simp⟩
  | cons c s ih =>
    rw [List.map_cons,List.flatten_cons]
    have even := json_unit_even c
    constructor
    · intro x inside
      rcases List.mem_append.mp inside with here | later
      · rcases json_unit_cases c with shape | shape | ⟨tail,_,shape,plain⟩ | ⟨shape,above,_⟩ <;>
          rw [shape] at here
        · exact forall_of_all [code '\\',code '\\'] (by decide) x here
        · exact forall_of_all [code '\\',code '"'] (by decide) x here
        · rcases List.mem_cons.mp here with rfl | here
          · decide
          · exact (plain x here).1
        · rw [List.mem_singleton.mp here]
          exact above
      · exact ih.printable x later
    · intro before behind same
      by_cases quote : unit jsonEscape c = [code '\\',code '"']
      · rw [quote,List.cons_append,List.cons_append,List.nil_append] at same
        cases before with
        | nil => cases (List.cons.inj same).1
        | cons x before =>
          obtain ⟨rfl,next⟩ := List.cons.inj same
          cases before with
          | nil => rfl
          | cons y before =>
            obtain ⟨rfl,later⟩ := List.cons.inj next
            have odd := backslashes_even [code '\\',code '"'] before (by decide)
            exact odd.trans (ih.quoted before behind later)
      · have free := json_unit_quote c quote
        obtain ⟨a,split,later⟩ := split_char _ _ _ before behind free same
        rw [split,backslashes_even _ a even]
        exact ih.quoted a behind later

/-- The escapes of each table are undone, and hide what they are there to hide. -/
theorem escapes_undone (s : Text) :
    Unescapes (escapeString jsonEscape s) s ∧ Quotable (escapeString jsonEscape s) ∧
    replaceEntities (escapeString xmlEscape s) = s ∧ NoMarkup (escapeString xmlEscape s) ∧
    Unescapes (replaceEntities (escapeString bothEscape s)) s :=
  ⟨json_unescapes s,json_quotable s,xml_replaces s,xml_noMarkup s,both_unescapes s⟩

end ModNdb.JSON
