import Mathlib

/-! The JSON grammar over bytes. Strings and numbers are read by functions, the nested
part of the grammar is a relation between a text, the value at its front and the
text behind it. Bytes from 128 on are taken as they are. -/
namespace JsonText

abbrev Bytes := List UInt8

inductive Json
  | null
  | bool (b : Bool)
  | number (lexeme : Bytes)
  | string (s : Bytes)
  | array (elements : List Json)
  | object (members : List (Bytes × Json))

def isBlank (c : UInt8) : Bool := c == 32 || c == 9 || c == 10 || c == 13

def skip (t : Bytes) : Bytes := t.dropWhile isBlank

def isDigit (c : UInt8) : Bool := 48 ≤ c && c ≤ 57

def digitRun (t : Bytes) : Bytes × Bytes := (t.takeWhile isDigit,t.dropWhile isDigit)

def minus : Bytes → Bytes × Bytes
  | 45::t => ([45],t)
  | t => ([],t)

def whole : Bytes → Option (Bytes × Bytes)
  | 48::t => some ([48],t)
  | t => if (digitRun t).1 = [] then none else some (digitRun t)

def digits1 (t : Bytes) : Option (Bytes × Bytes) :=
  if (digitRun t).1 = [] then none else some (digitRun t)

def fraction : Bytes → Option (Bytes × Bytes)
  | 46::t => (digits1 t).map fun (ds,r) => (46::ds,r)
  | t => some ([],t)

def sign : Bytes → Bytes × Bytes
  | 43::t => ([43],t)
  | t => minus t

def isExp (c : UInt8) : Bool := c == 69 || c == 101

def exponent : Bytes → Option (Bytes × Bytes)
  | [] => some ([],[])
  | c::t =>
    if isExp c then (digits1 (sign t).2).map fun (ds,r) => (c::((sign t).1 ++ ds),r)
    else some ([],c::t)

def number (t : Bytes) : Option (Bytes × Bytes) := do
  let (i,t2) ← whole (minus t).2
  let (f,t3) ← fraction t2
  let (e,r) ← exponent t3
  return ((minus t).1 ++ (i ++ (f ++ e)),r)

def IsNumber (t : Bytes) : Prop := number t = some (t,[])

instance (t : Bytes) : Decidable (IsNumber t) := inferInstanceAs (Decidable (_ = _))

def hexValue (c : UInt8) : Option Nat :=
  if 48 ≤ c ∧ c ≤ 57 then some (c.toNat - 48)
  else if 97 ≤ c ∧ c ≤ 102 then some (c.toNat - 87)
  else if 65 ≤ c ∧ c ≤ 70 then some (c.toNat - 55)
  else none

def hex4 : Bytes → Option (Nat × Bytes)
  | a::b::c::d::t => do
    return (4096 * (← hexValue a) + 256 * (← hexValue b) + 16 * (← hexValue c) + (← hexValue d),t)
  | _ => none

def utf8 (n : Nat) : Bytes :=
  if n < 128 then [UInt8.ofNat n]
  else if n < 2048 then [UInt8.ofNat (192 + n / 64),UInt8.ofNat (128 + n % 64)]
  else if n < 65536 then
    [UInt8.ofNat (224 + n / 4096),UInt8.ofNat (128 + n / 64 % 64),UInt8.ofNat (128 + n % 64)]
  else [UInt8.ofNat (240 + n / 262144),UInt8.ofNat (128 + n / 4096 % 64),
    UInt8.ofNat (128 + n / 64 % 64),UInt8.ofNat (128 + n % 64)]

/-- The low surrogate that must follow the high surrogate `high`. -/
def lowSurrogate (high : Nat) : Bytes → Option (Bytes × Bytes)
  | 92::117::t => (hex4 t).bind fun (low,r) =>
    if 56320 ≤ low ∧ low < 57344 then
      some (utf8 (65536 + 1024 * (high - 55296) + (low - 56320)),r)
    else none
  | _ => none

/-- What follows `\u`: a character, or a high and a low surrogate. -/
def unicode (t : Bytes) : Option (Bytes × Bytes) :=
  (hex4 t).bind fun (n,r) =>
    if n < 55296 ∨ 57344 ≤ n then some (utf8 n,r)
    else if 56320 ≤ n then none
    else lowSurrogate n r

def escaped : Bytes → Option (Bytes × Bytes)
  | [] => none
  | c::t =>
    if c = 34 ∨ c = 92 ∨ c = 47 then some ([c],t)
    else if c = 98 then some ([8],t)
    else if c = 102 then some ([12],t)
    else if c = 110 then some ([10],t)
    else if c = 114 then some ([13],t)
    else if c = 116 then some ([9],t)
    else if c = 117 then unicode t
    else none

inductive Body : Bytes → Bytes → Bytes → Prop
  | close (t : Bytes) : Body (34::t) [] t
  | char (c : UInt8) (t s r : Bytes) (quote : c ≠ 34) (backslash : c ≠ 92) (control : 32 ≤ c)
      (rest : Body t s r) : Body (c::t) (c::s) r
  | escape (t u m s r : Bytes) (read : escaped t = some (u,m)) (rest : Body m s r) :
      Body (92::t) (u ++ s) r

mutual

/-- The value at the front of a text, without blanks before it. -/
inductive Value : Bytes → Json → Bytes → Prop
  | null (r : Bytes) : Value (110::117::108::108::r) .null r
  | true (r : Bytes) : Value (116::114::117::101::r) (.bool true) r
  | false (r : Bytes) : Value (102::97::108::115::101::r) (.bool false) r
  | number (t lexeme r : Bytes) (read : number t = some (lexeme,r)) : Value t (.number lexeme) r
  | string (t s r : Bytes) (read : Body t s r) : Value (34::t) (.string s) r
  | emptyArray (t r : Bytes) (close : skip t = 93::r) : Value (91::t) (.array []) r
  | array (t r : Bytes) (vs : List Json) (elements : Elements t vs r) : Value (91::t) (.array vs) r
  | emptyObject (t r : Bytes) (close : skip t = 125::r) : Value (123::t) (.object []) r
  | object (t r : Bytes) (ms : List (Bytes × Json)) (members : Members t ms r) :
      Value (123::t) (.object ms) r

inductive Elements : Bytes → List Json → Bytes → Prop
  | last (t m r : Bytes) (v : Json) (value : Value (skip t) v m) (close : skip m = 93::r) :
      Elements t [v] r
  | more (t m n r : Bytes) (v : Json) (vs : List Json) (value : Value (skip t) v m)
      (comma : skip m = 44::n) (rest : Elements n vs r) : Elements t (v::vs) r

inductive Members : Bytes → List (Bytes × Json) → Bytes → Prop
  | last (t k s c w m r : Bytes) (v : Json) (quote : skip t = 34::k)
      (name : Body k s c) (colon : skip c = 58::w) (value : Value (skip w) v m)
      (close : skip m = 125::r) : Members t [(s,v)] r
  | more (t k s c w m n r : Bytes) (v : Json) (ms : List (Bytes × Json)) (quote : skip t = 34::k)
      (name : Body k s c) (colon : skip c = 58::w) (value : Value (skip w) v m)
      (comma : skip m = 44::n) (rest : Members n ms r) : Members t ((s,v)::ms) r

end

def Document (t : Bytes) (v : Json) : Prop := ∃ r, Value (skip t) v r ∧ skip r = []

theorem skip_blank (c : UInt8) (t : Bytes) (blank : isBlank c = true) : skip (c::t) = skip t :=
  List.dropWhile_cons_of_pos blank

theorem skip_other (c : UInt8) (t : Bytes) (other : isBlank c = false) : skip (c::t) = c::t :=
  List.dropWhile_cons_of_neg (by simp [other])

def Clean (s : Bytes) : Prop := ∀ c ∈ s, c ≠ 34 ∧ c ≠ 92 ∧ 32 ≤ c

instance (s : Bytes) : Decidable (Clean s) := List.decidableBAll _ s

theorem hexValue_quote : hexValue 34 = none := by decide

theorem hex4_consumes (t r : Bytes) (n : Nat) (read : hex4 t = some (n,r)) :
    n < 65536 ∧ ∃ consumed, t = consumed ++ r ∧ consumed.length = 4 ∧ 34 ∉ consumed := by
  match t with
  | a::b::c::d::t =>
    simp only [hex4,Option.bind_eq_bind,Option.bind_eq_some_iff,Option.pure_def,Option.some.injEq,
      Prod.mk.injEq] at read
    obtain ⟨i,hi,j,hj,k,hk,l,hl,rfl,rfl⟩ := read
    have below (c : UInt8) (v : Nat) (found : hexValue c = some v) : v < 16 ∧ c ≠ 34 := by
      refine ⟨?_,?_⟩
      · simp only [hexValue,UInt8.le_iff_toNat_le,UInt8.reduceToNat] at found
        split_ifs at found <;> (obtain rfl := Option.some.inj found; omega)
      · rintro rfl
        simp [hexValue_quote] at found
    have hi := below _ _ hi
    have hj := below _ _ hj
    have hk := below _ _ hk
    have hl := below _ _ hl
    refine ⟨by omega,[a,b,c,d],rfl,rfl,?_⟩
    simp [hi.2.symm,hj.2.symm,hk.2.symm,hl.2.symm]
  | [] => simp [hex4] at read
  | [_] => simp [hex4] at read
  | [_,_] => simp [hex4] at read
  | [_,_,_] => simp [hex4] at read

theorem utf8_length (n : Nat) : (utf8 n).length ≤ 4 ∧ (n < 65536 → (utf8 n).length ≤ 3) := by
  unfold utf8
  split_ifs <;> simp
  omega

theorem lowSurrogate_consumes (high : Nat) (t u r : Bytes)
    (read : lowSurrogate high t = some (u,r)) :
    ∃ consumed, t = consumed ++ r ∧ u.length ≤ consumed.length ∧ 34 ∉ consumed := by
  unfold lowSurrogate at read
  split at read
  · rename_i t
    obtain ⟨⟨low,m⟩,second,read⟩ := Option.bind_eq_some_iff.mp read
    obtain ⟨_,consumed,same,four,quote⟩ := hex4_consumes t m low second
    dsimp only at read
    split_ifs at read
    obtain ⟨rfl,rfl⟩ := Prod.mk.inj (Option.some.inj read)
    refine ⟨92::117::consumed,by simp [same],?_,by simp [quote]⟩
    have := (utf8_length (65536 + 1024 * (high - 55296) + (low - 56320))).1
    simp only [List.length_cons]
    omega
  · cases read

theorem unicode_consumes (t u r : Bytes) (read : unicode t = some (u,r)) :
    ∃ consumed, t = consumed ++ r ∧ u.length ≤ consumed.length ∧ 34 ∉ consumed := by
  obtain ⟨⟨n,m⟩,first,read⟩ := Option.bind_eq_some_iff.mp read
  obtain ⟨small,consumed,same,four,quote⟩ := hex4_consumes t m n first
  dsimp only at read
  split_ifs at read
  · obtain ⟨rfl,rfl⟩ := Prod.mk.inj (Option.some.inj read)
    have := (utf8_length n).2 small
    exact ⟨consumed,same,by omega,quote⟩
  · obtain ⟨consumed',same',short,quote'⟩ := lowSurrogate_consumes n m u r read
    refine ⟨consumed ++ consumed',by rw [same,same',List.append_assoc],?_,by simp [quote,quote']⟩
    rw [List.length_append]
    omega

/-- An escape consumes at least as many bytes as it stands for, and a quote only as `\"`. -/
theorem escaped_consumes (t u r : Bytes) (read : escaped t = some (u,r)) :
    ∃ consumed, t = consumed ++ r ∧ u.length ≤ consumed.length ∧
      (34 ∈ consumed → consumed = [34] ∧ u = [34]) := by
  cases t with
  | nil => cases read
  | cons c t =>
    simp only [escaped] at read
    have single (d : UInt8) (same : some ([d],t) = some (u,r)) (other : c ≠ 34 ∨ d = c) :
        ∃ consumed, c::t = consumed ++ r ∧ u.length ≤ consumed.length ∧
          (34 ∈ consumed → consumed = [34] ∧ u = [34]) := by
      obtain ⟨rfl,rfl⟩ := Prod.mk.inj (Option.some.inj same)
      refine ⟨[c],rfl,by simp,fun inside => ?_⟩
      obtain rfl := List.mem_singleton.mp inside
      rcases other with other | rfl
      · exact absurd rfl other
      · exact ⟨rfl,rfl⟩
    split_ifs at read with self b f n r' t' u'
    · exact single c read (.inr rfl)
    · exact single 8 read (.inl (by rw [b]; decide))
    · exact single 12 read (.inl (by rw [f]; decide))
    · exact single 10 read (.inl (by rw [n]; decide))
    · exact single 13 read (.inl (by rw [r']; decide))
    · exact single 9 read (.inl (by rw [t']; decide))
    · obtain ⟨consumed,rfl,short,quote⟩ := unicode_consumes t u r read
      refine ⟨c::consumed,rfl,by simp only [List.length_cons]; omega,fun inside => ?_⟩
      rw [u'] at inside
      rcases List.mem_cons.mp inside with bad | inside
      · cases bad
      · exact absurd inside quote

theorem body_clean (s r : Bytes) (clean : Clean s) : Body (s ++ 34::r) s r := by
  induction s with
  | nil => exact .close r
  | cons c s ih =>
    obtain ⟨quote,backslash,control⟩ := clean c List.mem_cons_self
    exact .char c _ s r quote backslash control
      (ih fun d inside => clean d (List.mem_cons_of_mem c inside))

/-- A string has one content. -/
theorem body_unique (t s s' r r' : Bytes) (one : Body t s r) (other : Body t s' r') :
    s = s' ∧ r = r' := by
  induction one generalizing s' r' with
  | close t =>
    cases other with
    | close => exact ⟨rfl,rfl⟩
    | char _ _ _ _ quote => exact absurd rfl quote
  | char c t s r quote backslash control _ ih =>
    cases other with
    | close => exact absurd rfl quote
    | char _ _ s' _ _ _ _ rest =>
      obtain ⟨rfl,rfl⟩ := ih s' r' rest
      exact ⟨rfl,rfl⟩
    | escape => exact absurd rfl backslash
  | escape t u m s r read _ ih =>
    cases other with
    | char _ _ _ _ _ backslash => exact absurd rfl backslash
    | escape _ u' m' s' _ read' rest =>
      obtain ⟨rfl,rfl⟩ := Prod.mk.inj (Option.some.inj (read.symm.trans read'))
      obtain ⟨rfl,rfl⟩ := ih s' r' rest
      exact ⟨rfl,rfl⟩

theorem suffix_of_append (a b x w : Bytes) (same : a ++ b = x ++ w) (longer : w.length ≤ b.length) :
    ∃ y, b = y ++ w ∧ y.length = b.length - w.length := by
  have size := congrArg List.length same
  simp only [List.length_append] at size
  refine ⟨x.drop a.length,?_,by rw [List.length_drop]; omega⟩
  have dropped := congrArg (List.drop a.length) same
  rw [List.drop_left,List.drop_append,show a.length - x.length = 0 by omega,List.drop_zero]
    at dropped
  exact dropped

/-- Bytes printed between quotes are read back as themselves, or at the end of something
longer, only when they are clean. The text behind the closing quote must not be one that
a string could end in with a backslash. -/
theorem body_self (w x q rest : Bytes) (read : Body (w ++ 34::q) (x ++ w) rest)
    (after : ∀ s r, Body q s r → s ≠ [] ∧ s.getLast? ≠ some 92) :
    x = [] ∧ Clean w ∧ rest = q := by
  induction size : w.length using Nat.strongRecOn generalizing w x with
  | ind n ih =>
    cases w with
    | nil =>
      obtain ⟨same,rfl⟩ := body_unique _ _ _ _ _ (.close q) read
      exact ⟨by simpa using same.symm,by simp [Clean],rfl⟩
    | cons c w =>
      rw [List.cons_append] at read
      generalize total : x ++ c::w = s at read
      cases read with
      | close => simp at total
      | char _ _ s _ quote backslash control read =>
        -- a plain byte: the rest of the content still ends in the rest of the bytes
        obtain ⟨y,rfl,short⟩ := suffix_of_append [c] s (x ++ [c]) w (by simpa using total.symm)
          (by have := congrArg List.length total; simp at this; omega)
        obtain ⟨rfl,clean,rfl⟩ := ih w.length (by rw [← size]; simp) w y read rfl
        have nothing : x = [] := by
          have size := congrArg List.length total
          simp only [List.length_append,List.length_cons,List.nil_append] at size
          exact List.length_eq_zero_iff.mp (by omega)
        refine ⟨nothing,fun d inside => ?_,rfl⟩
        rcases List.mem_cons.mp inside with rfl | inside
        · exact ⟨quote,backslash,control⟩
        · exact clean d inside
      | escape _ u m s _ unit read =>
        obtain ⟨consumed,whole,short,quote⟩ := escaped_consumes _ _ _ unit
        have size' := congrArg List.length total
        simp only [List.length_append,List.length_cons] at size'
        by_cases inside : consumed.length ≤ w.length
        · -- the escape is one of the bytes: more is left over than can be read
          obtain ⟨left,rfl⟩ : consumed <+: w :=
            List.prefix_of_prefix_length_le ⟨m,whole.symm⟩ ⟨34::q,rfl⟩ inside
          rw [List.append_assoc,List.append_cancel_left_eq] at whole
          rw [← whole] at read
          rw [List.length_append] at size'
          obtain ⟨y,rfl,long⟩ := suffix_of_append u s (x ++ 92::consumed) left
            (by simpa using total.symm) (by omega)
          obtain ⟨rfl,_,_⟩ := ih left.length (by rw [← size,List.length_cons,List.length_append]; omega) left y read rfl
          simp only [List.nil_append,List.length_nil] at long size'
          omega
        · -- the escape takes the closing quote: what is read ends in a backslash
          have straddles : 34 ∈ consumed := by
            have prefixed : w ++ [34] <+: consumed := by
              have front : w ++ [34] <+: w ++ 34::q := ⟨q,by simp⟩
              refine List.prefix_of_prefix_length_le front ⟨m,whole.symm⟩ ?_
              simp only [List.length_append,List.length_singleton]
              omega
            exact prefixed.subset (by simp)
          obtain ⟨rfl,rfl⟩ := quote straddles
          have empty : w = [] := List.length_eq_zero_iff.mp (by simpa using inside)
          subst empty
          obtain ⟨_,rfl⟩ := List.cons.inj whole
          obtain ⟨some_left,last⟩ := after s rest read
          have ends := congrArg List.getLast? total
          rw [List.getLast?_append,List.getLast?_append] at ends
          cases tail : s.getLast? with
          | none => exact absurd (List.getLast?_eq_none_iff.mp tail) some_left
          | some d =>
            rw [tail] at ends last
            simp only [List.getLast?_singleton,Option.some_or,Option.some.injEq] at ends
            exact absurd (by rw [ends]) last

/-- `v` is the front of a string's content and stands for `u` there. -/
def Through (v u : Bytes) : Prop :=
  ∀ t s r, Body (v ++ t) s r ↔ ∃ s', s = u ++ s' ∧ Body t s' r

theorem Through.nil : Through [] [] := fun _ s _ =>
  ⟨fun read => ⟨s,rfl,read⟩,fun ⟨_,same,read⟩ => by rwa [same]⟩

theorem Through.append {v u v' u' : Bytes} (first : Through v u) (second : Through v' u') :
    Through (v ++ v') (u ++ u') := by
  intro t s r
  rw [List.append_assoc,first]
  constructor
  · rintro ⟨s',rfl,inner⟩
    obtain ⟨s'',rfl,rest⟩ := (second t s' r).mp inner
    exact ⟨s'',by rw [List.append_assoc],rest⟩
  · rintro ⟨s',rfl,read⟩
    exact ⟨u' ++ s',by rw [List.append_assoc],(second t _ r).mpr ⟨s',rfl,read⟩⟩

theorem Through.char (c : UInt8) (quote : c ≠ 34) (backslash : c ≠ 92) (control : 32 ≤ c) :
    Through [c] [c] := by
  intro t s r
  constructor
  · intro read
    cases read with
    | close => exact absurd rfl quote
    | char _ _ s _ _ _ _ rest => exact ⟨s,rfl,rest⟩
    | escape => exact absurd rfl backslash
  · rintro ⟨s',rfl,read⟩
    exact .char c t s' r quote backslash control read

theorem Through.clean (s : Bytes) (clean : Clean s) : Through s s := by
  induction s with
  | nil => exact .nil
  | cons c s ih =>
    obtain ⟨quote,backslash,control⟩ := clean c List.mem_cons_self
    exact (Through.char c quote backslash control).append
      (ih fun d inside => clean d (List.mem_cons_of_mem c inside))

/-- An escape that is read whatever follows it. -/
theorem Through.escape (e u : Bytes) (unit : ∀ t, escaped (e ++ t) = some (u,t)) :
    Through (92::e) u := by
  intro t s r
  constructor
  · intro read
    rw [List.cons_append] at read
    cases read with
    | char _ _ _ _ _ backslash => exact absurd rfl backslash
    | escape _ u' m s _ read rest =>
      obtain ⟨rfl,rfl⟩ := Prod.mk.inj (Option.some.inj ((unit t).symm.trans read))
      exact ⟨s,rfl,rest⟩
  · rintro ⟨s',rfl,read⟩
    exact .escape (e ++ t) u t s' r (unit t) read

/-- Every string content that can be read from here on has a last byte, which is no
backslash. -/
def Guarded (q : Bytes) : Prop := ∀ s r, Body q s r → s ≠ [] ∧ s.getLast? ≠ some 92

theorem Guarded.through {v u q : Bytes} (front : Through v u) (guarded : Guarded q) :
    Guarded (v ++ q) := by
  intro s r read
  obtain ⟨s',rfl,rest⟩ := (front q s r).mp read
  obtain ⟨some_left,last⟩ := guarded s' r rest
  rw [List.getLast?_append_of_ne_nil _ some_left]
  exact ⟨List.append_ne_nil_of_right_ne_nil u some_left,last⟩

theorem Guarded.quote (c : UInt8) (q : Bytes) (quote : c ≠ 34) (backslash : c ≠ 92)
    (control : 32 ≤ c) : Guarded (c::34::q) := by
  intro s r read
  obtain ⟨s',rfl,rest⟩ := (Through.char c quote backslash control (34::q) s r).mp read
  obtain ⟨rfl,_⟩ := body_unique _ _ _ _ _ rest (.close q)
  simpa using backslash

theorem Guarded.control (c : UInt8) (q : Bytes) (control : c < 32) : Guarded (c::q) := by
  intro s r read
  cases read with
  | close => exact absurd control (by decide)
  | char _ _ _ _ _ _ above => exact absurd control (UInt8.not_lt.mpr above)
  | escape => exact absurd control (by decide)

def NoDigit (t : Bytes) : Prop := ∀ c ∈ t.head?, isDigit c = false

def Printable (s : Bytes) : Prop := ∀ c ∈ s, c ≠ 34 ∧ c ≠ 92 ∧ 32 ≤ c ∧ c < 128

theorem Printable.clean {s : Bytes} (printable : Printable s) : Clean s := fun c inside =>
  ⟨(printable c inside).1,(printable c inside).2.1,(printable c inside).2.2.1⟩

theorem digits_printable (ds : Bytes) (all : ∀ c ∈ ds, isDigit c = true) : Printable ds := by
  intro c inside
  have digit := all c inside
  simp only [isDigit,Bool.and_eq_true,decide_eq_true_eq,UInt8.le_iff_toNat_le,
    UInt8.reduceToNat] at digit
  refine ⟨?_,?_,?_,?_⟩
  · rintro rfl; simp at digit
  · rintro rfl; simp at digit
  · exact UInt8.le_iff_toNat_le.mpr (Nat.le_trans (by decide) digit.1)
  · exact UInt8.lt_iff_toNat_lt.mpr (Nat.lt_of_le_of_lt digit.2 (by decide))

theorem Printable.append {s t : Bytes} (first : Printable s) (second : Printable t) : Printable (s ++ t) :=
  fun c inside => (List.mem_append.mp inside).elim (first c) (second c)

theorem Printable.cons {c : UInt8} {s : Bytes} (first : c ≠ 34 ∧ c ≠ 92 ∧ 32 ≤ c ∧ c < 128) (rest : Printable s) :
    Printable (c::s) := by
  intro d inside
  rcases List.mem_cons.mp inside with rfl | inside
  · exact first
  · exact rest d inside

theorem digitRun_append (t : Bytes) : t = (digitRun t).1 ++ (digitRun t).2 :=
  (List.takeWhile_append_dropWhile).symm

theorem digitRun_digits (t : Bytes) : ∀ c ∈ (digitRun t).1, isDigit c = true :=
  fun _ inside => List.mem_takeWhile_imp inside

theorem digitRun_stable (ds tail : Bytes) (all : ∀ c ∈ ds, isDigit c = true)
    (stop : NoDigit tail) : digitRun (ds ++ tail) = (ds,tail) := by
  have nothing : tail.takeWhile isDigit = [] ∧ tail.dropWhile isDigit = tail := by
    cases tail with
    | nil => exact ⟨rfl,rfl⟩
    | cons c tail =>
      have stop := stop c rfl
      exact ⟨List.takeWhile_cons_of_neg (by simp [stop]),List.dropWhile_cons_of_neg (by simp [stop])⟩
  unfold digitRun
  rw [List.takeWhile_append_of_pos all,List.dropWhile_append_of_pos all,nothing.1,nothing.2,
    List.append_nil]

theorem whole_reads (t l r : Bytes) (read : whole t = some (l,r)) :
    t = l ++ r ∧ (∃ d ds, l = d::ds ∧ isDigit d = true) ∧ Printable l ∧
      ∀ tail, NoDigit tail → whole (l ++ tail) = some (l,tail) := by
  unfold whole at read
  split at read
  · obtain ⟨rfl,rfl⟩ := Prod.mk.inj (Option.some.inj read)
    exact ⟨rfl,⟨48,[],rfl,by decide⟩,digits_printable _ (by simp; decide),fun tail _ => rfl⟩
  · rename_i nonzero
    split_ifs at read with none_read
    have all := digitRun_digits t
    have same := digitRun_append t
    rw [Option.some.inj read] at none_read all same
    dsimp only at none_read all same
    obtain ⟨d,ds,rfl⟩ := List.exists_cons_of_ne_nil none_read
    refine ⟨same,⟨d,ds,rfl,all d List.mem_cons_self⟩,digits_printable _ all,fun tail stop => ?_⟩
    have run := digitRun_stable (d::ds) tail all stop
    have notZero : d ≠ 48 := fun zero => nonzero (ds ++ r) (by rw [same,zero,List.cons_append])
    rw [List.cons_append] at run ⊢
    unfold whole
    split
    · rename_i zero
      exact absurd (List.cons.inj zero).1 notZero
    · rw [run,if_neg (by simp)]

theorem digits1_reads (t l r : Bytes) (read : digits1 t = some (l,r)) :
    t = l ++ r ∧ (∀ c ∈ l, isDigit c = true) ∧ l ≠ [] ∧
      ∀ tail, NoDigit tail → digits1 (l ++ tail) = some (l,tail) := by
  unfold digits1 at read
  split_ifs at read with none_read
  have all := digitRun_digits t
  have same := digitRun_append t
  rw [Option.some.inj read] at none_read all same
  refine ⟨same,all,none_read,fun tail stop => ?_⟩
  rw [digits1,digitRun_stable l tail all stop,if_neg none_read]

theorem fraction_reads (t l r : Bytes) (read : fraction t = some (l,r)) :
    t = l ++ r ∧ (l = [] ∨ ∃ ds, l = 46::ds) ∧ Printable l ∧
      ∀ tail, NoDigit tail → tail.head? ≠ some 46 → fraction (l ++ tail) = some (l,tail) := by
  unfold fraction at read
  split at read
  · rename_i t
    obtain ⟨⟨ds,m⟩,digits,read⟩ := Option.map_eq_some_iff.mp read
    obtain ⟨rfl,rfl⟩ := Prod.mk.inj read
    obtain ⟨rfl,all,_,stable⟩ := digits1_reads t ds m digits
    refine ⟨rfl,.inr ⟨ds,rfl⟩,(digits_printable ds all).cons (by decide),fun tail stop _ => ?_⟩
    rw [List.cons_append,fraction,stable tail stop]
    rfl
  · rename_i t _
    obtain ⟨rfl,rfl⟩ := Prod.mk.inj (Option.some.inj read)
    refine ⟨rfl,.inl rfl,by simp [Printable],fun tail _ other => ?_⟩
    rw [List.nil_append]
    unfold fraction
    split
    · exact absurd rfl other
    · rfl

theorem sign_digits (t : Bytes) (d : UInt8) (ds : Bytes) (digit : isDigit d = true) :
    sign (d::ds ++ t) = ([],d::ds ++ t) ∧ minus (d::ds ++ t) = ([],d::ds ++ t) := by
  have plus : d ≠ 43 := by rintro rfl; cases digit
  have hyphen : d ≠ 45 := by rintro rfl; cases digit
  have unsigned : minus (d::ds ++ t) = ([],d::ds ++ t) := by
    rw [List.cons_append]
    unfold minus
    split
    · rename_i same
      exact absurd (List.cons.inj same).1 hyphen
    · rfl
  refine ⟨?_,unsigned⟩
  rw [List.cons_append] at unsigned ⊢
  unfold sign
  split
  · rename_i same
    exact absurd (List.cons.inj same).1 plus
  · exact unsigned

theorem minus_reads (t : Bytes) :
    t = (minus t).1 ++ (minus t).2 ∧ ((minus t).1 = [] ∨ (minus t).1 = [45]) := by
  unfold minus
  split
  · exact ⟨rfl,.inr rfl⟩
  · exact ⟨rfl,.inl rfl⟩

theorem sign_reads (t : Bytes) :
    t = (sign t).1 ++ (sign t).2 ∧
      ((sign t).1 = [] ∨ (sign t).1 = [45] ∨ (sign t).1 = [43]) := by
  unfold sign
  split
  · exact ⟨rfl,.inr (.inr rfl)⟩
  · obtain ⟨same,kinds⟩ := minus_reads t
    exact ⟨same,kinds.imp_right .inl⟩

theorem exponent_reads (t l r : Bytes) (read : exponent t = some (l,r)) :
    t = l ++ r ∧ (l = [] ∨ ∃ c ds, l = c::ds ∧ isExp c = true) ∧ Printable l ∧
      ∀ tail, NoDigit tail → (∀ c ∈ tail.head?, isExp c = false) →
        exponent (l ++ tail) = some (l,tail) := by
  have nothing (tail : Bytes) (other : ∀ c ∈ tail.head?, isExp c = false) :
      exponent ([] ++ tail) = some ([],tail) := by
    cases tail with
    | nil => rfl
    | cons c tail => rw [List.nil_append,exponent,if_neg (by simp [other c rfl])]
  cases t with
  | nil =>
    obtain ⟨rfl,rfl⟩ := Prod.mk.inj (Option.some.inj read)
    exact ⟨rfl,.inl rfl,by simp [Printable],fun tail _ => nothing tail⟩
  | cons c t =>
    rw [exponent] at read
    split_ifs at read with exp
    · obtain ⟨⟨ds,m⟩,digits,read⟩ := Option.map_eq_some_iff.mp read
      obtain ⟨rfl,rfl⟩ := Prod.mk.inj read
      obtain ⟨same,all,some_digit,stable⟩ := digits1_reads _ ds m digits
      obtain ⟨whole,kinds⟩ := sign_reads t
      refine ⟨?_,.inr ⟨c,_,rfl,exp⟩,?_,fun tail stop _ => ?_⟩
      · rw [List.cons_append,List.append_assoc,← same,← whole]
      · have exp : c = 69 ∨ c = 101 := by simpa [isExp] using exp
        refine Printable.cons (by rcases exp with rfl | rfl <;> decide) (Printable.append ?_
          (digits_printable ds all))
        rcases kinds with none_ | hyphen | plus
        · simp [none_,Printable]
        · rw [hyphen]; exact Printable.cons (by decide) (by simp [Printable])
        · rw [plus]; exact Printable.cons (by decide) (by simp [Printable])
      · have signed : sign ((sign t).1 ++ (ds ++ tail)) = ((sign t).1,ds ++ tail) := by
          obtain ⟨d,ds,rfl⟩ := List.exists_cons_of_ne_nil some_digit
          have plain := sign_digits tail d ds (all d List.mem_cons_self)
          rcases kinds with none_ | hyphen | plus
          · rw [none_]; exact plain.1
          · rw [hyphen]; rfl
          · rw [plus]; rfl
        rw [List.cons_append,List.append_assoc,exponent,if_pos exp,signed,stable tail stop]
        rfl
    · obtain ⟨rfl,rfl⟩ := Prod.mk.inj (Option.some.inj read)
      exact ⟨rfl,.inl rfl,by simp [Printable],fun tail _ => nothing tail⟩

def EndsNumber (t : Bytes) : Prop :=
  ∀ c ∈ t.head?, isDigit c = false ∧ c ≠ 46 ∧ isExp c = false

theorem number_reads (t l r : Bytes) (read : number t = some (l,r)) :
    t = l ++ r ∧ (∃ c ds, l = c::ds ∧ (c = 45 ∨ isDigit c = true)) ∧ Printable l ∧
      ∀ tail, EndsNumber tail → number (l ++ tail) = some (l,tail) := by
  simp only [number,Option.bind_eq_bind,Option.bind_eq_some_iff,Option.pure_def,Option.some.injEq,
    Prod.mk.injEq,Prod.exists] at read
  obtain ⟨i,t2,whole',f,t3,fraction',e,r',exponent',rfl,rfl⟩ := read
  obtain ⟨same,sign⟩ := minus_reads t
  obtain ⟨same2,⟨d,ds,rfl,digit⟩,plain2,stable2⟩ := whole_reads _ _ _ whole'
  obtain ⟨same3,dot,plain3,stable3⟩ := fraction_reads _ _ _ fraction'
  obtain ⟨same4,exp,plain4,stable4⟩ := exponent_reads _ _ _ exponent'
  refine ⟨?_,?_,?_,fun tail stop => ?_⟩
  · calc t = (minus t).1 ++ (d::ds ++ (f ++ (e ++ r'))) := by rw [← same4,← same3,← same2,← same]
      _ = _ := by simp only [List.append_assoc]
  · rcases sign with none_ | hyphen
    · rw [none_]; exact ⟨d,_,rfl,.inr digit⟩
    · rw [hyphen]; exact ⟨45,_,rfl,.inl rfl⟩
  · refine Printable.append ?_ (plain2.append (plain3.append plain4))
    rcases sign with none_ | hyphen
    · simp [none_,Printable]
    · rw [hyphen]; exact Printable.cons (by decide) (by simp [Printable])
  · have stop4 : ∀ c ∈ (e ++ tail).head?, isDigit c = false ∧ c ≠ 46 := by
      intro c head
      rcases exp with rfl | ⟨x,xs,rfl,exp⟩
      · exact ⟨(stop c head).1,(stop c head).2.1⟩
      · obtain rfl := Option.some.inj head
        have cases' : x = 69 ∨ x = 101 := by simpa [isExp] using exp
        rcases cases' with rfl | rfl <;> decide
    have stop3 : NoDigit (f ++ (e ++ tail)) := by
      intro c head
      rcases dot with rfl | ⟨fs,rfl⟩
      · exact (stop4 c head).1
      · obtain rfl := Option.some.inj head
        decide
    have unsigned : minus ((minus t).1 ++ (d::ds ++ (f ++ (e ++ tail)))) =
        ((minus t).1,d::ds ++ (f ++ (e ++ tail))) := by
      rcases sign with none_ | hyphen
      · rw [none_]; exact (sign_digits _ d ds digit).2
      · rw [hyphen]; rfl
    simp only [number,List.append_assoc,unsigned]
    rw [stable2 _ stop3]
    simp only [Option.bind_eq_bind,Option.bind_some]
    rw [stable3 _ (fun c head => (stop4 c head).1) (fun dot => (stop4 46 dot).2 rfl)]
    simp only [Option.bind_some]
    rw [stable4 _ (fun c head => (stop c head).1) fun c head => (stop c head).2.2]
    rfl

theorem number_self (t l r : Bytes) (read : number t = some (l,r)) : IsNumber l := by
  have stable := (number_reads t l r read).2.2.2 [] (by simp [EndsNumber])
  rwa [List.append_nil] at stable

theorem IsNumber.printable {t : Bytes} (number : IsNumber t) : Printable t :=
  (number_reads t t [] number).2.2.1

/-- Digits without a superfluous zero in front are a number, with a minus sign too. -/
theorem isNumber_digits (d : UInt8) (ds : Bytes) (all : ∀ c ∈ d::ds, isDigit c = true)
    (front : ds = [] ∨ d ≠ 48) : IsNumber (d::ds) ∧ IsNumber (45::d::ds) := by
  have read : whole (d::ds) = some (d::ds,[]) := by
    by_cases zero : d = 48
    · subst zero
      rw [front.resolve_right fun other => other rfl]
      rfl
    · have run := digitRun_stable (d::ds) [] all (by simp [NoDigit])
      rw [List.append_nil] at run
      unfold whole
      split
      · rename_i same
        exact absurd (List.cons.inj same).1 zero
      · rw [run,if_neg (by simp)]
  have unsigned : minus (d::ds) = ([],d::ds) := by
    have plain := (sign_digits [] d ds (all d List.mem_cons_self)).2
    rwa [List.append_nil] at plain
  have front (sign : Bytes) : (do
      let (i,t2) ← whole (d::ds)
      let (f,t3) ← fraction t2
      let (e,r) ← exponent t3
      return (sign ++ (i ++ (f ++ e)),r)) = some (sign ++ d::ds,[]) := by
    rw [read]
    simp [fraction,exponent]
  constructor
  · rw [IsNumber,number,unsigned]
    exact front []
  · exact front [45]

end JsonText
