import ModNdb.JSON.Acceptance
import ModNdb.JSON.Unescape

/-! What the tokens of a body are made of, whatever the body. -/
namespace ModNdb.JSON

inductive StringUnit : List Nat → Prop
  | plain (c : Nat) (inside : isChar c = true) : StringUnit [c]
  | escape (e : Nat) (inside : isEscapeCode e = true) : StringUnit [92,e]
  | hex (a b c d : Nat) (digits : ∀ digit ∈ [a,b,c,d], isHex digit = true) :
      StringUnit [92,117,a,b,c,d]

def Units (chars : List Nat) : Prop :=
  ∃ units : List (List Nat), (∀ unit ∈ units, StringUnit unit) ∧ chars = units.flatten

def Bare (chars : List Nat) : Prop := ∀ c ∈ chars, 0 < c ∧ c < 128 ∧ c ≠ 92 ∧ c ≠ 34

def State.Read : State → List Nat → Prop
  | .other, _ => True
  | .string, chars => ∃ inner, Units inner ∧ chars = 34::inner
  | .escape, chars => ∃ inner, Units inner ∧ chars = 34 :: (inner ++ [92])
  | .hex left, chars => ∃ inner digits, Units inner ∧ (∀ c ∈ digits, isHex c = true) ∧
      digits.length + left = 3 ∧ chars = 34 :: (inner ++ 92::117::digits)
  | .stringEnd, chars => ∃ inner, Units inner ∧ chars = 34 :: (inner ++ [34])
  | .mark kind, chars => Bare chars ∧ kind ≠ .eof ∧ kind ≠ .string ∧
      ∀ spelling, kind.spelling? = some spelling → chars = spelling
  | .word left kind, chars => Bare chars ∧ Bare left ∧ kind ≠ .eof ∧ kind ≠ .string ∧
      ∀ spelling, kind.spelling? = some spelling → chars ++ left = spelling
  | _, chars => Bare chars

theorem Units.nil : Units [] := ⟨[],fun _ inside => absurd inside List.not_mem_nil,rfl⟩

theorem Units.snoc {inner unit : List Nat} (before : Units inner) (last : StringUnit unit) :
    Units (inner ++ unit) := by
  obtain ⟨units,each,rfl⟩ := before
  refine ⟨units ++ [unit],?_,by simp⟩
  intro one inside
  rcases List.mem_append.mp inside with inside | inside
  · exact each one inside
  · rwa [List.mem_singleton.mp inside]

theorem Bare.single (c : Nat) (some : 0 < c) (ascii : c < 128) (unescaped : c ≠ 92)
    (unquoted : c ≠ 34) : Bare [c] := by
  intro d inside
  rw [List.mem_singleton.mp inside]
  exact ⟨some,ascii,unescaped,unquoted⟩

theorem Bare.append {chars more : List Nat} (first : Bare chars) (later : Bare more) :
    Bare (chars ++ more) := by
  intro c inside
  rcases List.mem_append.mp inside with inside | inside
  · exact first c inside
  · exact later c inside

theorem Bare.dec (c : Nat) (digit : isDec c = true) : Bare [c] := by
  unfold isDec at digit
  simp only [decide_eq_true_eq] at digit
  exact Bare.single c (by omega) (by omega) (by omega) (by omega)

theorem ite_read {p : Prop} [Decidable p] {s t : State} {chars : List Nat} (yes : p → s.Read chars)
    (no : ¬p → t.Read chars) : (if p then s else t).Read chars := by
  by_cases holds : p
  · rw [if_pos holds]
    exact yes holds
  · rw [if_neg holds]
    exact no holds

theorem mark_read (c : Nat) (kind : Kind) (bare : Bare [c]) (real : kind ≠ .eof)
    (unquoted : kind ≠ .string) (spelled : kind.spelling? = some [c]) :
    (State.mark kind).Read [c] :=
  ⟨bare,real,unquoted,fun _ spelled' => Option.some.inj (spelled.symm.trans spelled')⟩

theorem word_read (c : Nat) (left : List Nat) (kind : Kind) (bare : Bare (c::left))
    (real : kind ≠ .eof) (unquoted : kind ≠ .string)
    (spelled : ∀ spelling, kind.spelling? = some spelling → c::left = spelling) :
    (State.word left kind).Read [c] :=
  ⟨fun d inside => bare d (by simp [List.mem_singleton.mp inside]),
    fun d inside => bare d (List.mem_cons_of_mem c inside),real,unquoted,spelled⟩

theorem start_read (c : Nat) : (State.start c).Read [c] := by
  unfold State.start
  apply ite_read
  · rintro rfl
    exact ⟨[],Units.nil,rfl⟩
  intro unquoted
  apply ite_read
  · rintro rfl
    exact Bare.single 45 (by decide) (by decide) (by decide) (by decide)
  intro _
  apply ite_read
  · rintro rfl
    exact Bare.single 48 (by decide) (by decide) (by decide) (by decide)
  intro _
  apply ite_read (Bare.dec c)
  intro _
  have marked (d : Nat) (kind : Kind) (bare : 0 < d ∧ d < 128 ∧ d ≠ 92 ∧ d ≠ 34)
      (real : kind ≠ .eof) (unquoted : kind ≠ .string) (spelled : kind.spelling? = some [d])
      (same : c = d) : (State.mark kind).Read [c] := by
    subst same
    exact mark_read c kind (Bare.single c bare.1 bare.2.1 bare.2.2.1 bare.2.2.2) real unquoted spelled
  apply ite_read (marked 123 .openBrace (by decide) (by decide) (by decide) rfl)
  intro _
  apply ite_read (marked 125 .closeBrace (by decide) (by decide) (by decide) rfl)
  intro _
  apply ite_read (marked 91 .openBracket (by decide) (by decide) (by decide) rfl)
  intro _
  apply ite_read (marked 93 .closeBracket (by decide) (by decide) (by decide) rfl)
  intro _
  apply ite_read (marked 58 .colon (by decide) (by decide) (by decide) rfl)
  intro _
  apply ite_read (marked 44 .comma (by decide) (by decide) (by decide) rfl)
  intro _
  apply ite_read
  · rintro rfl
    exact word_read 116 _ .true (by unfold Bare; decide) (by decide) (by decide) fun _ none => by
      cases none
  intro _
  apply ite_read
  · rintro rfl
    exact word_read 102 _ .false (by unfold Bare; decide) (by decide) (by decide) fun _ none => by
      cases none
  intro _
  apply ite_read
  · rintro rfl
    exact word_read 110 _ .null (by unfold Bare; decide) (by decide) (by decide) fun _ spelled =>
      Option.some.inj spelled
  exact fun _ => trivial

def Steps (next : Option State) (chars : List Nat) : Prop :=
  ∀ s, next = some s → s.Read chars

theorem Steps.ite {p : Prop} [Decidable p] {s t : Option State} {chars : List Nat}
    (yes : p → Steps s chars) (no : ¬p → Steps t chars) : Steps (if p then s else t) chars := by
  by_cases holds : p
  · rw [if_pos holds]
    exact yes holds
  · rw [if_neg holds]
    exact no holds

theorem Steps.none (chars : List Nat) : Steps none chars := fun _ none => by cases none

theorem Steps.some {s : State} {chars : List Nat} (read : s.Read chars) :
    Steps (some s) chars := fun t same => by cases same; exact read

theorem Bare.steps {p : Prop} [Decidable p] {c : Nat} {chars : List Nat} {s : State}
    {others : Option State} (bare : Bare chars) (one : p → Bare [c])
    (read : Bare (chars ++ [c]) → s.Read (chars ++ [c])) (rest : Steps others (chars ++ [c])) :
    Steps (if p then Option.some s else others) (chars ++ [c]) :=
  Steps.ite (fun holds => Steps.some (read (bare.append (one holds)))) fun _ => rest

theorem Bare.point (c : Nat) (same : c = 46) : Bare [c] :=
  Bare.single c (by omega) (by omega) (by omega) (by omega)

theorem exponent_steps (c : Nat) (chars : List Nat) (bare : Bare chars) :
    Steps (State.exponentFrom c) (chars ++ [c]) :=
  bare.steps (fun letter => Bare.single c (by omega) (by omega) (by omega) (by omega)) id (Steps.none _)

section
variable (c : Nat) (chars : List Nat)

theorem string_steps (read : State.string.Read chars) : Steps (State.string.step c) (chars ++ [c]) := by
  obtain ⟨inner,units,rfl⟩ := read
  apply Steps.ite
  · intro plain
    exact Steps.some ⟨inner ++ [c],units.snoc (.plain c plain),rfl⟩
  intro _
  apply Steps.ite
  · rintro rfl
    exact Steps.some ⟨inner,units,rfl⟩
  intro _
  apply Steps.ite
  · rintro rfl
    exact Steps.some ⟨inner,units,rfl⟩
  · exact fun _ => Steps.none _

theorem escape_steps (read : State.escape.Read chars) : Steps (State.escape.step c) (chars ++ [c]) := by
  obtain ⟨inner,units,rfl⟩ := read
  apply Steps.ite
  · intro code
    exact Steps.some ⟨inner ++ [92,c],units.snoc (.escape c code),by simp⟩
  intro _
  apply Steps.ite
  · rintro rfl
    exact Steps.some ⟨inner,[],units,fun _ inside => absurd inside List.not_mem_nil,rfl,by simp⟩
  · exact fun _ => Steps.none _

theorem hex_steps (left : Nat) (read : (State.hex left).Read chars) :
    Steps ((State.hex left).step c) (chars ++ [c]) := by
  obtain ⟨inner,digits,units,hex,length,rfl⟩ := read
  apply Steps.ite
  · intro digit
    have more : ∀ d ∈ digits ++ [c], isHex d = true := by
      intro d inside
      rcases List.mem_append.mp inside with inside | inside
      · exact hex d inside
      · rwa [List.mem_singleton.mp inside]
    apply Steps.some
    apply ite_read
    · rintro rfl
      obtain ⟨i,j,k,rfl⟩ := List.length_eq_three.mp length
      exact ⟨inner ++ [92,117,i,j,k,c],units.snoc (.hex i j k c more),by simp⟩
    · intro some
      refine ⟨inner,digits ++ [c],units,more,?_,by simp⟩
      rw [List.length_append,List.length_singleton]
      omega
  · exact fun _ => Steps.none _

theorem word_steps (left : List Nat) (kind : Kind) (read : (State.word left kind).Read chars) :
    Steps ((State.word left kind).step c) (chars ++ [c]) := by
  obtain ⟨bare,bareLeft,some,unquoted,spelled⟩ := read
  cases left with
  | nil => exact Steps.none _
  | cons next left =>
    apply Steps.ite
    · rintro rfl
      refine Steps.some ⟨bare.append fun d inside => bareLeft d ?_,
        fun d inside => bareLeft d (List.mem_cons_of_mem _ inside),some,unquoted,?_⟩
      · rw [List.mem_singleton.mp inside]
        exact List.mem_cons_self
      · intro spelling spelling'
        rw [← spelled spelling spelling',List.append_assoc]
        rfl
    · exact fun _ => Steps.none _

theorem step_read (s : State) (read : s.Read chars) : Steps (s.step c) (chars ++ [c]) := by
  cases s with
  | other | stringEnd | mark => exact Steps.none _
  | string => exact string_steps c chars read
  | escape => exact escape_steps c chars read
  | hex left => exact hex_steps c chars left read
  | word left kind => exact word_steps c chars left kind read
  | minus =>
    have zero (same : c = 48) : Bare [c] := Bare.dec c (by rw [same]; rfl)
    exact Bare.steps read zero id (Bare.steps read (Bare.dec c) id (Steps.none _))
  | zero => exact Bare.steps read (Bare.point c) id (exponent_steps c chars read)
  | integer =>
    exact Bare.steps read (Bare.dec c) id
      (Bare.steps read (Bare.point c) id (exponent_steps c chars read))
  | point | sign | power => exact Bare.steps read (Bare.dec c) id (Steps.none _)
  | fraction => exact Bare.steps read (Bare.dec c) id (exponent_steps c chars read)
  | exponent =>
    have signed (sign : c = 43 ∨ c = 45) : Bare [c] :=
      Bare.single c (by omega) (by omega) (by omega) (by omega)
    exact Bare.steps read signed id (Bare.steps read (Bare.dec c) id (Steps.none _))

end

theorem follow_read (s : State) (chars before : List Nat) (read : s.Read before) :
    (s.follow chars).1.Read (before ++ (s.follow chars).2.1) := by
  induction chars generalizing s before with
  | nil =>
    rw [State.follow,List.append_nil]
    exact read
  | cons c chars ih =>
    rw [State.follow]
    cases next : s.step c with
    | none =>
      rw [List.append_nil]
      exact read
    | some t =>
      have later := ih t (before ++ [c]) (step_read c before s read t next)
      rw [← List.append_cons] at later
      exact later

structure Lexeme (token : Token) : Prop where
  real : token.kind ≠ .eof
  spelled : ∀ spelling, token.kind.spelling? = some spelling → token.val = spelling
  string : token.kind = .string → ∃ inner, Units inner ∧ token.val = 34 :: (inner ++ [34])
  bare : token.kind.isScalar = true → token.kind ≠ .string → Bare token.val

theorem Lexeme.other (chars : List Nat) : Lexeme ⟨.noSym,chars⟩ where
  real same := by cases same
  spelled _ none := by cases none
  string none := by cases none
  bare none := by cases none

theorem Lexeme.number (chars : List Nat) (bare : Bare chars) : Lexeme ⟨.number,chars⟩ where
  real same := by cases same
  spelled _ none := by cases none
  string none := by cases none
  bare _ _ := bare

theorem read_lexeme (s : State) (chars : List Nat) (read : s.Read chars) :
    Lexeme ⟨s.kind,chars⟩ := by
  cases s with
  | other | string | escape | hex | minus | point | exponent | sign => exact Lexeme.other chars
  | zero | integer | fraction | power => exact Lexeme.number chars read
  | stringEnd => exact ⟨fun same => (by cases same),fun _ none => (by cases none),fun _ => read,
      fun _ other => absurd rfl other⟩
  | mark kind =>
    obtain ⟨bare,real,unquoted,spelled⟩ := read
    exact ⟨real,spelled,fun quoted => absurd quoted unquoted,fun _ _ => bare⟩
  | word left kind =>
    obtain ⟨bare,_,real,unquoted,spelled⟩ := read
    cases left with
    | cons next left => exact Lexeme.other chars
    | nil =>
      rw [List.append_nil] at spelled
      exact ⟨real,spelled,fun quoted => absurd quoted unquoted,fun _ _ => bare⟩

theorem follow_splits (s : State) (chars : List Nat) :
    chars = (s.follow chars).2.1 ++ (s.follow chars).2.2 := by
  induction chars generalizing s with
  | nil => rfl
  | cons c chars ih =>
    rw [State.follow]
    cases s.step c with
    | none => rfl
    | some t => exact congrArg (List.cons c) (ih t)

theorem nextToken_splits (c : Nat) (chars : List Nat) :
    c::chars = (nextToken c chars).1.val ++ (nextToken c chars).2 :=
  congrArg (List.cons c) (follow_splits (State.start c) chars)

theorem nextToken_lexeme (c : Nat) (chars : List Nat) : Lexeme (nextToken c chars).1 :=
  read_lexeme _ _ (follow_read (State.start c) chars [c] (start_read c))

theorem scan_lexemes (fuel : Nat) (chars : List Nat) (token : Token) (inside : token ∈ scan fuel chars) :
    Lexeme token ∧ ∀ c ∈ token.val, c ∈ chars := by
  induction fuel generalizing chars with
  | zero => exact absurd inside List.not_mem_nil
  | succ fuel ih =>
    rw [scan] at inside
    have kept : ∀ c ∈ chars.dropWhile (isBlank ·), c ∈ chars :=
      fun c member => (List.dropWhile_sublist _).subset member
    cases behind : chars.dropWhile (isBlank ·) with
    | nil =>
      rw [behind] at inside
      exact absurd inside List.not_mem_nil
    | cons c rest =>
      rw [behind] at inside kept
      have splits := nextToken_splits c rest
      rcases List.mem_cons.mp inside with rfl | inside
      · refine ⟨nextToken_lexeme c rest,fun d part => kept d ?_⟩
        rw [splits]
        exact List.mem_append_left _ part
      · obtain ⟨lexeme,part⟩ := ih _ inside
        refine ⟨lexeme,fun d member => kept d ?_⟩
        rw [splits]
        exact List.mem_append_right _ (part d member)

theorem tokens_lexemes (chars : List Nat) (token : Token) (inside : token ∈ tokens chars) :
    Lexeme token ∧ ∀ c ∈ token.val, c ∈ chars := scan_lexemes chars.length chars token inside

theorem tokens_canonical (chars : List Nat) : Canonical (tokens chars) :=
  fun token inside => (tokens_lexemes chars token inside).1.spelled

theorem tokens_real (chars : List Nat) : ∀ token ∈ tokens chars, token.kind ≠ .eof :=
  fun token inside => (tokens_lexemes chars token inside).1.real

end ModNdb.JSON
