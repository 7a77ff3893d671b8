import ModNdb.NSql.Scanner

/-! How tokens stand in a text: each as it is written, behind blanks and comments. -/
namespace ModNdb.NSql
open Format (lower)

def CommentBody : Text → Prop
  | [] => True
  | c::body => ¬(c = code '*' ∧ body.head? = some (code '/')) ∧ CommentBody body

inductive Gap : Text → Prop
  | none : Gap []
  | blank (c : UInt8) (gap : Text) (blank : isBlank c = true) (rest : Gap gap) : Gap (c::gap)
  | comment (body gap : Text) (inside : CommentBody body) (rest : Gap gap) :
      Gap (code '/' :: code '*' :: (body ++ code '*' :: code '/' :: gap))

/-- The characters between quotes; a backslash stands in front of another one or of a quote. -/
inductive QuotedBody : Text → Prop
  | none : QuotedBody []
  | plain (c : UInt8) (body : Text) (quote : c ≠ code '"') (slash : c ≠ code '\\')
      (rest : QuotedBody body) : QuotedBody (c::body)
  | escaped (c : UInt8) (body : Text) (char : c = code '\\' ∨ c = code '"') (rest : QuotedBody body) :
      QuotedBody (code '\\' :: c :: body)

structure Run (kind : UInt8 → Bool) (run behind : Text) : Prop where
  nonempty : run ≠ []
  all : ∀ c ∈ run, kind c = true
  ends : ∀ c, behind.head? = some c → kind c = false

structure Word (word behind : Text) : Prop extends Run isChar word behind where
  letter : ∀ c, word.head? = some c → isLetter (lower c) = true

inductive Written : Token → Text → Prop
  | dbName (word behind : Text) (is : Word word behind) (dot : behind.head? = some (code '.')) :
      Written ⟨.dbName,word⟩ behind
  | name (word behind : Text) (is : Word word behind) (dot : behind.head? ≠ some (code '.'))
      (call : ¬(word.all (isWordChar ·) ∧ behind.head? = some (code '(')))
      (plain : ∀ k : Keyword, k.text ≠ word.map lower) : Written ⟨.name,word⟩ behind
  | word (k : Keyword) (word behind : Text) (is : Word word behind) (dot : behind.head? ≠ some (code '.'))
      (call : ¬(word.all (isWordChar ·) ∧ behind.head? = some (code '(')))
      (same : k.text = word.map lower) : Written ⟨.word k,word⟩ behind
  | qstring (body behind : Text) (is : QuotedBody body) :
      Written ⟨.qstring,code '"' :: (body ++ [code '"'])⟩ behind
  | number (digits behind : Text) (is : Run isDigit digits behind) (dot : behind.head? ≠ some (code '.')) :
      Written ⟨.number,digits⟩ behind
  | fraction (digits fraction behind : Text) (is : Run isDigit digits [code '.'])
      (part : Run isDigit fraction behind) : Written ⟨.number,digits ++ code '.' :: fraction⟩ behind
  | mark (m : Mark) (c : UInt8) (behind : Text) (is : markOf c = some m) : Written ⟨.mark m,[c]⟩ behind
  | lt (behind : Text) (alone : behind.head? ≠ some (code '=')) : Written ⟨.mark .lt,[code '<']⟩ behind
  | gt (behind : Text) (alone : behind.head? ≠ some (code '=')) : Written ⟨.mark .gt,[code '>']⟩ behind
  | le (behind : Text) : Written ⟨.mark .le,[code '<',code '=']⟩ behind
  | ge (behind : Text) : Written ⟨.mark .ge,[code '>',code '=']⟩ behind

theorem Written.nonempty {token : Token} {behind : Text} (written : Written token behind) :
    token.val ≠ [] := by
  cases written with
  | dbName word _ is => exact is.nonempty
  | name word _ is => exact is.nonempty
  | word k word _ is => exact is.nonempty
  | number digits _ is => exact is.nonempty
  | fraction digits fraction _ is => exact List.append_ne_nil_of_left_ne_nil is.nonempty _
  | _ => exact List.cons_ne_nil _ _

inductive Laid : List Token → Text → Text → Prop
  | none (behind : Text) : Laid [] behind behind
  | token (gap : Text) (token : Token) (behind rest : Text) (tokens : List Token) (between : Gap gap)
      (written : Written token behind) (others : Laid tokens behind rest) :
      Laid (token::tokens) (gap ++ (token.val ++ behind)) rest

theorem skipComment_complete (body rest : Text) (inside : CommentBody body) :
    skipComment (body ++ code '*' :: code '/' :: rest) = rest := by
  induction body with
  | nil => rfl
  | cons c body ih =>
    obtain ⟨goesOn,inside⟩ := inside
    rw [List.cons_append,skipComment,if_neg,ih inside]
    rintro ⟨star,slash⟩
    refine goesOn ⟨star,?_⟩
    cases body with
    | nil =>
      have same : code '*' = code '/' := Option.some.inj slash
      exact absurd same (by decide)
    | cons d body => exact slash

theorem skipComment_sound (chars : Text) : skipComment chars = [] ∨
    ∃ body, CommentBody body ∧ chars = body ++ code '*' :: code '/' :: skipComment chars := by
  induction chars with
  | nil => exact .inl rfl
  | cons c chars ih =>
    rw [skipComment]
    by_cases ends : c = code '*' ∧ chars.head? = some (code '/')
    · rw [if_pos ends]
      obtain ⟨rfl,slash⟩ := ends
      obtain ⟨rest,rfl⟩ := List.head?_eq_some_iff.mp slash
      exact .inr ⟨[],trivial,rfl⟩
    · rw [if_neg ends]
      rcases ih with none | ⟨body,inside,split⟩
      · exact .inl none
      · refine .inr ⟨c::body,⟨?_,inside⟩,congrArg (c :: ·) split⟩
        rintro ⟨star,slash⟩
        apply ends
        refine ⟨star,?_⟩
        rw [split]
        cases body with
        | nil => cases slash
        | cons d body => exact slash

theorem skip_complete (gap : Text) (c : UInt8) (rest : Text) (between : Gap gap)
    (starts : isBlank c = false ∧ c ≠ code '/') (fuel : Nat) (enough : (gap ++ c::rest).length ≤ fuel) :
    skip fuel (gap ++ c::rest) = c::rest := by
  induction between generalizing fuel with
  | none =>
    obtain ⟨fuel,rfl⟩ := Nat.exists_eq_add_one_of_ne_zero (Nat.ne_of_gt (Nat.lt_of_lt_of_le (by simp) enough))
    unfold skip
    rw [List.nil_append,List.dropWhile_cons_of_neg (by simp [starts.1])]
    dsimp only
    rw [if_neg fun both => starts.2 both.1]
  | blank d gap blank _ ih =>
    obtain ⟨fuel,rfl⟩ := Nat.exists_eq_add_one_of_ne_zero (Nat.ne_of_gt (Nat.lt_of_lt_of_le (by simp) enough))
    have same : skip (fuel + 1) (d::gap ++ c::rest) = skip (fuel + 1) (gap ++ c::rest) := by
      unfold skip
      rw [List.cons_append,List.dropWhile_cons_of_pos blank]
    rw [same]
    exact ih _ (Nat.le_trans (Nat.le_succ _) enough)
  | comment body gap inside _ ih =>
    obtain ⟨fuel,rfl⟩ := Nat.exists_eq_add_one_of_ne_zero (Nat.ne_of_gt (Nat.lt_of_lt_of_le (by simp) enough))
    have same : skip (fuel + 1) (code '/' :: code '*' :: (body ++ code '*' :: code '/' :: gap) ++ c::rest) =
        skip fuel (gap ++ c::rest) := by
      rw [List.cons_append,skip,List.dropWhile_cons_of_neg (by decide)]
      dsimp only
      rw [if_pos ⟨rfl,rfl⟩,List.cons_append,List.tail_cons,List.append_assoc,List.cons_append,
        List.cons_append,skipComment_complete body _ inside]
    rw [same]
    apply ih
    simp at enough ⊢
    omega

theorem Gap.blanks (blanks gap : Text) (all : ∀ c ∈ blanks, isBlank c = true) (rest : Gap gap) :
    Gap (blanks ++ gap) := by
  induction blanks with
  | nil => exact rest
  | cons c blanks ih =>
    exact .blank c _ (all c List.mem_cons_self) (ih fun d inside => all d (List.mem_cons_of_mem c inside))

theorem skip_nil (fuel : Nat) : skip fuel [] = [] := by cases fuel <;> rfl

theorem skip_sound (fuel : Nat) (chars : Text) (enough : chars.length ≤ fuel) (c : UInt8) (rest : Text)
    (skipped : skip fuel chars = c::rest) : ∃ gap, Gap gap ∧ chars = gap ++ c::rest := by
  induction fuel generalizing chars with
  | zero =>
    cases List.eq_nil_of_length_eq_zero (Nat.le_zero.mp enough)
    cases skipped
  | succ fuel ih =>
    have blanks : ∀ d ∈ chars.takeWhile (isBlank ·), isBlank d = true := fun d inside => by
      simpa using List.mem_takeWhile_imp inside
    have whole : chars.takeWhile (isBlank ·) ++ chars.dropWhile (isBlank ·) = chars :=
      List.takeWhile_append_dropWhile
    rw [← whole,List.length_append] at enough
    unfold skip at skipped
    generalize chars.dropWhile (isBlank ·) = behind at *
    rw [← whole]
    cases behind with
    | nil => cases skipped
    | cons d behind =>
      dsimp only at skipped
      by_cases comment : d = code '/' ∧ behind.head? = some (code '*')
      · rw [if_pos comment] at skipped
        obtain ⟨rfl,star⟩ := comment
        obtain ⟨inner,rfl⟩ := List.head?_eq_some_iff.mp star
        rw [List.tail_cons] at skipped
        rcases skipComment_sound inner with none | ⟨body,inside,split⟩
        · rw [none,skip_nil] at skipped
          cases skipped
        · have shorter := congrArg List.length split
          simp only [List.length_append,List.length_cons] at shorter enough
          obtain ⟨gap,between,same⟩ := ih (skipComment inner) (by omega) skipped
          refine ⟨chars.takeWhile (isBlank ·) ++
            (code '/' :: code '*' :: (body ++ code '*' :: code '/' :: gap)),
            .blanks _ _ blanks (.comment body gap inside between),?_⟩
          rw [split,same]
          simp
      · rw [if_neg comment] at skipped
        cases skipped
        exact ⟨chars.takeWhile (isBlank ·),List.append_nil (chars.takeWhile _) ▸ .blanks _ _ blanks .none,rfl⟩

theorem taken_run (kind : UInt8 → Bool) (chars : Text) (some : chars.takeWhile (kind ·) ≠ []) :
    Run kind (chars.takeWhile (kind ·)) (chars.dropWhile (kind ·)) := by
  refine ⟨some,fun c inside => by simpa using List.mem_takeWhile_imp inside,fun c next => ?_⟩
  have negative := List.head?_dropWhile_not (kind ·) chars
  rw [next] at negative
  simpa using negative

theorem run_iff (kind : UInt8 → Bool) (c : UInt8) (chars run behind : Text) (first : kind c = true) :
    Run kind run behind ∧ run ++ behind = c::chars ↔
      run = c :: chars.takeWhile (kind ·) ∧ behind = chars.dropWhile (kind ·) := by
  constructor
  · rintro ⟨is,whole⟩
    obtain ⟨d,run,rfl⟩ := List.exists_cons_of_ne_nil is.nonempty
    obtain rfl : d = c := (List.cons.inj whole).1
    obtain rfl : run ++ behind = chars := (List.cons.inj whole).2
    have inner : ∀ e ∈ run, kind e = true := fun e inside => is.all e (List.mem_cons_of_mem _ inside)
    have stops : behind.takeWhile (kind ·) = [] ∧ behind.dropWhile (kind ·) = behind := by
      cases behind with
      | nil => exact ⟨rfl,rfl⟩
      | cons e behind =>
        have ends := is.ends e rfl
        simp [ends]
    rw [List.takeWhile_append_of_pos inner,List.dropWhile_append_of_pos inner,stops.1,stops.2,
      List.append_nil]
    exact ⟨rfl,rfl⟩
  · rintro ⟨rfl,rfl⟩
    have taken := taken_run kind (c::chars) (by simp [first])
    rw [List.takeWhile_cons_of_pos first,List.dropWhile_cons_of_pos first] at taken
    exact ⟨taken,by rw [List.cons_append,List.takeWhile_append_dropWhile]⟩

theorem quoted_complete (body behind : Text) (is : QuotedBody body) :
    quoted (body ++ code '"' :: behind) = (true,body ++ [code '"'],behind) := by
  induction is with
  | none =>
    unfold quoted
    exact if_pos rfl
  | plain c body quote slash _ ih =>
    unfold quoted
    rw [List.cons_append]
    dsimp only
    rw [if_neg quote,if_neg slash,ih]
    rfl
  | escaped c body char _ ih =>
    unfold quoted
    rw [List.cons_append,List.cons_append]
    dsimp only
    rw [if_neg (by decide),if_pos rfl,if_pos char,ih]
    rfl

theorem quoted_sound (chars taken behind : Text) (closed : quoted chars = (true,taken,behind)) :
    ∃ body, QuotedBody body ∧ chars = body ++ code '"' :: behind ∧ taken = body ++ [code '"'] := by
  fun_induction quoted chars generalizing taken behind with
  | case1 => cases closed
  | case2 chars =>
    cases closed
    exact ⟨[],.none,rfl,rfl⟩
  | case3 => cases closed
  | case4 d rest char closes inner after read quote ih =>
    cases closed
    obtain ⟨body,is,rfl,rfl⟩ := ih _ _ read
    exact ⟨code '\\' :: d :: body,.escaped d body char is,rfl,rfl⟩
  | case5 => cases closed
  | case6 c chars quote slash closes inner after read ih =>
    cases closed
    obtain ⟨body,is,rfl,rfl⟩ := ih _ _ read
    exact ⟨c::body,.plain c body quote slash is,rfl,rfl⟩

theorem every_byte {P : UInt8 → Prop} (all : ∀ n : Fin 256, P (UInt8.ofNat n)) (c : UInt8) : P c := by
  have this := all ⟨c.toNat,c.toNat_lt⟩
  rwa [UInt8.ofNat_toNat] at this

/-- What can begin a token is no blank and begins no comment. -/
def Begins (c : UInt8) : Prop := isBlank c = false ∧ c ≠ code '/'

instance (c : UInt8) : Decidable (Begins c) := inferInstanceAs (Decidable (_ ∧ _))

theorem letter_facts : ∀ c, isLetter (lower c) = true → ¬128 ≤ c ∧ isChar c = true ∧ Begins c :=
  every_byte (by decide +kernel)

theorem digit_facts : ∀ c, isDigit c = true → ¬128 ≤ c ∧ isLetter (lower c) = false ∧ Begins c :=
  every_byte (by decide +kernel)

theorem mark_facts : ∀ c, (markOf c).isSome = true → ¬128 ≤ c ∧ isLetter (lower c) = false ∧
    isDigit c = false ∧ c ≠ code '"' ∧ c ≠ code '<' ∧ c ≠ code '>' ∧ Begins c :=
  every_byte (by decide +kernel)

theorem keywordOf_some (word : Text) (k : Keyword) : keywordOf word = some k ↔ k.text = word := by
  constructor
  · intro found
    simpa using List.find?_some found
  · rintro rfl
    cases k <;> rfl

theorem keywordOf_none (word : Text) : keywordOf word = none ↔ ∀ k : Keyword, k.text ≠ word := by
  rw [Option.eq_none_iff_forall_ne_some]
  exact forall_congr' fun k => not_congr (keywordOf_some word k)

def Kind.Plain (kind : Kind) : Prop := kind ∉ [Kind.eof,.funcName,.noSym,.wild]

instance (kind : Kind) : Decidable kind.Plain := inferInstanceAs (Decidable (¬_))

theorem wild_odd : ¬Kind.Plain .wild := by decide

theorem noSym_odd : ¬Kind.Plain .noSym := by decide

theorem nameToken_sound (c : UInt8) (chars : Text) (token : Token) (behind : Text)
    (letter : isLetter (lower c) = true) (plain : token.kind.Plain)
    (read : nameToken c chars = (token,behind)) : Written token behind ∧ token.val ++ behind = c::chars := by
  unfold nameToken at read
  obtain ⟨rfl,rfl⟩ := Prod.mk.inj read
  obtain ⟨is,whole⟩ := (run_iff isChar c chars _ _ (letter_facts c letter).2.1).mpr ⟨rfl,rfl⟩
  refine ⟨?_,whole⟩
  have word : Word (c :: chars.takeWhile (isChar ·)) (chars.dropWhile (isChar ·)) :=
    ⟨is,fun d first => Option.some.inj first ▸ letter⟩
  generalize c :: chars.takeWhile (isChar ·) = w at *
  generalize chars.dropWhile (isChar ·) = behind at *
  dsimp only at plain
  unfold nameKind at plain ⊢
  by_cases dot : behind.head? = some (code '.')
  · rw [if_pos dot]
    exact .dbName w behind word dot
  · rw [if_neg dot] at plain ⊢
    by_cases call : w.all (isWordChar ·) ∧ behind.head? = some (code '(')
    · rw [if_pos call] at plain
      exact absurd plain (by decide)
    · rw [if_neg call]
      cases same : keywordOf (w.map lower) with
      | none => exact .name w behind word dot call ((keywordOf_none _).mp same)
      | some k => exact .word k w behind word dot call ((keywordOf_some _ k).mp same)

/-- A word is one token, of the kind that it has in front of what is behind it. -/
theorem name_complete (c : UInt8) (chars word behind : Text) (is : Word word behind)
    (whole : word ++ behind = c::chars) :
    Begins c ∧ nextToken c chars = (⟨nameKind word behind,word⟩,behind) := by
  obtain ⟨d,rest,rfl⟩ := List.exists_cons_of_ne_nil is.nonempty
  obtain rfl : d = c := (List.cons.inj whole).1
  have letter := is.letter d rfl
  have facts := letter_facts d letter
  obtain ⟨same,same'⟩ := (run_iff isChar d chars _ _ facts.2.1).mp ⟨is.toRun,whole⟩
  refine ⟨facts.2.2,?_⟩
  unfold nextToken nameToken
  rw [if_neg facts.1,if_pos letter,← same,← same']

theorem numberToken_sound (c : UInt8) (chars : Text) (token : Token) (behind : Text)
    (digit : isDigit c = true) (plain : token.kind.Plain) (read : numberToken c chars = (token,behind)) :
    Written token behind ∧ token.val ++ behind = c::chars := by
  obtain ⟨is,whole⟩ := (run_iff isDigit c chars _ _ digit).mpr ⟨rfl,rfl⟩
  unfold numberToken at read
  generalize c :: chars.takeWhile (isDigit ·) = digits at *
  generalize chars.dropWhile (isDigit ·) = after at *
  dsimp only at read
  by_cases dot : after.head? = some (code '.')
  · rw [if_pos dot] at read
    obtain ⟨rest,rfl⟩ := List.head?_eq_some_iff.mp dot
    obtain ⟨rfl,rfl⟩ := Prod.mk.inj read
    rw [List.tail_cons] at plain ⊢
    by_cases none : rest.takeWhile (isDigit ·) = []
    · rw [if_pos none] at plain
      exact absurd plain noSym_odd
    · rw [if_neg none]
      refine ⟨.fraction digits _ _ ⟨is.nonempty,is.all,fun d => is.ends d⟩ (taken_run isDigit rest none),?_⟩
      rw [← whole,List.append_assoc,List.cons_append,List.takeWhile_append_dropWhile]
  · rw [if_neg dot] at read
    obtain ⟨rfl,rfl⟩ := Prod.mk.inj read
    exact ⟨.number digits after is dot,whole⟩

theorem boundToken_sound (c : UInt8) (alone withEq : Mark) (chars : Text) (token : Token) (behind : Text)
    (read : boundToken c alone withEq chars = (token,behind)) : token.val ++ behind = c::chars ∧
      (token = ⟨.mark withEq,[c,code '=']⟩ ∨
        token = ⟨.mark alone,[c]⟩ ∧ behind.head? ≠ some (code '=')) := by
  unfold boundToken at read
  by_cases equal : chars.head? = some (code '=')
  · rw [if_pos equal] at read
    obtain ⟨rest,rfl⟩ := List.head?_eq_some_iff.mp equal
    obtain ⟨rfl,rfl⟩ := Prod.mk.inj read
    exact ⟨rfl,.inl rfl⟩
  · rw [if_neg equal] at read
    obtain ⟨rfl,rfl⟩ := Prod.mk.inj read
    exact ⟨rfl,.inr ⟨rfl,equal⟩⟩

theorem nextToken_sound (c : UInt8) (chars : Text) (token : Token) (behind : Text)
    (plain : token.kind.Plain) (read : nextToken c chars = (token,behind)) :
    Written token behind ∧ token.val ++ behind = c::chars := by
  unfold nextToken at read
  split at read
  case isTrue =>
    obtain ⟨rfl,rfl⟩ := Prod.mk.inj read
    exact absurd plain wild_odd
  split at read
  case isTrue letter => exact nameToken_sound c chars token behind letter plain read
  split at read
  case isTrue digit => exact numberToken_sound c chars token behind digit plain read
  split at read
  case isTrue quote =>
    unfold stringToken at read
    rcases inner : quoted chars with ⟨closed,taken,after⟩
    rw [inner] at read
    obtain ⟨rfl,rfl⟩ := Prod.mk.inj read
    cases closed with
    | false => exact absurd plain noSym_odd
    | true =>
      obtain ⟨body,is,rfl,rfl⟩ := quoted_sound chars _ _ inner
      subst quote
      exact ⟨.qstring body after is,by simp⟩
  split at read
  case isTrue lt =>
    subst lt
    obtain ⟨whole,rfl | ⟨rfl,alone⟩⟩ := boundToken_sound _ _ _ _ _ _ read
    · exact ⟨.le behind,whole⟩
    · exact ⟨.lt behind alone,whole⟩
  split at read
  case isTrue gt =>
    subst gt
    obtain ⟨whole,rfl | ⟨rfl,alone⟩⟩ := boundToken_sound _ _ _ _ _ _ read
    · exact ⟨.ge behind,whole⟩
    · exact ⟨.gt behind alone,whole⟩
  split at read
  · next m is =>
    obtain ⟨rfl,rfl⟩ := Prod.mk.inj read
    exact ⟨.mark m c chars is,rfl⟩
  · obtain ⟨rfl,rfl⟩ := Prod.mk.inj read
    exact absurd plain noSym_odd

/-- Digits begin a number, and are taken up to the first character that is none. -/
theorem digits_complete (c : UInt8) (chars digits after : Text) (is : Run isDigit digits after)
    (whole : digits ++ after = c::chars) : Begins c ∧ nextToken c chars = numberToken c chars ∧
      digits = c :: chars.takeWhile (isDigit ·) ∧ after = chars.dropWhile (isDigit ·) := by
  obtain ⟨d,rest,rfl⟩ := List.exists_cons_of_ne_nil is.nonempty
  obtain rfl : d = c := (List.cons.inj whole).1
  have digit := is.all d List.mem_cons_self
  have facts := digit_facts d digit
  refine ⟨facts.2.2,?_,(run_iff isDigit d chars _ _ digit).mp ⟨is,whole⟩⟩
  unfold nextToken
  rw [if_neg facts.1,if_neg (by simp [facts.2.1]),if_pos digit]

theorem number_complete (c : UInt8) (chars digits behind : Text) (is : Run isDigit digits behind)
    (dot : behind.head? ≠ some (code '.')) (whole : digits ++ behind = c::chars) :
    Begins c ∧ nextToken c chars = (⟨.number,digits⟩,behind) := by
  obtain ⟨begins,read,same,same'⟩ := digits_complete c chars digits behind is whole
  refine ⟨begins,read.trans ?_⟩
  unfold numberToken
  rw [← same,← same']
  exact if_neg dot

theorem fraction_complete (c : UInt8) (chars digits fraction behind : Text)
    (is : Run isDigit digits (code '.' :: (fraction ++ behind))) (part : Run isDigit fraction behind)
    (whole : digits ++ code '.' :: (fraction ++ behind) = c::chars) :
    Begins c ∧ nextToken c chars = (⟨.number,digits ++ code '.' :: fraction⟩,behind) := by
  obtain ⟨begins,read,same,same'⟩ := digits_complete c chars digits _ is whole
  obtain ⟨e,rest,rfl⟩ := List.exists_cons_of_ne_nil part.nonempty
  have digit := part.all e List.mem_cons_self
  obtain ⟨taken,left⟩ := (run_iff isDigit e (rest ++ behind) _ _ digit).mp ⟨part,rfl⟩
  refine ⟨begins,read.trans ?_⟩
  unfold numberToken
  rw [← same,← same']
  dsimp only
  rw [List.head?_cons,if_pos rfl,List.tail_cons,List.cons_append,List.takeWhile_cons_of_pos digit,
    List.dropWhile_cons_of_pos digit,← taken,← left,if_neg part.nonempty]

theorem quoted_token (body behind : Text) (is : QuotedBody body) :
    nextToken (code '"') ((body ++ [code '"']) ++ behind) =
      (⟨.qstring,code '"' :: (body ++ [code '"'])⟩,behind) := by
  unfold nextToken
  rw [if_neg (by decide),if_neg (by decide),if_neg (by decide),if_pos rfl]
  unfold stringToken
  rw [List.append_assoc,List.singleton_append,quoted_complete body behind is]
  rfl

theorem mark_token (m : Mark) (c : UInt8) (chars : Text) (is : markOf c = some m) :
    Begins c ∧ nextToken c chars = (⟨.mark m,[c]⟩,chars) := by
  obtain ⟨byte,letter,digit,quote,lt,gt,begins⟩ := mark_facts c (by rw [is]; rfl)
  refine ⟨begins,?_⟩
  unfold nextToken
  rw [if_neg byte,if_neg (by simp [letter]),if_neg (by simp [digit]),if_neg quote,if_neg lt,
    if_neg gt,is]

theorem nextToken_complete (token : Token) (behind : Text) (written : Written token behind) (c : UInt8)
    (chars : Text) (whole : token.val ++ behind = c::chars) :
    Begins c ∧ nextToken c chars = (token,behind) := by
  cases written with
  | dbName word _ is dot =>
    obtain ⟨begins,read⟩ := name_complete c chars word behind is whole
    refine ⟨begins,read.trans ?_⟩
    unfold nameKind
    rw [if_pos dot]
  | name word _ is dot call plain =>
    obtain ⟨begins,read⟩ := name_complete c chars word behind is whole
    refine ⟨begins,read.trans ?_⟩
    unfold nameKind
    rw [if_neg dot,if_neg call,(keywordOf_none _).mpr plain]
  | word k word _ is dot call same =>
    obtain ⟨begins,read⟩ := name_complete c chars word behind is whole
    refine ⟨begins,read.trans ?_⟩
    unfold nameKind
    rw [if_neg dot,if_neg call,(keywordOf_some _ k).mpr same]
  | qstring body _ is =>
    obtain rfl : code '"' = c := (List.cons.inj whole).1
    obtain rfl : (body ++ [code '"']) ++ behind = chars := (List.cons.inj whole).2
    exact ⟨by decide,quoted_token body behind is⟩
  | number digits _ is dot => exact number_complete c chars digits behind is dot whole
  | fraction digits fraction _ is part =>
    rw [List.append_assoc,List.cons_append] at whole
    exact fraction_complete c chars digits fraction behind ⟨is.nonempty,is.all,fun d => is.ends d⟩ part
      whole
  | mark m d _ is =>
    obtain rfl : d = c := (List.cons.inj whole).1
    obtain rfl : behind = chars := (List.cons.inj whole).2
    exact mark_token m d behind is
  | lt _ alone =>
    obtain rfl : code '<' = c := (List.cons.inj whole).1
    obtain rfl : behind = chars := (List.cons.inj whole).2
    exact ⟨by decide,if_neg alone⟩
  | gt _ alone =>
    obtain rfl : code '>' = c := (List.cons.inj whole).1
    obtain rfl : behind = chars := (List.cons.inj whole).2
    exact ⟨by decide,if_neg alone⟩
  | le =>
    obtain rfl : code '<' = c := (List.cons.inj whole).1
    obtain rfl : code '=' :: behind = chars := (List.cons.inj whole).2
    exact ⟨by decide,rfl⟩
  | ge =>
    obtain rfl : code '>' = c := (List.cons.inj whole).1
    obtain rfl : code '=' :: behind = chars := (List.cons.inj whole).2
    exact ⟨by decide,rfl⟩

theorem quoted_shorter (chars : Text) : (quoted chars).2.2.length ≤ chars.length := by
  fun_induction quoted chars with
  | case1 => exact Nat.le_refl _
  | case2 chars => exact Nat.le_succ _
  | case3 => exact Nat.zero_le _
  | case4 d rest char closes inner after read quote ih =>
    rw [read] at ih
    exact Nat.le_trans ih (Nat.le_add_right _ 2)
  | case5 => exact Nat.le_succ _
  | case6 c chars quote slash closes inner after read ih =>
    rw [read] at ih
    exact Nat.le_trans ih (Nat.le_succ _)

theorem nextToken_shorter (c : UInt8) (chars : Text) : (nextToken c chars).2.length ≤ chars.length := by
  have bound (alone withEq : Mark) : (boundToken c alone withEq chars).2.length ≤ chars.length := by
    unfold boundToken
    split
    · exact (List.tail_sublist chars).length_le
    · exact Nat.le_refl _
  have dropped (kind : UInt8 → Bool) : (chars.dropWhile (kind ·)).length ≤ chars.length :=
    (List.dropWhile_sublist _).length_le
  unfold nextToken
  split_ifs
  · exact Nat.le_refl _
  · exact dropped isChar
  · unfold numberToken
    dsimp only
    split
    · exact Nat.le_trans (List.dropWhile_sublist _).length_le
        (Nat.le_trans (List.tail_sublist _).length_le (dropped isDigit))
    · exact dropped isDigit
  · exact quoted_shorter chars
  · exact bound _ _
  · exact bound _ _
  · split <;> exact Nat.le_refl _

theorem skipComment_shorter (chars : Text) : (skipComment chars).length ≤ chars.length := by
  rcases skipComment_sound chars with none | ⟨body,_,split⟩
  · rw [none]
    exact Nat.zero_le _
  · have lengths := congrArg List.length split
    simp only [List.length_append,List.length_cons] at lengths
    omega

theorem skip_shorter (fuel : Nat) (chars : Text) : (skip fuel chars).length ≤ chars.length := by
  induction fuel generalizing chars with
  | zero => exact Nat.le_refl _
  | succ fuel ih =>
    have dropped : (chars.dropWhile (isBlank ·)).length ≤ chars.length :=
      (List.dropWhile_sublist _).length_le
    rw [skip]
    generalize chars.dropWhile (isBlank ·) = behind at *
    cases behind with
    | nil => exact Nat.zero_le _
    | cons d behind =>
      dsimp only
      split
      · have inner := ih (skipComment behind.tail)
        have comment := skipComment_shorter behind.tail
        have tail := (List.tail_sublist behind).length_le
        rw [List.length_cons] at dropped
        omega
      · exact dropped

theorem scan_nil (fuel : Nat) : scan fuel [] = [] := by cases fuel <;> rfl

theorem scan_fuel (fuel fuel' : Nat) (chars : Text) (enough : chars.length ≤ fuel)
    (enough' : chars.length ≤ fuel') : scan fuel chars = scan fuel' chars := by
  induction fuel generalizing fuel' chars with
  | zero => rw [List.eq_nil_of_length_eq_zero (Nat.le_zero.mp enough),scan_nil,scan_nil]
  | succ fuel ih =>
    cases fuel' with
    | zero => rw [List.eq_nil_of_length_eq_zero (Nat.le_zero.mp enough'),scan_nil,scan_nil]
    | succ fuel' =>
      rw [scan,scan]
      have shorter := skip_shorter chars.length chars
      cases skipped : skip chars.length chars with
      | nil => rfl
      | cons c rest =>
        rw [skipped,List.length_cons] at shorter
        have behind := nextToken_shorter c rest
        dsimp only
        rw [ih fuel' (nextToken c rest).2 (by omega) (by omega)]

theorem scan_end (chars : Text) (skipped : skip chars.length chars = []) :
    scan chars.length chars = [] := by
  cases chars with
  | nil => rfl
  | cons d chars => rw [List.length_cons,scan,skipped]

theorem scan_next (chars : Text) (c : UInt8) (rest : Text) (skipped : skip chars.length chars = c::rest) :
    scan chars.length chars =
      (nextToken c rest).1 :: scan (nextToken c rest).2.length (nextToken c rest).2 := by
  have shorter := skip_shorter chars.length chars
  rw [skipped] at shorter
  cases chars with
  | nil => cases skipped
  | cons d chars =>
    rw [List.length_cons,scan,skipped]
    have behind := nextToken_shorter c rest
    rw [List.length_cons,List.length_cons] at shorter
    dsimp only
    rw [scan_fuel chars.length _ (nextToken c rest).2 (by omega) (Nat.le_refl _)]

/-- The tokens that are scanned from a text are the ones that stand in it. -/
theorem scan_laid (tokens : List Token) (plain : ∀ t ∈ tokens, t.kind.Plain) (chars : Text)
    (more : List Token) : scan chars.length chars = tokens ++ more ↔
      ∃ rest, Laid tokens chars rest ∧ scan rest.length rest = more := by
  induction tokens generalizing chars with
  | nil =>
    constructor
    · exact fun same => ⟨chars,.none chars,same⟩
    · rintro ⟨rest,laid,same⟩
      cases laid
      exact same
  | cons token tokens ih =>
    rw [List.forall_mem_cons] at plain
    constructor
    · intro same
      cases skipped : skip chars.length chars with
      | nil =>
        rw [scan_end chars skipped] at same
        cases same
      | cons c rest =>
        rw [scan_next chars c rest skipped,List.cons_append] at same
        obtain ⟨first,others⟩ := List.cons.inj same
        obtain ⟨behind,laid,last⟩ := (ih plain.2 _).mp others
        obtain ⟨gap,between,split⟩ := skip_sound _ chars (Nat.le_refl _) c rest skipped
        obtain ⟨written,whole⟩ := nextToken_sound c rest token (nextToken c rest).2 plain.1
          (Prod.ext first rfl)
        refine ⟨behind,?_,last⟩
        rw [split,← whole]
        exact .token gap token _ behind tokens between written laid
    · rintro ⟨rest,laid,last⟩
      cases laid with
      | token gap _ behind _ _ between written others =>
        obtain ⟨c,chars,whole⟩ : ∃ c chars, token.val ++ behind = c::chars :=
          List.exists_cons_of_ne_nil (List.append_ne_nil_of_left_ne_nil written.nonempty behind)
        obtain ⟨starts,read⟩ := nextToken_complete token behind written c chars whole
        rw [whole,scan_next _ c chars (skip_complete gap c chars between starts _ (Nat.le_refl _)),read,
          List.cons_append,(ih plain.2 behind).mpr ⟨rest,others,last⟩]

end ModNdb.NSql
