import ModNdb.Format.TokenParse

/-! What `scan` makes of the text between two dollar signs: a comparison of six characters does
not tell `$value$` from `$values$`. -/
namespace ModNdb.Format

def NamesField (word x : Text) : Prop := x = word ∨ word ++ [code '/'] <+: x

instance (word x : Text) : Decidable (NamesField word x) := inferInstanceAs (Decidable (_ ∨ _))

def Reserved (x : Text) : Prop :=
  NamesField (text "name") x ∨ NamesField (text "value") x ∨ x.head?.any isdigit = true

/-- A name that begins with `value`, and goes on with something else than flags. -/
def ValueLike (x : Text) : Prop := text "value" <+: x ∧ ¬NamesField (text "value") x

instance (x : Text) : Decidable (Reserved x) := inferInstanceAs (Decidable (_ ∨ _ ∨ _))

instance (x : Text) : Decidable (ValueLike x) := inferInstanceAs (Decidable (_ ∧ _))

section
variable (w x rest : Text)

theorem prefix_dollar (free : code '$' ∉ w) : w <+: x ++ code '$' :: rest ↔ w <+: x := by
  induction w generalizing x with
  | nil => exact iff_of_true (List.nil_prefix) (List.nil_prefix)
  | cons c w ih =>
    obtain ⟨other,later⟩ := not_or.mp (mt List.mem_cons.mpr free)
    cases x with
    | nil =>
      refine iff_of_false (fun begins => other ?_) (fun begins => ?_)
      · exact (List.cons_prefix_cons.mp begins).1.symm
      · exact absurd (List.prefix_nil.mp begins) (List.cons_ne_nil _ _)
    | cons d x =>
      rw [List.cons_append,List.cons_prefix_cons,List.cons_prefix_cons,ih x later]

theorem prefix_closed (free : code '$' ∉ w) (inside : code '$' ∉ x) :
    w ++ [code '$'] <+: x ++ code '$' :: rest ↔ x = w := by
  induction w generalizing x with
  | nil =>
    cases x with
    | nil => exact iff_of_true (List.prefix_append [code '$'] rest) rfl
    | cons d x =>
      refine iff_of_false (fun begins => inside ?_) (List.cons_ne_nil _ _)
      rw [(List.cons_prefix_cons.mp begins).1]
      exact List.mem_cons_self
  | cons c w ih =>
    obtain ⟨other,later⟩ := not_or.mp (mt List.mem_cons.mpr free)
    cases x with
    | nil =>
      refine iff_of_false (fun begins => other ?_) (List.cons_ne_nil _ _).symm
      exact (List.cons_prefix_cons.mp begins).1.symm
    | cons d x =>
      obtain ⟨_,inside⟩ := not_or.mp (mt List.mem_cons.mpr inside)
      rw [List.cons_append,List.cons_append,List.cons_prefix_cons,ih x later inside,List.cons.injEq]
      exact and_congr_left fun _ => eq_comm

theorem strncmp6_iff (word : String) (start : Text) (long : 6 ≤ (text word).length) :
    strncmp6 start word = true ↔ (text word).take 6 <+: start := by
  have six : ((text word).take 6).length = 6 := by
    rw [List.length_take]
    exact Nat.min_eq_left long
  unfold strncmp6
  rw [beq_iff_eq,List.prefix_iff_eq_take,six]
  exact eq_comm

theorem untilDollar_free (inside : code '$' ∉ x) :
    untilDollar (x ++ code '$' :: rest) = some (x,rest) := by
  induction x with
  | nil => exact if_pos rfl
  | cons c x ih =>
    obtain ⟨other,inside⟩ := not_or.mp (mt List.mem_cons.mpr inside)
    rw [List.cons_append,untilDollar,if_neg (Ne.symm other),ih inside]
    rfl

theorem strncmp6_nameFlags : strncmp6 (code '$' :: (x ++ code '$' :: rest)) "$name/" = true ↔
    text "name" ++ [code '/'] <+: x := by
  rw [strncmp6_iff _ _ (by decide)]
  have whole : (text "$name/").take 6 = code '$' :: (text "name" ++ [code '/']) := by decide
  rw [whole,List.cons_prefix_cons]
  exact (and_iff_right rfl).trans (prefix_dollar _ x rest (by decide))

/-- Both comparisons for a value see its first six characters only. -/
theorem strncmp6_value (word : String) (begins : word = "$value$" ∨ word = "$value/") :
    strncmp6 (code '$' :: (x ++ code '$' :: rest)) word = true ↔ text "value" <+: x := by
  have long : 6 ≤ (text word).length := by rcases begins with rfl | rfl <;> decide
  have whole : (text word).take 6 = code '$' :: text "value" := by
    rcases begins with rfl | rfl <;> decide
  rw [strncmp6_iff _ _ long,whole,List.cons_prefix_cons]
  exact (and_iff_right rfl).trans (prefix_dollar _ x rest (by decide))

end

section
variable {x : Text} (free : code '$' ∉ x) (rest : Text)
include free

theorem strncmp6_name : strncmp6 (code '$' :: (x ++ code '$' :: rest)) "$name$" = true ↔
    x = text "name" := by
  rw [strncmp6_iff _ _ (by decide)]
  have whole : (text "$name$").take 6 = code '$' :: (text "name" ++ [code '$']) := by decide
  rw [whole,List.cons_prefix_cons]
  exact (and_iff_right rfl).trans (prefix_closed _ x rest (by decide) free)

theorem dollarToken_free : dollarToken (code '$' :: (x ++ code '$' :: rest)) =
    if NamesField (text "name") x then .fieldname
    else if text "value" <+: x then .fieldval
    else if x.head?.any isdigit = true then .fieldnum
    else .node := by
  have digit : ((code '$' :: (x ++ code '$' :: rest)).drop 1).head?.any isdigit =
      x.head?.any isdigit := by cases x <;> rfl
  have name : (strncmp6 (code '$' :: (x ++ code '$' :: rest)) "$name$" ||
      strncmp6 (code '$' :: (x ++ code '$' :: rest)) "$name/") = true ↔
        NamesField (text "name") x := by
    rw [Bool.or_eq_true,strncmp6_name free,strncmp6_nameFlags]
    exact Iff.rfl
  have value : (strncmp6 (code '$' :: (x ++ code '$' :: rest)) "$value$" ||
      strncmp6 (code '$' :: (x ++ code '$' :: rest)) "$value/") = true ↔ text "value" <+: x := by
    rw [Bool.or_eq_true,strncmp6_value x rest _ (.inl rfl),strncmp6_value x rest _ (.inr rfl)]
    exact or_self_iff
  unfold dollarToken
  rw [digit]
  simp only [name,value]

theorem scanAt_free : scanAt (code '$' :: (x ++ code '$' :: rest)) =
    .token ⟨dollarToken (code '$' :: (x ++ code '$' :: rest)),code '$' :: x ++ [code '$']⟩ rest := by
  have dollar : code '$' ≠ code '.' := by decide
  unfold scanAt
  dsimp only
  rw [if_neg fun dots => dollar dots.1,if_pos rfl,untilDollar_free x rest free]

end

/-- The first character tells names, values and numbers apart. -/
theorem namesField_head {word x : Text} {c : UInt8} (begins : word.head? = some c)
    (names : NamesField word x) : x.head? = some c := by
  cases word with
  | nil => cases begins
  | cons d word =>
    rcases names with rfl | ⟨more,rfl⟩
    · exact begins
    · exact begins

/-- What `scan` has found between two dollar signs, and how that is to be told. -/
structure Classifies (x : Text) (p : Parser) : Prop where
  fieldname : p.currentToken = .fieldname ↔ NamesField (text "name") x
  fieldval : p.currentToken = .fieldval ↔ NamesField (text "value") x
  fieldnum : p.currentToken = .fieldnum ↔ x.head?.any isdigit = true
  node : ¬Reserved x → p.currentToken = .node ∧ p.nodeSymbol = x

theorem name_value {x : Text} (names : NamesField (text "name") x) : ¬text "value" <+: x := by
  rintro ⟨more,rfl⟩
  have first : (text "value" ++ more).head? = some (code 'n') := namesField_head rfl names
  have other : some (code 'v') ≠ some (code 'n') := by decide
  exact other first

theorem digit_head {x : Text} {c : UInt8} (begins : x.head? = some c) (other : isdigit c = false) :
    ¬x.head?.any isdigit = true := by
  rw [begins]
  exact ne_true_of_eq_false other

theorem getNode_dollars {x : Text} {start : Option Text} {p : Parser} (required : Bool)
    (f : OutputFormat) (id : Nat) (q : Parser)
    (ran : scan start p = (.ok (),q)) (node : q.currentToken = .node) (symbol : q.nodeSymbol = x)
    (known : f.symbol x = some id) : (getNode required f start p).1 = .ok (.node id) := by
  rw [getNode,Prog.bind_ok _ ran,Prog.bind_ok _ (Prog.get_run _),if_pos node,symbol,known]
  rfl

section
variable {x : Text} (free : code '$' ∉ x) (rest : Text) (start : Option Text) (p : Parser)
  (meets : start.getD p.tokenNext = code '$' :: (x ++ code '$' :: rest))
include free meets

theorem scan_dollars : ∃ q, scan start p = (.ok (),q) ∧
    q.currentToken = dollarToken (code '$' :: (x ++ code '$' :: rest)) ∧
    (q.currentToken = .node → q.nodeSymbol = x) := by
  have found := scanAt_free free rest
  rw [← meets] at found
  refine ⟨_,scan_found p start _ rest found,?_,fun node => ?_⟩
  · rw [meets]
    rfl
  · have symbol : (code '$' :: x ++ [code '$']).drop 1 = x ++ [code '$'] := rfl
    unfold Parser.scanned at node ⊢
    dsimp only at node ⊢
    rw [if_pos node]
    unfold Lexeme.symbol
    rw [symbol,List.dropLast_concat]

/-- The text between two dollar signs is told as it is to be, and defined nodes can be referenced,
exactly if it is no longer name that begins with `value`. -/
theorem scan_classifies_iff :
    (∃ q, scan start p = (.ok (),q) ∧ Classifies x q ∧
      ∀ (required : Bool) (f : OutputFormat) (id : Nat), f.symbol x = some id → ¬Reserved x →
        (getNode required f start p).1 = .ok (.node id)) ↔ ¬ValueLike x := by
  obtain ⟨q,ran,kind,symbol⟩ := scan_dollars free rest start p meets
  rw [dollarToken_free free rest] at kind
  constructor
  · rintro ⟨q',ran',classifies,_⟩ ⟨begins,unnamed⟩
    have same : q = q' := (Prod.mk.inj (ran.symm.trans ran')).2
    subst same
    rw [if_neg fun names => name_value names begins,if_pos begins] at kind
    exact unnamed (classifies.fieldval.mp kind)
  · intro told
    have value : text "value" <+: x ↔ NamesField (text "value") x := by
      refine ⟨fun begins => by_contra fun unnamed => told ⟨begins,unnamed⟩,?_⟩
      rintro (rfl | ⟨more,rfl⟩)
      · exact List.prefix_rfl
      · exact (List.prefix_append _ _).trans (List.prefix_append _ _)
    have classifies : Classifies x q := by
      by_cases name : NamesField (text "name") x
      · rw [if_pos name] at kind
        have digit := digit_head (namesField_head rfl name) (by decide)
        exact {
          fieldname := iff_of_true kind name
          fieldval := iff_of_false (by rw [kind]; decide) (mt value.mpr (name_value name))
          fieldnum := iff_of_false (by rw [kind]; decide) digit
          node := fun unreserved => absurd (.inl name) unreserved }
      rw [if_neg name] at kind
      by_cases begins : text "value" <+: x
      · rw [if_pos begins] at kind
        have digit := digit_head (namesField_head rfl (value.mp begins)) (by decide)
        exact {
          fieldname := iff_of_false (by rw [kind]; decide) name
          fieldval := iff_of_true kind (value.mp begins)
          fieldnum := iff_of_false (by rw [kind]; decide) digit
          node := fun unreserved => absurd (.inr (.inl (value.mp begins))) unreserved }
      rw [if_neg begins] at kind
      by_cases digit : x.head?.any isdigit = true
      · rw [if_pos digit] at kind
        exact {
          fieldname := iff_of_false (by rw [kind]; decide) name
          fieldval := iff_of_false (by rw [kind]; decide) (mt value.mpr begins)
          fieldnum := iff_of_true kind digit
          node := fun unreserved => absurd (.inr (.inr digit)) unreserved }
      · rw [if_neg digit] at kind
        exact {
          fieldname := iff_of_false (by rw [kind]; decide) name
          fieldval := iff_of_false (by rw [kind]; decide) (mt value.mpr begins)
          fieldnum := iff_of_false (by rw [kind]; decide) digit
          node := fun _ => ⟨kind,symbol kind⟩ }
    refine ⟨q,ran,classifies,fun required f id known unreserved => ?_⟩
    obtain ⟨node,named⟩ := classifies.node unreserved
    exact getNode_dollars required f id q ran node named known

end

/-- A node of the built-in JSON format. -/
theorem scan_classifies_item :
    (∃ q, scan (some (text "$item$, ...")) .initial = (.ok (),q) ∧ Classifies (text "item") q ∧
      ∀ (required : Bool) (f : OutputFormat) (id : Nat), f.symbol (text "item") = some id →
        ¬Reserved (text "item") →
          (getNode required f (some (text "$item$, ...")) .initial).1 = .ok (.node id)) ↔
      ¬ValueLike (text "item") :=
  scan_classifies_iff (x := text "item") (by decide) (text ", ...") _ _ rfl

/-- A node named `values` is taken for a field value. -/
theorem scan_mistakes_values : code '$' ∉ text "values" ∧ ¬Reserved (text "values") ∧
    scan (some (text "$values$")) .initial =
      (.ok (),{Parser.initial with tokenStart := text "$values$", currentToken := .fieldval}) ∧
    ¬∃ q, scan (some (text "$values$")) .initial = (.ok (),q) ∧ Classifies (text "values") q := by
  have found : scan (some (text "$values$")) .initial =
      (.ok (),{Parser.initial with tokenStart := text "$values$", currentToken := .fieldval}) := by
    rfl
  refine ⟨by decide,by decide,found,?_⟩
  rintro ⟨q,ran,classifies⟩
  rw [found] at ran
  cases ran
  exact absurd (classifies.fieldval.mp rfl) (by decide)

end ModNdb.Format
