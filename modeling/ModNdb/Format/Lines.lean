import ModNdb.Format.Sections
import ModNdb.Format.JsonPage

/-! The line of a node read back: which source strings come back as they were. -/
namespace ModNdb.Format
open Conf (backslash newline isSpace isQuote readQuoted getwordConf words cfgLines Bare)

theorem bare_test (word : Text) (some : word ≠ []) (ink : word.any isSpace = false)
    (starts : word.head?.any isQuote = false) (single : ¬[backslash,backslash] <:+: word) :
    Bare word where
  some := some
  ink := fun c inside => by simpa using List.any_eq_false.mp ink c inside
  starts := fun c first => by simpa [Option.mem_def.mp first] using starts
  single := single

theorem object_bare (kind : NodeKind) : Bare kind.object := by
  cases kind <;> exact bare_test _ (by decide) (by decide) (by decide) (by decide)

theorem equals_bare : Bare (text "=") :=
  bare_test _ (by decide) (by decide) (by decide) (by decide)

theorem apostrophe_quote : isQuote apostrophe = true ∧ isSpace apostrophe = false := by decide

theorem line_words (n : Node) (fmt : Text) (bare : Bare (n.shownName fmt)) :
    words 6 (n.line fmt) = n.kind.object :: n.shownName fmt :: text "=" ::
      (readSource n.behind n.unresolved).1 ::
        words 2 ((readSource n.behind n.unresolved).2.dropWhile isSpace) := by
  obtain ⟨c,name,same⟩ := List.exists_cons_of_ne_nil bare.some
  have ink : isSpace c = false := bare.ink c (by rw [same]; exact List.mem_cons_self)
  have second (t : Text) : getwordConf (n.kind.object ++ 32 :: 32 :: (n.shownName fmt ++ t)) =
      (n.kind.object,n.shownName fmt ++ t) := by
    rw [Conf.getwordConf_bare _ _ (object_bare n.kind),List.dropWhile_cons_of_pos (by decide),same,
      List.cons_append,List.dropWhile_cons_of_neg (by rw [ink]; exact Bool.false_ne_true)]
  have third (t : Text) : getwordConf (n.shownName fmt ++ 32 :: code '=' :: t) =
      (n.shownName fmt,code '=' :: t) := by
    rw [Conf.getwordConf_bare _ _ bare,List.dropWhile_cons_of_neg (by decide)]
  have fourth (t : Text) : getwordConf (code '=' :: 32 :: apostrophe :: t) =
      (text "=",apostrophe :: t) := by
    have read := Conf.getwordConf_bare _ (apostrophe::t) equals_bare
    rw [List.dropWhile_cons_of_neg (by rw [apostrophe_quote.2]; exact Bool.false_ne_true)] at read
    exact read
  have source : quotedSource n.unresolved ++ n.behind =
      apostrophe :: (escapedText n.unresolved ++ apostrophe :: n.behind) := by
    unfold quotedSource
    rw [List.cons_append,List.append_assoc]
    rfl
  have fifth : getwordConf (apostrophe :: (escapedText n.unresolved ++ apostrophe :: n.behind)) =
      ((readSource n.behind n.unresolved).1,
        (readSource n.behind n.unresolved).2.dropWhile isSpace) :=
    Conf.getwordConf_quoted _ _ apostrophe_quote.1 apostrophe_quote.2
  unfold Node.line
  rw [source,words,second,words,third,words,fourth,words,fifth]

theorem formatLine_assign (g : OutputFormat) (kind : NodeKind) (name w : Text) (more : List Text)
    (bare : BareName name) (some_text : w ≠ []) :
    formatLine g (kind.object :: name :: text "=" :: w :: more) =
      match kind with
      | .mainLoop => .ok {g.addSymbol (text "_main") .mainLoop (unescape w) none with
          topNode := some g.nodes.length}
      | .scanLoop => .ok (g.addSymbol name .scanLoop (unescape w) none)
      | .rowLoop => .ok (g.addSymbol name .rowLoop (unescape w) none)
      | .recAttr =>
        if more.getD 1 [] = [] then
          .ok (g.addSymbol name .recAttr (unescape w) (some (unescape w)))
        else if ¬strcaseEq (more.getD 0 []) (text "or") then .error (text "Expected 'or'")
        else .ok (g.addSymbol name .recAttr (unescape w) (some (unescape (more.getD 1 [])))) := by
  have word1 : Line.word (kind.object :: name :: text "=" :: w :: more) 1 = kind.object := rfl
  have word2 : Line.word (kind.object :: name :: text "=" :: w :: more) 2 = name := rfl
  have word3 : Line.word (kind.object :: name :: text "=" :: w :: more) 3 = text "=" := rfl
  have word4 : Line.word (kind.object :: name :: text "=" :: w :: more) 4 = w := rfl
  have word5 : Line.word (kind.object :: name :: text "=" :: w :: more) 5 = more.getD 0 [] := rfl
  have word6 : Line.word (kind.object :: name :: text "=" :: w :: more) 6 = more.getD 1 [] := rfl
  have object : ¬(kind.object = [] ∨ kind.object.head? = some (code '#')) := by
    cases kind <;> decide
  have named : ¬(name = [] ∨ code '$' ∈ name) :=
    not_or.mpr ⟨bare.bare.some,bare.dollar⟩
  unfold formatLine
  dsimp only
  rw [word1,word2,word3,word4,word5,word6,if_neg object,if_neg named,if_neg (by decide),
    if_neg some_text]
  cases kind with
  | mainLoop => exact if_pos (by decide)
  | scanLoop => exact (if_neg (by decide)).trans (if_pos (by decide))
  | rowLoop => exact (if_neg (by decide)).trans ((if_neg (by decide)).trans (if_pos (by decide)))
  | recAttr =>
    exact (if_neg (by decide)).trans
      ((if_neg (by decide)).trans ((if_neg (by decide)).trans (if_pos (by decide))))

def Node.later (n : Node) : List Text :=
  words 2 ((readSource n.behind n.unresolved).2.dropWhile isSpace)

def Node.readBack (n : Node) : Node :=
  let source := unescape (readSource n.behind n.unresolved).1
  {n.defined with
    unresolved := source,
    unresolved2 :=
      if n.kind = .recAttr then
        some (if n.later.getD 1 [] = [] then source else unescape (n.later.getD 1 []))
      else none}

theorem readQuoted_or (t : Text) :
    readQuoted apostrophe (text "  or  " ++ apostrophe :: t) = (text "  or  ",t) := by
  have test : (text "  or  ").all (fun c => c ≠ apostrophe && c ≠ backslash) = true := by decide
  exact Conf.readQuoted_plain _ _ _ fun c inside => by
    simpa using List.all_eq_true.mp test c inside

theorem words_or (s : Text) : words 2 ((text "  or  " ++ quotedSource s).dropWhile isSpace) =
    [text "or",(readSource [] s).1] := by
  have or_bare : Bare (text "or") :=
    bare_test _ (by decide) (by decide) (by decide) (by decide)
  have front : (text "  or  " ++ quotedSource s).dropWhile isSpace =
      text "or" ++ 32 :: 32 :: quotedSource s := by
    change (32 :: 32 :: (text "or" ++ 32 :: 32 :: quotedSource s)).dropWhile isSpace = _
    rw [List.dropWhile_cons_of_pos (by decide),List.dropWhile_cons_of_pos (by decide)]
    rfl
  have quote : ((32 : UInt8) :: quotedSource s).dropWhile isSpace = quotedSource s := by
    rw [List.dropWhile_cons_of_pos (by decide)]
    exact List.dropWhile_cons_of_neg (by rw [apostrophe_quote.2]; exact Bool.false_ne_true)
  have source : getwordConf (quotedSource s) =
      ((readSource [] s).1,(readSource [] s).2.dropWhile isSpace) :=
    Conf.getwordConf_quoted _ _ apostrophe_quote.1 apostrophe_quote.2
  rw [front,words,Conf.getwordConf_bare _ _ or_bare,quote,words,source,words]

theorem nil_over : (unescape (readQuoted apostrophe []).1).getLast? ≠ some backslash := by decide

theorem behind_over (n : Node) :
    (unescape (readQuoted apostrophe n.behind).1).getLast? ≠ some backslash := by
  unfold Node.behind
  cases n.kind with
  | recAttr =>
    cases n.unresolved2 with
    | none => decide
    | some s =>
      change (unescape (readQuoted apostrophe (text "  or  " ++ apostrophe ::
        (escapedText s ++ [apostrophe]))).1).getLast? ≠ some backslash
      rw [readQuoted_or]
      change (unescape (text "  or  ")).getLast? ≠ some backslash
      decide
  | mainLoop => exact nil_over
  | scanLoop => exact nil_over
  | rowLoop => exact nil_over

/-- A node comes back as it was exactly if backslashes mean nothing in its source strings. -/
theorem readBack_iff (n : Node) (formed : n.Formed) :
    n.readBack = n.defined ↔ n.PlainSources := by
  have first := readSource_iff n.behind n.unresolved (behind_over n)
  unfold Node.readBack Node.PlainSources Node.defined
  rw [Node.mk.injEq]
  simp only [true_and,and_true]
  rw [first]
  refine and_congr_right fun plain => ?_
  by_cases record : n.kind = .recAttr
  · obtain ⟨s,known,some_text⟩ := formed.record record
    have behind : n.behind = text "  or  " ++ quotedSource s := by
      unfold Node.behind
      rw [record,known]
    have later : n.later = [text "or",(readSource [] s).1] := by
      unfold Node.later
      rw [readSource_behind _ _ (behind_over n) plain,behind,words_or]
    have second := readSource_iff [] s nil_over
    have word : ([text "or",(readSource [] s).1] : List Text).getD 1 [] = (readSource [] s).1 := rfl
    rw [if_pos record,later,known,word,if_neg (readSource_some [] s some_text),Option.some.injEq,
      second]
    constructor
    · intro whole s' inside
      rw [← Option.some.inj inside]
      exact whole
    · intro whole
      exact whole s rfl
  · rw [if_neg record,formed.loop record]
    simp

theorem formatLine_main (g : OutputFormat) (n : Node) (fmt : Text) (main : n.kind = .mainLoop)
    (named : n.name = text "_main") (bare : BareName fmt) (formed : n.Formed) :
    formatLine g (words 6 (n.line fmt)) =
      .ok {g.addNode n.readBack with topNode := some g.nodes.length} := by
  have shown : n.shownName fmt = fmt := if_pos main
  have loop : n.readBack.unresolved2 = none := by
    unfold Node.readBack
    exact if_neg (by rw [main]; simp)
  have added : g.addNode n.readBack =
      g.addSymbol n.name n.kind n.readBack.unresolved n.readBack.unresolved2 := rfl
  rw [line_words n fmt (by rw [shown]; exact bare.bare),shown,
    formatLine_assign g n.kind fmt _ _ bare (readSource_some _ _ formed.source),added,named,main,loop]
  rfl

section
variable (g : OutputFormat) (n : Node) (fmt : Text) (inner : n.kind ≠ .mainLoop)
  (bare : BareName n.name) (formed : n.Formed)
include inner bare formed

theorem formatLine_node : formatLine g (words 6 (n.line fmt)) =
    if n.kind = .recAttr ∧ n.later.getD 1 [] ≠ [] ∧ ¬strcaseEq (n.later.getD 0 []) (text "or") then
      .error (text "Expected 'or'")
    else .ok (g.addNode n.readBack) := by
  have shown : n.shownName fmt = n.name := if_neg inner
  have later : words 2 ((readSource n.behind n.unresolved).2.dropWhile isSpace) = n.later := rfl
  rw [line_words n fmt (by rw [shown]; exact bare.bare),shown,
    formatLine_assign g n.kind n.name _ _ bare (readSource_some _ _ formed.source),later]
  have source : n.readBack.unresolved = unescape (readSource n.behind n.unresolved).1 := rfl
  have source2 : n.readBack.unresolved2 = if n.kind = .recAttr then
      some (if n.later.getD 1 [] = [] then n.readBack.unresolved else unescape (n.later.getD 1 []))
    else none := rfl
  have added : g.addNode n.readBack =
      g.addSymbol n.name n.kind n.readBack.unresolved n.readBack.unresolved2 := rfl
  rw [← source,added,source2]
  cases kind : n.kind with
  | mainLoop => exact absurd kind inner
  | scanLoop => rfl
  | rowLoop => rfl
  | recAttr =>
    dsimp only
    rw [if_pos (rfl : NodeKind.recAttr = .recAttr)]
    by_cases single : n.later.getD 1 [] = []
    · rw [if_pos single,if_pos single,if_neg fun all => all.2.1 single]
    · rw [if_neg single,if_neg single]
      by_cases wrong : ¬strcaseEq (n.later.getD 0 []) (text "or")
      · rw [if_pos wrong,if_pos ⟨rfl,single,wrong⟩]
      · rw [if_neg wrong,if_neg fun all => wrong all.2.2]

/-- A line that is accepted defines the node that it is read back as. -/
theorem formatLine_accepted (g' : OutputFormat)
    (read : formatLine g (words 6 (n.line fmt)) = .ok g') :
    g' = g.addNode n.readBack := by
  rw [formatLine_node g n fmt inner bare formed] at read
  split_ifs at read
  exact (Except.ok.inj read).symm

theorem formatLine_plain (plain : n.PlainSources) :
    formatLine g (words 6 (n.line fmt)) = .ok (g.addNode n.readBack) := by
  rw [formatLine_node g n fmt inner bare formed,if_neg]
  · rintro ⟨record,-,wrong⟩
    obtain ⟨s,known,-⟩ := formed.record record
    have behind : n.behind = text "  or  " ++ quotedSource s := by
      unfold Node.behind
      rw [record,known]
    have later : n.later = [text "or",(readSource [] s).1] := by
      unfold Node.later
      rw [readSource_behind _ _ (behind_over n) plain.1,behind,words_or]
    rw [later] at wrong
    exact wrong (show strcaseEq (text "or") (text "or") = true by decide)

end

theorem foldlM_accepted (ns : List Node) (fmt : Text) (g g' : OutputFormat)
    (inner : ∀ n ∈ ns, n.kind ≠ .mainLoop) (bare : ∀ n ∈ ns, BareName n.name)
    (formed : ∀ n ∈ ns, n.Formed)
    (read : (ns.map fun n => words 6 (n.line fmt)).foldlM formatLine g = .ok g') :
    g' = (ns.map Node.readBack).foldl OutputFormat.addNode g := by
  induction ns generalizing g with
  | nil => exact (Except.ok.inj read).symm
  | cons n ns ih =>
    rw [List.forall_mem_cons] at inner bare formed
    rw [List.map_cons,List.foldlM_cons] at read
    cases first : formatLine g (words 6 (n.line fmt)) with
    | error message => simp [first,bind,Except.bind] at read
    | ok middle =>
      rw [first] at read
      have same := formatLine_accepted g n fmt inner.1 bare.1 formed.1 middle first
      rw [List.map_cons,List.foldl_cons,← same]
      exact ih middle inner.2 bare.2 formed.2 read

theorem foldlM_plain (ns : List Node) (fmt : Text) (g : OutputFormat)
    (inner : ∀ n ∈ ns, n.kind ≠ .mainLoop) (bare : ∀ n ∈ ns, BareName n.name)
    (formed : ∀ n ∈ ns, n.Formed) (plain : ∀ n ∈ ns, n.PlainSources) :
    (ns.map fun n => words 6 (n.line fmt)).foldlM formatLine g =
      .ok ((ns.map Node.readBack).foldl OutputFormat.addNode g) := by
  induction ns generalizing g with
  | nil => rfl
  | cons n ns ih =>
    rw [List.forall_mem_cons] at inner bare formed plain
    rw [List.map_cons,List.foldlM_cons,formatLine_plain g n fmt inner.1 bare.1 formed.1 plain.1]
    exact ih _ inner.2 bare.2 formed.2 plain.2

end ModNdb.Format
