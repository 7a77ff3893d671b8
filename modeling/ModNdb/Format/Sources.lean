import ModNdb.Format.Container
import ModNdb.Lib.Conf

/-! The source of a format as a configuration section (format_dumper.cc): the calls that print it,
and a source string between the quotes of a line. It is escaped by `escape_conf_str`, read by the
server, which has its own use for backslashes, and unescaped. -/
namespace ModNdb.Format
open Conf (backslash newline readQuoted)

/-- The calls on the buffer: `putc`, which relies on there being room, and `out(fmt, ...)`. -/
inductive DumpCall
  | putc (c : UInt8)
  | out (bytes : Text)
  deriving DecidableEq

def apostrophe : UInt8 := 39

def escapeChar (c : UInt8) : List DumpCall :=
  if c = code '\n' then [.out (text "\\n")]
  else (if c = apostrophe then [.putc (code '\\')] else []) ++ [.putc c]

def escapeConfStr (str : Text) : List DumpCall :=
  .putc apostrophe :: (str.flatMap escapeChar ++ [.putc apostrophe])

/-- `dump_source` of the four kinds of nodes; a `MainLoop` shows the name of its format. -/
def Node.dumpSource (n : Node) (fmt : Text) : List DumpCall :=
  let line (object name : Text) (behind : List DumpCall) : List DumpCall :=
    .out (text "    " ++ object ++ text "  " ++ name ++ text " = ") ::
      (escapeConfStr n.unresolved ++ (behind ++ [.out (text "\n")]))
  match n.kind with
  | .mainLoop => line (text "Format") fmt []
  | .scanLoop => line (text "Scan") n.name []
  | .rowLoop => line (text "Row") n.name []
  | .recAttr => line (text "Record") n.name (match n.unresolved2 with
    | none => []
    | some unresolved2 => .out (text "  or  ") :: escapeConfStr unresolved2)

/-- The nodes in the order in which `dump_source` goes through the symbol table. -/
def OutputFormat.named (f : OutputFormat) : List Node :=
  (f.symbols.filterMap fun id => f.nodes[id]?).filter fun n => n.name ≠ text "_main"

/-- `output_format::dump_source`; there is a top node in every format that is not raw. -/
def OutputFormat.dumpSource (f : OutputFormat) : List DumpCall :=
  if f.isRaw then []
  else .out (text "<ResultFormat \"" ++ f.name ++ text "\">\n") ::
    ((f.topNode.bind fun id => f.nodes[id]?).toList.flatMap (Node.dumpSource · f.name) ++
      (f.named.flatMap (Node.dumpSource · f.name) ++ [.out (text "</ResultFormat>\n\n")]))

def DumpCall.bytes : DumpCall → Text
  | .putc c => [c]
  | .out bytes => bytes

def printedBy (calls : List DumpCall) : Text := calls.flatMap DumpCall.bytes

/-- What `escape_conf_str` prints between its quotes. -/
def escapedText (s : Text) : Text := printedBy (s.flatMap escapeChar)

theorem printedBy_append (before behind : List DumpCall) :
    printedBy (before ++ behind) = printedBy before ++ printedBy behind := List.flatMap_append

theorem escapeConfStr_text (s : Text) :
    printedBy (escapeConfStr s) = apostrophe :: (escapedText s ++ [apostrophe]) := by
  unfold escapeConfStr escapedText
  exact congrArg (apostrophe :: ·) (printedBy_append _ _)

section
variable (c : UInt8) (s : Text)

theorem escapedText_newline : escapedText (newline::s) = backslash :: code 'n' :: escapedText s := rfl

theorem escapedText_apostrophe :
    escapedText (apostrophe::s) = backslash :: apostrophe :: escapedText s := rfl

theorem escapedText_other (line : c ≠ newline) (open_ : c ≠ apostrophe) :
    escapedText (c::s) = c :: escapedText s := by
  have plain : escapeChar c = [.putc c] := by
    unfold escapeChar
    rw [if_neg (show ¬c = code '\n' from line),if_neg open_]
    rfl
  unfold escapedText
  rw [List.flatMap_cons,plain]
  rfl

theorem unescape_other (w : Text) (plain : c ≠ backslash) :
    unescape (c::w) = c :: unescape w := by
  cases w with
  | nil => rfl
  | cons d w =>
    rw [unescape,if_neg fun both => plain both.1]

theorem unescape_newline (w : Text) :
    unescape (backslash :: code 'n' :: w) = newline :: unescape w := by
  rw [unescape,if_pos ⟨rfl,rfl⟩]
  rfl

theorem unescape_backslash (w : Text) (other : w.head? ≠ some (code 'n')) :
    unescape (backslash::w) = backslash :: unescape w := by
  cases w with
  | nil => rfl
  | cons d w =>
    rw [unescape,if_neg fun both => other (congrArg some both.2)]

end

/-- Every backslash stands in front of a character for which it has no meaning: another than a
backslash, an apostrophe, a newline or an n. -/
def PlainSource (s : Text) : Prop :=
  ∀ i, s[i]? = some backslash →
    ∃ d, s[i + 1]? = some d ∧ d ∉ [backslash,apostrophe,newline,code 'n']

theorem plainSource_nil : PlainSource [] := fun i found => by simp at found

theorem plainSource_other (c : UInt8) (s : Text) (plain : c ≠ backslash) :
    PlainSource (c::s) ↔ PlainSource s := by
  constructor
  · intro whole i found
    exact whole (i + 1) found
  · intro rest i found
    cases i with
    | zero => exact absurd (Option.some.inj found) plain
    | succ i => exact rest i found

theorem plainSource_backslash (d : UInt8) (s : Text)
    (plain : d ∉ [backslash,apostrophe,newline,code 'n']) :
    PlainSource (backslash::d::s) ↔ PlainSource s := by
  have other : d ≠ backslash := fun same => plain (by simp [same])
  rw [← plainSource_other d s other]
  constructor
  · intro whole i found
    exact whole (i + 1) found
  · intro rest i found
    cases i with
    | zero => exact ⟨d,rfl,plain⟩
    | succ i => exact rest i found

theorem plainSource_special (s : Text)
    (special : ∀ d ∈ s.head?, d ∈ [backslash,apostrophe,newline,code 'n']) :
    ¬PlainSource (backslash::s) := by
  intro whole
  obtain ⟨d,next,plain⟩ := whole 0 rfl
  cases s with
  | nil => cases next
  | cons e s =>
    obtain rfl := Option.some.inj next
    exact plain (special e rfl)

/-- What was read of a source is shorter than it, or has run over its end and does not end with
a backslash, as the source does. -/
def Differs (s u : Text) : Prop :=
  u.length < s.length ∨ s.getLast? = some backslash ∧ ∃ e, u.getLast? = some e ∧ e ≠ backslash

theorem Differs.ne {s u : Text} (differs : Differs s u) : u ≠ s := by
  rintro rfl
  rcases differs with shorter | ⟨last,e,last',other⟩
  · exact Nat.lt_irrefl _ shorter
  · exact other (Option.some.inj (last'.symm.trans last))

theorem getLast_cons (c e : UInt8) (u : Text) (last : u.getLast? = some e) :
    (c::u).getLast? = some e := by
  rw [List.getLast?_cons,last]
  rfl

theorem Differs.cons {s u : Text} (differs : Differs s u) (c d : UInt8) :
    Differs (c::s) (d::u) := by
  rcases differs with shorter | ⟨last,e,last',other⟩
  · exact .inl (Nat.succ_lt_succ shorter)
  · exact .inr ⟨getLast_cons c _ s last,e,getLast_cons d e u last',other⟩

theorem Differs.lost {s u : Text} (same : u = s ∨ Differs s u) (c : UInt8) : Differs (c::s) u := by
  rcases same with rfl | shorter | ⟨last,e,last',other⟩
  · exact .inl (Nat.lt_succ_self _)
  · exact .inl (Nat.lt_succ_of_lt shorter)
  · exact .inr ⟨getLast_cons c _ s last,e,last',other⟩

theorem Differs.head {s u : Text} {c : UInt8} (differs : Differs s (c::u)) (d : UInt8)
    (plain : d ≠ backslash) : Differs s (d::u) := by
  rcases differs with shorter | ⟨last,e,last',other⟩
  · exact .inl shorter
  · cases u with
    | nil => exact .inr ⟨last,d,rfl,plain⟩
    | cons f u => exact .inr ⟨last,e,last',other⟩

/-- A source that was read as a word with something behind it: it is plain and was read as it is,
or not. -/
def Outcome (rest s w behind : Text) : Prop :=
  PlainSource s ∧ unescape w = s ∧ behind = rest ∨ ¬PlainSource s ∧ Differs s (unescape w)

theorem Outcome.same_or {rest s w behind : Text} (outcome : Outcome rest s w behind) :
    unescape w = s ∨ Differs s (unescape w) :=
  outcome.imp (fun plain => plain.2.1) And.right

theorem Outcome.cons {rest s w behind : Text} (outcome : Outcome rest s w behind) (c : UInt8)
    (w' : Text) (plain : c ≠ backslash) (read : unescape w' = c :: unescape w) :
    Outcome rest (c::s) w' behind := by
  unfold Outcome
  rw [plainSource_other c s plain,read]
  rcases outcome with ⟨whole,same,left⟩ | ⟨special,differs⟩
  · exact .inl ⟨whole,congrArg _ same,left⟩
  · exact .inr ⟨special,differs.cons c c⟩

section
variable (rest : Text)

def readSource (s : Text) : Text × Text := readQuoted apostrophe (escapedText s ++ apostrophe :: rest)

theorem apostrophe_other : apostrophe ≠ backslash := by decide

theorem letter_plain : code 'n' ≠ apostrophe ∧ code 'n' ≠ backslash := by decide

theorem readSource_newline (s : Text) : readSource rest (newline::s) =
    (backslash :: code 'n' :: (readSource rest s).1,(readSource rest s).2) := by
  unfold readSource
  rw [escapedText_newline,List.cons_append,List.cons_append,
    Conf.readQuoted_backslash _ apostrophe_other _ _ letter_plain.1 letter_plain.2,
    Conf.readQuoted_cons _ _ _ letter_plain.1 letter_plain.2]

theorem readSource_apostrophe (s : Text) : readSource rest (apostrophe::s) =
    (apostrophe :: (readSource rest s).1,(readSource rest s).2) := by
  unfold readSource
  rw [escapedText_apostrophe,List.cons_append,List.cons_append,
    Conf.readQuoted_hidden _ apostrophe_other _ _ (.inl rfl)]

theorem readSource_other (c : UInt8) (s : Text) (line : c ≠ newline) (open_ : c ≠ apostrophe)
    (plain : c ≠ backslash) : readSource rest (c::s) =
      (c :: (readSource rest s).1,(readSource rest s).2) := by
  unfold readSource
  rw [escapedText_other c s line open_,List.cons_append,Conf.readQuoted_cons _ _ _ open_ plain]

/-- A backslash in front of a character that does not concern the server. -/
theorem readSource_backslash (d : UInt8) (s : Text) (line : d ≠ newline) (open_ : d ≠ apostrophe)
    (plain : d ≠ backslash) : readSource rest (backslash::d::s) =
      (backslash :: d :: (readSource rest s).1,(readSource rest s).2) := by
  unfold readSource
  rw [escapedText_other backslash _ (by decide) (by decide),escapedText_other d s line open_,
    List.cons_append,List.cons_append,Conf.readQuoted_backslash _ apostrophe_other _ _ open_ plain,
    Conf.readQuoted_cons _ _ _ open_ plain]

theorem readSource_two (s : Text) : readSource rest (backslash::backslash::s) =
    (backslash :: (readSource rest s).1,(readSource rest s).2) := by
  unfold readSource
  rw [escapedText_other backslash _ (by decide) (by decide),
    escapedText_other backslash _ (by decide) (by decide),List.cons_append,List.cons_append,
    Conf.readQuoted_hidden _ apostrophe_other _ _ (.inr rfl)]

/-- The backslash that hides the apostrophe is hidden itself. -/
theorem readSource_hides (s : Text) : (readSource rest (backslash::apostrophe::s)).1 = [backslash] := by
  unfold readSource
  rw [escapedText_other backslash _ (by decide) (by decide),escapedText_apostrophe,
    List.cons_append,List.cons_append,Conf.readQuoted_hidden _ apostrophe_other _ _ (.inr rfl),
    List.cons_append,Conf.readQuoted_close]

theorem readSource_eats (s : Text) : readSource rest (backslash::newline::s) =
    (backslash :: code 'n' :: (readSource rest s).1,(readSource rest s).2) := by
  unfold readSource
  rw [escapedText_other backslash _ (by decide) (by decide),escapedText_newline,
    List.cons_append,List.cons_append,Conf.readQuoted_hidden _ apostrophe_other _ _ (.inr rfl),
    List.cons_append,Conf.readQuoted_cons _ _ _ letter_plain.1 letter_plain.2]

/-- A source that ends with a backslash does not end at its quote. -/
theorem readSource_last : readSource rest [backslash] =
    (apostrophe :: (readQuoted apostrophe rest).1,(readQuoted apostrophe rest).2) := by
  unfold readSource
  rw [escapedText_other backslash _ (by decide) (by decide),List.cons_append,
    show escapedText [] = [] from rfl,List.nil_append,
    Conf.readQuoted_hidden _ apostrophe_other _ _ (.inl rfl)]

theorem readSource_some (s : Text) (some_text : s ≠ []) : (readSource rest s).1 ≠ [] := by
  obtain ⟨c,s,rfl⟩ := List.exists_cons_of_ne_nil some_text
  unfold readSource
  by_cases line : c = newline
  · rw [line,escapedText_newline]
    exact Conf.readQuoted_some _ _ _ apostrophe_other.symm
  by_cases open_ : c = apostrophe
  · rw [open_,escapedText_apostrophe]
    exact Conf.readQuoted_some _ _ _ apostrophe_other.symm
  · rw [escapedText_other c s line open_]
    exact Conf.readQuoted_some _ _ _ open_

theorem Outcome.shorter {s w behind : Text} (outcome : Outcome rest s w behind) (d : UInt8)
    (w' : Text) (special : d ∈ [backslash,apostrophe,newline,code 'n'])
    (read : ∃ c, unescape w' = c :: unescape w) :
    Outcome rest (backslash::d::s) w' behind := by
  obtain ⟨c,same⟩ := read
  refine .inr ⟨plainSource_special (d::s) fun e first => ?_,?_⟩
  · rw [← Option.some.inj first]
    exact special
  · rw [same]
    exact (Differs.lost outcome.same_or d).cons backslash c

/-- How a source is read back, with a rest of the line in which no word ends with a backslash. -/
theorem readSource_outcome (s : Text)
    (over_end : (unescape (readQuoted apostrophe rest).1).getLast? ≠ some backslash) :
    Outcome rest s (readSource rest s).1 (readSource rest s).2 := by
  match s with
  | [] =>
    unfold readSource
    rw [show escapedText [] = [] from rfl,List.nil_append,Conf.readQuoted_close]
    exact .inl ⟨plainSource_nil,rfl,rfl⟩
  | c::s =>
    by_cases line : c = newline
    · rw [line,readSource_newline]
      exact (readSource_outcome s over_end).cons newline _ (by decide) (unescape_newline _)
    by_cases open_ : c = apostrophe
    · rw [open_,readSource_apostrophe]
      exact (readSource_outcome s over_end).cons apostrophe _ (by decide)
        (unescape_other _ _ (by decide))
    by_cases plain : c = backslash
    swap
    · rw [readSource_other rest c s line open_ plain]
      exact (readSource_outcome s over_end).cons c _ plain (unescape_other c _ plain)
    subst plain
    match s with
    | [] =>
      rw [readSource_last]
      refine .inr ⟨plainSource_special [] (by simp),.inr ⟨rfl,?_⟩⟩
      dsimp only
      rw [unescape_other _ _ (by decide),List.getLast?_cons]
      cases last : (unescape (readQuoted apostrophe rest).1).getLast? with
      | none => exact ⟨apostrophe,rfl,by decide⟩
      | some e => exact ⟨e,rfl,fun same => over_end (last.trans (congrArg some same))⟩
    | d::s =>
      have outcome := readSource_outcome s over_end
      by_cases line : d = newline
      · rw [line,readSource_eats]
        exact outcome.shorter rest newline _ (by decide) ⟨newline,unescape_newline _⟩
      by_cases open_ : d = apostrophe
      · rw [open_,readSource_hides]
        refine .inr ⟨plainSource_special (apostrophe::s) fun e first => ?_,.inl ?_⟩
        · rw [← Option.some.inj first]
          decide
        · change 1 < s.length + 1 + 1
          omega
      by_cases two : d = backslash
      · rw [two,readSource_two]
        dsimp only
        by_cases letter : (readSource rest s).1.head? = some (code 'n')
        · obtain ⟨w,same⟩ := List.head?_eq_some_iff.mp letter
          rw [same] at outcome ⊢
          have differs := Differs.lost outcome.same_or backslash
          rw [unescape_other _ w letter_plain.2] at differs
          refine .inr ⟨plainSource_special (backslash::s) fun e first => ?_,?_⟩
          · rw [← Option.some.inj first]
            decide
          · rw [unescape_newline]
            exact Differs.lost (.inr (differs.head newline (by decide))) backslash
        · refine .inr ⟨plainSource_special (backslash::s) fun e first => ?_,?_⟩
          · rw [← Option.some.inj first]
            decide
          · rw [unescape_backslash _ letter]
            exact (Differs.lost outcome.same_or backslash).cons backslash backslash
      rw [readSource_backslash rest d s line open_ two]
      by_cases letter : d = code 'n'
      · rw [letter]
        exact outcome.shorter rest (code 'n') _ (by decide) ⟨newline,unescape_newline _⟩
      · unfold Outcome
        rw [plainSource_backslash d s (by simp [line,open_,two,letter]),
          unescape_backslash (d :: (readSource rest s).1) (fun same => letter (Option.some.inj same)),
          unescape_other d _ two]
        rcases outcome with ⟨whole,same,left⟩ | ⟨special,differs⟩
        · exact .inl ⟨whole,by rw [same],left⟩
        · exact .inr ⟨special,(differs.cons d d).cons backslash backslash⟩

/-- A source is read back as it is exactly if its backslashes mean nothing. -/
theorem readSource_iff (s : Text)
    (over_end : (unescape (readQuoted apostrophe rest).1).getLast? ≠ some backslash) :
    unescape (readSource rest s).1 = s ↔ PlainSource s := by
  rcases readSource_outcome rest s over_end with ⟨whole,same,-⟩ | ⟨special,differs⟩
  · exact iff_of_true same whole
  · exact iff_of_false differs.ne special

theorem readSource_behind (s : Text)
    (over_end : (unescape (readQuoted apostrophe rest).1).getLast? ≠ some backslash)
    (plain : PlainSource s) : (readSource rest s).2 = rest := by
  rcases readSource_outcome rest s over_end with ⟨-,-,left⟩ | ⟨special,-⟩
  · exact left
  · exact absurd plain special

end

end ModNdb.Format
