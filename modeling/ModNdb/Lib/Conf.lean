import Mathlib

/-! The readers of a configuration that the Apache server has for its modules: the lines of a
file, without the white space around them and joined where one is continued, and the words of
a line. -/
namespace Conf

def backslash : UInt8 := 92

def newline : UInt8 := 10

/-- `apr_isspace` -/
def isSpace (c : UInt8) : Bool := c = 32 ∨ 9 ≤ c ∧ c ≤ 13

def isQuote (c : UInt8) : Bool := c = 34 ∨ c = 39

/-- A word up to its closing quote, and what stands behind the quote. A backslash hides a quote
or a backslash. -/
def readQuoted (quote : UInt8) : List UInt8 → List UInt8 × List UInt8
  | [] => ([],[])
  | [c] => if c = quote then ([],[]) else ([c],[])
  | c::d::t =>
    if c = quote then ([],d::t)
    else if c = backslash ∧ (d = quote ∨ d = backslash) then
      (d :: (readQuoted quote t).1,(readQuoted quote t).2)
    else (c :: (readQuoted quote (d::t)).1,(readQuoted quote (d::t)).2)

/-- Outside quotes a backslash hides a backslash. -/
def collapse : List UInt8 → List UInt8
  | [] => []
  | [c] => [c]
  | c::d::t => if c = backslash ∧ d = backslash then d :: collapse t else c :: collapse (d::t)

/-- `ap_getword_conf`: a word, and the line from the next one on. -/
def getwordConf (line : List UInt8) : List UInt8 × List UInt8 :=
  match line.dropWhile isSpace with
  | [] => ([],[])
  | c::t =>
    if isQuote c then ((readQuoted c t).1,(readQuoted c t).2.dropWhile isSpace)
    else (collapse ((c::t).takeWhile (!isSpace ·)),
      ((c::t).dropWhile (!isSpace ·)).dropWhile isSpace)

def words : Nat → List UInt8 → List (List UInt8)
  | 0, _ => []
  | n + 1, line => (getwordConf line).1 :: words n (getwordConf line).2

def physicalLines : List UInt8 → List (List UInt8)
  | [] => []
  | c::t =>
    if c = newline then [c] :: physicalLines t
    else match physicalLines t with
      | [] => [[c]]
      | line::lines => (c::line) :: lines

def lineBody (line : List UInt8) : List UInt8 :=
  if line.getLast? = some newline then
    if line.dropLast.getLast? = some 13 then line.dropLast.dropLast else line.dropLast
  else line

def continues (line : List UInt8) : Bool :=
  line.getLast? = some newline ∧ (lineBody line).getLast? = some backslash ∧
    (lineBody line).dropLast.getLast? ≠ some backslash

/-- Of two backslashes at the end of a line there is one left. -/
def unescaped (line : List UInt8) : List UInt8 :=
  if line.getLast? = some newline ∧ (lineBody line).getLast? = some backslash then
    (lineBody line).dropLast ++ line.drop (lineBody line).length
  else line

def trim (line : List UInt8) : List UInt8 := (line.dropWhile isSpace).rdropWhile isSpace

/-- `ap_cfg_getline` until there are no more lines, behind what was read of a line that is
continued. -/
def linesFrom (pending : List UInt8) : List (List UInt8) → List (List UInt8)
  | [] => []
  | line::lines =>
    if continues line then linesFrom (pending ++ (lineBody line).dropLast) lines
    else trim (pending ++ unescaped line) :: linesFrom [] lines

def cfgLines (file : List UInt8) : List (List UInt8) := linesFrom [] (physicalLines file)

theorem physicalLines_append (line file : List UInt8) (single : newline ∉ line) :
    physicalLines (line ++ newline :: file) = (line ++ [newline]) :: physicalLines file := by
  induction line with
  | nil =>
    rw [List.nil_append,physicalLines,if_pos rfl]
    rfl
  | cons c line ih =>
    have other : c ≠ newline := fun same => single (same ▸ List.mem_cons_self)
    rw [List.cons_append,physicalLines,if_neg other,
      ih fun inside => single (List.mem_cons_of_mem c inside)]
    rfl

/-- A line that ends with some ink is read without the white space in front of it. -/
theorem cfgLines_append (line file : List UInt8) (c : UInt8) (single : newline ∉ line)
    (last : line.getLast? = some c) (plain : c ≠ backslash) (ink : isSpace c = false) :
    cfgLines (line ++ newline :: file) = line.dropWhile isSpace :: cfgLines file := by
  have ends : (line ++ [newline]).getLast? = some newline := List.getLast?_concat
  have body : lineBody (line ++ [newline]) = line := by
    have no_return : ¬some c = some (13 : UInt8) := by
      rintro same
      rw [Option.some.inj same] at ink
      cases ink
    unfold lineBody
    rw [if_pos ends,List.dropLast_concat,last,if_neg no_return]
  have no_backslash : ¬line.getLast? = some backslash := by
    rw [last]
    exact fun same => plain (Option.some.inj same)
  have stops : ¬continues (line ++ [newline]) = true := by
    unfold continues
    rw [body]
    simp [no_backslash]
  have whole : unescaped (line ++ [newline]) = line ++ [newline] := by
    unfold unescaped
    rw [body,if_neg fun both => no_backslash both.2]
  obtain ⟨front,rfl⟩ := List.getLast?_eq_some_iff.mp last
  have trimmed : trim (front ++ [c] ++ [newline]) = (front ++ [c]).dropWhile isSpace := by
    have kept : ∃ rest, (front ++ [c]).dropWhile isSpace = rest ++ [c] := by
      rw [List.dropWhile_append]
      split_ifs with blank
      · exact ⟨[],by rw [List.dropWhile_cons_of_neg (by simp [ink])]; rfl⟩
      · exact ⟨_,rfl⟩
    obtain ⟨rest,kept⟩ := kept
    have some_rest : ¬((front ++ [c]).dropWhile isSpace).isEmpty = true := by
      rw [kept]
      simp
    unfold trim
    rw [List.dropWhile_append,if_neg some_rest,kept,List.rdropWhile_concat_pos _ _ _ rfl,
      List.rdropWhile_concat_neg _ _ _ (by simp [ink])]
  unfold cfgLines
  rw [physicalLines_append _ file single,linesFrom,if_neg stops,whole,List.nil_append,trimmed]

section
variable (quote : UInt8) (other : quote ≠ backslash)

theorem readQuoted_close (t : List UInt8) : readQuoted quote (quote::t) = ([],t) := by
  cases t <;> simp [readQuoted]

theorem readQuoted_cons (c : UInt8) (t : List UInt8) (open_ : c ≠ quote) (plain : c ≠ backslash) :
    readQuoted quote (c::t) = (c :: (readQuoted quote t).1,(readQuoted quote t).2) := by
  cases t with
  | nil => simp [readQuoted,open_]
  | cons d t => rw [readQuoted,if_neg open_,if_neg fun hidden => plain hidden.1]

/-- A word is empty only between two quotes, or where the line ends. -/
theorem readQuoted_some (c : UInt8) (t : List UInt8) (open_ : c ≠ quote) :
    (readQuoted quote (c::t)).1 ≠ [] := by
  cases t with
  | nil =>
    rw [readQuoted,if_neg open_]
    exact List.cons_ne_nil _ _
  | cons d t =>
    rw [readQuoted,if_neg open_]
    split_ifs <;> exact List.cons_ne_nil _ _

include other in
theorem readQuoted_hidden (d : UInt8) (t : List UInt8) (hidden : d = quote ∨ d = backslash) :
    readQuoted quote (backslash::d::t) = (d :: (readQuoted quote t).1,(readQuoted quote t).2) := by
  rw [readQuoted,if_neg (Ne.symm other),if_pos ⟨rfl,hidden⟩]

include other in
theorem readQuoted_backslash (d : UInt8) (t : List UInt8) (open_ : d ≠ quote) (plain : d ≠ backslash) :
    readQuoted quote (backslash::d::t) =
      (backslash :: (readQuoted quote (d::t)).1,(readQuoted quote (d::t)).2) := by
  rw [readQuoted,if_neg (Ne.symm other),if_neg fun hidden => hidden.2.elim open_ plain]

end

theorem readQuoted_plain (quote : UInt8) (word t : List UInt8)
    (plain : ∀ c ∈ word, c ≠ quote ∧ c ≠ backslash) :
    readQuoted quote (word ++ quote::t) = (word,t) := by
  induction word with
  | nil => exact readQuoted_close quote t
  | cons c word ih =>
    obtain ⟨⟨open_,single⟩,rest⟩ := List.forall_mem_cons.mp plain
    rw [List.cons_append,readQuoted_cons _ _ _ open_ single,ih rest]

theorem readQuoted_word (quote : UInt8) (word t : List UInt8) (plain : quote ∉ word)
    (single : ¬[backslash,backslash] <:+: word) (last : word.getLast? ≠ some backslash) :
    readQuoted quote (word ++ quote::t) = (word,t) := by
  induction word with
  | nil => exact readQuoted_close quote t
  | cons c word ih =>
    have open_ : c ≠ quote := fun same => plain (same ▸ List.mem_cons_self)
    cases word with
    | nil =>
      have ink : c ≠ backslash := fun same => last (congrArg some same)
      rw [List.cons_append,readQuoted_cons _ _ _ open_ ink,List.nil_append,readQuoted_close]
    | cons d word =>
      have hidden : ¬(c = backslash ∧ (d = quote ∨ d = backslash)) := by
        rintro ⟨rfl,same | rfl⟩
        · exact plain (by simp [same])
        · exact single ⟨[],word,rfl⟩
      have rest := ih (fun inside => plain (List.mem_cons_of_mem c inside))
        (fun inside => single (inside.trans (List.suffix_cons c _).isInfix))
        (by rwa [List.getLast?_cons_cons] at last)
      rw [List.cons_append,List.cons_append,readQuoted,if_neg open_,if_neg hidden,
        ← List.cons_append,rest]

/-- A word that can be written without quotes as it is. -/
structure Bare (word : List UInt8) : Prop where
  some : word ≠ []
  ink : ∀ c ∈ word, isSpace c = false
  starts : ∀ c ∈ word.head?, isQuote c = false
  single : ¬[backslash,backslash] <:+: word

theorem collapse_single (word : List UInt8) (single : ¬[backslash,backslash] <:+: word) :
    collapse word = word := by
  induction word using collapse.induct with
  | case1 => rfl
  | case2 c => rfl
  | case3 c d t both ih =>
    obtain ⟨rfl,rfl⟩ := both
    exact absurd ⟨[],t,rfl⟩ single
  | case4 c d t apart ih =>
    rw [collapse,if_neg apart,ih fun inside => single (inside.trans (List.suffix_cons c _).isInfix)]

theorem getwordConf_bare (word t : List UInt8) (bare : Bare word) :
    getwordConf (word ++ 32 :: t) = (word,t.dropWhile isSpace) := by
  obtain ⟨c,w,rfl⟩ := List.exists_cons_of_ne_nil bare.some
  have first : isSpace c = false := bare.ink c List.mem_cons_self
  have bare_start : ¬isQuote c = true := by
    rw [bare.starts c rfl]
    exact Bool.false_ne_true
  have inside : ∀ d ∈ c::w, (!isSpace d) = true := fun d inside => by rw [bare.ink d inside]; rfl
  have taken : ((c::w) ++ 32 :: t).takeWhile (!isSpace ·) = c::w := by
    rw [List.takeWhile_append_of_pos inside,List.takeWhile_cons_of_neg (by decide),List.append_nil]
  have left : ((c::w) ++ 32 :: t).dropWhile (!isSpace ·) = 32 :: t := by
    rw [List.dropWhile_append_of_pos inside,List.dropWhile_cons_of_neg (by decide)]
  unfold getwordConf
  rw [List.cons_append,List.dropWhile_cons_of_neg (by rw [first]; exact Bool.false_ne_true)]
  dsimp only
  rw [if_neg bare_start,← List.cons_append,taken,left,
    collapse_single _ bare.single,List.dropWhile_cons_of_pos (by decide)]

theorem getwordConf_quoted (quote : UInt8) (t : List UInt8) (quotes : isQuote quote = true)
    (ink : isSpace quote = false) : getwordConf (quote::t) =
      ((readQuoted quote t).1,(readQuoted quote t).2.dropWhile isSpace) := by
  unfold getwordConf
  rw [List.dropWhile_cons_of_neg (by rw [ink]; exact Bool.false_ne_true)]
  exact if_pos quotes

end Conf
