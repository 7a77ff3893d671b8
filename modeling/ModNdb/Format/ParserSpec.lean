import ModNdb.Format.Tokens

/-! What each parser function does, in terms of the tokens still to be read. -/
namespace ModNdb.Format
open Prog (Returns)

section
variable (p : Parser) (start : Option Text)

theorem buildCell_found (t next : Text) (l : Lexeme) (found : scanAt t = .token l next)
    (shorter : next.length < t.length) (cell : l.kind.isCell = true) :
    buildCell (p.scanned t l next) = (.ok (cellOf l),p.scanned t l next) := by
  have txt := scanned_text p t next l found
  have current : (p.scanned t l next).currentToken = l.kind := rfl
  rw [buildCell,Prog.bind_ok _ (Prog.get_run _),current]
  by_cases plain : l.kind = .plaintext
  · have copied : copyNodeText (p.scanned t l next) = (.ok l.text,p.scanned t l next) := by
      have room : (p.scanned t l next).tokenNext.length < (p.scanned t l next).tokenStart.length :=
        shorter
      rw [copyNodeText,if_pos room,txt]
    rw [if_pos plain,Prog.bind_ok _ copied]
    simp [cellOf,plain]
  · rw [if_neg plain,if_pos cell,txt]
    rfl

theorem getCell_cell (required : Bool) (l : Lexeme) (ls : List Lexeme) (ending : Ending)
    (read : tokens (start.getD p.tokenNext) = (l::ls,ending)) (cell : l.kind.isCell = true) :
    Returns (getCell required start) p (some (cellOf l))
      (fun q => q.At ls ending p.sentinels ∧ q.currentToken ≠ .noMore ∧
        q.tokenNext.length < (start.getD p.tokenNext).length) := by
  obtain ⟨next,found,rest,shorter⟩ := tokens_cons _ l ls ending read
  refine ⟨p.scanned (start.getD p.tokenNext) l next,?_,⟨rest,rfl⟩,scanAt_kind _ _ _ found,shorter⟩
  have current : (p.scanned (start.getD p.tokenNext) l next).currentToken = l.kind := rfl
  rw [getCell,Prog.bind_ok _ (scan_found p start l next found),Prog.bind_ok _ (Prog.get_run _),
    current,if_pos cell,Prog.bind_ok _ (buildCell_found p _ next l found shorter cell)]
  rfl

/-- An optional function that finds some other token has consumed it all the same. -/
theorem getCell_other (l : Lexeme) (ls : List Lexeme) (ending : Ending)
    (read : tokens (start.getD p.tokenNext) = (l::ls,ending)) (other : l.kind.isCell = false) :
    Returns (getCell false start) p none
      (fun q => q.At ls ending p.sentinels ∧ q.currentToken ≠ .noMore ∧
        q.tokenStart = start.getD p.tokenNext) := by
  obtain ⟨next,found,rest,_⟩ := tokens_cons _ l ls ending read
  refine ⟨p.scanned (start.getD p.tokenNext) l next,?_,⟨rest,rfl⟩,scanAt_kind _ _ _ found,rfl⟩
  have current : (p.scanned (start.getD p.tokenNext) l next).currentToken = l.kind := rfl
  rw [getCell,Prog.bind_ok _ (scan_found p start l next found),Prog.bind_ok _ (Prog.get_run _),
    current,other]
  rfl

theorem scan_end (read : tokens (start.getD p.tokenNext) = ([],.closed)) :
    Returns (scan start) p () (fun q => q.tokenNext = p.tokenNext ∧ q.sentinels = p.sentinels ∧
      q.currentToken = .noMore ∧ q.tokenStart = start.getD p.tokenNext) := by
  have nothing := tokens_closed _ read
  let q := {p with
    oldToken := p.currentToken, oldStart := p.tokenStart, tokenStart := [], currentToken := .noMore}
  have ran : scan start p = (.ok (),q) := by simp [scan,nothing,scanAt,q]
  exact ⟨q,ran,rfl,rfl,rfl,nothing.symm⟩

theorem getCell_end (read : tokens (start.getD p.tokenNext) = ([],.closed)) :
    Returns (getCell false start) p none (fun q => q.tokenNext = p.tokenNext ∧
      q.sentinels = p.sentinels ∧ q.currentToken = .noMore ∧
      q.tokenStart = start.getD p.tokenNext) := by
  refine (scan_end p start read).bind fun q holds => ?_
  refine ⟨q,?_,holds⟩
  rw [Prog.bind_ok _ (Prog.get_run _),holds.2.2.1]
  rfl

theorem scan_unterminated (read : tokens (start.getD p.tokenNext) = ([],.unterminated)) :
    Fails (scan start) p p.sentinels := by
  have found := tokens_unterminated _ read
  simp only [Prog.Fails,scan,found]
  exact ⟨_,_,rfl,rfl⟩

theorem scan_stuck (read : tokens (start.getD p.tokenNext) = ([],.stuck)) :
    Returns (scan start) p () (fun q => q.At [] .stuck p.sentinels ∧
      q.currentToken = .plaintext ∧ q.tokenNext = q.tokenStart) :=
  ⟨_,scan_found p start _ _ (tokens_stuck _ read),⟨read,rfl⟩,rfl,rfl⟩

theorem copyNodeText_stuck (same : p.tokenNext = p.tokenStart) :
    Fails copyNodeText p p.sentinels :=
  ⟨.assertion,p,by simp [copyNodeText,same],rfl⟩

/-- Where the token list stops early, a function that wants a cell fails. -/
theorem getCell_fails (required : Bool) (ending : Ending) (early : ending ≠ .closed)
    (read : tokens (start.getD p.tokenNext) = ([],ending)) :
    Fails (getCell required start) p p.sentinels := by
  cases ending with
  | closed => contradiction
  | unterminated => exact (scan_unterminated p start read).bind _
  | stuck =>
    refine (scan_stuck p start read).bindFails fun q holds => ?_
    refine Prog.Returns.bindFails (Prog.Returns.pure q q (· = q) rfl) fun q' same => ?_
    subst same
    have copied := (copyNodeText_stuck q' holds.2.2).bind (fun txt => pure (Cell.constant txt))
    rw [holds.2.1,← holds.1.sentinels]
    refine Prog.Fails.bind _ ?_
    have built : buildCell q' =
        (copyNodeText >>= fun txt => (pure (Cell.constant txt) : Parse Cell)) q' := by
      rw [buildCell,Prog.bind_ok _ (Prog.get_run _),if_pos holds.2.1]
    simpa only [Prog.Fails,built] using copied

theorem getCell_required (ls : List Lexeme) (l : Lexeme) (ending : Ending)
    (read : tokens (start.getD p.tokenNext) = (l::ls,ending)) (other : l.kind.isCell = false) :
    Fails (getCell true start) p p.sentinels := by
  obtain ⟨next,found,_,_⟩ := tokens_cons _ l ls ending read
  have current : (p.scanned (start.getD p.tokenNext) l next).currentToken = l.kind := rfl
  refine ⟨.parserError (text "Parser error: " ++ text "terminal" ++ text " expected at '" ++
    start.getD p.tokenNext ++ text "'"),p.scanned (start.getD p.tokenNext) l next,?_,rfl⟩
  rw [getCell,Prog.bind_ok _ (scan_found p start l next found),Prog.bind_ok _ (Prog.get_run _),
    current,other]
  rfl

end

def Lexeme.isCell (l : Lexeme) : Bool := l.kind.isCell

/-- The sentinels once `cells` have been linked, behind `linked`, to a chain that
begins with `first`. -/
def Sentinels.chained (s : Sentinels) (first : Option Cell) (linked cells : List Cell) : Sentinels :=
  match first with
  | some _ => s
  | none => if cells = [] then s else {s with nullCellNext := linked ++ cells}

@[simp] theorem chained_nil (s : Sentinels) (first : Option Cell) (linked : List Cell) :
    s.chained first linked [] = s := by cases first <;> simp [Sentinels.chained]

theorem chained_cons (s : Sentinels) (first : Option Cell) (linked cells : List Cell) (c : Cell) :
    (s.chained first linked [c]).chained first (linked ++ [c]) cells =
      s.chained first linked (c::cells) := by
  cases first with
  | some _ => rfl
  | none => by_cases none_left : cells = [] <;> simp [Sentinels.chained,none_left]

theorem link_returns (first : Option Cell) (linked : List Cell) (c : Cell) (p : Parser) :
    Returns (link first linked c) p ()
      (fun q => q.tokenNext = p.tokenNext ∧ q.sentinels = p.sentinels.chained first linked [c]) := by
  cases first with
  | some _ => exact ⟨p,rfl,rfl,rfl⟩
  | none => exact ⟨_,rfl,rfl,by simp [Sentinels.chained]⟩

/-- The outcomes of the chain loop: it stops behind the cells, with one more token
consumed; or at the end of the text; or it fails, the cells being linked already. -/
structure ChainOutcome (first : Option Cell) (fuel : Nat) (linked : List Cell) (p : Parser)
    (ls : List Lexeme) (ending : Ending) (s : Sentinels) : Prop where
  before : ls.dropWhile Lexeme.isCell ≠ [] →
    Returns (chainLoop first fuel linked) p (linked ++ (ls.takeWhile Lexeme.isCell).map cellOf)
      (fun q => q.sentinels = s ∧ q.currentToken ≠ .noMore ∧
        tokens q.tokenStart = (ls.dropWhile Lexeme.isCell,ending))
  finished : ls.dropWhile Lexeme.isCell = [] → ending = .closed →
    Returns (chainLoop first fuel linked) p (linked ++ (ls.takeWhile Lexeme.isCell).map cellOf)
      (fun q => q.sentinels = s ∧ q.currentToken = .noMore ∧ tokens q.tokenNext = ([],.closed))
  failed : ls.dropWhile Lexeme.isCell = [] → ending ≠ .closed →
    Fails (chainLoop first fuel linked) p s

theorem chainLoop_outcome (first : Option Cell) (fuel : Nat) (linked : List Cell) (p : Parser)
    (ls : List Lexeme) (ending : Ending) (enough : p.tokenNext.length < fuel)
    (read : tokens p.tokenNext = (ls,ending)) :
    ChainOutcome first fuel linked p ls ending
      (p.sentinels.chained first linked ((ls.takeWhile Lexeme.isCell).map cellOf)) := by
  induction ls generalizing p fuel linked with
  | nil =>
    obtain ⟨fuel,rfl⟩ : ∃ k, fuel = k + 1 := ⟨fuel - 1,by omega⟩
    refine ⟨by simp,fun _ closed => ?_,fun _ early => ?_⟩
    · subst closed
      refine (getCell_end p none read).bind fun q holds => ?_
      exact ⟨q,by simp,by simpa using holds.2.1,holds.2.2.1,by rw [holds.1]; exact read⟩
    · simp only [List.takeWhile_nil,List.map_nil,chained_nil]
      rw [chainLoop]
      exact (getCell_fails p none false ending early read).bind _
  | cons l ls ih =>
    obtain ⟨fuel,rfl⟩ : ∃ k, fuel = k + 1 := ⟨fuel - 1,by omega⟩
    obtain ⟨next,found,rest,shorter⟩ := tokens_cons _ l ls ending read
    cases cell : l.isCell with
    | false =>
      refine ⟨fun _ => ?_,by simp [cell],by simp [cell]⟩
      refine (getCell_other p none l ls ending read cell).bind fun q holds => ?_
      refine ⟨q,by simp [cell],by simpa [cell] using holds.1.sentinels,holds.2.1,?_⟩
      rw [holds.2.2,List.dropWhile_cons_of_neg (by simp [cell])]
      exact read
    | true =>
      -- the cell is read and linked; the rest is the loop with one more cell behind it
      obtain ⟨q,cellRead,place,_,room⟩ := getCell_cell p none false l ls ending read cell
      obtain ⟨q',linkedOne,same,sentinels⟩ := link_returns first linked (cellOf l) q
      have unfolded : chainLoop first (fuel + 1) linked p =
          chainLoop first fuel (linked ++ [cellOf l]) q' := by
        rw [chainLoop,Prog.bind_ok _ cellRead]
        exact Prog.bind_ok _ linkedOne
      have rest' := ih fuel (linked ++ [cellOf l]) q' (by rw [same]; simp at room; omega)
        (by rw [same]; exact place.rest)
      rw [sentinels,place.sentinels,chained_cons] at rest'
      have taken : (l::ls).takeWhile Lexeme.isCell = l :: ls.takeWhile Lexeme.isCell :=
        List.takeWhile_cons_of_pos cell
      have dropped : (l::ls).dropWhile Lexeme.isCell = ls.dropWhile Lexeme.isCell :=
        List.dropWhile_cons_of_pos cell
      have moved (cs : List Cell) : linked ++ (cellOf l::cs) = linked ++ [cellOf l] ++ cs := by simp
      rw [taken,List.map_cons]
      refine ⟨fun stops => ?_,fun stops closed => ?_,fun stops early => ?_⟩
      · rw [dropped] at stops ⊢
        obtain ⟨last,ran,holds⟩ := rest'.before stops
        exact ⟨last,by rw [taken,List.map_cons,moved,unfolded,ran],holds⟩
      · rw [dropped] at stops
        obtain ⟨last,ran,holds⟩ := rest'.finished stops closed
        exact ⟨last,by rw [taken,List.map_cons,moved,unfolded,ran],holds⟩
      · rw [dropped] at stops
        obtain ⟨why,last,ran,holds⟩ := rest'.failed stops early
        exact ⟨why,last,by rw [unfolded,ran],holds⟩

/-- What `get_cell_chain` makes of a token list: the pointer it returns, the tokens it
leaves, and the cells it links behind the sentinel. -/
structure ChainParse where
  ptr : CellPtr
  rest : List Lexeme
  written : List Cell

def chainOf : List Lexeme → ChainParse
  | [] => ⟨.theNullCell,[],[]⟩
  | l::ls =>
    let cells := (ls.takeWhile Lexeme.isCell).map cellOf
    let rest := ls.dropWhile Lexeme.isCell
    if l.isCell then ⟨.chain (cellOf l) cells,rest,[]⟩ else ⟨.theNullCell,rest,cells⟩

theorem chainOf_cell (l : Lexeme) (ls : List Lexeme) (cell : l.isCell = true) :
    chainOf (l::ls) = ⟨.chain (cellOf l) ((ls.takeWhile Lexeme.isCell).map cellOf),
      ls.dropWhile Lexeme.isCell,[]⟩ := by simp [chainOf,cell]

theorem chainOf_other (l : Lexeme) (ls : List Lexeme) (other : l.isCell = false) :
    chainOf (l::ls) = ⟨.theNullCell,ls.dropWhile Lexeme.isCell,
      (ls.takeWhile Lexeme.isCell).map cellOf⟩ := by simp [chainOf,other]

/-- The end of `get_cell_chain`: one token is given back unless the text is over. -/
theorem getCellChain_closing (required : Bool) (start : Option Text) (first : Option Cell)
    (p q : Parser) (ls : List Lexeme) (ending : Ending)
    (ran : getCell required start p = (.ok first,q))
    (read : tokens q.tokenNext = (ls,ending)) :
    let cells := (ls.takeWhile Lexeme.isCell).map cellOf
    let rest := ls.dropWhile Lexeme.isCell
    let s := q.sentinels.chained first [] cells
    (rest ≠ [] ∨ ending = .closed →
      Returns (getCellChain required start) p (chainPtr first cells) (fun r => r.At rest ending s)) ∧
    (rest = [] → ending ≠ .closed → Fails (getCellChain required start) p s) := by
  intro cells rest s
  have outcome := chainLoop_outcome first _ [] q ls ending (Nat.lt_succ_self _) read
  have unfolded : getCellChain required start p = (do
      let linked ← chainLoop first (q.tokenNext.length + 1) []
      let p ← Prog.get
      if p.currentToken ≠ .noMore then rollback
      return chainPtr first linked : Parse CellPtr) q := by
    rw [getCellChain,Prog.bind_ok _ ran,Prog.bind_ok _ (Prog.get_run _)]
  refine ⟨fun going => ?_,fun stops early => ?_⟩
  · by_cases more : rest = []
    · have closed : ending = .closed := going.resolve_left (fun some_left => some_left more)
      obtain ⟨r,loop,sentinels,current,place⟩ := outcome.finished more closed
      refine ⟨r,?_,by rw [more,closed]; exact place,sentinels⟩
      rw [unfolded,Prog.bind_ok _ loop,Prog.bind_ok _ (Prog.get_run _),if_neg (by simp [current])]
      rfl
    · obtain ⟨r,loop,sentinels,current,place⟩ := outcome.before more
      let given : Parser := {r with
        tokenNext := r.tokenStart, tokenStart := r.oldStart, currentToken := r.oldToken}
      refine ⟨given,?_,place,sentinels⟩
      rw [unfolded,Prog.bind_ok _ loop,Prog.bind_ok _ (Prog.get_run _),if_pos current]
      rfl
  · obtain ⟨why,r,loop,sentinels⟩ := outcome.failed stops early
    exact ⟨why,r,by rw [unfolded,Prog.bind_error _ loop],sentinels⟩

theorem getCellChain_cell (required : Bool) (start : Option Text) (p : Parser) (l : Lexeme)
    (ls : List Lexeme) (ending : Ending) (read : tokens (start.getD p.tokenNext) = (l::ls,ending))
    (cell : l.isCell = true) :
    ((chainOf (l::ls)).rest ≠ [] ∨ ending = .closed → Returns (getCellChain required start) p
      (chainOf (l::ls)).ptr (fun q => q.At (chainOf (l::ls)).rest ending p.sentinels)) ∧
    ((chainOf (l::ls)).rest = [] → ending ≠ .closed →
      Fails (getCellChain required start) p p.sentinels) := by
  obtain ⟨q,ran,place,_,_⟩ := getCell_cell p start required l ls ending read cell
  rw [chainOf_cell l ls cell]
  have closing := getCellChain_closing required start (some (cellOf l)) p q ls ending ran place.rest
  rw [place.sentinels] at closing
  exact closing

theorem getCellChain_early (required : Bool) (start : Option Text) (p : Parser) (ending : Ending)
    (early : ending ≠ .closed) (read : tokens (start.getD p.tokenNext) = ([],ending)) :
    Fails (getCellChain required start) p p.sentinels :=
  (getCell_fails p start required ending early read).bind _

/-- A chain that does not begin with a cell loses its first token, and the cells after
it are linked behind the sentinel. -/
theorem getCellChain_optional (start : Option Text) (p : Parser) (ls : List Lexeme)
    (ending : Ending) (read : tokens (start.getD p.tokenNext) = (ls,ending))
    (begins : start = none ∨ start.getD p.tokenNext ≠ []) :
    ((chainOf ls).rest ≠ [] ∨ ending = .closed → Returns (getCellChain false start) p
      (chainOf ls).ptr
      (fun q => q.At (chainOf ls).rest ending (p.sentinels.chained none [] (chainOf ls).written))) ∧
    ((chainOf ls).rest = [] → ending ≠ .closed →
      Fails (getCellChain false start) p (p.sentinels.chained none [] (chainOf ls).written)) := by
  cases ls with
  | nil =>
    refine ⟨fun going => ?_,fun _ early => ?_⟩
    · have closed : ending = .closed := going.resolve_left (fun more => more rfl)
      subst closed
      have here : start = none := begins.resolve_right (fun more => more (tokens_closed _ read))
      subst here
      obtain ⟨q,ran,place,sentinels,_,_⟩ := getCell_end p none read
      have closing := getCellChain_closing false none none p q [] .closed ran
        (by rw [place]; exact read)
      simpa [sentinels,chainPtr,chainOf] using closing.1 (.inr rfl)
    · simpa [chainOf] using getCellChain_early false start p ending early read
  | cons l ls =>
    cases kind : l.isCell with
    | true =>
      have both := getCellChain_cell false start p l ls ending read kind
      rw [chainOf_cell l ls kind] at both ⊢
      simpa using both
    | false =>
      obtain ⟨q,ran,place,_,_⟩ := getCell_other p start l ls ending read kind
      rw [chainOf_other l ls kind]
      have closing := getCellChain_closing false start none p q ls ending ran place.rest
      rw [place.sentinels] at closing
      exact closing

theorem getCellChain_required (start : Option Text) (p : Parser) (l : Lexeme) (ls : List Lexeme)
    (ending : Ending) (read : tokens (start.getD p.tokenNext) = (l::ls,ending))
    (other : l.isCell = false) : Fails (getCellChain true start) p p.sentinels :=
  (getCell_required p start ls l ending read other).bind _

end ModNdb.Format
