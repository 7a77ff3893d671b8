import ModNdb.Format.ParserSpec

/-! The compile functions as functions of the token list. `compileLoop_parse`,
`compileMain_parse` and `compileRecord_parse` are the refinement: the hand-written
parser, with its one-token rollback, computes exactly these. -/
namespace ModNdb.Format
open Prog (Returns)

section
variable (p : Parser) (start : Option Text)

theorem getNode_other (f : OutputFormat) (l : Lexeme) (ls : List Lexeme) (ending : Ending)
    (read : tokens (start.getD p.tokenNext) = (l::ls,ending)) (other : l.kind ≠ .node) :
    Returns (getNode false f start) p .theNullNode (fun q => q.At ls ending p.sentinels) := by
  obtain ⟨next,found,rest,_⟩ := tokens_cons _ l ls ending read
  refine ⟨p.scanned (start.getD p.tokenNext) l next,?_,rest,rfl⟩
  have current : (p.scanned (start.getD p.tokenNext) l next).currentToken = l.kind := rfl
  rw [getNode,Prog.bind_ok _ (scan_found p start l next found),Prog.bind_ok _ (Prog.get_run _),
    current,if_neg other]
  rfl

theorem getNode_node (f : OutputFormat) (l : Lexeme) (ls : List Lexeme) (ending : Ending)
    (read : tokens (start.getD p.tokenNext) = (l::ls,ending)) (node : l.kind = .node) :
    (∀ id, f.symbol l.symbol = some id →
      Returns (getNode false f start) p (.node id) (fun q => q.At ls ending p.sentinels)) ∧
    (f.symbol l.symbol = none → Fails (getNode false f start) p p.sentinels) := by
  obtain ⟨next,found,rest,_⟩ := tokens_cons _ l ls ending read
  have current : (p.scanned (start.getD p.tokenNext) l next).currentToken = l.kind := rfl
  have named : (p.scanned (start.getD p.tokenNext) l next).nodeSymbol = l.symbol := by
    simp [Parser.scanned,node]
  refine ⟨fun id known => ⟨p.scanned (start.getD p.tokenNext) l next,?_,rest,rfl⟩,
    fun unknown => ⟨.parserError (text "Undefined symbol '" ++ l.symbol ++ text "'"),
      p.scanned (start.getD p.tokenNext) l next,?_,rfl⟩⟩
  · rw [getNode,Prog.bind_ok _ (scan_found p start l next found),
      Prog.bind_ok _ (Prog.get_run _),current,if_pos node,named,known]
    rfl
  · rw [getNode,Prog.bind_ok _ (scan_found p start l next found),
      Prog.bind_ok _ (Prog.get_run _),current,if_pos node,named,unknown]
    rfl

theorem getNode_end (f : OutputFormat) (read : tokens p.tokenNext = ([],.closed)) :
    Returns (getNode false f none) p .theNullNode (fun q => q.At [] .closed p.sentinels) := by
  obtain ⟨q,ran,place,sentinels,current,_⟩ := scan_end p none read
  refine ⟨q,?_,by rw [place]; exact read,sentinels⟩
  rw [getNode,Prog.bind_ok _ ran,Prog.bind_ok _ (Prog.get_run _),current]
  rfl

theorem getNode_unterminated (f : OutputFormat)
    (read : tokens (start.getD p.tokenNext) = ([],.unterminated)) :
    Fails (getNode false f start) p p.sentinels :=
  (scan_unterminated p start read).bind _

theorem getNode_stuck (f : OutputFormat) (read : tokens p.tokenNext = ([],.stuck)) :
    Returns (getNode false f none) p .theNullNode (fun q => q.At [] .stuck p.sentinels) := by
  obtain ⟨q,ran,place,current,_⟩ := scan_stuck p none read
  refine ⟨q,?_,place⟩
  rw [getNode,Prog.bind_ok _ ran,Prog.bind_ok _ (Prog.get_run _),current]
  rfl

theorem getString_plain (l : Lexeme) (ls : List Lexeme) (ending : Ending)
    (read : tokens (start.getD p.tokenNext) = (l::ls,ending)) (plain : l.kind = .plaintext) :
    Returns (getString false start) p (some l.text) (fun q => q.At ls ending p.sentinels) := by
  obtain ⟨next,found,rest,shorter⟩ := tokens_cons _ l ls ending read
  have current : (p.scanned (start.getD p.tokenNext) l next).currentToken = l.kind := rfl
  have copied : copyNodeText (p.scanned (start.getD p.tokenNext) l next) =
      (.ok l.text,p.scanned (start.getD p.tokenNext) l next) := by
    have room : (p.scanned (start.getD p.tokenNext) l next).tokenNext.length <
        (p.scanned (start.getD p.tokenNext) l next).tokenStart.length := shorter
    rw [copyNodeText,if_pos room,scanned_text p _ next l found]
  refine ⟨p.scanned (start.getD p.tokenNext) l next,?_,rest,rfl⟩
  rw [getString,Prog.bind_ok _ (scan_found p start l next found),Prog.bind_ok _ (Prog.get_run _),
    current,if_pos plain,Prog.bind_ok _ copied]
  rfl

theorem getString_other (l : Lexeme) (ls : List Lexeme) (ending : Ending)
    (read : tokens (start.getD p.tokenNext) = (l::ls,ending)) (other : l.kind ≠ .plaintext) :
    Returns (getString false start) p none
      (fun q => q.sentinels = p.sentinels ∧ tokens q.tokenStart = (l::ls,ending)) := by
  obtain ⟨next,found,_,_⟩ := tokens_cons _ l ls ending read
  have current : (p.scanned (start.getD p.tokenNext) l next).currentToken = l.kind := rfl
  refine ⟨p.scanned (start.getD p.tokenNext) l next,?_,rfl,read⟩
  rw [getString,Prog.bind_ok _ (scan_found p start l next found),Prog.bind_ok _ (Prog.get_run _),
    current,if_neg other]
  rfl

theorem getString_end (read : tokens p.tokenNext = ([],.closed)) :
    Returns (getString false none) p none
      (fun q => q.sentinels = p.sentinels ∧ tokens q.tokenStart = ([],.closed)) := by
  obtain ⟨q,ran,_,sentinels,current,begins⟩ := scan_end p none read
  refine ⟨q,?_,sentinels,by rw [begins]; exact read⟩
  rw [getString,Prog.bind_ok _ ran,Prog.bind_ok _ (Prog.get_run _),current]
  rfl

theorem getString_early (ending : Ending) (early : ending ≠ .closed)
    (read : tokens p.tokenNext = ([],ending)) : Fails (getString false none) p p.sentinels := by
  cases ending with
  | closed => contradiction
  | unterminated => exact (scan_unterminated p none read).bind _
  | stuck =>
    obtain ⟨q,ran,place,current,same⟩ := scan_stuck p none read
    obtain ⟨why,r,copied,sentinels⟩ := copyNodeText_stuck q same
    refine ⟨why,r,?_,sentinels.trans place.sentinels⟩
    rw [getString,Prog.bind_ok _ ran,Prog.bind_ok _ (Prog.get_run _),if_pos current]
    exact Prog.bind_error _ copied

theorem getEllipses_found (l : Lexeme) (ls : List Lexeme) (ending : Ending)
    (read : tokens p.tokenNext = (l::ls,ending)) :
    (l.kind = .ellipses →
      Returns (getEllipses true none) p true (fun q => q.At ls ending p.sentinels)) ∧
    (l.kind ≠ .ellipses → Fails (getEllipses true none) p p.sentinels) := by
  obtain ⟨next,found,rest,_⟩ := tokens_cons _ l ls ending read
  have current : (p.scanned (Option.getD none p.tokenNext) l next).currentToken = l.kind := rfl
  refine ⟨fun dots => ⟨p.scanned p.tokenNext l next,?_,rest,rfl⟩,
    fun other => ⟨.parserError (text "Parser error: " ++ text "ellipses" ++ text " expected at '" ++
      p.tokenNext ++ text "'"),p.scanned p.tokenNext l next,?_,rfl⟩⟩
  · rw [getEllipses,Prog.bind_ok _ (scan_found p none l next found),
      Prog.bind_ok _ (Prog.get_run _),current,if_pos dots]
    rfl
  · rw [getEllipses,Prog.bind_ok _ (scan_found p none l next found),
      Prog.bind_ok _ (Prog.get_run _),current,if_neg other]
    rfl

theorem getEllipses_over (ending : Ending) (read : tokens p.tokenNext = ([],ending)) :
    Fails (getEllipses true none) p p.sentinels := by
  cases ending with
  | unterminated => exact (scan_unterminated p none read).bind _
  | closed =>
    obtain ⟨q,ran,_,sentinels,current,_⟩ := scan_end p none read
    refine ⟨.parserError (text "Parser error: " ++ text "ellipses" ++ text " expected at '" ++
      q.tokenStart ++ text "'"),q,?_,sentinels⟩
    rw [getEllipses,Prog.bind_ok _ ran,Prog.bind_ok _ (Prog.get_run _),current]
    rfl
  | stuck =>
    obtain ⟨q,ran,place,current,_⟩ := scan_stuck p none read
    refine ⟨.parserError (text "Parser error: " ++ text "ellipses" ++ text " expected at '" ++
      q.tokenStart ++ text "'"),q,?_,place.sentinels⟩
    rw [getEllipses,Prog.bind_ok _ ran,Prog.bind_ok _ (Prog.get_run _),current]
    rfl

theorem theEnd_closed (read : tokens p.tokenNext = ([],.closed)) :
    Returns (theEnd true none) p true (fun q => q.sentinels = p.sentinels) := by
  obtain ⟨q,ran,_,sentinels,current,_⟩ := scan_end p none read
  refine ⟨q,?_,sentinels⟩
  rw [theEnd,Prog.bind_ok _ ran,Prog.bind_ok _ (Prog.get_run _),current]
  rfl

theorem theEnd_fails (ls : List Lexeme) (ending : Ending) (read : tokens p.tokenNext = (ls,ending))
    (more : ¬(ls = [] ∧ ending = .closed)) : Fails (theEnd true none) p p.sentinels := by
  have refused (q : Parser) (ran : scan none p = (.ok (),q)) (sentinels : q.sentinels = p.sentinels)
      (current : q.currentToken ≠ .noMore) : Fails (theEnd true none) p p.sentinels := by
    refine ⟨.parserError (text "Unexpected text at end of format."),q,?_,sentinels⟩
    rw [theEnd,Prog.bind_ok _ ran,Prog.bind_ok _ (Prog.get_run _),if_neg current]
    rfl
  cases ls with
  | cons l ls =>
    obtain ⟨next,found,_,_⟩ := tokens_cons _ l ls ending read
    exact refused _ (scan_found p none l next found) rfl (scanAt_kind _ _ _ found)
  | nil =>
    cases ending with
    | closed => simp at more
    | unterminated => exact (scan_unterminated p none read).bind _
    | stuck =>
      obtain ⟨q,ran,place,current,_⟩ := scan_stuck p none read
      exact refused q ran place.sentinels (by simp [current])

theorem getCell_required_end (read : tokens (start.getD p.tokenNext) = ([],.closed)) :
    Fails (getCell true start) p p.sentinels := by
  obtain ⟨q,ran,_,sentinels,current,_⟩ := scan_end p start read
  refine ⟨.parserError (text "Parser error: " ++ text "terminal" ++ text " expected at '" ++
    q.tokenStart ++ text "'"),q,?_,sentinels⟩
  rw [getCell,Prog.bind_ok _ ran,Prog.bind_ok _ (Prog.get_run _),current]
  rfl

end

/-- A parser function does what the parse over tokens says: it returns that value, or
fails, with those sentinels. -/
def Agrees {α : Type} (x : Parse α) (p : Parser) : Option α × Sentinels → Prop
  | (some a,s) => Returns x p a (fun q => q.sentinels = s)
  | (none,s) => Fails x p s

/-- `get_node`, which consumes the next token whatever it is. -/
def nodeOf (f : OutputFormat) (ls : List Lexeme) (ending : Ending) :
    Option (NodeRef × List Lexeme) :=
  match ls with
  | [] => if ending = .unterminated then none else some (.theNullNode,[])
  | l::ls =>
    if l.kind = .node then (f.symbol l.symbol).map (fun id => (.node id,ls))
    else some (.theNullNode,ls)

def sepOf : List Lexeme → Option Text × List Lexeme
  | [] => (none,[])
  | l::ls => if l.kind = .plaintext then (some l.text,ls) else (none,l::ls)

def endParse (begin : CellPtr) (core : NodeRef) (sep : Option Text) (ls : List Lexeme)
    (ending : Ending) (s : Sentinels) : Option LoopParts × Sentinels :=
  match ls with
  | [] => (none,s)
  | dots::rest =>
    if dots.kind = .ellipses then
      let last := chainOf rest
      (if last.rest = [] ∧ ending = .closed then some ⟨begin,core,sep,last.ptr⟩ else none,
        s.chained none [] last.written)
    else (none,s)

def tailParse (begin : CellPtr) (core : NodeRef) (ls : List Lexeme) (ending : Ending)
    (s : Sentinels) : Option LoopParts × Sentinels :=
  endParse begin core (sepOf ls).1 (sepOf ls).2 ending s

def loopParse (f : OutputFormat) (ls : List Lexeme) (ending : Ending) (s : Sentinels) :
    Option LoopParts × Sentinels :=
  let first := chainOf ls
  let s := s.chained none [] first.written
  match nodeOf f first.rest ending with
  | none => (none,s)
  | some (.theNullNode,rest) =>
    (if rest = [] ∧ ending = .closed then some ⟨first.ptr,.theNullNode,none,.theNullCell⟩
      else none,s)
  | some (.node id,rest) => tailParse first.ptr (.node id) rest ending s

/-- The single optional cell at either end of a `MainLoop`; in front a token that is no
cell is given back, at the end it is not. -/
def cellIn : List Lexeme → CellPtr
  | [] => .theNullCell
  | l::_ => if l.isCell then .chain (cellOf l) [] else .theNullCell

def behindCell : List Lexeme → List Lexeme
  | [] => []
  | l::ls => if l.isCell then ls else l::ls

def OutputFormat.mayBeCore (f : OutputFormat) : NodeRef → Bool
  | .theNullNode => true
  | .node id => f.isLoopNode id

def mainParse (f : OutputFormat) (ls : List Lexeme) (ending : Ending) : Option LoopParts :=
  match nodeOf f (behindCell ls) ending with
  | none => none
  | some (core,rest) =>
    if f.mayBeCore core ∧ rest.tail = [] ∧ ending = .closed then
      some ⟨cellIn ls,core,none,cellIn rest⟩
    else none

def chainParse (ls : List Lexeme) (ending : Ending) : Option CellPtr :=
  if ls.head?.any Lexeme.isCell ∧ ((chainOf ls).rest ≠ [] ∨ ending = .closed) then
    some (chainOf ls).ptr
  else none

def Node.parse (f : OutputFormat) (n : Node) (s : Sentinels) : Option Compiled × Sentinels :=
  let (ls,ending) := tokens n.unresolved
  match n.kind with
  | .mainLoop => ((mainParse f ls ending).map .loop,s)
  | .scanLoop | .rowLoop => ((loopParse f ls ending s).1.map .loop,(loopParse f ls ending s).2)
  | .recAttr =>
    (do
      let fmt ← chainParse ls ending
      match n.unresolved2 with
      | none => return .record fmt fmt
      | some source =>
        let nullFmt ← chainParse (tokens source).1 (tokens source).2
        return .record fmt nullFmt,s)

theorem getCellChain_parse (p : Parser) (source : Text) :
    Agrees (getCellChain true (some source)) p
      (chainParse (tokens source).1 (tokens source).2,p.sentinels) := by
  rcases read : tokens source with ⟨ls,ending⟩
  cases ls with
  | nil =>
    have none_left : chainParse [] ending = none := by simp [chainParse]
    rw [none_left]
    by_cases closed : ending = .closed
    · subst closed
      exact (getCell_required_end p (some source) read).bind _
    · exact getCellChain_early true (some source) p ending closed read
  | cons l ls =>
    cases cell : l.isCell with
    | false =>
      have refused : chainParse (l::ls) ending = none := by simp [chainParse,cell]
      rw [refused]
      exact getCellChain_required (some source) p l ls ending read cell
    | true =>
      have both := getCellChain_cell true (some source) p l ls ending read cell
      by_cases going : (chainOf (l::ls)).rest ≠ [] ∨ ending = .closed
      · have taken : chainParse (l::ls) ending = some (chainOf (l::ls)).ptr := by
          simp only [chainParse,List.head?_cons,Option.any_some,cell]
          exact if_pos ⟨trivial,going⟩
        rw [taken]
        obtain ⟨q,ran,place⟩ := both.1 going
        exact ⟨q,ran,place.sentinels⟩
      · have refused : chainParse (l::ls) ending = none := if_neg (fun h => going h.2)
        rw [refused]
        rw [not_or,not_not] at going
        exact both.2 going.1 going.2


theorem getNode_parse (p : Parser) (f : OutputFormat) (ls : List Lexeme) (ending : Ending)
    (read : tokens p.tokenNext = (ls,ending)) :
    (∀ core rest, nodeOf f ls ending = some (core,rest) →
      Returns (getNode false f none) p core (fun q => q.At rest ending p.sentinels)) ∧
    (nodeOf f ls ending = none → Fails (getNode false f none) p p.sentinels) := by
  cases ls with
  | nil =>
    cases ending with
    | unterminated =>
      exact ⟨by simp [nodeOf],fun _ => getNode_unterminated p none f read⟩
    | closed =>
      refine ⟨fun core rest found => ?_,by simp [nodeOf]⟩
      obtain ⟨rfl,rfl⟩ : NodeRef.theNullNode = core ∧ [] = rest := by simpa [nodeOf] using found
      exact getNode_end p f read
    | stuck =>
      refine ⟨fun core rest found => ?_,by simp [nodeOf]⟩
      obtain ⟨rfl,rfl⟩ : NodeRef.theNullNode = core ∧ [] = rest := by simpa [nodeOf] using found
      exact getNode_stuck p f read
  | cons l ls =>
    by_cases node : l.kind = .node
    · have both := getNode_node p none f l ls ending read node
      cases known : f.symbol l.symbol with
      | none => exact ⟨by simp [nodeOf,node,known],fun _ => both.2 known⟩
      | some id =>
        refine ⟨fun core rest found => ?_,by simp [nodeOf,node,known]⟩
        obtain ⟨rfl,rfl⟩ : NodeRef.node id = core ∧ ls = rest := by
          simpa [nodeOf,node,known] using found
        exact both.1 id known
    · refine ⟨fun core rest found => ?_,by simp [nodeOf,node]⟩
      obtain ⟨rfl,rfl⟩ : NodeRef.theNullNode = core ∧ ls = rest := by
        simpa [nodeOf,node] using found
      exact getNode_other p none f l ls ending read node

/-- `getEllipses` and the end part, once the separator has been read or given back. -/
theorem ending_parse (p : Parser) (begin : CellPtr) (core : NodeRef) (sep : Option Text)
    (dots : List Lexeme) (ending : Ending) (read : tokens p.tokenNext = (dots,ending)) :
    Agrees (do
      let _ ← getEllipses true none
      let end_ ← getCellChain false none
      let _ ← theEnd true none
      return ⟨begin,core,sep,end_⟩) p (endParse begin core sep dots ending p.sentinels) := by
  cases dots with
  | nil => exact (getEllipses_over p ending read).bind _
  | cons l rest =>
    have found := getEllipses_found p l rest ending read
    by_cases kind : l.kind = .ellipses
    · simp only [endParse,if_pos kind]
      obtain ⟨q,ran,place⟩ := found.1 kind
      have chain := getCellChain_optional none q rest ending place.rest (.inl rfl)
      rw [place.sentinels] at chain
      by_cases going : (chainOf rest).rest ≠ [] ∨ ending = .closed
      · obtain ⟨r,ranChain,placed⟩ := chain.1 going
        by_cases ended : (chainOf rest).rest = [] ∧ ending = .closed
        · rw [if_pos ended]
          obtain ⟨last,ranEnd,sentinels⟩ := theEnd_closed r (by rw [placed.rest,ended.1,ended.2])
          refine ⟨last,?_,sentinels.trans placed.sentinels⟩
          rw [Prog.bind_ok _ ran,Prog.bind_ok _ ranChain,Prog.bind_ok _ ranEnd]
          rfl
        · rw [if_neg ended]
          obtain ⟨why,last,ranEnd,sentinels⟩ := theEnd_fails r _ ending placed.rest ended
          refine ⟨why,last,?_,sentinels.trans placed.sentinels⟩
          rw [Prog.bind_ok _ ran,Prog.bind_ok _ ranChain,Prog.bind_error _ ranEnd]
      · have ended : ¬((chainOf rest).rest = [] ∧ ending = .closed) :=
          fun both => going (.inr both.2)
        rw [if_neg ended]
        rw [not_or,not_not] at going
        obtain ⟨why,last,ranChain,sentinels⟩ := chain.2 going.1 going.2
        refine ⟨why,last,?_,sentinels⟩
        rw [Prog.bind_ok _ ran,Prog.bind_error _ ranChain]
    · simp only [endParse,if_neg kind]
      exact (found.2 kind).bind _

theorem tail_parse (p : Parser) (begin : CellPtr) (core : NodeRef) (ls : List Lexeme)
    (ending : Ending) (read : tokens p.tokenNext = (ls,ending)) :
    Agrees (do
      let sep ← getString false none
      if sep = none then rollback
      let _ ← getEllipses true none
      let end_ ← getCellChain false none
      let _ ← theEnd true none
      return ⟨begin,core,sep,end_⟩) p (tailParse begin core ls ending p.sentinels) := by
  -- a text that is over makes `getString` report nothing; the rollback changes nothing then
  have given (q : Parser) (left : List Lexeme) (same : q.sentinels = p.sentinels)
      (ran : getString false none p = (.ok none,q)) (back : tokens q.tokenStart = (left,ending))
      (sep : sepOf ls = (none,left)) :
      Agrees (do
        let sep ← getString false none
        if sep = none then rollback
        let _ ← getEllipses true none
        let end_ ← getCellChain false none
        let _ ← theEnd true none
        return ⟨begin,core,sep,end_⟩) p (tailParse begin core ls ending p.sentinels) := by
    let r : Parser := {q with
      tokenNext := q.tokenStart, tokenStart := q.oldStart, currentToken := q.oldToken}
    have rest := ending_parse r begin core none left ending back
    have sentinels : r.sentinels = p.sentinels := same
    rw [sentinels] at rest
    rw [tailParse,sep]
    have moved : (do
        let sep ← getString false none
        if sep = none then rollback
        let _ ← getEllipses true none
        let end_ ← getCellChain false none
        let _ ← theEnd true none
        return ⟨begin,core,sep,end_⟩ : Parse LoopParts) p = (do
        let _ ← getEllipses true none
        let end_ ← getCellChain false none
        let _ ← theEnd true none
        return ⟨begin,core,none,end_⟩ : Parse LoopParts) r := by
      rw [Prog.bind_ok _ ran]
      rfl
    unfold Agrees Returns Fails Prog.Fails at rest ⊢
    rw [moved]
    exact rest
  cases ls with
  | nil =>
    by_cases closed : ending = .closed
    · subst closed
      obtain ⟨q,ran,same,back⟩ := getString_end p read
      exact given q [] same ran back rfl
    · exact (getString_early p ending closed read).bind _
  | cons l ls =>
    by_cases plain : l.kind = .plaintext
    · obtain ⟨q,ran,place⟩ := getString_plain p none l ls ending read plain
      have sep : sepOf (l::ls) = (some l.text,ls) := by simp [sepOf,plain]
      have rest := ending_parse q begin core (some l.text) ls ending place.rest
      rw [place.sentinels] at rest
      rw [tailParse,sep]
      unfold Agrees Returns Fails Prog.Fails at rest ⊢
      rw [Prog.bind_ok _ ran]
      exact rest
    · obtain ⟨q,ran,same,back⟩ := getString_other p none l ls ending read plain
      exact given q (l::ls) same ran back (by simp [sepOf,plain])

theorem compileLoop_parse (f : OutputFormat) (source : Text) (some_text : source ≠ [])
    (p : Parser) : Agrees (compileLoop f source) p
      (loopParse f (tokens source).1 (tokens source).2 p.sentinels) := by
  rcases read : tokens source with ⟨ls,ending⟩
  have chain := getCellChain_optional (some source) p ls ending read (.inr some_text)
  by_cases going : (chainOf ls).rest ≠ [] ∨ ending = .closed
  · obtain ⟨q,ran,place⟩ := chain.1 going
    have node := getNode_parse q f _ ending place.rest
    simp only [loopParse]
    cases found : nodeOf f (chainOf ls).rest ending with
    | none =>
      obtain ⟨why,r,ranNode,same⟩ := node.2 found
      refine ⟨why,r,?_,same.trans place.sentinels⟩
      rw [compileLoop,Prog.bind_ok _ ran,Prog.bind_error _ ranNode]
    | some pair =>
      obtain ⟨core,rest⟩ := pair
      obtain ⟨r,ranNode,placed⟩ := node.1 core rest found
      rw [place.sentinels] at placed
      cases core with
      | theNullNode =>
        by_cases ended : rest = [] ∧ ending = .closed
        · simp only [if_pos ended]
          obtain ⟨last,ranEnd,same⟩ := theEnd_closed r (by rw [placed.rest,ended.1,ended.2])
          refine ⟨last,?_,same.trans placed.sentinels⟩
          rw [compileLoop,Prog.bind_ok _ ran,Prog.bind_ok _ ranNode,if_pos rfl,
            Prog.bind_ok _ ranEnd]
          rfl
        · simp only [if_neg ended]
          obtain ⟨why,last,ranEnd,same⟩ := theEnd_fails r rest ending placed.rest ended
          refine ⟨why,last,?_,same.trans placed.sentinels⟩
          rw [compileLoop,Prog.bind_ok _ ran,Prog.bind_ok _ ranNode,if_pos rfl,
            Prog.bind_error _ ranEnd]
      | node id =>
        have tail := tail_parse r (chainOf ls).ptr (.node id) rest ending placed.rest
        rw [placed.sentinels] at tail
        unfold Agrees Returns Fails Prog.Fails at tail ⊢
        rw [compileLoop,Prog.bind_ok _ ran,Prog.bind_ok _ ranNode,if_neg (by simp)]
        exact tail
  · rw [not_or,not_not] at going
    obtain ⟨why,q,ran,same⟩ := chain.2 going.1 going.2
    have refused : (loopParse f ls ending p.sentinels) =
        (none,p.sentinels.chained none [] (chainOf ls).written) := by
      simp only [loopParse,going.1,nodeOf]
      split_ifs <;> simp [going.2]
    rw [refused]
    exact ⟨why,q,by rw [compileLoop,Prog.bind_error _ ran],same⟩

/-- The optional cell in front of a `MainLoop`'s core. -/
theorem frontCell_parse (p : Parser) (source : Text) (some_text : source ≠ []) (ls : List Lexeme)
    (ending : Ending) (read : tokens source = (ls,ending)) (going : ls ≠ [] ∨ ending = .closed) :
    ∃ first q r, getCell false (some source) p = (.ok first,q) ∧
      (if first = none then rollback else pure () : Parse Unit) q = (.ok (),r) ∧
      chainPtr first [] = cellIn ls ∧ r.At (behindCell ls) ending p.sentinels := by
  cases ls with
  | nil => exact absurd (tokens_closed source (by rw [read,going.resolve_left (· rfl)])) some_text
  | cons l ls =>
    cases cell : l.isCell with
    | true =>
      obtain ⟨q,ran,place,_,_⟩ := getCell_cell p (some source) false l ls ending read cell
      exact ⟨_,q,q,ran,rfl,by simp [chainPtr,cellIn,cell],by simpa [behindCell,cell] using place⟩
    | false =>
      obtain ⟨q,ran,place,_,back⟩ := getCell_other p (some source) l ls ending read cell
      refine ⟨none,q,_,ran,rfl,by simp [chainPtr,cellIn,cell],?_,place.sentinels⟩
      simp only [behindCell,cell]
      exact back ▸ read

/-- The optional cell at its end, and the check that nothing follows. -/
theorem backCell_parse (p : Parser) (ls : List Lexeme) (ending : Ending)
    (read : tokens p.tokenNext = (ls,ending)) :
    (ls.tail = [] ∧ ending = .closed → ∃ last q r, getCell false none p = (.ok last,q) ∧
      theEnd true none q = (.ok true,r) ∧ chainPtr last [] = cellIn ls ∧
      r.sentinels = p.sentinels) ∧
    (¬(ls.tail = [] ∧ ending = .closed) →
      Fails (getCell false none) p p.sentinels ∨
      ∃ last q, getCell false none p = (.ok last,q) ∧ Fails (theEnd true none) q p.sentinels) := by
  have step (l : Lexeme) (rest : List Lexeme) (same : ls = l::rest) :
      ∃ last q, getCell false none p = (.ok last,q) ∧ q.At rest ending p.sentinels ∧
        chainPtr last [] = cellIn ls := by
    subst same
    cases cell : l.isCell with
    | true =>
      obtain ⟨q,ran,place,_,_⟩ := getCell_cell p none false l rest ending read cell
      exact ⟨_,q,ran,place,by simp [chainPtr,cellIn,cell]⟩
    | false =>
      obtain ⟨q,ran,place,_,_⟩ := getCell_other p none l rest ending read cell
      exact ⟨_,q,ran,place,by simp [chainPtr,cellIn,cell]⟩
  refine ⟨fun ended => ?_,fun more => ?_⟩
  · obtain ⟨nothing,rfl⟩ := ended
    cases ls with
    | nil =>
      obtain ⟨q,ran,place,same,_⟩ := getCell_end p none read
      obtain ⟨r,ranEnd,sentinels⟩ := theEnd_closed q (by rw [place,read])
      exact ⟨none,q,r,ran,ranEnd,rfl,sentinels.trans same⟩
    | cons l rest =>
      obtain ⟨last,q,ran,place,ptr⟩ := step l rest rfl
      obtain ⟨r,ranEnd,sentinels⟩ := theEnd_closed q (by rw [place.rest]; simpa using nothing)
      exact ⟨last,q,r,ran,ranEnd,ptr,sentinels.trans place.sentinels⟩
  · cases ls with
    | nil => exact .inl (getCell_fails p none false ending (fun closed => more ⟨rfl,closed⟩) read)
    | cons l rest =>
      obtain ⟨last,q,ran,place,_⟩ := step l rest rfl
      have refused := theEnd_fails q rest ending place.rest more
      rw [place.sentinels] at refused
      exact .inr ⟨last,q,ran,refused⟩

/-- What a `MainLoop` does with its core, and behind it. -/
def backOf (f : OutputFormat) (begin : CellPtr) (core : NodeRef) : Parse LoopParts :=
  if f.mayBeCore core then do
    let end_ ← getCell false none
    let _ ← theEnd true none
    return ⟨begin,core,none,chainPtr end_ []⟩
  else Prog.fail (.parserError
    (text "The core of a Format object must be a Row or Scan object."))

theorem compileMain_eq (f : OutputFormat) (source : Text) : compileMain f source = (do
    let begin ← getCell false (some source)
    if begin = none then rollback
    let core ← getNode false f none
    backOf f (chainPtr begin []) core) := by
  unfold compileMain backOf
  congr 1
  funext begin
  dsimp only
  split
  on_goal 1 => refine congrArg (rollback >>= ·) (funext fun _ => ?_)
  all_goals
    refine congrArg (getNode false f none >>= ·) (funext fun core => ?_)
    cases core with
    | theNullNode => exact (if_pos rfl).symm
    | node id =>
      dsimp only
      by_cases allowed : f.isLoopNode id = true
      · rw [if_pos allowed]
        exact (if_pos allowed).symm
      · rw [if_neg allowed]
        exact (if_neg allowed).symm

/-- What a `MainLoop` does once its first cell is read, or given back. -/
theorem compileMain_front (f : OutputFormat) (source : Text) (p : Parser) (first : Option Cell)
    (q r : Parser) (ran : getCell false (some source) p = (.ok first,q))
    (given : (if first = none then rollback else pure () : Parse Unit) q = (.ok (),r)) :
    compileMain f source p = (getNode false f none >>= backOf f (chainPtr first [])) r := by
  rw [compileMain_eq,Prog.bind_ok _ ran]
  cases first with
  | none =>
    rw [if_pos rfl] at given ⊢
    exact Prog.bind_ok _ given
  | some c =>
    rw [if_neg (by simp)] at given ⊢
    exact congrArg _ (Prod.mk.inj given).2

theorem back_parse (f : OutputFormat) (begin : CellPtr) (core : NodeRef) (p : Parser)
    (ls : List Lexeme) (ending : Ending) (read : tokens p.tokenNext = (ls,ending)) :
    Agrees (backOf f begin core) p
      (if f.mayBeCore core ∧ ls.tail = [] ∧ ending = .closed then
        some ⟨begin,core,none,cellIn ls⟩ else none,p.sentinels) := by
  have back := backCell_parse p ls ending read
  unfold backOf
  by_cases allowed : f.mayBeCore core = true
  · rw [if_pos allowed]
    by_cases ended : ls.tail = [] ∧ ending = .closed
    · obtain ⟨last,q,r,ranCell,ranEnd,ptr,same⟩ := back.1 ended
      rw [if_pos ⟨allowed,ended⟩,← ptr]
      exact ⟨r,by rw [Prog.bind_ok _ ranCell,Prog.bind_ok _ ranEnd]; rfl,same⟩
    · rw [if_neg fun both => ended both.2]
      obtain refused | ⟨last,q,ranCell,why,r,ranEnd,same⟩ := back.2 ended
      · exact refused.bind _
      · exact ⟨why,r,by rw [Prog.bind_ok _ ranCell,Prog.bind_error _ ranEnd],same⟩
  · rw [if_neg allowed,if_neg fun both => allowed both.1]
    exact ⟨_,p,rfl,rfl⟩

theorem Agrees.of_eq {α : Type} {x y : Parse α} {p q : Parser} {result : Option α × Sentinels}
    (same : x p = y q) (agrees : Agrees y q result) : Agrees x p result := by
  unfold Agrees Returns Fails Prog.Fails at *
  rwa [same]

theorem compileMain_parse (f : OutputFormat) (source : Text) (some_text : source ≠ [])
    (p : Parser) : Agrees (compileMain f source) p
      (mainParse f (tokens source).1 (tokens source).2,p.sentinels) := by
  rcases read : tokens source with ⟨ls,ending⟩
  by_cases going : ls ≠ [] ∨ ending = .closed
  · obtain ⟨first,q,r,ran,given,ptr,place⟩ :=
      frontCell_parse p source some_text ls ending read going
    refine .of_eq (compileMain_front f source p first q r ran given) ?_
    have node := getNode_parse r f (behindCell ls) ending place.rest
    rw [place.sentinels] at node
    unfold mainParse
    cases found : nodeOf f (behindCell ls) ending with
    | none => exact (node.2 found).bind _
    | some pair =>
      obtain ⟨core,rest⟩ := pair
      obtain ⟨q',ranNode,placed⟩ := node.1 core rest found
      have back := back_parse f (chainPtr first []) core q' rest ending placed.rest
      rw [placed.sentinels,ptr] at back
      rw [ptr]
      exact .of_eq (Prog.bind_ok _ ranNode) back
  · rw [not_or,not_not] at going
    obtain ⟨rfl,early⟩ := going
    have refused : mainParse f [] ending = none := by
      simp only [mainParse,behindCell,nodeOf]
      split_ifs <;> simp [early]
    rw [refused]
    exact (getCell_fails p (some source) false ending early read).bind _

theorem compileRecord_parse (source : Text) (source2 : Option Text) (p : Parser) :
    Agrees (compileRecord source source2) p
      (do
        let fmt ← chainParse (tokens source).1 (tokens source).2
        match source2 with
        | none => return (fmt,fmt)
        | some null =>
          let nullFmt ← chainParse (tokens null).1 (tokens null).2
          return (fmt,nullFmt),p.sentinels) := by
  have first := getCellChain_parse p source
  cases parsed : chainParse (tokens source).1 (tokens source).2 with
  | none =>
    rw [parsed] at first
    exact first.bind _
  | some fmt =>
    rw [parsed] at first
    obtain ⟨q,ran,same⟩ := first
    cases source2 with
    | none => exact ⟨q,by rw [compileRecord,Prog.bind_ok _ ran]; rfl,same⟩
    | some null =>
      have second := getCellChain_parse q null
      rw [show q.sentinels = p.sentinels from same] at second
      cases parsedNull : chainParse (tokens null).1 (tokens null).2 with
      | none =>
        rw [parsedNull] at second
        obtain ⟨why,r,ranNull,last⟩ := second
        simp only [parsedNull]
        refine ⟨why,r,?_,last⟩
        rw [compileRecord,Prog.bind_ok _ ran]
        exact Prog.bind_error _ ranNull
      | some nullFmt =>
        rw [parsedNull] at second
        obtain ⟨r,ranNull,last⟩ := second
        simp only [parsedNull]
        refine ⟨r,?_,last⟩
        rw [compileRecord,Prog.bind_ok _ ran]
        exact Prog.bind_ok _ ranNull

theorem Agrees.map {α β : Type} {x : Parse α} {p : Parser} {out : Option α × Sentinels}
    (agrees : Agrees x p out) (g : α → β) :
    Agrees (do return g (← x)) p (out.1.map g,out.2) := by
  obtain ⟨a,s⟩ := out
  cases a with
  | none => exact agrees.bind _
  | some a =>
    obtain ⟨q,ran,same⟩ := agrees
    exact ⟨q,by rw [Prog.bind_ok _ ran]; rfl,same⟩

/-- Node by node, the compiler is the parse over tokens. -/
theorem compileNode_parse (f : OutputFormat) (n : Node) (some_text : n.unresolved ≠ [])
    (p : Parser) : Agrees (n.compile f) p (n.parse f p.sentinels) := by
  unfold Node.compile Node.parse
  cases n.kind with
  | mainLoop => exact (compileMain_parse f _ some_text p).map _
  | scanLoop => exact (compileLoop_parse f _ some_text p).map _
  | rowLoop => exact (compileLoop_parse f _ some_text p).map _
  | recAttr =>
    have agrees := (compileRecord_parse n.unresolved n.unresolved2 p).map
      (fun pair => Compiled.record pair.1 pair.2)
    convert agrees using 2
    cases chainParse (tokens n.unresolved).1 (tokens n.unresolved).2 with
    | none => rfl
    | some fmt =>
      cases n.unresolved2 with
      | none => rfl
      | some null =>
        dsimp only [Option.bind_eq_bind,Option.bind_some]
        cases chainParse (tokens null).1 (tokens null).2 <;> rfl

theorem Agrees.accepted {α : Type} {x : Parse α} {p next : Parser} {a : α}
    {out : Option α × Sentinels} (agrees : Agrees x p out) (ran : x p = (.ok a,next)) :
    out = (some a,next.sentinels) := by
  obtain ⟨value,s⟩ := out
  cases value with
  | none =>
    obtain ⟨why,q,ran',_⟩ := agrees
    rw [ran] at ran'
    cases (Prod.mk.inj ran').1
  | some b =>
    obtain ⟨q,ran',same⟩ := agrees
    rw [ran] at ran'
    obtain ⟨value,rfl⟩ := Prod.mk.inj ran'
    obtain rfl := Except.ok.inj value
    exact Prod.ext rfl same.symm

theorem Agrees.sentinels {α : Type} {x : Parse α} {p : Parser} {out : Option α × Sentinels}
    (agrees : Agrees x p out) : (x p).2.sentinels = out.2 := by
  obtain ⟨value,s⟩ := out
  cases value with
  | none =>
    obtain ⟨why,q,ran,same⟩ := agrees
    rw [ran,same]
  | some a =>
    obtain ⟨q,ran,same⟩ := agrees
    rw [ran]
    exact same

theorem loopParse_value (f : OutputFormat) (ls : List Lexeme) (ending : Ending) (s t : Sentinels) :
    (loopParse f ls ending s).1 = (loopParse f ls ending t).1 := by
  simp only [loopParse]
  cases nodeOf f (chainOf ls).rest ending with
  | none => rfl
  | some pair =>
    obtain ⟨core,rest⟩ := pair
    cases core with
    | theNullNode => rfl
    | node id =>
      simp only [tailParse,endParse]
      cases (sepOf rest).2 with
      | nil => rfl
      | cons dots last =>
        dsimp only
        split_ifs <;> rfl

/-- What a node is compiled to does not depend on the parser it is compiled with. -/
theorem parse_value (f : OutputFormat) (n : Node) (s t : Sentinels) :
    (n.parse f s).1 = (n.parse f t).1 := by
  unfold Node.parse
  cases n.kind with
  | mainLoop => rfl
  | recAttr => rfl
  | scanLoop => simp only [loopParse_value f _ _ s t]
  | rowLoop => simp only [loopParse_value f _ _ s t]

def OutputFormat.HasTexts (f : OutputFormat) : Prop := ∀ n ∈ f.nodes, n.unresolved ≠ []

theorem setCompiled_texts (f : OutputFormat) (id : Nat) (c : Compiled) (texts : f.HasTexts) :
    (f.setCompiled id c).HasTexts := by
  intro n inside
  obtain ⟨i,bound,rfl⟩ := List.getElem_of_mem inside
  have room : i < f.nodes.length := by simpa [OutputFormat.setCompiled] using bound
  have old := texts f.nodes[i] (List.getElem_mem room)
  simp only [OutputFormat.setCompiled,List.getElem_modify]
  split_ifs <;> exact old

def parseAll : List Nat → OutputFormat → Option OutputFormat
  | [], f => some f
  | id::ids, f =>
    match f.nodes[id]? with
    | none => parseAll ids f
    | some n => (n.parse f .initial).1.bind fun c => parseAll ids (f.setCompiled id c)

theorem compileSymbols_accepted (ids : List Nat) (f g : OutputFormat) (p : Parser)
    (texts : f.HasTexts) :
    (compileSymbols ids f p).1 = .accepted g ↔ parseAll ids f = some g := by
  induction ids generalizing f p with
  | nil => simp [compileSymbols,parseAll]
  | cons id ids ih =>
    cases found : f.nodes[id]? with
    | none =>
      simp only [compileSymbols,parseAll,found]
      exact ih f p texts
    | some n =>
      have agrees := compileNode_parse f n (texts n (List.mem_of_getElem? found)) p
      have value := parse_value f n p.sentinels .initial
      rcases parsed : n.parse f p.sentinels with ⟨result,s⟩
      rw [parsed] at agrees value
      simp only [compileSymbols,parseAll,found,← value]
      cases result with
      | none =>
        obtain ⟨why,next,ran,_⟩ := agrees
        cases why <;> simp [ran]
      | some c =>
        obtain ⟨next,ran,_⟩ := agrees
        simp only [ran,Option.bind_some]
        exact ih _ next (setCompiled_texts f id c texts)

/-- Which formats are accepted, and what they become, depends on their texts alone. -/
theorem compile_accepted_iff (f g : OutputFormat) (p : Parser) (texts : f.HasTexts) :
    (f.compile p).1 = .accepted g ↔ parseAll f.symbols f = some g :=
  compileSymbols_accepted f.symbols f g p texts

end ModNdb.Format
