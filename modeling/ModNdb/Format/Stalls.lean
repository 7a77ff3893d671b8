import ModNdb.Format.TokenParse

/-! Where the compiler aborts the server: `scan` reports a plaintext token of no characters where
exactly two dots begin, and `copy_node_text` asserts that there are some. -/
namespace ModNdb.Format
open Prog (Returns)

def TwoDots (t : Text) : Prop :=
  ∃ rest, t = code '.' :: code '.' :: rest ∧ rest.head? ≠ some (code '.')

def Errs {α : Type} (x : Parse α) (p : Parser) : Prop := ∃ m q, x p = (.error (.parserError m),q)

def Asserts {α : Type} (x : Parse α) (p : Parser) : Prop := ∃ q, x p = (.error .assertion,q)

/-- What a parser function comes to that wants a token where there is none. -/
def Faults {α : Type} (ending : Ending) (x : Parse α) (p : Parser) : Prop :=
  match ending with
  | .stuck => Asserts x p
  | _ => Errs x p

section
variable {α β : Type} {x : Parse α} {p : Parser}

theorem Errs.bind (errs : Errs x p) (f : α → Parse β) : Errs (x >>= f) p := by
  obtain ⟨m,q,ran⟩ := errs
  exact ⟨m,q,Prog.bind_error f ran⟩

theorem Asserts.bind (asserts : Asserts x p) (f : α → Parse β) : Asserts (x >>= f) p := by
  obtain ⟨q,ran⟩ := asserts
  exact ⟨q,Prog.bind_error f ran⟩

theorem Faults.bind {ending : Ending} (faults : Faults ending x p) (f : α → Parse β) :
    Faults ending (x >>= f) p := by
  cases ending with
  | closed => exact Errs.bind faults f
  | unterminated => exact Errs.bind faults f
  | stuck => exact Asserts.bind faults f

/-- Whether a run fails an assertion; else it returns or ends with a message. -/
structure Verdict (stalls : Prop) (x : Parse α) (p : Parser) : Prop where
  asserts : stalls → Asserts x p
  returns : ¬stalls → (∃ a q, x p = (.ok a,q)) ∨ Errs x p

theorem Verdict.errs {stalls : Prop} (errs : Errs x p) (never : ¬stalls) : Verdict stalls x p :=
  ⟨fun here => absurd here never,fun _ => .inr errs⟩

theorem Verdict.ok {stalls : Prop} {a : α} {q : Parser} (ran : x p = (.ok a,q)) (never : ¬stalls) :
    Verdict stalls x p :=
  ⟨fun here => absurd here never,fun _ => .inl ⟨a,q,ran⟩⟩

theorem Verdict.faults {stalls : Prop} {ending : Ending} (faults : Faults ending x p)
    (stuck : ending = .stuck ↔ stalls) : Verdict stalls x p := by
  cases ending with
  | closed => exact .errs faults fun here => absurd (stuck.mpr here) (by decide)
  | unterminated => exact .errs faults fun here => absurd (stuck.mpr here) (by decide)
  | stuck => exact ⟨fun _ => faults,fun never => absurd (stuck.mp rfl) never⟩

theorem Verdict.of_eq {stalls : Prop} {y : Parse α} {q : Parser} (same : x p = y q)
    (verdict : Verdict stalls y q) : Verdict stalls x p :=
  ⟨fun here => by
      obtain ⟨r,ran⟩ := verdict.asserts here
      exact ⟨r,same.trans ran⟩,
    fun never => by
      rcases verdict.returns never with ⟨a,r,ran⟩ | ⟨m,r,ran⟩
      · exact .inl ⟨a,r,same.trans ran⟩
      · exact .inr ⟨m,r,same.trans ran⟩⟩

theorem Verdict.step {stalls : Prop} {a : α} {q : Parser} {f : α → Parse β}
    (ran : x p = (.ok a,q)) (rest : Verdict stalls (f a) q) : Verdict stalls (x >>= f) p :=
  .of_eq (Prog.bind_ok f ran) rest

theorem Verdict.congr {stalls stalls' : Prop} (verdict : Verdict stalls x p)
    (same : stalls' ↔ stalls) : Verdict stalls' x p :=
  ⟨fun here => verdict.asserts (same.mp here),fun never => verdict.returns (mt same.mpr never)⟩

theorem Verdict.map {stalls : Prop} (verdict : Verdict stalls x p) (g : α → β) :
    Verdict stalls (do return g (← x)) p := by
  refine ⟨fun here => (verdict.asserts here).bind _,fun never => ?_⟩
  rcases verdict.returns never with ⟨a,q,ran⟩ | errs
  · exact .inl ⟨g a,q,Prog.bind_ok _ ran⟩
  · exact .inr (errs.bind _)

end

section
variable (p : Parser) (start : Option Text)

theorem scan_errs (read : tokens (start.getD p.tokenNext) = ([],.unterminated)) :
    Errs (scan start) p := by
  have found := tokens_unterminated _ read
  simp only [Errs,scan,found]
  exact ⟨_,_,rfl⟩

theorem copyNodeText_asserts (same : p.tokenNext = p.tokenStart) : Asserts copyNodeText p :=
  ⟨p,if_neg (by rw [same]; exact Nat.lt_irrefl _)⟩

theorem expected_errs (what : String) : Errs (getCell.expectedUnless true what) p :=
  ⟨_,_,rfl⟩

theorem getCell_faults (required : Bool) (ending : Ending) (early : ending ≠ .closed)
    (read : tokens (start.getD p.tokenNext) = ([],ending)) :
    Faults ending (getCell required start) p := by
  cases ending with
  | closed => contradiction
  | unterminated => exact (scan_errs p start read).bind _
  | stuck =>
    obtain ⟨q,ran,place,current,same⟩ := scan_stuck p start read
    obtain ⟨r,copied⟩ := copyNodeText_asserts q same
    have built : buildCell q = (.error .assertion,r) := by
      rw [buildCell,Prog.bind_ok _ (Prog.get_run _),if_pos current]
      exact Prog.bind_error _ copied
    refine ⟨r,?_⟩
    rw [getCell,Prog.bind_ok _ ran,Prog.bind_ok _ (Prog.get_run _),current]
    exact Prog.bind_error _ built

theorem getCell_errs (q : Parser) (ran : scan start p = (.ok (),q))
    (other : q.currentToken.isCell = false) : Errs (getCell true start) p := by
  obtain ⟨m,r,ran'⟩ := expected_errs q "terminal"
  refine ⟨m,r,?_⟩
  rw [getCell,Prog.bind_ok _ ran,Prog.bind_ok _ (Prog.get_run _),other]
  exact Prog.bind_error _ ran'

theorem chainLoop_faults (first : Option Cell) (fuel : Nat) (linked : List Cell) (p : Parser)
    (ls : List Lexeme) (ending : Ending) (early : ending ≠ .closed) (enough : p.tokenNext.length < fuel)
    (read : tokens p.tokenNext = (ls,ending)) (cells : ls.dropWhile Lexeme.isCell = []) :
    Faults ending (chainLoop first fuel linked) p := by
  induction ls generalizing p fuel linked with
  | nil =>
    obtain ⟨fuel,rfl⟩ := Nat.exists_eq_succ_of_ne_zero (Nat.ne_of_gt (Nat.zero_lt_of_lt enough))
    rw [Nat.succ_eq_add_one,chainLoop]
    exact (getCell_faults p none false ending early read).bind _
  | cons l ls ih =>
    obtain ⟨fuel,rfl⟩ := Nat.exists_eq_succ_of_ne_zero (Nat.ne_of_gt (Nat.zero_lt_of_lt enough))
    cases cell : l.isCell with
    | false =>
      rw [List.dropWhile_cons_of_neg (by simp [cell])] at cells
      exact absurd cells (List.cons_ne_nil _ _)
    | true =>
      obtain ⟨q,cellRead,place,_,room⟩ := getCell_cell p none false l ls ending read cell
      obtain ⟨q',linkedOne,same,_⟩ := link_returns first linked (cellOf l) q
      have unfolded : chainLoop first (fuel + 1) linked p =
          chainLoop first fuel (linked ++ [cellOf l]) q' := by
        rw [chainLoop,Prog.bind_ok _ cellRead]
        exact Prog.bind_ok _ linkedOne
      rw [List.dropWhile_cons_of_pos cell] at cells
      have rest := ih fuel (linked ++ [cellOf l]) q' (by rw [same]; simp at room; omega)
        (by rw [same]; exact place.rest) cells
      unfold Faults Errs Asserts at rest ⊢
      rw [Nat.succ_eq_add_one,unfolded]
      exact rest

theorem chain_faults (required : Bool) (q : Parser) (first : Option Cell) (ls : List Lexeme)
    (ending : Ending) (early : ending ≠ .closed) (ran : getCell required start p = (.ok first,q))
    (read : tokens q.tokenNext = (ls,ending)) (cells : ls.dropWhile Lexeme.isCell = []) :
    Faults ending (getCellChain required start) p := by
  have looped := chainLoop_faults first (q.tokenNext.length + 1) [] q ls ending early
    (Nat.lt_succ_self _) read cells
  have unfolded : getCellChain required start p = (do
      let linked ← chainLoop first (q.tokenNext.length + 1) []
      let p ← Prog.get
      if p.currentToken ≠ .noMore then rollback
      return chainPtr first linked : Parse CellPtr) q := by
    rw [getCellChain,Prog.bind_ok _ ran,Prog.bind_ok _ (Prog.get_run _)]
  have faults := looped.bind fun linked => (do
      let p ← Prog.get
      if p.currentToken ≠ .noMore then rollback
      return chainPtr first linked : Parse CellPtr)
  unfold Faults Errs Asserts at faults ⊢
  rw [unfolded]
  exact faults

theorem optionalChain_faults (ls : List Lexeme) (ending : Ending) (early : ending ≠ .closed)
    (read : tokens (start.getD p.tokenNext) = (ls,ending)) (over_ : (chainOf ls).rest = []) :
    Faults ending (getCellChain false start) p := by
  cases ls with
  | nil => exact (getCell_faults p start false ending early read).bind _
  | cons l ls =>
    cases kind : l.isCell with
    | true =>
      obtain ⟨q,ran,place,_,_⟩ := getCell_cell p start false l ls ending read kind
      rw [chainOf_cell l ls kind] at over_
      exact chain_faults p start false q _ ls ending early ran place.rest over_
    | false =>
      obtain ⟨q,ran,place,_,_⟩ := getCell_other p start l ls ending read kind
      rw [chainOf_other l ls kind] at over_
      exact chain_faults p start false q _ ls ending early ran place.rest over_

/-- What a required chain runs into: all its tokens are cells, and then two dots begin. -/
def ChainStalls (ls : List Lexeme) (ending : Ending) : Prop :=
  ending = .stuck ∧ ls.dropWhile Lexeme.isCell = []

theorem requiredChain_verdict (source : Text) :
    Verdict (ChainStalls (tokens source).1 (tokens source).2) (getCellChain true (some source)) p := by
  rcases read : tokens source with ⟨ls,ending⟩
  unfold ChainStalls
  dsimp only
  cases ls with
  | nil =>
    by_cases closed : ending = .closed
    · subst closed
      obtain ⟨q,ran,_,_,current,_⟩ := scan_end p (some source) read
      refine .errs ((getCell_errs p (some source) q ran (by rw [current]; rfl)).bind _) ?_
      exact fun here => absurd here.1 (by decide)
    · have faults := (getCell_faults p (some source) true ending closed read).bind fun first => (do
        let p ← Prog.get
        let linked ← chainLoop first (p.tokenNext.length + 1) []
        let p ← Prog.get
        if p.currentToken ≠ .noMore then rollback
        return chainPtr first linked : Parse CellPtr)
      exact .faults faults ⟨fun stuck => ⟨stuck,rfl⟩,And.left⟩
  | cons l ls =>
    cases cell : l.isCell with
    | false =>
      obtain ⟨next,found,_,_⟩ := tokens_cons _ l ls ending read
      refine .errs ((getCell_errs p (some source) _ (scan_found p (some source) l next found) cell).bind _) ?_
      rintro ⟨_,cells⟩
      rw [List.dropWhile_cons_of_neg (by simp [cell])] at cells
      exact List.cons_ne_nil _ _ cells
    | true =>
      have dropped : (l::ls).dropWhile Lexeme.isCell = ls.dropWhile Lexeme.isCell :=
        List.dropWhile_cons_of_pos cell
      have both := (getCellChain_cell true (some source) p l ls ending read cell).1
      rw [dropped]
      rw [chainOf_cell l ls cell] at both
      by_cases going : ls.dropWhile Lexeme.isCell ≠ [] ∨ ending = .closed
      · obtain ⟨q,ran,_⟩ := both going
        refine .ok ran ?_
        rintro ⟨rfl,cells⟩
        rcases going with more | closed
        · exact more cells
        · cases closed
      · obtain ⟨cells,early⟩ := not_or.mp going
        rw [not_not] at cells
        obtain ⟨q,ran,place,_,_⟩ := getCell_cell p (some source) true l ls ending read cell
        exact .faults (chain_faults p (some source) true q _ ls ending early ran place.rest cells)
          ⟨fun stuck => ⟨stuck,cells⟩,And.left⟩

theorem getNode_errs (f : OutputFormat) (ls : List Lexeme) (ending : Ending)
    (read : tokens (start.getD p.tokenNext) = (ls,ending)) (unknown : nodeOf f ls ending = none) :
    Errs (getNode false f start) p := by
  cases ls with
  | nil =>
    have open_ : ending = .unterminated := by
      by_contra other
      unfold nodeOf at unknown
      rw [if_neg other] at unknown
      cases unknown
    subst open_
    exact (scan_errs p start read).bind _
  | cons l ls =>
    obtain ⟨next,found,_,_⟩ := tokens_cons _ l ls ending read
    have current : (p.scanned (start.getD p.tokenNext) l next).currentToken = l.kind := rfl
    unfold nodeOf at unknown
    dsimp only at unknown
    by_cases node : l.kind = .node
    · rw [if_pos node] at unknown
      have named : (p.scanned (start.getD p.tokenNext) l next).nodeSymbol = l.symbol := by
        simp [Parser.scanned,node]
      have none_known : f.symbol l.symbol = none := Option.map_eq_none_iff.mp unknown
      refine ⟨text "Undefined symbol '" ++ l.symbol ++ text "'",
        p.scanned (start.getD p.tokenNext) l next,?_⟩
      rw [getNode,Prog.bind_ok _ (scan_found p start l next found),Prog.bind_ok _ (Prog.get_run _),
        current,if_pos node,named,none_known]
      rfl
    · rw [if_neg node] at unknown
      cases unknown

theorem getString_faults (ending : Ending) (early : ending ≠ .closed)
    (read : tokens p.tokenNext = ([],ending)) : Faults ending (getString false none) p := by
  cases ending with
  | closed => contradiction
  | unterminated => exact (scan_errs p none read).bind _
  | stuck =>
    obtain ⟨q,ran,_,current,same⟩ := scan_stuck p none read
    obtain ⟨r,copied⟩ := copyNodeText_asserts q same
    refine ⟨r,?_⟩
    rw [getString,Prog.bind_ok _ ran,Prog.bind_ok _ (Prog.get_run _),if_pos current]
    exact Prog.bind_error _ copied

/-- What stands where the ellipses or the end of a text is required is looked at only. -/
theorem scan_kinds (ls : List Lexeme) (ending : Ending) (read : tokens p.tokenNext = (ls,ending)) :
    Errs (scan none) p ∨ ∃ q, scan none p = (.ok (),q) ∧
      (∀ l rest, ls = l::rest → q.currentToken = l.kind) ∧
      (ls = [] → q.currentToken = if ending = .closed then .noMore else .plaintext) := by
  cases ls with
  | cons l ls =>
    obtain ⟨next,found,_,_⟩ := tokens_cons _ l ls ending read
    refine .inr ⟨_,scan_found p none l next found,?_,nofun⟩
    rintro l' rest same
    obtain ⟨rfl,_⟩ := List.cons.inj same
    rfl
  | nil =>
    cases ending with
    | unterminated => exact .inl (scan_errs p none read)
    | closed =>
      obtain ⟨q,ran,_,_,current,_⟩ := scan_end p none read
      exact .inr ⟨q,ran,nofun,fun _ => current⟩
    | stuck =>
      obtain ⟨q,ran,_,current,_⟩ := scan_stuck p none read
      exact .inr ⟨q,ran,nofun,fun _ => current⟩

theorem getEllipses_errs (ls : List Lexeme) (ending : Ending) (read : tokens p.tokenNext = (ls,ending))
    (other : ∀ l rest, ls = l::rest → l.kind ≠ .ellipses) : Errs (getEllipses true none) p := by
  rcases scan_kinds p ls ending read with errs | ⟨q,ran,some_kind,none_kind⟩
  · exact errs.bind _
  have unlike : q.currentToken ≠ .ellipses := by
    cases ls with
    | nil =>
      rw [none_kind rfl]
      split <;> decide
    | cons l rest =>
      rw [some_kind l rest rfl]
      exact other l rest rfl
  obtain ⟨m,r,ran'⟩ := expected_errs q "ellipses"
  refine ⟨m,r,?_⟩
  rw [getEllipses,Prog.bind_ok _ ran,Prog.bind_ok _ (Prog.get_run _),if_neg unlike]
  exact Prog.bind_error _ ran'

theorem theEnd_errs (ls : List Lexeme) (ending : Ending) (read : tokens p.tokenNext = (ls,ending))
    (more : ¬(ls = [] ∧ ending = .closed)) : Errs (theEnd true none) p := by
  rcases scan_kinds p ls ending read with errs | ⟨q,ran,some_kind,none_kind⟩
  · exact errs.bind _
  have unlike : q.currentToken ≠ .noMore := by
    cases ls with
    | nil =>
      rw [none_kind rfl,if_neg fun closed => more ⟨rfl,closed⟩]
      decide
    | cons l rest =>
      obtain ⟨next,found,_,_⟩ := tokens_cons _ l rest ending read
      rw [some_kind l rest rfl]
      exact scanAt_kind _ _ _ found
  refine ⟨text "Unexpected text at end of format.",q,?_⟩
  rw [theEnd,Prog.bind_ok _ ran,Prog.bind_ok _ (Prog.get_run _),if_neg unlike]
  rfl

/-- An optional chain takes its first token whatever it is, and then every cell. -/
def OptionalStalls (ls : List Lexeme) (ending : Ending) : Prop :=
  ending = .stuck ∧ (chainOf ls).rest = []

def EndStalls (ls : List Lexeme) (ending : Ending) : Prop :=
  ∃ dots rest, ls = dots::rest ∧ dots.kind = .ellipses ∧ OptionalStalls rest ending

theorem ending_verdict (begin : CellPtr) (core : NodeRef) (sep : Option Text) (ls : List Lexeme)
    (ending : Ending) (read : tokens p.tokenNext = (ls,ending)) :
    Verdict (EndStalls ls ending) (do
      let _ ← getEllipses true none
      let end_ ← getCellChain false none
      let _ ← theEnd true none
      return ⟨begin,core,sep,end_⟩ : Parse LoopParts) p := by
  by_cases dots : ∃ l rest, ls = l::rest ∧ l.kind = .ellipses
  swap
  · refine .errs ((getEllipses_errs p ls ending read fun l rest same kind => dots ⟨l,rest,same,kind⟩).bind _) ?_
    exact fun ⟨l,rest,same,kind,_⟩ => dots ⟨l,rest,same,kind⟩
  obtain ⟨l,rest,rfl,kind⟩ := dots
  have stalls : EndStalls (l::rest) ending ↔ OptionalStalls rest ending := by
    refine ⟨?_,fun here => ⟨l,rest,rfl,kind,here⟩⟩
    rintro ⟨_,_,same,_,here⟩
    cases same
    exact here
  refine Verdict.congr ?_ stalls
  obtain ⟨q,ran,place⟩ := (getEllipses_found p l rest ending read).1 kind
  apply Verdict.step ran
  have chain := (getCellChain_optional none q rest ending place.rest (.inl rfl)).1
  by_cases going : (chainOf rest).rest ≠ [] ∨ ending = .closed
  · obtain ⟨r,ranChain,placed⟩ := chain going
    have never : ¬OptionalStalls rest ending := by
      rintro ⟨rfl,over_⟩
      rcases going with more | closed
      · exact more over_
      · cases closed
    apply Verdict.step ranChain
    by_cases ended : (chainOf rest).rest = [] ∧ ending = .closed
    · obtain ⟨last,ranEnd,_⟩ := theEnd_closed r (by rw [placed.rest,ended.1,ended.2])
      exact .ok (Prog.bind_ok _ ranEnd) never
    · exact .errs ((theEnd_errs r _ ending placed.rest ended).bind _) never
  · obtain ⟨over_,early⟩ := not_or.mp going
    rw [not_not] at over_
    exact .faults ((optionalChain_faults q none rest ending early place.rest over_).bind _)
      ⟨fun stuck => ⟨stuck,over_⟩,And.left⟩

def TailStalls (ls : List Lexeme) (ending : Ending) : Prop :=
  ending = .stuck ∧ ls = [] ∨ EndStalls (sepOf ls).2 ending

theorem tail_verdict (begin : CellPtr) (core : NodeRef) (ls : List Lexeme) (ending : Ending)
    (read : tokens p.tokenNext = (ls,ending)) :
    Verdict (TailStalls ls ending) (do
      let sep ← getString false none
      if sep = none then rollback
      let _ ← getEllipses true none
      let end_ ← getCellChain false none
      let _ ← theEnd true none
      return ⟨begin,core,sep,end_⟩ : Parse LoopParts) p := by
  -- what is given back is read again by `getEllipses`
  have given (q : Parser) (left : List Lexeme) (ran : getString false none p = (.ok none,q))
      (back : tokens q.tokenStart = (left,ending)) :
      Verdict (EndStalls left ending) (do
        let sep ← getString false none
        if sep = none then rollback
        let _ ← getEllipses true none
        let end_ ← getCellChain false none
        let _ ← theEnd true none
        return ⟨begin,core,sep,end_⟩ : Parse LoopParts) p := by
    apply Verdict.step ran
    rw [if_pos rfl]
    let r : Parser := {q with
      tokenNext := q.tokenStart, tokenStart := q.oldStart, currentToken := q.oldToken}
    exact Verdict.step (q := r) rfl (ending_verdict r begin core none left ending back)
  have nothing : ¬EndStalls [] ending := by
    rintro ⟨_,_,none,_⟩
    cases none
  cases ls with
  | nil =>
    have stalls : TailStalls [] ending ↔ ending = .stuck := by
      refine ⟨?_,fun stuck => .inl ⟨stuck,rfl⟩⟩
      rintro (⟨stuck,_⟩ | here)
      · exact stuck
      · exact absurd here nothing
    refine Verdict.congr ?_ stalls
    by_cases closed : ending = .closed
    · subst closed
      obtain ⟨q,ran,_,back⟩ := getString_end p read
      exact (given q [] ran back).congr (iff_of_false (by decide) nothing)
    · exact .faults ((getString_faults p ending closed read).bind _) Iff.rfl
  | cons l ls =>
    by_cases plain : l.kind = .plaintext
    · obtain ⟨q,ran,place⟩ := getString_plain p none l ls ending read plain
      have sep : sepOf (l::ls) = (some l.text,ls) := by simp [sepOf,plain]
      have stalls : TailStalls (l::ls) ending ↔ EndStalls ls ending := by
        unfold TailStalls
        rw [sep]
        exact or_iff_right fun none => List.cons_ne_nil _ _ none.2
      refine Verdict.congr ?_ stalls
      apply Verdict.step ran
      rw [if_neg (by simp)]
      exact ending_verdict q begin core _ ls ending place.rest
    · obtain ⟨q,ran,_,back⟩ := getString_other p none l ls ending read plain
      have sep : sepOf (l::ls) = (none,l::ls) := by simp [sepOf,plain]
      have stalls : TailStalls (l::ls) ending ↔ EndStalls (l::ls) ending := by
        unfold TailStalls
        rw [sep]
        exact or_iff_right fun none => List.cons_ne_nil _ _ none.2
      exact (given q (l::ls) ran back).congr stalls

def LoopStalls (f : OutputFormat) (ls : List Lexeme) (ending : Ending) : Prop :=
  OptionalStalls ls ending ∨
    ∃ id rest, nodeOf f (chainOf ls).rest ending = some (.node id,rest) ∧ TailStalls rest ending

theorem compileLoop_verdict (f : OutputFormat) (source : Text) (some_text : source ≠ []) :
    Verdict (LoopStalls f (tokens source).1 (tokens source).2) (compileLoop f source) p := by
  rcases read : tokens source with ⟨ls,ending⟩
  dsimp only
  have chain := (getCellChain_optional (some source) p ls ending read (.inr some_text)).1
  by_cases going : (chainOf ls).rest ≠ [] ∨ ending = .closed
  · obtain ⟨q,ran,place⟩ := chain going
    have first : ¬OptionalStalls ls ending := by
      rintro ⟨rfl,over_⟩
      rcases going with more | closed
      · exact more over_
      · cases closed
    have node := (getNode_parse q f _ ending place.rest).1
    rw [compileLoop]
    apply Verdict.step ran
    cases found : nodeOf f (chainOf ls).rest ending with
    | none =>
      refine .errs ((getNode_errs q none f _ ending place.rest found).bind _) ?_
      rintro (here | ⟨_,_,other,_⟩)
      · exact first here
      · rw [found] at other
        cases other
    | some pair =>
      obtain ⟨core,rest⟩ := pair
      obtain ⟨r,ranNode,placed⟩ := node core rest found
      apply Verdict.step ranNode
      cases core with
      | theNullNode =>
        have never : ¬LoopStalls f ls ending := by
          rintro (here | ⟨_,_,other,_⟩)
          · exact first here
          · rw [found] at other
            cases other
        rw [if_pos rfl]
        by_cases ended : rest = [] ∧ ending = .closed
        · obtain ⟨last,ranEnd,_⟩ := theEnd_closed r (by rw [placed.rest,ended.1,ended.2])
          exact .ok (Prog.bind_ok _ ranEnd) never
        · exact .errs ((theEnd_errs r rest ending placed.rest ended).bind _) never
      | node id =>
        rw [if_neg (by simp)]
        refine (tail_verdict r (chainOf ls).ptr (.node id) rest ending placed.rest).congr ⟨?_,?_⟩
        · rintro (here | ⟨_,_,other,here⟩)
          · exact absurd here first
          · rw [found] at other
            cases other
            exact here
        · exact fun here => .inr ⟨id,rest,found,here⟩
  · obtain ⟨over_,early⟩ := not_or.mp going
    rw [not_not] at over_
    refine .faults ((optionalChain_faults p (some source) ls ending early read over_).bind _) ⟨fun stuck =>
      .inl ⟨stuck,over_⟩,?_⟩
    rintro (here | ⟨_,_,other,_⟩)
    · exact here.1
    · rw [over_] at other
      unfold nodeOf at other
      dsimp only at other
      split at other <;> cases other

/-- A `MainLoop` wants a cell in front, and another behind a core that is allowed. -/
def MainStalls (f : OutputFormat) (ls : List Lexeme) (ending : Ending) : Prop :=
  ending = .stuck ∧ (ls = [] ∨
    ∃ core, nodeOf f (behindCell ls) ending = some (core,[]) ∧ f.mayBeCore core = true)

/-- The end of a `MainLoop`. -/
theorem back_verdict (begin : CellPtr) (core : NodeRef) (ls : List Lexeme) (ending : Ending)
    (read : tokens p.tokenNext = (ls,ending)) :
    Verdict (ending = .stuck ∧ ls = []) (do
      let end_ ← getCell false none
      let _ ← theEnd true none
      return ⟨begin,core,none,chainPtr end_ []⟩ : Parse LoopParts) p := by
  cases ls with
  | nil =>
    by_cases closed : ending = .closed
    · subst closed
      obtain ⟨q,ran,place,_,_⟩ := getCell_end p none read
      obtain ⟨r,ranEnd,_⟩ := theEnd_closed q (by rw [place]; exact read)
      exact .step ran (.ok (Prog.bind_ok _ ranEnd) fun stuck => absurd stuck.1 (by decide))
    · exact .faults ((getCell_faults p none false ending closed read).bind _)
        ⟨fun stuck => ⟨stuck,rfl⟩,And.left⟩
  | cons l rest =>
    have never : ¬(ending = .stuck ∧ l::rest = []) := fun none => List.cons_ne_nil _ _ none.2
    have behind : ∃ last q, getCell false none p = (.ok last,q) ∧ tokens q.tokenNext = (rest,ending) := by
      cases cell : l.isCell with
      | true =>
        obtain ⟨q,ran,place,_,_⟩ := getCell_cell p none false l rest ending read cell
        exact ⟨_,q,ran,place.rest⟩
      | false =>
        obtain ⟨q,ran,place,_,_⟩ := getCell_other p none l rest ending read cell
        exact ⟨_,q,ran,place.rest⟩
    obtain ⟨last,q,ran,place⟩ := behind
    apply Verdict.step ran
    by_cases ended : rest = [] ∧ ending = .closed
    · obtain ⟨r,ranEnd,_⟩ := theEnd_closed q (by rw [place,ended.1,ended.2])
      exact .ok (Prog.bind_ok _ ranEnd) never
    · exact .errs ((theEnd_errs q rest ending place ended).bind _) never

theorem compileMain_verdict (f : OutputFormat) (source : Text) (some_text : source ≠ []) :
    Verdict (MainStalls f (tokens source).1 (tokens source).2) (compileMain f source) p := by
  rcases read : tokens source with ⟨ls,ending⟩
  dsimp only
  by_cases going : ls ≠ [] ∨ ending = .closed
  · obtain ⟨first,q,r,ran,given,ptr,place⟩ :=
      frontCell_parse p source some_text ls ending read going
    have front : ¬(ending = .stuck ∧ ls = []) := by
      rintro ⟨rfl,none⟩
      rcases going with more | closed
      · exact more none
      · cases closed
    refine .of_eq (compileMain_front f source p first q r ran given) ?_
    have node := (getNode_parse r f (behindCell ls) ending place.rest).1
    cases found : nodeOf f (behindCell ls) ending with
    | none =>
      refine .errs ((getNode_errs r none f _ ending place.rest found).bind _) ?_
      rintro ⟨stuck,none | ⟨_,other,_⟩⟩
      · exact front ⟨stuck,none⟩
      · rw [found] at other
        cases other
    | some pair =>
      obtain ⟨core,rest⟩ := pair
      obtain ⟨q',ranNode,placed⟩ := node core rest found
      have stalls : MainStalls f ls ending ↔
          (ending = .stuck ∧ rest = []) ∧ f.mayBeCore core = true := by
        constructor
        · rintro ⟨stuck,none | ⟨_,other,allowed⟩⟩
          · exact absurd ⟨stuck,none⟩ front
          · rw [found] at other
            cases other
            exact ⟨⟨stuck,rfl⟩,allowed⟩
        · rintro ⟨⟨stuck,rfl⟩,allowed⟩
          exact ⟨stuck,.inr ⟨core,found,allowed⟩⟩
      refine Verdict.congr ?_ stalls
      apply Verdict.step ranNode
      have back := back_verdict q' (chainPtr first []) core rest ending placed.rest
      unfold backOf
      by_cases allowed : f.mayBeCore core = true
      · rw [if_pos allowed]
        exact back.congr (and_iff_left allowed)
      · rw [if_neg allowed]
        exact .errs ⟨_,_,rfl⟩ fun here => allowed here.2
  · obtain ⟨none,early⟩ := not_or.mp going
    rw [not_not] at none
    subst none
    exact .faults ((getCell_faults p (some source) false ending early read).bind _)
      ⟨fun stuck => ⟨stuck,.inl rfl⟩,And.left⟩

theorem compileRecord_verdict (source : Text) (source2 : Option Text) :
    Verdict (ChainStalls (tokens source).1 (tokens source).2 ∨
        (chainParse (tokens source).1 (tokens source).2).isSome = true ∧
          ∃ null, source2 = some null ∧ ChainStalls (tokens null).1 (tokens null).2)
      (compileRecord source source2) p := by
  have first := requiredChain_verdict p source
  have parsed := getCellChain_parse p source
  by_cases here : ChainStalls (tokens source).1 (tokens source).2
  · exact ⟨fun _ => (first.asserts here).bind _,fun never => absurd (.inl here) never⟩
  rcases first.returns here with ⟨fmt,q,ran⟩ | errs
  · have value := (parsed.accepted ran)
    have accepted : chainParse (tokens source).1 (tokens source).2 = some fmt := (Prod.mk.inj value).1
    rw [accepted]
    cases source2 with
    | none =>
      refine .ok (q := q) (a := (fmt,fmt)) ?_ ?_
      · rw [compileRecord,Prog.bind_ok _ ran]
        rfl
      · rintro (stalls | ⟨_,_,none,_⟩)
        · exact here stalls
        · cases none
    | some null =>
      have second := (requiredChain_verdict q null).map fun nullFmt => (fmt,nullFmt)
      refine (Verdict.step ran second).congr ⟨?_,fun stalls => .inr ⟨rfl,null,rfl,stalls⟩⟩
      rintro (stalls | ⟨_,_,same,stalls⟩)
      · exact absurd stalls here
      · cases same
        exact stalls
  · obtain ⟨m,q,ran⟩ := errs
    refine .errs (Errs.bind ⟨m,q,ran⟩ _) ?_
    rintro (stalls | ⟨accepted,_⟩)
    · exact here stalls
    · obtain ⟨fmt,some_fmt⟩ := Option.isSome_iff_exists.mp accepted
      rw [some_fmt] at parsed
      obtain ⟨r,ran',_⟩ := parsed
      rw [ran] at ran'
      cases ran'

end

/-- A node whose text lets a parser function want a cell or a string where two dots begin. -/
def Node.Stalls (f : OutputFormat) (n : Node) : Prop :=
  match n.kind with
  | .mainLoop => MainStalls f (tokens n.unresolved).1 (tokens n.unresolved).2
  | .scanLoop | .rowLoop => LoopStalls f (tokens n.unresolved).1 (tokens n.unresolved).2
  | .recAttr =>
    ChainStalls (tokens n.unresolved).1 (tokens n.unresolved).2 ∨
      (chainParse (tokens n.unresolved).1 (tokens n.unresolved).2).isSome = true ∧
        ∃ null, n.unresolved2 = some null ∧ ChainStalls (tokens null).1 (tokens null).2

theorem compileNode_verdict (f : OutputFormat) (n : Node) (some_text : n.unresolved ≠ [])
    (p : Parser) : Verdict (n.Stalls f) (n.compile f) p := by
  unfold Node.Stalls Node.compile
  cases n.kind with
  | mainLoop => exact (compileMain_verdict p f _ some_text).map _
  | scanLoop => exact (compileLoop_verdict p f _ some_text).map _
  | rowLoop => exact (compileLoop_verdict p f _ some_text).map _
  | recAttr => exact (compileRecord_verdict p n.unresolved n.unresolved2).map _

def SymbolsStall : List Nat → OutputFormat → Prop
  | [], _ => False
  | id::ids, f =>
    match f.nodes[id]? with
    | none => SymbolsStall ids f
    | some n => n.Stalls f ∨
        ∃ c, (n.parse f .initial).1 = some c ∧ SymbolsStall ids (f.setCompiled id c)

def OutputFormat.Stalls (f : OutputFormat) : Prop := SymbolsStall f.symbols f

theorem compileSymbols_aborted (ids : List Nat) (f : OutputFormat) (p : Parser)
    (texts : f.HasTexts) : (compileSymbols ids f p).1 = .aborted ↔ SymbolsStall ids f := by
  induction ids generalizing f p with
  | nil => exact iff_of_false (by simp [compileSymbols]) id
  | cons id ids ih =>
    cases found : f.nodes[id]? with
    | none =>
      simp only [compileSymbols,SymbolsStall,found]
      exact ih f p texts
    | some n =>
      have some_text := texts n (List.mem_of_getElem? found)
      have verdict := compileNode_verdict f n some_text p
      have agrees := compileNode_parse f n some_text p
      simp only [compileSymbols,SymbolsStall,found]
      by_cases stalls : n.Stalls f
      · obtain ⟨q,ran⟩ := verdict.asserts stalls
        rw [ran]
        exact iff_of_true rfl (.inl stalls)
      rw [or_iff_right stalls]
      rcases verdict.returns stalls with ⟨c,q,ran⟩ | ⟨m,q,ran⟩
      · have value := (congrArg Prod.fst (agrees.accepted ran)).symm.trans
          (parse_value f n p.sentinels .initial)
        rw [ran]
        dsimp only
        rw [ih (f.setCompiled id c) q (setCompiled_texts f id c texts),← value]
        refine ⟨fun later => ⟨c,rfl,later⟩,?_⟩
        rintro ⟨_,same,later⟩
        cases same
        exact later
      · rw [ran]
        refine iff_of_false (fun aborted => by cases aborted) ?_
        rintro ⟨c,value,_⟩
        rw [parse_value f n .initial p.sentinels] at value
        rcases parsed : n.parse f p.sentinels with ⟨result,s⟩
        rw [parsed] at agrees value
        replace value : result = some c := value
        subst value
        obtain ⟨q',ran',_⟩ := agrees
        rw [ran] at ran'
        cases ran'

theorem scanAt_twoDots (t : Text) (dots : TwoDots t) : scanAt t = .token ⟨.plaintext,[]⟩ t := by
  obtain ⟨rest,rfl,other⟩ := dots
  have two : ¬(text "..").isPrefixOf (code '.' :: rest) = true := by
    rw [List.isPrefixOf_iff_prefix]
    rintro ⟨more,same⟩
    apply other
    rw [← (List.cons.inj same).2]
    rfl
  unfold scanAt
  dsimp only
  rw [if_neg fun here => two here.2,if_neg (by decide)]
  unfold plaintext
  rw [if_pos (.inl ⟨rfl,rfl⟩)]

theorem scanAt_dots (t next : Text) (l : Lexeme) (found : scanAt t = .token l next)
    (empty : ¬next.length < t.length) : TwoDots t := by
  have whole := scanAt_append t next l found
  have nothing : l.text = [] := by
    rw [whole,List.length_append] at empty
    exact List.length_eq_zero_iff.mp (by omega)
  cases t with
  | nil => cases found
  | cons c cs =>
    unfold scanAt at found
    dsimp only at found
    split_ifs at found with dots dollar
    · cases found
      exact absurd nothing (by decide)
    · cases body : untilDollar cs with
      | none =>
        rw [body] at found
        cases found
      | some pair =>
        rw [body] at found
        cases found
        exact absurd nothing (by simp)
    · cases found
      unfold plaintext at nothing
      split_ifs at nothing with stops
      rcases stops with ⟨rfl,more⟩ | ⟨same,_⟩
      · obtain ⟨rest,rfl⟩ : ∃ rest, cs = code '.' :: rest := by
          cases cs with
          | nil => cases more
          | cons d rest => exact ⟨rest,by rw [Option.some.inj more]⟩
        refine ⟨rest,rfl,fun third => dots ⟨rfl,?_⟩⟩
        cases rest with
        | nil => cases third
        | cons e rest =>
          rw [Option.some.inj third]
          rfl
      · exact absurd same dollar

/-- `token_next` is behind `token_start`, unless exactly two dots begin there. -/
theorem scan_progress_iff (t : Text) :
    (∀ l next, scanAt t = .token l next → next.length < t.length) ↔ ¬TwoDots t := by
  constructor
  · exact fun progress dots => Nat.lt_irrefl _ (progress _ _ (scanAt_twoDots t dots))
  · intro other l next found
    by_contra empty
    exact other (scanAt_dots t next l found empty)

/-- A compilation comes to an answer exactly if no node is compiled whose text lets the parser
want a cell or a string where `scan` does not advance, which is where exactly two dots begin. -/
theorem compile_answers_iff (f : OutputFormat) (p : Parser) (texts : f.HasTexts) :
    ((f.compile p).1 ≠ .aborted ↔ ¬f.Stalls) ∧
      ∀ t, (∀ l next, scanAt t = .token l next → next.length < t.length) ↔ ¬TwoDots t :=
  ⟨not_congr (compileSymbols_aborted f.symbols f p texts),scan_progress_iff⟩

/-- A format with a `Format` object and nothing else. -/
def formatOf (source : Text) : OutputFormat :=
  {(OutputFormat.new (text "f")).addSymbol (text "_main") .mainLoop source none with topNode := some 0}

theorem formatOf_texts (source : Text) (some_text : source ≠ []) : (formatOf source).HasTexts := by
  intro n inside
  have nodes : (formatOf source).nodes = [⟨text "_main",.mainLoop,source,none,.no⟩] := rfl
  rw [nodes] at inside
  rw [List.mem_singleton.mp inside]
  exact some_text

theorem compile_answers_plain :
    (((formatOf (text "a")).compile .initial).1 ≠ .aborted ↔ ¬(formatOf (text "a")).Stalls) ∧
      ∀ t, (∀ l next, scanAt t = .token l next → next.length < t.length) ↔ ¬TwoDots t :=
  compile_answers_iff (formatOf (text "a")) .initial (formatOf_texts _ (by decide))

/-- Two dots in the text of a `Format` object abort the server. -/
theorem two_dots_abort : (formatOf (text "a..b")).HasTexts ∧
    ((formatOf (text "a..b")).compile .initial).1 = .aborted := by
  have texts := formatOf_texts (text "a..b") (by decide)
  refine ⟨texts,(compileSymbols_aborted _ _ _ texts).mpr ?_⟩
  have symbols : (formatOf (text "a..b")).symbols = [0] := by decide
  have main : (formatOf (text "a..b")).nodes[0]? =
      some ⟨text "_main",.mainLoop,text "a..b",none,.no⟩ := rfl
  have read : tokens (text "a..b") = ([⟨.plaintext,text "a"⟩],.stuck) := by decide
  rw [symbols,SymbolsStall,main]
  refine .inl ?_
  unfold Node.Stalls
  dsimp only
  rw [read]
  exact ⟨rfl,.inr ⟨.theNullNode,rfl,rfl⟩⟩

end ModNdb.Format
