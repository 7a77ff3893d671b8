import ModNdb.Format.Compile

/-! A format text as its list of tokens, and what each parser function does to
it. The pure parses below are over token lists; `compileLoop_parse` and its
companions show that the compiler with its rollbacks computes them. -/
namespace ModNdb.Format

/-- How a token list stops: at the end of the text, at a dollar sign that is never
closed, or at two dots that start a plaintext token of no characters. -/
inductive Ending | closed | unterminated | stuck
  deriving DecidableEq

def tokensFrom : Nat → Text → List Lexeme × Ending
  | 0, _ => ([],.stuck)
  | fuel + 1, t =>
    match scanAt t with
    | .noMore => ([],.closed)
    | .unterminated => ([],.unterminated)
    | .token l next =>
      if next.length < t.length then
        let (ls,ending) := tokensFrom fuel next
        (l::ls,ending)
      else ([],.stuck)

def tokens (t : Text) : List Lexeme × Ending := tokensFrom (t.length + 1) t

theorem untilDollar_append (t body next : Text) (found : untilDollar t = some (body,next)) :
    t = body ++ code '$' :: next := by
  induction t generalizing body with
  | nil => simp [untilDollar] at found
  | cons c cs ih =>
    unfold untilDollar at found
    split_ifs at found with dollar
    · obtain ⟨rfl,rfl⟩ := Prod.mk.inj (Option.some.inj found)
      simp [dollar]
    · obtain ⟨⟨rest,after⟩,inside,same⟩ := Option.map_eq_some_iff.mp found
      obtain ⟨rfl,rfl⟩ := Prod.mk.inj same
      rw [ih rest inside]
      rfl

theorem plaintext_append (before : UInt8) (t : Text) :
    (plaintext before t).1 ++ (plaintext before t).2 = t := by
  induction t generalizing before with
  | nil => rfl
  | cons c cs ih =>
    unfold plaintext
    split_ifs
    · rfl
    · simpa using ih c

theorem scanAt_append (t next : Text) (l : Lexeme) (scanned : scanAt t = .token l next) :
    t = l.text ++ next := by
  cases t with
  | nil => simp [scanAt] at scanned
  | cons c cs =>
    simp only [scanAt] at scanned
    split_ifs at scanned with dots dollar
    · obtain ⟨rfl,rfl⟩ := Scanned.token.inj scanned
      obtain ⟨rest,rfl⟩ := List.isPrefixOf_iff_prefix.mp dots.2
      rw [dots.1]
      rfl
    · cases found : untilDollar cs with
      | none => simp [found] at scanned
      | some pair =>
        obtain ⟨body,after⟩ := pair
        rw [found] at scanned
        obtain ⟨rfl,rfl⟩ := Scanned.token.inj scanned
        simp [untilDollar_append cs body after found,dollar]
    · obtain ⟨rfl,rfl⟩ := Scanned.token.inj scanned
      exact (plaintext_append 0 (c::cs)).symm

theorem scanAt_kind (t next : Text) (l : Lexeme) (scanned : scanAt t = .token l next) :
    l.kind ≠ .noMore := by
  cases t with
  | nil => simp [scanAt] at scanned
  | cons c cs =>
    simp only [scanAt] at scanned
    split_ifs at scanned with dots dollar
    · obtain ⟨rfl,rfl⟩ := Scanned.token.inj scanned
      simp
    · cases found : untilDollar cs with
      | none => simp [found] at scanned
      | some pair =>
        rw [found] at scanned
        obtain ⟨rfl,rfl⟩ := Scanned.token.inj scanned
        simp only [dollarToken]
        split_ifs <;> simp
    · obtain ⟨rfl,rfl⟩ := Scanned.token.inj scanned
      simp

/-- A token without characters is plaintext: it stands where two dots begin. -/
theorem scanAt_empty (t next : Text) (l : Lexeme) (scanned : scanAt t = .token l next)
    (empty : ¬next.length < t.length) : l.kind = .plaintext ∧ next = t := by
  have whole := scanAt_append t next l scanned
  have nothing : l.text = [] := by
    rw [whole,List.length_append] at empty
    exact List.length_eq_zero_iff.mp (by omega)
  refine ⟨?_,by rw [whole,nothing]; rfl⟩
  cases t with
  | nil => simp [scanAt] at scanned
  | cons c cs =>
    simp only [scanAt] at scanned
    split_ifs at scanned with dots dollar
    · obtain ⟨rfl,rfl⟩ := Scanned.token.inj scanned
      exact absurd nothing (by decide)
    · cases found : untilDollar cs with
      | none => simp [found] at scanned
      | some pair =>
        rw [found] at scanned
        obtain ⟨rfl,rfl⟩ := Scanned.token.inj scanned
        simp at nothing
    · obtain ⟨rfl,rfl⟩ := Scanned.token.inj scanned
      rfl

theorem tokensFrom_enough (fuel more : Nat) (t : Text) (enough : t.length < fuel) :
    tokensFrom (fuel + more) t = tokensFrom fuel t := by
  induction fuel generalizing t with
  | zero => omega
  | succ fuel ih =>
    rw [Nat.succ_add]
    unfold tokensFrom
    cases scanned : scanAt t with
    | noMore => rfl
    | unterminated => rfl
    | token l next =>
      dsimp only
      split_ifs with shorter
      · rw [ih next (by omega)]
      · rfl

/-- The token list, one token at a time. -/
theorem tokens_step (t : Text) :
    tokens t = match scanAt t with
      | .noMore => ([],.closed)
      | .unterminated => ([],.unterminated)
      | .token l next =>
        if next.length < t.length then (l::(tokens next).1,(tokens next).2) else ([],.stuck) := by
  rw [tokens,tokensFrom]
  cases scanned : scanAt t with
  | noMore => rfl
  | unterminated => rfl
  | token l next =>
    dsimp only
    split_ifs with shorter
    · have same : tokensFrom t.length next = tokens next := by
        rw [tokens,← tokensFrom_enough (next.length + 1) (t.length - (next.length + 1)) next
          (by omega)]
        congr 1
        omega
      rw [same]
    · rfl

theorem tokens_nil : tokens [] = ([],.closed) := rfl

theorem tokens_closed (t : Text) (read : tokens t = ([],.closed)) : t = [] := by
  rw [tokens_step] at read
  cases t with
  | nil => rfl
  | cons c cs =>
    cases scanned : scanAt (c::cs) with
    | noMore =>
      simp only [scanAt] at scanned
      split_ifs at scanned
      cases found : untilDollar cs <;> simp [found] at scanned
    | unterminated => simp [scanned] at read
    | token l next =>
      rw [scanned] at read
      dsimp only at read
      split_ifs at read <;> simp at read

theorem tokens_cons (t : Text) (l : Lexeme) (ls : List Lexeme) (ending : Ending)
    (read : tokens t = (l::ls,ending)) :
    ∃ next, scanAt t = .token l next ∧ tokens next = (ls,ending) ∧ next.length < t.length := by
  rw [tokens_step] at read
  cases scanned : scanAt t with
  | noMore => simp [scanned] at read
  | unterminated => simp [scanned] at read
  | token found next =>
    rw [scanned] at read
    dsimp only at read
    split_ifs at read with shorter
    · obtain ⟨head,rest⟩ := Prod.mk.inj read
      obtain ⟨rfl,rfl⟩ := List.cons.inj head
      exact ⟨next,rfl,by rw [← rest],shorter⟩
    · simp at read

theorem tokens_unterminated (t : Text) (read : tokens t = ([],.unterminated)) :
    scanAt t = .unterminated := by
  rw [tokens_step] at read
  cases scanned : scanAt t with
  | noMore => simp [scanned] at read
  | unterminated => rfl
  | token l next =>
    rw [scanned] at read
    dsimp only at read
    split_ifs at read <;> simp at read

theorem tokens_stuck (t : Text) (read : tokens t = ([],.stuck)) :
    scanAt t = .token ⟨.plaintext,[]⟩ t := by
  rw [tokens_step] at read
  cases scanned : scanAt t with
  | noMore => simp [scanned] at read
  | unterminated => simp [scanned] at read
  | token l next =>
    rw [scanned] at read
    dsimp only at read
    split_ifs at read with shorter
    · simp at read
    · obtain ⟨plain,rfl⟩ := scanAt_empty t next l scanned shorter
      have whole := scanAt_append _ _ _ scanned
      obtain ⟨kind,txt⟩ := l
      have nothing : txt = [] := by simpa using whole
      rw [← plain,nothing]

/-- The parser state after `scan` has found the token `l` at `t`. -/
def Parser.scanned (p : Parser) (t : Text) (l : Lexeme) (next : Text) : Parser :=
  {p with
    oldToken := p.currentToken, oldStart := p.tokenStart, tokenStart := t,
    currentToken := l.kind, tokenNext := next,
    nodeSymbol := if l.kind = .node then l.symbol else p.nodeSymbol}

theorem scan_found (p : Parser) (start : Option Text) (l : Lexeme) (next : Text)
    (found : scanAt (start.getD p.tokenNext) = .token l next) :
    scan start p = (.ok (),p.scanned (start.getD p.tokenNext) l next) := by
  simp only [scan,found]
  rfl

theorem scanned_text (p : Parser) (t next : Text) (l : Lexeme) (found : scanAt t = .token l next) :
    (p.scanned t l next).tokenText = l.text := by
  have whole := scanAt_append t next l found
  simp [Parser.tokenText,Parser.scanned,whole]

structure Parser.At (p : Parser) (ls : List Lexeme) (ending : Ending) (s : Sentinels) : Prop where
  rest : tokens p.tokenNext = (ls,ending)
  sentinels : p.sentinels = s

/-- A run that ends in a failure, leaving the sentinels `s`. -/
abbrev Fails {α : Type} (x : Parse α) (p : Parser) (s : Sentinels) : Prop :=
  Prog.Fails x p (fun q => q.sentinels = s)

end ModNdb.Format
