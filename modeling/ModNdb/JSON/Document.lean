import ModNdb.JSON.Parser

/-! Documents: what the productions of JSON.atg derive. The parser reads a document without
an error and runs the actions of its parts in order; what it reads without an error is a
document. -/
namespace ModNdb.JSON

inductive Part | value | members | elements

def Kind.isScalar : Kind → Bool
  | .string | .number | .true | .false => Bool.true
  | _ => Bool.false

abbrev ScalarToken := {token : Token // token.kind.isScalar = true}

abbrev NameToken := {token : Token // token.kind = .string}

inductive Doc : Part → Type
  | scalar (token : ScalarToken) : Doc .value
  | null : Doc .value
  | object (members : Doc .members) : Doc .value
  | array (elements : Doc .elements) : Doc .value
  | noMembers : Doc .members
  | member (name : NameToken) (value : Doc .value) (rest : Doc .members) : Doc .members
  | noElements : Doc .elements
  | element (value : Doc .value) (rest : Doc .elements) : Doc .elements

def Kind.spelling? : Kind → Option (List Nat)
  | .openBrace => some [123]
  | .closeBrace => some [125]
  | .openBracket => some [91]
  | .closeBracket => some [93]
  | .colon => some [58]
  | .comma => some [44]
  | .null => some (letters "null")
  | _ => none

def Kind.token (kind : Kind) : Token := ⟨kind,kind.spelling?.getD []⟩

/-- The tokens of a document. Members and elements have a comma in front of each; the one
in front of the first is left out. -/
def Doc.tokens : {part : Part} → Doc part → List Token
  | _, .scalar token => [token.1]
  | _, .null => [Kind.null.token]
  | _, .object members => Kind.openBrace.token :: (members.tokens.tail ++ [Kind.closeBrace.token])
  | _, .array elements =>
    Kind.openBracket.token :: (elements.tokens.tail ++ [Kind.closeBracket.token])
  | _, .noMembers | _, .noElements => []
  | _, .member name value rest =>
    Kind.comma.token :: name.1 :: Kind.colon.token :: (value.tokens ++ rest.tokens)
  | _, .element value rest => Kind.comma.token :: (value.tokens ++ rest.tokens)

def Doc.actions : {part : Part} → Doc part → List Action
  | _, .scalar token => [.value token.1]
  | _, .null => [.null]
  | _, .object members => members.actions
  | _, .array elements => elements.actions
  | _, .noMembers | _, .noElements => []
  | _, .member name value rest => .name name.1 :: (value.actions ++ .setItem :: rest.actions)
  | _, .element value rest => value.actions ++ rest.actions

/-- The production reads up to `rest`, without an error of its own, and runs the actions. -/
def Reads (x : Production) (p : Parsing) (actions : List Action) (rest : List Token) : Prop :=
  ∃ t, x p = (.ok (),⟨t,rest,p.erroneous,p.actions ++ actions⟩)

theorem Reads.bind {x : Production} {f : Unit → Production} {p : Parsing} {first later : List Action}
    {middle rest : List Token} (reads : Reads x p first middle)
    (next : ∀ t, Reads (f ()) ⟨t,middle,p.erroneous,p.actions ++ first⟩ later rest) :
    Reads (x >>= f) p (first ++ later) rest := by
  obtain ⟨t,ran⟩ := reads
  obtain ⟨u,ran'⟩ := next t
  refine ⟨u,?_⟩
  rw [Prog.bind_ok f ran,ran',List.append_assoc]

theorem Reads.nil (p : Parsing) (rest : List Token) (ahead : p.ahead = rest) :
    Reads (pure ()) p [] rest := by
  subst ahead
  exact ⟨p.t,by rw [List.append_nil]; rfl⟩

theorem getToken_reads (p : Parsing) (token : Token) (rest : List Token)
    (ahead : p.ahead = token::rest) :
    getToken p = (.ok (),⟨token,rest,p.erroneous,p.actions⟩) := by
  unfold getToken Parsing.la
  rw [Prog.modify_run,ahead]
  rfl

theorem la_ahead (p : Parsing) (token : Token) (rest : List Token) (ahead : p.ahead = token::rest) :
    p.la = token := by
  unfold Parsing.la
  rw [ahead]
  rfl

theorem expect_reads (p : Parsing) (kind : Kind) (token : Token) (rest : List Token)
    (expected : token.kind = kind) (ahead : p.ahead = token::rest) :
    expect kind p = (.ok (),⟨token,rest,p.erroneous,p.actions⟩) := by
  have next : p.la.kind = kind := by rw [la_ahead p token rest ahead,expected]
  rw [expect,Prog.bind_ok _ (Prog.get_run p),if_pos next]
  exact getToken_reads p token rest ahead

theorem pair_reads (value : Production) (p : Parsing) (name : NameToken) (tokens rest : List Token)
    (actions : List Action) (ahead : p.ahead = name.1 :: Kind.colon.token :: (tokens ++ rest))
    (reads : ∀ q : Parsing, q.ahead = tokens ++ rest → Reads value q actions rest) :
    Reads (pair value) p (.name name.1 :: (actions ++ [.setItem])) rest := by
  obtain ⟨t,ran⟩ := reads
    ⟨Kind.colon.token,tokens ++ rest,p.erroneous,p.actions ++ [.name name.1]⟩ rfl
  refine ⟨t,?_⟩
  rw [pair,Prog.bind_ok _ (expect_reads p .string name.1 _ name.2 ahead),act,
    Prog.bind_ok _ (Prog.modify_run _ _),
    Prog.bind_ok _ (expect_reads _ .colon Kind.colon.token (tokens ++ rest) rfl rfl),
    Prog.bind_ok _ ran]
  simp [act]

def Ends (rest : List Token) : Prop := (rest.head?.getD .eof).kind ≠ .comma

theorem further_ends (item : Production) (fuel : Nat) (p : Parsing) (rest : List Token)
    (some : 0 < fuel) (ahead : p.ahead = rest) (ends : Ends rest) :
    Reads (furtherItems item fuel) p [] rest := by
  obtain ⟨fuel,rfl⟩ := Nat.exists_eq_succ_of_ne_zero (Nat.pos_iff_ne_zero.mp some)
  have stops : ¬p.la.kind = .comma := by
    unfold Parsing.la
    rw [ahead]
    exact ends
  rw [Nat.succ_eq_add_one,furtherItems]
  unfold Reads
  rw [Prog.bind_ok _ (Prog.get_run p),if_neg stops]
  exact Reads.nil p rest ahead

theorem further_comma (item : Production) (fuel : Nat) (p : Parsing) (tokens rest : List Token)
    (actions : List Action) (ahead : p.ahead = Kind.comma.token :: tokens)
    (reads : ∀ q : Parsing, q.ahead = tokens →
      Reads (item >>= fun _ => furtherItems item fuel) q actions rest) :
    Reads (furtherItems item (fuel + 1)) p actions rest := by
  have comma : p.la.kind = .comma := by
    rw [la_ahead p _ tokens ahead]
    rfl
  rw [furtherItems]
  unfold Reads
  rw [Prog.bind_ok _ (Prog.get_run p),if_pos comma,Prog.bind_ok _ (getToken_reads p _ tokens ahead)]
  exact reads ⟨Kind.comma.token,tokens,p.erroneous,p.actions⟩ rfl

/-- Items are read with a comma in front of each, or from the first one on. -/
structure ReadsItems (item : Production) (tokens : List Token) (actions : List Action) : Prop where
  further (fuel : Nat) (p : Parsing) (rest : List Token) (enough : tokens.length < fuel)
    (ahead : p.ahead = tokens ++ rest) (ends : Ends rest) :
    Reads (furtherItems item fuel) p actions rest
  first (fuel : Nat) (p : Parsing) (rest : List Token) (some : tokens ≠ [])
    (enough : tokens.length ≤ fuel) (ahead : p.ahead = tokens.tail ++ rest) (ends : Ends rest) :
    Reads (item >>= fun _ => furtherItems item fuel) p actions rest

theorem ReadsItems.nil (item : Production) : ReadsItems item [] [] where
  further fuel p rest enough ahead ends := further_ends item fuel p rest enough ahead ends
  first _ _ _ some _ _ _ := absurd rfl some

theorem ReadsItems.cons (item : Production) (one tokens : List Token) (first later : List Action)
    (reads : ∀ p rest, p.ahead = one ++ rest → Reads item p first rest)
    (next : ReadsItems item tokens later) :
    ReadsItems item (Kind.comma.token :: (one ++ tokens)) (first ++ later) := by
  have started (fuel : Nat) (p : Parsing) (rest : List Token) (enough : tokens.length < fuel)
      (ahead : p.ahead = one ++ tokens ++ rest) (ends : Ends rest) :
      Reads (item >>= fun _ => furtherItems item fuel) p (first ++ later) rest := by
    rw [List.append_assoc] at ahead
    apply Reads.bind (reads p (tokens ++ rest) ahead)
    intro t
    exact next.further fuel _ rest enough rfl ends
  constructor
  · intro fuel p rest enough ahead ends
    obtain ⟨fuel,rfl⟩ := Nat.exists_eq_succ_of_ne_zero (Nat.ne_of_gt (Nat.zero_lt_of_lt enough))
    simp only [List.length_cons,List.length_append] at enough
    apply further_comma item fuel p (one ++ tokens ++ rest) rest _ ahead
    intro q ahead'
    exact started fuel q rest (by omega) ahead' ends
  · intro fuel p rest _ enough ahead ends
    simp only [List.length_cons,List.length_append] at enough
    exact started fuel p rest (by omega) ahead ends

section
variable (n : Nat) (p : Parsing)

theorem value_scalar (scalar : p.la.kind.isScalar = true) :
    value (n + 1) p = (getToken >>= fun _ => act .value) p := by
  rw [value,Prog.bind_ok _ (Prog.get_run p)]
  cases kind : p.la.kind <;> rw [kind] at scalar <;> first | rfl | cases scalar

theorem value_null (null : p.la.kind = .null) :
    value (n + 1) p = (getToken >>= fun _ => act fun _ => .null) p := by
  rw [value,Prog.bind_ok _ (Prog.get_run p),null]

theorem value_object (brace : p.la.kind = .openBrace) :
    value (n + 1) p = object (value n) n p := by
  rw [value,Prog.bind_ok _ (Prog.get_run p),brace]

theorem value_array (bracket : p.la.kind = .openBracket) :
    value (n + 1) p = array (value n) n p := by
  rw [value,Prog.bind_ok _ (Prog.get_run p),bracket]

theorem value_error (other : p.la.kind.startsValue = false) : value (n + 1) p = synErr p := by
  rw [value,Prog.bind_ok _ (Prog.get_run p)]
  cases kind : p.la.kind <;> rw [kind] at other <;> first | rfl | cases other

end

/-- Items between brackets or braces, where they are there if `starts` says so. -/
theorem enclosed_reads (opening closing : Kind) (starts : Kind → Prop) [DecidablePred starts]
    (item : Production) (fuel : Nat) (p : Parsing) (tokens rest : List Token)
    (actions : List Action) (items : ReadsItems item tokens actions)
    (ahead : p.ahead = opening.token :: (tokens.tail ++ closing.token :: rest))
    (stops : ¬starts closing) (other : closing ≠ .comma)
    (begins : tokens = [] ∧ actions = [] ∨
      tokens ≠ [] ∧ ∃ token later, tokens.tail = token::later ∧ starts token.kind)
    (enough : tokens.length ≤ fuel) :
    Reads (do
      expect opening
      let p ← Prog.get
      if starts p.la.kind then
        item
        furtherItems item fuel
      expect closing) p actions rest := by
  have ran := expect_reads p opening opening.token _ rfl ahead
  have closes : ∀ t e a, expect closing ⟨t,closing.token::rest,e,a⟩ =
      (.ok (),⟨closing.token,rest,e,a⟩) :=
    fun t e a => expect_reads _ closing closing.token rest rfl rfl
  rcases begins with ⟨rfl,rfl⟩ | ⟨some,token,later,split,begin⟩
  · refine ⟨closing.token,?_⟩
    have next : ¬starts (Parsing.mk opening.token ([].tail ++ closing.token::rest) p.erroneous
      p.actions).la.kind := stops
    rw [Prog.bind_ok _ ran,Prog.bind_ok _ (Prog.get_run _),if_neg next,List.append_nil]
    exact closes _ _ _
  · have ends : Ends (closing.token::rest) := other
    have next : starts (Parsing.mk opening.token (tokens.tail ++ closing.token::rest) p.erroneous
      p.actions).la.kind := by
      rw [split]
      exact begin
    obtain ⟨t,ran'⟩ := items.first fuel ⟨opening.token,tokens.tail ++ closing.token::rest,
      p.erroneous,p.actions⟩ (closing.token::rest) some enough rfl ends
    refine ⟨closing.token,?_⟩
    rw [Prog.bind_ok _ ran,Prog.bind_ok _ (Prog.get_run _),if_pos next,← Prog.bind_assoc,
      Prog.bind_ok _ ran']
    exact closes _ _ _

theorem Doc.value_starts (d : Doc .value) :
    ∃ token later, d.tokens = token::later ∧ token.kind.startsValue = true := by
  cases d with
  | scalar token =>
    refine ⟨token.1,[],rfl,?_⟩
    have scalar := token.2
    cases kind : token.1.kind <;> rw [kind] at scalar <;> first | rfl | cases scalar
  | null => exact ⟨Kind.null.token,[],rfl,rfl⟩
  | object members => exact ⟨Kind.openBrace.token,_,rfl,rfl⟩
  | array elements => exact ⟨Kind.openBracket.token,_,rfl,rfl⟩

theorem Doc.members_start (d : Doc .members) : d.tokens = [] ∧ d.actions = [] ∨
    d.tokens ≠ [] ∧ ∃ token later, d.tokens.tail = token::later ∧ token.kind = .string := by
  cases d with
  | noMembers => exact .inl ⟨rfl,rfl⟩
  | member name value rest => exact .inr ⟨List.cons_ne_nil _ _,name.1,_,rfl,name.2⟩

theorem Doc.elements_start (d : Doc .elements) : d.tokens = [] ∧ d.actions = [] ∨
    d.tokens ≠ [] ∧ ∃ token later, d.tokens.tail = token::later ∧ token.kind.startsValue = true := by
  cases d with
  | noElements => exact .inl ⟨rfl,rfl⟩
  | element value rest =>
    obtain ⟨token,later,split,starts⟩ := value.value_starts
    refine .inr ⟨List.cons_ne_nil _ _,token,later ++ rest.tokens,?_,starts⟩
    change value.tokens ++ rest.tokens = _
    rw [split]
    rfl

theorem object_inner (members : Doc .members) (n : Nat)
    (enough : (Doc.object members).tokens.length ≤ n + 1) : members.tokens.length ≤ n := by
  simp only [Doc.tokens,List.length_cons,List.length_append,List.length_tail,
    List.length_nil] at enough
  omega

theorem object_reads (members : Doc .members) (n : Nat) (p : Parsing) (rest : List Token)
    (items : ReadsItems (pair (value n)) members.tokens members.actions)
    (enough : members.tokens.length ≤ n)
    (ahead : p.ahead =
      Kind.openBrace.token :: (members.tokens.tail ++ Kind.closeBrace.token :: rest)) :
    Reads (object (value n) n) p members.actions rest :=
  enclosed_reads .openBrace .closeBrace (· = .string) _ n p members.tokens rest _ items ahead
    (by decide) (by decide) members.members_start enough

def Doc.Parses : {part : Part} → Doc part → Prop
  | .value, d => ∀ n p rest, d.tokens.length ≤ n → p.ahead = d.tokens ++ rest →
      Reads (JSON.value n) p d.actions rest
  | .members, d => ∀ n, d.tokens.length ≤ n → ReadsItems (pair (JSON.value n)) d.tokens d.actions
  | .elements, d => ∀ n, d.tokens.length ≤ n → ReadsItems (JSON.value n) d.tokens d.actions

theorem Doc.parses {part : Part} (d : Doc part) : d.Parses := by
  induction d with
  | scalar token =>
    intro n p rest enough ahead
    obtain ⟨n,rfl⟩ := Nat.exists_eq_succ_of_ne_zero (Nat.ne_of_gt enough)
    refine ⟨token.1,?_⟩
    have next := la_ahead p token.1 rest ahead
    rw [Nat.succ_eq_add_one,value_scalar n p (by rw [next]; exact token.2),
      Prog.bind_ok _ (getToken_reads p token.1 rest ahead)]
    rfl
  | null =>
    intro n p rest enough ahead
    obtain ⟨n,rfl⟩ := Nat.exists_eq_succ_of_ne_zero (Nat.ne_of_gt enough)
    refine ⟨Kind.null.token,?_⟩
    have next := la_ahead p Kind.null.token rest ahead
    rw [Nat.succ_eq_add_one,value_null n p (by rw [next]; rfl),
      Prog.bind_ok _ (getToken_reads p Kind.null.token rest ahead)]
    rfl
  | object members ih =>
    intro n p rest enough ahead
    obtain ⟨n,rfl⟩ := Nat.exists_eq_succ_of_ne_zero (Nat.ne_of_gt (Nat.zero_lt_of_lt enough))
    have inner := object_inner members n enough
    rw [Doc.tokens,List.cons_append,List.append_assoc] at ahead
    unfold Reads
    rw [Nat.succ_eq_add_one,value_object n p (by rw [la_ahead p _ _ ahead]; rfl)]
    exact object_reads members n p rest (ih n inner) inner ahead
  | array elements ih =>
    intro n p rest enough ahead
    obtain ⟨n,rfl⟩ := Nat.exists_eq_succ_of_ne_zero (Nat.ne_of_gt (Nat.zero_lt_of_lt enough))
    have inner : elements.tokens.length ≤ n := by
      simp only [Doc.tokens,List.length_cons,List.length_append,List.length_tail,
        List.length_nil] at enough
      omega
    rw [Doc.tokens,List.cons_append,List.append_assoc] at ahead
    unfold Reads
    rw [Nat.succ_eq_add_one,value_array n p (by rw [la_ahead p _ _ ahead]; rfl)]
    exact enclosed_reads .openBracket .closeBracket (·.startsValue = true) _ n p elements.tokens
      rest _ (ih n inner) ahead (by decide) (by decide) elements.elements_start inner
  | noMembers => exact fun n _ => ReadsItems.nil _
  | member name value rest ihValue ihRest =>
    intro n enough
    simp only [Doc.tokens,List.length_cons,List.length_append] at enough
    have one := ReadsItems.cons (pair (JSON.value n)) (name.1 :: Kind.colon.token :: value.tokens)
      rest.tokens (.name name.1 :: (value.actions ++ [.setItem])) rest.actions
    have whole := one (fun p rest ahead => pair_reads _ p name value.tokens rest _ ahead
      fun q ahead' => ihValue n q rest (by omega) ahead') (ihRest n (by omega))
    simp only [List.cons_append,List.append_assoc,List.nil_append] at whole
    exact whole
  | noElements => exact fun n _ => ReadsItems.nil _
  | element value rest ihValue ihRest =>
    intro n enough
    simp only [Doc.tokens,List.length_cons,List.length_append] at enough
    exact ReadsItems.cons (JSON.value n) value.tokens rest.tokens value.actions rest.actions
      (fun p rest ahead => ihValue n p rest (by omega) ahead) (ihRest n (by omega))

end ModNdb.JSON
