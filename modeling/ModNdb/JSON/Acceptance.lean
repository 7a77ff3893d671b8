import ModNdb.JSON.Document

/-! The parser always comes to an end, and what it accepts is a document. -/
namespace ModNdb.JSON

def Within (bound : Nat) (x : Production) : Prop :=
  ∀ p : Parsing, p.ahead.length < bound → ∃ q, x p = (.ok (),q) ∧ q.ahead.length ≤ p.ahead.length

section
variable {bound : Nat}

theorem Within.bind {x : Production} {f : Unit → Production} (first : Within bound x)
    (later : Within bound (f ())) : Within bound (x >>= f) := by
  intro p enough
  obtain ⟨q,ran,fewer⟩ := first p enough
  obtain ⟨r,ran',fewer'⟩ := later q (by omega)
  exact ⟨r,by rw [Prog.bind_ok f ran,ran'],by omega⟩

theorem Within.get {f : Parsing → Production} (later : ∀ p, Within bound (f p)) :
    Within bound (Prog.get >>= f) := fun p enough => later p p enough

theorem Within.modify (f : Parsing → Parsing) (kept : ∀ p, (f p).ahead.length ≤ p.ahead.length) :
    Within bound (Prog.modify f) := fun p _ => ⟨f p,rfl,kept p⟩

theorem getToken_within : Within bound getToken :=
  Within.modify _ fun p => by simp

theorem act_within (action : Token → Action) : Within bound (act action) :=
  Within.modify _ fun _ => Nat.le_refl _

theorem expect_within (kind : Kind) : Within bound (expect kind) := by
  apply Within.get
  intro p
  by_cases expected : p.la.kind = kind
  · rw [if_pos expected]
    exact getToken_within
  · rw [if_neg expected]
    exact Within.modify _ fun _ => Nat.le_refl _

theorem getToken_fewer (p : Parsing) (kind : Kind) (next : p.la.kind = kind) (some : kind ≠ .eof) :
    ∃ q, getToken p = (.ok (),q) ∧ q.ahead.length + 1 = p.ahead.length ∧
      q.erroneous = p.erroneous ∧ q.actions = p.actions := by
  cases ahead : p.ahead with
  | nil =>
    unfold Parsing.la at next
    rw [ahead] at next
    exact absurd next.symm some
  | cons token rest => exact ⟨_,getToken_reads p token rest ahead,rfl,rfl,rfl⟩

theorem furtherItems_within (item : Production) (fuel : Nat) (ends : Within bound item)
    (p : Parsing) (enough : p.ahead.length < fuel) (fits : p.ahead.length < bound + 1) :
    ∃ q, furtherItems item fuel p = (.ok (),q) ∧ q.ahead.length ≤ p.ahead.length := by
  induction fuel generalizing p with
  | zero => omega
  | succ fuel ih =>
    rw [furtherItems,Prog.bind_ok _ (Prog.get_run p)]
    by_cases comma : p.la.kind = .comma
    · obtain ⟨q,ran,fewer,_⟩ := getToken_fewer p .comma comma (by decide)
      obtain ⟨r,ran',fewer'⟩ := ends q (by omega)
      obtain ⟨s,ran'',fewer''⟩ := ih r (by omega) (by omega)
      refine ⟨s,?_,by omega⟩
      rw [if_pos comma,Prog.bind_ok _ ran,Prog.bind_ok _ ran',ran'']
    · rw [if_neg comma]
      exact ⟨p,rfl,Nat.le_refl _⟩

theorem pair_within (item : Production) (ends : Within bound item) :
    Within bound (pair item) := by
  exact (expect_within .string).bind ((act_within _).bind ((expect_within .colon).bind
    (ends.bind (act_within _))))

end

theorem enclosed_within (opening closing : Kind) (starts : Kind → Prop) [DecidablePred starts]
    (item : Production) (fuel : Nat) (ends : Within fuel item) (p : Parsing)
    (next : p.la.kind = opening) (some : opening ≠ .eof) (enough : p.ahead.length < fuel + 1) :
    ∃ q, (do
      expect opening
      let p ← Prog.get
      if starts p.la.kind then
        item
        furtherItems item fuel
      expect closing) p = (.ok (),q) ∧ q.ahead.length ≤ p.ahead.length := by
  obtain ⟨q,ran,fewer,_⟩ := getToken_fewer p opening next some
  have opened : expect opening p = (.ok (),q) := by
    rw [expect,Prog.bind_ok _ (Prog.get_run p),if_pos next,ran]
  rw [Prog.bind_ok _ opened,Prog.bind_ok _ (Prog.get_run q)]
  by_cases begins : starts q.la.kind
  · obtain ⟨r,ran',fewer'⟩ := ends q (by omega)
    obtain ⟨s,ran'',fewer''⟩ := furtherItems_within item fuel ends r (by omega) (by omega)
    have closes : Within fuel (expect closing) := expect_within closing
    obtain ⟨t,closed,last⟩ := closes s (by omega)
    refine ⟨t,?_,by omega⟩
    rw [if_pos begins,Prog.bind_ok _ ran',Prog.bind_ok _ ran'']
    exact closed
  · have closes : Within fuel (expect closing) := expect_within closing
    obtain ⟨t,closed,last⟩ := closes q (by omega)
    refine ⟨t,?_,by omega⟩
    rw [if_neg begins]
    exact closed

theorem value_within (n : Nat) : Within n (value n) := by
  induction n with
  | zero => exact fun _ enough => absurd enough (Nat.not_lt_zero _)
  | succ n ih =>
    intro p enough
    by_cases begins : p.la.kind.startsValue = true
    · by_cases scalar : p.la.kind.isScalar = true
      · rw [value_scalar n p scalar]
        exact getToken_within.bind (act_within _) p enough
      · cases kind : p.la.kind with
        | null =>
          rw [value_null n p kind]
          exact getToken_within.bind (act_within _) p enough
        | openBrace =>
          rw [value_object n p kind]
          exact enclosed_within .openBrace .closeBrace (· = .string) _ n (pair_within _ ih) p kind
            (by decide) enough
        | openBracket =>
          rw [value_array n p kind]
          exact enclosed_within .openBracket .closeBracket (·.startsValue = true) _ n ih p kind
            (by decide) enough
        | _ =>
          rw [kind] at begins scalar
          first | exact absurd rfl scalar | cases begins
    · rw [value_error n p (Bool.eq_false_iff.mpr begins)]
      exact ⟨_,rfl,Nat.le_refl _⟩

def Sound (x : Production) (language : List Token → Prop) : Prop :=
  ∀ p q, x p = (.ok (),q) → q.erroneous = false →
    p.erroneous = false ∧ ∃ taken, language taken ∧ p.ahead = taken ++ q.ahead

def Follows (first later : List Token → Prop) (tokens : List Token) : Prop :=
  ∃ front back, tokens = front ++ back ∧ first front ∧ later back

theorem Sound.bind {x : Production} {f : Unit → Production} {first later : List Token → Prop}
    (one : Sound x first) (two : Sound (f ()) later) : Sound (x >>= f) (Follows first later) := by
  intro p q ran clean
  obtain ⟨u,middle,ran',ran''⟩ := Prog.bind_inv ran
  obtain ⟨clean',back,later,split⟩ := two middle q ran'' clean
  obtain ⟨clean'',front,first,split'⟩ := one p middle ran' clean'
  exact ⟨clean'',front ++ back,⟨front,back,rfl,first,later⟩,by rw [split',split,List.append_assoc]⟩

theorem Sound.mono {x : Production} {small large : List Token → Prop} (sound : Sound x small)
    (larger : ∀ tokens, small tokens → large tokens) : Sound x large := by
  intro p q ran clean
  obtain ⟨clean',taken,inside,split⟩ := sound p q ran clean
  exact ⟨clean',taken,larger taken inside,split⟩

theorem act_sound (action : Token → Action) : Sound (act action) (· = []) := by
  intro p q ran clean
  cases ran
  exact ⟨clean,[],rfl,rfl⟩

theorem expect_sound (kind : Kind) (some : kind ≠ .eof) :
    Sound (expect kind) fun tokens => ∃ token, tokens = [token] ∧ token.kind = kind := by
  intro p q ran clean
  rw [expect,Prog.bind_ok _ (Prog.get_run p)] at ran
  by_cases expected : p.la.kind = kind
  · rw [if_pos expected] at ran
    cases ahead : p.ahead with
    | nil =>
      unfold Parsing.la at expected
      rw [ahead] at expected
      exact absurd expected.symm some
    | cons token rest =>
      rw [getToken_reads p token rest ahead] at ran
      cases ran
      rw [la_ahead p token rest ahead] at expected
      exact ⟨clean,[token],⟨token,rfl,expected⟩,rfl⟩
  · rw [if_neg expected] at ran
    cases ran
    cases clean

inductive Items (item : List Token → Prop) : List Token → Prop
  | nil : Items item []
  | cons (comma : Token) (one rest : List Token) (kind : comma.kind = .comma) (first : item one)
      (later : Items item rest) : Items item (comma :: (one ++ rest))

theorem further_sound (item : Production) (language : List Token → Prop) (fuel : Nat)
    (sound : Sound item language) : Sound (furtherItems item fuel) (Items language) := by
  induction fuel with
  | zero =>
    intro p q ran
    cases ran
  | succ fuel ih =>
    intro p q ran clean
    rw [furtherItems,Prog.bind_ok _ (Prog.get_run p)] at ran
    by_cases comma : p.la.kind = .comma
    · rw [if_pos comma] at ran
      obtain ⟨token,rest,ahead⟩ : ∃ token rest, p.ahead = token::rest := by
        cases ahead : p.ahead with
        | nil =>
          unfold Parsing.la at comma
          rw [ahead] at comma
          cases comma
        | cons token rest => exact ⟨token,rest,rfl⟩
      rw [Prog.bind_ok _ (getToken_reads p token rest ahead)] at ran
      obtain ⟨clean',_,⟨front,back,rfl,first,later⟩,split⟩ := Sound.bind sound ih _ q ran clean
      rw [la_ahead p token rest ahead] at comma
      refine ⟨clean',_,Items.cons token front back comma first later,?_⟩
      rw [ahead,List.cons_append]
      exact congrArg (List.cons token) split
    · rw [if_neg comma] at ran
      cases ran
      exact ⟨clean,[],.nil,rfl⟩

theorem pair_sound (item : Production) (language : List Token → Prop) (sound : Sound item language) :
    Sound (pair item) fun tokens => ∃ name colon inner, name.kind = .string ∧ colon.kind = .colon ∧
      language inner ∧ tokens = name :: colon :: inner := by
  apply Sound.mono ((expect_sound .string (by decide)).bind ((act_sound _).bind
    ((expect_sound .colon (by decide)).bind (sound.bind (act_sound _)))))
  rintro _ ⟨_,_,rfl,⟨name,rfl,string⟩,_,_,rfl,rfl,_,_,rfl,⟨colon,rfl,kind⟩,inner,_,rfl,inside,rfl⟩
  exact ⟨name,colon,inner,string,kind,inside,by simp⟩

theorem enclosed_sound (opening closing : Kind) (starts : Kind → Prop) [DecidablePred starts]
    (item : Production) (fuel : Nat) (language : List Token → Prop) (sound : Sound item language)
    (some : opening ≠ .eof) (some' : closing ≠ .eof) :
    Sound (do
      expect opening
      let p ← Prog.get
      if starts p.la.kind then
        item
        furtherItems item fuel
      expect closing) fun tokens => ∃ first last inner, first.kind = opening ∧ last.kind = closing ∧
        (inner = [] ∨ ∃ one rest, language one ∧ Items language rest ∧ inner = one ++ rest) ∧
        tokens = first :: (inner ++ [last]) := by
  intro p q ran clean
  obtain ⟨_,r,opened,ran⟩ := Prog.bind_inv ran
  rw [Prog.bind_ok _ (Prog.get_run r)] at ran
  by_cases begins : starts r.la.kind
  · rw [if_pos begins] at ran
    have closed := expect_sound closing some'
    obtain ⟨clean',_,⟨one,_,rfl,inside,rest,_,rfl,later,last,rfl,kind⟩,split⟩ :=
      Sound.bind sound (Sound.bind (f := fun _ => expect closing)
        (further_sound item language fuel sound) closed) r q ran clean
    obtain ⟨clean'',_,⟨first,rfl,kind'⟩,split'⟩ := expect_sound opening some p r opened clean'
    refine ⟨clean'',_,⟨first,last,one ++ rest,kind',kind,.inr ⟨one,rest,inside,later,rfl⟩,rfl⟩,?_⟩
    rw [split',split]
    simp
  · rw [if_neg begins] at ran
    obtain ⟨clean',_,⟨last,rfl,kind⟩,split⟩ := expect_sound closing some' r q ran clean
    obtain ⟨clean'',_,⟨first,rfl,kind'⟩,split'⟩ := expect_sound opening some p r opened clean'
    refine ⟨clean'',_,⟨first,last,[],kind',kind,.inl rfl,rfl⟩,?_⟩
    rw [split',split]
    rfl

/-- The tokens that have only one spelling have it, as the scanner sees to. -/
def Canonical (tokens : List Token) : Prop :=
  ∀ token ∈ tokens, ∀ spelling, token.kind.spelling? = some spelling → token.val = spelling

theorem Canonical.token {tokens : List Token} (canonical : Canonical tokens) (token : Token)
    (inside : token ∈ tokens) (single : token.kind.spelling?.isSome = true) :
    token = token.kind.token := by
  obtain ⟨spelling,spelled⟩ := Option.isSome_iff_exists.mp single
  have val := canonical token inside spelling spelled
  cases token with
  | mk kind _ =>
    change _ = spelling at val
    subst val
    unfold Kind.token
    rw [spelled]
    rfl

theorem Canonical.sublist {tokens part : List Token} (canonical : Canonical tokens)
    (inside : ∀ token ∈ part, token ∈ tokens) : Canonical part :=
  fun token member => canonical token (inside token member)

def IsValue (tokens : List Token) : Prop :=
  Canonical tokens → ∃ d : Doc .value, tokens = d.tokens

theorem elements_of_items (tokens : List Token) (items : Items IsValue tokens)
    (canonical : Canonical tokens) : ∃ d : Doc .elements, tokens = d.tokens := by
  induction items with
  | nil => exact ⟨.noElements,rfl⟩
  | cons comma one rest kind first later ih =>
    obtain ⟨value,rfl⟩ := first (canonical.sublist fun token inside => by simp [inside])
    obtain ⟨elements,rfl⟩ := ih (canonical.sublist fun token inside => by simp [inside])
    refine ⟨.element value elements,?_⟩
    rw [Doc.tokens,canonical.token comma List.mem_cons_self (by rw [kind]; rfl),kind]

def IsMember (tokens : List Token) : Prop :=
  ∃ name colon inner, name.kind = Kind.string ∧ colon.kind = Kind.colon ∧ IsValue inner ∧
    tokens = name :: colon :: inner

theorem members_of_items (tokens : List Token) (items : Items IsMember tokens)
    (canonical : Canonical tokens) : ∃ d : Doc .members, tokens = d.tokens := by
  induction items with
  | nil => exact ⟨.noMembers,rfl⟩
  | cons comma one rest kind first later ih =>
    obtain ⟨name,colon,inner,string,kind',inside,rfl⟩ := first
    obtain ⟨value,rfl⟩ := inside (canonical.sublist fun token member => by simp [member])
    obtain ⟨members,rfl⟩ := ih (canonical.sublist fun token member => by simp [member])
    refine ⟨.member ⟨name,string⟩ value members,?_⟩
    rw [Doc.tokens,canonical.token comma List.mem_cons_self (by rw [kind]; rfl),kind]
    rw [canonical.token colon (by simp) (by rw [kind']; rfl),kind']
    rfl

theorem comma_canonical {tokens : List Token} (canonical : Canonical tokens) :
    Canonical (Kind.comma.token :: tokens) := by
  intro token inside spelling spelled
  rcases List.mem_cons.mp inside with rfl | inside
  · cases spelled
    rfl
  · exact canonical token inside spelling spelled

theorem inner_items {language : List Token → Prop} {inner : List Token}
    (items : inner = [] ∨ ∃ one rest, language one ∧ Items language rest ∧ inner = one ++ rest) :
    ∃ tokens, Items language tokens ∧ tokens.tail = inner ∧
      (Canonical inner → Canonical tokens) := by
  rcases items with rfl | ⟨one,rest,first,later,rfl⟩
  · exact ⟨[],.nil,rfl,fun canonical => canonical⟩
  · exact ⟨_,.cons Kind.comma.token one rest rfl first later,rfl,comma_canonical⟩

theorem object_sound (n fuel : Nat) (sound : Sound (value n) IsValue) :
    Sound (object (value n) fuel) IsValue := by
  apply Sound.mono (enclosed_sound .openBrace .closeBrace (· = .string) _ fuel IsMember
    (pair_sound _ _ sound) (by decide) (by decide))
  rintro _ ⟨first,last,inner,kind,kind',parts,rfl⟩ canonical
  obtain ⟨tokens,items,rfl,kept⟩ := inner_items parts
  obtain ⟨members,rfl⟩ := members_of_items tokens items
    (kept (canonical.sublist fun token member => by simp [member]))
  refine ⟨.object members,?_⟩
  rw [Doc.tokens,canonical.token first (by simp) (by rw [kind]; rfl),kind,
    canonical.token last (by simp) (by rw [kind']; rfl),kind']

theorem array_sound (n fuel : Nat) (sound : Sound (value n) IsValue) :
    Sound (array (value n) fuel) IsValue := by
  apply Sound.mono (enclosed_sound .openBracket .closeBracket (·.startsValue = true) _ fuel IsValue
    sound (by decide) (by decide))
  rintro _ ⟨first,last,inner,kind,kind',parts,rfl⟩ canonical
  obtain ⟨tokens,items,rfl,kept⟩ := inner_items parts
  obtain ⟨elements,rfl⟩ := elements_of_items tokens items
    (kept (canonical.sublist fun token member => by simp [member]))
  refine ⟨.array elements,?_⟩
  rw [Doc.tokens,canonical.token first (by simp) (by rw [kind]; rfl),kind,
    canonical.token last (by simp) (by rw [kind']; rfl),kind']

theorem value_sound (n : Nat) : Sound (value n) IsValue := by
  induction n with
  | zero =>
    intro p q ran
    cases ran
  | succ n ih =>
    intro p q ran clean
    by_cases begins : p.la.kind.startsValue = true
    · obtain ⟨token,rest,ahead⟩ : ∃ token rest, p.ahead = token::rest := by
        cases ahead : p.ahead with
        | nil =>
          unfold Parsing.la at begins
          rw [ahead] at begins
          cases begins
        | cons token rest => exact ⟨token,rest,rfl⟩
      have next := la_ahead p token rest ahead
      by_cases scalar : p.la.kind.isScalar = true
      · rw [value_scalar n p scalar,Prog.bind_ok _ (getToken_reads p token rest ahead)] at ran
        cases ran
        rw [next] at scalar
        exact ⟨clean,[token],fun _ => ⟨.scalar ⟨token,scalar⟩,rfl⟩,ahead⟩
      · cases kind : p.la.kind with
        | null =>
          rw [value_null n p kind,Prog.bind_ok _ (getToken_reads p token rest ahead)] at ran
          cases ran
          rw [next] at kind
          refine ⟨clean,[token],fun canonical => ⟨.null,?_⟩,ahead⟩
          rw [canonical.token token List.mem_cons_self (by rw [kind]; rfl),kind]
          rfl
        | openBrace =>
          rw [value_object n p kind] at ran
          exact object_sound n n ih p q ran clean
        | openBracket =>
          rw [value_array n p kind] at ran
          exact array_sound n n ih p q ran clean
        | _ =>
          rw [kind] at begins scalar
          first | exact absurd rfl scalar | cases begins
    · rw [value_error n p (Bool.eq_false_iff.mpr begins)] at ran
      cases ran
      cases clean

theorem json_object (n : Nat) (p : Parsing) (brace : p.la.kind = .openBrace) :
    json n p = object (value n) n p := by
  rw [json,Prog.bind_ok _ (Prog.get_run p),brace]

theorem json_array (n : Nat) (p : Parsing) (bracket : p.la.kind = .openBracket) :
    json n p = array (value n) n p := by
  rw [json,Prog.bind_ok _ (Prog.get_run p),bracket]

theorem json_other (n : Nat) (p : Parsing) (brace : p.la.kind ≠ .openBrace)
    (bracket : p.la.kind ≠ .openBracket) : json n p = synErr p := by
  rw [json,Prog.bind_ok _ (Prog.get_run p)]
  cases kind : p.la.kind <;> first | rfl | exact absurd kind brace | exact absurd kind bracket

theorem json_value (n : Nat) (p : Parsing)
    (starts : p.la.kind = .openBrace ∨ p.la.kind = .openBracket) : json n p = value (n + 1) p := by
  rcases starts with brace | bracket
  · rw [json_object n p brace,value_object n p brace]
  · rw [json_array n p bracket,value_array n p bracket]

theorem json_within (n : Nat) (p : Parsing) (enough : p.ahead.length < n + 1) :
    ∃ q, json n p = (.ok (),q) ∧ q.ahead.length ≤ p.ahead.length := by
  by_cases starts : p.la.kind = .openBrace ∨ p.la.kind = .openBracket
  · rw [json_value n p starts]
    exact value_within (n + 1) p enough
  · rw [json_other n p (fun brace => starts (.inl brace)) fun bracket => starts (.inr bracket)]
    exact ⟨_,rfl,Nat.le_refl _⟩

/-- The parser comes to an end of every input. -/
theorem parse_ends (input : List Token) : ∃ q, parse input = (.ok (),q) := by
  obtain ⟨q,ran,_⟩ := json_within (input.length + 1) ⟨.eof,input,false,[]⟩ (by simp)
  obtain ⟨r,ran',_⟩ := expect_within .eof q (Nat.lt_succ_self _)
  refine ⟨r,?_⟩
  rw [parse,Prog.bind_ok _ ran]
  exact ran'

/-- The object production derives the input, and nothing is behind it. -/
def AcceptsObject (input : List Token) : Prop :=
  (input.head?.getD .eof).kind = .openBrace ∧ (parse input).2.erroneous = false

/-- What the parser does with a document. -/
theorem parse_document (d : Doc .value)
    (starts : (d.tokens.head?.getD .eof).kind = .openBrace ∨
      (d.tokens.head?.getD .eof).kind = .openBracket) :
    ∃ t, parse d.tokens = (.ok (),⟨t,[],false,d.actions⟩) := by
  obtain ⟨t,ran⟩ := d.parses (d.tokens.length + 2) ⟨.eof,d.tokens,false,[]⟩ []
    (Nat.le_add_right _ _) (List.append_nil _).symm
  exact ⟨.eof,Prog.bind_ok _ ((json_value _ ⟨.eof,d.tokens,false,[]⟩ starts).trans ran)⟩

theorem parse_object (members : Doc .members) :
    ∃ t, parse (Doc.object members).tokens = (.ok (),⟨t,[],false,members.actions⟩) :=
  parse_document (.object members) (.inl rfl)

/-- What is accepted is a document. -/
theorem accepted_document (input : List Token) (canonical : Canonical input)
    (some : ∀ token ∈ input, token.kind ≠ .eof) (clean : (parse input).2.erroneous = false) :
    ((input.head?.getD .eof).kind = .openBrace ∨ (input.head?.getD .eof).kind = .openBracket) ∧
      ∃ d : Doc .value, input = d.tokens := by
  obtain ⟨q,ran⟩ := parse_ends input
  rw [ran] at clean
  obtain ⟨_,middle,ran',ended⟩ := Prog.bind_inv ran
  rw [expect,Prog.bind_ok _ (Prog.get_run middle)] at ended
  by_cases last : middle.la.kind = .eof
  swap
  · rw [if_neg last] at ended
    cases ended
    cases clean
  rw [if_pos last] at ended
  have clean' : middle.erroneous = false := by
    cases ended
    exact clean
  by_cases starts : (input.head?.getD .eof).kind = .openBrace ∨
    (input.head?.getD .eof).kind = .openBracket
  swap
  · rw [json_other _ ⟨.eof,input,false,[]⟩ (fun brace => starts (.inl brace))
      fun bracket => starts (.inr bracket)] at ran'
    cases ran'
    cases clean'
  refine ⟨starts,?_⟩
  rw [json_value _ ⟨.eof,input,false,[]⟩ starts] at ran'
  obtain ⟨_,taken,inside,split⟩ := value_sound _ _ middle ran' clean'
  change input = taken ++ middle.ahead at split
  have nothing : middle.ahead = [] := by
    cases ahead : middle.ahead with
    | nil => rfl
    | cons token rest =>
      rw [la_ahead middle token rest ahead] at last
      exact absurd last (some token (by rw [split,ahead]; simp))
  rw [nothing,List.append_nil] at split
  subst split
  exact inside canonical

theorem accepts_iff (input : List Token) (canonical : Canonical input)
    (some : ∀ token ∈ input, token.kind ≠ .eof) :
    AcceptsObject input ↔ ∃ members : Doc .members, input = (Doc.object members).tokens := by
  constructor
  · rintro ⟨brace,clean⟩
    obtain ⟨-,d,rfl⟩ := accepted_document input canonical some clean
    cases d with
    | scalar token =>
      have scalar := token.2
      rw [show token.1.kind = .openBrace from brace] at scalar
      cases scalar
    | null => cases brace
    | object members => exact ⟨members,rfl⟩
    | array elements => cases brace
  · rintro ⟨members,rfl⟩
    obtain ⟨t,ran⟩ := parse_object members
    refine ⟨rfl,?_⟩
    rw [ran]

end ModNdb.JSON
