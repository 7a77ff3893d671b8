import ModNdb.JSON.Members

/-! The text of an object whose values are strings, and what the scanner and the parser make
of it. -/
namespace ModNdb.JSON

/-- `e` spells `s` in a string; control characters and quotes are escaped in it. -/
def Escaped (s e : Text) : Prop :=
  ∃ texts units : List Text, List.Forall₂ Spelled texts units ∧ s = texts.flatten ∧
    e = units.flatten ∧ Units (e.map UInt8.toNat)

def quoted (e : Text) : Text := code '"' :: (e ++ [code '"'])

def objectText (items : List (Text × Text)) : Text :=
  text "\x7b" ++ (List.intercalate [code ','] (items.map fun item =>
    quoted item.1 ++ code ':' :: quoted item.2) ++ text "\x7d")

inductive Lexes : List Nat → List Token → Prop
  | nil : Lexes [] []
  | cons (c : Nat) (chars rest : List Nat) (token : Token) (later : List Token)
      (visible : isBlank c = false) (next : nextToken c chars = (token,rest))
      (lexes : Lexes rest later) : Lexes (c::chars) (token::later)

theorem Lexes.scan {chars : List Nat} {ts : List Token} (lexes : Lexes chars ts) (fuel : Nat)
    (enough : chars.length ≤ fuel) : JSON.scan fuel chars = ts := by
  induction lexes generalizing fuel with
  | nil => cases fuel <;> rfl
  | cons c chars rest token later visible next _ ih =>
    obtain ⟨fuel,rfl⟩ := Nat.exists_eq_succ_of_ne_zero (Nat.ne_of_gt (Nat.lt_of_lt_of_le
      (Nat.succ_pos chars.length) enough))
    have splits : chars = ((State.start c).follow chars).2.1 ++ rest := by
      have behind := follow_splits (State.start c) chars
      rwa [show ((State.start c).follow chars).2.2 = rest from congrArg Prod.snd next] at behind
    have shorter : rest.length ≤ chars.length := by
      have lengths := congrArg List.length splits
      rw [List.length_append] at lengths
      omega
    have first : (c::chars).dropWhile (isBlank ·) = c::chars :=
      List.dropWhile_cons_of_neg (by rw [visible]; exact Bool.false_ne_true)
    rw [Nat.succ_eq_add_one,JSON.scan,first]
    change (nextToken c chars).1 :: JSON.scan fuel (nextToken c chars).2 = _
    rw [next]
    rw [List.length_cons] at enough
    exact congrArg (List.cons token) (ih fuel (by omega))

theorem Lexes.tokens {chars : List Nat} {ts : List Token} (lexes : Lexes chars ts) :
    JSON.tokens chars = ts := lexes.scan _ (Nat.le_refl _)

theorem follow_step (s t : State) (c : Nat) (chars : List Nat) (next : s.step c = some t) :
    s.follow (c::chars) = ((t.follow chars).1,c::(t.follow chars).2.1,(t.follow chars).2.2) := by
  rw [State.follow,next]

theorem follow_stop (s : State) (chars : List Nat) (last : ∀ c, s.step c = none) :
    s.follow chars = (s,[],chars) := by
  cases chars with
  | nil => rfl
  | cons c chars => rw [State.follow,last]

theorem string_char (c : Nat) (inside : isChar c = true) :
    State.string.step c = some .string := if_pos inside

theorem hex_step (c left : Nat) (digit : isHex c = true) :
    (State.hex left).step c = some (if left = 0 then .string else .hex (left - 1)) := if_pos digit

/-- The units of a string lead back to its state. -/
theorem follow_unit (unit : List Nat) (string : StringUnit unit) (rest : List Nat) :
    State.string.follow (unit ++ rest) = ((State.string.follow rest).1,
      unit ++ (State.string.follow rest).2.1,(State.string.follow rest).2.2) := by
  cases string with
  | plain c inside => exact follow_step .string .string c rest (string_char c inside)
  | escape e inside =>
    have back : State.escape.step e = some .string := if_pos inside
    rw [List.cons_append,List.cons_append,follow_step .string .escape 92 _ rfl,
      follow_step .escape .string e _ back]
    rfl
  | hex a b c d digits =>
    have digit (x : Nat) (inside : x ∈ [a,b,c,d]) (left : Nat) := hex_step x left (digits x inside)
    simp only [List.cons_append,List.nil_append]
    rw [follow_step .string .escape 92 _ rfl,follow_step .escape (.hex 3) 117 _ rfl,
      follow_step (.hex 3) (.hex 2) a _ (digit a (by simp) 3),
      follow_step (.hex 2) (.hex 1) b _ (digit b (by simp) 2),
      follow_step (.hex 1) (.hex 0) c _ (digit c (by simp) 1),
      follow_step (.hex 0) .string d _ (digit d (by simp) 0)]

theorem follow_units (inner rest : List Nat) (units : Units inner) :
    State.string.follow (inner ++ 34::rest) = (.stringEnd,inner ++ [34],rest) := by
  obtain ⟨units,each,rfl⟩ := units
  induction units with
  | nil =>
    rw [List.flatten_nil,List.nil_append,follow_step .string .stringEnd 34 rest rfl,
      follow_stop .stringEnd rest fun _ => rfl]
    rfl
  | cons unit units ih =>
    rw [List.flatten_cons,List.append_assoc,follow_unit unit (each unit List.mem_cons_self),
      ih fun one inside => each one (List.mem_cons_of_mem _ inside)]
    rw [List.append_assoc]

theorem Lexes.mark (kind : Kind) (c : Nat) (rest : List Nat) (later : List Token)
    (visible : isBlank c = false) (start : State.start c = .mark kind) (spelled : kind.token.val = [c])
    (lexes : Lexes rest later) : Lexes (c::rest) (kind.token::later) := by
  refine .cons c rest rest kind.token later visible ?_ lexes
  unfold nextToken
  rw [start,follow_stop (.mark kind) rest fun _ => rfl]
  exact congrArg (fun val => (Token.mk kind val,rest)) spelled.symm

def stringToken (e : Text) : NameToken := ⟨⟨.string,(quoted e).map UInt8.toNat⟩,rfl⟩

theorem Lexes.string (e : Text) (rest : List Nat) (later : List Token)
    (units : Units (e.map UInt8.toNat)) (lexes : Lexes rest later) :
    Lexes ((quoted e).map UInt8.toNat ++ rest) ((stringToken e).1::later) := by
  have split : (quoted e).map UInt8.toNat = 34 :: (e.map UInt8.toNat ++ [34]) := by
    unfold quoted
    rw [List.map_cons,List.map_append]
    rfl
  unfold stringToken
  rw [split,List.cons_append,List.append_assoc]
  refine .cons 34 _ rest _ later rfl ?_ lexes
  unfold nextToken
  rw [show State.start 34 = .string from rfl,List.singleton_append,follow_units _ rest units]
  rfl

def stringMembers : List (Text × Text) → Doc .members
  | [] => .noMembers
  | item::items =>
    .member (stringToken item.1) (.scalar ⟨(stringToken item.2).1,rfl⟩) (stringMembers items)

def membersText (items : List (Text × Text)) : Text :=
  items.flatMap fun item => code ',' :: (quoted item.1 ++ code ':' :: quoted item.2)

theorem member_lex (item : Text × Text) (rest : List Nat) (later : List Token)
    (name : Units (item.1.map UInt8.toNat)) (value : Units (item.2.map UInt8.toNat))
    (lexes : Lexes rest later) :
    Lexes ((quoted item.1 ++ code ':' :: quoted item.2).map UInt8.toNat ++ rest)
      ((stringToken item.1).1 :: Kind.colon.token :: (stringToken item.2).1 :: later) := by
  rw [List.map_append,List.append_assoc]
  exact Lexes.string item.1 _ _ name (Lexes.mark .colon 58 _ _ rfl rfl rfl
    (Lexes.string item.2 rest later value lexes))

theorem members_lex (items : List (Text × Text)) (rest : List Nat) (later : List Token)
    (spelled : ∀ item ∈ items, Units (item.1.map UInt8.toNat) ∧ Units (item.2.map UInt8.toNat))
    (lexes : Lexes rest later) :
    Lexes ((membersText items).map UInt8.toNat ++ rest)
      ((stringMembers items).tokens ++ later) := by
  induction items with
  | nil => exact lexes
  | cons item items ih =>
    obtain ⟨name,value⟩ := spelled item List.mem_cons_self
    have further := ih fun one inside => spelled one (List.mem_cons_of_mem _ inside)
    have one := member_lex item _ _ name value further
    unfold membersText
    rw [List.flatMap_cons,List.map_append,List.append_assoc]
    exact Lexes.mark .comma 44 _ _ rfl rfl rfl one

theorem intercalate_tail (sep : UInt8) (parts : List Text) :
    List.intercalate [sep] parts = (parts.flatMap (sep :: ·)).tail := by
  induction parts with
  | nil => rfl
  | cons part parts ih =>
    cases parts with
    | nil => simp [List.intercalate]
    | cons next parts =>
      rw [List.flatMap_cons,List.cons_append,List.tail_cons]
      rw [show List.intercalate [sep] (part::next::parts) =
        part ++ sep :: List.intercalate [sep] (next::parts) by simp [List.intercalate],ih]
      rfl

/-- The text of an object of strings is read as its document. -/
theorem object_lexes (items : List (Text × Text))
    (spelled : ∀ item ∈ items, Units (item.1.map UInt8.toNat) ∧ Units (item.2.map UInt8.toNat)) :
    Lexes ((objectText items).map UInt8.toNat) (Doc.object (stringMembers items)).tokens := by
  have closes : Lexes [125] [Kind.closeBrace.token] := Lexes.mark .closeBrace 125 [] [] rfl rfl rfl .nil
  unfold objectText
  rw [List.map_append,List.map_append,intercalate_tail,Doc.tokens]
  apply Lexes.mark .openBrace 123 _ _ rfl rfl rfl
  cases items with
  | nil => exact closes
  | cons item items =>
    obtain ⟨name,value⟩ := spelled item List.mem_cons_self
    have further := members_lex items [125] _ (fun one inside =>
      spelled one (List.mem_cons_of_mem _ inside)) closes
    have one := member_lex item _ _ name value further
    rw [List.map_cons,List.flatMap_cons,List.cons_append,List.tail_cons,List.map_append,
      List.append_assoc,List.flatMap_map]
    exact one

theorem object_begins (items : List (Text × Text)) :
    scannerInit (objectText items) = some ((objectText items).map UInt8.toNat) := rfl

theorem stringMembers_settled (items : List (Text × Text)) (number : Nat) :
    ∀ m ∈ (stringMembers items).members number, Settled m := by
  induction items generalizing number with
  | nil =>
    intro m inside
    rw [stringMembers,Doc.members] at inside
    cases inside
  | cons item items ih =>
    intro m inside
    rw [stringMembers,Doc.members] at inside
    rcases List.mem_cons.mp inside with rfl | inside
    · exact ⟨rfl,_,rfl⟩
    · exact ih _ m inside

def SpellsPairs (pairs items : List (Text × Text)) : Prop :=
  List.Forall₂ (fun pair item => Escaped pair.1 item.1 ∧ Escaped pair.2 item.2) pairs items

theorem Escaped.units {s e : Text} (escaped : Escaped s e) : Units (e.map UInt8.toNat) := by
  obtain ⟨_,_,_,_,_,units⟩ := escaped
  exact units

theorem Escaped.blob {s e : Text} (escaped : Escaped s e) : jsonBlob (stringToken e).1 = .ok s := by
  obtain ⟨texts,units,spelled,rfl,rfl,_⟩ := escaped
  apply blob_of_unescapes
  have chars : (stringToken units.flatten).1.chars = units.flatten := by
    have split : (quoted units.flatten).map UInt8.toNat =
        34 :: (units.flatten.map UInt8.toNat ++ [34]) := by
      unfold quoted
      rw [List.map_cons,List.map_append]
      rfl
    unfold stringToken
    rw [split,string_chars,List.map_map]
    exact List.map_id'' (fun c => UInt8.ofNat_toNat) _
  rw [chars]
  exact unescapes_spelled texts units spelled

theorem spelled_decodes (pairs items : List (Text × Text)) (spells : SpellsPairs pairs items) :
    Decodes (stringMembers items).actions := by
  induction spells with
  | nil => exact fun _ inside => absurd inside List.not_mem_nil
  | cons first rest ih =>
    rw [stringMembers,Doc.actions]
    unfold Decodes
    rw [List.forall_mem_cons,List.forall_mem_append,List.forall_mem_cons]
    refine ⟨?_,?_,fun _ none => (by cases none),ih⟩
    · rintro _ ⟨⟩
      exact ⟨_,first.1.blob⟩
    · intro action inside
      cases List.mem_singleton.mp inside
      rintro _ ⟨⟩
      exact ⟨_,first.2.blob⟩

theorem spelled_delivered (pairs items : List (Text × Text)) (number : Nat)
    (made : List (Call × Text × Text)) (spells : SpellsPairs pairs items)
    (nulFree : ∀ pair ∈ pairs, 0 ∉ pair.1)
    (delivered : List.Forall₂ (fun m one => Delivered m one.1 one.2)
      ((stringMembers items).members number) made) : made.map Prod.snd = pairs := by
  induction spells generalizing number made with
  | nil =>
    rw [stringMembers,Doc.members] at delivered
    cases delivered
    rfl
  | cons first rest ih =>
    rw [stringMembers,Doc.members] at delivered
    cases delivered with
    | cons here later =>
      obtain ⟨free,others⟩ := List.forall_mem_cons.mp nulFree
      obtain ⟨bytes,decoded,_,named⟩ := here.name
      cases first.1.blob.symm.trans decoded
      have value := here.scalar _ rfl
      have same := Except.ok.inj (first.2.blob.symm.trans value)
      rw [cstring_self _ free] at named
      rw [List.map_cons,ih _ _ others later]
      exact congrArg (· :: _) (Prod.ext named same.symm)

/-- The actions of an object of strings set its pairs. -/
theorem object_sets (pairs items : List (Text × Text)) (spells : SpellsPairs pairs items)
    (nulFree : ∀ pair ∈ pairs, 0 ∉ pair.1) :
    ∃ r, runActions (stringMembers items).actions .init = (.ok (),r) ∧
      r.form = Query.setItems pairs := by
  obtain ⟨r,made,ran,delivered,_,form⟩ := run_settled (stringMembers items) .init
    (spelled_decodes pairs items spells) (stringMembers_settled items 0)
  refine ⟨r,ran,?_⟩
  rw [form,spelled_delivered pairs items 0 made spells nulFree delivered]
  rfl

theorem SpellsPairs.units {pairs items : List (Text × Text)} (spells : SpellsPairs pairs items) :
    ∀ item ∈ items, Units (item.1.map UInt8.toNat) ∧ Units (item.2.map UInt8.toNat) := by
  intro item inside
  obtain ⟨_,_,name,value⟩ := forall₂_mem_left spells.flip item inside
  exact ⟨name.units,value.units⟩

end ModNdb.JSON
