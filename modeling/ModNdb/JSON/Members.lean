import ModNdb.JSON.Acceptance
import ModNdb.JSON.Decoding

/-! What the semantic actions do with an object: which names and values `set_item` is called
with, and what the table holds in the end. -/
namespace ModNdb.JSON

def Doc.leaves : {part : Part} → Doc part → List (Option Token)
  | _, .scalar token => [some token.1]
  | _, .null => [none]
  | _, .object members => members.leaves
  | _, .array elements => elements.leaves
  | _, .noMembers | _, .noElements => []
  | _, .member _ value rest | _, .element value rest => value.leaves ++ rest.leaves

def Doc.count : {part : Part} → Doc part → Nat
  | _, .scalar _ | _, .null | _, .noMembers | _, .noElements => 0
  | _, .object members => members.count
  | _, .array elements => elements.count
  | _, .member _ value rest => value.count + rest.count + 1
  | _, .element value rest => value.count + rest.count

structure Member where
  number : Nat
  name : NameToken
  value : Doc .value

def Doc.members : Doc .members → Nat → List Member
  | .noMembers, _ => []
  | .member name value rest, number =>
    ⟨number,name,value⟩ :: rest.members (number + 1 + value.count)

def Action.token? : Action → Option Token
  | .name token | .value token => some token
  | .null | .setItem => none

def Decodes (actions : List Action) : Prop :=
  ∀ action ∈ actions, ∀ token, action.token? = some token → ∃ bytes, jsonBlob token = .ok bytes

/-- `pointer` is a text that was made for the member. -/
def Pointer.own (pointer : Pointer) (member : Nat) (bytes : Text) : Prop :=
  pointer = .made ⟨bytes,some member⟩

/-- `pointer` is not a text made for a member with this number or a later one. -/
def Pointer.Before (pointer : Pointer) (number : Nat) : Prop :=
  ∀ member bytes, pointer.own member bytes → member < number

theorem Decodes.append (first later : List Action) :
    Decodes (first ++ later) ↔ Decodes first ∧ Decodes later := by
  unfold Decodes
  rw [List.forall_mem_append]

theorem runActions_cons (action : Action) (later : List Action) :
    runActions (action :: later) = action.run >>= fun _ => runActions later := rfl

theorem runActions_append (first later : List Action) :
    runActions (first ++ later) = runActions first >>= fun _ => runActions later := by
  induction first with
  | nil => rfl
  | cons action first ih =>
    rw [List.cons_append,runActions_cons,runActions_cons,ih,Prog.bind_assoc]

theorem run_decodes (actions : List Action) (r s : Reading) (ran : runActions actions r = (.ok (),s)) :
    Decodes actions := by
  induction actions generalizing r with
  | nil => exact fun _ inside => absurd inside List.not_mem_nil
  | cons action actions ih =>
    rw [runActions_cons] at ran
    obtain ⟨_,middle,ran',rest⟩ := Prog.bind_inv ran
    intro one inside token made
    rcases List.mem_cons.mp inside with rfl | later
    · cases one with
      | name token' | value token' =>
        cases made
        obtain ⟨bytes,_,blob,_⟩ := Prog.bind_inv ran'
        exact ⟨bytes,(Prod.mk.inj blob).1⟩
      | null | setItem => cases made
    · exact ih middle rest one later token made

theorem setItem_inv (r s : Reading) (ran : setItem r = (.ok (),s)) :
    ∃ key val, r.key = .made key ∧ r.val = .made val ∧ s = {r with
      calls := r.calls ++ [⟨r.members.headD 0,r.key,r.val⟩], members := r.members.tail,
      form := r.form.setItem (cstring key.bytes,val.bytes)} := by
  unfold setItem at ran
  cases key : r.key <;> cases val : r.val <;> rw [key,val] at ran <;> cases ran
  exact ⟨_,_,rfl,rfl,rfl⟩

/-- What reading a part of a document changes, and what it leaves as it was. -/
structure Effect (leaves : List (Option Token)) (count : Nat) (r s : Reading) : Prop where
  opened : s.opened = r.opened + count
  members : s.members = r.members
  calls : r.calls <+: s.calls
  key : count = 0 → s.key = r.key
  inner : 0 < count → ∀ member bytes, s.key.own member bytes → r.opened ≤ member
  val : leaves = [] → s.val = r.val
  null : leaves.getLast? = some none → s.val = .null

theorem Effect.nil (r : Reading) : Effect [] 0 r r where
  opened := rfl
  members := rfl
  calls := List.prefix_rfl
  key _ := rfl
  inner some := absurd some (Nat.lt_irrefl 0)
  val _ := rfl
  null last := by cases last

theorem Effect.append {leaves later : List (Option Token)} {m n : Nat} {r s t : Reading}
    (first : Effect leaves m r s) (second : Effect later n s t) :
    Effect (leaves ++ later) (m + n) r t where
  opened := by rw [second.opened,first.opened,Nat.add_assoc]
  members := second.members.trans first.members
  calls := first.calls.trans second.calls
  key none := by
    rw [second.key (Nat.eq_zero_of_add_eq_zero_left none),
      first.key (Nat.eq_zero_of_add_eq_zero_right none)]
  inner some member bytes own := by
    have opened := first.opened
    rcases Nat.eq_zero_or_pos n with none | more
    · rw [second.key none] at own
      exact first.inner (by omega) member bytes own
    · have bound := second.inner more member bytes own
      omega
  val empty := by
    obtain ⟨nothing,nothing'⟩ := List.append_eq_nil_iff.mp empty
    rw [second.val nothing',first.val nothing]
  null last := by
    rw [List.getLast?_append] at last
    cases ends : later.getLast? with
    | none =>
      rw [ends] at last
      rw [second.val (List.getLast?_eq_none_iff.mp ends)]
      exact first.null last
    | some leaf =>
      rw [ends] at last
      exact second.null (ends.trans last)

theorem name_inv (token : Token) (r s : Reading) (ran : (Action.name token).run r = (.ok (),s)) :
    ∃ bytes, jsonBlob token = .ok bytes ∧ s = {r with
      key := .made ⟨bytes,some r.opened⟩, opened := r.opened + 1,
      members := r.opened :: r.members} := by
  obtain ⟨bytes,middle,blob,set⟩ := Prog.bind_inv ran
  obtain ⟨decoded,rfl⟩ := Prod.mk.inj blob
  exact ⟨bytes,decoded,(Prod.mk.inj set).2.symm⟩

theorem value_inv (token : Token) (r s : Reading) (ran : (Action.value token).run r = (.ok (),s)) :
    ∃ bytes, jsonBlob token = .ok bytes ∧ s = {r with val := .made ⟨bytes,r.members.head?⟩} := by
  obtain ⟨bytes,middle,blob,set⟩ := Prog.bind_inv ran
  obtain ⟨decoded,rfl⟩ := Prod.mk.inj blob
  exact ⟨bytes,decoded,(Prod.mk.inj set).2.symm⟩

/-- A member is read: its name, its value, and a call of `set_item`. -/
theorem member_inv (name : NameToken) (value : Doc .value) (rest : Doc .members) (r s : Reading)
    (ran : runActions (Doc.member name value rest).actions r = (.ok (),s)) :
    ∃ named valued called, (Action.name name.1).run r = (.ok (),named) ∧
      runActions value.actions named = (.ok (),valued) ∧ setItem valued = (.ok (),called) ∧
      runActions rest.actions called = (.ok (),s) := by
  rw [Doc.actions,runActions_cons] at ran
  obtain ⟨_,named,first,ran⟩ := Prog.bind_inv ran
  rw [runActions_append] at ran
  obtain ⟨_,valued,second,ran⟩ := Prog.bind_inv ran
  obtain ⟨_,called,third,ran⟩ := Prog.bind_inv ran
  exact ⟨named,valued,called,first,second,third,ran⟩

theorem Effect.member {leaves : List (Option Token)} {n : Nat} {token : Token}
    {r named valued called : Reading} (name : (Action.name token).run r = (.ok (),named))
    (value : Effect leaves n named valued) (set : setItem valued = (.ok (),called)) :
    Effect leaves (n + 1) r called := by
  obtain ⟨bytes,_,rfl⟩ := name_inv token r named name
  obtain ⟨key,val,_,_,rfl⟩ := setItem_inv valued called set
  constructor
  · change valued.opened = _
    rw [value.opened,Nat.add_assoc,Nat.add_comm 1]
  · exact congrArg List.tail value.members
  · exact value.calls.trans (List.prefix_append _ _)
  · exact fun none => absurd none (Nat.succ_ne_zero n)
  · intro _ member bytes' own
    change valued.key.own member bytes' at own
    rcases Nat.eq_zero_or_pos n with none | more
    · rw [value.key none] at own
      cases own
      exact Nat.le_refl _
    · exact Nat.le_of_succ_le (value.inner more member bytes' own)
  · exact value.val
  · exact value.null

/-- Reading a part of a document has the effect of its leaves and its members. -/
theorem Doc.effect {part : Part} (d : Doc part) (r s : Reading)
    (ran : runActions d.actions r = (.ok (),s)) : Effect d.leaves d.count r s := by
  induction d generalizing r s with
  | scalar token =>
    obtain ⟨_,middle,first,rest⟩ := Prog.bind_inv ran
    obtain ⟨bytes,_,rfl⟩ := value_inv token.1 r middle first
    cases rest
    exact ⟨rfl,rfl,List.prefix_rfl,fun _ => rfl,fun some => absurd some (Nat.lt_irrefl 0),
      fun none => (List.cons_ne_nil _ _ none).elim,fun null => by cases null⟩
  | null =>
    cases ran
    exact ⟨rfl,rfl,List.prefix_rfl,fun _ => rfl,fun some => absurd some (Nat.lt_irrefl 0),
      fun none => (List.cons_ne_nil _ _ none).elim,fun _ => rfl⟩
  | object members ih => exact ih r s ran
  | array elements ih => exact ih r s ran
  | noMembers | noElements =>
    cases ran
    exact Effect.nil r
  | member name value rest ihValue ihRest =>
    obtain ⟨named,valued,called,first,second,third,ran⟩ := member_inv name value rest r s ran
    have one := Effect.member first (ihValue named valued second) third
    have whole := one.append (ihRest called s ran)
    rw [Nat.add_right_comm] at whole
    exact whole
  | element value rest ihValue ihRest =>
    rw [Doc.actions,runActions_append] at ran
    obtain ⟨_,middle,first,ran⟩ := Prog.bind_inv ran
    exact (ihValue r middle first).append (ihRest middle s ran)

def Settled (m : Member) : Prop :=
  m.value.count = 0 ∧ ∃ token, m.value.leaves.getLast? = some (some token)

/-- What names and values are called with: never a pointer that is null, or left over from
another member. -/
def Owned (calls : List Call) : Prop :=
  ∀ call ∈ calls, (∃ bytes, call.name.own call.member bytes) ∧ ∃ bytes, call.value.own call.member bytes

theorem settled_of_owned (members : Doc .members) (r s : Reading) (outermost : r.members = [])
    (before : r.val.Before r.opened) (ran : runActions members.actions r = (.ok (),s))
    (owned : Owned s.calls) : ∀ m ∈ members.members r.opened, Settled m := by
  cases members with
  | noMembers =>
    intro m inside
    rw [Doc.members] at inside
    cases inside
  | member name value rest =>
    obtain ⟨named,valued,called,first,second,third,ran⟩ := member_inv name value rest r s ran
    have inside := value.effect named valued second
    have behind := rest.effect called s ran
    obtain ⟨text,_,rfl⟩ := name_inv name.1 r named first
    obtain ⟨key,val,_,_,rfl⟩ := setItem_inv valued called third
    have call : ⟨r.opened,valued.key,valued.val⟩ ∈ s.calls := by
      apply behind.calls.subset
      have number : valued.members.headD 0 = r.opened := by
        rw [inside.members]
        rfl
      exact List.mem_append_right _ (by rw [number]; exact List.mem_singleton_self _)
    obtain ⟨⟨_,ownName⟩,_,ownValue⟩ := owned _ call
    have flat : value.count = 0 := by
      by_contra more
      exact absurd (inside.inner (Nat.pos_of_ne_zero more) _ _ ownName) (Nat.not_succ_le_self _)
    have settled : Settled ⟨r.opened,name,value⟩ := by
      refine ⟨flat,?_⟩
      cases last : value.leaves.getLast? with
      | none =>
        rw [inside.val (List.getLast?_eq_none_iff.mp last)] at ownValue
        exact absurd (before _ _ ownValue) (Nat.lt_irrefl _)
      | some leaf =>
        cases leaf with
        | some token => exact ⟨token,rfl⟩
        | none =>
          change valued.val = _ at ownValue
          rw [inside.null last] at ownValue
          cases ownValue
    have opened : valued.opened = r.opened + 1 + value.count := inside.opened
    have later := settled_of_owned rest _ s (by
      change valued.members.tail = []
      rw [inside.members]
      exact outermost) (by
      intro member bytes own
      cases ownValue.symm.trans own
      change r.opened < valued.opened
      omega) ran owned
    intro m member
    rw [Doc.members] at member
    rcases List.mem_cons.mp member with rfl | member
    · exact settled
    · apply later m
      change m ∈ rest.members valued.opened
      rw [opened]
      exact member

def Last (member : Option Nat) (leaves : List (Option Token)) (val val' : Pointer) : Prop :=
  (leaves = [] → val' = val) ∧
    ∀ token, leaves.getLast? = some (some token) →
      ∃ bytes, jsonBlob token = .ok bytes ∧ val' = .made ⟨bytes,member⟩

theorem blob_ok (token : Token) (bytes : Text) (decoded : jsonBlob token = .ok bytes) (r : Reading) :
    blob token r = (.ok bytes,r) := by
  unfold blob
  rw [decoded]

theorem Doc.leaf_decodes {part : Part} (d : Doc part) (decodes : Decodes d.actions) (token : Token)
    (leaf : some token ∈ d.leaves) : ∃ bytes, jsonBlob token = .ok bytes := by
  induction d with
  | scalar token' =>
    cases List.mem_singleton.mp leaf
    exact decodes _ List.mem_cons_self token'.1 rfl
  | null => cases List.mem_singleton.mp leaf
  | object members ih => exact ih decodes leaf
  | array elements ih => exact ih decodes leaf
  | noMembers | noElements => cases leaf
  | member name value rest ihValue ihRest =>
    obtain ⟨_,decodes⟩ := List.forall_mem_cons.mp decodes
    obtain ⟨first,decodes⟩ := (Decodes.append _ _).mp decodes
    obtain ⟨_,later⟩ := List.forall_mem_cons.mp decodes
    rcases List.mem_append.mp leaf with leaf | leaf
    · exact ihValue first leaf
    · exact ihRest later leaf
  | element value rest ihValue ihRest =>
    obtain ⟨first,later⟩ := (Decodes.append _ _).mp decodes
    rcases List.mem_append.mp leaf with leaf | leaf
    · exact ihValue first leaf
    · exact ihRest later leaf

/-- A part without members sets the value, and nothing else. -/
theorem Doc.run_flat {part : Part} (d : Doc part) (r : Reading) (flat : d.count = 0)
    (decodes : Decodes d.actions) :
    ∃ val, runActions d.actions r = (.ok (),{r with val := val}) ∧
      Last r.members.head? d.leaves r.val val := by
  induction d generalizing r with
  | scalar token =>
    obtain ⟨bytes,decoded⟩ := decodes _ List.mem_cons_self token.1 rfl
    refine ⟨.made ⟨bytes,r.members.head?⟩,?_,fun none => (List.cons_ne_nil _ _ none).elim,?_⟩
    · rw [Doc.actions,runActions_cons,Action.run,Prog.bind_assoc,
        Prog.bind_ok _ (blob_ok token.1 bytes decoded r)]
      rfl
    · intro _ last
      cases last
      exact ⟨bytes,decoded,rfl⟩
  | null =>
    exact ⟨.null,rfl,fun none => (List.cons_ne_nil _ _ none).elim,fun _ last => by cases last⟩
  | object members ih => exact ih r flat decodes
  | array elements ih => exact ih r flat decodes
  | noMembers | noElements => exact ⟨r.val,rfl,fun _ => rfl,fun _ last => by cases last⟩
  | member name value rest => exact absurd flat (Nat.succ_ne_zero _)
  | element value rest ihValue ihRest =>
    obtain ⟨first,later⟩ := (Decodes.append _ _).mp decodes
    obtain ⟨val,ran,last⟩ := ihValue r (Nat.eq_zero_of_add_eq_zero_right flat) first
    obtain ⟨val',ran',last'⟩ := ihRest {r with val := val} (Nat.eq_zero_of_add_eq_zero_left flat) later
    refine ⟨val',?_,?_,?_⟩
    · rw [Doc.actions,runActions_append,Prog.bind_ok _ ran,ran']
    · intro empty
      obtain ⟨nothing,nothing'⟩ := List.append_eq_nil_iff.mp empty
      rw [last'.1 nothing',last.1 nothing]
    · intro token ends
      rw [Doc.leaves,List.getLast?_append] at ends
      cases final : rest.leaves.getLast? with
      | none =>
        rw [final] at ends
        rw [last'.1 (List.getLast?_eq_none_iff.mp final)]
        exact last.2 token ends
      | some leaf =>
        rw [final] at ends
        exact last'.2 token (final.trans ends)

structure Delivered (m : Member) (call : Call) (item : Text × Text) : Prop where
  number : call.member = m.number
  name : ∃ bytes, jsonBlob m.name.1 = .ok bytes ∧ call.name.own m.number bytes ∧
    item.1 = cstring bytes
  value : call.value.own m.number item.2
  scalar : ∀ token : ScalarToken, m.value = .scalar token → jsonBlob token.1 = .ok item.2

/-- A settled member is read, and its own name and value are set. -/
theorem member_run (name : NameToken) (value : Doc .value) (rest : Doc .members) (r : Reading)
    (token : Token) (key bytes : Text) (decodedKey : jsonBlob name.1 = .ok key)
    (decodedVal : jsonBlob token = .ok bytes) (flat : value.count = 0)
    (last : value.leaves.getLast? = some (some token)) (decodes : Decodes value.actions) :
    runActions (Doc.member name value rest).actions r = runActions rest.actions {r with
      key := .made ⟨key,some r.opened⟩, val := .made ⟨bytes,some r.opened⟩,
      opened := r.opened + 1, form := r.form.setItem (cstring key,bytes),
      calls := r.calls ++ [⟨r.opened,.made ⟨key,some r.opened⟩,.made ⟨bytes,some r.opened⟩⟩]} := by
  obtain ⟨val,ran,_,lastVal⟩ := value.run_flat {r with
    key := .made ⟨key,some r.opened⟩, opened := r.opened + 1, members := r.opened :: r.members}
    flat decodes
  obtain ⟨bytes',decoded,rfl⟩ := lastVal token last
  cases decoded.symm.trans decodedVal
  rw [Doc.actions,runActions_cons,Action.run,Prog.bind_assoc,
    Prog.bind_ok _ (blob_ok name.1 key decodedKey r),Prog.bind_ok _ (Prog.modify_run _ _),
    runActions_append,Prog.bind_ok _ ran]
  rfl

/-- Settled members are delivered one by one. -/
theorem run_settled (members : Doc .members) (r : Reading) (decodes : Decodes members.actions)
    (settled : ∀ m ∈ members.members r.opened, Settled m) :
    ∃ s, ∃ made : List (Call × Text × Text), runActions members.actions r = (.ok (),s) ∧
      List.Forall₂ (fun m one => Delivered m one.1 one.2) (members.members r.opened) made ∧
      s.calls = r.calls ++ made.map Prod.fst ∧
      s.form = (made.map Prod.snd).foldl Query.FormTable.setItem r.form := by
  cases members with
  | noMembers =>
    refine ⟨r,[],rfl,?_,(List.append_nil _).symm,rfl⟩
    rw [Doc.members]
    exact .nil
  | member name value rest =>
    obtain ⟨decodesName,decodes⟩ := List.forall_mem_cons.mp decodes
    obtain ⟨decodesValue,decodes⟩ := (Decodes.append _ _).mp decodes
    obtain ⟨_,decodes⟩ := List.forall_mem_cons.mp decodes
    rw [Doc.members] at settled
    obtain ⟨⟨flat,token,last⟩,others⟩ := List.forall_mem_cons.mp settled
    change value.count = 0 at flat
    obtain ⟨key,decodedKey⟩ := decodesName name.1 rfl
    obtain ⟨bytes,decodedVal⟩ := value.leaf_decodes decodesValue token (List.mem_of_getLast? last)
    rw [flat,Nat.add_zero] at others
    obtain ⟨s,made,ran,delivered,calls,form⟩ := run_settled rest {r with
      key := .made ⟨key,some r.opened⟩, val := .made ⟨bytes,some r.opened⟩,
      opened := r.opened + 1, form := r.form.setItem (cstring key,bytes),
      calls := r.calls ++ [⟨r.opened,.made ⟨key,some r.opened⟩,.made ⟨bytes,some r.opened⟩⟩]}
      decodes others
    refine ⟨s,(⟨r.opened,.made ⟨key,some r.opened⟩,.made ⟨bytes,some r.opened⟩⟩,cstring key,bytes)::made,
      ?_,?_,?_,form⟩
    · rw [member_run name value rest r token key bytes decodedKey decodedVal flat last decodesValue]
      exact ran
    · rw [Doc.members,flat,Nat.add_zero]
      refine .cons ⟨rfl,⟨key,decodedKey,rfl,rfl⟩,rfl,?_⟩ delivered
      rintro scalar rfl
      cases last
      exact decodedVal
    · rw [calls,List.map_cons,← List.append_cons]

theorem Doc.tail_token {part : Part} (d : Doc part) (token : Token) (inside : token ∈ d.tokens)
    (scalar : token.kind.isScalar = true) (list : part ≠ .value) : token ∈ d.tokens.tail := by
  cases d with
  | scalar | null | object | array => exact absurd rfl list
  | noMembers | noElements => cases inside
  | member name value rest =>
    rcases List.mem_cons.mp inside with rfl | inside
    · cases scalar
    · exact inside
  | element value rest =>
    rcases List.mem_cons.mp inside with rfl | inside
    · cases scalar
    · exact inside

theorem Doc.action_token {part : Part} (d : Doc part) (action : Action) (inside : action ∈ d.actions)
    (token : Token) (made : action.token? = some token) :
    token ∈ d.tokens ∧ token.kind.isScalar = true := by
  induction d with
  | scalar scalar =>
    cases List.mem_singleton.mp inside
    cases made
    exact ⟨List.mem_cons_self,scalar.2⟩
  | null =>
    cases List.mem_singleton.mp inside
    cases made
  | object members ih =>
    obtain ⟨member,scalar⟩ := ih inside
    exact ⟨List.mem_cons_of_mem _ (List.mem_append_left _ (members.tail_token token member scalar (fun same => by cases same))),scalar⟩
  | array elements ih =>
    obtain ⟨member,scalar⟩ := ih inside
    exact ⟨List.mem_cons_of_mem _ (List.mem_append_left _ (elements.tail_token token member scalar (fun same => by cases same))),scalar⟩
  | noMembers | noElements => cases inside
  | member name value rest ihValue ihRest =>
    rw [Doc.actions] at inside
    rcases List.mem_cons.mp inside with rfl | inside
    · cases made
      refine ⟨List.mem_cons_of_mem _ List.mem_cons_self,?_⟩
      rw [name.2]
      rfl
    rcases List.mem_append.mp inside with inside | inside
    · obtain ⟨member,scalar⟩ := ihValue inside
      exact ⟨by simp [Doc.tokens,member],scalar⟩
    rcases List.mem_cons.mp inside with rfl | inside
    · cases made
    · obtain ⟨member,scalar⟩ := ihRest inside
      exact ⟨by simp [Doc.tokens,member],scalar⟩
  | element value rest ihValue ihRest =>
    rcases List.mem_append.mp inside with inside | inside
    · obtain ⟨member,scalar⟩ := ihValue inside
      exact ⟨by simp [Doc.tokens,member],scalar⟩
    · obtain ⟨member,scalar⟩ := ihRest inside
      exact ⟨by simp [Doc.tokens,member],scalar⟩

/-- A body without a byte order mark decodes. -/
theorem document_decodes (body : Text) (d : Doc .value)
    (read : tokens (body.map UInt8.toNat) = d.tokens) : Decodes d.actions := by
  intro action inside token made
  obtain ⟨member,scalar⟩ := d.action_token action inside token made
  rw [← read] at member
  obtain ⟨lexeme,part⟩ := tokens_lexemes _ token member
  apply lexeme_decodes token lexeme scalar
  intro c char
  obtain ⟨byte,_,rfl⟩ := List.mem_map.mp (part c char)
  exact byte.toNat_lt

/-- The names of the outermost object, each up to its first NUL. -/
def Named (members : List Member) : Prop :=
  ∀ m ∈ members, ∀ bytes, jsonBlob m.name.1 = .ok bytes →
    ∃ m' ∈ members, jsonBlob m'.name.1 = .ok (cstring bytes)

instance (input : List Token) : Decidable (AcceptsObject input) :=
  inferInstanceAs (Decidable (_ ∧ _))

/-- The actions of the parser set what the outermost object says, and nothing else. -/
def Delivers (input : List Token) (members : List Member) : Prop :=
  ∃ r, runActions (parse input).2.actions .init = (.ok (),r) ∧
    (∀ m ∈ members, ∀ scalar : ScalarToken, m.value = .scalar scalar →
      ∃ call ∈ r.calls, ∃ name value, jsonBlob m.name.1 = .ok name ∧
        jsonBlob scalar.1 = .ok value ∧ call.member = m.number ∧ call.name.own m.number name ∧
        call.value.own m.number value) ∧
    Owned r.calls ∧
    ∀ name : Text, 0 ∉ name → (∀ m ∈ members, jsonBlob m.name.1 ≠ .ok name) →
      r.form.getItem name = none

theorem forall₂_mem_left {α β : Type} {R : α → β → Prop} {l : List α} {l' : List β}
    (related : List.Forall₂ R l l') (a : α) (inside : a ∈ l) : ∃ b ∈ l', R a b := by
  induction related with
  | nil => cases inside
  | cons first rest ih =>
    rcases List.mem_cons.mp inside with rfl | inside
    · exact ⟨_,List.mem_cons_self,first⟩
    · obtain ⟨b,member,holds⟩ := ih inside
      exact ⟨b,List.mem_cons_of_mem _ member,holds⟩

section
variable {members : List Member} {made : List (Call × Text × Text)}
  (delivered : List.Forall₂ (fun m one => Delivered m one.1 one.2) members made)
include delivered

theorem delivered_owned : Owned (made.map Prod.fst) := by
  intro call inside
  obtain ⟨one,member,rfl⟩ := List.mem_map.mp inside
  obtain ⟨m,_,holds⟩ := forall₂_mem_left delivered.flip one member
  obtain ⟨name,_,own,_⟩ := holds.name
  rw [holds.number]
  exact ⟨⟨name,own⟩,_,holds.value⟩

theorem delivered_each (m : Member) (inside : m ∈ members) (scalar : ScalarToken)
    (value : m.value = .scalar scalar) : ∃ call ∈ made.map Prod.fst, ∃ name bytes,
      jsonBlob m.name.1 = .ok name ∧ jsonBlob scalar.1 = .ok bytes ∧ call.member = m.number ∧
      call.name.own m.number name ∧ call.value.own m.number bytes := by
  obtain ⟨one,member,holds⟩ := forall₂_mem_left delivered m inside
  obtain ⟨name,decoded,own,_⟩ := holds.name
  exact ⟨one.1,List.mem_map_of_mem member,name,one.2.2,decoded,holds.scalar scalar value,
    holds.number,own,holds.value⟩

/-- The table has the names up to their first NUL, and no others. -/
theorem delivered_absent (name : Text) :
    (Query.setItems (made.map Prod.snd)).getItem name = none ↔
      ∀ m ∈ members, ∀ bytes, jsonBlob m.name.1 = .ok bytes → cstring bytes ≠ name := by
  rw [Query.getItem_setItems,Query.lastNamed_eq_none_iff]
  constructor
  · intro absent m inside bytes decoded
    obtain ⟨one,member,holds⟩ := forall₂_mem_left delivered m inside
    obtain ⟨bytes',decoded',_,item⟩ := holds.name
    cases decoded.symm.trans decoded'
    rw [← item]
    exact absent one.2 (List.mem_map_of_mem member)
  · intro absent item inside
    obtain ⟨one,member,rfl⟩ := List.mem_map.mp inside
    obtain ⟨m,here,holds⟩ := forall₂_mem_left delivered.flip one member
    obtain ⟨bytes,decoded,_,named⟩ := holds.name
    rw [named]
    exact absent m here bytes decoded

end

theorem delivers_of_settled (members : Doc .members) (decodes : Decodes members.actions)
    (settled : ∀ m ∈ members.members 0, Settled m) :
    Delivers (Doc.object members).tokens (members.members 0) ↔ Named (members.members 0) := by
  obtain ⟨t,parsed⟩ := parse_object members
  obtain ⟨s,made,ran,delivered,calls,form⟩ := run_settled members .init decodes settled
  have table : s.form = Query.setItems (made.map Prod.snd) := form
  unfold Delivers
  rw [parsed,ran]
  constructor
  · rintro ⟨r,same,_,_,absent⟩ m inside bytes decoded
    cases same
    by_contra missing
    have none := absent (cstring bytes) (cstring_nulFree bytes)
      fun m' member decoded' => missing ⟨m',member,decoded'⟩
    rw [table,delivered_absent delivered] at none
    exact none m inside bytes decoded rfl
  · intro named
    refine ⟨s,rfl,?_,?_,?_⟩
    · rw [calls]
      exact delivered_each delivered
    · rw [calls]
      exact delivered_owned delivered
    · intro name _ missing
      rw [table,delivered_absent delivered]
      rintro m inside bytes decoded rfl
      obtain ⟨m',member,decoded'⟩ := named m inside bytes decoded
      exact missing m' member decoded'

/-- The conditions under which the members of the outermost object are set, and no more. -/
theorem delivers_iff (members : Doc .members) :
    Delivers (Doc.object members).tokens (members.members 0) ↔
      Decodes members.actions ∧ (∀ m ∈ members.members 0, Settled m) ∧ Named (members.members 0) := by
  constructor
  · intro delivers
    obtain ⟨t,parsed⟩ := parse_object members
    obtain ⟨r,ran,_,owned,_⟩ := id delivers
    rw [parsed] at ran
    have decodes := run_decodes _ _ _ ran
    have settled := settled_of_owned members .init r rfl (fun _ _ own => by cases own) ran owned
    exact ⟨decodes,settled,(delivers_of_settled members decodes settled).mp delivers⟩
  · rintro ⟨decodes,settled,named⟩
    exact (delivers_of_settled members decodes settled).mpr named

/-- For the characters of any body that is an object. -/
theorem set_item_own_iff (chars : List Nat) (accepted : AcceptsObject (tokens chars)) :
    ∃ members : Doc .members, tokens chars = (Doc.object members).tokens ∧
      (Delivers (tokens chars) (members.members 0) ↔ Decodes members.actions ∧
        (∀ m ∈ members.members 0, Settled m) ∧ Named (members.members 0)) := by
  obtain ⟨members,read⟩ :=
    (accepts_iff (tokens chars) (tokens_canonical chars) (tokens_real chars)).mp accepted
  refine ⟨members,read,?_⟩
  rw [read]
  exact delivers_iff members

/-- The members `a` and `d`, with a member of a nested object between them. -/
theorem set_item_own_nested : ∃ chars,
    scannerInit (text "\x7b\"a\":1,\"b\":\x7b\"c\":[2,3]\x7d,\"d\":\"x\"\x7d") = some chars ∧
    AcceptsObject (tokens chars) ∧
    ∃ members : Doc .members, tokens chars = (Doc.object members).tokens ∧
      (Delivers (tokens chars) (members.members 0) ↔ Decodes members.actions ∧
        (∀ m ∈ members.members 0, Settled m) ∧ Named (members.members 0)) :=
  ⟨_,rfl,by decide,set_item_own_iff _ (by decide)⟩

/-- `set_item` is called for the member `a` with the name `b` of the object in it. -/
theorem inner_name_left : ∃ chars, ∃ members : Doc .members,
    scannerInit (text "\x7b\"a\":\x7b\"b\":1\x7d\x7d") = some chars ∧
    AcceptsObject (tokens chars) ∧ tokens chars = (Doc.object members).tokens ∧
    ¬Delivers (tokens chars) (members.members 0) := by
  have read : tokens ((text "\x7b\"a\":\x7b\"b\":1\x7d\x7d").map UInt8.toNat) =
      (Doc.object (.member ⟨⟨.string,letters "\"a\""⟩,rfl⟩ (.object (.member
        ⟨⟨.string,letters "\"b\""⟩,rfl⟩ (.scalar ⟨⟨.number,letters "1"⟩,rfl⟩) .noMembers))
        .noMembers)).tokens := by decide
  refine ⟨_,_,rfl,by decide,read,?_⟩
  rw [read]
  intro delivers
  have settled := ((delivers_iff _).mp delivers).2.1
  rw [Doc.members] at settled
  cases (settled _ List.mem_cons_self).1

end ModNdb.JSON
