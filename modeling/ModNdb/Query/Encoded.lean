import ModNdb.Query.Readers

/-! Form data as browsers encode them, and what the readers make of them: a space is sent as a
plus sign, which is not turned back. -/
namespace ModNdb.Query

def isPlain (c : UInt8) : Bool :=
  code '0' ≤ c ∧ c ≤ code '9' ∨ code 'A' ≤ c ∧ c ≤ code 'Z' ∨ code 'a' ≤ c ∧ c ≤ code 'z' ∨
    c = code '*' ∨ c = code '-' ∨ c = code '.' ∨ c = code '_'

def hexChar (n : Nat) : UInt8 := if n < 10 then UInt8.ofNat (48 + n) else UInt8.ofNat (55 + n)

/-- A byte in the encoding of `application/x-www-form-urlencoded`. -/
def encodeByte (c : UInt8) : Text :=
  if isPlain c then [c]
  else if c = code ' ' then [code '+']
  else [code '%',hexChar (c.toNat / 16),hexChar (c.toNat % 16)]

def urlEncode (t : Text) : Text := t.flatMap encodeByte

def encodePair (item : Text × Text) : Text := urlEncode item.1 ++ code '=' :: urlEncode item.2

def formEncode (items : List (Text × Text)) : Text :=
  List.intercalate [code '&'] (items.map encodePair)

def plusSpace (t : Text) : Text := t.map fun c => if c = code ' ' then code '+' else c

theorem hexDigit_hexChar : ∀ n < 16, hexDigit? (hexChar n) = some n := by decide

theorem isPlain_free {c : UInt8} (plain : isPlain c = true) :
    (c ≠ code '%' ∧ c ≠ code '&' ∧ c ≠ code '=' ∧ c ≠ 0) ∧ c ≠ code ' ' := by
  refine ⟨⟨?_,?_,?_,?_⟩,?_⟩ <;> rintro rfl <;> exact absurd plain (by decide)

theorem encodeByte_unit (c : UInt8) :
    PercentUnit (if c = code ' ' then code '+' else c) (encodeByte c) := by
  have byte : c.toNat < 256 := c.toNat_lt
  unfold encodeByte
  by_cases plain : isPlain c = true
  · rw [if_pos plain,if_neg (isPlain_free plain).2]
    exact .plain c (isPlain_free plain).1
  rw [if_neg plain]
  by_cases space : c = code ' '
  · rw [if_pos space,if_pos space]
    exact .plain (code '+') (by decide)
  · have whole : UInt8.ofNat (16 * (c.toNat / 16) + c.toNat % 16) = c := by
      rw [Nat.div_add_mod,UInt8.ofNat_toNat]
    have unit := PercentUnit.escape _ _ _ _ (hexDigit_hexChar (c.toNat / 16) (by omega))
      (hexDigit_hexChar (c.toNat % 16) (by omega))
    rw [if_neg space,if_neg space]
    rwa [whole] at unit

theorem urlEncode_encodes (t : Text) : PercentEncoded (plusSpace t) (urlEncode t) := by
  refine ⟨t.map encodeByte,?_,List.flatMap_def⟩
  unfold plusSpace
  rw [List.forall₂_map_left_iff,List.forall₂_map_right_iff]
  exact List.forall₂_same.mpr fun c _ => encodeByte_unit c

theorem plusSpace_nulFree (t : Text) (nulFree : 0 ∉ t) : 0 ∉ plusSpace t := by
  intro inside
  obtain ⟨c,among,same⟩ := List.mem_map.mp inside
  split at same
  · cases same
  · exact nulFree (same ▸ among)

def plusItem (item : Text × Text) : Text × Text := (plusSpace item.1,plusSpace item.2)

def NulFree (items : List (Text × Text)) : Prop := ∀ item ∈ items, 0 ∉ item.1 ∧ 0 ∉ item.2

theorem plusItem_nulFree (items : List (Text × Text)) (nulFree : NulFree items) :
    ∀ item ∈ items.map plusItem, 0 ∉ item.1 ∧ 0 ∉ item.2 := by
  rw [List.forall_mem_map]
  exact fun item inside => ⟨plusSpace_nulFree _ (nulFree item inside).1,
    plusSpace_nulFree _ (nulFree item inside).2⟩

def encodeItem (item : Text × Text) : Text × Text := (urlEncode item.1,urlEncode item.2)

theorem formEncode_joined (items : List (Text × Text)) :
    formEncode items = joined (items.map encodeItem) := by
  unfold formEncode joined
  rw [List.map_map]
  rfl

theorem formEncode_encodes (items : List (Text × Text)) :
    EncodesPairs (items.map plusItem) (items.map encodeItem) := by
  unfold EncodesPairs
  rw [List.forall₂_map_left_iff,List.forall₂_map_right_iff]
  exact List.forall₂_same.mpr fun item _ => ⟨urlEncode_encodes item.1,urlEncode_encodes item.2⟩

/-- Words are cut where they were put together, and decoded but for their spaces. -/
theorem pairs_formEncode (items : List (Text × Text)) (nulFree : NulFree items) :
    pairs (formEncode items) = items.map plusItem := by
  rw [formEncode_joined]
  exact pairsLoop_joined _ _ (formEncode_encodes items) (plusItem_nulFree items nulFree) _
    (joined_length _)

theorem formEncode_nulFree (items : List (Text × Text)) : 0 ∉ formEncode items := by
  rw [formEncode_joined]
  exact joined_nulFree _ _ (formEncode_encodes items)

/-- The table answers with the value of the last pair of a name. -/
def Recovers (items : List (Text × Text)) (table : FormTable) : Prop :=
  ∀ name, table.getItem name = lastNamed items name

/-- No name has a space, and no value that is the last of its name. -/
def Spaceless (items : List (Text × Text)) : Prop :=
  (∀ item ∈ items, code ' ' ∉ item.1) ∧
    ∀ name value, lastNamed items name = some value → code ' ' ∉ value

theorem plusSpace_eq_iff (t : Text) : plusSpace t = t ↔ code ' ' ∉ t := by
  unfold plusSpace
  induction t with
  | nil => simp
  | cons c t ih =>
    rw [List.map_cons,List.cons.injEq,ih,List.mem_cons,not_or]
    refine and_congr_left fun _ => ⟨?_,fun other => if_neg (Ne.symm other)⟩
    rintro same rfl
    exact absurd same (by decide)

theorem plusSpace_spaceless (t : Text) : code ' ' ∉ plusSpace t := by
  intro inside
  obtain ⟨c,_,same⟩ := List.mem_map.mp inside
  split at same
  · exact absurd same (by decide)
  · rename_i other
    exact other same

/-- Where names have no spaces, values are found under their names. -/
theorem lastNamed_plusItem (items : List (Text × Text)) (names : ∀ item ∈ items, code ' ' ∉ item.1)
    (name : Text) : lastNamed (items.map plusItem) name = (lastNamed items name).map plusSpace := by
  have same : items.map plusItem = items.map fun item => (item.1,plusSpace item.2) :=
    List.map_congr_left fun item inside => Prod.ext ((plusSpace_eq_iff _).mpr (names item inside)) rfl
  unfold lastNamed
  rw [same,← List.map_reverse,List.find?_map,Option.map_map,Option.map_map]
  rfl

/-- A table with the pairs as they are read has what was sent exactly without spaces. -/
theorem recovers_iff (items : List (Text × Text)) :
    Recovers items (setItems (items.map plusItem)) ↔ Spaceless items := by
  unfold Recovers
  simp only [getItem_setItems]
  constructor
  · intro recovers
    have names : ∀ item ∈ items, code ' ' ∉ item.1 := by
      intro item inside space
      have absent : lastNamed (items.map plusItem) item.1 = none := by
        rw [lastNamed_eq_none_iff]
        rintro read among same
        obtain ⟨sent,_,rfl⟩ := List.mem_map.mp among
        exact plusSpace_spaceless sent.1 ((congrArg (code ' ' ∈ ·) same).mpr space)
      rw [recovers,lastNamed_eq_none_iff] at absent
      exact absent item inside rfl
    refine ⟨names,fun name value last => ?_⟩
    have read := recovers name
    rw [lastNamed_plusItem items names,last] at read
    exact (plusSpace_eq_iff value).mp (Option.some.inj read)
  · rintro ⟨names,values⟩ name
    rw [lastNamed_plusItem items names]
    cases last : lastNamed items name with
    | none => rfl
    | some value => exact congrArg some ((plusSpace_eq_iff value).mpr (values name value last))

/-- What the reader of a body makes of an encoded form, whatever stands behind its end. -/
theorem readUrlencoded_formEncode (items : List (Text × Text)) (nulFree : NulFree items) (tail : Text) :
    readUrlencoded (some (formEncode items ++ 0::tail)) = .ok (0,setItems (items.map plusItem)) := by
  unfold readUrlencoded
  dsimp only
  rw [cstring_terminated _ _ (formEncode_nulFree items),pairs_formEncode items nulFree]

theorem subrequest_formEncode (items : List (Text × Text)) (nulFree : NulFree items) (r : RequestRec)
    (note : r.requestData = some (formEncode items)) :
    subrequestFormData r = .ok ⟨0,setItems (items.map plusItem),none⟩ := by
  unfold subrequestFormData
  rw [note]
  dsimp only
  rw [pairs_formEncode items nulFree]

/-- An encoded form, read as a body, has what was sent. -/
def FoundInBody (items : List (Text × Text)) (tail : Text) : Prop :=
  ∃ form, readUrlencoded (some (formEncode items ++ 0::tail)) = .ok (0,form) ∧ Recovers items form

def FoundInNote (items : List (Text × Text)) (r : RequestRec) : Prop :=
  ∃ read, subrequestFormData r = .ok read ∧ Recovers items read.form

theorem foundInBody_iff (items : List (Text × Text)) (nulFree : NulFree items) (tail : Text) :
    FoundInBody items tail ↔ Recovers items (setItems (items.map plusItem)) := by
  unfold FoundInBody
  rw [readUrlencoded_formEncode items nulFree]
  constructor
  · rintro ⟨form,read,recovers⟩
    cases read
    exact recovers
  · exact fun recovers => ⟨_,rfl,recovers⟩

theorem foundInNote_iff (items : List (Text × Text)) (nulFree : NulFree items) (r : RequestRec)
    (note : r.requestData = some (formEncode items)) :
    FoundInNote items r ↔ Recovers items (setItems (items.map plusItem)) := by
  unfold FoundInNote
  rw [subrequest_formEncode items nulFree r note]
  constructor
  · rintro ⟨form,read,recovers⟩
    cases read
    exact recovers
  · exact fun recovers => ⟨_,rfl,recovers⟩

/-- The pairs that a form submission sends are found again, in a body and in the note of a
subrequest, exactly if there are no spaces in their names and in the values that count. -/
theorem form_found_iff (items : List (Text × Text)) (nulFree : NulFree items) (tail : Text)
    (r : RequestRec) (note : r.requestData = some (formEncode items)) :
    (FoundInBody items tail ↔ Spaceless items) ∧ (FoundInNote items r ↔ Spaceless items) := by
  rw [foundInBody_iff items nulFree,foundInNote_iff items nulFree r note,recovers_iff]
  exact ⟨Iff.rfl,Iff.rfl⟩

def noting (items : List (Text × Text)) : RequestRec where
  main := true
  methodNumber := .get
  args := none
  pathInfo := []
  beforePathInfo := 0
  contentType := none
  requestMethod := some (text "POST")
  requestData := some (formEncode items)
  sendResult := false
  body := ⟨0,false,0,[]⟩

/-- Bytes that have to be escaped, and an empty value. -/
theorem form_found_reserved :
    FoundInBody [(text "a&b",text "1=2%"),(text "c",[])] [] ∧
      FoundInNote [(text "a&b",text "1=2%"),(text "c",[])] (noting [(text "a&b",text "1=2%"),(text "c",[])]) := by
  obtain ⟨body,note⟩ := form_found_iff [(text "a&b",text "1=2%"),(text "c",[])] (by unfold NulFree; decide) []
    (noting [(text "a&b",text "1=2%"),(text "c",[])]) rfl
  have spaceless : Spaceless [(text "a&b",text "1=2%"),(text "c",[])] := by
    refine ⟨by decide,fun name value last space => ?_⟩
    obtain ⟨item,found,rfl⟩ := Option.map_eq_some_iff.mp last
    have values : ∀ item ∈ [(text "a&b",text "1=2%"),(text "c",([] : Text))], code ' ' ∉ item.2 := by
      decide
    exact values item (List.mem_reverse.mp (List.mem_of_find?_eq_some found)) space
  exact ⟨body.mpr spaceless,note.mpr spaceless⟩

/-- A space is sent as a plus sign, and read as one. -/
theorem space_lost : NulFree [(text "a",text "x y")] ∧
    formEncode [(text "a",text "x y")] = text "a=x+y" ∧
    ¬FoundInBody [(text "a",text "x y")] [] ∧
    ¬FoundInNote [(text "a",text "x y")] (noting [(text "a",text "x y")]) := by
  have nulFree : NulFree [(text "a",text "x y")] := by unfold NulFree; decide
  have lost : ¬Recovers [(text "a",text "x y")] (setItems ([(text "a",text "x y")].map plusItem)) :=
    fun recovers => absurd (recovers (text "a")) (by decide)
  refine ⟨nulFree,by decide,?_,?_⟩
  · rw [foundInBody_iff _ nulFree]
    exact lost
  · rw [foundInNote_iff _ nulFree _ rfl]
    exact lost

end ModNdb.Query
