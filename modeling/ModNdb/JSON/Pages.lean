import ModNdb.Format.JsonPage
import ModNdb.JSON.Escapes
import ModNdb.JSON.Texts

/-! What the scanner and the parser of JSON.atg make of an object that the JSON format shows. -/
namespace ModNdb.JSON
open JsonText (Clean IsNumber digits1 exponent fraction whole)
open Format (DataOperation ResultCol Row isQuoted jsonPrinted valueText columnText memberText rowText Readable
  PlainPrinters)
open MySQL (Column Printers Value escapeString jsonEscape)

/-- How a text with blanks is divided into tokens. -/
inductive Spaced : List Nat → List Token → Prop
  | nil (blanks : List Nat) (blank : ∀ c ∈ blanks, isBlank c = true) : Spaced blanks []
  | cons (blanks : List Nat) (c : Nat) (chars rest : List Nat) (token : Token) (later : List Token)
      (blank : ∀ c ∈ blanks, isBlank c = true) (visible : isBlank c = false)
      (next : nextToken c chars = (token,rest)) (spaced : Spaced rest later) :
      Spaced (blanks ++ c::chars) (token::later)

theorem Spaced.scan {chars : List Nat} {ts : List Token} (spaced : Spaced chars ts) (fuel : Nat)
    (enough : chars.length ≤ fuel) : JSON.scan fuel chars = ts := by
  induction spaced generalizing fuel with
  | nil blanks blank =>
    cases fuel with
    | zero => rfl
    | succ fuel =>
      have nothing : blanks.dropWhile (isBlank ·) = [] := List.dropWhile_eq_nil_iff.mpr blank
      rw [JSON.scan,nothing]
  | cons blanks c chars rest token later blank visible next _ ih =>
    rw [List.length_append,List.length_cons] at enough
    obtain ⟨fuel,rfl⟩ := Nat.exists_eq_succ_of_ne_zero (n := fuel) (by omega)
    have shorter : rest.length ≤ chars.length := by
      have lengths := congrArg List.length (follow_splits (State.start c) chars)
      rw [show ((State.start c).follow chars).2.2 = rest from congrArg Prod.snd next,
        List.length_append] at lengths
      omega
    have first : (blanks ++ c::chars).dropWhile (isBlank ·) = c::chars := by
      rw [List.dropWhile_append_of_pos blank]
      exact List.dropWhile_cons_of_neg (by rw [visible]; exact Bool.false_ne_true)
    rw [Nat.succ_eq_add_one,JSON.scan,first]
    change (nextToken c chars).1 :: JSON.scan fuel (nextToken c chars).2 = _
    rw [next]
    exact congrArg (List.cons token) (ih fuel (by omega))

theorem Spaced.tokens {chars : List Nat} {ts : List Token} (spaced : Spaced chars ts) :
    JSON.tokens chars = ts := spaced.scan _ (Nat.le_refl _)

theorem Spaced.blank {chars : List Nat} {ts : List Token} (spaced : Spaced chars ts) (c : Nat)
    (is : isBlank c = true) : Spaced (c::chars) ts := by
  cases spaced with
  | nil _ blank => exact .nil _ (List.forall_mem_cons.mpr ⟨is,blank⟩)
  | cons blanks d chars rest token later blank visible next spaced =>
    exact .cons (c::blanks) d chars rest token later (List.forall_mem_cons.mpr ⟨is,blank⟩) visible next
      spaced

theorem Spaced.visible {c : Nat} {chars rest : List Nat} {token : Token} {later : List Token}
    (spaced : Spaced rest later) (visible : isBlank c = false) (next : nextToken c chars = (token,rest)) :
    Spaced (c::chars) (token::later) :=
  .cons [] c chars rest token later (fun _ inside => absurd inside List.not_mem_nil) visible next spaced

theorem Spaced.mark {rest : List Nat} {later : List Token} (spaced : Spaced rest later) (kind : Kind)
    (c : Nat) (visible : isBlank c = false) (start : State.start c = .mark kind)
    (spelled : kind.token.val = [c]) : Spaced (c::rest) (kind.token::later) := by
  refine spaced.visible visible ?_
  unfold nextToken
  rw [start,follow_stop (.mark kind) rest fun _ => rfl]
  exact congrArg (fun val => (Token.mk kind val,rest)) spelled.symm

theorem Spaced.string {rest : List Nat} {later : List Token} (spaced : Spaced rest later) (e : Text)
    (units : Units (e.map UInt8.toNat)) :
    Spaced ((quoted e).map UInt8.toNat ++ rest) ((stringToken e).1::later) := by
  have split : (quoted e).map UInt8.toNat = 34 :: (e.map UInt8.toNat ++ [34]) := by
    unfold quoted
    rw [List.map_cons,List.map_append]
    rfl
  unfold stringToken
  rw [split,List.cons_append,List.append_assoc]
  refine spaced.visible rfl ?_
  unfold nextToken
  rw [show State.start 34 = .string from rfl,List.singleton_append,follow_units _ rest units]
  rfl

theorem isDec_digit (c : UInt8) : isDec c.toNat = JsonText.isDigit c := by
  unfold isDec JsonText.isDigit
  rw [Bool.eq_iff_iff]
  simp [UInt8.le_iff_toNat_le]

/-- From a state a text leads to one where a number can end, and is taken whole in front of a blank. -/
def Takes (s : State) (t : Text) : Prop :=
  ∀ rest, ∃ last : State, last.kind = .number ∧
    s.follow (t.map UInt8.toNat ++ 32::rest) = (last,t.map UInt8.toNat,32::rest)

theorem Takes.nil (s : State) (number : s.kind = .number) (stops : s.step 32 = none) : Takes s [] := by
  intro rest
  refine ⟨s,number,?_⟩
  rw [List.map_nil,List.nil_append,State.follow,stops]

theorem Takes.cons {s s' : State} {t : Text} (takes : Takes s' t) (c : UInt8)
    (steps : s.step c.toNat = some s') : Takes s (c::t) := by
  intro rest
  obtain ⟨last,number,followed⟩ := takes rest
  refine ⟨last,number,?_⟩
  rw [List.map_cons,List.cons_append,follow_step s s' _ _ steps,followed]

theorem Takes.digits {s : State} {t : Text} (takes : Takes s t) (ds : Text)
    (all : ∀ c ∈ ds, JsonText.isDigit c = true) (loops : ∀ c, isDec c = true → s.step c = some s) :
    Takes s (ds ++ t) := by
  induction ds with
  | nil => exact takes
  | cons c ds ih =>
    refine (ih fun d inside => all d (List.mem_cons_of_mem c inside)).cons c (loops _ ?_)
    rw [isDec_digit]
    exact all c List.mem_cons_self

theorem Takes.run {s s' : State} {t : Text} (takes : Takes s' t) (ds : Text) (some_ : ds ≠ [])
    (all : ∀ c ∈ ds, JsonText.isDigit c = true) (steps : ∀ c, isDec c = true → s.step c = some s')
    (loops : ∀ c, isDec c = true → s'.step c = some s') : Takes s (ds ++ t) := by
  obtain ⟨d,ds,rfl⟩ := List.exists_cons_of_ne_nil some_
  refine (takes.digits ds (fun c inside => all c (List.mem_cons_of_mem d inside)) loops).cons d (steps _ ?_)
  rw [isDec_digit]
  exact all d List.mem_cons_self

theorem power_run (ds : Text) (some_ : ds ≠ []) (all : ∀ c ∈ ds, JsonText.isDigit c = true) (s : State)
    (steps : ∀ c, isDec c = true → s.step c = some .power) : Takes s ds := by
  have whole := (Takes.nil .power rfl rfl).run ds some_ all steps fun c digit => if_pos digit
  rwa [List.append_nil] at whole

theorem takes_exponent (e : Text) (read : exponent e = some (e,[])) (s : State)
    (kinds : s = .zero ∨ s = .integer ∨ s = .fraction) : Takes s e := by
  cases e with
  | nil =>
    rcases kinds with rfl | rfl | rfl
    all_goals exact .nil _ rfl rfl
  | cons c t =>
    rw [exponent] at read
    split at read
    · next exp =>
      obtain ⟨⟨ds,m⟩,digits,read⟩ := Option.map_eq_some_iff.mp read
      obtain ⟨same,rfl⟩ := Prod.mk.inj read
      obtain ⟨_,same⟩ := List.cons.inj same
      obtain ⟨_,all,some_,_⟩ := JsonText.digits1_reads _ ds [] digits
      have letter : s.step c.toNat = some .exponent := by
        have letters : c = 69 ∨ c = 101 := by simpa [JsonText.isExp] using exp
        rcases kinds with rfl | rfl | rfl
        all_goals
          rcases letters with rfl | rfl
          all_goals rfl
      rw [← same]
      rcases (JsonText.sign_reads t).2 with none_ | hyphen | plus
      · rw [none_]
        refine Takes.cons (power_run ds some_ all .exponent fun c digit => ?_) c letter
        have plain : ¬(c = 43 ∨ c = 45) := by
          rintro (rfl | rfl)
          all_goals cases digit
        exact (if_neg plain).trans (if_pos digit)
      · rw [hyphen]
        exact ((power_run ds some_ all .sign fun c digit => if_pos digit).cons 45 rfl).cons c letter
      · rw [plus]
        exact ((power_run ds some_ all .sign fun c digit => if_pos digit).cons 43 rfl).cons c letter
    · cases read

theorem takes_fraction (f e : Text) (read : fraction (f ++ e) = some (f,e))
    (read' : exponent e = some (e,[])) (s : State) (kinds : s = .zero ∨ s = .integer) :
    Takes s (f ++ e) := by
  have exponents := takes_exponent e read'
  unfold fraction at read
  split at read
  · next t same =>
    obtain ⟨⟨ds,m⟩,digits,read⟩ := Option.map_eq_some_iff.mp read
    obtain ⟨rfl,rfl⟩ := Prod.mk.inj read
    obtain ⟨_,all,some_,_⟩ := JsonText.digits1_reads _ ds m digits
    have point : Takes .point (ds ++ m) := by
      refine (exponents .fraction (.inr (.inr rfl))).run ds some_ all (fun c digit => if_pos digit) ?_
      exact fun c digit => if_pos digit
    refine point.cons 46 ?_
    rcases kinds with rfl | rfl
    all_goals rfl
  · obtain ⟨rfl,_⟩ := Prod.mk.inj (Option.some.inj read)
    exact exponents s (kinds.imp_right .inl)

theorem takes_whole (i f e : Text) (read : whole (i ++ (f ++ e)) = some (i,f ++ e))
    (fractions : ∀ s : State, s = .zero ∨ s = .integer → Takes s (f ++ e)) :
    ∃ c t, i = c::t ∧ isDec c.toNat = true ∧
      Takes (if c.toNat = 48 then .zero else .integer) (t ++ (f ++ e)) := by
  unfold whole at read
  split at read
  · next t same =>
    obtain ⟨rfl,_⟩ := Prod.mk.inj (Option.some.inj read)
    exact ⟨48,[],rfl,rfl,fractions .zero (.inl rfl)⟩
  · next nonzero =>
    split at read
    · cases read
    · next some_ =>
      have all := JsonText.digitRun_digits (i ++ (f ++ e))
      rw [Option.some.inj read] at some_ all
      obtain ⟨c,t,rfl⟩ := List.exists_cons_of_ne_nil some_
      have other : ¬c.toNat = 48 := by
        intro zero
        have same : c = 48 := UInt8.toNat_inj.mp zero
        exact nonzero (t ++ (f ++ e)) (by rw [same]; rfl)
      refine ⟨c,t,rfl,?_,?_⟩
      · rw [isDec_digit]
        exact all c List.mem_cons_self
      · rw [if_neg other]
        exact (fractions .integer (.inr rfl)).digits t
          (fun d inside => all d (List.mem_cons_of_mem c inside)) fun d digit => if_pos digit

theorem start_digit (c : Nat) (digit : isDec c = true) :
    State.start c = if c = 48 then .zero else .integer := by
  have bounds : 48 ≤ c ∧ c ≤ 57 := of_decide_eq_true digit
  unfold State.start
  rw [if_neg (by omega),if_neg (by omega),digit]
  rfl

/-- A number in front of a blank is one token. -/
theorem nextToken_number (t : Text) (number : IsNumber t) : ∃ c chars, t.map UInt8.toNat = c::chars ∧
    isBlank c = false ∧ ∀ rest, nextToken c (chars ++ 32::rest) =
      (⟨.number,t.map UInt8.toNat⟩,32::rest) := by
  have read : JsonText.number t = some (t,[]) := number
  simp only [JsonText.number,Option.bind_eq_bind,Option.bind_eq_some_iff,Option.pure_def,
    Option.some.injEq,Prod.mk.injEq,Prod.exists] at read
  obtain ⟨i,t2,whole',f,t3,fraction',e,r',exponent',whole_,rfl⟩ := read
  obtain ⟨same,sign⟩ := JsonText.minus_reads t
  obtain ⟨same2,_⟩ := JsonText.whole_reads _ _ _ whole'
  obtain ⟨same3,_⟩ := JsonText.fraction_reads _ _ _ fraction'
  obtain ⟨same4,_⟩ := JsonText.exponent_reads _ _ _ exponent'
  rw [List.append_nil] at same4
  subst same4
  subst same3
  rw [same2] at whole'
  obtain ⟨c,ds,rfl,digit,takes⟩ := takes_whole i f t3 whole'
    (takes_fraction f t3 fraction' exponent')
  have shown : t = (JsonText.minus t).1 ++ (c::(ds ++ (f ++ t3))) := whole_.symm
  rcases sign with none_ | hyphen
  · rw [none_,List.nil_append] at shown
    refine ⟨c.toNat,(ds ++ (f ++ t3)).map UInt8.toNat,by rw [shown]; rfl,?_,fun rest => ?_⟩
    · have bounds : 48 ≤ c.toNat ∧ c.toNat ≤ 57 := of_decide_eq_true digit
      exact decide_eq_false (by omega)
    · obtain ⟨last,kind,followed⟩ := takes rest
      unfold nextToken
      rw [start_digit _ digit,followed,shown]
      simp only [kind,List.map_cons]
  · rw [hyphen] at shown
    refine ⟨45,(c::(ds ++ (f ++ t3))).map UInt8.toNat,by rw [shown]; rfl,rfl,fun rest => ?_⟩
    have steps : State.minus.step c.toNat = some (if c.toNat = 48 then .zero else .integer) := by
      change (if c.toNat = 48 then some State.zero else if isDec c.toNat then some .integer else none) = _
      rw [digit]
      split <;> rfl
    obtain ⟨last,kind,followed⟩ := takes.cons c steps rest
    unfold nextToken
    rw [show State.start 45 = .minus from rfl,followed,shown]
    simp only [kind]
    rfl

theorem hexDigit_hex (n : Fin 16) : isHex (MySQL.hexDigit n).toNat = true := by
  revert n
  decide

/-- What a character is escaped as is a unit of a string. -/
theorem unit_string (c : UInt8) : StringUnit ((unit jsonEscape c).map UInt8.toNat) := by
  unfold unit jsonEscape
  split_ifs with backslash quote back feed line ret tab control
  · exact .escape 92 rfl
  · exact .escape 34 rfl
  · exact .escape 98 rfl
  · exact .escape 102 rfl
  · exact .escape 110 rfl
  · exact .escape 114 rfl
  · exact .escape 116 rfl
  · have below : c.toNat < 32 := UInt8.lt_iff_toNat_lt.mp control
    refine .hex 48 48 _ _ ?_
    rw [List.forall_mem_cons,List.forall_mem_cons,List.forall_mem_cons,List.forall_mem_singleton]
    exact ⟨rfl,rfl,hexDigit_hex ⟨c.toNat / 16,by omega⟩,hexDigit_hex ⟨c.toNat % 16,by omega⟩⟩
  · refine .plain c.toNat (decide_eq_true ?_)
    have above : ¬c.toNat < 32 := fun below => control (UInt8.lt_iff_toNat_lt.mpr below)
    have byte := c.toNat_lt
    refine ⟨by omega,?_,fun same => backslash (UInt8.toNat_inj.mp same),
      fun same => quote (UInt8.toNat_inj.mp same)⟩
    unfold eof
    omega

theorem escape_units (t : Text) : Units ((escapeString jsonEscape t).map UInt8.toNat) := by
  refine ⟨t.map fun c => (unit jsonEscape c).map UInt8.toNat,?_,?_⟩
  · intro one inside
    obtain ⟨c,_,rfl⟩ := List.mem_map.mp inside
    exact unit_string c
  · rw [escapeString_units,List.map_flatten,List.map_map]
    rfl

theorem escape_chars (e : Text) : (stringToken e).1.chars = e := by
  have split : (quoted e).map UInt8.toNat = 34 :: (e.map UInt8.toNat ++ [34]) := by
    unfold quoted
    rw [List.map_cons,List.map_append]
    rfl
  unfold stringToken
  rw [split,string_chars,List.map_map]
  exact List.map_id'' (fun c => UInt8.ofNat_toNat) _

/-- A text that stands escaped in a string is what the action makes of the string. -/
theorem blob_escaped (t : Text) : jsonBlob (stringToken (escapeString jsonEscape t)).1 = .ok t := by
  apply blob_of_unescapes
  rw [escape_chars]
  exact json_unescapes t

theorem blob_number (t : Text) (number : IsNumber t) : jsonBlob ⟨.number,t.map UInt8.toNat⟩ = .ok t := by
  apply blob_of_unescapes
  have clean := number.printable.clean
  have chars : (Token.mk .number (t.map UInt8.toNat)).chars = t := by
    unfold Token.chars
    dsimp only
    rw [if_neg,List.map_map]
    · exact List.map_id'' (fun c => UInt8.ofNat_toNat) _
    · intro first
      obtain ⟨c,inside,same⟩ := List.mem_map.mp (List.mem_of_mem_head? first)
      exact (clean c inside).1 (UInt8.toNat_inj.mp same)
  have unescapes := json_unescapes t
  rw [Format.escape_clean t clean] at unescapes
  rw [chars]
  exact unescapes

section
variable (printers : Printers)

def shownToken (col : Column) (value : Value) : Token :=
  if value.isNull then Kind.null.token
  else if isQuoted col.type then (stringToken (jsonPrinted printers col value.raw).bytes).1
  else ⟨.number,(jsonPrinted printers col value.raw).bytes.map UInt8.toNat⟩

theorem shownToken_val (col : Column) (value : Value) :
    (shownToken printers col value).val = (valueText printers col value).map UInt8.toNat := by
  unfold shownToken valueText
  split_ifs
  · rfl
  · rfl
  · rfl

theorem shownToken_scalar (col : Column) (value : Value) (present : value.isNull = false) :
    (shownToken printers col value).kind.isScalar = true := by
  unfold shownToken
  rw [present,if_neg Bool.false_ne_true]
  split_ifs
  · rfl
  · rfl

def shownValue (col : Column) (value : Value) : Doc .value :=
  if present : value.isNull = false then
    .scalar ⟨shownToken printers col value,shownToken_scalar printers col value present⟩
  else .null

theorem shownValue_tokens (col : Column) (value : Value) :
    (shownValue printers col value).tokens = [shownToken printers col value] := by
  unfold shownValue
  split_ifs with present
  · rfl
  · rw [Bool.not_eq_false] at present
    unfold shownToken
    rw [if_pos present]
    rfl

variable {printers}

/-- A value that is not null is read as the text of its column. -/
theorem shownToken_blob (plain : PlainPrinters printers) (col : Column) (value : Value)
    (readable : Readable printers col value) (present : value.isNull = false) :
    jsonBlob (shownToken printers col value) = .ok (columnText printers col value.raw) := by
  have printed := Format.printed_escaped printers col plain value.raw
  unfold shownToken
  rw [present,if_neg Bool.false_ne_true]
  by_cases quotes : isQuoted col.type = true
  · have notBlob : col.type ≠ .blob := by
      intro blob
      rw [blob] at quotes
      cases quotes
    rw [if_pos quotes,printed notBlob]
    exact blob_escaped _
  · rw [if_neg quotes]
    have absent : ¬value.isNull = true := by rw [present]; exact Bool.false_ne_true
    obtain ⟨notBlob,number⟩ := (readable.resolve_left absent).resolve_left quotes
    rw [printed notBlob,Format.escape_clean _ number.printable.clean]
    exact blob_number _ number

theorem Spaced.value (plain : PlainPrinters printers) (col : Column) (value : Value)
    (readable : Readable printers col value) {rest : List Nat} {later : List Token}
    (spaced : Spaced (32::rest) later) :
    Spaced ((valueText printers col value).map UInt8.toNat ++ 32::rest)
      (shownToken printers col value::later) := by
  have printed := Format.printed_escaped printers col plain value.raw
  unfold shownToken valueText
  by_cases null : value.isNull = true
  · rw [if_pos null,if_pos null]
    refine spaced.visible (c := 110) rfl ?_
    rfl
  rw [if_neg null,if_neg null]
  by_cases quotes : isQuoted col.type = true
  · have notBlob : col.type ≠ .blob := by
      intro blob
      rw [blob] at quotes
      cases quotes
    rw [if_pos quotes,if_pos quotes,printed notBlob]
    exact spaced.string _ (escape_units _)
  · rw [if_neg quotes,if_neg quotes]
    obtain ⟨notBlob,number⟩ := (readable.resolve_left null).resolve_left quotes
    rw [printed notBlob,Format.escape_clean _ number.printable.clean]
    obtain ⟨c,chars,split,visible,next⟩ := nextToken_number _ number
    rw [split,List.cons_append]
    refine spaced.visible visible ?_
    rw [next,split]

section
variable (data : DataOperation) (row : Row)

def shownMembers (printers : Printers) : List (ResultCol × Nat) → Doc .members
  | [] => .noMembers
  | field::fields =>
    .member (stringToken (field.1.shownName data)) (shownValue printers field.1.column (row field.2))
      (shownMembers printers fields)

variable {data row}

theorem Spaced.member (plain : PlainPrinters printers) (field : ResultCol × Nat)
    (member : Format.Member printers data row field) {rest : List Nat} {later : List Token}
    (spaced : Spaced (32::rest) later) :
    Spaced ((memberText printers data row field).map UInt8.toNat ++ 32::rest)
      ((stringToken (field.1.shownName data)).1::Kind.colon.token::
        shownToken printers field.1.column (row field.2)::later) := by
  have value := spaced.value plain field.1.column (row field.2) member.2
  have name := Spaced.string (value.mark .colon 58 rfl rfl rfl) (field.1.shownName data) (by
    have units := escape_units (field.1.shownName data)
    rwa [Format.escape_clean _ member.1] at units)
  have split : memberText printers data row field = quoted (field.1.shownName data) ++
      58::valueText printers field.1.column (row field.2) := by
    unfold memberText quoted
    rw [List.cons_append,List.append_assoc]
    rfl
  rw [split,List.map_append,List.append_assoc]
  exact name

theorem Spaced.members (plain : PlainPrinters printers) (fields : List (ResultCol × Nat))
    (members : ∀ field ∈ fields, Format.Member printers data row field) {rest : List Nat}
    {later : List Token} (spaced : Spaced (32::rest) later) :
    Spaced ((fields.flatMap fun field => text " , " ++ memberText printers data row field).map
        UInt8.toNat ++ 32::rest) ((shownMembers data row printers fields).tokens ++ later) := by
  induction fields with
  | nil => exact spaced
  | cons field fields ih =>
    have further := ih fun one inside => members one (List.mem_cons_of_mem _ inside)
    rw [List.flatMap_cons,List.map_append,List.append_assoc,shownMembers,Doc.tokens,shownValue_tokens]
    obtain ⟨chars,same⟩ : ∃ chars, (fields.flatMap fun field => text " , " ++
        memberText printers data row field).map UInt8.toNat ++ 32::rest = 32::chars := by
      cases fields with
      | nil => exact ⟨rest,rfl⟩
      | cons next fields => exact ⟨_,rfl⟩
    rw [same] at further ⊢
    have one := (Spaced.member plain field (members field List.mem_cons_self) further).blank 32 rfl
    rw [List.map_append,List.append_assoc]
    exact (one.mark .comma 44 rfl rfl rfl).blank 32 rfl

/-- The text of a row is read as the object of its members. -/
theorem Spaced.object (plain : PlainPrinters printers) (columns : data.cols ≠ [])
    (members : ∀ field ∈ data.fields, Format.Member printers data row field) {rest : List Nat}
    {later : List Token} (spaced : Spaced rest later) :
    Spaced ((rowText printers data row).map UInt8.toNat ++ rest)
      ((Doc.object (shownMembers data row printers data.fields)).tokens ++ later) := by
  obtain ⟨first,fields,split⟩ : ∃ first fields, data.fields = first::fields := by
    refine List.exists_cons_of_ne_nil fun none => columns ?_
    have names : data.fields.map Prod.fst = data.cols := List.zipIdx_map_fst 0 data.cols
    rw [none] at names
    exact names.symm
  rw [split] at members ⊢
  have closes : Spaced (32::125::rest) (Kind.closeBrace.token::later) :=
    (spaced.mark .closeBrace 125 rfl rfl rfl).blank 32 rfl
  have further := Spaced.members plain fields (fun one inside => members one
    (List.mem_cons_of_mem _ inside)) closes
  obtain ⟨chars,same⟩ : ∃ chars, (fields.flatMap fun field => text " , " ++
      memberText printers data row field).map UInt8.toNat ++ 32::125::rest = 32::chars := by
    cases fields with
    | nil => exact ⟨125::rest,rfl⟩
    | cons next fields => exact ⟨_,rfl⟩
  rw [same] at further
  have one := Spaced.member plain first (members first List.mem_cons_self) further
  rw [← same] at one
  have whole := ((one.blank 32 rfl).mark .openBrace 123 rfl rfl rfl).blank 32 rfl
  have tokens : (Doc.object (shownMembers data row printers (first::fields))).tokens ++ later =
      Kind.openBrace.token::(stringToken (first.1.shownName data)).1::Kind.colon.token::
        shownToken printers first.1.column (row first.2)::
        ((shownMembers data row printers fields).tokens ++ Kind.closeBrace.token::later) := by
    rw [Doc.tokens,shownMembers,Doc.tokens,shownValue_tokens]
    simp only [List.tail_cons,List.cons_append,List.append_assoc,List.nil_append]
  have chars : (rowText printers data row).map UInt8.toNat ++ rest =
      32::123::32::((memberText printers data row first).map UInt8.toNat ++
        ((fields.flatMap fun field => text " , " ++ memberText printers data row field).map
          UInt8.toNat ++ 32::125::rest)) := by
    unfold rowText
    rw [split,List.map_cons,Format.joined,List.flatMap_map]
    simp only [List.map_append,List.append_assoc]
    rfl
  rw [tokens,chars]
  exact whole

end

section
variable (data : DataOperation)

def shownElements (printers : Printers) : List Row → Doc .elements
  | [] => .noElements
  | row::rows => .element (.object (shownMembers data row printers data.fields)) (shownElements printers rows)

variable {data}

theorem Spaced.rows (plain : PlainPrinters printers) (columns : data.cols ≠ []) (rows : List Row)
    (members : ∀ row ∈ rows, ∀ field ∈ data.fields, Format.Member printers data row field)
    {rest : List Nat} {later : List Token} (spaced : Spaced rest later) :
    Spaced ((rows.flatMap fun row => text ",\n " ++ rowText printers data row).map UInt8.toNat ++ rest)
      ((shownElements data printers rows).tokens ++ later) := by
  induction rows with
  | nil => exact spaced
  | cons row rows ih =>
    have further := ih fun one inside => members one (List.mem_cons_of_mem _ inside)
    have one := Spaced.object plain columns (members row List.mem_cons_self) further
    rw [List.flatMap_cons,List.map_append,List.append_assoc,List.map_append,List.append_assoc,
      shownElements,Doc.tokens,List.cons_append,List.append_assoc]
    exact ((one.blank 32 rfl).blank 10 rfl).mark .comma 44 rfl rfl rfl

def shownPage (data : DataOperation) (printers : Printers) (c : Format.Cursor) : Doc .value :=
  if data.scanop then .array (shownElements data printers c.rows)
  else .object (shownMembers data c.current printers data.fields)

/-- A page of the JSON format is read as its document. -/
theorem page_spaced (plain : PlainPrinters printers) (columns : data.cols ≠ []) (c : Format.Cursor)
    (rows : data.scanop = true → c.rows ≠ [])
    (members : ∀ row ∈ data.resultRows c, ∀ field ∈ data.fields, Format.Member printers data row field) :
    Spaced ((Format.pageText printers data c).map UInt8.toNat) (shownPage data printers c).tokens := by
  have newline : ∀ c ∈ [10], isBlank c = true := by
    intro c inside
    rw [List.mem_singleton.mp inside]
    rfl
  have ends : Spaced [10] [] := .nil [10] newline
  unfold Format.pageText shownPage
  unfold DataOperation.resultRows at members
  cases scan : data.scanop with
  | false =>
    rw [scan] at members
    have one := Spaced.object plain columns (members c.current List.mem_cons_self) ends
    rw [List.append_nil] at one
    rw [if_neg Bool.false_ne_true,if_neg Bool.false_ne_true,List.map_append]
    exact one
  | true =>
    rw [scan,if_pos rfl] at members
    obtain ⟨first,more,total⟩ := List.exists_cons_of_ne_nil (rows scan)
    rw [total] at members ⊢
    have closes : Spaced [32,10,93,10] [Kind.closeBracket.token] :=
      ((ends.mark .closeBracket 93 rfl rfl rfl).blank 10 rfl).blank 32 rfl
    have further := Spaced.rows plain columns more (fun one inside => members one
      (List.mem_cons_of_mem _ inside)) closes
    have one := Spaced.object plain columns (members first List.mem_cons_self) further
    have whole := ((one.blank 32 rfl).blank 10 rfl).mark .openBracket 91 rfl rfl rfl
    rw [if_pos rfl,if_pos rfl,List.map_cons,Format.joined,List.flatMap_map,Doc.tokens,shownElements,
      Doc.tokens,List.tail_cons]
    simp only [List.map_append,List.append_assoc] at whole ⊢
    exact whole

end

end

end ModNdb.JSON
