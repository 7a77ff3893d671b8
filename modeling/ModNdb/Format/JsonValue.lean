import ModNdb.Lib.Json
import ModNdb.Format.Output

/-! The values the JSON format prints: which of them the JSON grammar reads back as the
text of the column. -/
namespace ModNdb.Format
open JsonText
open MySQL (Column Value Printers jsonEscape escapeString)

theorem hexValue_hexDigit (k : Nat) (small : k < 16) : hexValue (MySQL.hexDigit k) = some k := by
  have each : ∀ k : Fin 16, hexValue (MySQL.hexDigit k.val) = some k.val := by decide
  exact each ⟨k,small⟩

/-- Every entry of the table is an escape for its own byte. -/
theorem jsonEscape_cases (c : UInt8) :
    (jsonEscape c = none ∧ c ≠ 34 ∧ c ≠ 92 ∧ 32 ≤ c) ∨
    ∃ e, jsonEscape c = some (92::e) ∧ ∀ t, escaped (e ++ t) = some ([c],t) := by
  unfold jsonEscape
  split_ifs with b q h f n r t control
  · exact .inr ⟨[92],rfl,fun t => by rw [b]; rfl⟩
  · exact .inr ⟨[34],rfl,fun t => by rw [q]; rfl⟩
  · exact .inr ⟨[98],rfl,fun t => by rw [h]; rfl⟩
  · exact .inr ⟨[102],rfl,fun t => by rw [f]; rfl⟩
  · exact .inr ⟨[110],rfl,fun t => by rw [n]; rfl⟩
  · exact .inr ⟨[114],rfl,fun t => by rw [r]; rfl⟩
  · exact .inr ⟨[116],rfl,fun t' => by rw [t]; rfl⟩
  · have below : c.toNat < 32 := UInt8.lt_iff_toNat_lt.mp control
    refine .inr ⟨[117,48,48,MySQL.hexDigit (c.toNat / 16),MySQL.hexDigit (c.toNat % 16)],rfl,
      fun t => ?_⟩
    have read : hex4 (48::48::MySQL.hexDigit (c.toNat / 16)::MySQL.hexDigit (c.toNat % 16)::t) =
        some (c.toNat,t) := by
      have zero : hexValue 48 = some 0 := by decide
      simp only [hex4,zero,hexValue_hexDigit _ (show c.toNat / 16 < 16 by omega),
        hexValue_hexDigit _ (Nat.mod_lt c.toNat (by decide)),Option.bind_eq_bind,Option.bind_some,
        Option.pure_def,Option.some.injEq,Prod.mk.injEq,and_true]
      omega
    have small : utf8 c.toNat = [c] := by rw [utf8,if_pos (by omega),UInt8.ofNat_toNat]
    change (hex4 (48::48::MySQL.hexDigit (c.toNat / 16)::MySQL.hexDigit (c.toNat % 16)::t)).bind _ = _
    rw [read,Option.bind_some]
    dsimp only
    rw [if_pos (.inl (by omega)),small]
  · exact .inl ⟨rfl,q,b,UInt8.not_lt.mp control⟩

theorem escapeString_cons (c : UInt8) (t : Text) :
    escapeString jsonEscape (c::t) = (jsonEscape c).getD [c] ++ escapeString jsonEscape t :=
  List.flatMap_cons

theorem escape_through (t : Text) : Through (escapeString jsonEscape t) t := by
  induction t with
  | nil => exact .nil
  | cons c t ih =>
    rw [escapeString_cons]
    refine Through.append (v := (jsonEscape c).getD [c]) (u := [c]) ?_ ih
    rcases jsonEscape_cases c with ⟨none_,quote,backslash,control⟩ | ⟨e,escape,unit⟩
    · rw [none_]
      exact .char c quote backslash control
    · rw [escape]
      exact .escape e [c] unit

theorem escape_clean (t : Text) (clean : Clean t) : escapeString jsonEscape t = t := by
  induction t with
  | nil => rfl
  | cons c t ih =>
    rw [escapeString_cons,ih fun d inside => clean d (List.mem_cons_of_mem c inside)]
    rcases jsonEscape_cases c with ⟨none_,_⟩ | ⟨e,escape,unit⟩
    · rw [none_]
      rfl
    · obtain ⟨quote,backslash,control⟩ := clean c List.mem_cons_self
      rw [jsonEscape,if_neg backslash,if_neg quote] at escape
      split_ifs at escape with h f n r t low
      · rw [h] at control; exact absurd control (by decide)
      · rw [f] at control; exact absurd control (by decide)
      · rw [n] at control; exact absurd control (by decide)
      · rw [r] at control; exact absurd control (by decide)
      · rw [t] at control; exact absurd control (by decide)
      · exact absurd low (UInt8.not_lt.mpr control)

def NoQuote (t : Text) : Prop := ∀ c ∈ (skip t).head?, c ≠ 34

theorem escape_noQuote (t rest : Text) (noQuote : NoQuote rest) :
    NoQuote (escapeString jsonEscape t ++ rest) := by
  induction t with
  | nil => exact noQuote
  | cons c t ih =>
    rw [escapeString_cons]
    rcases jsonEscape_cases c with ⟨none_,quote,_⟩ | ⟨e,escape,_⟩
    · rw [none_]
      cases blank : isBlank c with
      | true =>
        have moved : skip ([c] ++ escapeString jsonEscape t ++ rest) =
          skip (escapeString jsonEscape t ++ rest) := skip_blank _ _ blank
        unfold NoQuote
        rw [Option.getD_none,moved]
        exact ih
      | false =>
        have stays : skip ([c] ++ escapeString jsonEscape t ++ rest) =
          c::(escapeString jsonEscape t ++ rest) := skip_other _ _ blank
        unfold NoQuote
        rw [Option.getD_none,stays]
        simpa using quote
    · rw [escape]
      have stays : skip (92::e ++ escapeString jsonEscape t ++ rest) =
        92::(e ++ escapeString jsonEscape t ++ rest) := skip_other _ _ (by decide)
      unfold NoQuote
      rw [Option.getD_some,stays]
      simp

theorem digits_shape (n : Nat) :
    ∃ d ds, MySQL.digits n = d::ds ∧ (∀ c ∈ d::ds, isDigit c = true) ∧ (ds = [] ∨ d ≠ 48) := by
  have digit (k : Nat) (small : k < 10) : isDigit (code (Nat.digitChar k)) = true ∧
      (k ≠ 0 → code (Nat.digitChar k) ≠ 48) := by
    have each : ∀ k : Fin 10, isDigit (code (Nat.digitChar k.val)) = true ∧
        (k.val ≠ 0 → code (Nat.digitChar k.val) ≠ 48) := by decide
    exact each ⟨k,small⟩
  induction n using Nat.strongRecOn with
  | ind n ih =>
    by_cases small : n < 10
    · refine ⟨code (Nat.digitChar n),[],?_,?_,.inl rfl⟩
      · rw [MySQL.digits,Nat.toDigits_of_lt_base small]
        rfl
      · simpa using (digit n small).1
    · obtain ⟨d,ds,same,all,front⟩ := ih (n / 10) (by omega)
      have last := digit (n % 10) (Nat.mod_lt n (by decide))
      refine ⟨d,ds ++ [code (Nat.digitChar (n % 10))],?_,?_,.inr ?_⟩
      · rw [MySQL.digits,Nat.toDigits_of_base_le (by decide) (by omega),List.map_append,
          ← MySQL.digits,same]
        rfl
      · intro c inside
        rw [← List.cons_append] at inside
        rcases List.mem_append.mp inside with inside | inside
        · exact all c inside
        · rw [List.mem_singleton.mp inside]
          exact last.1
      · rcases front with rfl | front
        · -- one digit, which is not zero as the number is at least ten
          rw [MySQL.digits] at same
          by_cases one : n / 10 < 10
          · rw [Nat.toDigits_of_lt_base one] at same
            obtain ⟨rfl,_⟩ := List.cons.inj same
            exact (digit _ one).2 (by omega)
          · rw [Nat.toDigits_of_base_le (by decide) (by omega),List.map_append] at same
            have size := congrArg List.length same
            obtain ⟨_,_,more,_⟩ := ih (n / 10 / 10) (by omega)
            rw [MySQL.digits] at more
            simp [more] at size
        · exact front

theorem digits_number (n : Nat) : IsNumber (MySQL.digits n) := by
  obtain ⟨d,ds,same,all,front⟩ := digits_shape n
  rw [same]
  exact (isNumber_digits d ds all front).1

theorem decimalInt_number (i : Int) : IsNumber (MySQL.decimalInt i) := by
  obtain ⟨d,ds,same,all,front⟩ := digits_shape i.natAbs
  rw [MySQL.decimalInt,same]
  split_ifs
  · exact (isNumber_digits d ds all front).2
  · exact (isNumber_digits d ds all front).1

theorem year_number (raw : Text) :
    IsNumber (MySQL.padded 4 (1900 + MySQL.unsignedOf 1 raw)) := by
  have each : ∀ n : Fin 256, IsNumber (MySQL.padded 4 (1900 + (n.val : Int))) := by decide +kernel
  have small : MySQL.unsignedOf 1 raw < 256 := by
    cases raw with
    | nil => decide
    | cons b bs => simpa [MySQL.unsignedOf,MySQL.le] using b.toNat_lt
  exact each ⟨_,small⟩

theorem padded_printable (width : Nat) (i : Int) : Printable (MySQL.padded width i) := by
  obtain ⟨d,ds,same,all,_⟩ := digits_shape i.natAbs
  have zero : Printable (List.replicate (width - (if i < 0 then [code '-'] else []).length -
      (MySQL.digits i.natAbs).length) (code '0')) := by
    intro c inside
    rw [(List.mem_replicate.mp inside).2]
    decide
  refine Printable.append ?_ (zero.append ?_)
  · split_ifs
    · exact Printable.cons (by decide) (by simp [Printable])
    · simp [Printable]
  · rw [same]
    exact digits_printable _ all

/-- Nothing in what the C library prints has a meaning in a JSON string. -/
structure PlainPrinters (printers : Printers) : Prop where
  float : ∀ raw, Clean (printers.float raw)
  double : ∀ raw, Clean (printers.double raw)
  decimal : ∀ precision scale raw, Clean (printers.decimal precision scale raw)

section
variable (printers : Printers) (col : Column)

/-- The column's text: the value printed without escapes. -/
def columnText (raw : Text) : Text := (MySQL.out printers col raw none).bytes

def jsonPrinted (raw : Text) : MySQL.Printed :=
  MySQL.out printers col raw (MySQL.getEscapes .escJson)

/-- A column's JSON value is null, or a number or string that is the column's text. -/
def Shows (value : Value) (v : Json) : Prop :=
  if value.isNull then v = .null
  else v = .number (columnText printers col value.raw) ∨
    v = .string (columnText printers col value.raw)

/-- Values that are quoted and have only ASCII bytes where they are escaped, or that
print as a number. -/
def Fits (raw : Text) : Prop :=
  match col.type with
  | .char => ∀ c ∈ MySQL.stringBytes 0 raw, c < 128
  | .varchar => ∀ c ∈ MySQL.stringBytes 1 raw, c < 128
  | .longvarchar => ∀ c ∈ MySQL.stringBytes 2 raw, c < 128
  | .text => ∀ c ∈ raw, c < 128
  | .binary => IsNumber (MySQL.stringBytes 0 raw)
  | .varbinary => IsNumber (MySQL.stringBytes 1 raw)
  | .longvarbinary => IsNumber (MySQL.stringBytes 2 raw)
  | .float => IsNumber (printers.float raw)
  | .double => IsNumber (printers.double raw)
  | .decimal | .decimalunsigned => IsNumber (printers.decimal col.precision col.scale raw)
  | .blob | .olddecimal | .olddecimalunsigned | .undefined => False
  | _ => True

theorem dash_printable (c : UInt8) (dash : c = code '-' ∨ c = code ':' ∨ c = code ' ') :
    Printable [c] := by
  rcases dash with rfl | rfl | rfl <;> exact Printable.cons (by decide) (by simp [Printable])

theorem printed_escaped (plain : PlainPrinters printers) (raw : Text) (notBlob : col.type ≠ .blob) :
    (jsonPrinted printers col raw).bytes = escapeString jsonEscape (columnText printers col raw) := by
  have number (t : Text) (is : IsNumber t) : t = escapeString jsonEscape t :=
    (escape_clean t is.printable.clean).symm
  have date (t : Text) (is : Printable t) : t = escapeString jsonEscape t :=
    (escape_clean t is.clean).symm
  have dash : Printable [code '-'] := dash_printable _ (.inl rfl)
  have colon : Printable [code ':'] := dash_printable _ (.inr (.inl rfl))
  have blank : Printable [code ' '] := dash_printable _ (.inr (.inr rfl))
  obtain ⟨name,type,precision,scale⟩ := col
  have ymd (tm : MySQL.Tm) : Printable (MySQL.padded 4 tm.year ++ [code '-'] ++
      MySQL.padded 2 tm.month ++ [code '-'] ++ MySQL.padded 2 tm.day) :=
    ((((padded_printable _ _).append dash).append (padded_printable _ _)).append dash).append
      (padded_printable _ _)
  cases type with
  | blob => exact absurd rfl notBlob
  | char | varchar | longvarchar | text | binary | varbinary | longvarbinary => rfl
  | undefined | olddecimal | olddecimalunsigned => rfl
  | float => exact (escape_clean _ (plain.float raw)).symm
  | double => exact (escape_clean _ (plain.double raw)).symm
  | decimal | decimalunsigned => exact (escape_clean _ (plain.decimal precision scale raw)).symm
  | tinyint | smallint | mediumint | int | bigint | mediumunsigned =>
    exact number _ (decimalInt_number _)
  | tinyunsigned | smallunsigned | unsigned | bigunsigned | bit | timestamp =>
    exact number _ (digits_number _)
  | year => exact number _ (year_number raw)
  | date => exact date _ (ymd _)
  | time =>
    refine date _ (((((Printable.append ?_ (padded_printable _ _)).append colon).append
      (padded_printable _ _)).append colon).append (padded_printable _ _))
    split_ifs
    · exact dash
    · simp [Printable]
  | datetime =>
    exact date _ (((((((ymd _).append blank).append (padded_printable _ _)).append colon).append
      (padded_printable _ _)).append colon).append (padded_printable _ _))

theorem sizing_inside (t : Text) : MySQL.sizingReadsOutside t = false ↔ ∀ c ∈ t, c < 128 := by
  simp [MySQL.sizingReadsOutside]

/-- The value is one the grammar reads back, and the escape table was read inside. -/
theorem fits_iff (raw : Text) :
    Fits printers col raw ↔
      (isQuoted col.type = true ∨
        col.type ≠ .blob ∧ IsNumber (columnText printers col raw)) ∧
      (jsonPrinted printers col raw).outside = false := by
  have nothing : ¬IsNumber [] := by decide
  have unquoted {P Q R S : Prop} (read : (P ∨ Q ∧ R) ∧ S) (bare : ¬P) : Q ∧ R :=
    read.1.resolve_left bare
  obtain ⟨name,type,precision,scale⟩ := col
  cases type with
  | char | varchar | longvarchar | text =>
    exact ⟨fun ascii => ⟨.inl rfl,(sizing_inside _).mpr ascii⟩,fun read =>
      (sizing_inside _).mp read.2⟩
  | binary | varbinary | longvarbinary =>
    refine ⟨fun is => ⟨.inr ⟨nofun,is⟩,(sizing_inside _).mpr fun c inside => ?_⟩,fun read =>
      (unquoted read Bool.false_ne_true).2⟩
    exact (IsNumber.printable is c inside).2.2.2
  | float | double | decimal | decimalunsigned =>
    exact ⟨fun is => ⟨.inr ⟨nofun,is⟩,rfl⟩,fun read => (unquoted read Bool.false_ne_true).2⟩
  | blob => exact ⟨False.elim,fun read => (unquoted read Bool.false_ne_true).1 rfl⟩
  | undefined | olddecimal | olddecimalunsigned =>
    exact ⟨False.elim,fun read => nothing (unquoted read Bool.false_ne_true).2⟩
  | tinyint | smallint | mediumint | int | bigint | mediumunsigned =>
    exact ⟨fun _ => ⟨.inr ⟨nofun,decimalInt_number _⟩,rfl⟩,fun _ => trivial⟩
  | tinyunsigned | smallunsigned | unsigned | bigunsigned | bit | timestamp =>
    exact ⟨fun _ => ⟨.inr ⟨nofun,digits_number _⟩,rfl⟩,fun _ => trivial⟩
  | year => exact ⟨fun _ => ⟨.inr ⟨nofun,year_number raw⟩,rfl⟩,fun _ => trivial⟩
  | date | time | datetime => exact ⟨fun _ => ⟨.inl rfl,rfl⟩,fun _ => trivial⟩

def valueText (value : Value) : Text :=
  if value.isNull then text "null"
  else if isQuoted col.type then 34::((jsonPrinted printers col value.raw).bytes ++ [34])
  else (jsonPrinted printers col value.raw).bytes

def Readable (value : Value) : Prop :=
  value.isNull = true ∨ isQuoted col.type = true ∨
    col.type ≠ .blob ∧ IsNumber (columnText printers col value.raw)

theorem number_first (t l r : Text) (read : number t = some (l,r)) :
    ∃ c t', t = c::t' ∧ c ≠ 34 ∧ c ≠ 110 ∧ isBlank c = false := by
  obtain ⟨rfl,⟨c,ds,rfl,first⟩,_⟩ := number_reads t l r read
  refine ⟨c,ds ++ r,rfl,?_⟩
  rcases first with rfl | digit
  · decide
  · simp only [isDigit,Bool.and_eq_true,decide_eq_true_eq,UInt8.le_iff_toNat_le,
      UInt8.reduceToNat] at digit
    refine ⟨?_,?_,?_⟩
    · rintro rfl; simp at digit
    · rintro rfl; simp at digit
    · simp only [isBlank,Bool.or_eq_false_iff,beq_eq_false_iff_ne]
      refine ⟨⟨⟨?_,?_⟩,?_⟩,?_⟩ <;> (rintro rfl; simp at digit)

theorem number_skip (t rest : Text) (is : IsNumber t) : skip (t ++ rest) = t ++ rest := by
  obtain ⟨c,t',rfl,_,_,other⟩ := number_first _ _ _ is
  exact skip_other c _ other

theorem blank_endsNumber (rest : Text) : EndsNumber (32::rest) := by
  intro c head
  obtain rfl := Option.some.inj head
  decide

theorem null_read (m t : Text) (v : Json) (read : JsonText.Value (text "null" ++ t) v m)
    (null : v = .null) : m = t := by
  subst null
  cases read with
  | null => rfl

/-- A string shown is the text between the quotes. -/
theorem quoted_read (t u rest m : Text) (v : Json)
    (read : JsonText.Value (34::(escapeString jsonEscape t ++ 34::rest)) v m)
    (shown : v = .number u ∨ v = .string u) : v = .string t ∧ m = rest := by
  have content := (escape_through t (34::rest) t rest).mpr ⟨[],by simp,.close rest⟩
  cases read with
  | number _ lexeme _ read =>
    obtain ⟨_,_,same,other,_⟩ := number_first _ _ _ read
    exact absurd (List.cons.inj same).1.symm other
  | string _ s _ read =>
    obtain ⟨rfl,rfl⟩ := body_unique _ _ _ _ _ read content
    exact ⟨rfl,rfl⟩

/-- What is not quoted can only be shown as a number. -/
theorem unquoted_read (t u rest m : Text) (v : Json) (noQuote : NoQuote rest)
    (read : JsonText.Value (skip (escapeString jsonEscape t ++ rest)) v m)
    (shown : v = .number u ∨ v = .string u) :
    number (skip (escapeString jsonEscape t ++ rest)) = some (u,m) := by
  have first := escape_noQuote t rest noQuote
  unfold NoQuote at first
  generalize skip (escapeString jsonEscape t ++ rest) = w at read first
  rcases shown with rfl | rfl
  · cases read with
    | number _ _ _ read => exact read
  · cases read with
    | string => exact absurd rfl (first 34 rfl)

theorem value_read (plain : PlainPrinters printers) (value : Value) (rest m : Text) (v : Json)
    (noQuote : NoQuote (32::rest))
    (read : JsonText.Value (skip (valueText printers col value ++ 32::rest)) v m)
    (shown : Shows printers col value v) : Readable printers col value ∧ m = 32::rest := by
  unfold Shows at shown
  unfold valueText at read
  by_cases null : value.isNull = true
  · rw [if_pos null] at shown read
    have stays : skip (text "null" ++ 32::rest) = text "null" ++ 32::rest :=
      skip_other 110 _ (by decide)
    rw [stays] at read
    exact ⟨.inl null,null_read m _ v read shown⟩
  rw [if_neg null] at shown read
  by_cases quotes : isQuoted col.type = true
  · have notBlob : col.type ≠ .blob := by
      intro blob
      rw [blob] at quotes
      cases quotes
    rw [if_pos quotes,printed_escaped printers col plain value.raw notBlob,List.cons_append,
      List.append_assoc] at read
    rw [skip_other 34 _ (by decide)] at read
    exact ⟨.inr (.inl quotes),(quoted_read _ _ _ _ v read shown).2⟩
  rw [if_neg quotes] at read
  by_cases blob : col.type = .blob
  · -- the text printed for a blob starts with a plus sign
    have printed : (jsonPrinted printers col value.raw).bytes =
        escapeString jsonEscape (text "++ CANNOT ESCAPE BLOB ++") := by
      rw [jsonPrinted,MySQL.out,blob]
      rfl
    rw [printed] at read
    have number := unquoted_read _ _ _ _ v noQuote read shown
    have plus : skip (escapeString jsonEscape (text "++ CANNOT ESCAPE BLOB ++") ++ 32::rest) =
        43::(escapeString jsonEscape (text "+ CANNOT ESCAPE BLOB ++") ++ 32::rest) :=
      skip_other 43 _ (by decide)
    rw [plus] at number
    obtain ⟨_,⟨c,ds,same,first⟩,_⟩ := number_reads _ _ _ number
    obtain ⟨whole,_⟩ := number_reads _ _ _ number
    rw [same] at whole
    obtain ⟨rfl,_⟩ := List.cons.inj whole
    exact absurd first (by decide)
  · rw [printed_escaped printers col plain value.raw blob] at read
    have number := unquoted_read _ _ _ _ v noQuote read shown
    have is := number_self _ _ _ number
    refine ⟨.inr (.inr ⟨blob,is⟩),?_⟩
    have whole := (number_reads _ _ _ number).1
    rw [escape_clean _ is.printable.clean,number_skip _ _ is] at whole
    exact (List.append_cancel_left whole).symm

theorem value_write (plain : PlainPrinters printers) (value : Value)
    (readable : Readable printers col value) :
    ∃ v, Shows printers col value v ∧ ∀ rest,
      JsonText.Value (skip (valueText printers col value ++ 32::rest)) v (32::rest) := by
  unfold Shows valueText
  by_cases null : value.isNull = true
  · simp only [if_pos null]
    refine ⟨.null,rfl,fun rest => ?_⟩
    rw [show skip (text "null" ++ 32::rest) = text "null" ++ 32::rest from
      skip_other 110 _ (by decide)]
    exact .null _
  simp only [if_neg null]
  by_cases quotes : isQuoted col.type = true
  · have notBlob : col.type ≠ .blob := by
      intro blob
      rw [blob] at quotes
      cases quotes
    refine ⟨.string (columnText printers col value.raw),.inr rfl,fun rest => ?_⟩
    rw [if_pos quotes,printed_escaped printers col plain value.raw notBlob,List.cons_append,
      List.append_assoc,skip_other 34 _ (by decide)]
    exact .string _ _ _ ((escape_through _ _ _ _).mpr ⟨[],by simp,.close _⟩)
  · obtain ⟨notBlob,is⟩ := (readable.resolve_left null).resolve_left quotes
    refine ⟨.number (columnText printers col value.raw),.inl rfl,fun rest => ?_⟩
    rw [if_neg quotes,printed_escaped printers col plain value.raw notBlob,
      escape_clean _ is.printable.clean,number_skip _ _ is]
    exact .number _ _ _ ((number_reads _ _ _ is).2.2.2 _ (blank_endsNumber rest))

theorem value_guarded (plain : PlainPrinters printers) (value : Value) (rest : Text)
    (guarded : Guarded rest) : Guarded (58::(valueText printers col value ++ rest)) := by
  have behind (v u : Text) (front : Through v u) : Guarded (58::(v ++ rest)) :=
    (guarded.through front).through (Through.char 58 (by decide) (by decide) (by decide))
  unfold valueText
  by_cases null : value.isNull = true
  · rw [if_pos null]
    exact behind _ _ (.clean _ (by decide))
  rw [if_neg null]
  by_cases quotes : isQuoted col.type = true
  · rw [if_pos quotes]
    exact Guarded.quote 58 _ (by decide) (by decide) (by decide)
  rw [if_neg quotes]
  by_cases blob : col.type = .blob
  · have printed : (jsonPrinted printers col value.raw).bytes =
        text "++ CANNOT ESCAPE BLOB ++" := by
      rw [jsonPrinted,MySQL.out,blob]
      rfl
    rw [printed]
    exact behind _ _ (.clean _ (by decide))
  · rw [printed_escaped printers col plain value.raw blob]
    exact behind _ _ (escape_through _)

end

end ModNdb.Format
