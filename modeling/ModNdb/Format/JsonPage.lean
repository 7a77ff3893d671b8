import ModNdb.Format.Container
import ModNdb.Format.JsonValue
import ModNdb.Format.Printed
import ModNdb.Format.TokenParse

/-! The page of the built-in JSON format: its bytes for a given result, and when they
are the JSON text of that result. -/
namespace ModNdb.Format
open JsonText
open MySQL (Value Printers)

def nameCell : Cell := ⟨.itemName,.quoteAll,.noEsc,0,[]⟩

def jsonScan : LoopParts :=
  ⟨.chain (.constant (text "[\n ")) [],.node 2,some (text ",\n "),
    .chain (.constant (text " \n]")) []⟩

def jsonRow : LoopParts :=
  ⟨.chain (.constant (text " \x7b ")) [],.node 3,some (text " , "),.chain (.constant (text " \x7d")) []⟩

def jsonItem : Compiled :=
  .record (.chain nameCell [.constant (text ":"),⟨.itemValue,.quoteChar,.escJson,0,[]⟩])
    (.chain nameCell [.constant (text ":null")])

def jsonCompiled : OutputFormat :=
  {jsonFormat with nodes := [
    ⟨text "_main",.mainLoop,text "$scan$\n",none,
      .loop ⟨.theNullCell,.node 1,none,.chain (.constant (text "\n")) []⟩⟩,
    ⟨text "scan",.scanLoop,text "[\n $row$,\n ... \n]",none,.loop jsonScan⟩,
    ⟨text "row",.rowLoop,text " \x7b $item$ , ... \x7d",none,.loop jsonRow⟩,
    ⟨text "item",.recAttr,text "$name/Q$:$value/qj$",some (text "$name/Q$:null"),jsonItem⟩]}

theorem jsonFormat_accepted (p : Parser) : (jsonFormat.compile p).1 = .accepted jsonCompiled := by
  have texts : jsonFormat.HasTexts := by
    unfold OutputFormat.HasTexts
    decide
  have parsed : parseAll jsonFormat.symbols jsonFormat = some jsonCompiled := rfl
  exact (compile_accepted_iff jsonFormat jsonCompiled p texts).mpr parsed

theorem range_any (bs : List Bool) :
    ((List.range bs.length).any fun n => bs.getD n false) = bs.any id := by
  induction bs with
  | nil => rfl
  | cons b bs ih =>
    rw [List.length_cons,List.range_succ_eq_map,List.any_cons,List.any_map]
    exact congrArg _ ih

section
variable (printers : Printers) (s : Sentinels) (data : DataOperation)

def ResultCol.shownName (col : ResultCol) : Text :=
  if data.selectStar then col.column.name else col.aliased

def DataOperation.fields : List (ResultCol × Nat) := data.cols.zipIdx

def memberText (row : Row) (field : ResultCol × Nat) : Text :=
  34::(field.1.shownName data ++ 34::58::valueText printers field.1.column (row field.2))

def memberOutside (row : Row) (field : ResultCol × Nat) : Bool :=
  !(row field.2).isNull && (jsonPrinted printers field.1.column (row field.2).raw).outside

def rowText (row : Row) : Text :=
  text " \x7b " ++ (joined (text " , ") (data.fields.map (memberText printers data row)) ++ text " \x7d")

def rowOutside (row : Row) : Bool := data.fields.any (memberOutside printers row)

theorem name_prints (n : Nat) (col : ResultCol) (found : data.cols[n]? = some col) (p : Page) :
    PrintsAt p (nameCell.outAt printers data n) ()
      ([34] ++ col.shownName data ++ [34]) false := by
  have run : nameCell.outAt printers data n = (do
      readColumn n
      print ([34] ++ col.shownName data ++ [34])) := by
    simp only [Cell.outAt,found]
    rfl
  rw [run]
  exact (PrintsAt.readColumn p n).skip fun q _ => .print q _

theorem constant_prints (p : Page) (t : Text) (n : Nat) :
    PrintsAt p ((Cell.constant t).outAt printers data n) () t false := .print p t

theorem value_prints (n : Nat) (col : ResultCol) (found : data.cols[n]? = some col) (p : Page)
    (present : (p.cursor.current n).isNull = false) :
    PrintsAt p ((⟨.itemValue,.quoteChar,.escJson,0,[]⟩ : Cell).outAt printers data n) ()
      (valueText printers col.column (p.cursor.current n))
      (jsonPrinted printers col.column (p.cursor.current n).raw).outside := by
  have value (q : Page) (same : q.cursor = p.cursor) :
      PrintsAt q (printResult printers col.column n .escJson) ()
        (jsonPrinted printers col.column (p.cursor.current n).raw).bytes
        (jsonPrinted printers col.column (p.cursor.current n).raw).outside := by
    rw [← same]
    exact ⟨_,rfl,rfl,rfl,rfl⟩
  have run : (⟨.itemValue,.quoteChar,.escJson,0,[]⟩ : Cell).outAt printers data n = (do
      readColumn n
      if isQuoted col.column.type then
        print [34]
        printResult printers col.column n .escJson
        print [34]
      else printResult printers col.column n .escJson) := by
    simp only [Cell.outAt,found]
    cases isQuoted col.column.type <;> rfl
  rw [run,valueText,present,if_neg Bool.false_ne_true]
  refine (PrintsAt.readColumn p n).skip fun q same => ?_
  cases isQuoted col.column.type with
  | false => exact value q same
  | true =>
    rw [← Bool.or_false (jsonPrinted printers col.column (p.cursor.current n).raw).outside]
    exact (PrintsAt.print q [34]).bind fun r here =>
      (value r (here.trans same)).bind fun t _ => .print t [34]

theorem member_prints (n : Nat) (col : ResultCol) (found : data.cols[n]? = some col) (p : Page) :
    PrintsAt p (nodeOut printers s data jsonCompiled n (.node 3)) ()
      (memberText printers data p.cursor.current (col,n))
      (memberOutside printers p.cursor.current (col,n)) := by
  have run : nodeOut printers s data jsonCompiled n (.node 3) = recAttrOut printers s data n jsonItem :=
    rfl
  rw [run]
  refine (PrintsAt.readColumn p n).skip fun q same => .get ?_
  have name := name_prints printers data n col found q
  rw [← same]
  have valueAt (r : Page) (here : r.cursor = q.cursor)
      (present : (q.cursor.current n).isNull = false) :
      PrintsAt r ((⟨.itemValue,.quoteChar,.escJson,0,[]⟩ : Cell).outAt printers data n) ()
        (valueText printers col.column (q.cursor.current n))
        (jsonPrinted printers col.column (q.cursor.current n).raw).outside := by
    rw [← here] at present ⊢
    exact value_prints printers data n col found r present
  unfold memberText memberOutside
  cases null : (q.cursor.current n).isNull with
  | true =>
    have bytes : 34::(col.shownName data ++ 34::58::text "null") =
        [34] ++ col.shownName data ++ [34] ++ (text ":null" ++ []) := by simp [text,code]
    have outside (o : Bool) : (!true && o) = (false || (false || false)) := rfl
    rw [valueText,if_pos null,bytes,outside]
    exact PrintsAt.cons (f := fun c : Cell => c.outAt printers data n) name fun r _ =>
      .cons (f := fun c : Cell => c.outAt printers data n)
        (constant_prints printers data r (text ":null") n) fun t _ => .pure t _
  | false =>
    have bytes (v : Text) : 34::(col.shownName data ++ 34::58::v) =
        [34] ++ col.shownName data ++ [34] ++ (text ":" ++ (v ++ [])) := by simp [text,code]
    have outside (o : Bool) : (!false && o) = (false || (false || (o || false))) := by simp
    rw [bytes,outside]
    exact PrintsAt.cons (f := fun c : Cell => c.outAt printers data n) name fun r here =>
      .cons (constant_prints printers data r (text ":") n) fun t there =>
        .cons (valueAt t (there.trans here) null) fun u _ => .pure u _

theorem getD_fields {α : Type} (f : ResultCol × Nat → α) (other : α) (n : Nat) (col : ResultCol)
    (found : data.cols[n]? = some col) : (data.fields.map f).getD n other = f (col,n) := by
  simp [DataOperation.fields,List.getD_eq_getElem?_getD,List.getElem?_zipIdx,found]

theorem row_prints (p : Page) :
    PrintsAt p (rowRun printers s data jsonCompiled jsonRow) .ok
      (rowText printers data p.cursor.current) (rowOutside printers data p.cursor.current) := by
  let members := data.fields.map (memberText printers data p.cursor.current)
  let outsides := data.fields.map (memberOutside printers p.cursor.current)
  have size : data.nResultCols = members.length ∧ data.nResultCols = outsides.length := by
    simp [members,outsides,DataOperation.nResultCols,DataOperation.fields]
  have bytes : rowText printers data p.cursor.current =
      text " \x7b " ++ [] ++ (((List.range data.nResultCols).flatMap fun n =>
        (if n ≠ 0 then text " , " else []) ++ members.getD n []) ++
      (text " \x7d" ++ [] ++ [])) := by
    rw [size.1,range_joined]
    simp [rowText,members]
  have outside : rowOutside printers data p.cursor.current =
      (false || false || (((List.range data.nResultCols).any fun n =>
        false || outsides.getD n false) || (false || false || false))) := by
    simp only [Bool.false_or,Bool.or_false]
    rw [size.2,range_any]
    simp [rowOutside,outsides]
  have constant (q : Page) (t : Text) : PrintsAt q (chainOut printers s data
      (.chain (.constant t) [])) () (t ++ []) (false || false) :=
    PrintsAt.cons (f := Cell.outNumbered printers data) (.print q t) fun r _ => .pure r _
  rw [bytes,outside]
  refine (constant p (text " \x7b ")).bind fun q here => .bind (.forM fun n inside r there => ?_)
    fun t _ => (constant t (text " \x7d")).bind fun u _ => .pure u Status.ok
  obtain ⟨col,found⟩ : ∃ col, data.cols[n]? = some col :=
    ⟨_,List.getElem?_eq_getElem (List.mem_range.mp inside)⟩
  have member := member_prints printers s data n _ found
  rw [getD_fields data (memberText printers data p.cursor.current) [] n _ found,
    getD_fields data (memberOutside printers p.cursor.current) false n _ found]
  have item (t : Page) (again : t.cursor = r.cursor) :
      PrintsAt t (nodeOut printers s data jsonCompiled n jsonRow.core) ⟨⟩
        (memberText printers data p.cursor.current (col,n))
        (memberOutside printers p.cursor.current (col,n)) := by
    rw [← (again.trans there).trans here]
    exact member t
  by_cases zero : n ≠ 0
  · simp only [if_pos zero]
    exact (PrintsAt.print r _).bind item
  · simp only [if_neg zero]
    exact item r rfl

def pageText (c : Cursor) : Text :=
  (if data.scanop then
    text "[\n " ++ joined (text ",\n ") (c.rows.map (rowText printers data)) ++ text " \n]"
  else rowText printers data c.current) ++ text "\n"

def DataOperation.resultRows (c : Cursor) : List Row :=
  if data.scanop then c.rows else [c.current]

theorem scanRow_prints (n : Nat) (p : Page) :
    PrintsAt p (scanRow s jsonScan (rowRun printers s data jsonCompiled jsonRow) n) ()
      ((if n ≠ 0 then text ",\n " else text "[\n ") ++ rowText printers data p.cursor.current)
      (rowOutside printers data p.cursor.current) := by
  have row (q : Page) (same : q.cursor = p.cursor) :
      PrintsAt q (do let _ ← rowRun printers s data jsonCompiled jsonRow) ()
        (rowText printers data p.cursor.current) (rowOutside printers data p.cursor.current) := by
    rw [← same]
    obtain ⟨r,ran,bytes,outside,here⟩ := row_prints printers s data q
    exact ⟨r,by rw [Prog.bind_ok _ ran]; rfl,bytes,outside,here⟩
  unfold scanRow
  by_cases zero : n ≠ 0
  · simp only [if_pos zero]
    exact (PrintsAt.print p (text ",\n ")).bind row
  · simp only [if_neg zero]
    have begun : PrintsAt p (chainText s jsonScan.begin) () (text "[\n " ++ []) (false || false) :=
      PrintsAt.cons (f := fun c : Cell => print c.string) (.print p _) fun r _ => .pure r _
    exact begun.bind row

theorem page_prints (empty : s.nullCell.string = []) (p : Page)
    (rows : data.scanop = true → p.cursor.rows ≠ []) (fuel : Nat) :
    ∃ q, buildResults printers s data jsonCompiled (fuel + 3) p = (.ok .ok,q) ∧
      q.bytes = p.bytes ++ pageText printers data p.cursor ∧
      q.outside = (p.outside || (data.resultRows p.cursor).any (rowOutside printers data)) := by
  have run : buildResults printers s data jsonCompiled (fuel + 3) = (do
      print s.nullCell.string
      let status ← scanRun s data jsonScan (rowRun printers s data jsonCompiled jsonRow)
      print (text "\n")
      return status) := rfl
  obtain ⟨t,ran,bytes,outside⟩ : ∃ t,
      scanRun s data jsonScan (rowRun printers s data jsonCompiled jsonRow) p = (.ok .ok,t) ∧
      t.bytes ++ text "\n" = p.bytes ++ pageText printers data p.cursor ∧
      t.outside = (p.outside || (data.resultRows p.cursor).any (rowOutside printers data)) := by
    unfold scanRun pageText DataOperation.resultRows
    cases scan : data.scanop with
    | false =>
      obtain ⟨t,ran,bytes,outside,_⟩ := row_prints printers s data p
      refine ⟨t,ran,?_,by simpa using outside⟩
      rw [bytes,List.append_assoc]
      rfl
    | true =>
      obtain ⟨row,more,total⟩ := List.exists_cons_of_ne_nil (rows scan)
      obtain ⟨t,ran,bytes,outside⟩ := @fetchedRows_prints
        (scanRow s jsonScan (rowRun printers s data jsonCompiled jsonRow))
        (fun n row => (if n ≠ 0 then text ",\n " else text "[\n ") ++ rowText printers data row)
        (rowOutside printers data) (scanRow_prints printers s data) (p.cursor.remaining + 1) 0 p
        (Nat.lt_succ_self _)
      rw [total] at ran bytes outside ⊢
      rw [rowsFrom_joined] at bytes
      refine ⟨{t with bytes := t.bytes ++ text " \n]"},?_,?_,outside⟩
      · have some_rows : 0 + (row::more).length ≠ 0 := by simp
        rw [if_pos rfl,Prog.bind_ok _ (Prog.get_run p),Prog.bind_ok _ ran]
        simp only [if_pos some_rows]
        rfl
      · rw [bytes,if_pos rfl]
        simp only [List.append_assoc]
  have started : print s.nullCell.string p = (.ok (),p) := by
    rw [empty,print_run,List.append_nil]
  refine ⟨{t with bytes := t.bytes ++ text "\n"},?_,bytes,outside⟩
  rw [run,Prog.bind_ok _ started,Prog.bind_ok _ ran]
  rfl

/-- The object of a row: its members are the columns in order. -/
def ShowsRow (row : Row) (v : Json) : Prop :=
  ∃ ms, v = .object ms ∧ List.Forall₂ (fun field (m : Text × Json) =>
    m.1 = field.1.shownName data ∧ Shows printers field.1.column (row field.2) m.2) data.fields ms

/-- An array of objects for a scan, one object for a single row. -/
def ShowsResult (c : Cursor) (v : Json) : Prop :=
  if data.scanop then ∃ vs, v = .array vs ∧ List.Forall₂ (ShowsRow printers data) c.rows vs
  else ShowsRow printers data c.current v

def Member (row : Row) (field : ResultCol × Nat) : Prop :=
  Clean (field.1.shownName data) ∧ Readable printers field.1.column (row field.2)

variable {printers data}

theorem comma_after (rest : Text) : Guarded (32::44::32::34::rest) ∧ NoQuote (32::44::rest) := by
  have front : Through [32,44] [32,44] := .clean _ (by decide)
  refine ⟨(Guarded.quote 32 rest (by decide) (by decide) (by decide)).through front,?_⟩
  unfold NoQuote
  rw [skip_blank 32 _ (by decide),skip_other 44 _ (by decide)]
  intro c head
  obtain rfl := Option.some.inj head
  decide

theorem brace_after (rest : Text) (guarded : Guarded rest) :
    Guarded (32::125::rest) ∧ NoQuote (32::125::rest) := by
  have front : Through [32,125] [32,125] := .clean _ (by decide)
  refine ⟨guarded.through front,?_⟩
  unfold NoQuote
  rw [skip_blank 32 _ (by decide),skip_other 125 _ (by decide)]
  intro c head
  obtain rfl := Option.some.inj head
  decide

theorem member_read (plain : PlainPrinters printers) (row : Row) (field : ResultCol × Nat)
    (rest t k s c w m : Text) (v : Json) (guarded : Guarded (32::rest)) (noQuote : NoQuote (32::rest))
    (start : skip t = memberText printers data row field ++ 32::rest) (quote : skip t = 34::k)
    (name : Body k s c) (colon : skip c = 58::w) (value : JsonText.Value (skip w) v m)
    (same : s = field.1.shownName data)
    (shown : Shows printers field.1.column (row field.2) v) :
    Member printers data row field ∧ m = 32::rest := by
  subst same
  rw [quote,memberText,List.cons_append,List.append_assoc] at start
  obtain ⟨_,rfl⟩ := List.cons.inj start
  obtain ⟨_,clean,rfl⟩ := body_self (field.1.shownName data) []
    (58::(valueText printers field.1.column (row field.2) ++ 32::rest)) c name
    (value_guarded printers field.1.column plain (row field.2) (32::rest) guarded)
  rw [skip_other 58 _ (by decide)] at colon
  obtain ⟨_,rfl⟩ := List.cons.inj colon
  obtain ⟨readable,rfl⟩ := value_read printers field.1.column plain (row field.2) rest m v noQuote
    value shown
  exact ⟨⟨clean,readable⟩,rfl⟩

theorem members_read (plain : PlainPrinters printers) (row : Row) (first : ResultCol × Nat)
    (fields : List (ResultCol × Nat)) (t r rest : Text) (ms : List (Text × Json))
    (guarded : Guarded rest)
    (start : skip t = joined (text " , ") ((first::fields).map (memberText printers data row)) ++
      32::125::rest)
    (read : Members t ms r)
    (shown : List.Forall₂ (fun field (m : Text × Json) =>
      m.1 = field.1.shownName data ∧ Shows printers field.1.column (row field.2) m.2)
      (first::fields) ms) :
    (∀ field ∈ first::fields, Member printers data row field) ∧ r = rest := by
  induction fields generalizing first t ms with
  | nil =>
    have alone : skip t = memberText printers data row first ++ 32::125::rest := by
      rw [start]
      simp [joined]
    obtain ⟨guarded',noQuote⟩ := brace_after rest guarded
    cases read with
    | last _ k s c w m _ v quote name colon value close =>
      cases shown with
      | cons shown _ =>
        obtain ⟨member,rfl⟩ := member_read plain row first (125::rest) t k s c w m v guarded' noQuote
          alone quote name colon value shown.1 shown.2
        rw [skip_blank 32 _ (by decide),skip_other 125 _ (by decide)] at close
        obtain ⟨_,rfl⟩ := List.cons.inj close
        exact ⟨by simpa using member,rfl⟩
    | more _ k s c w m _ _ v ms quote name colon value comma more =>
      cases shown with
      | cons shown none_left =>
        cases none_left
        cases more
  | cons second fields ih =>
    have later : skip t = memberText printers data row first ++ 32::44::32::(
        joined (text " , ") ((second::fields).map (memberText printers data row)) ++
          32::125::rest) := by
      rw [start]
      simp [joined,text,code]
    obtain ⟨behind,starts⟩ : ∃ behind, joined (text " , ") ((second::fields).map
        (memberText printers data row)) ++ 32::125::rest = 34::behind := ⟨_,rfl⟩
    obtain ⟨guarded',noQuote⟩ : Guarded (32::44::32::34::behind) ∧ NoQuote _ :=
      ⟨(comma_after behind).1,(comma_after (32::34::behind)).2⟩
    rw [← starts] at guarded' noQuote
    cases read with
    | last _ k s c w m _ v quote name colon value close =>
      cases shown with
      | cons shown rest => cases rest
    | more _ k s c w m n _ v ms quote name colon value comma more =>
      cases shown with
      | cons shown left =>
        obtain ⟨member,rfl⟩ := member_read plain row first _ t k s c w m v guarded' noQuote later
          quote name colon value shown.1 shown.2
        rw [skip_blank 32 _ (by decide),skip_other 44 _ (by decide)] at comma
        obtain ⟨_,rfl⟩ := List.cons.inj comma
        have moved : skip (32::(joined (text " , ") ((second::fields).map
            (memberText printers data row)) ++ 32::125::rest)) =
            joined (text " , ") ((second::fields).map (memberText printers data row)) ++
              32::125::rest := by
          rw [skip_blank 32 _ (by decide),starts,skip_other 34 _ (by decide)]
        obtain ⟨members,rfl⟩ := ih second _ ms moved more left
        refine ⟨fun field inside => ?_,rfl⟩
        rcases List.mem_cons.mp inside with rfl | inside
        · exact member
        · exact members field inside

theorem members_write (plain : PlainPrinters printers) (row : Row) (first : ResultCol × Nat)
    (fields : List (ResultCol × Nat))
    (good : ∀ field ∈ first::fields, Member printers data row field) :
    ∃ ms, List.Forall₂ (fun field (m : Text × Json) =>
      m.1 = field.1.shownName data ∧ Shows printers field.1.column (row field.2) m.2)
      (first::fields) ms ∧ ∀ t rest,
        skip t = joined (text " , ") ((first::fields).map (memberText printers data row)) ++
          32::125::rest → Members t ms rest := by
  have member (field : ResultCol × Nat) (inside : field ∈ first::fields) : ∃ v,
      Shows printers field.1.column (row field.2) v ∧ ∀ rest, ∃ k,
        memberText printers data row field ++ 32::rest = 34::k ∧
        Body k (field.1.shownName data)
          (58::(valueText printers field.1.column (row field.2) ++ 32::rest)) ∧
        JsonText.Value (skip (valueText printers field.1.column (row field.2) ++ 32::rest)) v
          (32::rest) := by
    obtain ⟨clean,readable⟩ := good field inside
    obtain ⟨v,shown,read⟩ := value_write printers field.1.column plain (row field.2) readable
    refine ⟨v,shown,fun rest => ⟨_,?_,body_clean _ _ clean,read rest⟩⟩
    rw [memberText,List.cons_append,List.append_assoc]
    rfl
  induction fields generalizing first with
  | nil =>
    obtain ⟨v,shown,read⟩ := member first List.mem_cons_self
    refine ⟨[(first.1.shownName data,v)],.cons ⟨rfl,shown⟩ .nil,fun t rest start => ?_⟩
    obtain ⟨k,quote,name,value⟩ := read (125::rest)
    refine .last t k _ _ _ _ rest v ?_ name (skip_other 58 _ (by decide)) value ?_
    · rw [start,← quote]
      simp [joined]
    · rw [skip_blank 32 _ (by decide),skip_other 125 _ (by decide)]
  | cons second fields ih =>
    obtain ⟨v,shown,read⟩ := member first List.mem_cons_self
    obtain ⟨ms,left,write⟩ := ih second
      (fun field inside => good field (List.mem_cons_of_mem first inside))
      fun field inside => member field (List.mem_cons_of_mem first inside)
    refine ⟨(first.1.shownName data,v)::ms,.cons ⟨rfl,shown⟩ left,fun t rest start => ?_⟩
    obtain ⟨k,quote,name,value⟩ := read (44::32::(joined (text " , ") ((second::fields).map
      (memberText printers data row)) ++ 32::125::rest))
    refine .more t k _ _ _ _ _ rest v ms ?_ name (skip_other 58 _ (by decide)) value
      ((skip_blank 32 _ (by decide)).trans (skip_other 44 _ (by decide))) (write _ rest ?_)
    · rw [start,← quote]
      simp [joined,text,code]
    · rw [skip_blank 32 _ (by decide)]
      exact skip_other 34 _ (by decide)

theorem row_opens (columns : data.cols ≠ []) (row : Row) :
    ∃ first fields, data.fields = first::fields ∧ ∀ rest, ∃ t,
      skip (rowText printers data row ++ rest) = 123::t ∧
      skip t = joined (text " , ") ((first::fields).map (memberText printers data row)) ++
        32::125::rest := by
  obtain ⟨first,fields,some_fields⟩ : ∃ first fields, data.fields = first::fields := by
    refine List.exists_cons_of_ne_nil ?_
    simpa [DataOperation.fields] using columns
  refine ⟨first,fields,some_fields,fun rest => ⟨32::(joined (text " , ")
    ((first::fields).map (memberText printers data row)) ++ 32::125::rest),?_,
    (skip_blank 32 _ (by decide)).trans (skip_other 34 _ (by decide))⟩⟩
  rw [rowText,some_fields,List.append_assoc,List.append_assoc]
  exact (skip_blank 32 _ (by decide)).trans (skip_other 123 _ (by decide))

theorem row_read (plain : PlainPrinters printers) (columns : data.cols ≠ []) (row : Row)
    (t m rest : Text) (v : Json) (guarded : Guarded rest)
    (start : skip t = skip (rowText printers data row ++ rest))
    (read : JsonText.Value (skip t) v m) (shown : ShowsRow printers data row v) :
    (∀ field ∈ data.fields, Member printers data row field) ∧ m = rest := by
  obtain ⟨ms,rfl,shown⟩ := shown
  obtain ⟨first,fields,some_fields,opens⟩ := @row_opens printers data columns row
  obtain ⟨t',opened,inner⟩ := opens rest
  rw [start,opened] at read
  rw [some_fields] at shown ⊢
  cases read with
  | emptyObject => cases shown
  | object _ _ _ members =>
    exact members_read plain row first fields t' m rest ms guarded inner members shown

theorem row_write (plain : PlainPrinters printers) (columns : data.cols ≠ []) (row : Row)
    (good : ∀ field ∈ data.fields, Member printers data row field) :
    ∃ v, ShowsRow printers data row v ∧ ∀ t rest,
      skip t = skip (rowText printers data row ++ rest) → JsonText.Value (skip t) v rest := by
  obtain ⟨first,fields,some_fields,opens⟩ := @row_opens printers data columns row
  rw [some_fields] at good
  obtain ⟨ms,shown,write⟩ := members_write plain row first fields good
  refine ⟨.object ms,⟨ms,rfl,by rwa [some_fields]⟩,fun t rest start => ?_⟩
  obtain ⟨t',opened,inner⟩ := opens rest
  rw [start,opened]
  exact .object t' rest ms (write t' rest inner)

def elementsText (printers : Printers) (data : DataOperation) (first : Row) (rows : List Row)
    (rest : Text) : Text :=
  joined (text ",\n ") ((first::rows).map (rowText printers data)) ++ 32::10::93::rest

theorem elements_one (first : Row) (rest : Text) :
    elementsText printers data first [] rest = rowText printers data first ++ 32::10::93::rest := by
  simp [elementsText,joined]

theorem elements_more (first second : Row) (rows : List Row) (rest : Text) :
    elementsText printers data first (second::rows) rest =
      rowText printers data first ++ 44::10::32::elementsText printers data second rows rest := by
  simp [elementsText,joined,text,code]

theorem bracket_after (rest : Text) :
    Guarded (32::10::93::rest) ∧ skip (32::10::93::rest) = 93::rest := by
  have front : Through [32] [32] := .clean _ (by decide)
  exact ⟨(Guarded.control 10 _ (by decide)).through front,(skip_blank 32 _ (by decide)).trans
    ((skip_blank 10 _ (by decide)).trans (skip_other 93 _ (by decide)))⟩

theorem separator_after (rest : Text) :
    Guarded (44::10::32::rest) ∧ skip (44::10::32::rest) = 44::10::32::rest := by
  have front : Through [44] [44] := .clean _ (by decide)
  exact ⟨(Guarded.control 10 _ (by decide)).through front,skip_other 44 _ (by decide)⟩

theorem elements_read (plain : PlainPrinters printers) (columns : data.cols ≠ []) (first : Row)
    (rows : List Row) (t r rest : Text) (vs : List Json)
    (start : skip t = skip (elementsText printers data first rows rest))
    (read : Elements t vs r) (shown : List.Forall₂ (ShowsRow printers data) (first::rows) vs) :
    (∀ row ∈ first::rows, ∀ field ∈ data.fields, Member printers data row field) ∧ r = rest := by
  induction rows generalizing first t vs with
  | nil =>
    rw [elements_one] at start
    obtain ⟨guarded,bracket⟩ := bracket_after rest
    cases read with
    | last _ m _ v value close =>
      cases shown with
      | cons shown _ =>
        obtain ⟨members,rfl⟩ := row_read plain columns first t m _ v guarded start value shown
        rw [bracket] at close
        obtain ⟨_,rfl⟩ := List.cons.inj close
        exact ⟨by simpa using members,rfl⟩
    | more _ m n _ v vs value comma more =>
      cases shown with
      | cons shown none_left =>
        cases none_left
        cases more
  | cons second rows ih =>
    rw [elements_more] at start
    obtain ⟨guarded,separator⟩ := separator_after (elementsText printers data second rows rest)
    cases read with
    | last _ m _ v value close =>
      cases shown with
      | cons shown left => cases left
    | more _ m n _ v vs value comma more =>
      cases shown with
      | cons shown left =>
        obtain ⟨members,rfl⟩ := row_read plain columns first t m _ v guarded start value shown
        rw [separator] at comma
        obtain ⟨_,rfl⟩ := List.cons.inj comma
        have blanks : skip (10::32::elementsText printers data second rows rest) =
            skip (elementsText printers data second rows rest) :=
          (skip_blank 10 _ (by decide)).trans (skip_blank 32 _ (by decide))
        obtain ⟨later,rfl⟩ := ih second _ vs blanks more left
        refine ⟨fun row inside => ?_,rfl⟩
        rcases List.mem_cons.mp inside with rfl | inside
        · exact members
        · exact later row inside

theorem elements_write (plain : PlainPrinters printers) (columns : data.cols ≠ []) (first : Row)
    (rows : List Row)
    (good : ∀ row ∈ first::rows, ∀ field ∈ data.fields, Member printers data row field) :
    ∃ vs, List.Forall₂ (ShowsRow printers data) (first::rows) vs ∧ ∀ t rest,
      skip t = skip (elementsText printers data first rows rest) → Elements t vs rest := by
  induction rows generalizing first with
  | nil =>
    obtain ⟨v,shown,write⟩ := row_write plain columns first (good first List.mem_cons_self)
    refine ⟨[v],.cons shown .nil,fun t rest start => ?_⟩
    rw [elements_one] at start
    exact .last t _ rest v (write t _ start) (bracket_after rest).2
  | cons second rows ih =>
    obtain ⟨v,shown,write⟩ := row_write plain columns first (good first List.mem_cons_self)
    obtain ⟨vs,left,writes⟩ := ih second fun row inside => good row (List.mem_cons_of_mem first inside)
    refine ⟨v::vs,.cons shown left,fun t rest start => ?_⟩
    rw [elements_more] at start
    exact .more t _ _ rest v vs (write t _ start) (separator_after _).2 (writes _ rest
      ((skip_blank 10 _ (by decide)).trans (skip_blank 32 _ (by decide))))

/-- The page is the JSON text of the result exactly when every member can be read back. -/
theorem page_document_iff (plain : PlainPrinters printers) (columns : data.cols ≠ []) (c : Cursor)
    (rows : data.scanop = true → c.rows ≠ []) :
    (∃ v, Document (pageText printers data c) v ∧ ShowsResult printers data c v) ↔
      ∀ row ∈ data.resultRows c, ∀ field ∈ data.fields, Member printers data row field := by
  unfold pageText ShowsResult DataOperation.resultRows
  cases scan : data.scanop with
  | false =>
    have newline : Guarded (text "\n") := .control 10 _ (by decide)
    simp only [Bool.false_eq_true,if_false,List.mem_singleton,forall_eq]
    constructor
    · rintro ⟨v,⟨r,value,_⟩,shown⟩
      exact (row_read plain columns c.current _ r _ v newline rfl value shown).1
    · intro good
      obtain ⟨v,shown,write⟩ := row_write plain columns c.current good
      exact ⟨v,⟨text "\n",write _ _ rfl,rfl⟩,shown⟩
  | true =>
    obtain ⟨first,more,total⟩ := List.exists_cons_of_ne_nil (rows scan)
    have whole : skip (text "[\n " ++ joined (text ",\n ") ((first::more).map
        (rowText printers data)) ++ text " \n]" ++ text "\n") =
        91::10::32::elementsText printers data first more (text "\n") := by
      rw [List.append_assoc,List.append_assoc]
      exact skip_other 91 _ (by decide)
    have blanks : skip (10::32::elementsText printers data first more (text "\n")) =
        skip (elementsText printers data first more (text "\n")) :=
      (skip_blank 10 _ (by decide)).trans (skip_blank 32 _ (by decide))
    simp only [if_true]
    rw [total]
    constructor
    · rintro ⟨_,⟨r,value,_⟩,vs,rfl,shown⟩
      rw [whole] at value
      cases value with
      | emptyArray => cases shown
      | array _ _ _ elements =>
        exact (elements_read plain columns first more _ r _ vs blanks elements shown).1
    · intro good
      obtain ⟨vs,shown,write⟩ := elements_write plain columns first more good
      refine ⟨.array vs,⟨text "\n",?_,rfl⟩,vs,rfl,shown⟩
      rw [whole]
      exact .array _ _ vs (write _ _ blanks)

/-- Every name stands for itself in a JSON string, and every value fits its column. -/
def JsonExact (printers : Printers) (data : DataOperation) (c : Cursor) : Prop :=
  (∀ col ∈ data.cols, Clean (col.shownName data)) ∧
  ∀ row ∈ data.resultRows c, ∀ field ∈ data.fields, (row field.2).isNull = false →
    Fits printers field.1.column (row field.2).raw

theorem jsonExact_iff (c : Cursor)
    (rows : data.scanop = true → c.rows ≠ []) :
    JsonExact printers data c ↔
      (∀ row ∈ data.resultRows c, ∀ field ∈ data.fields, Member printers data row field) ∧
      (data.resultRows c).any (rowOutside printers data) = false := by
  have names : data.fields.map Prod.fst = data.cols := List.zipIdx_map_fst 0 data.cols
  have some_row : ∃ row, row ∈ data.resultRows c := by
    unfold DataOperation.resultRows
    cases scan : data.scanop with
    | false => exact ⟨c.current,by simp⟩
    | true => exact List.exists_mem_of_ne_nil _ (rows scan)
  have inside : (data.resultRows c).any (rowOutside printers data) = false ↔
      ∀ row ∈ data.resultRows c, ∀ field ∈ data.fields, (row field.2).isNull = false →
        (jsonPrinted printers field.1.column (row field.2).raw).outside = false := by
    simp [rowOutside,memberOutside]
  rw [inside]
  constructor
  · rintro ⟨clean,fits⟩
    refine ⟨fun row here field column => ⟨clean _ ?_,?_⟩,fun row here field column present =>
      ((fits_iff printers _ _).mp (fits row here field column present)).2⟩
    · rw [← names]
      exact List.mem_map_of_mem column
    · cases null : (row field.2).isNull with
      | true => exact .inl null
      | false => exact .inr ((fits_iff printers _ _).mp (fits row here field column null)).1
  · rintro ⟨members,inside⟩
    refine ⟨fun col column => ?_,fun row here field column present => (fits_iff printers _ _).mpr
      ⟨(members row here field column).2.resolve_left (by simp [present]),
        inside row here field column present⟩⟩
    obtain ⟨row,here⟩ := some_row
    rw [← names] at column
    obtain ⟨field,inside,rfl⟩ := List.mem_map.mp column
    exact (members row here field inside).1

/-- The page is the result's JSON text, printed without leaving a table, exactly for names
and values of these kinds. -/
theorem json_page_iff (plain : PlainPrinters printers) (linked : List Cell) (p next : Parser)
    (f : OutputFormat) (compiled : jsonFormat.compile p = (.accepted f,next))
    (columns : data.cols ≠ []) (page : Page) (fresh : page.bytes = [] ∧ page.outside = false)
    (rows : data.scanop = true → page.cursor.rows ≠ []) (fuel : Nat) :
    (∃ page' v, buildResults printers {Sentinels.initial with nullCellNext := linked} data f
        (fuel + 3) page = (.ok .ok,page') ∧ page'.outside = false ∧
      Document page'.bytes v ∧ ShowsResult printers data page.cursor v) ↔
    JsonExact printers data page.cursor := by
  have same : f = jsonCompiled := by
    have accepted := jsonFormat_accepted p
    rw [compiled] at accepted
    exact CompileResult.accepted.inj accepted
  subst same
  obtain ⟨q,ran,bytes,outside⟩ := page_prints printers
    {Sentinels.initial with nullCellNext := linked} data rfl page rows fuel
  rw [fresh.1,List.nil_append] at bytes
  rw [fresh.2,Bool.false_or] at outside
  rw [jsonExact_iff page.cursor rows,← page_document_iff plain columns page.cursor rows,
    ← bytes,← outside]
  constructor
  · rintro ⟨page',v,ran',inside,document,shown⟩
    rw [ran] at ran'
    obtain ⟨_,rfl⟩ := Prod.mk.inj ran'
    exact ⟨⟨v,document,shown⟩,inside⟩
  · rintro ⟨⟨v,document,shown⟩,inside⟩
    exact ⟨q,v,ran,inside,document,shown⟩

/-- One row with an `int` column whose alias is `a` and value is 7. -/
def oneInt : DataOperation :=
  ⟨false,[⟨⟨text "i",.int,0,0⟩,text "a"⟩],false,by decide⟩

def printNothing : Printers := ⟨fun _ => [],fun _ => [],fun _ _ _ => []⟩

theorem printNothing_plain : PlainPrinters printNothing := by
  constructor <;> simp [printNothing,Clean]

theorem json_page_int : ∃ page' v,
    buildResults printNothing .initial oneInt jsonCompiled 3
      ⟨[],[],false,⟨fun _ => ⟨false,[7,0,0,0]⟩,[],[]⟩⟩ = (.ok .ok,page') ∧
    page'.outside = false ∧ Document page'.bytes v ∧
    ShowsResult printNothing oneInt ⟨fun _ => ⟨false,[7,0,0,0]⟩,[],[]⟩ v := by
  have accepted := jsonFormat_accepted .initial
  rcases compiled : jsonFormat.compile .initial with ⟨result,next⟩
  rw [compiled] at accepted
  subst accepted
  refine (json_page_iff printNothing_plain [] .initial next jsonCompiled compiled (by decide)
    ⟨[],[],false,⟨fun _ => ⟨false,[7,0,0,0]⟩,[],[]⟩⟩ ⟨rfl,rfl⟩ (fun scan => by cases scan) 0).mpr ?_
  refine ⟨?_,?_⟩
  · intro col column
    obtain rfl := List.mem_singleton.mp column
    decide
  · intro row _ field column _
    obtain rfl := List.mem_singleton.mp column
    trivial

end

/-- The column `i` is shown as `a"b`. -/
def quotedAlias : DataOperation :=
  ⟨false,[⟨⟨text "i",.int,0,0⟩,text "a\"b"⟩],false,by decide⟩

theorem quoted_alias_breaks_page :
    ¬∀ (data : DataOperation) (page page' : Page) (fuel : Nat), data.cols ≠ [] →
      page.bytes = [] → (data.scanop = true → page.cursor.rows ≠ []) →
      buildResults printNothing .initial data jsonCompiled (fuel + 3) page = (.ok .ok,page') →
      ∃ v, Document page'.bytes v ∧ ShowsResult printNothing data page.cursor v := by
  intro parses
  let page : Page := ⟨[],[],false,⟨fun _ => ⟨false,[7,0,0,0]⟩,[],[]⟩⟩
  have single (scan : quotedAlias.scanop = true) : page.cursor.rows ≠ [] := by cases scan
  have columns : quotedAlias.cols ≠ [] := by decide
  obtain ⟨q,ran,bytes,_⟩ := page_prints printNothing .initial quotedAlias rfl page single 0
  have document := parses quotedAlias page q 0 columns rfl single ran
  rw [bytes,show page.bytes = [] from rfl,List.nil_append] at document
  have members := (page_document_iff printNothing_plain columns page.cursor single).mp document
  have clean := (members page.cursor.current List.mem_cons_self _ List.mem_cons_self).1
  exact absurd rfl (clean 34 (by decide)).1

end ModNdb.Format
