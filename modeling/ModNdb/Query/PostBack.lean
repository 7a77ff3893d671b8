import ModNdb.JSON.Pages
import ModNdb.Query.FormData

/-! A page of the JSON format as the body of a request: what is read of a row that was shown. -/
namespace ModNdb.Query
open Format (ResultCol Row PlainPrinters Member memberText rowText valueText columnText JsonExact
  jsonCompiled Page Sentinels)
open JSON (Doc Reading Token runActions shownElements shownMembers shownPage shownToken shownValue
  stringToken)
open MySQL (Printers)

section
variable (printers : Printers) (data : Format.DataOperation) (row : Row)

def shownItem (field : ResultCol × Nat) : Text × Text :=
  (field.1.shownName data,columnText printers field.1.column (row field.2).raw)

def ShortField (field : ResultCol × Nat) : Prop :=
  (field.1.shownName data).length + 2 < 16384 ∧
    (valueText printers field.1.column (row field.2)).length < 16384

variable {printers data row}

theorem name_blob (field : ResultCol × Nat) (member : Member printers data row field) :
    JSON.jsonBlob (stringToken (field.1.shownName data)).1 = .ok (field.1.shownName data) := by
  have blob := JSON.blob_escaped (field.1.shownName data)
  rwa [Format.escape_clean _ member.1] at blob

theorem name_self (field : ResultCol × Nat) (member : Member printers data row field) :
    cstring (field.1.shownName data) = field.1.shownName data := by
  refine cstring_self _ fun zero => ?_
  exact absurd (member.1 0 zero).2.2 (by decide)

def readField (printers : Printers) (data : Format.DataOperation) (row : Row) (field : ResultCol × Nat)
    (r : Reading) : Reading :=
  {r with
    key := .made ⟨field.1.shownName data,some r.opened⟩
    val := .made ⟨columnText printers field.1.column (row field.2).raw,some r.opened⟩
    opened := r.opened + 1
    form := r.form.setItem (shownItem printers data row field)
    calls := r.calls ++ [⟨r.opened,.made ⟨field.1.shownName data,some r.opened⟩,
      .made ⟨columnText printers field.1.column (row field.2).raw,some r.opened⟩⟩]}

theorem shown_present (plain : PlainPrinters printers) (field : ResultCol × Nat)
    (fields : List (ResultCol × Nat)) (r : Reading) (member : Member printers data row field)
    (present : (row field.2).isNull = false) :
    runActions (shownMembers data row printers (field::fields)).actions r =
      runActions (shownMembers data row printers fields).actions (readField printers data row field r) := by
  have value : shownValue printers field.1.column (row field.2) =
      .scalar ⟨shownToken printers field.1.column (row field.2),
        JSON.shownToken_scalar printers field.1.column (row field.2) present⟩ := dif_pos present
  have blob := JSON.shownToken_blob plain field.1.column (row field.2) member.2 present
  rw [shownMembers,value,JSON.member_run _ _ _ r _ _ _ (name_blob field member) blob rfl rfl ?_,
    name_self field member]
  · rfl
  · intro action inside token named
    cases List.mem_singleton.mp inside
    cases named
    exact ⟨_,blob⟩

theorem shown_null (field : ResultCol × Nat) (fields : List (ResultCol × Nat)) (r : Reading)
    (member : Member printers data row field) (null : (row field.2).isNull = true) :
    ∃ s, runActions (shownMembers data row printers (field::fields)).actions r =
      (.error .nullPointer,s) := by
  have absent : ¬(row field.2).isNull = false := fun other => by cases null.symm.trans other
  have value : shownValue printers field.1.column (row field.2) = .null := dif_neg absent
  suffices stops : (runActions (shownMembers data row printers (field::fields)).actions r).1 =
      .error .nullPointer from ⟨_,Prod.ext stops rfl⟩
  rw [shownMembers,value,Doc.actions,JSON.runActions_cons,JSON.Action.run,Prog.bind_assoc,
    Prog.bind_ok _ (JSON.blob_ok _ _ (name_blob field member) r),Prog.bind_ok _ (Prog.modify_run _ _)]
  rfl

/-- Columns that are not null are set, one after the other. -/
theorem shown_run (plain : PlainPrinters printers) (fields : List (ResultCol × Nat)) (r : Reading)
    (members : ∀ field ∈ fields, Member printers data row field)
    (present : ∀ field ∈ fields, (row field.2).isNull = false) :
    ∃ s, runActions (shownMembers data row printers fields).actions r = (.ok (),s) ∧
      s.form = (fields.map (shownItem printers data row)).foldl FormTable.setItem r.form := by
  induction fields generalizing r with
  | nil => exact ⟨r,rfl,rfl⟩
  | cons field fields ih =>
    obtain ⟨s,ran,form⟩ := ih (readField printers data row field r)
      (fun one inside => members one (List.mem_cons_of_mem _ inside))
      (fun one inside => present one (List.mem_cons_of_mem _ inside))
    refine ⟨s,?_,form⟩
    rw [shown_present plain field fields r (members field List.mem_cons_self)
      (present field List.mem_cons_self)]
    exact ran

/-- The first column that is null is set to a null pointer. -/
theorem shown_crashes (plain : PlainPrinters printers) (fields : List (ResultCol × Nat)) (r : Reading)
    (members : ∀ field ∈ fields, Member printers data row field)
    (null : ∃ field ∈ fields, (row field.2).isNull = true) :
    ∃ s, runActions (shownMembers data row printers fields).actions r = (.error .nullPointer,s) := by
  induction fields generalizing r with
  | nil =>
    obtain ⟨_,inside,_⟩ := null
    cases inside
  | cons field fields ih =>
    have member := members field List.mem_cons_self
    cases here : (row field.2).isNull with
    | true => exact shown_null field fields r member here
    | false =>
      rw [shown_present plain field fields r member here]
      refine ih _ (fun one inside => members one (List.mem_cons_of_mem _ inside)) ?_
      obtain ⟨one,inside,absent⟩ := null
      rcases List.mem_cons.mp inside with rfl | inside
      · cases absent.symm.trans here
      · exact ⟨one,inside,absent⟩

theorem rows_run (plain : PlainPrinters printers) (rows : List Row) (r : Reading)
    (members : ∀ row ∈ rows, ∀ field ∈ data.fields, Member printers data row field)
    (present : ∀ row ∈ rows, ∀ field ∈ data.fields, (row field.2).isNull = false) :
    ∃ s, runActions (shownElements data printers rows).actions r = (.ok (),s) ∧
      s.form = (rows.flatMap fun row => data.fields.map (shownItem printers data row)).foldl
        FormTable.setItem r.form := by
  induction rows generalizing r with
  | nil => exact ⟨r,rfl,rfl⟩
  | cons row rows ih =>
    obtain ⟨s,ran,form⟩ := shown_run plain data.fields r (members row List.mem_cons_self)
      (present row List.mem_cons_self)
    obtain ⟨t,ran',form'⟩ := ih s (fun one inside => members one (List.mem_cons_of_mem _ inside))
      (fun one inside => present one (List.mem_cons_of_mem _ inside))
    refine ⟨t,?_,?_⟩
    · rw [shownElements,Doc.actions,Doc.actions,JSON.runActions_append,Prog.bind_ok _ ran]
      exact ran'
    · rw [form',form,List.flatMap_cons,List.foldl_append]

theorem rows_crash (plain : PlainPrinters printers) (rows : List Row) (r : Reading)
    (members : ∀ row ∈ rows, ∀ field ∈ data.fields, Member printers data row field)
    (null : ∃ row ∈ rows, ∃ field ∈ data.fields, (row field.2).isNull = true) :
    ∃ s, runActions (shownElements data printers rows).actions r = (.error .nullPointer,s) := by
  induction rows generalizing r with
  | nil =>
    obtain ⟨_,inside,_⟩ := null
    cases inside
  | cons row rows ih =>
    have here := members row List.mem_cons_self
    by_cases absent : ∃ field ∈ data.fields, (row field.2).isNull = true
    · obtain ⟨s,ran⟩ := shown_crashes plain data.fields r here absent
      refine ⟨s,?_⟩
      rw [shownElements,Doc.actions,Doc.actions,JSON.runActions_append,Prog.bind_error _ ran]
    · have present : ∀ field ∈ data.fields, (row field.2).isNull = false := fun field inside =>
        Bool.not_eq_true _ ▸ fun null => absent ⟨field,inside,null⟩
      obtain ⟨s,ran,_⟩ := shown_run plain data.fields r here present
      rw [shownElements,Doc.actions,Doc.actions,JSON.runActions_append,Prog.bind_ok _ ran]
      refine ih s (fun one inside => members one (List.mem_cons_of_mem _ inside)) ?_
      obtain ⟨one,inside,null⟩ := null
      rcases List.mem_cons.mp inside with rfl | inside
      · exact absurd null absent
      · exact ⟨one,inside,null⟩

theorem fits_iff (token : Token) : token.fits = true ↔ token.val.length < 16384 := by
  unfold Token.fits
  rw [decide_eq_true_iff]
  omega

theorem members_fit (fields : List (ResultCol × Nat)) :
    (shownMembers data row printers fields).tokens.all Token.fits = true ↔
      ∀ field ∈ fields, ShortField printers data row field := by
  induction fields with
  | nil => exact iff_of_true rfl fun _ inside => absurd inside List.not_mem_nil
  | cons field fields ih =>
    rw [shownMembers,Doc.tokens,JSON.shownValue_tokens,List.forall_mem_cons,← ih]
    have name : (stringToken (field.1.shownName data)).1.fits = true ↔
        (field.1.shownName data).length + 2 < 16384 := by
      rw [fits_iff]
      unfold stringToken JSON.quoted
      rw [List.length_map,List.length_cons,List.length_append,List.length_singleton]
    have value : (shownToken printers field.1.column (row field.2)).fits = true ↔
        (valueText printers field.1.column (row field.2)).length < 16384 := by
      rw [fits_iff,JSON.shownToken_val,List.length_map]
    simp only [List.all_cons,List.singleton_append,Bool.and_eq_true,name,value,ShortField,and_assoc]
    exact ⟨fun all => ⟨all.2.1,all.2.2.2.1,all.2.2.2.2⟩,
      fun all => ⟨rfl,all.1,rfl,all.2.1,all.2.2⟩⟩

theorem object_fits : (Doc.object (shownMembers data row printers data.fields)).tokens.all
    Token.fits = true ↔ ∀ field ∈ data.fields, ShortField printers data row field := by
  rw [Doc.tokens,List.all_cons,List.all_append,← members_fit]
  cases data.fields with
  | nil => exact iff_of_true rfl rfl
  | cons field fields =>
    rw [shownMembers,Doc.tokens]
    simp only [List.tail_cons,List.all_cons,List.all_nil,Bool.and_eq_true,and_true]
    exact ⟨fun all => ⟨rfl,all.2.1⟩,fun all => ⟨rfl,all.2,rfl⟩⟩

theorem elements_fit (rows : List Row) :
    (shownElements data printers rows).tokens.all Token.fits = true ↔
      ∀ row ∈ rows, ∀ field ∈ data.fields, ShortField printers data row field := by
  induction rows with
  | nil => exact iff_of_true rfl fun _ inside => absurd inside List.not_mem_nil
  | cons row rows ih =>
    rw [shownElements,Doc.tokens,List.all_cons,List.all_append,List.forall_mem_cons,← ih,← object_fits]
    simp only [Bool.and_eq_true]
    exact ⟨fun all => all.2,fun all => ⟨rfl,all⟩⟩

end

section
variable (printers : Printers) (data : Format.DataOperation)

/-- What is in a form after a page was read: every column of every row, in their order. -/
def shownItems (c : Format.Cursor) : List (Text × Text) :=
  (data.resultRows c).flatMap fun row => data.fields.map (shownItem printers data row)

/-- The columns that a page shows are neither null nor longer than a token can be. -/
def Postable (c : Format.Cursor) : Prop :=
  ∀ row ∈ data.resultRows c, ∀ field ∈ data.fields,
    (row field.2).isNull = false ∧ ShortField printers data row field

variable {printers data} {c : Format.Cursor}

theorem shownPage_starts :
    ((shownPage data printers c).tokens.head?.getD .eof).kind = .openBrace ∨
      ((shownPage data printers c).tokens.head?.getD .eof).kind = .openBracket := by
  unfold shownPage
  split_ifs
  · exact .inr rfl
  · exact .inl rfl

theorem shownPage_fits : (shownPage data printers c).tokens.all Token.fits = true ↔
    ∀ row ∈ data.resultRows c, ∀ field ∈ data.fields, ShortField printers data row field := by
  unfold shownPage Format.DataOperation.resultRows
  split_ifs
  · rw [Doc.tokens,List.all_cons,List.all_append,← elements_fit]
    cases c.rows with
    | nil => exact iff_of_true rfl rfl
    | cons row rows =>
      rw [shownElements,Doc.tokens]
      simp only [List.tail_cons,List.all_cons,List.all_nil,Bool.and_eq_true,and_true]
      exact ⟨fun all => ⟨rfl,all.2.1⟩,fun all => ⟨rfl,all.2,rfl⟩⟩
  · rw [List.forall_mem_singleton]
    exact object_fits

/-- The actions of a page set all columns, or stop at the first that is null. -/
theorem shownPage_run (plain : PlainPrinters printers)
    (members : ∀ row ∈ data.resultRows c, ∀ field ∈ data.fields, Member printers data row field) :
    ((∀ row ∈ data.resultRows c, ∀ field ∈ data.fields, (row field.2).isNull = false) ∧
        ∃ s, runActions (shownPage data printers c).actions .init = (.ok (),s) ∧
          s.form = setItems (shownItems printers data c)) ∨
      (∃ row ∈ data.resultRows c, ∃ field ∈ data.fields, (row field.2).isNull = true) ∧
        ∃ s, runActions (shownPage data printers c).actions .init = (.error .nullPointer,s) := by
  have same : (shownPage data printers c).actions =
      (shownElements data printers (data.resultRows c)).actions := by
    unfold shownPage Format.DataOperation.resultRows
    split_ifs
    · rfl
    · exact (List.append_nil _).symm
  rw [same]
  by_cases null : ∃ row ∈ data.resultRows c, ∃ field ∈ data.fields, (row field.2).isNull = true
  · exact .inr ⟨null,rows_crash plain _ .init members null⟩
  · have present : ∀ row ∈ data.resultRows c, ∀ field ∈ data.fields,
        (row field.2).isNull = false := fun row here field inside =>
      Bool.not_eq_true _ ▸ fun absent => null ⟨row,here,field,inside,absent⟩
    exact .inl ⟨present,rows_run plain _ .init members present⟩

theorem page_begins : JSON.scannerInit (Format.pageText printers data c) =
      some ((Format.pageText printers data c).map UInt8.toNat) := by
  unfold Format.pageText
  split_ifs
  · rfl
  · rfl

theorem readJsonrequest_page (plain : PlainPrinters printers) (columns : data.cols ≠ [])
    (rows : data.scanop = true → c.rows ≠ [])
    (members : ∀ row ∈ data.resultRows c, ∀ field ∈ data.fields, Member printers data row field)
    (databuffer : Option Text) (length : Nat)
    (content : (databuffer.getD []).take length = Format.pageText printers data c) :
    Postable printers data c ∧ readJsonrequest Token.fits databuffer length =
        .ok (0,setItems (shownItems printers data c)) ∨
      ¬Postable printers data c ∧ ∃ crash, readJsonrequest Token.fits databuffer length =
        .error crash := by
  have begun : JSON.scannerInit ((databuffer.getD []).take length) = _ :=
    (congrArg JSON.scannerInit content).trans page_begins
  have tokens := (JSON.page_spaced plain columns c rows members).tokens
  obtain ⟨t,parsed⟩ := JSON.parse_document (shownPage data printers c) shownPage_starts
  have asked : JSON.scanned (shownPage data printers c).tokens = (shownPage data printers c).tokens := by
    unfold JSON.scanned
    rw [parsed]
    exact List.take_of_length_le (Nat.le_succ _)
  by_cases short : ∀ row ∈ data.resultRows c, ∀ field ∈ data.fields, ShortField printers data row field
  · have fits := shownPage_fits.mpr short
    rcases shownPage_run plain members with ⟨present,r,ran,form⟩ | ⟨null,r,ran⟩
    · refine .inl ⟨fun row here field inside =>
        ⟨present row here field inside,short row here field inside⟩,?_⟩
      rw [readJsonrequest_runs _ _ _ _ begun (by rw [tokens,asked]; exact fits) r
        (by rw [tokens,parsed]; exact ran),tokens,parsed,form]
      rfl
    · refine .inr ⟨fun postable => ?_,.nullPointer,?_⟩
      · obtain ⟨row,here,field,inside,absent⟩ := null
        cases absent.symm.trans (postable row here field inside).1
      · exact readJsonrequest_crashes _ _ _ _ begun (by rw [tokens,asked]; exact fits) r _
          (by rw [tokens,parsed]; exact ran)
  · refine .inr ⟨fun postable => short fun row here field inside =>
      (postable row here field inside).2,.exit,?_⟩
    refine readJsonrequest_long _ _ _ _ begun ?_
    rw [tokens,asked,← Bool.not_eq_true,shownPage_fits]
    exact short

structure SentBack (printers : Printers) (data : Format.DataOperation) (page : Page)
    (r : RequestRec) : Prop where
  plain : PlainPrinters printers
  columns : data.cols ≠ []
  fresh : page.bytes = [] ∧ page.outside = false
  rows : data.scanop = true → page.cursor.rows ≠ []
  exact : JsonExact printers data page.cursor
  sent : ∃ linked fuel page', Format.buildResults printers
    {Sentinels.initial with nullCellNext := linked} data jsonCompiled (fuel + 3) page =
      (.ok .ok,page') ∧ r.body.content = page'.bytes
  post : r.methodNumber = .post
  type : r.contentType.map (·.map toLower) = some (text "application/jsonrequest")
  accepted : r.body.setup = 0
  filled : r.body.should = true
  small : ¬Overflows r.body.remaining r.body.blocks 0

theorem SentBack.content {page : Page} {r : RequestRec} (back : SentBack printers data page r) :
    r.body.content = Format.pageText printers data page.cursor := by
  obtain ⟨linked,fuel,page',built,sent⟩ := back.sent
  obtain ⟨q,ran,bytes,_⟩ := Format.page_prints printers
    {Sentinels.initial with nullCellNext := linked} data rfl page back.rows fuel
  rw [built] at ran
  obtain ⟨_,rfl⟩ := Prod.mk.inj ran
  rw [sent,bytes,back.fresh.1,List.nil_append]

/-- What `get_form_data` makes of a page. -/
theorem SentBack.read {page : Page} {r : RequestRec} (back : SentBack printers data page r) :
    Postable printers data page.cursor ∧ (∃ passed,
        getFormData r = .ok ⟨0,setItems (shownItems printers data page.cursor),passed⟩) ∨
      ¬Postable printers data page.cursor ∧ ∃ crash, getFormData r = .error crash := by
  obtain ⟨members,_⟩ := (Format.jsonExact_iff page.cursor back.rows).mp back.exact
  have reader : bodyReader r.contentType = .ok (some .jsonrequest) := by
    obtain ⟨value,given,lower⟩ := Option.map_eq_some_iff.mp back.type
    have other : value ≠ text "application/x-www-form-urlencoded" := by
      rintro rfl
      revert lower
      decide
    rw [given,bodyReader,if_neg other,if_pos lower]
  have got := ((utilRead_body r.body back.accepted back.filled).resolve_right
    fun crowded => back.small crowded.1).2
  have content : ((some r.body.buffer).getD []).take r.body.content.length =
      Format.pageText printers data page.cursor := by
    rw [Option.getD_some,buffer_content,back.content]
  rw [getFormData_read r back.post .jsonrequest reader _ _ got]
  change _ ∧ (∃ passed, (readJsonrequest Token.fits _ _).map _ = _) ∨
    _ ∧ ∃ crash, (readJsonrequest Token.fits _ _).map _ = _
  rcases readJsonrequest_page back.plain back.columns back.rows members _ _ content with
    ⟨postable,taken⟩ | ⟨unfit,crash,ended⟩
  · rw [taken]
    exact .inl ⟨postable,_,rfl⟩
  · rw [ended]
    exact .inr ⟨unfit,crash,rfl⟩

/-- A page that is sent back is read as the form of its columns, exactly if none of them is null or
too long for a token; otherwise the process ends. -/
theorem posted_back_iff (page : Page) (r : RequestRec) (back : SentBack printers data page r) :
    ((∃ passed, getFormData r = .ok ⟨0,setItems (shownItems printers data page.cursor),passed⟩) ↔
      Postable printers data page.cursor) ∧
    ((∃ crash, getFormData r = .error crash) ↔ ¬Postable printers data page.cursor) := by
  rcases back.read with ⟨postable,passed,taken⟩ | ⟨unfit,crash,ended⟩
  · refine ⟨iff_of_true ⟨passed,taken⟩ postable,iff_of_false ?_ (not_not_intro postable)⟩
    rintro ⟨crash,ended⟩
    cases taken.symm.trans ended
  · refine ⟨iff_of_false ?_ unfit,iff_of_true ⟨crash,ended⟩ unfit⟩
    rintro ⟨passed,taken⟩
    cases ended.symm.trans taken

end

/-- An `int` column, and a page of one row with the number 7. -/
def shownId : Format.DataOperation := ⟨false,[⟨⟨text "id",.int,0,0⟩,text "id"⟩],false,by decide⟩

def sevenPage : Page := ⟨[],[],false,⟨fun _ => ⟨false,[7,0,0,0]⟩,[],[]⟩⟩

def postingPage : RequestRec :=
  {emptyPost with
    contentType := some (text "application/JSONRequest")
    body := ⟨0,true,12,[text " \x7b \"id\":7 \x7d\n"]⟩}

theorem seven_sent : SentBack Format.printNothing shownId sevenPage postingPage where
  plain := Format.printNothing_plain
  columns := by decide
  fresh := ⟨rfl,rfl⟩
  rows := fun scan => by cases scan
  exact := by
    refine ⟨fun col column => ?_,fun row _ field column _ => ?_⟩
    · obtain rfl := List.mem_singleton.mp column
      decide
    · obtain rfl := List.mem_singleton.mp column
      trivial
  sent := by
    obtain ⟨q,ran,bytes,_⟩ := Format.page_prints Format.printNothing .initial shownId rfl sevenPage
      (fun scan => by cases scan) 0
    exact ⟨[],0,q,ran,by rw [bytes]; decide⟩
  post := rfl
  type := by decide
  accepted := rfl
  filled := rfl
  small := by
    rcases utilRead_body postingPage.body rfl rfl with ⟨fits,_⟩ | ⟨_,read⟩
    · exact fits
    · cases read

theorem seven_postable : Postable Format.printNothing shownId sevenPage.cursor := by
  intro row here field column
  obtain rfl := List.mem_singleton.mp here
  obtain rfl := List.mem_singleton.mp column
  refine ⟨rfl,?_⟩
  unfold ShortField
  decide

/-- The number is an item of the form. -/
theorem posted_back_seven : ∃ passed, getFormData postingPage =
    .ok ⟨0,setItems [(text "id",text "7")],passed⟩ := by
  have item : shownItems Format.printNothing shownId sevenPage.cursor = [(text "id",text "7")] := by
    decide
  rw [← item]
  exact (posted_back_iff sevenPage postingPage seven_sent).1.mpr seven_postable

end ModNdb.Query
