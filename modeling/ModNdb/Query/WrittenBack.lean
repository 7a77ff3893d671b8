import ModNdb.MySQL.Restored
import ModNdb.Query.Assigned
import ModNdb.Query.PostBack

/-! A row that is shown and sent back: what Query assigns to the columns that it was read from. -/
namespace ModNdb.Query
open Config (Dir)
open Format (columnText)
open MySQL (DictColumn Mvalue Printers Stored Told content encoded extent)

section
variable (setting : Setting)

def assignment (mval : Mvalue) (col : DictColumn) : Ndb.Call :=
  match mval.useValue with
  | .useAutoinc => .setAutoInc col.no (if mval.len = 8 then 8 else 4) (setting.ndb.autoInc.getD 0)
  | .useNull => .setNull col.no
  | .useInterpreted =>
    if mval.interpreted = .isIncrement then .incValue col.no else .subValue col.no
  | .useBlob => .setBlob col.name (mval.binaryInfo.getD [])
  | _ => .setValue col.no (passed mval)

theorem call_fine {c : Ndb.Call} {w next : World} {refused : Bool}
    (ran : call setting c w = (.ok refused,next)) : next.calls = w.calls ++ [c] := by
  cases ran
  rfl

theorem assignment_assigns (mval : Mvalue) (col : DictColumn) :
    AssignsTo col (assignment setting mval col) := by
  unfold assignment
  cases mval.useValue with
  | useAutoinc => exact .autoInc _ _
  | useNull => exact .null
  | useInterpreted =>
    dsimp only
    split_ifs
    · exact .inc
    · exact .sub
  | useBlob => exact .blob _
  | _ => exact .value _

theorem writeColumn_cases (mval : Mvalue) (col : DictColumn) :
    writeColumn setting mval col = pure true ∨ (∃ why, writeColumn setting mval col = crash why) ∨
      writeColumn setting mval col = call setting (assignment setting mval col) := by
  unfold writeColumn
  cases good : mval.useValue.isGood with
  | false =>
    rcases mvalIsUsable_bad good with refused | crashes
    · rw [refused]
      exact .inl rfl
    · rw [crashes]
      exact .inr (.inl ⟨_,rfl⟩)
  | true =>
    rw [mvalIsUsable_good good]
    unfold assignment
    cases use : mval.useValue
    case useAutoinc =>
      cases autoInc : setting.ndb.autoInc with
      | none => exact .inl rfl
      | some value => exact .inr (.inr rfl)
    case useInterpreted =>
      cases interpreted : mval.interpreted with
      | notInterpreted => exact .inr (.inl ⟨_,rfl⟩)
      | isIncrement => exact .inr (.inr rfl)
      | isDecrement => exact .inr (.inr rfl)
    case useBlob =>
      by_cases there : setting.ndb.blobHandle col.name = true
      · refine .inr (.inr ?_)
        exact if_pos there
      · refine .inr (.inl ⟨.nullPointer,?_⟩)
        exact if_neg there
    all_goals exact .inr (.inr rfl)

theorem writeColumn_issued {mval : Mvalue} {col : DictColumn} {w next : World}
    (ran : writeColumn setting mval col w = (.ok false,next)) :
    next.calls = w.calls ++ [assignment setting mval col] := by
  rcases writeColumn_cases setting mval col with same | ⟨why,same⟩ | same
  · rw [same] at ran
    cases ran
  · rw [same] at ran
    cases ran
  · rw [same] at ran
    exact call_fine setting ran

def assignments (mvals : List Mvalue) : List Ndb.Call :=
  mvals.filterMap fun mval => mval.column.map (assignment setting mval)

theorem assignments_none {mval : Mvalue} (column : mval.column = none) (mvals : List Mvalue) :
    assignments setting (mval::mvals) = assignments setting mvals :=
  List.filterMap_cons_none (by rw [column]; rfl)

theorem assignments_some {mval : Mvalue} {col : DictColumn} (column : mval.column = some col)
    (mvals : List Mvalue) :
    assignments setting (mval::mvals) = assignment setting mval col::assignments setting mvals :=
  List.filterMap_cons_some (by rw [column]; rfl)

theorem writeColumns_issued {mvals : List Mvalue} {eqr : Int} {w next : World}
    (ran : writeColumns setting mvals eqr w = (.ok 0,next)) :
    next.calls = w.calls ++ assignments setting mvals := by
  induction mvals generalizing eqr w with
  | nil =>
    cases ran
    exact (List.append_nil _).symm
  | cons mval mvals ih =>
    unfold writeColumns at ran
    cases column : mval.column with
    | none =>
      rw [column] at ran
      rw [assignments_none setting column]
      exact ih ran
    | some col =>
      rw [column] at ran
      obtain ⟨failed,u,wrote,ran⟩ := Prog.bind_inv ran
      cases failed with
      | true =>
        rw [if_pos rfl] at ran
        cases (errorPage_done _ _ _ u).2 0 (congrArg Prod.fst ran)
      | false =>
        rw [if_neg Bool.false_ne_true] at ran
        rw [assignments_some setting column,ih ran,writeColumn_issued setting wrote,List.append_assoc]
        rfl

end

def passedBytes : Ndb.Passed → Text
  | .target block => block.bytes
  | .inside u => u

def Restores (col : DictColumn) (raw : Text) (c : Ndb.Call) : Prop :=
  if col.type = .text then c = .setBlob col.name raw
  else ∃ value, c = .setValue col.no value ∧
    (passedBytes value).take (extent col.type col.length raw) = raw.take (extent col.type col.length raw)

section
variable (setting : Setting) (col : DictColumn) (raw : Text) (mval : Mvalue)

theorem restores_value (other : col.type ≠ .text)
    (issued : assignment setting mval col = .setValue col.no (passed mval)) :
    Restores col raw (assignment setting mval col) ↔ (passedBytes (passed mval)).take
      (extent col.type col.length raw) = raw.take (extent col.type col.length raw) := by
  unfold Restores
  rw [if_neg other,issued]
  constructor
  · rintro ⟨value,same,bytes⟩
    cases same
    exact bytes
  · exact fun bytes => ⟨_,rfl,bytes⟩

/-- Of bytes in the union the union is passed. -/
theorem restores_inside (other : col.type ≠ .text) (inside : mval.useValue.isInside = true) :
    Restores col raw (assignment setting mval col) ↔ mval.u.take (extent col.type col.length raw) =
      raw.take (extent col.type col.length raw) := by
  have use : passed mval = .inside mval.u := if_neg fun char => by rw [char] at inside; cases inside
  have issued : assignment setting mval col = .setValue col.no (passed mval) := by
    unfold assignment
    cases use : mval.useValue <;> rw [use] at inside <;> first | rfl | cases inside
  rw [restores_value setting col raw mval other issued,use]
  rfl

theorem restores_target (other : col.type ≠ .text) (char : mval.useValue = .useChar) :
    Restores col raw (assignment setting mval col) ↔ mval.target.bytes.take
      (extent col.type col.length raw) = raw.take (extent col.type col.length raw) := by
  have use : passed mval = .target mval.target := if_pos char
  have issued : assignment setting mval col = .setValue col.no (passed mval) := by
    unfold assignment
    rw [char]
  rw [restores_value setting col raw mval other issued,use]
  rfl

theorem restores_blob (type : col.type = .text) : Restores col raw (assignment setting mval col) ↔
    mval.useValue = .useBlob ∧ mval.binaryInfo.getD [] = raw := by
  unfold Restores
  rw [if_pos type]
  constructor
  · intro blob
    unfold assignment at blob
    split at blob
    · cases blob
    · cases blob
    · split at blob <;> cases blob
    · next use =>
      cases blob
      exact ⟨use,rfl⟩
    · cases blob
  · rintro ⟨use,rfl⟩
    unfold assignment
    rw [use]

end

theorem number_plain (t : Text) (number : JsonText.IsNumber t) : 0 ∉ t ∧ cstring t ∉ MySQL.dynamicTexts := by
  have nulFree : 0 ∉ t := fun zero => absurd (number.printable.clean 0 zero).2.2 (by decide)
  refine ⟨nulFree,?_⟩
  rw [cstring_self t nulFree]
  unfold MySQL.dynamicTexts
  simp only [List.mem_cons,List.not_mem_nil,or_false,not_or]
  refine ⟨?_,?_,?_,?_,?_⟩
  all_goals
    rintro rfl
    revert number
    decide

section
variable (setting : Setting) (printers : Printers) (m : Mvalue) (col : DictColumn)
  (shown : MySQL.Column) (raw : Text) (same : shown.type = col.type)

/-- What is shown of a column of bytes is not quoted, so that it is a number if it can be read. -/
theorem shown_number (fits : Format.Fits printers shown raw) (same : shown.type = col.type)
    (binary : MySQL.isBinaryCol col.type = true) (other : col.type ≠ .text) :
    JsonText.IsNumber (columnText printers shown raw) := by
  refine (((Format.fits_iff printers shown raw).mp fits).1.resolve_left ?_).2
  rw [same]
  cases type : col.type <;> rw [type] at binary other <;>
    first | exact Bool.false_ne_true | exact absurd rfl other | cases binary

/-- Strings are passed as a block. -/
theorem char_restores (char : MySQL.isCharCol col.type = true) (other : col.type ≠ .text)
    (n : Nat) (whole : extent col.type col.length raw = n) : Restores col raw (assignment setting
      (encoded setting.out m col (columnText printers shown raw)) col) ↔
      (encoded setting.out m col (columnText printers shown raw)).target.bytes.take n =
        raw.take n := by
  have use : (encoded setting.out m col (columnText printers shown raw)).useValue = .useChar := by
    rw [MySQL.char_encoded setting.out m col _ char,MySQL.charValue_use]
  rw [restores_target setting col raw _ other use,whole]

include same

theorem integer_restores (typed : MySQL.intBytes col.type = some raw.length) (other : col.type ≠ .text)
    (whole : extent col.type col.length raw = raw.length) : Restores col raw (assignment setting
      (encoded setting.out m col (columnText printers shown raw)) col) := by
  obtain ⟨inside,kept⟩ := MySQL.integer_restored setting.out m col raw printers shown same typed
  rw [restores_inside setting col raw _ other inside,whole,List.take_length]
  exact kept

theorem year_restores (type : col.type = .year) (stored : raw.length = 1) :
    Restores col raw (assignment setting
      (encoded setting.out m col (columnText printers shown raw)) col) := by
  obtain ⟨inside,kept⟩ := MySQL.year_restored setting.out m col raw printers shown same type stored
  have whole : extent col.type col.length raw = raw.length := by rw [type]; rfl
  rw [restores_inside setting col raw _ (by rw [type]; nofun) inside,whole,List.take_length,stored]
  exact kept

theorem moment_restores (is : MySQL.IsMoment col.type raw) (other : col.type ≠ .text)
    (whole : extent col.type col.length raw = raw.length) : Restores col raw (assignment setting
      (encoded setting.out m col (columnText printers shown raw)) col) ↔
      ¬(col.type = .time ∧ MySQL.signedOf 3 raw = -99) := by
  obtain ⟨inside,kept⟩ := MySQL.moment_restored setting.out m col raw printers shown same is
  rw [restores_inside setting col raw _ other inside,whole,List.take_length]
  exact kept

theorem string_restores (w : Nat) (sized : MySQL.lengthBytes col.type = some w)
    (counted : MySQL.Counted w col.length raw) (char : MySQL.isCharCol col.type = true)
    (other : col.type ≠ .text)
    (whole : extent col.type col.length raw = w + MySQL.unsignedOf w raw) :
    Restores col raw (assignment setting
      (encoded setting.out m col (columnText printers shown raw)) col) ↔ 0 ∉ content w raw :=
  (char_restores setting printers m col shown raw char other _ whole).trans
    (MySQL.string_restored setting.out m col raw printers shown same w sized counted)

theorem bytes_restores (w : Nat) (types : col.type = .varbinary ∧ w = 1 ∨ col.type = .longvarbinary ∧ w = 2)
    (counted : MySQL.Counted w col.length raw) (other : col.type ≠ .text)
    (number : JsonText.IsNumber (columnText printers shown raw))
    (whole : extent col.type col.length raw = w + MySQL.unsignedOf w raw) :
    Restores col raw (assignment setting
      (encoded setting.out m col (columnText printers shown raw)) col) ↔
        (content w raw).getLast? ≠ some 0 := by
  obtain ⟨nulFree,plain⟩ := number_plain _ number
  obtain ⟨use,kept⟩ := MySQL.bytes_restored setting.out m col raw printers shown same w types counted
    plain nulFree
  rw [restores_target setting col raw _ other use,whole]
  exact kept

theorem binary_restores (type : col.type = .binary) (stored : raw.length = col.length)
    (number : JsonText.IsNumber (columnText printers shown raw)) : Restores col raw (assignment setting
      (encoded setting.out m col (columnText printers shown raw)) col) := by
  have plain := (number_plain _ number).2
  obtain ⟨use,kept⟩ := MySQL.binary_restored setting.out m col raw printers shown same type stored plain
  have whole : extent col.type col.length raw = col.length := by rw [type]; rfl
  rw [restores_target setting col raw _ (by rw [type]; nofun) use,whole,List.take_of_length_le stored.le]
  exact kept

/-- What is assigned to a column of the text that was shown of it is what the column holds, exactly
if the text tells it. -/
theorem restores_iff (stored : Stored col raw) (fits : Format.Fits printers shown raw) :
    Restores col raw (assignment setting
      (encoded setting.out m col (columnText printers shown raw)) col) ↔ Told col.type raw := by
  unfold Stored at stored
  cases type : col.type with
  | char =>
    rw [type] at stored
    rw [char_restores setting printers m col shown raw (by rw [type]; rfl) (by rw [type]; nofun)
      col.length (by rw [type]; rfl),List.take_of_length_le stored.1.le]
    exact MySQL.char_restored setting.out m col raw printers shown same type stored.1 stored.2
  | varchar =>
    rw [type] at stored
    exact string_restores setting printers m col shown raw same 1 (by rw [type]; rfl) stored
      (by rw [type]; rfl) (by rw [type]; nofun) (by rw [type]; rfl)
  | longvarchar =>
    rw [type] at stored
    exact string_restores setting printers m col shown raw same 2 (by rw [type]; rfl) stored
      (by rw [type]; rfl) (by rw [type]; nofun) (by rw [type]; rfl)
  | binary =>
    rw [type] at stored
    have number := shown_number printers col shown raw fits same (by rw [type]; rfl) (by rw [type]; nofun)
    exact iff_of_true (binary_restores setting printers m col shown raw same type stored.1 number) trivial
  | varbinary =>
    rw [type] at stored
    have number := shown_number printers col shown raw fits same (by rw [type]; rfl) (by rw [type]; nofun)
    exact bytes_restores setting printers m col shown raw same 1 (.inl ⟨type,rfl⟩) stored
      (by rw [type]; nofun) number (by rw [type]; rfl)
  | longvarbinary =>
    rw [type] at stored
    have number := shown_number printers col shown raw fits same (by rw [type]; rfl) (by rw [type]; nofun)
    exact bytes_restores setting printers m col shown raw same 2 (.inr ⟨type,rfl⟩) stored
      (by rw [type]; nofun) number (by rw [type]; rfl)
  | text =>
    rw [restores_blob setting col raw _ type]
    exact MySQL.text_restored setting.out m col raw printers shown same type
  | time =>
    rw [type] at stored
    rw [moment_restores setting printers m col shown raw same (by rw [type]; exact stored)
      (by rw [type]; nofun) (by rw [type]; rfl)]
    exact ⟨fun other none => other ⟨type,none⟩,fun told both => told both.2⟩
  | date | datetime =>
    rw [type] at stored
    rw [moment_restores setting printers m col shown raw same (by rw [type]; exact stored)
      (by rw [type]; nofun) (by rw [type]; rfl)]
    exact iff_of_true (fun both => by cases type.symm.trans both.1) trivial
  | year =>
    rw [type] at stored
    exact iff_of_true (year_restores setting printers m col shown raw same type stored) trivial
  | _ =>
    rw [type] at stored
    exact iff_of_true (integer_restores setting printers m col shown raw same (by rw [type]; exact stored)
      (by rw [type]; nofun) (by rw [type]; rfl)) trivial

end

section
variable (setting : Setting) {dir : Dir} {q : Items}

theorem updateValue_encoded {key val : Text} {col : DictColumn} (given : q.form.getItem key = some val)
    (there : q.tab.column key = some col) (mval : Mvalue) :
    updateValue setting q key mval = encoded setting.out mval col val := by
  unfold updateValue
  rw [given,there]
  rfl

theorem assignments_each (value : Text → Mvalue) (P : Text → Ndb.Call → Prop) (kept : Text → Prop)
    [DecidablePred kept] (keys : List Text)
    (here : ∀ key, kept key → ∃ col, (value key).column = some col ∧
      P key (assignment setting (value key) col))
    (absent : ∀ key, ¬kept key → (value key).column = none) :
    List.Forall₂ P (keys.filter kept) (assignments setting (keys.map value)) := by
  unfold assignments
  induction keys with
  | nil => exact .nil
  | cons key keys ih =>
    rw [List.map_cons]
    by_cases is : kept key
    · obtain ⟨col,column,holds⟩ := here key is
      rw [List.filter_cons_of_pos (by exact decide_eq_true is),
        List.filterMap_cons_some (by rw [column]; rfl)]
      exact .cons holds ih
    · rw [List.filter_cons_of_neg (by rwa [decide_eq_true_iff]),
        List.filterMap_cons_none (by rw [absent key is]; rfl)]
      exact ih

end

theorem lastNamed_distinct (items : List (Text × Text)) (distinct : (items.map Prod.fst).Nodup)
    (item : Text × Text) (inside : item ∈ items) : lastNamed items item.1 = some item.2 := by
  unfold lastNamed
  rcases found : items.reverse.find? fun one => one.1 == item.1 with _ | one
  · exact absurd (beq_self_eq_true item.1)
      (List.find?_eq_none.mp found item (List.mem_reverse.mpr inside))
  · have named : one.1 = item.1 := by
      have same := List.find?_some found
      exact eq_of_beq same
    have there : one ∈ items := List.mem_reverse.mp (List.mem_of_find?_eq_some found)
    rw [found,List.inj_on_of_nodup_map distinct there inside named]
    rfl

section
variable (printers : Printers) {data : Format.DataOperation} (c : Format.Cursor)

def shownNames (data : Format.DataOperation) : List Text := data.cols.map (·.shownName data)

theorem shownNames_fields : data.fields.map (·.1.shownName data) = shownNames data := by
  have fields : data.fields.map Prod.fst = data.cols := List.zipIdx_map_fst 0 data.cols
  unfold shownNames
  rw [← fields,List.map_map]
  rfl

theorem shownItems_names (single : data.scanop = false) :
    shownItems printers data c = data.fields.map (shownItem printers data c.current) ∧
      (shownItems printers data c).map Prod.fst = shownNames data := by
  have items : shownItems printers data c = data.fields.map (shownItem printers data c.current) := by
    unfold shownItems Format.DataOperation.resultRows
    rw [single,if_neg Bool.false_ne_true,List.flatMap_singleton]
  refine ⟨items,?_⟩
  rw [items,List.map_map,← shownNames_fields]
  rfl

/-- A column that is shown has its text in the form, where no two are shown under one name. -/
theorem shown_given (single : data.scanop = false) (distinct : (shownNames data).Nodup)
    (field : Format.ResultCol × Nat) (inside : field ∈ data.fields) :
    (setItems (shownItems printers data c)).getItem (field.1.shownName data) =
      some (columnText printers field.1.column (c.current field.2).raw) := by
  obtain ⟨items,names⟩ := shownItems_names printers c single
  rw [getItem_setItems]
  refine lastNamed_distinct _ (by rwa [names]) (shownItem printers data c.current field) ?_
  rw [items]
  exact List.mem_map_of_mem inside

theorem shown_missing (single : data.scanop = false) (key : Text) (hidden : key ∉ shownNames data) :
    (setItems (shownItems printers data c)).getItem key = none := by
  obtain ⟨_,names⟩ := shownItems_names printers c single
  rw [getItem_setItems]
  refine (lastNamed_eq_none_iff _ key).mpr fun item inside same => hidden ?_
  rw [← names]
  exact List.mem_map.mpr ⟨item,inside,same⟩

/-- A write that a query defines makes the calls of its values, and no assignment before them. -/
theorem write_calls {srv : ServerConfig} {setting : Setting} {r : RequestRec} {dir : Dir}
    {source : QuerySource} {w next : World} (post : source.reqMethod = .post)
    (ran : queryBody srv setting r dir source w = (.ok (),next)) :
    ∃ form tab q quiet, Posted dir setting source form tab q ∧
      next.calls = w.calls ++ quiet ++ assignments setting q.setVals ∧
      ∀ c ∈ quiet, Assigns c = false := by
  rw [queryBody_act] at ran
  obtain ⟨q,u,before,acted⟩ := Prog.bind_inv ran
  rcases beforeAction_posted before with ⟨other,_⟩ | ⟨form,tab,posted⟩
  · exact absurd post other
  obtain ⟨quiet,prepared,none⟩ : Issues (fun c => Assigns c = false) w u := by
    have issues := (beforeAction_prepares setting dir srv r source w).1
    rwa [before] at issues
  refine ⟨form,tab,q,quiet,posted,?_,none⟩
  rw [← prepared]
  unfold act opAction at acted
  rw [posted.action] at acted
  obtain ⟨rc,v,ran,last⟩ := Prog.bind_inv acted
  by_cases zero : rc = 0
  · subst zero
    cases last
    exact writeColumns_issued setting ran
  · rw [if_pos zero] at last
    cases last

variable {printers}

/-- A page whose form is read can be read as a whole. -/
theorem SentBack.taken {page : Format.Page} {r : RequestRec} (back : SentBack printers data page r)
    {form : FormTable} {passed : Option (Option Text × Nat)}
    (read : getFormData r = .ok ⟨0,form,passed⟩) :
    Postable printers data page.cursor ∧ form = setItems (shownItems printers data page.cursor) := by
  obtain ⟨postable,_,taken⟩ := back.read.resolve_right fun ended => by
    obtain ⟨_,_,ended⟩ := ended
    cases read.symm.trans ended
  exact ⟨postable,congrArg FormRead.form (Except.ok.inj (read.symm.trans taken))⟩

/-- A row that is shown and sent back: each column that AllowUpdate lists and the page shows is
assigned to once, in the order of AllowUpdate, and no other. It is given what the row holds exactly
if the text that was shown tells it. -/
theorem written_back_iff (page : Format.Page) (r : RequestRec) (back : SentBack printers data page r)
    (single : data.scanop = false) (distinct : (shownNames data).Nodup) (http : r.main = false)
    (srv : ServerConfig) (setting : Setting) (dir : Dir) (w next : World)
    (ran : queryBody srv setting r dir (sourceOf r) w = (.ok (),next)) :
    ∃ tab quiet assigned, setting.ndb.table = some tab ∧ next.calls = w.calls ++ quiet ++ assigned ∧
      (∀ c ∈ quiet, Assigns c = false) ∧
      List.Forall₂ (fun key c => ∃ field ∈ data.fields, ∃ col, field.1.shownName data = key ∧
          tab.column key = some col ∧ AssignsTo col c ∧
          (field.1.column.type = col.type → Stored col (page.cursor.current field.2).raw →
            (Restores col (page.cursor.current field.2).raw c ↔
              Told col.type (page.cursor.current field.2).raw)))
        (dir.updatable.filter fun key => key ∈ shownNames data ∧ (tab.column key).isSome) assigned := by
  have source : sourceOf r = httpSource r := by
    unfold sourceOf
    rw [http]
    rfl
  have post : (sourceOf r).reqMethod = .post := by
    rw [source]
    exact back.post
  obtain ⟨form,tab,q,quiet,posted,wrote,none⟩ := write_calls post ran
  obtain ⟨base,vals,rfl,rfl⟩ := posted.vals
  obtain ⟨passed,read⟩ := posted.read
  rw [source] at read
  obtain ⟨postable,form⟩ := back.taken read
  refine ⟨base.tab,quiet,_,posted.found,wrote,none,?_⟩
  rw [vals,newVals_eq]
  refine assignments_each setting _ _ _ dir.updatable ?_ ?_
  · rintro key ⟨shown,there⟩
    rw [← shownNames_fields] at shown
    obtain ⟨field,inside,rfl⟩ := List.mem_map.mp shown
    obtain ⟨col,column⟩ := Option.isSome_iff_exists.mp there
    have given : base.form.getItem (field.1.shownName data) =
        some (columnText printers field.1.column (page.cursor.current field.2).raw) := by
      rw [form]
      exact shown_given printers page.cursor single distinct field inside
    have here : page.cursor.current ∈ data.resultRows page.cursor := by
      unfold Format.DataOperation.resultRows
      rw [single]
      exact List.mem_singleton_self _
    have value := updateValue_encoded setting given column .zero
    refine ⟨col,?_,field,inside,col,rfl,column,assignment_assigns setting _ col,fun same stored => ?_⟩
    · rw [← column]
      exact (updateValue_column setting base _ .zero).trans (if_pos ⟨given ▸ rfl,there⟩)
    · rw [value]
      exact restores_iff setting printers .zero col field.1.column _ same stored
        (back.exact.2 _ here field inside (postable _ here field inside).1)
  · intro key other
    rw [updateValue_column,if_neg ?_]
    · rfl
    · rintro ⟨given,there⟩
      have hidden : key ∉ shownNames data := fun shown => other ⟨shown,there⟩
      rw [form,shown_missing printers page.cursor single key hidden] at given
      cases given

end

/-- The number of a row is written back. -/
theorem written_back_seven : ∃ c ∈ (queryBody ⟨1,0,false⟩ (storing items) postingPage (shopDir false)
      (sourceOf postingPage) World.init).2.calls,
    AssignsTo ⟨text "id",0,.int,0,0,0,false⟩ c ∧
      Restores ⟨text "id",0,.int,0,0,0,false⟩ [7,0,0,0] c := by
  have fine : (queryBody ⟨1,0,false⟩ (storing items) postingPage (shopDir false)
      (sourceOf postingPage) World.init).1 = .ok () := by decide +kernel
  rcases ran : queryBody ⟨1,0,false⟩ (storing items) postingPage (shopDir false) (sourceOf postingPage)
    World.init with ⟨outcome,next⟩
  rw [ran] at fine
  obtain rfl : outcome = .ok () := fine
  obtain ⟨tab,quiet,assigned,found,calls,_,each⟩ := written_back_iff sevenPage postingPage seven_sent rfl
    (by decide) rfl ⟨1,0,false⟩ (storing items) (shopDir false) World.init next ran
  obtain rfl : items = tab := Option.some.inj found
  have listed : ((shopDir false).updatable.filter fun key =>
      key ∈ shownNames shownId ∧ (items.column key).isSome) = [text "id"] := by decide
  rw [listed] at each
  obtain ⟨c,_,⟨field,column,col,_,there,assigns,restores⟩,_,rfl⟩ := List.forall₂_cons_left_iff.mp each
  obtain rfl := List.mem_singleton.mp column
  obtain rfl : (⟨text "id",0,.int,0,0,0,false⟩ : DictColumn) = col :=
    Option.some.inj ((by decide : items.column (text "id") = _).symm.trans there)
  refine ⟨c,?_,assigns,(restores rfl rfl).mpr trivial⟩
  rw [calls]
  exact List.mem_append_right _ List.mem_cons_self

end ModNdb.Query
