import ModNdb.Query.Parts

/-! What `set_up_write` leaves in `set_vals`: the columns of `dir->updatable` that the form and
the table have, and no others. -/
namespace ModNdb.MySQL

section
variable (out : Surroundings) (m : Mvalue) (col : DictColumn)

theorem charValue_column (val : Text) : (charValue out m col val).column = m.column := by
  unfold charValue
  split <;> rfl

theorem dateValue_column (val : Text) : (dateValue m col val).column = m.column := by
  unfold dateValue
  split <;> rfl

theorem clamped_column (use : MvalueUse) (bytes : Nat) (low high : Int) (val : Text) :
    (clamped use bytes low high val m).column = m.column := by
  unfold clamped
  dsimp only
  split_ifs <;> rfl

theorem numericValue_column (val : Text) : (numericValue out m col val).column = m.column := by
  unfold numericValue
  split <;> first | rfl | exact clamped_column m _ _ _ _ val

theorem dynamicValue_column (type : ColType) (val : Text) {m' : Mvalue}
    (dynamic : dynamicValue out m type val = some m') : m'.column = m.column := by
  unfold dynamicValue at dynamic
  split_ifs at dynamic <;> cases dynamic <;> rfl

theorem value_column (val : Text) : (value out m (some col) (some val)).column = some col := by
  unfold value
  dsimp only
  split_ifs
  · exact charValue_column _ _ _ _
  · exact dateValue_column _ _ _
  · cases dynamic : dynamicValue out {m with column := some col} col.type (cstring val) with
    | none => exact numericValue_column _ _ _ _
    | some m' => exact dynamicValue_column _ _ _ _ dynamic

theorem binaryValue_column (val : Text) : (binaryValue out m col val).column = m.column := by
  unfold binaryValue
  dsimp only
  split <;> rfl

end

end ModNdb.MySQL

namespace ModNdb.Query
open Config (Dir)
open MySQL (Mvalue)
open Prog (Moves)

section
variable (setting : Setting) (dir : Dir)

theorem updateValue_column (q : Items) (key : Text) (mval : Mvalue) :
    (updateValue setting q key mval).column =
      if (q.form.getItem key).isSome ∧ (q.tab.column key).isSome then q.tab.column key
      else mval.column := by
  unfold updateValue
  cases given : q.form.getItem key with
  | none => exact (if_neg fun both => by cases both.1).symm
  | some val =>
    cases column : q.tab.column key with
    | none => exact (if_neg fun both => by cases both.2).symm
    | some col =>
      rw [if_pos ⟨rfl,rfl⟩]
      dsimp only
      split
      · rw [MySQL.binaryValue_column,MySQL.value_column]
      · exact MySQL.value_column _ _ _ _

def Named (dir : Dir) (tab : Ndb.Table) (form : FormTable) : Prop :=
  ∃ key ∈ dir.updatable, (form.getItem key).isSome ∧ (tab.column key).isSome

def newVals (q : Items) : List Mvalue :=
  List.zipWith (updateValue setting q) dir.updatable (List.replicate dir.updatable.length .zero)

theorem newVals_eq (q : Items) :
    newVals setting dir q = dir.updatable.map fun key => updateValue setting q key .zero := by
  unfold newVals
  generalize dir.updatable = names
  induction names with
  | nil => rfl
  | cons name names ih => exact congrArg _ ih

/-- There is nothing to write exactly if no updatable column is named. -/
theorem newVals_none_iff (q : Items) :
    (∀ mval ∈ newVals setting dir q, mval.column = none) ↔ ¬Named dir q.tab q.form := by
  rw [newVals_eq]
  constructor
  · rintro nothing ⟨key,listed,both⟩
    have column := nothing _ (List.mem_map_of_mem listed)
    rw [updateValue_column,if_pos both] at column
    rw [column] at both
    cases both.2
  · intro unnamed mval inside
    obtain ⟨key,listed,rfl⟩ := List.mem_map.mp inside
    rw [updateValue_column,if_neg fun both => unnamed ⟨key,listed,both⟩]
    rfl

def Items.writes (q : Items) : OpSetup × OpAction × List Mvalue × FormTable × Ndb.Table :=
  (q.opSetup,q.opAction,q.setVals,q.form,q.tab)

theorem countPart_writes (q : Items) : (countPart q).writes = q.writes := rfl

theorem nextKeyPart_writes (q : Items) : (nextKeyPart q).2.writes = q.writes := by
  unfold nextKeyPart
  cases q.idxobj with
  | none => rfl
  | some obj =>
    dsimp only
    split <;> rfl

theorem findPlan_writes (r : RequestRec) (q : Items) : (findPlan r dir q).writes = q.writes := by
  have setup := findPlan_setup dir q r
  unfold Items.writes
  simp only [Items.setup,Prod.mk.injEq] at setup ⊢
  exact ⟨setup.2.2.2.1,setup.2.2.2.2.1,setup.2.2.2.2.2.1,setup.2.2.2.2.2.2.2,setup.1⟩

theorem Chose.writes {setting : Setting} {dir : Dir} {q q' : Items} (chose : Chose setting dir q q') :
    q'.writes = q.writes := by
  cases chose with
  | indexScan _ _ _ _ typed | unique _ _ _ _ _ _ typed | ordered _ _ _ _ _ _ typed =>
    obtain ⟨_,_,_,rfl⟩ := typed
    rfl
  | tableScan | primaryKey | none => rfl

/-- What `op_setup` leaves: a write has its values, any other is as it was. -/
theorem opSetup_writes {q q' : Items} {refused : Bool} {w next : World}
    (ran : opSetup setting dir q w = (.ok (refused,q'),next)) :
    q'.writes = (q.opSetup,q.opAction,
      if q.opSetup = .write ∨ q.opSetup = .insert then
        List.zipWith (updateValue setting q) dir.updatable q.setVals
      else q.setVals,q.form,q.tab) := by
  unfold opSetup at ran
  cases module : q.opSetup with
  | read =>
    rw [module] at ran
    obtain ⟨_,_,_,last⟩ := Prog.bind_inv ran
    cases last
    unfold Items.writes
    rw [module]
    rfl
  | write =>
    rw [module] at ran
    obtain ⟨_,_,_,last⟩ := Prog.bind_inv ran
    cases last
    unfold Items.writes
    dsimp only
    rw [module]
    rfl
  | insert =>
    rw [module] at ran
    obtain ⟨_,_,_,last⟩ := Prog.bind_inv ran
    cases last
    unfold Items.writes
    dsimp only
    rw [module]
    rfl
  | delete =>
    rw [module] at ran
    obtain ⟨_,_,_,last⟩ := Prog.bind_inv ran
    cases last
    unfold Items.writes
    rw [module]
    rfl

end

structure Posted (dir : Dir) (setting : Setting) (source : QuerySource) (form : FormTable)
    (tab : Ndb.Table) (q : Items) : Prop where
  method : source.reqMethod = .post
  read : ∃ passed, source.formData = .ok ⟨0,form,passed⟩
  found : setting.ndb.table = some tab
  action : q.opAction = .write
  vals : ∃ base, q.setVals = newVals setting dir base ∧ base.form = form ∧ base.tab = tab

section
variable {srv : ServerConfig} {setting : Setting} {r : RequestRec} {dir : Dir} {source : QuerySource}

theorem setUpMethod_writes {tab : Ndb.Table} {w next : World} {q : Items}
    (ran : setUpMethod srv r dir source (.init tab) w = (.ok q,next)) :
    (source.reqMethod ≠ .post ∧ q.opAction ≠ .write) ∨ ∃ form passed,
      source.reqMethod = .post ∧ source.formData = .ok ⟨0,form,passed⟩ ∧ q.opAction = .write ∧
        (q.opSetup = .write ∨ q.opSetup = .insert) ∧
        q.setVals = List.replicate dir.updatable.length .zero ∧ q.form = form ∧ q.tab = tab := by
  unfold setUpMethod at ran
  cases method : source.reqMethod with
  | get =>
    left
    rw [method] at ran
    refine ⟨nofun,?_⟩
    dsimp only at ran
    unfold setUpRead at ran
    rw [Prog.bind_ok _ (Prog.get_run w)] at ran
    split at ran
    · cases ran
      nofun
    · exact absurd ran (refuse_no_result _ _ _)
  | post =>
    right
    rw [method] at ran
    obtain ⟨form,middle,got,last⟩ := Prog.bind_inv ran
    obtain ⟨passed,read⟩ := getForm_inv source got
    cases last
    refine ⟨form,passed,rfl,read,?_⟩
    unfold setUpPost
    dsimp only
    split
    · exact ⟨rfl,.inr rfl,rfl,rfl,rfl⟩
    · exact ⟨rfl,.inl rfl,rfl,rfl,rfl⟩
  | delete =>
    left
    rw [method] at ran
    refine ⟨nofun,?_⟩
    dsimp only at ran
    split at ran
    · cases ran
      nofun
    · exact absurd ran (refuse_no_result _ _ _)
  | other =>
    rw [method] at ran
    exact absurd ran (refuse_no_result _ _ _)

theorem prepare_posted {w next : World} {refused : Bool} {q : Items}
    (ran : prepare srv setting r dir source w = (.ok (refused,q),next)) :
    (source.reqMethod ≠ .post ∧ q.opAction ≠ .write) ∨
      ∃ form tab, Posted dir setting source form tab q := by
  unfold prepare at ran
  obtain ⟨planned,w₁,ran₁,ran⟩ := Prog.bind_inv ran
  obtain ⟨_,w₂,_,ran⟩ := Prog.bind_inv ran
  obtain ⟨q₁,w₃,ran₂,ran⟩ := Prog.bind_inv ran
  obtain ⟨q₂,w₄,ran₃,ran₄⟩ := Prog.bind_inv ran
  obtain ⟨tab,planning⟩ := planQuery_planning srv setting r dir source ran₁
  rw [planQuery_found srv setting r dir source tab planning.found] at ran₁
  obtain ⟨q₀,_,made,checked⟩ := Prog.bind_inv ran₁
  have chose : Moves (Local (fun _ => True) planned.data) (chooseIndex setting dir planned)
      (Chose setting dir planned) := chooseIndex_moves setting dir planned planned.data
  have object : Moves (Local (fun _ => True) q₁.data) (getNdbOperation setting q₁) fun q' => ∃ obj,
      q₁.idxobj = some obj ∧ q' = {q₁ with idxobj := some {obj with nParts := numberOfParts q₁ obj.kind}} :=
    getNdbOperation_moves setting q₁
  obtain ⟨obj,_,same⟩ := (object w₃).2 q₂ (by rw [ran₃])
  have kept : q₂.writes = q₀.writes := by
    have first : planned.writes = q₀.writes := by
      rw [← checkPlan_same r dir checked]
      exact findPlan_writes dir r q₀
    rw [← first,← ((chose w₂).2 q₁ (by rw [ran₂])).writes,same]
    rfl
  have after := opSetup_writes setting dir ran₄
  simp only [Items.writes,Prod.mk.injEq] at kept after
  obtain ⟨setup,action,vals,form,table⟩ := kept
  rcases setUpMethod_writes made with ⟨method,other⟩ | ⟨posted,passed,method,read,write,module,zeros,given,there⟩
  · left
    refine ⟨method,?_⟩
    rw [after.2.1,action]
    exact other
  · right
    refine ⟨posted,tab,method,⟨passed,read⟩,planning.found,?_,q₂,?_,form.trans given,table.trans there⟩
    · rw [after.2.1,action]
      exact write
    · rw [after.2.2.1,setup,if_pos module,vals,zeros]
      rfl

end

end ModNdb.Query
