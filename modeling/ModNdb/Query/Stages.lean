import ModNdb.Query.Script

/-! The stages of a script: what each part of `Query` calls, returned or stopped. -/
namespace ModNdb.Query
open Config (Dir)
open MySQL (DictColumn Mvalue)
open Prog (Triple)

section
variable (setting : Setting) (dir : Dir) (before l : List Ndb.Call)

theorem ignored_triple {c : Ndb.Call} (ignored : Ignored c = true) (stop : List Ndb.Call → Prop) :
    Triple (Calls (Fine setting before l)) (call setting c)
      (fun _ => Calls (Fine setting before (l ++ [c]))) (Calls stop) :=
  (call_triple setting before l c).mono (fun _ => id) (fun _ _ called => called.2.2 (.inl ignored))
    fun _ none => none.elim

section
variable (q : Items)

theorem filterCmp_triple (n : Nat) {c : Ndb.Call} (ignored : Ignored c = true) (stop : List Ndb.Call → Prop) :
    Triple (Calls (Fine setting before l)) (filterCmp setting q n c)
      (fun _ => Calls (Fine setting before (l ++ [c]))) (Calls stop) := by
  have noted : Triple (Calls (Fine setting before l)) (emit (.filter n (q.keys n) c) : Querying Unit)
      (fun _ => Calls (Fine setting before l)) (Calls stop) := Triple.modify _ fun _ fine => fine
  apply noted.bind
  intro _
  exact (ignored_triple setting before l ignored stop).bind fun _ => Triple.pure _ fun _ => id

/-- A condition is set whole, or not at all. -/
theorem setFilter_triple (mval : Mvalue) (n : Nat) :
    Triple (Calls (Fine setting before l)) (setFilter setting dir q mval n)
      (fun _ w => ∃ block, Condition setting dir q n block ∧ Fine setting before (l ++ block) w.calls)
      (Calls (Fine setting before l)) := by
  unfold setFilter
  cases entry : dir.keyColumns[n]? with
  | none => exact Triple.fail _ fun _ => id
  | some keycol =>
    dsimp only
    cases column : keycol.baseColName.bind q.tab.column with
    | none => exact Triple.fail _ fun _ => id
    | some col =>
      apply Triple.ite
      · intro like
        have notNull : Triple (Calls (Fine setting before l)) (filterNotNull setting keycol col)
            (fun _ => Calls (Fine setting before (l ++
              if keycol.relOp = condLike ∧ col.nullable = true then [.filterNotNull col.no] else [])))
            (Calls (Fine setting before l)) := by
          unfold filterNotNull
          split_ifs
          · exact ignored_triple setting before l rfl _
          · exact Triple.pure _ fun w fine => by rwa [Calls,List.append_nil]
        apply notNull.bind
        intro _
        apply (filterCmp_triple setting before _ q n rfl _).bind
        intro _
        apply Triple.pure
        intro w fine
        rw [Calls,List.append_assoc] at fine
        refine ⟨_,⟨keycol,col,entry,column,?_⟩,fine⟩
        rw [if_pos like]
      · intro other
        apply (filterCmp_triple setting before l q n rfl _).bind
        intro _
        refine Triple.pure _ fun w fine => ⟨_,⟨keycol,col,entry,column,?_⟩,fine⟩
        rw [if_neg other]
        exact ⟨mval,compared (MySQL.value setting.out mval (some col) (q.keys n)),rfl,rfl⟩

theorem setFilters_triple (filters : List Nat) (mval : Mvalue) :
    Triple (Calls (Fine setting before l)) (setFilters setting dir q filters mval)
      (fun _ w => ∃ blocks, List.Forall₂ (Condition setting dir q) filters blocks ∧
        Fine setting before (l ++ blocks.flatten) w.calls)
      (fun w => ∃ blocks, List.Forall₂ (Condition setting dir q) (filters.take blocks.length) blocks ∧
        Fine setting before (l ++ blocks.flatten) w.calls) := by
  induction filters generalizing mval l with
  | nil => exact Triple.pure _ fun w fine => ⟨[],.nil,by rwa [List.flatten_nil,List.append_nil]⟩
  | cons n filters ih =>
    apply Triple.bindRan ((setFilter_triple setting dir before l q mval n).mono (fun _ => id)
      (fun _ _ => id) fun w fine => ⟨[],.nil,by rwa [List.flatten_nil,List.append_nil]⟩)
    rintro w mval' w' _ _ ⟨block,holds,fine⟩
    refine (ih (l ++ block) mval').mono (fun _ same => same ▸ fine) ?_ ?_
    · rintro result u ⟨blocks,each,fine⟩
      exact ⟨block::blocks,.cons holds each,by rwa [List.flatten_cons,← List.append_assoc]⟩
    · rintro u ⟨blocks,each,fine⟩
      exact ⟨block::blocks,.cons holds each,by rwa [List.flatten_cons,← List.append_assoc]⟩

theorem newResult_triple (col : DictColumn) :
    Triple (Calls (Fine setting before l)) (newResult setting col)
      (fun _ => Calls (Fine setting before (l ++ [resultCall col]))) (Calls (Fine setting before l)) := by
  unfold newResult resultCall
  split_ifs
  · exact ignored_triple setting before l rfl _
  · exact Triple.fail _ fun _ => id
  · exact ignored_triple setting before l rfl _

/-- The result columns are asked for one after another, up to one that is not there. -/
theorem readColumns_triple (cols : List (Option DictColumn)) :
    Triple (Calls (Fine setting before l)) (readColumns setting q cols)
      (fun _ w => ∃ asked, asked.map some = cols.map (Option.map resultCall) ∧
        Fine setting before (l ++ asked) w.calls)
      (fun w => ∃ asked, asked.map some <+: cols.map (Option.map resultCall) ∧
        Fine setting before (l ++ asked) w.calls) := by
  have nothing (cols : List (Option DictColumn)) (w : World) (fine : Fine setting before l w.calls) :
      ∃ asked : List Ndb.Call, asked.map some <+: cols.map (Option.map resultCall) ∧
        Fine setting before (l ++ asked) w.calls :=
    ⟨[],List.nil_prefix,by rwa [List.append_nil]⟩
  induction cols generalizing l with
  | nil => exact Triple.pure _ fun w fine => ⟨[],rfl,by rwa [List.append_nil]⟩
  | cons col cols ih =>
    cases col with
    | none => exact Triple.fail _ (nothing _)
    | some col =>
      apply Triple.bind ((newResult_triple setting before l col).mono (fun _ => id) (fun _ _ => id)
        (nothing _))
      intro _
      apply Triple.bind ((Silent.triple (setData_issues q _)
        (Fine setting before (l ++ [resultCall col]))).mono (fun _ => id) (fun _ _ => id) ?_)
      · intro _
        refine (ih (l ++ [resultCall col]) fun cols w fine =>
          ⟨[],List.nil_prefix,by rwa [List.append_nil]⟩).mono (fun _ => id) ?_ ?_
        · rintro _ u ⟨asked,all,fine⟩
          refine ⟨resultCall col::asked,?_,by rwa [List.append_assoc] at fine⟩
          rw [List.map_cons,List.map_cons,all,Option.map_some]
        · rintro u ⟨asked,some_of,fine⟩
          refine ⟨resultCall col::asked,?_,by rwa [List.append_assoc] at fine⟩
          rw [List.map_cons,List.map_cons,Option.map_some]
          exact List.cons_prefix_cons.mpr ⟨rfl,some_of⟩
      · intro w fine
        refine ⟨[resultCall col],?_,fine⟩
        rw [List.map_cons,List.map_cons,Option.map_some]
        exact List.cons_prefix_cons.mpr ⟨rfl,List.nil_prefix⟩

end

end

section
variable (setting : Setting) (dir : Dir) (before l : List Ndb.Call)

theorem errorPage_triple (P : List Ndb.Call → Prop) (status : Int) (error : Option Ndb.Error)
    (msg : Option Text) : Triple (Calls P) (errorPage status error msg)
      (fun rc w => rc = -2 ∧ P w.calls) (Calls P) where
  returns w rc next known ran := ⟨(errorPage_done status error msg w).2 rc (congrArg Prod.fst ran),
    (Silent.triple (errorPage_issues status error msg) P).returns w rc next known ran⟩
  stops := (Silent.triple (errorPage_issues status error msg) P).stops

/-- The columns are written one after another, up to one that is refused. -/
theorem writeColumns_triple (mvals : List Mvalue) (eqr : Int) :
    Triple (Calls (Fine setting before l)) (writeColumns setting mvals eqr)
      (fun rc w => Stopped setting before l (· <+: assignments setting mvals) w.calls ∧
        (rc = 0 → Fine setting before (l ++ assignments setting mvals) w.calls))
      (Calls (Stopped setting before l (· <+: assignments setting mvals))) := by
  induction mvals generalizing eqr l with
  | nil => exact Triple.pure _ fun w fine => ⟨fine.stopped List.nil_prefix,fun _ => by
      rwa [show assignments setting [] = [] from rfl,List.append_nil]⟩
  | cons mval mvals ih =>
    unfold writeColumns
    cases column : mval.column with
    | none =>
      rw [assignments_none setting column]
      exact ih l eqr
    | some col =>
      rw [assignments_some setting column]
      have begun (w : World) (fine : Fine setting before l w.calls) : Stopped setting before l
          (· <+: assignment setting mval col::assignments setting mvals) w.calls :=
        fine.stopped List.nil_prefix
      have refused (kept : List Ndb.Call → Prop) (stopped : ∀ calls, kept calls →
          Stopped setting before l (· <+: assignment setting mval col::assignments setting mvals) calls) :
          Triple (Calls kept) (errorPage 500 (some setting.ndb.error) none)
            (fun rc w => Stopped setting before l
              (· <+: assignment setting mval col::assignments setting mvals) w.calls ∧
                (rc = 0 → Fine setting before
                  (l ++ assignment setting mval col::assignments setting mvals) w.calls))
            (Calls (Stopped setting before l
              (· <+: assignment setting mval col::assignments setting mvals))) :=
        (errorPage_triple kept _ _ _).mono (fun _ => id)
          (fun rc w known => ⟨stopped _ known.2,fun zero => by cases known.1.symm.trans zero⟩)
          fun w known => stopped _ known
      dsimp only
      rcases writeColumn_cases setting mval col with same | ⟨why,same⟩ | same
      · rw [same]
        exact refused (Fine setting before l) fun calls fine => fine.stopped List.nil_prefix
      · rw [same]
        exact Triple.fail _ begun
      · rw [same]
        apply Triple.bind ((call_triple setting before l _).mono (fun _ => id) (fun _ _ => id)
          fun _ none => none.elim)
        intro failed
        have one (calls : List Ndb.Call) (split : calls = l ++ [assignment setting mval col])
            (heard : Unrefused setting.ndb before l) : Stopped setting before l
              (· <+: assignment setting mval col::assignments setting mvals) calls :=
          ⟨_,split,List.cons_prefix_cons.mpr ⟨rfl,List.nil_prefix⟩,by rw [split]; exact heard.last _⟩
        cases failed with
        | true =>
          exact (refused (fun calls => calls = l ++ [assignment setting mval col] ∧
            Unrefused setting.ndb before l) fun calls known => one calls known.1 known.2).mono
              (fun w called => ⟨called.1,called.2.1⟩) (fun _ _ => id) fun _ => id
        | false =>
          refine (ih (l ++ [assignment setting mval col]) 0).mono
            (fun w called => called.2.2 (.inr rfl)) ?_ ?_
          · rintro rc w ⟨stopped,fine⟩
            refine ⟨stopped.behind fun more some_of => List.cons_prefix_cons.mpr ⟨rfl,some_of⟩,fun zero => ?_⟩
            have fine := fine zero
            rwa [List.append_assoc] at fine
          · exact fun w stopped => stopped.behind fun more some_of =>
              List.cons_prefix_cons.mpr ⟨rfl,some_of⟩

end

section
variable (setting : Setting) (dir : Dir) (before : List Ndb.Call)

def Items.indexed (q : Items) (idx : Option Ndb.Index) (obj : IndexObject) : Items :=
  {q with idx := idx, idxobj := some obj}

def HasObject (q : Items) : Prop :=
  q.plan = .scan ∨ q.plan = .primaryKey ∨ q.plan = .uniqueIndexAccess ∨ q.plan = .orderedIndexScan

theorem chose_object {q q' : Items} (chose : Chose setting dir q q') (bare : q.idxobj = none)
    {obj : IndexObject} (made : q'.idxobj = some obj) : HasObject q ∧ ∃ idx, q' = q.indexed idx obj := by
  cases chose with
  | indexScan name q' plan named typed =>
    obtain ⟨idx,_,_,rfl⟩ := typed
    cases made
    exact ⟨.inl plan,_,rfl⟩
  | tableScan plan =>
    cases made
    exact ⟨.inl plan,_,rfl⟩
  | primaryKey plan =>
    cases made
    exact ⟨.inr (.inl plan),_,rfl⟩
  | unique n index q' plan active entry typed =>
    obtain ⟨idx,_,_,rfl⟩ := typed
    cases made
    exact ⟨.inr (.inr (.inl plan)),_,rfl⟩
  | ordered n index q' plan active entry typed =>
    obtain ⟨idx,_,_,rfl⟩ := typed
    cases made
    exact ⟨.inr (.inr (.inr plan)),_,rfl⟩
  | none idx => cases bare.symm.trans made

section
variable (l : List Ndb.Call)

def Opened (q : Items) (refused : Bool) (calls : List Ndb.Call) : Prop :=
  ∃ c, Opening setting dir q c ∧ calls = l ++ [c] ∧ Unrefused setting.ndb before l ∧
    (refused = false → Fine setting before (l ++ [c]) calls)

theorem opened_triple {q : Items} {c : Ndb.Call} (opens : Opening setting dir q c) :
    Triple (Calls (Fine setting before l)) (call setting c)
      (fun refused => Calls (Opened setting dir before l q refused)) (Calls (Fine setting before l)) :=
  (call_triple setting before l c).mono (fun _ => id)
    (fun _ _ called => ⟨c,opens,called.1,called.2.1,fun heard => called.2.2 (.inr heard)⟩)
    fun _ none => none.elim

theorem readSetup_triple (q : Items) (idx : Option Ndb.Index) (obj : IndexObject) (object : HasObject q)
    (setup : q.opSetup = .read) :
    Triple (Calls (Fine setting before l)) (readSetup setting dir (q.indexed idx obj))
      (fun refused => Calls (Opened setting dir before l q refused)) (Calls (Fine setting before l)) := by
  have ordered (sorted descending : Bool) (order : scanOrder dir q = some (sorted,descending)) :
      Triple (Calls (Fine setting before l))
        (call setting (if sorted then .readTuplesSorted descending else .readTuplesCommitted))
        (fun refused => Calls (Opened setting dir before l q refused)) (Calls (Fine setting before l)) := by
    cases sorted with
    | true => exact opened_triple setting dir before l (.sorted descending setup order)
    | false => exact opened_triple setting dir before l (.unsorted descending setup order)
  unfold readSetup
  dsimp only [Items.indexed]
  apply Triple.ite
  · intro scan
    cases named : dir.indexScan.name with
    | none => exact opened_triple setting dir before l (.table setup scan named)
    | some name =>
      apply ordered
      unfold scanOrder
      rw [if_pos scan,named]
      rfl
  intro scan
  apply Triple.ite
  · intro range
    cases active : q.activeIndex.bind fun n => dir.indexes[n]? with
    | none => exact Triple.fail _ fun _ => id
    | some index =>
      apply ordered
      unfold scanOrder
      rw [if_neg scan,if_pos range,active]
      rfl
  intro range
  refine opened_triple setting dir before l (.key setup ?_)
  rcases object with plan | plan | plan | plan
  · exact absurd plan scan
  · exact .inl plan
  · exact .inr plan
  · exact absurd plan range

theorem setUpWrite_triple (q : Items) (idx : Option Ndb.Index) (obj : IndexObject) (isInsert : Bool)
    (setup : q.opSetup = if isInsert then .insert else .write) :
    Triple (Calls (Fine setting before l)) (setUpWrite setting dir (q.indexed idx obj) isInsert)
      (fun result w => result.2 = (q.indexed idx obj).withVals (updates setting dir q) ∧
        Opened setting dir before l q result.1 w.calls) (Calls (Fine setting before l)) := by
  have opens : Opening setting dir q (if isInsert then .insertTuple
      else if (updates setting dir q).any fun mval => mval.useValue = .useInterpreted then
        .interpretedUpdateTuple else .writeTuple) := by
    cases isInsert with
    | true => exact .insert setup
    | false =>
      rw [if_neg Bool.false_ne_true]
      split_ifs with interpreted
      · obtain ⟨mval,inside,use⟩ := List.any_eq_true.mp interpreted
        exact .update setup ⟨mval,inside,of_decide_eq_true use⟩
      · refine .write setup fun mval inside use => interpreted ?_
        exact List.any_eq_true.mpr ⟨mval,inside,decide_eq_true use⟩
  apply Triple.bind (opened_triple setting dir before l opens)
  intro refused
  exact Triple.pure _ fun w opened => ⟨rfl,opened⟩

/-- What the set-up of an operation leaves. -/
theorem opSetup_triple (q : Items) (idx : Option Ndb.Index) (obj : IndexObject) (object : HasObject q) :
    Triple (Calls (Fine setting before l)) (opSetup setting dir (q.indexed idx obj))
      (fun result w => (∃ vals, result.2 = (q.indexed idx obj).withVals vals ∧
        (q.opSetup = .write ∨ q.opSetup = .insert → vals = updates setting dir q)) ∧
          Opened setting dir before l q result.1 w.calls) (Calls (Fine setting before l)) := by
  unfold opSetup
  have setup : (q.indexed idx obj).opSetup = q.opSetup := rfl
  rw [setup]
  cases op : q.opSetup with
  | read =>
    apply Triple.bind (readSetup_triple setting dir before l q idx obj object op)
    exact fun refused => Triple.pure _ fun w opened => ⟨⟨q.setVals,rfl,fun other => by
      rcases other with other | other <;> cases other⟩,opened⟩
  | write =>
    exact (setUpWrite_triple setting dir before l q idx obj false op).mono (fun _ => id)
      (fun _ _ known => ⟨⟨_,known.1,fun _ => rfl⟩,known.2⟩) fun _ => id
  | insert =>
    exact (setUpWrite_triple setting dir before l q idx obj true op).mono (fun _ => id)
      (fun _ _ known => ⟨⟨_,known.1,fun _ => rfl⟩,known.2⟩) fun _ => id
  | delete =>
    apply Triple.bind (opened_triple setting dir before l (.delete op))
    exact fun refused => Triple.pure _ fun w opened => ⟨⟨q.setVals,rfl,fun other => by
      rcases other with other | other <;> cases other⟩,opened⟩

end

end

section
variable (setting : Setting) (dir : Dir) (before l : List Ndb.Call) (q : Items)

structure IndexParts (keys constants : List Ndb.Call) : Prop where
  keyed : Each (KeyPart setting dir q) keys
  constant : Each (ConstantPart setting dir q keys.length) constants
  keysFirst : constants ≠ [] → WalkDone setting dir q keys.length

theorem IndexParts.nil : IndexParts setting dir q [] [] := ⟨Each.nil,Each.nil,fun none => absurd rfl none⟩

theorem walk_none (idle : (if q.plan = .scan then none else q.activeIndex) = none) :
    q.walk setting dir = none := by
  unfold Items.walk walkOf Items.planned
  split_ifs at idle with scan
  · rw [scan]
    cases q.activeIndex.bind fun n => dir.indexes[n]? <;> rfl
  · rw [idle]
    rfl

variable {setting dir q} in
theorem setIndexParts_triple {q' : Items} (bare : q.idxobj = none) (unset : q.idx = none)
    (ready : Ready setting dir q q') (plan : q'.plan = q.plan) (active : q'.activeIndex = q.activeIndex)
    (keysSame : q'.keys = q.keys) (mval : Mvalue) :
    Triple (Calls (Fine setting before l)) (setIndexParts setting dir mval q')
      (fun _ w => ∃ keys constants, IndexParts setting dir q keys constants ∧
        WalkDone setting dir q keys.length ∧ ConstantsDone setting dir q constants.length ∧
          Fine setting before (l ++ (keys ++ constants)) w.calls)
      (Calls (Stopped setting before l fun more => ∃ keys constants,
        IndexParts setting dir q keys constants ∧ more = keys ++ constants)) := by
  have nothing (w : World) (fine : Fine setting before l w.calls) :
      Stopped setting before l (fun more => ∃ keys constants,
        IndexParts setting dir q keys constants ∧ more = keys ++ constants) w.calls :=
    fine.stopped ⟨[],[],.nil setting dir q,rfl⟩
  unfold setIndexParts
  cases chosen : if q'.plan = .scan then none else q'.activeIndex with
  | none =>
    rw [plan,active] at chosen
    have walk := walk_none setting dir q chosen
    exact Triple.pure _ fun w fine => ⟨[],[],.nil setting dir q,
      fun _ _ some => (by cases walk.symm.trans some),fun _ _ some => (by cases walk.symm.trans some),
      by rwa [List.append_nil,List.append_nil]⟩
  | some n =>
    dsimp only
    have scans : q'.plan ≠ .scan := by
      intro scan
      rw [if_pos scan] at chosen
      cases chosen
    rw [if_neg scans] at chosen
    cases entry : dir.indexes[n]? with
    | none => exact Triple.fail _ nothing
    | some record =>
      obtain ⟨k,walk,start⟩ := ready_walk setting dir bare unset ready scans chosen entry
      replace walk : q.walk setting dir = some (record,k) := walk
      have keyed {keys : List Ndb.Call} (parts : PartsFrom setting dir k record.firstCol 0 keys) :
          Each (KeyPart setting dir q) keys := Each.mono parts fun i c => by
        rintro ⟨col,keycol,column,entry,sets⟩
        rw [Nat.zero_add] at column sets
        rw [← start.keys,keysSame] at sets
        exact ⟨record,k,col,keycol,walk,column,entry,sets⟩
      have constant {parts : Nat} {made : List Ndb.Call} (each : Each (fun i c => ∃ constant,
          record.constants[i]? = some constant ∧ Sets setting k parts constant.baseColName constant.relOp
            (some constant.value) c) made) : Each (ConstantPart setting dir q parts) made :=
        Each.mono each fun i c => by
          rintro ⟨constant,listed,sets⟩
          exact ⟨record,k,constant,walk,listed,sets⟩
      have walked : Triple _ (setKeyParts setting dir q'.keyColumnsUsed.toNat
          (chainAt dir 0 record.firstCol) mval q') _ _ :=
        setKeyParts_triple setting dir before l (Nat.zero_add q'.keyColumnsUsed.toNat) start mval
      rw [chainAt_zero] at walked
      apply Triple.bind (walked.mono (fun _ => id) (fun _ _ => id) ?_)
      · rintro ⟨mval',q''⟩
        refine Triple.mono (Triple.given fun keys : List Ndb.Call => Triple.fact
          (c := Each (KeyPart setting dir q) keys ∧ WalkDone setting dir q keys.length ∧
            k.At keys.length q'') (P := Calls (Fine setting before (l ++ keys))) fun known => ?_) ?_
          (fun _ _ => id) fun _ => id
        · obtain ⟨parts,done,there⟩ := known
          refine (setConstants_triple setting before (l ++ keys) there.stands record.constants mval').mono
            (fun _ => id) ?_ ?_
          · rintro _ w ⟨made,each,all,fine⟩
            refine ⟨keys,made,⟨parts,constant each,fun _ => done⟩,done,?_,?_⟩
            · rintro record' k' walk'
              cases walk.symm.trans walk'
              exact all
            · rwa [List.append_assoc] at fine
          · exact fun w stopped => stopped.behind fun made each =>
              ⟨keys,made,⟨parts,constant each,fun _ => done⟩,rfl⟩
        · rintro w ⟨keys,parts,fine,there,done⟩
          rw [Nat.zero_add] at there done
          refine ⟨keys,⟨keyed parts,?_,there⟩,fine⟩
          rintro record' k' walk'
          cases walk.symm.trans walk'
          rw [← ready.keyColumnsUsed]
          exact done
      · rintro w ⟨keys,split,parts,heard⟩
        exact ⟨keys,split,⟨keys,[],⟨keyed parts,Each.nil,fun none => absurd rfl none⟩,
          (List.append_nil _).symm⟩,heard⟩

end

end ModNdb.Query
