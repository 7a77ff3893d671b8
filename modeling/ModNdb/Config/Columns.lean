import ModNdb.Config.Directives

/-! What is done about columns: it changes the table of columns, the links between them and
the records of indexes, and nothing else. -/
namespace ModNdb.Config

/-- Only columns, links and records of indexes have changed, and no index its name or type.
The columns of a path may have moved. -/
structure Machined (d d' : Dir) : Prop where
  rest : {d' with keyColumns := d.keyColumns, indexes := d.indexes, pathinfo := d.pathinfo} = d
  named : d'.indexes.map (fun index => (index.name,index.type)) =
    d.indexes.map fun index => (index.name,index.type)
  path : d.pathinfoSerials = [] → d.pathinfo = [] → d'.pathinfo = []

theorem Machined.serials {d d' : Dir} (machined : Machined d d') :
    d'.pathinfoSerials = d.pathinfoSerials := by
  have serials := congrArg Dir.pathinfoSerials machined.rest
  exact serials

theorem Machined.trans {d d' d'' : Dir} (first : Machined d d') (second : Machined d' d'') :
    Machined d d'' where
  rest := by
    have both := congrArg (fun e : Dir => {e with
      keyColumns := d.keyColumns, indexes := d.indexes, pathinfo := d.pathinfo}) second.rest
    exact both.trans first.rest
  named := second.named.trans first.named
  path none empty := second.path (first.serials.trans none) (first.path none empty)

instance : IsPreorder Dir Machined where
  refl _ := ⟨rfl,rfl,fun _ empty => empty⟩
  trans _ _ _ first second := first.trans second

abbrev Machines {α : Type} (x : Setup α) : Prop := Prog.Steps Machined x

theorem keyCol_machines (n : Nat) : Machines (keyCol n) := by
  intro d
  unfold keyCol
  split <;> exact ⟨refl d,fun _ _ => trivial⟩

theorem index_machines (n : Nat) : Machines (index n) := by
  intro d
  unfold index
  split <;> exact ⟨refl d,fun _ _ => trivial⟩

theorem setKeyCol_machines (n : Nat) (change : KeyCol → KeyCol) : Machines (setKeyCol n change) :=
  Prog.Steps.modify fun _ => ⟨rfl,rfl,fun _ empty => empty⟩

theorem setIndex_machines (n : Nat) (change : Index → Index)
    (named : ∀ index, ((change index).name,(change index).type) = (index.name,index.type)) :
    Machines (setIndex n change) := by
  refine Prog.Steps.modify fun d => ⟨rfl,?_,fun _ empty => empty⟩
  apply List.ext_getElem?
  intro k
  rw [List.getElem?_map,List.getElem?_map,List.getElem?_modify]
  cases d.indexes[k]? with
  | none => rfl
  | some index =>
    apply congrArg some
    dsimp only
    by_cases here : n = k
    · rw [if_pos here]
      exact named index
    · rw [if_neg here]

theorem relinkChain_machines (fuel thisCol : Nat) : Machines (relinkChain fuel thisCol) := by
  induction fuel generalizing thisCol with
  | zero => exact Prog.Steps.fail _
  | succ fuel ih =>
    unfold relinkChain
    apply (keyCol_machines thisCol).bind
    intro key
    cases key.nextInKeySerial with
    | none => exact Prog.Steps.pure ()
    | some serial =>
      exact (keyCol_machines serial).bind fun _ => (setKeyCol_machines _ _).bind fun _ => ih _

theorem relinkIndex_machines (n : Nat) : Machines (relinkIndex n) := by
  unfold relinkIndex
  apply (index_machines n).bind
  intro record
  cases record.firstColSerial with
  | none => exact Prog.Steps.pure ()
  | some serial =>
    refine (keyCol_machines serial).bind fun _ => (setIndex_machines _ _ ?_).bind fun _ =>
      Prog.Steps.get fun _ => relinkChain_machines _ _
    exact fun _ => rfl

theorem mappedIds_machines (serials : List Nat) : Machines (mappedIds serials) := by
  induction serials with
  | nil => exact Prog.Steps.pure _
  | cons serial serials ih =>
    exact (keyCol_machines serial).bind fun _ => ih.bind fun _ => Prog.Steps.pure _

/-- The columns of a path are renumbered, and an empty path stays empty. -/
theorem renumbered (d dir : Dir) (machined : Machined d dir) :
    Prog.Keeps (Machined d) (mappedIds dir.pathinfoSerials >>= fun pathinfo =>
      (Prog.modify fun dir => {dir with pathinfo} : Setup Unit)) := by
  by_cases empty : dir.pathinfoSerials = []
  · rw [empty]
    exact fun s reached => reached.trans ⟨rfl,rfl,fun _ _ => rfl⟩
  · apply Prog.Keeps.bind
    · exact fun s reached => reached.trans (mappedIds_machines _ s).1
    · intro pathinfo
      apply Prog.Keeps.modify
      intro s reached
      refine reached.trans ⟨rfl,rfl,fun nothing => ?_⟩
      exact absurd (machined.serials.trans (reached.serials.symm.trans nothing)) empty

theorem fixLinks_machines : Machines fixLinks := by
  intro d
  refine ⟨?_,fun _ _ => trivial⟩
  have mapped : Machined d {d with keyColumns := mapSerials d.keyColumns} :=
    ⟨rfl,rfl,fun _ empty => empty⟩
  have relinked : Prog.Keeps (Machined d)
      ((List.range d.indexes.length).forM relinkIndex) :=
    (Prog.Steps.forM relinkIndex_machines).keeps fun _ _ step reached => reached.trans step
  exact (relinked.bind fun _ => renumbered d _ mapped) _ mapped

theorem addKeyColumn_machines (keyname : Text) : Machines (addKeyColumn keyname) := by
  unfold addKeyColumn
  apply Prog.Steps.get
  intro dir
  apply Prog.Steps.ite (Prog.Steps.pure _)
  refine Prog.Steps.modifyThen (fun d => ⟨rfl,rfl,fun _ empty => empty⟩)
    (Prog.Steps.ite ?_ (Prog.Steps.pure _))
  exact fixLinks_machines.bind fun _ => Prog.Steps.pure _

theorem addColumnToIndex_machines (indexId : Nat) (expr : Expr) :
    Machines (addColumnToIndex indexId expr) :=
  (addKeyColumn_machines _).bind fun _ => (index_machines _).bind fun _ =>
    (setKeyCol_machines _ _).bind fun _ => Prog.Steps.pure _

theorem namedIndexId_machines (idx : Text) : Machines (namedIndexId idx) := by
  unfold namedIndexId
  apply Prog.Steps.get
  intro dir
  cases getIndexByName dir idx with
  | none => exact Prog.Steps.fail _
  | some id => exact Prog.Steps.pure id

theorem sortScan_machines (idxname : Text) (descending : Bool) :
    Machines (sortScan true idxname descending) :=
  (namedIndexId_machines _).bind fun _ => setIndex_machines _ _ fun _ => rfl

theorem chainEnd_machines (fuel col : Nat) : Machines (chainEnd fuel col) := by
  induction fuel generalizing col with
  | zero => exact Prog.Steps.fail _
  | succ fuel ih =>
    unfold chainEnd
    apply (keyCol_machines col).bind
    intro key
    cases key.nextInKey with
    | none => exact Prog.Steps.pure col
    | some next => exact ih next

theorem linkColumn_machines (indexId colId : Nat) : Machines (linkColumn indexId colId) := by
  unfold linkColumn
  apply (keyCol_machines colId).bind
  intro key
  apply (index_machines indexId).bind
  intro record
  cases record.firstCol with
  | none => exact setIndex_machines _ _ fun _ => rfl
  | some head =>
    exact Prog.Steps.get fun _ => (chainEnd_machines _ _).bind fun _ => setKeyCol_machines _ _

theorem namedIdx_machines (idx : Text) (expr : Expr) : Machines (namedIdx idx expr) := by
  unfold namedIdx
  apply (namedIndexId_machines idx).bind
  intro indexId
  apply (index_machines indexId).bind
  intro record
  apply Prog.Steps.ite
  · exact Prog.Steps.ite (sortScan_machines _ _)
      (Prog.Steps.ite (sortScan_machines _ _) (Prog.Steps.fail _))
  · refine (addColumnToIndex_machines _ _).bind fun _ => (setIndex_machines _ _ ?_).bind fun _ =>
      linkColumn_machines _ _
    exact fun _ => rfl

end ModNdb.Config
