import ModNdb.Format.Container
import ModNdb.Format.TokenParse

/-! Which cells read `result_cols` and `aliases` outside the result. A field cell in the
begin or end of a row is printed through `i - 1`, and the cells without a number
have i = 0. -/
namespace ModNdb.Format
open MySQL (Printers)

/-- Every index used so far is one of the result. -/
def Page.Inside (n : Nat) (p : Page) : Prop := ∀ r ∈ p.reads, r < n

/-- A field cell with number 0: its `i - 1` is the last unsigned int. -/
def Cell.ReadsBelow (c : Cell) : Prop := c.elemType ≠ .constString ∧ c.i = 0

/-- `Run` passes from the node to another one through the cores of the main and scan loops. -/
inductive RunsInto (f : OutputFormat) : Nat → Nat → Prop
  | refl (id : Nat) : RunsInto f id id
  | core (id core last : Nat) (n : Node) (parts : LoopParts) (found : f.nodes[id]? = some n)
      (kind : n.kind = .mainLoop ∨ n.kind = .scanLoop) (compiled : n.compiled = .loop parts)
      (next : parts.core = .node core) (rest : RunsInto f core last) : RunsInto f id last

section
variable (printers : Printers) (s : Sentinels) (data : DataOperation)

/-- No row that is run from the node prints a field cell with number 0 in begin or end. -/
def RowsInside (f : OutputFormat) (top : Nat) : Prop :=
  ∀ id n parts, RunsInto f top id → f.nodes[id]? = some n → n.kind = .rowLoop →
    n.compiled = .loop parts → ∀ c ∈ parts.begin.cells s ++ parts.end_.cells s, ¬c.ReadsBelow

variable {data}

theorem print_keeps (n : Nat) (bytes : Text) : Prog.Keeps (Page.Inside n) (print bytes) :=
  Prog.Keeps.modify _ fun _ inside => inside

theorem outAt_keeps (c : Cell) (n : Nat) (below : n < data.nResultCols) :
    Prog.Keeps (Page.Inside data.nResultCols) (c.outAt printers data n) := by
  refine Prog.Keeps.ite (fun _ => print_keeps _ _) fun _ => ?_
  refine Prog.Keeps.bind (Prog.Keeps.modify _ ?_) fun _ => ?_
  · intro p inside r used
    rcases List.mem_append.mp used with old | new
    · exact inside r old
    · rw [List.mem_singleton.mp new]
      exact below
  · cases data.cols[n]? with
    | none => exact Prog.Keeps.pure _
    | some col =>
      have value : Prog.Keeps (Page.Inside data.nResultCols)
          (printResult printers col.column n c.escapes) :=
        Prog.Keeps.modify _ fun _ inside => inside
      refine Prog.Keeps.ite (fun _ => ?_) fun _ => ?_
      · exact Prog.Keeps.ite (fun _ => print_keeps _ _) fun _ => print_keeps _ _
      · refine Prog.Keeps.ite (fun _ => ?_) fun _ => value
        exact (print_keeps _ _).bind fun _ => value.bind fun _ => print_keeps _ _

/-- A numbered cell stays inside: `i - 1` is below the number of columns unless i is 0. -/
theorem outNumbered_keeps (c : Cell) (safe : ¬c.ReadsBelow) :
    Prog.Keeps (Page.Inside data.nResultCols) (c.outNumbered printers data) := by
  refine Prog.Keeps.ite (fun _ => print_keeps _ _) fun field => ?_
  refine Prog.Keeps.ite (fun _ => Prog.Keeps.pure _) fun small => ?_
  refine outAt_keeps printers c _ ?_
  have positive : c.i ≠ 0 := fun zero => safe ⟨field,zero⟩
  have one : 1 ≤ c.i.toNat := by
    rw [Nat.one_le_iff_ne_zero]
    exact fun zero => positive (UInt32.toNat_inj.mp (by simpa using zero))
  have minus : (c.i - 1).toNat = c.i.toNat - 1 := by
    rw [UInt32.toNat_sub_of_le _ _ (UInt32.le_iff_toNat_le.mpr (by simpa using one))]
    rfl
  omega

theorem chainOut_keeps (c : CellPtr) (safe : ∀ cell ∈ c.cells s, ¬cell.ReadsBelow) :
    Prog.Keeps (Page.Inside data.nResultCols) (chainOut printers s data c) :=
  Prog.Keeps.forM fun cell inside => outNumbered_keeps printers cell (safe cell inside)

theorem chainText_keeps (n : Nat) (c : CellPtr) :
    Prog.Keeps (Page.Inside n) (chainText s c) :=
  Prog.Keeps.forM fun _ _ => print_keeps _ _

theorem nextResult_keeps (n : Nat) (fetch : Bool) : Prog.Keeps (Page.Inside n) (nextResult fetch) := by
  intro p inside
  unfold nextResult
  split
  · exact inside
  · split_ifs <;> exact inside
  · exact inside

theorem cachedRows_keeps (n : Nat) (row : Nat → Build Unit)
    (each : ∀ nrows, Prog.Keeps (Page.Inside n) (row nrows)) (fuel nrows : Nat) :
    Prog.Keeps (Page.Inside n) (cachedRows row fuel nrows) := by
  induction fuel generalizing nrows with
  | zero => exact Prog.Keeps.fail _
  | succ fuel ih =>
    refine (each nrows).bind fun _ => (nextResult_keeps n false).bind fun more => ?_
    exact Prog.Keeps.ite (fun _ => ih _) fun _ => Prog.Keeps.pure _

theorem fetchedRows_keeps (n : Nat) (row : Nat → Build Unit)
    (each : ∀ nrows, Prog.Keeps (Page.Inside n) (row nrows)) (fuel nrows : Nat) :
    Prog.Keeps (Page.Inside n) (fetchedRows row fuel nrows) := by
  induction fuel generalizing nrows with
  | zero => exact Prog.Keeps.fail _
  | succ fuel ih =>
    refine (nextResult_keeps n true).bind fun more => ?_
    refine Prog.Keeps.ite (fun _ => ?_) fun _ => Prog.Keeps.pure _
    exact (cachedRows_keeps n row each _ _).bind fun _ => ih _

theorem scanRun_keeps (parts : LoopParts) (core : Build Status) (n : Nat)
    (inner : Prog.Keeps (Page.Inside n) core) :
    Prog.Keeps (Page.Inside n) (scanRun s data parts core) := by
  refine Prog.Keeps.ite (fun _ => ?_) fun _ => inner
  refine Prog.Keeps.get fun p => Prog.Keeps.bind (fetchedRows_keeps n _ (fun nrows => ?_) _ _)
    fun nrows => ?_
  · refine Prog.Keeps.ite (fun _ => ?_) fun _ => ?_
    · exact (print_keeps _ _).bind fun _ => inner.bind fun _ => Prog.Keeps.pure _
    · exact (chainText_keeps s _ _).bind fun _ => inner.bind fun _ => Prog.Keeps.pure _
  · refine Prog.Keeps.ite (fun _ => ?_) fun _ => Prog.Keeps.pure _
    exact (chainText_keeps s _ _).bind fun _ => Prog.Keeps.pure _

theorem nodeOut_keeps (f : OutputFormat) (n : Nat) (core : NodeRef) (below : n < data.nResultCols) :
    Prog.Keeps (Page.Inside data.nResultCols) (nodeOut printers s data f n core) := by
  have column : Prog.Keeps (Page.Inside data.nResultCols) (readColumn n) := by
    refine Prog.Keeps.modify _ fun p inside r used => ?_
    rcases List.mem_append.mp used with old | new
    · exact inside r old
    · rw [List.mem_singleton.mp new]
      exact below
  cases core with
  | theNullNode => exact outAt_keeps printers _ n below
  | node id =>
    cases found : f.nodes[id]? with
    | none =>
      simp only [nodeOut,found]
      exact Prog.Keeps.fail _
    | some node =>
      simp only [nodeOut,found]
      refine Prog.Keeps.ite (fun _ => ?_) fun _ => Prog.Keeps.fail _
      cases node.compiled with
      | no => exact column
      | loop parts => exact column
      | record fmt nullFmt =>
        refine column.bind fun _ => Prog.Keeps.get fun p => ?_
        exact Prog.Keeps.forM fun c _ => outAt_keeps printers c n below

theorem rowRun_keeps (f : OutputFormat) (parts : LoopParts)
    (safe : ∀ c ∈ parts.begin.cells s ++ parts.end_.cells s, ¬c.ReadsBelow) :
    Prog.Keeps (Page.Inside data.nResultCols) (rowRun printers s data f parts) := by
  refine (chainOut_keeps printers s _ fun c inside => safe c (List.mem_append_left _ inside)).bind
    fun _ => Prog.Keeps.bind (Prog.Keeps.forM fun n inside => ?_) fun _ => ?_
  · have column := nodeOut_keeps printers s f n parts.core (List.mem_range.mp inside)
    exact Prog.Keeps.ite (fun _ => (print_keeps _ _).bind fun _ => column) fun _ => column
  · exact (chainOut_keeps printers s _ fun c inside => safe c (List.mem_append_right _ inside)).bind
      fun _ => Prog.Keeps.pure _

theorem nodeRun_keeps (linked : List Cell) (f : OutputFormat) (fuel : Nat) (id : Nat)
    (safe : RowsInside {Sentinels.initial with nullCellNext := linked} f id) :
    Prog.Keeps (Page.Inside data.nResultCols)
      (nodeRun printers {Sentinels.initial with nullCellNext := linked} data f fuel (.node id)) := by
  induction fuel generalizing id with
  | zero => exact Prog.Keeps.fail _
  | succ fuel ih =>
    cases found : f.nodes[id]? with
    | none =>
      simp only [nodeRun,found]
      exact Prog.Keeps.fail _
    | some n =>
      cases compiled : n.compiled with
      | no =>
        simp only [nodeRun,found,compiled]
        exact Prog.Keeps.ite (fun _ => Prog.Keeps.pure _) fun _ => Prog.Keeps.fail _
      | record fmt nullFmt =>
        simp only [nodeRun,found,compiled]
        exact Prog.Keeps.ite (fun _ => Prog.Keeps.pure _) fun _ => Prog.Keeps.fail _
      | loop parts =>
        -- the core of a main or scan loop is run with the rows that it runs into
        have core (kind : n.kind = .mainLoop ∨ n.kind = .scanLoop) :
            Prog.Keeps (Page.Inside data.nResultCols) (nodeRun printers
              {Sentinels.initial with nullCellNext := linked} data f fuel parts.core) := by
          cases next : parts.core with
          | theNullNode =>
            cases fuel with
            | zero => exact Prog.Keeps.fail _
            | succ fuel =>
              exact Prog.Keeps.bind (print_keeps _ _) fun _ => Prog.Keeps.pure _
          | node inner =>
            refine ih inner fun last m parts' into => safe last m parts' ?_
            exact .core id inner last n parts found kind compiled next into
        cases kind : n.kind with
        | mainLoop =>
          simp only [nodeRun,found,compiled,kind]
          exact (print_keeps _ _).bind fun _ => (core (.inl kind)).bind fun _ =>
            (print_keeps _ _).bind fun _ => Prog.Keeps.pure _
        | scanLoop =>
          simp only [nodeRun,found,compiled,kind]
          exact scanRun_keeps _ _ _ _ (core (.inr kind))
        | rowLoop =>
          simp only [nodeRun,found,compiled,kind]
          exact rowRun_keeps printers _ f parts
            (safe id n parts (.refl id) found kind compiled)
        | recAttr =>
          simp only [nodeRun,found,compiled,kind]
          exact Prog.Keeps.fail _

end

def noColumns : DataOperation := ⟨false,[],false,by decide⟩

/-- The index `0 - 1` has been used. -/
def Page.Outside (p : Page) : Prop := 4294967295 ∈ p.reads

section
variable (printers : Printers) (s : Sentinels)

theorem outAt_noColumns (c : Cell) (n : Nat) : c.outAt printers noColumns n =
    if c.elemType = .constString then print c.string else readColumn n := by
  rw [Cell.outAt]
  split_ifs <;> rfl

theorem outNumbered_finishes (c : Cell) :
    Prog.Finishes (fun _ => 0) (c.outNumbered printers noColumns) := by
  refine Prog.Finishes.ite (fun _ => Prog.Finishes.modify _ fun _ => Nat.le_refl _) fun _ => ?_
  refine Prog.Finishes.ite (fun _ => Prog.Finishes.pure _) fun _ => ?_
  rw [outAt_noColumns]
  exact Prog.Finishes.ite (fun _ => Prog.Finishes.modify _ fun _ => Nat.le_refl _)
    fun _ => Prog.Finishes.modify _ fun _ => Nat.le_refl _

theorem print_outside (bytes : Text) : Prog.Keeps Page.Outside (print bytes) :=
  Prog.Keeps.modify _ fun _ used => used

theorem outNumbered_outside (c : Cell) :
    Prog.Keeps Page.Outside (c.outNumbered printers noColumns) := by
  refine Prog.Keeps.ite (fun _ => print_outside _) fun _ => ?_
  refine Prog.Keeps.ite (fun _ => Prog.Keeps.pure _) fun _ => ?_
  rw [outAt_noColumns]
  exact Prog.Keeps.ite (fun _ => print_outside _)
    fun _ => Prog.Keeps.modify _ fun _ used => List.mem_append_left _ used

theorem readsBelow_outside (c : Cell) (below : c.ReadsBelow) (page : Page) :
    (c.outNumbered printers noColumns page).2.Outside := by
  have wraps : (c.i - 1).toNat = 4294967295 := by rw [below.2]; rfl
  have small : ¬noColumns.nResultCols < c.i.toNat := by rw [below.2]; decide
  rw [Cell.outNumbered,if_neg below.1,if_neg small,outAt_noColumns,if_neg below.1,wraps]
  exact List.mem_append_right _ (List.mem_singleton.mpr rfl)

theorem chainOut_establishes (ptr : CellPtr) (c : Cell) (inside : c ∈ ptr.cells s)
    (below : c.ReadsBelow) (page : Page) :
    (chainOut printers s noColumns ptr page).2.Outside :=
  Prog.forM_establishes (fun c _ => outNumbered_finishes printers c)
    (fun c _ => outNumbered_outside printers c) c inside (readsBelow_outside printers c below) page

theorem rowRun_outside (f : OutputFormat) (parts : LoopParts) (c : Cell)
    (inside : c ∈ parts.begin.cells s ++ parts.end_.cells s) (below : c.ReadsBelow) (page : Page) :
    (rowRun printers s noColumns f parts page).2.Outside := by
  have keeps (ptr : CellPtr) : Prog.Keeps Page.Outside (chainOut printers s noColumns ptr) :=
    Prog.Keeps.forM fun c _ => outNumbered_outside printers c
  rcases List.mem_append.mp inside with first | last
  · refine Prog.bind_keeps (chainOut_establishes printers s _ c first below page) fun _ => ?_
    exact (keeps parts.end_).bind fun _ => Prog.Keeps.pure _
  · have finishes : Prog.Finishes (fun _ => 0) (chainOut printers s noColumns parts.begin) :=
      Prog.Finishes.forM fun c _ => outNumbered_finishes printers c
    obtain ⟨_,middle,ran,_⟩ := finishes page
    rw [rowRun,Prog.bind_ok _ ran]
    exact Prog.bind_keeps (x := chainOut printers s noColumns parts.end_)
      (chainOut_establishes printers s _ c last below middle) fun _ => Prog.Keeps.pure _

/-- Without columns every row that is run into prints its begin and its end. -/
theorem nodeRun_outside (f : OutputFormat) (id last : Nat) (n : Node) (parts : LoopParts) (c : Cell)
    (into : RunsInto f id last) (found : f.nodes[last]? = some n) (kind : n.kind = .rowLoop)
    (compiled : n.compiled = .loop parts)
    (inside : c ∈ parts.begin.cells s ++ parts.end_.cells s) (below : c.ReadsBelow) :
    ∃ fuel, ∀ page, (nodeRun printers s noColumns f fuel (.node id) page).2.Outside := by
  induction into with
  | refl id =>
    refine ⟨1,fun page => ?_⟩
    simp only [nodeRun,found,compiled,kind]
    exact rowRun_outside printers s f parts c inside below page
  | core id core last outer outerParts foundOuter kindOuter compiledOuter next _ ih =>
    obtain ⟨fuel,reads⟩ := ih found
    refine ⟨fuel + 1,fun page => ?_⟩
    rcases kindOuter with kindOuter | kindOuter
    · simp only [nodeRun,foundOuter,compiledOuter,kindOuter,next]
      rw [mainRun,Prog.bind_ok _ (print_run _ page)]
      exact Prog.bind_keeps (reads _) fun _ => (print_outside _).bind fun _ => Prog.Keeps.pure _
    · simp only [nodeRun,foundOuter,compiledOuter,kindOuter,next]
      exact reads page

/-- Running a format reads inside the result, for every result, exactly when no row that is
run has a field cell with number 0 in its begin or end. -/
theorem reads_inside_iff (linked : List Cell) (f : OutputFormat) :
    (∀ data fuel page, page.reads = [] →
      ((buildResults printers {Sentinels.initial with nullCellNext := linked} data f fuel) page
        ).2.Inside data.nResultCols) ↔
    ∀ top ∈ f.topNode, RowsInside {Sentinels.initial with nullCellNext := linked} f top := by
  constructor
  · intro inside top top_node id n parts into found kind compiled c member below
    obtain ⟨fuel,reads⟩ := nodeRun_outside printers _ f top id n parts c into found kind compiled
      member below
    let page : Page := ⟨[],[],false,⟨fun _ => ⟨true,[]⟩,[],[]⟩⟩
    have used := inside noColumns fuel page rfl
    rw [buildResults,Option.mem_def.mp top_node] at used
    exact absurd (used _ (reads page)) (by decide)
  · intro safe data fuel page none_read
    have start : page.Inside data.nResultCols := by
      intro r used
      rw [none_read] at used
      cases used
    cases top_node : f.topNode with
    | none =>
      rw [buildResults,top_node]
      exact start
    | some top =>
      rw [buildResults,top_node]
      exact nodeRun_keeps printers linked f fuel top (safe top top_node) page start

end

/-- In the source these cells are `$name$`, `$value$`, and the numbers that are 0 as an
unsigned int. -/
theorem cellOf_readsBelow (l : Lexeme) (cell : l.isCell = true) :
    (cellOf l).ReadsBelow ↔ l.kind = .fieldname ∨ l.kind = .fieldval ∨
      l.kind = .fieldnum ∧ UInt32.ofNat (strtol10 (l.text.drop 1)) = 0 := by
  obtain ⟨kind,txt⟩ := l
  cases kind <;> simp_all [Cell.ReadsBelow,cellOf,Cell.constant,Lexeme.isCell,Token.isCell]

/-- `Format f = "$row$"` and `Row row = "$name$"` -/
def namedRowFormat : OutputFormat :=
  {((OutputFormat.new (text "f")).addSymbol (text "_main") .mainLoop (text "$row$") none).addSymbol
    (text "row") .rowLoop (text "$name$") none with topNode := some 0}

def namedRowCompiled : OutputFormat :=
  {namedRowFormat with nodes := [
    ⟨text "_main",.mainLoop,text "$row$",none,.loop ⟨.theNullCell,.node 1,none,.theNullCell⟩⟩,
    ⟨text "row",.rowLoop,text "$name$",none,
      .loop ⟨.chain ⟨.itemName,.noQuot,.noEsc,0,[]⟩ [],.theNullNode,none,.theNullCell⟩⟩]}

theorem name_in_begin_reads_outside :
    ¬∀ (f g : OutputFormat) (p next : Parser), f.compile p = (.accepted g,next) →
      ∀ printers data fuel page, page.reads = [] →
        ((buildResults printers next.sentinels data g fuel) page).2.Inside data.nResultCols := by
  intro inside
  have texts : namedRowFormat.HasTexts := by
    unfold OutputFormat.HasTexts
    decide
  have parsed : parseAll namedRowFormat.symbols namedRowFormat = some namedRowCompiled := rfl
  rcases ran : namedRowFormat.compile .initial with ⟨result,next⟩
  have accepted := (compile_accepted_iff namedRowFormat namedRowCompiled .initial texts).mpr parsed
  rw [ran] at accepted
  subst accepted
  let page : Page := ⟨[],[],false,⟨fun _ => ⟨true,[]⟩,[],[]⟩⟩
  have row : RunsInto namedRowCompiled 0 1 := .core 0 1 1 _ _ rfl (.inl rfl) rfl rfl (.refl 1)
  obtain ⟨fuel,reads⟩ := nodeRun_outside ⟨id,id,fun _ _ => id⟩ next.sentinels namedRowCompiled 0 1
    _ _ ⟨.itemName,.noQuot,.noEsc,0,[]⟩ row rfl rfl rfl List.mem_cons_self ⟨by decide,rfl⟩
  have used := inside namedRowFormat namedRowCompiled .initial next ran ⟨id,id,fun _ _ => id⟩
    noColumns fuel page rfl
  exact absurd (used _ (reads page)) (by decide)

end ModNdb.Format
