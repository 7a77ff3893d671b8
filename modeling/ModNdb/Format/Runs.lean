import ModNdb.Format.Reads

/-! Which node graphs can be run. `Runs` is the typing that the compiler does not
check: the core of a scan must run in turn, without coming back, and the core of a
row must have an `out`. -/
namespace ModNdb.Format
open MySQL (Printers)

def Node.IsCompiled (n : Node) : Prop :=
  match n.kind, n.compiled with
  | .recAttr, .record _ _ => True
  | .mainLoop, .loop _ | .scanLoop, .loop _ | .rowLoop, .loop _ => True
  | _, _ => False

/-- The calls a row makes on its core: `out` of the null node or of a compiled record. -/
def RowCore (f : OutputFormat) : NodeRef → Prop
  | .theNullNode => True
  | .node id => ∃ n, f.nodes[id]? = some n ∧ n.kind = .recAttr ∧ n.IsCompiled

/-- `Run` of the node ends, and every call on the way is one its object implements. -/
inductive Runs (f : OutputFormat) : NodeRef → Prop
  | null : Runs f .theNullNode
  | row (id : Nat) (n : Node) (parts : LoopParts) (found : f.nodes[id]? = some n)
      (kind : n.kind = .rowLoop) (compiled : n.compiled = .loop parts)
      (core : RowCore f parts.core) : Runs f (.node id)
  | loop (id : Nat) (n : Node) (parts : LoopParts) (found : f.nodes[id]? = some n)
      (kind : n.kind = .mainLoop ∨ n.kind = .scanLoop) (compiled : n.compiled = .loop parts)
      (core : Runs f parts.core) : Runs f (.node id)

inductive Reaches (f : OutputFormat) : Nat → Nat → Prop
  | refl (id : Nat) : Reaches f id id
  | core (id core last : Nat) (n : Node) (parts : LoopParts) (found : f.nodes[id]? = some n)
      (compiled : n.compiled = .loop parts) (next : parts.core = .node core)
      (rest : Reaches f core last) : Reaches f id last

def AllCompiled (f : OutputFormat) (id : Nat) : Prop :=
  ∀ last, Reaches f id last → ∃ n, f.nodes[last]? = some n ∧ n.IsCompiled

def Page.remaining (p : Page) : Nat := p.cursor.remaining

section
variable (printers : Printers) (s : Sentinels) (data : DataOperation)

theorem print_finishes (bytes : Text) : Prog.Finishes Page.remaining (print bytes) :=
  Prog.Finishes.modify _ fun _ => Nat.le_refl _

theorem outAt_finishes (c : Cell) (n : Nat) :
    Prog.Finishes Page.remaining (c.outAt printers data n) := by
  refine Prog.Finishes.ite (fun _ => print_finishes _) fun _ => ?_
  refine Prog.Finishes.bind (Prog.Finishes.modify _ fun _ => Nat.le_refl _) fun _ => ?_
  cases data.cols[n]? with
  | none => exact Prog.Finishes.pure _
  | some col =>
    have value : Prog.Finishes Page.remaining (printResult printers col.column n c.escapes) :=
      Prog.Finishes.modify _ fun _ => Nat.le_refl _
    refine Prog.Finishes.ite (fun _ => ?_) fun _ => ?_
    · exact Prog.Finishes.ite (fun _ => print_finishes _) fun _ => print_finishes _
    · refine Prog.Finishes.ite (fun _ => ?_) fun _ => value
      exact (print_finishes _).bind fun _ => value.bind fun _ => print_finishes _

theorem cell_finishes (c : Cell) :
    Prog.Finishes Page.remaining (c.outNumbered printers data) :=
  Prog.Finishes.ite (fun _ => print_finishes _) fun _ =>
    Prog.Finishes.ite (fun _ => Prog.Finishes.pure _) fun _ => outAt_finishes printers data c _

theorem chainOut_finishes (c : CellPtr) :
    Prog.Finishes Page.remaining (chainOut printers s data c) :=
  Prog.Finishes.forM fun cell _ => cell_finishes printers data cell

theorem chainText_finishes (c : CellPtr) : Prog.Finishes Page.remaining (chainText s c) :=
  Prog.Finishes.forM fun _ _ => print_finishes _

theorem nextResult_cases (fetch : Bool) (p : Page) :
    (∃ q, nextResult fetch p = (.ok true,q) ∧ q.remaining < p.remaining) ∨
    nextResult fetch p = (.ok false,p) := by
  obtain ⟨bytes,reads,outside,current,cached,later⟩ := p
  cases cached with
  | cons row cached =>
    refine .inl ⟨_,rfl,?_⟩
    simp [Page.remaining,Cursor.remaining]
  | nil =>
    cases later with
    | nil => exact .inr rfl
    | cons batch later =>
      obtain ⟨row,cached⟩ := batch
      cases fetch with
      | false => exact .inr rfl
      | true =>
        refine .inl ⟨_,rfl,?_⟩
        simp only [Page.remaining,Cursor.remaining,List.map_cons,List.sum_cons,List.length_nil]
        omega

theorem cachedRows_finishes (row : Nat → Build Unit)
    (each : ∀ nrows, Prog.Finishes Page.remaining (row nrows)) (fuel nrows : Nat) (p : Page)
    (enough : p.remaining < fuel) :
    ∃ total q, cachedRows row fuel nrows p = (.ok total,q) ∧ q.remaining ≤ p.remaining := by
  induction fuel generalizing nrows p with
  | zero => omega
  | succ fuel ih =>
    obtain ⟨_,q,printed,below⟩ := each nrows p
    rw [cachedRows,Prog.bind_ok _ printed]
    rcases nextResult_cases false q with ⟨r,more,fewer⟩ | ended
    · rw [Prog.bind_ok _ more]
      obtain ⟨total,last,ran,below'⟩ := ih (nrows + 1) r (by omega)
      exact ⟨total,last,ran,by omega⟩
    · rw [Prog.bind_ok _ ended]
      exact ⟨nrows + 1,q,rfl,below⟩

theorem fetchedRows_finishes (row : Nat → Build Unit)
    (each : ∀ nrows, Prog.Finishes Page.remaining (row nrows)) (fuel nrows : Nat) (p : Page)
    (enough : p.remaining < fuel) :
    ∃ total q, fetchedRows row fuel nrows p = (.ok total,q) ∧ q.remaining ≤ p.remaining := by
  induction fuel generalizing nrows p with
  | zero => omega
  | succ fuel ih =>
    rw [fetchedRows]
    rcases nextResult_cases true p with ⟨q,more,fewer⟩ | ended
    · rw [Prog.bind_ok _ more]
      obtain ⟨rows,r,printed,below⟩ := cachedRows_finishes row each (fuel + 1) nrows q (by omega)
      obtain ⟨total,last,ran,below'⟩ := ih rows r (by omega)
      refine ⟨total,last,?_,by omega⟩
      rw [if_pos rfl,Prog.bind_ok _ printed]
      exact ran
    · rw [Prog.bind_ok _ ended]
      exact ⟨nrows,p,rfl,Nat.le_refl _⟩

theorem scanRun_finishes (parts : LoopParts) (core : Build Status)
    (inner : Prog.Finishes Page.remaining core) :
    Prog.Finishes Page.remaining (scanRun s data parts core) := by
  refine Prog.Finishes.ite (fun _ => ?_) fun _ => inner
  intro p
  have rows := fetchedRows_finishes (scanRow s parts core) (fun nrows => Prog.Finishes.ite
      (fun _ => (print_finishes _).bind fun _ => inner.bind fun _ => Prog.Finishes.pure _)
      (fun _ => (chainText_finishes s _).bind fun _ => inner.bind fun _ => Prog.Finishes.pure _))
    (p.cursor.remaining + 1) 0 p (Nat.lt_succ_self _)
  obtain ⟨nrows,q,ran,below⟩ := rows
  have last : Prog.Finishes Page.remaining (do
      if nrows ≠ 0 then chainText s parts.end_
      return (if nrows ≠ 0 then .ok else .notFound : Status)) :=
    Prog.Finishes.ite (fun _ => (chainText_finishes s _).bind fun _ => Prog.Finishes.pure _)
      fun _ => Prog.Finishes.pure _
  obtain ⟨status,r,ran',below'⟩ := last q
  refine ⟨status,r,?_,Nat.le_trans below' below⟩
  rw [Prog.bind_ok _ (Prog.get_run p),Prog.bind_ok _ ran]
  exact ran'

theorem nodeOut_finishes (f : OutputFormat) (n : Nat) (core : NodeRef) (implemented : RowCore f core) :
    Prog.Finishes Page.remaining (nodeOut printers s data f n core) := by
  cases core with
  | theNullNode => exact outAt_finishes printers data _ n
  | node id =>
    obtain ⟨node,found,kind,compiled⟩ := implemented
    simp only [nodeOut,found,if_pos kind]
    have column : Prog.Finishes Page.remaining (readColumn n) :=
      Prog.Finishes.modify _ fun _ => Nat.le_refl _
    cases node.compiled with
    | no => exact column
    | loop parts => exact column
    | record fmt nullFmt =>
      refine column.bind fun _ => Prog.Finishes.get fun p => ?_
      exact Prog.Finishes.forM fun c _ => outAt_finishes printers data c n

theorem rowRun_finishes (f : OutputFormat) (parts : LoopParts) (core : RowCore f parts.core) :
    Prog.Finishes Page.remaining (rowRun printers s data f parts) := by
  refine (chainOut_finishes printers s data _).bind fun _ =>
    Prog.Finishes.bind (Prog.Finishes.forM fun n _ => ?_) fun _ =>
      (chainOut_finishes printers s data _).bind fun _ => Prog.Finishes.pure _
  have column := nodeOut_finishes printers s data f n parts.core core
  exact Prog.Finishes.ite (fun _ => (print_finishes _).bind fun _ => column) fun _ => column

theorem runs_finishes (f : OutputFormat) (ref : NodeRef) (runs : Runs f ref) :
    ∃ fuel, Prog.Finishes Page.remaining (nodeRun printers s data f fuel ref) := by
  induction runs with
  | null =>
    exact ⟨1,(cell_finishes printers data _).bind fun _ => Prog.Finishes.pure _⟩
  | row id n parts found kind compiled core =>
    refine ⟨1,?_⟩
    unfold nodeRun
    simp only [found,compiled,kind]
    exact rowRun_finishes printers s data f parts core
  | loop id n parts found kind compiled _ ih =>
    obtain ⟨fuel,inner⟩ := ih
    refine ⟨fuel + 1,?_⟩
    unfold nodeRun
    rcases kind with kind | kind
    · simp only [found,compiled,kind]
      exact (print_finishes _).bind fun _ => inner.bind fun _ =>
        (print_finishes _).bind fun _ => Prog.Finishes.pure _
    · simp only [found,compiled,kind]
      exact scanRun_finishes s data parts _ inner

end

def oneColumn : DataOperation := ⟨false,[⟨⟨[],.int,0,0⟩,[]⟩],false,by decide⟩

theorem reaches_compiled (f : OutputFormat) (ref : NodeRef) (runs : Runs f ref) (id : Nat)
    (here : ref = .node id) : AllCompiled f id := by
  induction runs generalizing id with
  | null => cases here
  | row id' n parts found kind compiled core =>
    obtain rfl := NodeRef.node.inj here
    intro last reaches
    cases reaches with
    | refl => exact ⟨n,found,by simp [Node.IsCompiled,kind,compiled]⟩
    | core _ inner _ n' parts' found' compiled' next rest =>
      obtain rfl : n = n' := Option.some.inj (found.symm.trans found')
      obtain rfl : parts = parts' := Compiled.loop.inj (compiled.symm.trans compiled')
      rw [next] at core
      obtain ⟨record,foundRecord,isRecord,done⟩ := core
      cases rest with
      | refl => exact ⟨record,foundRecord,done⟩
      | core _ _ _ m parts'' foundM compiledM _ _ =>
        obtain rfl : record = m := Option.some.inj (foundRecord.symm.trans foundM)
        simp [Node.IsCompiled,isRecord,compiledM] at done
  | loop id' n parts found kind compiled _ ih =>
    obtain rfl := NodeRef.node.inj here
    intro last reaches
    cases reaches with
    | refl => exact ⟨n,found,by rcases kind with kind | kind <;> simp [Node.IsCompiled,kind,compiled]⟩
    | core _ inner _ n' parts' found' compiled' next rest =>
      obtain rfl : n = n' := Option.some.inj (found.symm.trans found')
      obtain rfl : parts = parts' := Compiled.loop.inj (compiled.symm.trans compiled')
      exact ih inner next last rest

section
variable (printers : Printers) (s : Sentinels)

theorem nodeOut_implemented (f : OutputFormat) (n : Nat) (core : NodeRef) (p q : Page)
    (ran : nodeOut printers s oneColumn f n core p = (.ok (),q))
    (compiled : ∀ id, core = .node id → AllCompiled f id) : RowCore f core := by
  cases core with
  | theNullNode => trivial
  | node id =>
    obtain ⟨node,found,done⟩ := compiled id rfl id (.refl id)
    refine ⟨node,found,?_,done⟩
    by_contra other
    simp only [nodeOut,found,if_neg other] at ran
    cases (Prod.mk.inj ran).1

/-- A row with a column calls `out` on its core. -/
theorem rowRun_implemented (f : OutputFormat) (parts : LoopParts) (p q : Page) (status : Status)
    (ran : rowRun printers s oneColumn f parts p = (.ok status,q))
    (compiled : ∀ id, parts.core = .node id → AllCompiled f id) : RowCore f parts.core := by
  obtain ⟨_,first,_,ran⟩ := Prog.bind_inv ran
  obtain ⟨_,_,columns,_⟩ := Prog.bind_inv ran
  obtain ⟨_,after,column,_⟩ := Prog.bind_inv
    (x := nodeOut printers s oneColumn f 0 parts.core) (f := fun _ => List.forM [] _) columns
  exact nodeOut_implemented printers s f 0 parts.core first after column compiled

theorem ran_runs (f : OutputFormat) (fuel : Nat) (ref : NodeRef) (p q : Page) (status : Status)
    (ran : nodeRun printers s oneColumn f fuel ref p = (.ok status,q))
    (compiled : ∀ id, ref = .node id → AllCompiled f id) : Runs f ref := by
  induction fuel generalizing ref p q status with
  | zero => cases (Prod.mk.inj ran).1
  | succ fuel ih =>
    cases ref with
    | theNullNode => exact .null
    | node id =>
      obtain ⟨n,found,done⟩ := compiled id rfl id (.refl id)
      unfold nodeRun at ran
      simp only [found] at ran
      cases parts : n.compiled with
      | no => cases kind : n.kind <;> simp [Node.IsCompiled,kind,parts] at done
      | record fmt nullFmt =>
        simp only [parts] at ran
        cases kind : n.kind with
        | recAttr => simp [kind] at ran
        | mainLoop => simp [Node.IsCompiled,kind,parts] at done
        | scanLoop => simp [Node.IsCompiled,kind,parts] at done
        | rowLoop => simp [Node.IsCompiled,kind,parts] at done
      | loop parts' =>
        have inner : ∀ core, parts'.core = .node core → AllCompiled f core :=
          fun core next last rest => compiled id rfl last (.core id core last n parts' found parts
            next rest)
        cases kind : n.kind with
        | mainLoop =>
          simp only [parts,kind] at ran
          obtain ⟨_,_,_,ran⟩ := Prog.bind_inv ran
          obtain ⟨_,_,ran,_⟩ := Prog.bind_inv ran
          exact .loop id n parts' found (.inl kind) parts (ih _ _ _ _ ran inner)
        | scanLoop =>
          simp only [parts,kind] at ran
          exact .loop id n parts' found (.inr kind) parts (ih _ _ _ _ ran inner)
        | rowLoop =>
          simp only [parts,kind] at ran
          exact .row id n parts' found kind parts
            (rowRun_implemented printers s f parts' p q status ran inner)
        | recAttr => simp [parts,kind] at ran

/-- Building results ends for every result, with every call implemented and every node that
is reached compiled, exactly when the top node `Runs`. -/
theorem build_results_iff (f : OutputFormat) :
    ((∀ data page, ∃ fuel status page',
        buildResults printers s data f fuel page = (.ok status,page')) ∧
      ∀ top ∈ f.topNode, AllCompiled f top) ↔
    ∀ top ∈ f.topNode, Runs f (.node top) := by
  constructor
  · rintro ⟨ends,compiled⟩ top top_node
    obtain ⟨fuel,status,q,ran⟩ := ends oneColumn ⟨[],[],false,⟨fun _ => ⟨true,[]⟩,[],[]⟩⟩
    rw [buildResults,Option.mem_def.mp top_node] at ran
    refine ran_runs printers s f fuel (.node top) _ q status ran fun id here => ?_
    obtain rfl := NodeRef.node.inj here
    exact compiled top top_node
  · intro runs
    refine ⟨fun data page => ?_,fun top top_node =>
      reaches_compiled f (.node top) (runs top top_node) top rfl⟩
    cases top_node : f.topNode with
    | none => exact ⟨0,.ok,page,by rw [buildResults,top_node]; rfl⟩
    | some top =>
      obtain ⟨fuel,finishes⟩ := runs_finishes printers s data f (.node top) (runs top top_node)
      obtain ⟨status,q,ran,_⟩ := finishes page
      exact ⟨fuel,status,q,by rw [buildResults,top_node]; exact ran⟩

end

/-- `Format f = "$s$"` and `Scan s = "[$s$ ...]"` -/
def selfScanLines : List Line :=
  [[text "Format",text "f",text "=",text "$s$"],[text "Scan",text "s",text "=",text "[$s$ ...]"]]

def selfScanBuilt : OutputFormat :=
  {((OutputFormat.new (text "f")).addSymbol (text "_main") .mainLoop (text "$s$") none).addSymbol
    (text "s") .scanLoop (text "[$s$ ...]") none with topNode := some 0}

def selfScanCompiled : OutputFormat :=
  {selfScanBuilt with nodes := [
    ⟨text "_main",.mainLoop,text "$s$",none,.loop ⟨.theNullCell,.node 1,none,.theNullCell⟩⟩,
    ⟨text "s",.scanLoop,text "[$s$ ...]",none,.loop
      ⟨.chain (Cell.constant (text "[")) [],.node 1,some (text " "),
        .chain (Cell.constant (text "]")) []⟩⟩]}

theorem selfScan_accepted (server : Server) (free : ∀ key, server.names key = none) :
    ∃ server', resultFmtContainer (text "f") true selfScanLines server =
      some (.ok selfScanCompiled,server') := by
  have texts : selfScanBuilt.HasTexts := by
    unfold OutputFormat.HasTexts
    decide
  have parsed : parseAll selfScanBuilt.symbols selfScanBuilt = some selfScanCompiled := rfl
  refine resultFmtContainer_accepts (text "f") selfScanLines server selfScanBuilt selfScanCompiled
    rfl (by decide) ((compile_accepted_iff _ _ _ texts).mpr parsed) fun existing found => ?_
  simp [Server.formatByName,free] at found

/-- On a single row a scan that is its own core runs itself. -/
theorem selfScan_never_ends (printers : Printers) (s : Sentinels) (fuel : Nat) (page : Page) :
    (nodeRun printers s oneColumn selfScanCompiled fuel (.node 1) page).1 = .error .outOfFuel := by
  induction fuel with
  | zero => rfl
  | succ fuel ih => exact ih

theorem accepted_scan_never_ends :
    ¬∀ (name : Text) (lines : List Line) (server server' : Server) (f : OutputFormat),
      resultFmtContainer name true lines server = some (.ok f,server') →
      ∀ printers s data page, ∃ fuel status page',
        buildResults printers s data f fuel page = (.ok status,page') := by
  intro ends
  obtain ⟨server',accepted⟩ := selfScan_accepted ⟨.initial,[],fun _ => none⟩ fun _ => rfl
  obtain ⟨fuel,status,page',ran⟩ := ends _ _ _ server' _ accepted ⟨id,id,fun _ _ => id⟩ .initial
    oneColumn ⟨[],[],false,⟨fun _ => ⟨true,[]⟩,[],[]⟩⟩
  cases fuel with
  | zero => cases (Prod.mk.inj ran).1
  | succ fuel =>
    obtain ⟨_,begun,_,ran⟩ := Prog.bind_inv (x := print []) (f := fun _ => do
      let status ← nodeRun _ .initial oneColumn selfScanCompiled fuel (.node 1)
      print []
      return status) ran
    obtain ⟨inner,_,ran,_⟩ := Prog.bind_inv ran
    have never := selfScan_never_ends ⟨id,id,fun _ _ => id⟩ .initial fuel begun
    exact absurd ((congrArg Prod.fst ran).symm.trans never) (by simp)

end ModNdb.Format
