import ModNdb.Format.Spelling

/-! The nodes of a format by their names: what the symbol table finds, whatever order its
buckets have, and that the compilation depends on nothing else. -/
namespace ModNdb.Format

def Node.defined (n : Node) : Node := {n with compiled := .no}

namespace OutputFormat
variable (f : OutputFormat)

def definition (id : Nat) : Option Node := (f.nodes[id]?).map Node.defined

def source (name : Text) : Option Node := (f.symbol name).bind f.definition

def top : Option Node := f.topNode.bind f.definition

def tableNodes : List Node := f.symbols.filterMap fun id => f.nodes[id]?

/-- Each entry of the symbol table is in the bucket of its name, and is what that name finds. -/
def Tabled : Prop := ∀ h, ∀ id ∈ f.symbolTable h,
  ∃ n, f.nodes[id]? = some n ∧ hash n.name = h ∧ f.symbol n.name = some id

variable {f}

theorem symbol_entry {name : Text} {id : Nat} (known : f.symbol name = some id) :
    id ∈ f.symbolTable (hash name) ∧ ∃ n, f.nodes[id]? = some n ∧ n.name = name := by
  refine ⟨List.mem_of_find?_eq_some known,?_⟩
  have named : f.nameOf id = some name := symbol_named f name id known
  obtain ⟨n,found,same⟩ := Option.map_eq_some_iff.mp named
  exact ⟨n,found,same⟩

theorem nameOf_grown (n : Node) (id : Nat) (inside : id < f.nodes.length) :
    ((f.nodes ++ [n])[id]?).map Node.name = f.nameOf id := by
  unfold nameOf
  rw [List.getElem?_append_left inside]

theorem entry_bound {h : Fin 16} {id : Nat} (tabled : f.Tabled) (entry : id ∈ f.symbolTable h) :
    id < f.nodes.length := by
  obtain ⟨n,found,-⟩ := tabled h id entry
  exact (List.getElem?_eq_some_iff.mp found).1

theorem addSymbol_nodes (f : OutputFormat) (name : Text) (kind : NodeKind) (source : Text)
    (source2 : Option Text) : (f.addSymbol name kind source source2).nodes =
      f.nodes ++ [⟨name,kind,source,source2,.no⟩] := by
  unfold addSymbol
  cases f.symbol name <;> rfl

section
variable (tabled : f.Tabled) (name : Text) (kind : NodeKind) (source : Text) (source2 : Option Text)
include tabled

theorem find_grown (n : Node) (x : Text) (h : Fin 16) :
    (f.symbolTable h).find? (fun id => ((f.nodes ++ [n])[id]?).map Node.name == some x) =
      (f.symbolTable h).find? fun id => f.nameOf id == some x := by
  apply List.find?_congr
  intro id entry
  rw [nameOf_grown n id (entry_bound tabled entry)]

theorem addSymbol_symbol (x : Text) : (f.addSymbol name kind source source2).symbol x =
    if f.symbol name = none ∧ x = name then some f.nodes.length else f.symbol x := by
  have new : ((f.nodes ++ [⟨name,kind,source,source2,.no⟩])[f.nodes.length]?).map Node.name =
      some name := by
    rw [List.getElem?_concat_length]
    rfl
  have old := find_grown tabled ⟨name,kind,source,source2,.no⟩ x (hash x)
  unfold addSymbol
  cases taken : f.symbol name with
  | some _ =>
    rw [if_neg fun both => nomatch both.1]
    exact old
  | none =>
    dsimp only
    unfold symbol nameOf
    dsimp only
    by_cases same : x = name
    · subst same
      rw [if_pos ⟨rfl,rfl⟩,Function.update_self,List.find?_cons_of_pos (by rw [new]; exact beq_self_eq_true _)]
    · rw [if_neg fun both => same both.2]
      by_cases bucket : hash x = hash name
      · rw [bucket,Function.update_self,List.find?_cons_of_neg (by
          rw [new,beq_iff_eq]
          exact fun both => same (Option.some.inj both).symm),← bucket]
        exact old
      · rw [Function.update_of_ne bucket]
        exact old

theorem addSymbol_tabled : (f.addSymbol name kind source source2).Tabled := by
  intro h id entry
  have nodes := addSymbol_nodes f name kind source source2
  have old (entry : id ∈ f.symbolTable h) : ∃ n,
      (f.addSymbol name kind source source2).nodes[id]? = some n ∧ hash n.name = h ∧
        (f.addSymbol name kind source source2).symbol n.name = some id := by
    obtain ⟨n,found,bucket,known⟩ := tabled h id entry
    refine ⟨n,?_,bucket,?_⟩
    · rw [nodes,List.getElem?_append_left (entry_bound tabled entry)]
      exact found
    · rw [addSymbol_symbol tabled,if_neg]
      · exact known
      · rintro ⟨free,same⟩
        rw [same,free] at known
        cases known
  cases taken : f.symbol name with
  | some _ =>
    unfold addSymbol at entry
    rw [taken] at entry
    exact old entry
  | none =>
    have table : (f.addSymbol name kind source source2).symbolTable =
        Function.update f.symbolTable (hash name) (f.nodes.length :: f.symbolTable (hash name)) := by
      unfold addSymbol
      rw [taken]
    rw [table] at entry
    by_cases bucket : h = hash name
    · rw [bucket,Function.update_self,List.mem_cons] at entry
      rcases entry with rfl | entry
      · refine ⟨⟨name,kind,source,source2,.no⟩,?_,bucket.symm,?_⟩
        · rw [nodes]
          exact List.getElem?_concat_length
        · rw [addSymbol_symbol tabled,if_pos ⟨taken,rfl⟩]
      · rw [← bucket] at entry
        exact old entry
    · rw [Function.update_of_ne bucket] at entry
      exact old entry

theorem addSymbol_source (x : Text) : (f.addSymbol name kind source source2).source x =
    if f.symbol name = none ∧ x = name then some ⟨name,kind,source,source2,.no⟩ else f.source x := by
  have nodes := addSymbol_nodes f name kind source source2
  unfold OutputFormat.source definition
  rw [addSymbol_symbol tabled,nodes]
  by_cases fresh : f.symbol name = none ∧ x = name
  · rw [if_pos fresh,if_pos fresh,Option.bind_some,List.getElem?_concat_length]
    rfl
  · rw [if_neg fresh,if_neg fresh]
    cases known : f.symbol x with
    | none => rfl
    | some id =>
      rw [Option.bind_some,Option.bind_some,
        List.getElem?_append_left (entry_bound tabled (symbol_entry known).1)]

end

theorem new_tabled (name : Text) : (OutputFormat.new name).Tabled := fun _ _ entry => nomatch entry

def addNode (f : OutputFormat) (n : Node) : OutputFormat :=
  f.addSymbol n.name n.kind n.unresolved n.unresolved2

theorem addNode_definition (n : Node) (id : Nat) : (f.addNode n).definition id =
    if id = f.nodes.length then some n.defined else f.definition id := by
  unfold addNode definition
  rw [addSymbol_nodes]
  by_cases new : id = f.nodes.length
  · rw [if_pos new,new,List.getElem?_concat_length]
    rfl
  · rw [if_neg new]
    by_cases old : id < f.nodes.length
    · rw [List.getElem?_append_left old]
    · have outside : f.nodes.length + 1 ≤ id := by omega
      have grown : (f.nodes ++ [Node.mk n.name n.kind n.unresolved n.unresolved2 .no]).length ≤ id := by
        rw [List.length_append]
        exact outside
      rw [List.getElem?_eq_none grown,List.getElem?_eq_none (by omega)]

theorem definition_bound {id : Nat} {n : Node} (known : f.definition id = some n) :
    id < f.nodes.length := by
  obtain ⟨m,found,-⟩ := Option.map_eq_some_iff.mp known
  exact (List.getElem?_eq_some_iff.mp found).1

theorem addNode_kept (n : Node) :
    (f.addNode n).name = f.name ∧ (f.addNode n).topNode = f.topNode := by
  unfold addNode addSymbol
  cases f.symbol n.name <;> exact ⟨rfl,rfl⟩

/-- Nodes that are added leave the name of a format and its top node as they are. -/
theorem addAll_kept (ns : List Node) (f : OutputFormat) (id : Nat) (n : Node)
    (topped : f.topNode = some id) (known : f.definition id = some n) :
    (ns.foldl addNode f).name = f.name ∧ (ns.foldl addNode f).top = some n := by
  induction ns generalizing f with
  | nil =>
    refine ⟨rfl,?_⟩
    unfold top
    rw [List.foldl_nil,topped]
    exact known
  | cons m ns ih =>
    have kept := addNode_kept (f := f) m
    have old : (f.addNode m).definition id = some n := by
      rw [addNode_definition,if_neg (by have := definition_bound known; omega)]
      exact known
    obtain ⟨named,top⟩ := ih (f.addNode m) (kept.2.trans topped) old
    exact ⟨named.trans kept.1,top⟩

theorem source_none (name : Text) :
    f.source name = none ↔ f.symbol name = none := by
  unfold source definition
  cases known : f.symbol name with
  | none => exact iff_of_true rfl rfl
  | some id =>
    obtain ⟨-,n,found,-⟩ := symbol_entry known
    rw [Option.bind_some,found]
    exact iff_of_false (by simp) (by simp)

/-- Nodes that are added one after the other: of those with one name, the first one counts. -/
theorem addAll_source (ns : List Node) (tabled : f.Tabled) (x : Text) :
    (ns.foldl addNode f).source x = (f.source x).or ((ns.find? fun n => n.name == x).map Node.defined) ∧
      (ns.foldl addNode f).Tabled := by
  induction ns generalizing f with
  | nil => exact ⟨(Option.or_none).symm,tabled⟩
  | cons n ns ih =>
    have tabled' := addSymbol_tabled tabled n.name n.kind n.unresolved n.unresolved2
    obtain ⟨added,tabled''⟩ := ih tabled'
    refine ⟨?_,tabled''⟩
    rw [List.foldl_cons,addNode,added,addSymbol_source tabled]
    by_cases same : n.name = x
    · rw [List.find?_cons_of_pos (by simpa using same)]
      by_cases free : f.symbol n.name = none
      · have nothing : f.source x = none := by
          rw [← same,source_none]
          exact free
        rw [if_pos ⟨free,same.symm⟩,nothing]
        rfl
      · rw [if_neg fun both => free both.1]
        obtain ⟨m,found⟩ : ∃ m, f.source x = some m := by
          rw [← same,← Option.ne_none_iff_exists',Ne,source_none]
          exact free
        rw [found]
        rfl
    · rw [if_neg fun both => same both.2.symm,List.find?_cons_of_neg (by simpa using same)]

theorem mem_tableNodes (tabled : f.Tabled) (n : Node) : n ∈ f.tableNodes ↔
    ∃ id, f.symbol n.name = some id ∧ f.nodes[id]? = some n := by
  unfold tableNodes symbols
  simp only [List.mem_filterMap,List.mem_flatMap,List.mem_finRange,true_and]
  constructor
  · rintro ⟨id,⟨h,entry⟩,found⟩
    obtain ⟨m,found',-,known⟩ := tabled h id entry
    obtain rfl := Option.some.inj (found.symm.trans found')
    exact ⟨id,known,found⟩
  · rintro ⟨id,known,found⟩
    exact ⟨id,⟨_,(symbol_entry known).1⟩,found⟩

theorem source_node (tabled : f.Tabled) (n : Node) (inside : n ∈ f.tableNodes) :
    f.source n.name = some n.defined := by
  obtain ⟨id,known,found⟩ := (mem_tableNodes tabled n).mp inside
  unfold source definition
  rw [known,Option.bind_some,found]
  rfl

theorem source_find (tabled : f.Tabled) (p : Node → Bool) (x : Text)
    (asked : ∀ n : Node, n.name = x → p n = true) :
    f.source x = ((f.tableNodes.filter p).find? fun n => n.name == x).map Node.defined := by
  cases found : (f.tableNodes.filter p).find? fun n => n.name == x with
  | some n =>
    have inside := List.mem_of_mem_filter (List.mem_of_find?_eq_some found)
    have same : n.name = x := by simpa using List.find?_some found
    rw [← same,source_node tabled n inside]
    rfl
  | none =>
    refine (source_none x).mpr ?_
    by_contra some_node
    obtain ⟨id,known⟩ := Option.ne_none_iff_exists'.mp some_node
    obtain ⟨-,n,there,named⟩ := symbol_entry known
    have inside : n ∈ f.tableNodes := (mem_tableNodes tabled n).mpr ⟨id,by rw [named,known],there⟩
    have missing := List.find?_eq_none.mp found n (List.mem_filter.mpr ⟨inside,asked n named⟩)
    exact missing (by simpa using named)

structure SameText (f g : OutputFormat) : Prop where
  name : g.name = f.name
  topNode : g.topNode = f.topNode
  canOverride : g.canOverride = f.canOverride
  isRaw : g.isRaw = f.isRaw
  symbolTable : g.symbolTable = f.symbolTable
  definition : ∀ id, g.definition id = f.definition id

theorem SameText.refl (f : OutputFormat) : SameText f f := ⟨rfl,rfl,rfl,rfl,rfl,fun _ => rfl⟩

theorem SameText.trans {f g h : OutputFormat} (first : SameText f g) (second : SameText g h) :
    SameText f h where
  name := second.name.trans first.name
  topNode := second.topNode.trans first.topNode
  canOverride := second.canOverride.trans first.canOverride
  isRaw := second.isRaw.trans first.isRaw
  symbolTable := second.symbolTable.trans first.symbolTable
  definition := fun id => (second.definition id).trans (first.definition id)

theorem setCompiled_text (f : OutputFormat) (id : Nat) (c : Compiled) :
    SameText f (f.setCompiled id c) := by
  refine ⟨rfl,rfl,rfl,rfl,rfl,fun other => ?_⟩
  unfold definition setCompiled
  dsimp only
  rw [List.getElem?_modify]
  cases f.nodes[other]? with
  | none => split_ifs <;> rfl
  | some n => split_ifs <;> rfl

section
variable {g : OutputFormat} (same : SameText f g)
include same

theorem SameText.symbol (name : Text) : g.symbol name = f.symbol name := by
  have named (id : Nat) : g.nameOf id = f.nameOf id := by
    have both := congrArg (Option.map Node.name) (same.definition id)
    unfold OutputFormat.definition at both
    rw [Option.map_map,Option.map_map] at both
    exact both
  unfold OutputFormat.symbol
  rw [same.symbolTable]
  simp only [named]

theorem SameText.source (name : Text) : g.source name = f.source name := by
  unfold OutputFormat.source
  rw [same.symbol]
  exact Option.bind_congr fun id _ => same.definition id

theorem SameText.top : g.top = f.top := by
  unfold OutputFormat.top
  rw [same.topNode]
  exact Option.bind_congr fun id _ => same.definition id

theorem SameText.tabled (tabled : f.Tabled) : g.Tabled := by
  intro h id entry
  rw [same.symbolTable] at entry
  obtain ⟨n,found,bucket,known⟩ := tabled h id entry
  have both := same.definition id
  unfold OutputFormat.definition at both
  rw [found] at both
  obtain ⟨m,found',defined⟩ := Option.map_eq_some_iff.mp both
  have named : m.defined.name = n.defined.name := congrArg Node.name defined
  replace named : m.name = n.name := named
  exact ⟨m,found',by rw [named]; exact bucket,by rw [named,same.symbol]; exact known⟩

end

end OutputFormat

section
variable (f g : OutputFormat) (names : ∀ x, f.source x = g.source x)
include names

theorem symbol_both (x : Text) : f.symbol x = none ∧ g.symbol x = none ∨
    ∃ id other, f.symbol x = some id ∧ g.symbol x = some other ∧
      f.definition id = g.definition other := by
  have same := names x
  cases known : f.symbol x with
  | none =>
    have nothing : f.source x = none := (OutputFormat.source_none x).mpr known
    rw [nothing] at same
    exact .inl ⟨rfl,(OutputFormat.source_none x).mp same.symm⟩
  | some id =>
    cases known' : g.symbol x with
    | none =>
      have nothing : g.source x = none := (OutputFormat.source_none x).mpr known'
      rw [nothing,OutputFormat.source_none,known] at same
      cases same
    | some other =>
      unfold OutputFormat.source at same
      rw [known,known',Option.bind_some,Option.bind_some] at same
      exact .inr ⟨id,other,rfl,rfl,same⟩

theorem nodeOf_both (ls : List Lexeme) (ending : Ending) :
    nodeOf f ls ending = none ∧ nodeOf g ls ending = none ∨
    (∃ rest, nodeOf f ls ending = some (.theNullNode,rest) ∧
      nodeOf g ls ending = some (.theNullNode,rest)) ∨
    ∃ id other rest, nodeOf f ls ending = some (.node id,rest) ∧
      nodeOf g ls ending = some (.node other,rest) ∧ f.definition id = g.definition other := by
  cases ls with
  | nil =>
    unfold nodeOf
    by_cases open_ : ending = .unterminated
    · exact .inl ⟨if_pos open_,if_pos open_⟩
    · exact .inr (.inl ⟨[],if_neg open_,if_neg open_⟩)
  | cons l ls =>
    unfold nodeOf
    dsimp only
    by_cases node : l.kind = .node
    · rw [if_pos node,if_pos node]
      rcases symbol_both f g names l.symbol with ⟨none,none'⟩ | ⟨id,other,known,known',same⟩
      · rw [none,none']
        exact .inl ⟨rfl,rfl⟩
      · rw [known,known']
        exact .inr (.inr ⟨id,other,ls,rfl,rfl,same⟩)
    · exact .inr (.inl ⟨ls,if_neg node,if_neg node⟩)

omit names in
theorem isLoopNode_definition {id other : Nat} (same : f.definition id = g.definition other) :
    f.isLoopNode id = g.isLoopNode other := by
  have kinds := congrArg (Option.map Node.kind) same
  unfold OutputFormat.definition at kinds
  rw [Option.map_map,Option.map_map] at kinds
  have kinds : f.kindOf id = g.kindOf other := kinds
  unfold OutputFormat.isLoopNode
  rw [kinds]

omit names in
theorem tailParse_isSome (begin : CellPtr) (core core' : NodeRef) (ls : List Lexeme)
    (ending : Ending) (s : Sentinels) :
    (tailParse begin core ls ending s).1.isSome = (tailParse begin core' ls ending s).1.isSome := by
  unfold tailParse endParse
  cases (sepOf ls).2 with
  | nil => rfl
  | cons dots rest =>
    dsimp only
    split_ifs <;> rfl

theorem loopParse_isSome (ls : List Lexeme) (ending : Ending) (s : Sentinels) :
    (loopParse f ls ending s).1.isSome = (loopParse g ls ending s).1.isSome := by
  unfold loopParse
  dsimp only
  rcases nodeOf_both f g names (chainOf ls).rest ending with
    ⟨read,read'⟩ | ⟨rest,read,read'⟩ | ⟨id,other,rest,read,read',-⟩
  · rw [read,read']
  · rw [read,read']
  · rw [read,read']
    exact tailParse_isSome _ (.node id) (.node other) rest ending _

theorem mainParse_isSome (ls : List Lexeme) (ending : Ending) :
    (mainParse f ls ending).isSome = (mainParse g ls ending).isSome := by
  unfold mainParse
  rcases nodeOf_both f g names (behindCell ls) ending with
    ⟨read,read'⟩ | ⟨rest,read,read'⟩ | ⟨id,other,rest,read,read',same⟩
  · rw [read,read']
  · rw [read,read']
    rfl
  · rw [read,read']
    have loops : f.mayBeCore (.node id) = g.mayBeCore (.node other) := isLoopNode_definition f g same
    dsimp only
    rw [loops]
    split_ifs <;> rfl

/-- Whether a node compiles depends on what the names in its text stand for. -/
theorem parse_isSome (n m : Node) (same : n.defined = m.defined) (s : Sentinels) :
    (n.parse f s).1.isSome = (m.parse g s).1.isSome := by
  change (n.defined.parse f s).1.isSome = (m.defined.parse g s).1.isSome
  rw [same]
  unfold Node.parse
  cases m.defined.kind with
  | mainLoop =>
    dsimp only
    rw [Option.isSome_map,Option.isSome_map]
    exact mainParse_isSome f g names _ _
  | scanLoop =>
    dsimp only
    rw [Option.isSome_map,Option.isSome_map]
    exact loopParse_isSome f g names _ _ s
  | rowLoop =>
    dsimp only
    rw [Option.isSome_map,Option.isSome_map]
    exact loopParse_isSome f g names _ _ s
  | recAttr => rfl

end

def AllParse (f : OutputFormat) (ids : List Nat) : Prop :=
  ∀ id ∈ ids, ∀ n, f.nodes[id]? = some n → (n.parse f .initial).1.isSome

theorem setCompiled_parse (f : OutputFormat) (id : Nat) (c : Compiled) (ids : List Nat) :
    AllParse (f.setCompiled id c) ids ↔ AllParse f ids := by
  have same := OutputFormat.setCompiled_text f id c
  have one (other : Nat) : (∀ n, (f.setCompiled id c).nodes[other]? = some n →
      (n.parse (f.setCompiled id c) .initial).1.isSome) ↔
      ∀ n, f.nodes[other]? = some n → (n.parse f .initial).1.isSome := by
    have defined := same.definition other
    unfold OutputFormat.definition at defined
    cases found : f.nodes[other]? with
    | none =>
      rw [found] at defined
      rw [Option.map_eq_none_iff.mp defined]
      simp
    | some n =>
      rw [found] at defined
      obtain ⟨m,found',defined⟩ := Option.map_eq_some_iff.mp defined
      rw [found']
      simp only [Option.some.injEq,forall_eq']
      rw [parse_isSome _ f same.source m n defined]
  unfold AllParse
  exact forall_congr' fun other => imp_congr_right fun _ => one other

/-- A format compiles exactly if its nodes do, and keeps its texts. -/
theorem parseAll_iff (ids : List Nat) (f : OutputFormat) :
    (∃ g, parseAll ids f = some g) ↔ AllParse f ids := by
  induction ids generalizing f with
  | nil => exact iff_of_true ⟨f,rfl⟩ fun _ inside => nomatch inside
  | cons id ids ih =>
    have both : AllParse f (id::ids) ↔
        (∀ n, f.nodes[id]? = some n → (n.parse f .initial).1.isSome) ∧ AllParse f ids :=
      List.forall_mem_cons
    rw [both]
    unfold parseAll
    cases found : f.nodes[id]? with
    | none =>
      simp only [reduceCtorEq,false_implies,implies_true,true_and]
      exact ih f
    | some n =>
      simp only [Option.some.injEq,forall_eq']
      cases parsed : (n.parse f .initial).1 with
      | none => simp
      | some c =>
        simp only [Option.bind_some,Option.isSome_some,true_and]
        rw [ih,setCompiled_parse]

theorem parseAll_text (ids : List Nat) (f g : OutputFormat) (parsed : parseAll ids f = some g) :
    OutputFormat.SameText f g := by
  induction ids generalizing f with
  | nil =>
    obtain rfl := Option.some.inj parsed
    exact .refl f
  | cons id ids ih =>
    unfold parseAll at parsed
    cases found : f.nodes[id]? with
    | none =>
      rw [found] at parsed
      exact ih f parsed
    | some n =>
      rw [found] at parsed
      obtain ⟨c,-,rest⟩ := Option.bind_eq_some_iff.mp parsed
      exact (OutputFormat.setCompiled_text f id c).trans (ih _ rest)

/-- A format whose names stand for the same as those of one that compiles. -/
theorem recompiles (f g : OutputFormat) (tabled' : g.Tabled)
    (names : ∀ x, f.source x = g.source x) (parsed : AllParse f f.symbols) : AllParse g g.symbols := by
  intro id entry m found
  have inside : m ∈ g.tableNodes := List.mem_filterMap.mpr ⟨id,entry,found⟩
  have known := OutputFormat.source_node tabled' m inside
  rw [← names] at known
  obtain ⟨other,known',defined⟩ := Option.bind_eq_some_iff.mp known
  obtain ⟨n,found',defined⟩ := Option.map_eq_some_iff.mp defined
  have entry' : other ∈ f.symbols :=
    List.mem_flatMap.mpr ⟨_,List.mem_finRange _,(OutputFormat.symbol_entry known').1⟩
  rw [parse_isSome g f (fun x => (names x).symm) m n defined.symm]
  exact parsed other entry' n found'

end ModNdb.Format
