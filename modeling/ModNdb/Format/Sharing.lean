import ModNdb.Format.JsonPage
import ModNdb.Format.Tables

/-! The sentinels over a whole server: every compilation shares one parser, and a
chain that begins with no cell links its cells behind `the_null_cell`. -/
namespace ModNdb.Format

/-- A token that is no cell, with a cell behind it, where a chain is read. -/
def Orphans (ls : List Lexeme) : Prop :=
  ∃ l c rest, ls = l::c::rest ∧ l.isCell = false ∧ c.isCell = true

theorem written_iff (ls : List Lexeme) : (chainOf ls).written ≠ [] ↔ Orphans ls := by
  unfold Orphans
  match ls with
  | [] => simp [chainOf]
  | [l] => cases cell : l.isCell <;> simp [chainOf,cell]
  | l::c::rest => cases cell : l.isCell <;> cases cell' : c.isCell <;> simp [chainOf,cell,cell']

/-- A loop text that links cells behind the sentinel: its first chain does, or its core
is whole and its last chain does. -/
def LinksSentinel (f : OutputFormat) (ls : List Lexeme) : Prop :=
  Orphans ls ∨ ∃ first node sep dots last, ls = first ++ node::(sep ++ dots::last) ∧
    (first ≠ [] ∧ Cells first ∨ ∃ l : Lexeme, first = [l] ∧ l.isCell = false) ∧
    node.kind = .node ∧ (f.symbol node.symbol).isSome ∧
    SepShape sep ∧ dots.kind = .ellipses ∧ Orphans last

theorem chained_same (s : Sentinels) (empty : s.nullCellNext = []) (cells : List Cell) :
    s.chained none [] cells = s ↔ cells = [] := by
  constructor
  · intro same
    by_contra some_left
    have moved := congrArg Sentinels.nullCellNext same
    simp only [Sentinels.chained,if_neg some_left,List.nil_append,empty] at moved
    exact some_left moved
  · rintro rfl
    simp

theorem endParse_same (begin : CellPtr) (core : NodeRef) (sep : Option Text) (ls : List Lexeme)
    (ending : Ending) (s : Sentinels) (empty : s.nullCellNext = []) :
    (endParse begin core sep ls ending s).2 = s ↔
      ∀ dots last, ls = dots::last → dots.kind = .ellipses → ¬Orphans last := by
  cases ls with
  | nil => simp [endParse]
  | cons dots last =>
    by_cases kind : dots.kind = .ellipses
    · simp only [endParse,if_pos kind,chained_same s empty]
      constructor
      · rintro none_written _ _ same _
        obtain ⟨rfl,rfl⟩ := List.cons.inj same
        exact fun orphans => (written_iff last).mpr orphans none_written
      · intro none_orphan
        by_contra written
        exact none_orphan dots last rfl kind ((written_iff last).mp written)
    · simp only [endParse,if_neg kind,true_iff]
      rintro _ _ same kind'
      obtain ⟨rfl,rfl⟩ := List.cons.inj same
      exact absurd kind' kind

theorem chained_some (s : Sentinels) (cells : List Cell) (some_left : s.nullCellNext ≠ []) :
    (s.chained none [] cells).nullCellNext ≠ [] := by
  by_cases none_left : cells = [] <;> simp [Sentinels.chained,none_left,some_left]

theorem endParse_some (begin : CellPtr) (core : NodeRef) (sep : Option Text) (ls : List Lexeme)
    (ending : Ending) (s : Sentinels) (some_left : s.nullCellNext ≠ []) :
    (endParse begin core sep ls ending s).2.nullCellNext ≠ [] := by
  cases ls with
  | nil => exact some_left
  | cons dots last =>
    by_cases kind : dots.kind = .ellipses
    · simpa only [endParse,if_pos kind] using chained_some s _ some_left
    · simpa only [endParse,if_neg kind] using some_left

theorem chain_start (ls rest : List Lexeme) (node : Lexeme) (whole : ¬Orphans ls)
    (stopped : (chainOf ls).rest = node::rest) :
    ∃ first, ls = first ++ node::rest ∧
      (first ≠ [] ∧ Cells first ∨ ∃ l : Lexeme, first = [l] ∧ l.isCell = false) := by
  cases ls with
  | nil => simp [chainOf] at stopped
  | cons l ls =>
    cases cell : l.isCell with
    | true =>
      rcases chainOf_split (l::ls) with ⟨first,same,begins,cells,_,_⟩ | ⟨_,_,l',head,other⟩
      · exact ⟨first,by rw [← stopped]; exact same,.inl ⟨begins.resolve_right (by simp),cells⟩⟩
      · obtain rfl : l = l' := by simpa using head
        simp [cell] at other
    | false =>
      rw [chainOf_other l ls cell] at stopped
      refine ⟨[l],?_,.inr ⟨l,rfl,cell⟩⟩
      cases ls with
      | nil => simp at stopped
      | cons c rest' =>
        cases cell' : c.isCell with
        | true => exact absurd ⟨l,c,rest',rfl,cell,cell'⟩ whole
        | false => simpa [cell'] using stopped

theorem chain_stops (first rest : List Lexeme) (node : Lexeme) (isNode : node.kind = .node)
    (start : first ≠ [] ∧ Cells first ∨ ∃ l : Lexeme, first = [l] ∧ l.isCell = false) :
    (chainOf (first ++ node::rest)).rest = node::rest := by
  have stop := cells_stop node (.inl isNode)
  rcases start with ⟨begins,cells⟩ | ⟨l,rfl,other⟩
  · rw [chainOf_cells first (node::rest) (.inl begins) cells (by simp [stop])]
  · simp [chainOf,other,stop]

/-- A loop text leaves the sentinels as they are unless it links cells behind one. -/
theorem loopParse_same (f : OutputFormat) (ls : List Lexeme) (ending : Ending) (s : Sentinels)
    (empty : s.nullCellNext = []) : (loopParse f ls ending s).2 = s ↔ ¬LinksSentinel f ls := by
  by_cases orphans : Orphans ls
  · have written := (written_iff ls).mpr orphans
    have linked : (s.chained none [] (chainOf ls).written).nullCellNext ≠ [] := by
      simp [Sentinels.chained,written]
    have kept : (loopParse f ls ending s).2.nullCellNext ≠ [] := by
      simp only [loopParse]
      cases nodeOf f (chainOf ls).rest ending with
      | none => exact linked
      | some pair =>
        obtain ⟨core,rest⟩ := pair
        cases core with
        | theNullNode => exact linked
        | node id => exact endParse_some _ _ _ _ _ _ linked
    exact iff_of_false (fun same => kept (by rw [same,empty])) (fun none => none (.inl orphans))
  · have unwritten : (chainOf ls).written = [] := by
      by_contra written
      exact orphans ((written_iff ls).mp written)
    have parsedNode (id : Nat) (rest : List Lexeme)
        (found : nodeOf f (chainOf ls).rest ending = some (.node id,rest)) :
        (loopParse f ls ending s).2 =
          (endParse (chainOf ls).ptr (.node id) (sepOf rest).1 (sepOf rest).2 ending s).2 := by
      simp only [loopParse,unwritten,chained_nil,found]
      rfl
    have parsedOther (none_found : ∀ id rest,
        nodeOf f (chainOf ls).rest ending ≠ some (.node id,rest)) :
        (loopParse f ls ending s).2 = s := by
      simp only [loopParse,unwritten,chained_nil]
      cases found : nodeOf f (chainOf ls).rest ending with
      | none => rfl
      | some pair =>
        obtain ⟨core,rest⟩ := pair
        cases core with
        | theNullNode => rfl
        | node id => exact absurd found (none_found id rest)
    constructor
    · rintro same (orphans' | ⟨first,node,sep,dots,last,rfl,start,isNode,known,plain,kind,left⟩)
      · exact orphans orphans'
      · obtain ⟨id,known⟩ := Option.isSome_iff_exists.mp known
        have found : nodeOf f (chainOf (first ++ node::(sep ++ dots::last))).rest ending =
            some (.node id,sep ++ dots::last) := by
          simp [chain_stops first _ node isNode start,nodeOf,isNode,known]
        rw [parsedNode id _ found] at same
        simp only [sepOf_shape sep last dots plain kind] at same
        exact (endParse_same _ _ _ _ _ s empty).mp same dots last rfl kind left
    · intro none_linked
      cases found : nodeOf f (chainOf ls).rest ending with
      | none => exact parsedOther (by simp [found])
      | some pair =>
        obtain ⟨core,rest⟩ := pair
        cases core with
        | theNullNode => exact parsedOther (by simp [found])
        | node id =>
          rw [parsedNode id rest found]
          refine (endParse_same _ _ _ _ _ s empty).mpr fun dots last left kind orphan => ?_
          refine none_linked (.inr ?_)
          cases stopped : (chainOf ls).rest with
          | nil =>
            rw [stopped] at found
            simp only [nodeOf] at found
            split_ifs at found
            simp at found
          | cons node more =>
            rw [stopped] at found
            by_cases isNode : node.kind = .node
            · simp only [nodeOf,if_pos isNode] at found
              obtain ⟨known,symbol,same⟩ := Option.map_eq_some_iff.mp found
              obtain ⟨_,rfl⟩ := Prod.mk.inj same
              obtain ⟨first,whole,start⟩ := chain_start ls more node orphans stopped
              obtain ⟨sep,split,plain,_⟩ := sepOf_split more
              rw [left] at split
              exact ⟨first,node,sep,dots,last,by rw [← split]; exact whole,start,isNode,
                by simp [symbol],plain,kind,orphan⟩
            · simp [nodeOf,isNode] at found

/-- The node whose text, compiled in `f`, links cells behind the sentinel. -/
def Node.Links (f : OutputFormat) (n : Node) : Prop :=
  (n.kind = .scanLoop ∨ n.kind = .rowLoop) ∧ LinksSentinel f (tokens n.unresolved).1

theorem parse_same (f : OutputFormat) (n : Node) (s : Sentinels) (empty : s.nullCellNext = []) :
    (n.parse f s).2 = s ↔ ¬n.Links f := by
  have loop := loopParse_same f (tokens n.unresolved).1 (tokens n.unresolved).2 s empty
  unfold Node.parse Node.Links
  cases n.kind with
  | mainLoop => simp
  | recAttr => simp
  | scanLoop => simpa using loop
  | rowLoop => simpa using loop

structure CompileStep where
  format : OutputFormat
  node : Node
  before : Parser

def CompileStep.after (step : CompileStep) : Parser := (step.node.compile step.format step.before).2

def CompileStep.Links (step : CompileStep) : Prop := step.node.Links step.format

/-- The steps of `compileSymbols`. -/
def nodeSteps : List Nat → OutputFormat → Parser → List CompileStep
  | [], _, _ => []
  | id::ids, f, p =>
    match f.nodes[id]? with
    | none => nodeSteps ids f p
    | some n => ⟨f,n,p⟩ :: match n.compile f p with
      | (.ok c,next) => nodeSteps ids (f.setCompiled id c) next
      | (.error _,_) => []

def compileAll (fs : List OutputFormat) (p : Parser) : Parser :=
  fs.foldl (fun p f => (f.compile p).2) p

def serverSteps : List OutputFormat → Parser → List CompileStep
  | [], _ => []
  | f::fs, p => nodeSteps f.symbols f p ++ serverSteps fs (f.compile p).2

theorem nodeSteps_same (ids : List Nat) (f : OutputFormat) (p : Parser) (texts : f.HasTexts)
    (initial : p.sentinels = .initial) :
    ((∀ step ∈ nodeSteps ids f p, step.after.sentinels = .initial) ↔
      ∀ step ∈ nodeSteps ids f p, ¬step.Links) ∧
    ((∀ step ∈ nodeSteps ids f p, ¬step.Links) →
      (compileSymbols ids f p).2.sentinels = .initial) := by
  induction ids generalizing f p with
  | nil => exact ⟨by simp [nodeSteps],fun _ => initial⟩
  | cons id ids ih =>
    cases found : f.nodes[id]? with
    | none => simpa [nodeSteps,compileSymbols,found] using ih f p texts initial
    | some n =>
      have agrees := compileNode_parse f n (texts n (List.mem_of_getElem? found)) p
      have step : (n.compile f p).2.sentinels = .initial ↔ ¬n.Links f := by
        rw [agrees.sentinels,initial]
        exact parse_same f n .initial rfl
      rcases ran : n.compile f p with ⟨outcome,next⟩
      rw [ran] at step
      cases outcome with
      | error why =>
        refine ⟨?_,?_⟩
        · simpa [nodeSteps,found,ran,CompileStep.after,CompileStep.Links] using step
        · intro none_link
          have kept : next.sentinels = .initial := step.mpr (by
            simpa [nodeSteps,found,ran,CompileStep.Links] using none_link)
          cases why <;> simpa [compileSymbols,found,ran] using kept
      | ok c =>
        have texts' := setCompiled_texts f id c texts
        refine ⟨?_,?_⟩
        · simp only [nodeSteps,found,ran,List.forall_mem_cons]
          have head : (CompileStep.after ⟨f,n,p⟩).sentinels = next.sentinels := by
            simp [CompileStep.after,ran]
          rw [head]
          constructor
          · rintro ⟨kept,rest⟩
            exact ⟨step.mp kept,((ih _ next texts' kept).1).mp rest⟩
          · rintro ⟨none_links,rest⟩
            have kept := step.mpr none_links
            exact ⟨kept,((ih _ next texts' kept).1).mpr rest⟩
        · intro none_link
          simp only [nodeSteps,found,ran,List.forall_mem_cons] at none_link
          simpa [compileSymbols,found,ran] using
            (ih _ next texts' (step.mpr none_link.1)).2 none_link.2

theorem serverSteps_same (fs : List OutputFormat) (p : Parser) (texts : ∀ f ∈ fs, f.HasTexts)
    (initial : p.sentinels = .initial) :
    ((∀ step ∈ serverSteps fs p, step.after.sentinels = .initial) ↔
      ∀ step ∈ serverSteps fs p, ¬step.Links) ∧
    ((∀ step ∈ serverSteps fs p, ¬step.Links) → (compileAll fs p).sentinels = .initial) := by
  induction fs generalizing p with
  | nil => exact ⟨by simp [serverSteps],fun _ => initial⟩
  | cons f fs ih =>
    obtain ⟨same,kept⟩ := nodeSteps_same f.symbols f p (texts f List.mem_cons_self) initial
    have texts' : ∀ g ∈ fs, g.HasTexts := fun g inside => texts g (List.mem_cons_of_mem f inside)
    simp only [serverSteps,List.forall_mem_append]
    refine ⟨⟨?_,?_⟩,?_⟩
    · rintro ⟨here,rest⟩
      have none_link := same.mp here
      exact ⟨none_link,((ih _ texts' (kept none_link)).1).mp rest⟩
    · rintro ⟨here,rest⟩
      exact ⟨same.mpr here,((ih _ texts' (kept here)).1).mpr rest⟩
    · rintro ⟨here,rest⟩
      exact (ih _ texts' (kept here)).2 rest

/-- The loop texts of a format link no cells behind the sentinel. -/
def OutputFormat.Unlinked (f : OutputFormat) : Prop := ∀ n ∈ f.nodes, ¬n.Links f

theorem setCompiled_unlinked (f : OutputFormat) (id : Nat) (c : Compiled) (unlinked : f.Unlinked) :
    (f.setCompiled id c).Unlinked := by
  have symbol := (OutputFormat.setCompiled_text f id c).symbol
  intro n inside links
  obtain ⟨i,bound,rfl⟩ := List.mem_iff_getElem.mp inside
  have room : i < f.nodes.length := by simpa [OutputFormat.setCompiled] using bound
  refine unlinked f.nodes[i] (List.getElem_mem room) ?_
  simp only [Node.Links,LinksSentinel,symbol] at links ⊢
  simp only [OutputFormat.setCompiled,List.getElem_modify] at links
  split at links <;> exact links

theorem nodeSteps_unlinked (ids : List Nat) (f : OutputFormat) (p : Parser) (unlinked : f.Unlinked) :
    ∀ step ∈ nodeSteps ids f p, ¬step.Links := by
  induction ids generalizing f p with
  | nil => exact fun _ inside => nomatch inside
  | cons id ids ih =>
    unfold nodeSteps
    cases found : f.nodes[id]? with
    | none => exact ih f p unlinked
    | some n =>
      refine List.forall_mem_cons.mpr ⟨unlinked n (List.mem_of_getElem? found),?_⟩
      split
      · exact ih _ _ (setCompiled_unlinked f id _ unlinked)
      · exact fun _ inside => nomatch inside

theorem serverSteps_unlinked (fs : List OutputFormat) (p : Parser)
    (unlinked : ∀ f ∈ fs, f.Unlinked) : ∀ step ∈ serverSteps fs p, ¬step.Links := by
  induction fs generalizing p with
  | nil => exact fun _ inside => nomatch inside
  | cons f fs ih =>
    obtain ⟨here,rest⟩ := List.forall_mem_cons.mp unlinked
    exact List.forall_mem_append.mpr ⟨nodeSteps_unlinked f.symbols f p here,ih _ rest⟩

/-- The sentinels stay as they are through every compilation exactly when no compiled loop
text links cells behind one. Then a format prints, whenever it is run, what it prints in a
server that compiles nothing else. -/
theorem sentinels_unmodified (fs : List OutputFormat) (texts : ∀ f ∈ fs, f.HasTexts) :
    ((∀ step ∈ serverSteps fs .initial, step.after.sentinels = .initial) ↔
      ∀ step ∈ serverSteps fs .initial, ¬step.Links) ∧
    ((∀ step ∈ serverSteps fs .initial, ¬step.Links) →
      ∀ before f after g, fs = before ++ f::after →
        (f.compile (compileAll before .initial)).1 = .accepted g →
        (f.compile .initial).1 = .accepted g ∧
        ∀ printers data fuel page,
          buildResults printers (compileAll fs .initial).sentinels data g fuel page =
            buildResults printers .initial data g fuel page) := by
  obtain ⟨same,kept⟩ := serverSteps_same fs .initial texts rfl
  refine ⟨same,fun none_link before f after g whole accepted => ⟨?_,?_⟩⟩
  · have texts' := texts f (by simp [whole])
    exact (compile_accepted_iff f g _ texts').mpr ((compile_accepted_iff f g _ texts').mp accepted)
  · intro printers data fuel page
    rw [kept none_link]

/-- A section with `Record item = "$value$"` and `Row row = " { $item$ , ... }"`. -/
def bracedFormat : OutputFormat :=
  itemFormat.addSymbol (text "row") .rowLoop (text " \x7b $item$ , ... \x7d") none

theorem sentinels_unmodified_loops :
    (∀ step ∈ serverSteps [xmlFormat,bracedFormat,jsonFormat] .initial,
      step.after.sentinels = .initial) ∧
    ∀ printers data fuel page, buildResults printers
        (compileAll [xmlFormat,bracedFormat,jsonFormat] .initial).sentinels data jsonCompiled fuel page =
      buildResults printers .initial data jsonCompiled fuel page := by
  have texts : ∀ f ∈ [xmlFormat,bracedFormat,jsonFormat], f.HasTexts := by
    unfold OutputFormat.HasTexts
    decide
  have same (f : OutputFormat) (same : ∀ n ∈ f.nodes, (n.parse f .initial).2 = .initial) :
      f.Unlinked := fun n inside => (parse_same f n .initial rfl).mp (same n inside)
  have unlinked : ∀ f ∈ [xmlFormat,bracedFormat,jsonFormat], f.Unlinked := by
    simp only [List.forall_mem_cons]
    exact ⟨same _ (by decide),same _ (by decide),same _ (by decide),fun _ inside => nomatch inside⟩
  obtain ⟨kept,prints⟩ := sentinels_unmodified [xmlFormat,bracedFormat,jsonFormat] texts
  have none_link := serverSteps_unlinked _ .initial unlinked
  exact ⟨kept.mpr none_link,(prints none_link [xmlFormat,bracedFormat] jsonFormat [] jsonCompiled rfl
    (jsonFormat_accepted _)).2⟩
/-- A section with `Record item = "$value$"` and `Row row = "$item$, ..."`. -/
def orphaningFormat : OutputFormat :=
  itemFormat.addSymbol (text "row") .rowLoop (text "$item$, ...") none

theorem row_text_links_sentinel :
    ¬∀ fs : List OutputFormat, (∀ f ∈ fs, f.HasTexts) →
      ∀ step ∈ serverSteps fs .initial, step.after.sentinels = .initial := by
  intro unmodified
  have texts : ∀ f ∈ [orphaningFormat], f.HasTexts := by
    simp only [List.forall_mem_singleton]
    unfold OutputFormat.HasTexts
    decide
  have inside : ⟨orphaningFormat,emptyBeginRow,.initial⟩ ∈
      serverSteps [orphaningFormat] .initial := by
    have symbols : orphaningFormat.symbols = [1,0] := by decide
    have row : orphaningFormat.nodes[1]? = some emptyBeginRow := rfl
    rw [serverSteps,symbols,nodeSteps,row]
    exact List.mem_append_left _ List.mem_cons_self
  have kept := unmodified [orphaningFormat] texts ⟨orphaningFormat,emptyBeginRow,.initial⟩ inside
  dsimp only [CompileStep.after] at kept
  have agrees := compileNode_parse orphaningFormat emptyBeginRow (by decide) .initial
  have written : (emptyBeginRow.parse orphaningFormat Parser.initial.sentinels).2.nullCellNext =
      [Cell.constant (text ", ")] := by rfl
  rw [agrees.sentinels] at kept
  rw [kept] at written
  cases written

end ModNdb.Format
