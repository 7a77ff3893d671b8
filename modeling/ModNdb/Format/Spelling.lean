import ModNdb.Format.TokenParse

/-! Which texts the compiler represents token by token. The items of a compiled
node are its cells, core, separator and ellipsis in order; `represented_iff`
gives the texts whose items match their tokens. -/
namespace ModNdb.Format

inductive Item
  | cell (c : Cell)
  | node (id : Nat)
  | sep (txt : Text)
  | ellipsis
  deriving DecidableEq

def CellPtr.items (c : CellPtr) : List Item := c.own.map .cell

/-- What a loop prints between begin and end; a loop without a core has no ellipsis. -/
def LoopParts.middle (parts : LoopParts) : List Item :=
  match parts.core with
  | .theNullNode => []
  | .node id => .node id :: (parts.sep.toList.map .sep ++ [.ellipsis])

def LoopParts.loopItems (parts : LoopParts) : List Item :=
  parts.begin.items ++ (parts.middle ++ parts.end_.items)

def LoopParts.mainItems (parts : LoopParts) : List Item :=
  let core : List Item := match parts.core with
    | .theNullNode => []
    | .node id => [.node id]
  parts.begin.items ++ (core ++ parts.end_.items)

/-- An item stands for a token: the cell made of it, the node of its name, its text as a
separator, or an ellipsis for an ellipsis. -/
inductive Stands (f : OutputFormat) : Lexeme → Item → Prop
  | cell (l : Lexeme) (isCell : l.isCell = true) : Stands f l (.cell (cellOf l))
  | node (l : Lexeme) (id : Nat) (isNode : l.kind = .node) (named : f.nameOf id = some l.symbol) :
      Stands f l (.node id)
  | sep (l : Lexeme) (plain : l.kind = .plaintext) : Stands f l (.sep l.text)
  | ellipsis (l : Lexeme) (dots : l.kind = .ellipses) : Stands f l .ellipsis

/-- Every token of the text, in order, has exactly one item. -/
def Spells (f : OutputFormat) (source : Text) (items : List Item) : Prop :=
  ∃ ls, tokens source = (ls,.closed) ∧ List.Forall₂ (Stands f) ls items

/-- The compiled node represents its text, and a `RecAttr` its NULL text as well. -/
def Represents (f : OutputFormat) (n : Node) : Compiled → Prop
  | .no => False
  | .loop parts =>
    Spells f n.unresolved (if n.kind = .mainLoop then parts.mainItems else parts.loopItems)
  | .record fmt nullFmt =>
    Spells f n.unresolved fmt.items ∧ ∀ null ∈ n.unresolved2, Spells f null nullFmt.items

def Cells (ls : List Lexeme) : Prop := ∀ l ∈ ls, l.isCell = true

def SepShape (sep : List Lexeme) : Prop := sep = [] ∨ ∃ l : Lexeme, sep = [l] ∧ l.kind = .plaintext

/-- `$node$ sep ...` and the end, as tokens. -/
structure CoreShape (node : Lexeme) (sep : List Lexeme) (dots : Lexeme) (last : List Lexeme) :
    Prop where
  node : node.kind = .node
  sep : SepShape sep
  dots : dots.kind = .ellipses
  last : Cells last

/-- A loop text that keeps all its tokens: cells in front, at least one, and behind them
nothing or a whole core. -/
def LoopShape (ls : List Lexeme) : Prop :=
  ∃ first rest, ls = first ++ rest ∧ first ≠ [] ∧ Cells first ∧
    (rest = [] ∨ ∃ node sep dots last, rest = node :: (sep ++ dots::last) ∧
      CoreShape node sep dots last)

/-- The same for `Format`: one cell, or a node with at most one cell on either side. -/
def MainShape (ls : List Lexeme) : Prop :=
  (∃ l : Lexeme, ls = [l] ∧ l.isCell = true) ∨
  ∃ first node last, ls = first ++ node::last ∧ node.kind = .node ∧ Cells first ∧ Cells last ∧
    first.length ≤ 1 ∧ last.length ≤ 1

def RecordShape (source : Text) : Prop :=
  (tokens source).2 = .closed ∧ Cells (tokens source).1

def Node.WellShaped (n : Node) : Prop :=
  match n.kind with
  | .mainLoop => MainShape (tokens n.unresolved).1
  | .scanLoop | .rowLoop => LoopShape (tokens n.unresolved).1
  | .recAttr => RecordShape n.unresolved ∧ ∀ null ∈ n.unresolved2, RecordShape null

def cellsPtr : List Lexeme → CellPtr
  | [] => .theNullCell
  | l::ls => .chain (cellOf l) (ls.map cellOf)

theorem cellsPtr_own (ls : List Lexeme) : (cellsPtr ls).own = ls.map cellOf := by
  cases ls <;> rfl

theorem cells_stand (f : OutputFormat) (ls : List Lexeme) (cells : Cells ls) :
    List.Forall₂ (Stands f) ls (cellsPtr ls).items := by
  rw [CellPtr.items,cellsPtr_own]
  induction ls with
  | nil => exact .nil
  | cons l ls ih =>
    exact .cons (.cell l (cells l List.mem_cons_self))
      (ih fun l' inside => cells l' (List.mem_cons_of_mem l inside))

theorem symbol_named (f : OutputFormat) (name : Text) (id : Nat) (known : f.symbol name = some id) :
    f.nameOf id = some name := by
  simpa using List.find?_some known

theorem chainOf_cells (first rest : List Lexeme) (begins : first ≠ [] ∨ rest = [])
    (cells : Cells first) (stops : ∀ l ∈ rest.head?, l.isCell = false) :
    chainOf (first ++ rest) = ⟨cellsPtr first,rest,[]⟩ := by
  cases first with
  | nil => rw [begins.resolve_left (· rfl)]; rfl
  | cons l ls =>
    have cells' : ∀ l' ∈ ls, l'.isCell = true :=
      fun l' inside => cells l' (List.mem_cons_of_mem l inside)
    have taken : (ls ++ rest).takeWhile Lexeme.isCell = ls := by
      rw [List.takeWhile_append_of_pos cells']
      cases rest with
      | nil => simp
      | cons r rs => simp [stops r rfl]
    have dropped : (ls ++ rest).dropWhile Lexeme.isCell = rest := by
      rw [List.dropWhile_append_of_pos cells']
      cases rest with
      | nil => rfl
      | cons r rs => simp [stops r rfl]
    rw [List.cons_append,chainOf_cell l _ (cells l List.mem_cons_self),taken,dropped]
    rfl

/-- A chain in front takes the cells there are, or loses one token. -/
theorem chainOf_split (ls : List Lexeme) :
    (∃ first, ls = first ++ (chainOf ls).rest ∧ (first ≠ [] ∨ ls = []) ∧ Cells first ∧
      (chainOf ls).ptr = cellsPtr first ∧ ∀ l ∈ (chainOf ls).rest.head?, l.isCell = false) ∨
    ((chainOf ls).ptr = .theNullCell ∧ (chainOf ls).rest.length < ls.length ∧
      ∃ l ∈ ls.head?, l.isCell = false) := by
  cases ls with
  | nil => exact .inl ⟨[],rfl,.inr rfl,by simp [Cells],rfl,by simp [chainOf]⟩
  | cons l ls =>
    cases cell : l.isCell with
    | false =>
      refine .inr ⟨by simp [chainOf,cell],?_,l,rfl,cell⟩
      rw [chainOf_other l ls cell]
      exact Nat.lt_succ_of_le (List.dropWhile_suffix _).length_le
    | true =>
      rw [chainOf_cell l ls cell]
      refine .inl ⟨l :: ls.takeWhile Lexeme.isCell,?_,.inl (by simp),?_,rfl,?_⟩
      · simp [List.takeWhile_append_dropWhile]
      · intro l' inside
        rcases List.mem_cons.mp inside with rfl | inside
        · exact cell
        · exact List.all_eq_true.mp List.all_takeWhile l' inside
      · intro l' head
        have stopped := List.head?_dropWhile_not Lexeme.isCell ls
        rw [Option.mem_def.mp head] at stopped
        simpa using stopped

theorem cells_stop (l : Lexeme) (other : l.kind = .node ∨ l.kind = .ellipses) :
    l.isCell = false := by
  rcases other with kind | kind <;> simp [Lexeme.isCell,kind,Token.isCell]

theorem sepOf_shape (sep last : List Lexeme) (dots : Lexeme) (shape : SepShape sep)
    (kind : dots.kind = .ellipses) :
    sepOf (sep ++ dots::last) = (sep.head?.map Lexeme.text,dots::last) := by
  rcases shape with rfl | ⟨l,rfl,plain⟩
  · simp [sepOf,kind]
  · simp [sepOf,plain]

theorem sepOf_split (ls : List Lexeme) : ∃ sep, ls = sep ++ (sepOf ls).2 ∧ SepShape sep ∧
    (sepOf ls).1.toList.length = sep.length := by
  cases ls with
  | nil => exact ⟨[],rfl,.inl rfl,rfl⟩
  | cons l ls =>
    by_cases plain : l.kind = .plaintext
    · exact ⟨[l],by simp [sepOf,plain],.inr ⟨l,rfl,plain⟩,by simp [sepOf,plain]⟩
    · exact ⟨[],by simp [sepOf,plain],.inl rfl,by simp [sepOf,plain]⟩

theorem loopParse_cells (f : OutputFormat) (first : List Lexeme) (s : Sentinels)
    (begins : first ≠ []) (cells : Cells first) :
    loopParse f first .closed s = (some ⟨cellsPtr first,.theNullNode,none,.theNullCell⟩,s) := by
  have chain := chainOf_cells first [] (.inl begins) cells (by simp)
  rw [List.append_nil] at chain
  simp [loopParse,chain,nodeOf]

theorem loopParse_core (f : OutputFormat) (first sep last : List Lexeme) (node dots : Lexeme)
    (id : Nat) (s : Sentinels) (begins : first ≠ []) (cells : Cells first)
    (shape : CoreShape node sep dots last) (known : f.symbol node.symbol = some id) :
    loopParse f (first ++ node::(sep ++ dots::last)) .closed s =
      (some ⟨cellsPtr first,.node id,sep.head?.map Lexeme.text,cellsPtr last⟩,s) := by
  have chain := chainOf_cells first (node::(sep ++ dots::last)) (.inl begins) cells
    (by simp [cells_stop node (.inl shape.node)])
  have chainLast := chainOf_cells last [] (.inr rfl) shape.last (by simp)
  rw [List.append_nil] at chainLast
  simp [loopParse,chain,nodeOf,shape.node,known,tailParse,sepOf_shape sep last dots shape.sep shape.dots,
    endParse,shape.dots,chainLast]

/-- A core that is read keeps every token behind it, or loses some of them. -/
theorem tail_accepted (begin : CellPtr) (id : Nat) (ls : List Lexeme) (ending : Ending)
    (s s' : Sentinels) (parts : LoopParts)
    (accepted : tailParse begin (.node id) ls ending s = (some parts,s')) :
    ending = .closed ∧ parts.begin = begin ∧
      ((∃ sep dots last, ls = sep ++ dots::last ∧ SepShape sep ∧ dots.kind = .ellipses ∧
          Cells last) ∨
        parts.middle.length + parts.end_.own.length < 1 + ls.length) ∧
      parts.middle.length + parts.end_.own.length ≤ 1 + ls.length := by
  obtain ⟨sep,whole,shape,size⟩ := sepOf_split ls
  cases left : (sepOf ls).2 with
  | nil => simp [tailParse,endParse,left] at accepted
  | cons dots last =>
    rw [left] at whole
    by_cases kind : dots.kind = .ellipses
    · simp only [tailParse,endParse,left,if_pos kind] at accepted
      by_cases ended : (chainOf last).rest = [] ∧ ending = .closed
      · rw [if_pos ended] at accepted
        obtain ⟨same,_⟩ := Prod.mk.inj accepted
        obtain rfl := Option.some.inj same
        have middle : (sepOf ls).1.toList.length + 2 =
            (LoopParts.middle ⟨begin,.node id,(sepOf ls).1,(chainOf last).ptr⟩).length := by
          simp [LoopParts.middle]
        have total : ls.length = sep.length + (last.length + 1) := by
          rw [whole]
          simp
        rcases chainOf_split last with ⟨cells,same,_,all,ptr,_⟩ | ⟨ptr,_,l,head,_⟩
        · rw [ended.1,List.append_nil] at same
          subst same
          refine ⟨ended.2,rfl,.inl ⟨sep,dots,last,whole,shape,kind,all⟩,?_⟩
          rw [← middle,ptr,cellsPtr_own,List.length_map]
          omega
        · have some_left : 0 < last.length := by
            cases last with
            | nil => simp at head
            | cons => simp
          rw [ptr] at middle
          refine ⟨ended.2,rfl,.inr ?_,?_⟩ <;>
          · rw [ptr,← middle]
            simp only [own_null,List.length_nil]
            omega
      · simp [ended] at accepted
    · simp [tailParse,endParse,left,kind] at accepted

theorem loop_accepted (f : OutputFormat) (ls : List Lexeme) (ending : Ending) (s s' : Sentinels)
    (parts : LoopParts) (some_left : ls ≠ [])
    (accepted : loopParse f ls ending s = (some parts,s')) :
    ending = .closed ∧ (LoopShape ls ∨ parts.loopItems.length < ls.length) := by
  have sizes : parts.loopItems.length =
      parts.begin.own.length + (parts.middle.length + parts.end_.own.length) := by
    simp [LoopParts.loopItems,CellPtr.items]
  simp only [loopParse] at accepted
  have split := chainOf_split ls
  -- the tokens that are still there behind the first chain
  have room : (chainOf ls).ptr.own.length + (chainOf ls).rest.length ≤ ls.length := by
    rcases split with ⟨first,whole,_,_,ptr,_⟩ | ⟨ptr,shorter,_⟩
    · rw [ptr,cellsPtr_own]
      conv_rhs => rw [whole]
      simp
    · rw [ptr,own_null,List.length_nil]
      omega
  cases found : nodeOf f (chainOf ls).rest ending with
  | none => simp [found] at accepted
  | some pair =>
    obtain ⟨core,rest⟩ := pair
    rw [found] at accepted
    cases core with
    | theNullNode =>
      by_cases ended : rest = [] ∧ ending = .closed
      · simp only [if_pos ended] at accepted
        obtain rfl := Option.some.inj (Prod.mk.inj accepted).1
        refine ⟨ended.2,?_⟩
        cases left : (chainOf ls).rest with
        | nil =>
          rcases split with ⟨first,whole,begins,all,ptr,_⟩ | ⟨ptr,shorter,_⟩
          · rw [left,List.append_nil] at whole
            subst whole
            exact .inl ⟨ls,[],by simp,some_left,all,.inl rfl⟩
          · right
            rw [sizes]
            simp only [ptr,LoopParts.middle,own_null,List.length_nil]
            exact List.length_pos_iff.mpr some_left
        | cons l ls' =>
          right
          rw [left,List.length_cons] at room
          rw [sizes]
          simp only [LoopParts.middle,own_null,List.length_nil]
          omega
      · simp [ended] at accepted
    | node id =>
      obtain ⟨closed,begin,shape,size⟩ := tail_accepted _ _ _ _ _ _ _ accepted
      refine ⟨closed,?_⟩
      cases left : (chainOf ls).rest with
      | nil => simp [left,nodeOf,closed] at found
      | cons l ls' =>
        by_cases node : l.kind = .node
        · simp only [left,nodeOf,if_pos node] at found
          obtain ⟨_,_,same⟩ := Option.map_eq_some_iff.mp found
          obtain ⟨_,rfl⟩ := Prod.mk.inj same
          rw [left,List.length_cons] at room
          rcases shape with ⟨sep,dots,last,rfl,plain,kind,all⟩ | short
          · rcases split with ⟨first,whole,begins,cells,_,_⟩ | ⟨ptr,shorter,_⟩
            · rw [left] at whole
              exact .inl ⟨first,_,whole,begins.resolve_right some_left,cells,
                .inr ⟨l,sep,dots,last,rfl,node,plain,kind,all⟩⟩
            · right
              rw [left,List.length_cons] at shorter
              rw [sizes,begin,ptr]
              simp only [own_null,List.length_nil]
              omega
          · right
            rw [sizes,begin]
            omega
        · simp [left,nodeOf,node] at found

theorem cellIn_length (ls : List Lexeme) : (cellIn ls).own.length ≤ ls.length := by
  cases ls with
  | nil => exact Nat.le_refl 0
  | cons l ls => cases cell : l.isCell <;> simp [cellIn,cell]

theorem front_split (ls : List Lexeme) : ∃ first, ls = first ++ behindCell ls ∧ Cells first ∧
    first.length ≤ 1 ∧ cellIn ls = cellsPtr first := by
  cases ls with
  | nil => exact ⟨[],rfl,by simp [Cells],by simp,rfl⟩
  | cons l ls =>
    cases cell : l.isCell with
    | true => exact ⟨[l],by simp [behindCell,cell],by simp [Cells,cell],by simp,
        by simp [cellIn,cell,cellsPtr]⟩
    | false => exact ⟨[],by simp [behindCell,cell],by simp [Cells],by simp,
        by simp [cellIn,cell,cellsPtr]⟩

theorem front_cells (first : List Lexeme) (node : Lexeme) (last : List Lexeme)
    (isNode : node.kind = .node) (cells : Cells first) (one : first.length ≤ 1) :
    behindCell (first ++ node::last) = node::last ∧
      cellIn (first ++ node::last) = cellsPtr first := by
  have stop := cells_stop node (.inl isNode)
  match first, one with
  | [], _ => simp [behindCell,cellIn,stop,cellsPtr]
  | [l], _ => simp [behindCell,cellIn,cells l List.mem_cons_self,cellsPtr]

theorem back_cells (last : List Lexeme) (cells : Cells last) (one : last.length ≤ 1) :
    cellIn last = cellsPtr last := by
  match last, one with
  | [], _ => rfl
  | [l], _ => simp [cellIn,cells l List.mem_cons_self,cellsPtr]

theorem main_accepted (f : OutputFormat) (ls : List Lexeme) (ending : Ending) (parts : LoopParts)
    (some_left : ls ≠ []) (accepted : mainParse f ls ending = some parts) :
    ending = .closed ∧ (MainShape ls ∨ parts.mainItems.length < ls.length) := by
  obtain ⟨first,whole,cells,one,front⟩ := front_split ls
  have total : ls.length = first.length + (behindCell ls).length := by
    conv_lhs => rw [whole,List.length_append]
  have sizes : parts.mainItems.length = parts.begin.own.length +
      ((if parts.core = .theNullNode then 0 else 1) + parts.end_.own.length) := by
    cases core : parts.core <;> simp [LoopParts.mainItems,CellPtr.items,core,Nat.add_comm]
  rw [mainParse] at accepted
  cases found : nodeOf f (behindCell ls) ending with
  | none => simp [found] at accepted
  | some pair =>
    obtain ⟨core,rest⟩ := pair
    simp only [found] at accepted
    by_cases taken : f.mayBeCore core = true ∧ rest.tail = [] ∧ ending = .closed
    · rw [if_pos taken] at accepted
      obtain rfl := Option.some.inj accepted
      refine ⟨taken.2.2,?_⟩
      rw [show (cellIn ls).own.length = first.length by rw [front,cellsPtr_own,List.length_map]]
        at sizes
      have behind := cellIn_length rest
      cases left : behindCell ls with
      | nil =>
        rw [left,List.append_nil] at whole
        subst whole
        obtain ⟨l,more,rfl⟩ := List.exists_cons_of_ne_nil some_left
        obtain rfl : more = [] := by simpa using one
        exact .inl (.inl ⟨l,rfl,cells l List.mem_cons_self⟩)
      | cons l ls' =>
        rw [left,List.length_cons] at total
        rw [left] at found
        by_cases node : l.kind = .node
        · simp only [nodeOf,if_pos node] at found
          obtain ⟨id,_,same⟩ := Option.map_eq_some_iff.mp found
          obtain ⟨rfl,rfl⟩ := Prod.mk.inj same
          rw [left] at whole
          have last := taken.2.1
          cases ls' with
          | nil => exact .inl (.inr ⟨first,l,[],whole,node,cells,by simp [Cells],one,by simp⟩)
          | cons y more =>
            obtain rfl : more = [] := last
            cases cell : y.isCell with
            | true => exact .inl (.inr ⟨first,l,[y],whole,node,cells,by simp [Cells,cell],one,
                by simp⟩)
            | false =>
              right
              rw [sizes,total]
              simp [cellIn,cell]
        · obtain ⟨rfl,rfl⟩ : NodeRef.theNullNode = core ∧ ls' = rest := by
            simpa [nodeOf,node] using found
          right
          dsimp only at sizes
          rw [if_pos rfl] at sizes
          omega
    · simp [taken] at accepted

/-- The property of one accepted text, once the tokens are known to have been kept or lost. -/
theorem spells_or_short (f : OutputFormat) (source : Text) (ls : List Lexeme)
    (items : List Item) (shape : Prop) (read : tokens source = (ls,.closed))
    (kept : shape → List.Forall₂ (Stands f) ls items)
    (either : shape ∨ items.length < ls.length) : Spells f source items ↔ shape := by
  constructor
  · rintro ⟨ls',read',stands⟩
    rw [read] at read'
    obtain ⟨rfl,_⟩ := Prod.mk.inj read'
    refine either.resolve_right fun short => ?_
    rw [stands.length_eq] at short
    exact Nat.lt_irrefl _ short
  · exact fun holds => ⟨ls,read,kept holds⟩

theorem core_stands (f : OutputFormat) (node dots : Lexeme) (sep last : List Lexeme) (id : Nat)
    (shape : CoreShape node sep dots last) (known : f.symbol node.symbol = some id) :
    List.Forall₂ (Stands f) (node::(sep ++ dots::last))
      (.node id :: ((sep.head?.map Lexeme.text).toList.map .sep ++
        (.ellipsis :: (cellsPtr last).items))) := by
  refine .cons (.node node id shape.node (symbol_named f _ id known)) ?_
  have rest : List.Forall₂ (Stands f) (dots::last) (.ellipsis :: (cellsPtr last).items) :=
    .cons (.ellipsis dots shape.dots) (cells_stand f last shape.last)
  rcases shape.sep with rfl | ⟨l,rfl,plain⟩
  · exact rest
  · exact .cons (.sep l plain) rest

theorem loop_represented (f : OutputFormat) (source : Text) (s s' : Sentinels) (parts : LoopParts)
    (some_text : source ≠ [])
    (accepted : loopParse f (tokens source).1 (tokens source).2 s = (some parts,s')) :
    Spells f source parts.loopItems ↔ LoopShape (tokens source).1 := by
  have some_left : (tokens source).1 ≠ [] ∨ (tokens source).2 ≠ .closed := by
    by_contra! both
    exact some_text (tokens_closed source (Prod.ext both.1 both.2))
  rcases read : tokens source with ⟨ls,ending⟩
  rw [read] at accepted some_left
  have some_left : ls ≠ [] := by
    rintro rfl
    simp only [loopParse,chainOf,nodeOf] at accepted
    split_ifs at accepted <;> simp_all
  obtain ⟨rfl,either⟩ := loop_accepted f ls ending s s' parts some_left accepted
  refine spells_or_short f source ls _ _ read (fun shape => ?_) either
  obtain ⟨first,rest,rfl,begins,cells,rfl | ⟨node,sep,dots,last,rfl,core⟩⟩ := shape
  · rw [List.append_nil,loopParse_cells f first s begins cells] at accepted
    obtain rfl := Option.some.inj (Prod.mk.inj accepted).1
    simpa [LoopParts.loopItems,LoopParts.middle,CellPtr.items] using cells_stand f first cells
  · cases known : f.symbol node.symbol with
    | none =>
      have chain := chainOf_cells first (node::(sep ++ dots::last)) (.inl begins) cells
        (by simp [cells_stop node (.inl core.node)])
      simp [loopParse,chain,nodeOf,core.node,known] at accepted
    | some id =>
      rw [loopParse_core f first sep last node dots id s begins cells core known] at accepted
      obtain rfl := Option.some.inj (Prod.mk.inj accepted).1
      have middle := core_stands f node dots sep last id core known
      simpa [LoopParts.loopItems,LoopParts.middle] using List.rel_append (cells_stand f first cells) middle

theorem main_represented (f : OutputFormat) (source : Text) (parts : LoopParts)
    (some_text : source ≠ [])
    (accepted : mainParse f (tokens source).1 (tokens source).2 = some parts) :
    Spells f source parts.mainItems ↔ MainShape (tokens source).1 := by
  have some_left : (tokens source).1 ≠ [] ∨ (tokens source).2 ≠ .closed := by
    by_contra! both
    exact some_text (tokens_closed source (Prod.ext both.1 both.2))
  rcases read : tokens source with ⟨ls,ending⟩
  rw [read] at accepted some_left
  have some_left : ls ≠ [] := by
    rintro rfl
    simp only [mainParse,behindCell,nodeOf] at accepted
    split_ifs at accepted
    simp_all
  obtain ⟨rfl,either⟩ := main_accepted f ls ending parts some_left accepted
  refine spells_or_short f source ls _ _ read (fun shape => ?_) either
  obtain ⟨l,rfl,cell⟩ | ⟨first,node,last,rfl,isNode,cells,all,one,oneLast⟩ := shape
  · have same : parts = ⟨cellsPtr [l],.theNullNode,none,.theNullCell⟩ := by
      simpa [mainParse,behindCell,cell,nodeOf,OutputFormat.mayBeCore,cellIn,cellsPtr,eq_comm]
        using accepted
    subst same
    simpa [LoopParts.mainItems,CellPtr.items] using
      cells_stand f [l] (by simpa [Cells] using cell)
  · have front := front_cells first node last isNode cells one
    rw [mainParse,front.1,front.2] at accepted
    cases known : f.symbol node.symbol with
    | none => simp [nodeOf,isNode,known] at accepted
    | some id =>
      simp only [nodeOf,if_pos isNode,known,Option.map_some] at accepted
      split_ifs at accepted with taken
      obtain rfl := Option.some.inj accepted
      rw [back_cells last all oneLast]
      have middle : List.Forall₂ (Stands f) (node::last) (.node id :: (cellsPtr last).items) :=
        .cons (.node node id isNode (symbol_named f _ id known)) (cells_stand f last all)
      simpa [LoopParts.mainItems] using List.rel_append (cells_stand f first cells) middle

theorem record_represented (f : OutputFormat) (source : Text) (ptr : CellPtr)
    (accepted : chainParse (tokens source).1 (tokens source).2 = some ptr) :
    Spells f source ptr.items ↔ RecordShape source := by
  rcases read : tokens source with ⟨ls,ending⟩
  rw [read] at accepted
  simp only [chainParse] at accepted
  split_ifs at accepted with taken
  obtain rfl := Option.some.inj accepted
  obtain ⟨first,whole,begins,cells,ptr,_⟩ : ∃ first, ls = first ++ (chainOf ls).rest ∧
      (first ≠ [] ∨ ls = []) ∧ Cells first ∧ (chainOf ls).ptr = cellsPtr first ∧
      ∀ l ∈ (chainOf ls).rest.head?, l.isCell = false := by
    refine (chainOf_split ls).resolve_right ?_
    rintro ⟨_,_,l,head,other⟩
    simp [Option.mem_def.mp head,other] at taken
  simp only [RecordShape,read]
  constructor
  · rintro ⟨ls',read',stands⟩
    rw [read] at read'
    obtain ⟨rfl,rfl⟩ := Prod.mk.inj read'
    have same := stands.length_eq
    rw [ptr,CellPtr.items,cellsPtr_own,List.length_map,List.length_map] at same
    have nothing : (chainOf ls).rest = [] := by
      have total := congrArg List.length whole
      rw [List.length_append] at total
      exact List.length_eq_zero_iff.mp (by omega)
    rw [nothing,List.append_nil] at whole
    exact ⟨rfl,whole ▸ cells⟩
  · rintro ⟨rfl,all⟩
    have chain := chainOf_cells ls [] (.inr rfl) all (by simp)
    rw [List.append_nil] at chain
    refine ⟨ls,read,?_⟩
    rw [chain]
    exact cells_stand f ls all

/-- An accepted node represents its text exactly when the text has its kind's shape. -/
theorem represents_iff_shape (f : OutputFormat) (n : Node) (p next : Parser) (c : Compiled)
    (some_text : n.unresolved ≠ []) (ran : n.compile f p = (.ok c,next)) :
    Represents f n c ↔ n.WellShaped := by
  have parsed := (compileNode_parse f n some_text p).accepted ran
  have loop (kind : n.kind = .scanLoop ∨ n.kind = .rowLoop)
      (out : ((loopParse f (tokens n.unresolved).1 (tokens n.unresolved).2 p.sentinels).1.map
        .loop,(loopParse f (tokens n.unresolved).1 (tokens n.unresolved).2 p.sentinels).2) =
        (some c,next.sentinels)) :
      Represents f n c ↔ LoopShape (tokens n.unresolved).1 := by
    obtain ⟨parts,found,rfl⟩ := Option.map_eq_some_iff.mp (Prod.mk.inj out).1
    have main : n.kind ≠ .mainLoop := by rcases kind with kind | kind <;> simp [kind]
    simp only [Represents,if_neg main]
    exact loop_represented f n.unresolved p.sentinels next.sentinels parts some_text
      (Prod.ext found (Prod.mk.inj out).2)
  cases kind : n.kind with
  | mainLoop =>
    simp only [Node.parse,kind,Prod.mk.injEq] at parsed
    obtain ⟨parts,found,rfl⟩ := Option.map_eq_some_iff.mp parsed.1
    simp only [Represents,Node.WellShaped,kind]
    exact main_represented f n.unresolved parts some_text found
  | scanLoop =>
    simp only [Node.parse,kind] at parsed
    simpa only [Node.WellShaped,kind] using loop (.inl kind) parsed
  | rowLoop =>
    simp only [Node.parse,kind] at parsed
    simpa only [Node.WellShaped,kind] using loop (.inr kind) parsed
  | recAttr =>
    simp only [Node.parse,kind,Prod.mk.injEq] at parsed
    simp only [Node.WellShaped,kind]
    obtain ⟨found,_⟩ := parsed
    cases first : chainParse (tokens n.unresolved).1 (tokens n.unresolved).2 with
    | none => simp [first] at found
    | some fmt =>
      have fmtShape := record_represented f n.unresolved fmt first
      cases null : n.unresolved2 with
      | none =>
        obtain rfl : Compiled.record fmt fmt = c := by simpa [first,null] using found
        simp [Represents,null,fmtShape]
      | some source =>
        cases second : chainParse (tokens source).1 (tokens source).2 with
        | none => simp [first,null,second] at found
        | some nullFmt =>
          obtain rfl : Compiled.record fmt nullFmt = c := by
            simpa [first,null,second] using found
          simp [Represents,null,fmtShape,record_represented f source nullFmt second]

/-- A loop text with a whole core is compiled to its parts exactly when a cell begins it. -/
theorem core_compiled_iff (f : OutputFormat) (source : Text) (p : Parser)
    (first sep last : List Lexeme) (node dots : Lexeme) (id : Nat)
    (read : tokens source = (first ++ node::(sep ++ dots::last),.closed)) (cells : Cells first)
    (shape : CoreShape node sep dots last) (known : f.symbol node.symbol = some id) :
    (∃ next, compileLoop f source p =
      (.ok ⟨cellsPtr first,.node id,sep.head?.map Lexeme.text,cellsPtr last⟩,next)) ↔
    first ≠ [] := by
  have some_text : source ≠ [] := by
    rintro rfl
    simp [tokens_nil] at read
  have agrees := compileLoop_parse f source some_text p
  rw [read] at agrees
  constructor
  · rintro ⟨next,ran⟩ rfl
    have parsed := agrees.accepted ran
    -- the node is consumed as a missing cell, and the ellipsis as a missing node
    have dropped : (sep ++ dots::last).dropWhile Lexeme.isCell = dots::last := by
      have stop := cells_stop dots (.inr shape.dots)
      rcases shape.sep with rfl | ⟨l,rfl,plain⟩
      · simp [stop]
      · have isCell : l.isCell = true := by simp [Lexeme.isCell,plain,Token.isCell]
        simp [isCell,stop]
    have noNode : nodeOf f (dots::last) .closed = some (.theNullNode,last) := by
      simp [nodeOf,shape.dots]
    simp only [loopParse,List.nil_append,chainOf_other node _ (cells_stop node (.inl shape.node)),
      dropped,noNode] at parsed
    split_ifs at parsed <;> simp at parsed
  · intro begins
    rw [loopParse_core f first sep last node dots id p.sentinels begins cells shape known] at agrees
    obtain ⟨next,ran,_⟩ := agrees
    exact ⟨next,ran⟩

/-- Acceptance represents every token exactly for the texts of their kind's shape, and a
whole core keeps its parts exactly behind a cell. -/
theorem representation_exact (f : OutputFormat) (n : Node) (p : Parser)
    (some_text : n.unresolved ≠ []) :
    (∀ c next, n.compile f p = (.ok c,next) → (Represents f n c ↔ n.WellShaped)) ∧
    (n.kind = .scanLoop ∨ n.kind = .rowLoop → ∀ first sep last node dots id,
      tokens n.unresolved = (first ++ node::(sep ++ dots::last),.closed) → Cells first →
      CoreShape node sep dots last → f.symbol node.symbol = some id →
      ((∃ next, n.compile f p = (.ok (.loop
        ⟨cellsPtr first,.node id,sep.head?.map Lexeme.text,cellsPtr last⟩),next)) ↔
        first ≠ [])) := by
  refine ⟨fun c next ran => represents_iff_shape f n p next c some_text ran,?_⟩
  intro kind first sep last node dots id read cells shape known
  rw [← core_compiled_iff f n.unresolved p first sep last node dots id read cells shape known]
  have wrapped (parts : LoopParts) (next : Parser) :
      n.compile f p = (.ok (.loop parts),next) ↔
        compileLoop f n.unresolved p = (.ok parts,next) := by
    have same : n.compile f = (do return .loop (← compileLoop f n.unresolved)) := by
      rcases kind with kind | kind <;> simp only [Node.compile,kind]
    rw [same,Prog.bind_run]
    rcases compileLoop f n.unresolved p with ⟨outcome,q⟩
    cases outcome <;> simp
  simp only [wrapped]

def itemFormat : OutputFormat :=
  (OutputFormat.new (text "t")).addSymbol (text "item") .recAttr (text "$value$") none

/-- `Row row = "$item$, ..."` -/
def emptyBeginRow : Node := ⟨text "row",.rowLoop,text "$item$, ...",none,.no⟩

/-- `Row row = " { $item$ , ... }"`, the row of the JSON format -/
def bracedRow : Node := ⟨text "row",.rowLoop,text " \x7b $item$ , ... \x7d",none,.no⟩

theorem representation_exact_braced : ∃ next, bracedRow.compile itemFormat .initial =
    (.ok (.loop ⟨.chain (Cell.constant (text " \x7b ")) [],.node 0,some (text " , "),
      .chain (Cell.constant (text " \x7d")) []⟩),next) :=
  ((representation_exact itemFormat bracedRow .initial (by decide)).2 (.inr rfl)
    [⟨.plaintext,text " \x7b "⟩] [⟨.plaintext,text " , "⟩] [⟨.plaintext,text " \x7d"⟩]
    ⟨.node,text "$item$"⟩ ⟨.ellipses,text "..."⟩ 0 (by rfl) (by simp [Cells,Lexeme.isCell,Token.isCell])
    ⟨rfl,.inr ⟨_,rfl,rfl⟩,rfl,by simp [Cells,Lexeme.isCell,Token.isCell]⟩ (by rfl)).mpr (by simp)

theorem empty_begin_dropped :
    ¬∀ (f : OutputFormat) (n : Node) (p next : Parser) (c : Compiled), n.unresolved ≠ [] →
      n.compile f p = (.ok c,next) → Represents f n c := by
  intro represents
  have read : tokens emptyBeginRow.unresolved =
      ([⟨.node,text "$item$"⟩,⟨.plaintext,text ", "⟩,⟨.ellipses,text "..."⟩],.closed) := by rfl
  have parsed : emptyBeginRow.parse itemFormat Parser.initial.sentinels =
      (some (.loop ⟨.theNullCell,.theNullNode,none,.theNullCell⟩),
        {Sentinels.initial with nullCellNext := [Cell.constant (text ", ")]}) := by rfl
  have agrees := compileNode_parse itemFormat emptyBeginRow (by decide) .initial
  rw [parsed] at agrees
  obtain ⟨next,ran,_⟩ := agrees
  obtain ⟨ls,read',stands⟩ := represents _ _ _ _ _ (by decide) ran
  rw [read] at read'
  obtain ⟨rfl,_⟩ := Prod.mk.inj read'
  cases stands

end ModNdb.Format
