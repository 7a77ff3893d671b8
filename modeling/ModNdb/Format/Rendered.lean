import ModNdb.Format.Runs
import ModNdb.Format.JsonPage

/-! What cells, columns and rows print, as texts of their own. -/
namespace ModNdb.Format
open MySQL (Printers Printed plain)

def inTurn (pieces : List Printed) : Printed :=
  ⟨pieces.flatMap Printed.bytes,pieces.any Printed.outside⟩

section
variable (printers : Printers) (s : Sentinels) (data : DataOperation)

def Cell.rendered (c : Cell) (n : Nat) (row : Row) : Printed :=
  if c.elemType = .constString then plain c.string
  else match data.cols[n]? with
    | none => plain []
    | some col =>
      if c.elemType = .itemName then
        plain (if c.elemQuote = .noQuot then col.shownName data
          else [code '"'] ++ col.shownName data ++ [code '"'])
      else
        let value := MySQL.out printers col.column (row n).raw (MySQL.getEscapes c.escapes)
        if c.elemQuote = .quoteAll ∨ c.elemQuote = .quoteChar ∧ isQuoted col.column.type then
          ⟨[code '"'] ++ value.bytes ++ [code '"'],value.outside⟩
        else value

def Cell.renderedNumbered (c : Cell) (row : Row) : Printed :=
  if c.elemType = .constString then plain c.string
  else if data.nResultCols < c.i.toNat then plain []
  else c.rendered printers data (c.i - 1).toNat row

def columnRendered (f : OutputFormat) (core : NodeRef) (row : Row) (n : Nat) : Printed :=
  match core with
  | .theNullNode => (s.nullNode.first s).rendered printers data n row
  | .node id =>
    match (f.nodes[id]?).map Node.compiled with
    | some (.record fmt nullFmt) =>
      inTurn (((if (row n).isNull then nullFmt else fmt).cells s).map fun c =>
        c.rendered printers data n row)
    | _ => plain []

def chainRendered (c : CellPtr) (row : Row) : Printed :=
  inTurn ((c.cells s).map fun c => c.renderedNumbered printers data row)

def columnsRendered (f : OutputFormat) (parts : LoopParts) (row : Row) : Printed :=
  let columns := (List.range data.nResultCols).map (columnRendered printers s data f parts.core row)
  ⟨joined (parts.sep.getD s.nullString) (columns.map Printed.bytes),columns.any Printed.outside⟩

def rowRendered (f : OutputFormat) (parts : LoopParts) (row : Row) : Printed :=
  inTurn [chainRendered printers s data parts.begin row,
    columnsRendered printers s data f parts row,chainRendered printers s data parts.end_ row]

def scanRendered (parts : LoopParts) (each : Row → Printed) (rows : List Row) : Text :=
  if rows = [] then []
  else (parts.begin.cells s).flatMap Cell.string ++
    (joined (parts.sep.getD s.nullString) (rows.map fun row => (each row).bytes) ++
    (parts.end_.cells s).flatMap Cell.string)

theorem outAt_prints (c : Cell) (n : Nat) (p : Page) :
    PrintsAt p (c.outAt printers data n) () (c.rendered printers data n p.cursor.current).bytes
      (c.rendered printers data n p.cursor.current).outside := by
  unfold Cell.outAt Cell.rendered
  by_cases constant : c.elemType = .constString
  · rw [if_pos constant,if_pos constant]
    exact .print p _
  rw [if_neg constant,if_neg constant]
  apply PrintsAt.skip (.readColumn p n)
  intro q same
  cases data.cols[n]? with
  | none => exact .pure q ()
  | some col =>
    have value (r : Page) (here : r.cursor = q.cursor) :
        PrintsAt r (printResult printers col.column n c.escapes) ()
          (MySQL.out printers col.column (p.cursor.current n).raw (MySQL.getEscapes c.escapes)).bytes
          (MySQL.out printers col.column (p.cursor.current n).raw
            (MySQL.getEscapes c.escapes)).outside := by
      rw [← same,← here]
      exact ⟨_,rfl,rfl,rfl,rfl⟩
    dsimp only
    by_cases name : c.elemType = .itemName
    · rw [if_pos name,if_pos name]
      by_cases bare : c.elemQuote = .noQuot
      · rw [if_pos bare,if_pos bare]
        exact .print q _
      · rw [if_neg bare,if_neg bare]
        exact .print q _
    rw [if_neg name,if_neg name]
    by_cases quoted : c.elemQuote = .quoteAll ∨ c.elemQuote = .quoteChar ∧ isQuoted col.column.type
    · rw [if_pos quoted,if_pos quoted]
      dsimp only
      rw [List.append_assoc,← Bool.or_false (MySQL.out _ _ _ _).outside]
      exact (PrintsAt.print q [code '"']).bind fun r here =>
        (value r here).bind fun t _ => .print t [code '"']
    · rw [if_neg quoted,if_neg quoted]
      exact value q rfl

theorem outNumbered_prints (c : Cell) (p : Page) :
    PrintsAt p (c.outNumbered printers data) ()
      (c.renderedNumbered printers data p.cursor.current).bytes
      (c.renderedNumbered printers data p.cursor.current).outside := by
  unfold Cell.outNumbered Cell.renderedNumbered
  by_cases constant : c.elemType = .constString
  · rw [if_pos constant,if_pos constant]
    exact .print p _
  rw [if_neg constant,if_neg constant]
  by_cases missing : data.nResultCols < c.i.toNat
  · rw [if_pos missing,if_pos missing]
    exact .pure p ()
  · rw [if_neg missing,if_neg missing]
    exact outAt_prints printers data c _ p

theorem PrintsAt.inTurn {α : Type} {p : Page} {l : List α} {f : α → Build PUnit} {piece : α → Printed}
    (each : ∀ a ∈ l, ∀ q, q.cursor = p.cursor →
      PrintsAt q (f a) ⟨⟩ (piece a).bytes (piece a).outside) :
    PrintsAt p (l.forM f) ⟨⟩ (Format.inTurn (l.map piece)).bytes
      (Format.inTurn (l.map piece)).outside := by
  unfold Format.inTurn
  rw [List.flatMap_map,List.any_map]
  exact PrintsAt.forM each

theorem chainOut_prints (c : CellPtr) (p : Page) :
    PrintsAt p (chainOut printers s data c) () (chainRendered printers s data c p.cursor.current).bytes
      (chainRendered printers s data c p.cursor.current).outside := by
  apply PrintsAt.inTurn
  intro cell _ q same
  rw [← same]
  exact outNumbered_prints printers data cell q

theorem chainText_prints (c : CellPtr) (p : Page) :
    PrintsAt p (chainText s c) () ((c.cells s).flatMap Cell.string) false := by
  have none : ((c.cells s).any fun _ => false) = false := List.any_eq_false.mpr fun _ _ => by simp
  rw [← none]
  exact PrintsAt.forM fun cell _ q _ => .print q _

theorem nodeOut_prints (f : OutputFormat) (core : NodeRef) (n : Nat) (p : Page)
    (implemented : RowCore f core) :
    PrintsAt p (nodeOut printers s data f n core) ()
      (columnRendered printers s data f core p.cursor.current n).bytes
      (columnRendered printers s data f core p.cursor.current n).outside := by
  cases core with
  | theNullNode => exact outAt_prints printers data _ n p
  | node id =>
    obtain ⟨node,found,kind,compiled⟩ := implemented
    obtain ⟨fmt,nullFmt,record⟩ : ∃ fmt nullFmt, node.compiled = .record fmt nullFmt := by
      unfold Node.IsCompiled at compiled
      rw [kind] at compiled
      cases parts : node.compiled with
      | record fmt nullFmt => exact ⟨fmt,nullFmt,rfl⟩
      | _ =>
        rw [parts] at compiled
        exact compiled.elim
    unfold nodeOut columnRendered
    dsimp only
    rw [found]
    dsimp only [Option.map_some]
    rw [if_pos kind,record]
    apply PrintsAt.skip (.readColumn p n)
    intro q same
    apply PrintsAt.get
    dsimp only
    rw [← same]
    apply PrintsAt.inTurn
    intro cell _ r here
    rw [← here]
    exact outAt_prints printers data cell n r

theorem columns_print (f : OutputFormat) (parts : LoopParts) (core : RowCore f parts.core) (p : Page) :
    PrintsAt p ((List.range data.nResultCols).forM fun n => do
        if n ≠ 0 then print (parts.sep.getD s.nullString)
        nodeOut printers s data f n parts.core) ⟨⟩
      (columnsRendered printers s data f parts p.cursor.current).bytes
      (columnsRendered printers s data f parts p.cursor.current).outside := by
  let column := columnRendered printers s data f parts.core p.cursor.current
  let texts := ((List.range data.nResultCols).map column).map Printed.bytes
  have text (n : Nat) (inside : n ∈ List.range data.nResultCols) : texts.getD n [] = (column n).bytes := by
    have below := List.mem_range.mp inside
    simp [texts,List.getD_eq_getElem?_getD,List.getElem?_range below]
  have size : texts.length = data.nResultCols := by simp [texts]
  have items : joined (parts.sep.getD s.nullString) texts =
      (List.range data.nResultCols).flatMap fun n =>
        (if n ≠ 0 then parts.sep.getD s.nullString else []) ++ texts.getD n [] := by
    rw [← size,range_joined]
  change PrintsAt p _ _ (joined _ texts) (((List.range data.nResultCols).map column).any Printed.outside)
  rw [items,List.any_map]
  apply PrintsAt.forM
  intro n inside q same
  rw [text n inside]
  have item (r : Page) (here : r.cursor = q.cursor) :
      PrintsAt r (nodeOut printers s data f n parts.core) ⟨⟩ (column n).bytes (column n).outside := by
    have printed := nodeOut_prints printers s data f parts.core n r core
    rw [here,same] at printed
    exact printed
  by_cases first : n ≠ 0
  · simp only [if_pos first]
    exact (PrintsAt.print q _).bind item
  · simp only [if_neg first]
    exact item q rfl

theorem rowRun_prints (f : OutputFormat) (parts : LoopParts) (core : RowCore f parts.core) (p : Page) :
    PrintsAt p (rowRun printers s data f parts) .ok
      (rowRendered printers s data f parts p.cursor.current).bytes
      (rowRendered printers s data f parts p.cursor.current).outside := by
  obtain ⟨q,ran,bytes,outside,here⟩ := chainOut_prints printers s data parts.begin p
  obtain ⟨r,ran',bytes',outside',here'⟩ := columns_print printers s data f parts core q
  obtain ⟨t,ran'',bytes'',outside'',here''⟩ := chainOut_prints printers s data parts.end_ r
  rw [here] at bytes' outside' here'
  rw [here'] at bytes'' outside'' here''
  refine ⟨t,?_,?_,?_,here''⟩
  · unfold rowRun
    rw [Prog.bind_ok _ ran,Prog.bind_ok _ ran',Prog.bind_ok _ ran'']
    rfl
  · rw [bytes'',bytes',bytes]
    unfold rowRendered inTurn
    simp only [List.flatMap_cons,List.flatMap_nil,List.append_nil,List.append_assoc]
  · rw [outside'',outside',outside]
    unfold rowRendered inTurn
    simp only [List.any_cons,List.any_nil,Bool.or_false,Bool.or_assoc]

end

end ModNdb.Format
