import ModNdb.Format.Written
import ModNdb.Format.ScanPage

/-! Which writes to the buffer print the parts of a page. -/
namespace ModNdb.Format
open MySQL (Printers Column)

theorem pageOf_append (first later : List Write) :
    pageOf (first ++ later) = pageOf first ++ pageOf later := List.flatMap_append

theorem pageOf_flatMap {α : Type} (l : List α) (writes : α → List Write) :
    pageOf (l.flatMap writes) = l.flatMap fun a => pageOf (writes a) := List.flatMap_assoc

section
variable (printers : Printers) (spare : Column → Text → Nat)

/-- `result->out(res, escapes)`, given how much more room than it needs a decimal takes. -/
def valueWrites (col : Column) (raw : Text) (escapes : ReEsc) : List Write :=
  let printed := (MySQL.out printers col raw (MySQL.getEscapes escapes)).bytes
  match col.type with
  | .varchar | .varbinary | .char | .binary | .longvarchar | .longvarbinary | .text =>
    if escapes = .noEsc then [.copied printed] else [.escaped printed]
  | .blob => if escapes = .noEsc then [.copied printed] else [.formatted printed]
  | .decimal | .decimalunsigned => [.decimal printed (spare col raw)]
  | .olddecimal | .olddecimalunsigned | .undefined => []
  | _ => [.formatted printed]

theorem valueWrites_page (col : Column) (raw : Text) (escapes : ReEsc) :
    pageOf (valueWrites printers spare col raw escapes) =
      (MySQL.out printers col raw (MySQL.getEscapes escapes)).bytes := by
  unfold valueWrites
  have one (write : Write) : pageOf [write] = write.bytes := List.append_nil _
  cases type : col.type <;> dsimp only <;> first
    | exact one _
    | (split <;> exact one _)
    | (unfold MySQL.out; rw [type]; rfl)

variable (s : Sentinels) (data : DataOperation)

/-- `Cell::out(data, n, res)` -/
def Cell.writes (c : Cell) (n : Nat) (row : Row) : List Write :=
  if c.elemType = .constString then [.copied c.string]
  else match data.cols[n]? with
    | none => []
    | some col =>
      if c.elemType = .itemName then
        if c.elemQuote = .noQuot then [.copied (col.shownName data)]
        else [.formatted ([code '"'] ++ col.shownName data ++ [code '"'])]
      else
        let value := valueWrites printers spare col.column (row n).raw c.escapes
        if c.elemQuote = .quoteAll ∨ c.elemQuote = .quoteChar ∧ isQuoted col.column.type then
          [.copied [code '"']] ++ value ++ [.copied [code '"']]
        else value

/-- `Cell::out(data, res)` -/
def Cell.writesNumbered (c : Cell) (row : Row) : List Write :=
  if c.elemType = .constString then [.copied c.string]
  else if data.nResultCols < c.i.toNat then []
  else c.writes printers spare data (c.i - 1).toNat row

def columnWrites (f : OutputFormat) (core : NodeRef) (row : Row) (n : Nat) : List Write :=
  match core with
  | .theNullNode => (s.nullNode.first s).writes printers spare data n row
  | .node id =>
    match (f.nodes[id]?).map Node.compiled with
    | some (.record fmt nullFmt) =>
      ((if (row n).isNull then nullFmt else fmt).cells s).flatMap fun c =>
        c.writes printers spare data n row
    | _ => []

def chainWrites (c : CellPtr) (row : Row) : List Write :=
  (c.cells s).flatMap fun c => c.writesNumbered printers spare data row

def separated (sep : Text) : List (List Write) → List Write
  | [] => []
  | first::later => first ++ later.flatMap (.copied sep :: ·)

/-- `RowLoop::Run` -/
def rowWrites (f : OutputFormat) (parts : LoopParts) (row : Row) : List Write :=
  chainWrites printers spare s data parts.begin row ++
    (separated (parts.sep.getD s.nullString)
      ((List.range data.nResultCols).map (columnWrites printers spare s data f parts.core row)) ++
    chainWrites printers spare s data parts.end_ row)

/-- `ScanLoop::Run` over the rows of a scan. -/
def scanWrites (parts : LoopParts) (each : Row → List Write) (rows : List Row) : List Write :=
  if rows = [] then []
  else (parts.begin.cells s).map (.copied ·.string) ++
    (separated (parts.sep.getD s.nullString) (rows.map each) ++
    (parts.end_.cells s).map (.copied ·.string))

/-- `MainLoop::Run` -/
def mainWrites (parts : LoopParts) (core : List Write) : List Write :=
  .copied (parts.begin.first s).string :: (core ++ [.copied (parts.end_.first s).string])

theorem cell_page (c : Cell) (n : Nat) (row : Row) :
    pageOf (c.writes printers spare data n row) = (c.rendered printers data n row).bytes := by
  have one (write : Write) : pageOf [write] = write.bytes := List.append_nil _
  unfold Cell.writes Cell.rendered
  by_cases constant : c.elemType = .constString
  · rw [if_pos constant,if_pos constant]
    exact one _
  rw [if_neg constant,if_neg constant]
  cases data.cols[n]? with
  | none => rfl
  | some col =>
    dsimp only
    by_cases name : c.elemType = .itemName
    · rw [if_pos name,if_pos name]
      by_cases bare : c.elemQuote = .noQuot
      · rw [if_pos bare,if_pos bare]
        exact one _
      · rw [if_neg bare,if_neg bare]
        exact one _
    rw [if_neg name,if_neg name]
    have value := valueWrites_page printers spare col.column (row n).raw c.escapes
    by_cases quoted : c.elemQuote = .quoteAll ∨ c.elemQuote = .quoteChar ∧ isQuoted col.column.type
    · rw [if_pos quoted,if_pos quoted,pageOf_append,pageOf_append,value]
      rfl
    · rw [if_neg quoted,if_neg quoted]
      exact value

theorem numbered_page (c : Cell) (row : Row) : pageOf (c.writesNumbered printers spare data row) =
    (c.renderedNumbered printers data row).bytes := by
  unfold Cell.writesNumbered Cell.renderedNumbered
  by_cases constant : c.elemType = .constString
  · rw [if_pos constant,if_pos constant]
    exact List.append_nil _
  rw [if_neg constant,if_neg constant]
  by_cases missing : data.nResultCols < c.i.toNat
  · rw [if_pos missing,if_pos missing]
    rfl
  · rw [if_neg missing,if_neg missing]
    exact cell_page printers spare data c _ row

theorem cells_page {α : Type} (l : List α) (writes : α → List Write) (piece : α → MySQL.Printed)
    (each : ∀ a, pageOf (writes a) = (piece a).bytes) :
    pageOf (l.flatMap writes) = (inTurn (l.map piece)).bytes := by
  rw [pageOf_flatMap]
  unfold inTurn
  rw [List.flatMap_map]
  exact List.flatMap_congr fun a _ => each a

theorem column_page (f : OutputFormat) (core : NodeRef) (row : Row) (n : Nat) :
    pageOf (columnWrites printers spare s data f core row n) =
      (columnRendered printers s data f core row n).bytes := by
  unfold columnWrites columnRendered
  cases core with
  | theNullNode => exact cell_page printers spare data _ n row
  | node id =>
    dsimp only
    cases (f.nodes[id]?).map Node.compiled with
    | none => rfl
    | some compiled =>
      cases compiled with
      | record fmt nullFmt =>
        exact cells_page _ _ _ fun c => cell_page printers spare data c n row
      | _ => rfl

theorem separated_page (sep : Text) (parts : List (List Write)) :
    pageOf (separated sep parts) = joined sep (parts.map pageOf) := by
  cases parts with
  | nil => rfl
  | cons first later =>
    unfold separated
    rw [pageOf_append,pageOf_flatMap]
    change _ = pageOf first ++ (later.map pageOf).flatMap (sep ++ ·)
    rw [List.flatMap_map]
    rfl

theorem row_page (f : OutputFormat) (parts : LoopParts) (row : Row) :
    pageOf (rowWrites printers spare s data f parts row) =
      (rowRendered printers s data f parts row).bytes := by
  have chain (c : CellPtr) : pageOf (chainWrites printers spare s data c row) =
      (chainRendered printers s data c row).bytes :=
    cells_page _ _ _ fun cell => numbered_page printers spare data cell row
  have columns : ((List.range data.nResultCols).map
      (columnWrites printers spare s data f parts.core row)).map pageOf =
      ((List.range data.nResultCols).map
        (columnRendered printers s data f parts.core row)).map MySQL.Printed.bytes := by
    rw [List.map_map,List.map_map]
    exact List.map_congr_left fun n _ => column_page printers spare s data f parts.core row n
  unfold rowWrites rowRendered inTurn
  rw [pageOf_append,pageOf_append,separated_page,chain,chain,columns]
  simp only [List.flatMap_cons,List.flatMap_nil,List.append_nil]
  rfl

omit printers spare data in
theorem scan_page_writes (parts : LoopParts) (writes : Row → List Write) (each : Row → MySQL.Printed)
    (same : ∀ row, pageOf (writes row) = (each row).bytes) (rows : List Row) :
    pageOf (scanWrites s parts writes rows) = scanRendered s parts each rows := by
  have texts (cells : List Cell) : pageOf (cells.map (.copied ·.string)) = cells.flatMap Cell.string := by
    unfold pageOf
    rw [List.flatMap_map]
    rfl
  unfold scanWrites scanRendered
  by_cases none : rows = []
  · rw [if_pos none,if_pos none]
    rfl
  · have pages : (rows.map writes).map pageOf = rows.map fun row => (each row).bytes := by
      rw [List.map_map]
      exact List.map_congr_left fun row _ => same row
    rw [if_neg none,if_neg none,pageOf_append,pageOf_append,texts,texts,separated_page,pages]

/-- What `build_results` prints for rows between brackets is what its writes make. -/
theorem main_writes (f : OutputFormat) (mainParts scanParts rowParts : LoopParts)
    (core : RowCore f rowParts.core) (scan : data.scanop = true) (p : Page) : ∃ status q,
    mainRun s mainParts (scanRun s data scanParts (rowRun printers s data f rowParts)) p =
        (.ok status,q) ∧
      q.bytes = p.bytes ++ pageOf (mainWrites s mainParts
        (scanWrites s scanParts (rowWrites printers spare s data f rowParts) p.cursor.rows)) := by
  obtain ⟨q,ran,bytes⟩ := scanRun_prints s data scanParts (rowRun printers s data f rowParts)
    (fun row => rowRendered printers s data f rowParts row) (rowRun_prints printers s data f rowParts core)
    scan {p with bytes := p.bytes ++ (mainParts.begin.first s).string}
  have page := scan_page_writes s scanParts (rowWrites printers spare s data f rowParts)
    (fun row => rowRendered printers s data f rowParts row)
    (row_page printers spare s data f rowParts) p.cursor.rows
  unfold mainRun
  rw [Prog.bind_ok _ (print_run _ p),Prog.bind_ok _ ran,Prog.bind_ok _ (print_run _ q)]
  refine ⟨_,_,rfl,?_⟩
  change q.bytes ++ (mainParts.end_.first s).string = _
  rw [bytes,← page]
  unfold mainWrites pageOf
  rw [List.flatMap_cons,List.flatMap_append]
  simp only [List.flatMap_cons,List.flatMap_nil,List.append_nil,List.append_assoc]
  rfl

end

end ModNdb.Format
