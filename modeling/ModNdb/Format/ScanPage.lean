import ModNdb.Format.Scanning

/-! The page of a scan whose rows come in batches, and what becomes of a scan's errors. -/
namespace ModNdb.Format
open MySQL (Printers)

/-- The answers of a scan that ends without error, and its rows. Only the inner loop, which
has a row in hand, is told that the cache is empty. -/
inductive Ends : Bool → List Answer → List Row → Prop
  | done (later : List Answer) : Ends false (.endOfScan::later) []
  | row (inner : Bool) (row : Row) (answers : List Answer) (rows : List Row)
      (rest : Ends true answers rows) : Ends inner (.row row::answers) (row::rows)
  | cached (answers : List Answer) (rows : List Row) (rest : Ends false answers rows) :
      Ends true (.endOfCache::answers) rows
  | last (answers : List Answer) (rows : List Row) (rest : Ends false answers rows) :
      Ends true (.endOfScan::answers) rows

theorem Ends.delivered (inner : Bool) (answers : List Answer) (rows : List Row)
    (ends : Ends inner answers rows) : delivered inner answers = rows := by
  induction ends with
  | done later => rfl
  | row inner row answers rows rest ih =>
    unfold Format.delivered
    rw [ih]
  | cached answers rows rest ih => exact ih
  | last answers rows rest ih => exact ih

/-- The answers for batches, each being a row from NDB and those cached with it. -/
def batchAnswers : List (Row × List Row) → List Answer
  | [] => [.endOfScan]
  | (row,cached)::later => .row row::(cached.map .row ++ .endOfCache::batchAnswers later)

theorem batches_end (later : List (Row × List Row)) :
    Ends false (batchAnswers later) (later.flatMap fun batch => batch.1::batch.2) := by
  have cached (rows : List Row) (answers : List Answer) (more : List Row)
      (rest : Ends true answers more) : Ends true (rows.map .row ++ answers) (rows ++ more) := by
    induction rows with
    | nil => exact rest
    | cons row rows ih => exact .row true row _ _ ih
  induction later with
  | nil => exact .done []
  | cons batch later ih => exact .row false _ _ _ (cached batch.2 _ _ (.cached _ _ ih))

section
variable (s : Sentinels) (data : DataOperation) (parts : LoopParts)

theorem overRows_prints (step : Nat → Build Unit) (piece : Nat → Row → Text) (outside : Row → Bool)
    (each : ∀ n p, PrintsAt p (step n) () (piece n p.cursor.current) (outside p.cursor.current))
    (n : Nat) (rows : List Row) (p : Page) :
    ∃ q, overRows step n rows p = (.ok (),q) ∧ q.bytes = p.bytes ++ rowsFrom piece n rows := by
  induction rows generalizing n p with
  | nil => exact ⟨p,rfl,(List.append_nil _).symm⟩
  | cons row rows ih =>
    obtain ⟨q,ran,bytes,_,_⟩ := each n {p with cursor := {p.cursor with current := row}}
    obtain ⟨r,ran',bytes'⟩ := ih (n + 1) q
    refine ⟨r,?_,?_⟩
    · unfold overRows
      rw [Prog.bind_ok _ (Prog.modify_run _ p),Prog.bind_ok _ ran,ran']
    · rw [bytes',bytes,rowsFrom,List.append_assoc]

theorem overRows_finishes (step : Nat → Build Unit) (each : ∀ n p, ∃ q, step n p = (.ok (),q))
    (n : Nat) (rows : List Row) (p : Page) : ∃ q, overRows step n rows p = (.ok (),q) := by
  induction rows generalizing n p with
  | nil => exact ⟨p,rfl⟩
  | cons row rows ih =>
    obtain ⟨q,ran⟩ := each n {p with cursor := {p.cursor with current := row}}
    obtain ⟨r,ran'⟩ := ih (n + 1) q
    refine ⟨r,?_⟩
    unfold overRows
    rw [Prog.bind_ok _ (Prog.modify_run _ p),Prog.bind_ok _ ran,ran']

/-- The status of a scan depends on whether there were rows, and only on that. -/
theorem scanLoopRun_rows (core : Build Status) (scan : data.scanop = true) (answers : List Answer)
    (p q : Page)
    (ran : overRows (scanRow s parts core) 0 (delivered false answers) p = (.ok (),q)) :
    ∃ last, scanLoopRun s data parts core ⟨p,answers⟩ =
        (.ok (if delivered false answers = [] then .notFound else .ok),last) ∧
      last.page.bytes = q.bytes ++
        if delivered false answers = [] then [] else (parts.end_.cells s).flatMap Cell.string := by
  obtain ⟨left,looped⟩ := fetchLoop_overRows (scanRow s parts core) (answers.length + 1) 0 answers p q
    (Nat.lt_succ_self _) ran
  unfold scanLoopRun
  rw [if_pos scan,Prog.bind_ok _ (Prog.get_run _),Prog.bind_ok _ looped]
  by_cases none : delivered false answers = []
  · rw [none]
    exact ⟨⟨q,left⟩,rfl,(List.append_nil _).symm⟩
  · have some : 0 + (delivered false answers).length ≠ 0 := by
      rw [Nat.zero_add]
      exact fun zero => none (List.length_eq_zero_iff.mp zero)
    obtain ⟨r,closed,bytes,_,_⟩ := chainText_prints s parts.end_ q
    simp only [if_pos some,if_neg none]
    rw [Prog.bind_ok _ (onPage_ok _ () q r left closed)]
    exact ⟨⟨r,left⟩,rfl,bytes⟩

section
variable (core : Build Status) (each : Row → MySQL.Printed)
  (prints : ∀ p, PrintsAt p core .ok (each p.cursor.current).bytes (each p.cursor.current).outside)

def pieceOf (n : Nat) (row : Row) : Text :=
  (if n ≠ 0 then parts.sep.getD s.nullString else (parts.begin.cells s).flatMap Cell.string) ++
    (each row).bytes

include prints

theorem scanRow_prints_piece (n : Nat) (p : Page) :
    PrintsAt p (scanRow s parts core n) () (pieceOf s parts each n p.cursor.current)
      (each p.cursor.current).outside := by
  have behind (q : Page) (same : q.cursor = p.cursor) : PrintsAt q (do let _ ← core) ()
      (each p.cursor.current).bytes (each p.cursor.current).outside := by
    rw [← same]
    obtain ⟨r,ran,printed,read,here⟩ := prints q
    exact ⟨r,by rw [Prog.bind_ok _ ran]; rfl,printed,read,here⟩
  unfold scanRow pieceOf
  by_cases zero : n ≠ 0
  · simp only [if_pos zero]
    exact (PrintsAt.print p _).bind behind
  · simp only [if_neg zero]
    exact (chainText_prints s parts.begin p).bind behind

omit prints in
/-- The rows of a scan, from its first bracket on. -/
theorem rowsFrom_scan (rows : List Row) :
    rowsFrom (pieceOf s parts each) 0 rows ++
      (if rows = [] then [] else (parts.end_.cells s).flatMap Cell.string) =
    scanRendered s parts each rows := by
  unfold scanRendered
  cases rows with
  | nil => rfl
  | cons row rows =>
    rw [if_neg (List.cons_ne_nil _ _),if_neg (List.cons_ne_nil _ _)]
    unfold pieceOf
    rw [rowsFrom_joined,List.append_assoc]

theorem scan_prints (scan : data.scanop = true) (answers : List Answer) (p : Page) :
    ∃ last, scanLoopRun s data parts core ⟨p,answers⟩ =
        (.ok (if delivered false answers = [] then .notFound else .ok),last) ∧
      last.page.bytes = p.bytes ++ scanRendered s parts each (delivered false answers) := by
  obtain ⟨q,ran,bytes⟩ := overRows_prints (scanRow s parts core) (pieceOf s parts each)
    (fun row => (each row).outside) (scanRow_prints_piece s parts core each prints) 0
    (delivered false answers) p
  obtain ⟨last,ran',bytes'⟩ := scanLoopRun_rows s data parts core scan answers p q ran
  refine ⟨last,ran',?_⟩
  rw [bytes',bytes,List.append_assoc,rowsFrom_scan]

/-- `scanRun`, whose cursor holds the batches, builds the page of their answers. -/
theorem scanRun_prints (scan : data.scanop = true) (p : Page) :
    ∃ q, scanRun s data parts core p =
        (.ok (if p.cursor.rows = [] then .notFound else .ok),q) ∧
      q.bytes = p.bytes ++ scanRendered s parts each p.cursor.rows := by
  obtain ⟨q,looped,bytes,_⟩ := @fetchedRows_prints (scanRow s parts core) (pieceOf s parts each)
    (fun row => (each row).outside) (scanRow_prints_piece s parts core each prints)
    (p.cursor.remaining + 1) 0 p (Nat.lt_succ_self _)
  unfold scanRun
  rw [if_pos scan,Prog.bind_ok _ (Prog.get_run p),Prog.bind_ok _ looped,← rowsFrom_scan,
    ← List.append_assoc,← bytes]
  by_cases none : p.cursor.rows = []
  · rw [none]
    exact ⟨q,rfl,(List.append_nil _).symm⟩
  · have some : 0 + p.cursor.rows.length ≠ 0 := by
      rw [Nat.zero_add]
      exact fun zero => none (List.length_eq_zero_iff.mp zero)
    obtain ⟨r,closed,bytes',_,_⟩ := chainText_prints s parts.end_ q
    simp only [if_pos some,if_neg none]
    rw [Prog.bind_ok _ closed]
    exact ⟨r,rfl,bytes'⟩

/-- Both run alike on the batches of a cursor. -/
theorem scanRun_answers (scan : data.scanop = true) (p : Page) (fresh : p.cursor.cached = []) :
    ∃ status q last, scanRun s data parts core p = (.ok status,q) ∧
      scanLoopRun s data parts core ⟨p,batchAnswers p.cursor.later⟩ = (.ok status,last) ∧
      q.bytes = last.page.bytes := by
  obtain ⟨q,ran,bytes⟩ := scanRun_prints s data parts core each prints scan p
  obtain ⟨last,ran',bytes'⟩ := scan_prints s data parts core each prints scan
    (batchAnswers p.cursor.later) p
  have rows : delivered false (batchAnswers p.cursor.later) = p.cursor.rows := by
    unfold Cursor.rows
    rw [fresh]
    exact (batches_end _).delivered
  rw [rows] at ran' bytes'
  exact ⟨_,q,last,ran,ran',bytes.trans bytes'.symm⟩

end

/-- The page of a scan over rows of columns, however its rows are batched. -/
theorem scan_page (printers : Printers) (f : OutputFormat) (rowParts : LoopParts)
    (core : RowCore f rowParts.core) (scan : data.scanop = true) (answers : List Answer)
    (rows : List Row) (ends : Ends false answers rows) (p : Page) :
    ∃ last, scanLoopRun s data parts (rowRun printers s data f rowParts) ⟨p,answers⟩ =
        (.ok (if rows = [] then .notFound else .ok),last) ∧
      last.page.bytes =
        p.bytes ++ scanRendered s parts (rowRendered printers s data f rowParts) rows := by
  have rendered := ends.delivered
  subst rendered
  exact scan_prints s data parts _ _ (rowRun_prints printers s data f rowParts core) scan answers p

end

def scannedInt : DataOperation := ⟨false,[⟨⟨text "i",.int,0,0⟩,text "i"⟩],true,by decide⟩

def blankPage : Page := ⟨[],[],false,⟨fun _ => ⟨true,[]⟩,[],[]⟩⟩

theorem jsonRow_core : RowCore jsonCompiled jsonRow.core := ⟨_,rfl,rfl,trivial⟩

/-- A row from NDB and one from the cache. -/
theorem scan_page_two : ∃ last,
    scanLoopRun .initial scannedInt jsonScan (rowRun printNothing .initial scannedInt jsonCompiled jsonRow)
      ⟨blankPage,[.row fun _ => ⟨false,[7,0,0,0]⟩,.row fun _ => ⟨true,[]⟩,.endOfCache,.endOfScan]⟩ =
        (.ok .ok,last) ∧
    last.page.bytes = text "[\n  \x7b \"i\":7 \x7d,\n  \x7b \"i\":null \x7d \n]" := by
  obtain ⟨last,ran,bytes⟩ := scan_page .initial scannedInt jsonScan printNothing jsonCompiled jsonRow
    jsonRow_core rfl _ _ (.row false (fun _ => ⟨false,[7,0,0,0]⟩) _ _ (.row true (fun _ => ⟨true,[]⟩) _ _
      (.cached _ _ (.done [])))) blankPage
  exact ⟨last,ran,bytes.trans (by decide)⟩

/-- `OK` and `404` -/
def Status.code : Status → Nat
  | .ok => 0
  | .notFound => 404

/-- A scan that NDB ends with an error comes back with a status that is one. -/
def ReportsErrors (run : Scanning Status) (p : Page) (answers : List Answer) : Prop :=
  ∃ status last, run ⟨p,answers⟩ = (.ok status,last) ∧
    (erred false answers = true → status.code ≠ 0 ∧ status.code ≠ 404)

theorem reports_iff (run : Scanning Status) (p : Page) (answers : List Answer)
    (ended : ∃ status last, run ⟨p,answers⟩ = (.ok status,last)) :
    ReportsErrors run p answers ↔ erred false answers = false := by
  constructor
  · rintro ⟨status,_,_,reported⟩
    apply Bool.eq_false_of_not_eq_true
    intro failed
    obtain ⟨some,other⟩ := reported failed
    cases status with
    | ok => exact some rfl
    | notFound => exact other rfl
  · intro fine
    obtain ⟨status,last,ran⟩ := ended
    refine ⟨status,last,ran,fun failed => ?_⟩
    rw [fine] at failed
    cases failed

section
variable (s : Sentinels) (data : DataOperation) (parts : LoopParts) (core : Build Status)
  (runs : ∀ p, ∃ status q, core p = (.ok status,q))

include runs

theorem scanRow_ends (n : Nat) (p : Page) : ∃ q, scanRow s parts core n p = (.ok (),q) := by
  have behind (x : Build Unit) (q : Page) (first : x p = (.ok (),q)) :
      ∃ r, (do x; let _ ← core) p = (.ok (),r) := by
    obtain ⟨status,r,ran⟩ := runs q
    refine ⟨r,?_⟩
    rw [Prog.bind_ok _ first,Prog.bind_ok _ ran]
    rfl
  unfold scanRow
  by_cases zero : n ≠ 0
  · simp only [if_pos zero]
    exact behind _ _ (print_run _ p)
  · simp only [if_neg zero]
    obtain ⟨q,ran,_⟩ := chainText_prints s parts.begin p
    exact behind _ q ran

theorem scanLoopRun_ends (scan : data.scanop = true) (answers : List Answer) (p : Page) :
    ∃ status last, scanLoopRun s data parts core ⟨p,answers⟩ = (.ok status,last) := by
  obtain ⟨q,ran⟩ := overRows_finishes (scanRow s parts core) (scanRow_ends s parts core runs) 0
    (delivered false answers) p
  obtain ⟨last,ran',_⟩ := scanLoopRun_rows s data parts core scan answers p q ran
  exact ⟨_,last,ran'⟩

/-- A scan reports no error, and the main loop around it passes on what it is given. -/
theorem errors_reported_iff (main : LoopParts) (scan : data.scanop = true) (answers : List Answer)
    (p : Page) :
    (ReportsErrors (scanLoopRun s data parts core) p answers ↔ erred false answers = false) ∧
    (ReportsErrors (mainLoopRun s main (scanLoopRun s data parts core)) p answers ↔
      erred false answers = false) := by
  have ends := scanLoopRun_ends s data parts core runs scan answers
  refine ⟨reports_iff _ p answers (ends p),reports_iff _ p answers ?_⟩
  obtain ⟨status,last,ran⟩ := ends {p with bytes := p.bytes ++ (main.begin.first s).string}
  refine ⟨status,⟨{last.page with bytes := last.page.bytes ++ (main.end_.first s).string},
    last.answers⟩,?_⟩
  unfold mainLoopRun
  rw [Prog.bind_ok _ (onPage_ok _ () p _ answers (print_run _ p)),Prog.bind_ok _ ran]
  rfl

end

def threeRows : List Answer :=
  [.row fun _ => ⟨false,[7,0,0,0]⟩,.row fun _ => ⟨false,[8,0,0,0]⟩,.endOfCache,
    .row fun _ => ⟨false,[9,0,0,0]⟩,.endOfCache,.endOfScan]

theorem errors_reported_rows : (delivered false threeRows).length = 3 ∧
    ReportsErrors (mainLoopRun .initial ⟨.theNullCell,.node 1,none,.theNullCell⟩
      (scanLoopRun .initial scannedInt jsonScan
        (rowRun printNothing .initial scannedInt jsonCompiled jsonRow))) blankPage threeRows :=
  ⟨rfl,((errors_reported_iff .initial scannedInt jsonScan _ (fun p => by
    obtain ⟨q,ran,_⟩ := rowRun_prints printNothing .initial scannedInt jsonCompiled jsonRow jsonRow_core p
    exact ⟨_,q,ran⟩) _ rfl threeRows _).2).mpr rfl⟩

/-- After a row, NDB reports an error to both loops, and the scan is said to be complete. -/
theorem error_unreported :
    ¬ReportsErrors (scanLoopRun .initial scannedInt jsonScan
      (rowRun printNothing .initial scannedInt jsonCompiled jsonRow)) blankPage
      [.row fun _ => ⟨false,[7,0,0,0]⟩,.error,.error] := by
  have ended := scanLoopRun_ends .initial scannedInt jsonScan
    (rowRun printNothing .initial scannedInt jsonCompiled jsonRow) (fun p => by
      obtain ⟨q,ran,_⟩ := rowRun_prints printNothing .initial scannedInt jsonCompiled jsonRow jsonRow_core p
      exact ⟨_,q,ran⟩) rfl
  intro reported
  exact absurd ((reports_iff _ _ _ (ended _ _)).mp reported) (by decide)

end ModNdb.Format
