import ModNdb.Format.PageWrites
import ModNdb.Query.Execute

/-! The notes of a batch: `ExecuteAll` builds the results of its read operations one after the
other in the same buffer, and `set_note` hands over a C string. -/
namespace ModNdb.Query
open Format (Write Buffering Memory ResultBuffer Heap Contents Has Behind pageOf terminated)

/-- What becomes of the results of a read operation: it has no result columns or no format;
a client of JSONRequest does not accept the format; the format is raw, and the first column
is a Blob or Text with contents, or it is not; or the format prints a page, with a status. -/
inductive Built
  | skipped
  | refused
  | raw (contents : Option Text)
  | page (status : Int) (writes : List Write)

/-- The value of a note: there is none; it is a string; or what is copied runs over the end
of the block. -/
inductive Note
  | null
  | text (value : Text)
  | unterminated
  deriving DecidableEq

/-- `ap_table_set` copies a C string. -/
def noteOf (m : Memory) : Note :=
  match m.buffer.buff with
  | none => .null
  | some block => if 0 ∈ block then .text (cstring block) else .unterminated

section
variable (heap : Heap)

/-- `build_results` into the buffer of the batch. The contents of a Blob are in a buffer of
their own, which takes its place. -/
def Built.build : Built → Buffering Unit
  | .skipped => return ()
  | .refused => return ()
  | .raw none => return ()
  | .raw (some blob) => do
    Prog.modify fun m => {m with buffer := .new}
    Format.init heap 8192
    Format.readBlob heap blob
  | .page _ writes => do
    Format.init heap 8192
    writes.forM (Write.run heap)

def Built.noted : Built → Bool
  | .skipped => false
  | _ => true

def notes : List Built → Buffering (List (Option Note))
  | [] => return []
  | op::ops => do
    op.build heap
    let m ← Prog.get
    let later ← notes ops
    return (if op.noted then some (noteOf m) else none) :: later

end

/-- The note is the page of the operation; where it has none, nothing is in the note. -/
def Built.Right : Built → Note → Prop
  | .page _ writes, note => note = .text (pageOf writes)
  | .raw (some blob), note => note = .text blob
  | _, note => note = .null

def Built.makesPage : Built → Bool
  | .page _ _ => true
  | .raw (some _) => true
  | _ => false

/-- A page without NULs that ends with something `printf` has written, or no page and none
before. -/
def Built.Fits (earlier : List Built) : Built → Prop
  | .skipped => True
  | .page _ writes => 0 ∉ pageOf writes ∧ terminated writes = true
  | .raw (some _) => False
  | _ => ∀ op ∈ earlier, op.makesPage = false

/-- What `ExecuteAll` does for an operation of its instance, given what becomes of the results
in its format. -/
def builtOf (w : World) (opn : Nat) (print : Built) : Built :=
  match (w.inst.data opn).resultCols, (w.inst.data opn).fmt with
  | some _, some fmt => if w.inst.jsonrequest ∧ fmt.isJSON = false then .refused else print
  | _, _ => .skipped

/-- The operations that get a note in a batch are those for which `set_note` is called. -/
theorem noted_iff (rendering : Rendering) (w next : World) (opn : Nat) (print : Built)
    (prints : print.noted = true) (soFar built : Int × Option Text)
    (ran : buildPage rendering true opn soFar w = (.ok built,next)) :
    ∃ more, next.trace = w.trace ++ more ∧
      (.note opn ∈ more ↔ (builtOf w opn print).noted = true) := by
  unfold buildPage at ran
  rw [Prog.bind_ok _ (Prog.get_run w)] at ran
  unfold builtOf
  cases resultCols : (w.inst.data opn).resultCols with
  | none =>
    rw [resultCols] at ran
    cases ran
    exact ⟨[],(List.append_nil _).symm,by simp [Built.noted]⟩
  | some cols =>
    cases format : (w.inst.data opn).fmt with
    | none =>
      rw [resultCols,format] at ran
      cases ran
      exact ⟨[],(List.append_nil _).symm,by simp [Built.noted]⟩
    | some fmt =>
      rw [resultCols,format] at ran
      obtain ⟨page,middle,first,rest⟩ := Prog.bind_inv ran
      unfold buildResults at first
      rw [Prog.bind_ok _ (Prog.get_run w)] at first
      dsimp only at first ⊢
      by_cases refused : w.inst.jsonrequest ∧ fmt.isJSON = false
      · rw [if_pos refused] at first ⊢
        cases first
        cases rest
        exact ⟨[.note opn],rfl,by simp [Built.noted]⟩
      · rw [if_neg refused] at first ⊢
        cases answer : rendering.build (w.inst.data opn) with
        | error why =>
          rw [answer] at first
          cases first
        | ok made =>
          rw [answer] at first
          cases first
          cases rest
          exact ⟨[.built (w.inst.data opn).op,.note opn],by simp,by simp [prints]⟩

section
variable (contents : Contents)

theorem page_has (status : Int) (writes : List Write) (m : Memory) :
    ∃ next, (Built.page status writes).build contents.heap m = (.ok (),next) ∧
      Has (Behind contents (terminated writes)) (pageOf writes) next := by
  obtain ⟨fresh,ran,has⟩ := Format.init_has contents 8192 (by decide) m
  obtain ⟨next,ran',has'⟩ := Format.writes_have contents writes [] false fresh has
  exact ⟨next,(Prog.bind_ok _ ran).trans ran',has'⟩

theorem raw_has (blob : Text) (m : Memory) :
    ∃ next, (Built.raw (some blob)).build contents.heap m = (.ok (),next) ∧
      Has (Behind contents false) blob next := by
  obtain ⟨fresh,ran,has⟩ := Format.init_has contents 8192 (by decide) {m with buffer := .new}
  obtain ⟨next,ran',has'⟩ := Format.readBlob_has contents [] false fresh has blob
  refine ⟨next,(Prog.bind_ok _ (Prog.modify_run _ m)).trans ((Prog.bind_ok _ ran).trans ran'),?_⟩
  rwa [Bool.false_and] at has'

/-- Building returns, and there is a block exactly if there was one or a page is made. -/
theorem Built.build_run (op : Built) (m : Memory) : ∃ next, op.build contents.heap m = (.ok (),next) ∧
    next.buffer.buff.isSome = (m.buffer.buff.isSome || op.makesPage) := by
  have made (page : Text) (nul : Bool) (next : Memory) (has : Has (Behind contents nul) page next) :
      next.buffer.buff.isSome = (m.buffer.buff.isSome || true) := by
    obtain ⟨tail,block,_⟩ := has.block
    rw [block,Bool.or_true]
    rfl
  cases op with
  | page status writes =>
    obtain ⟨next,ran,has⟩ := page_has contents status writes m
    exact ⟨next,ran,made _ _ next has⟩
  | raw blob =>
    cases blob with
    | none => exact ⟨m,rfl,(Bool.or_false _).symm⟩
    | some blob =>
      obtain ⟨next,ran,has⟩ := raw_has contents blob m
      exact ⟨next,ran,made _ _ next has⟩
  | _ => exact ⟨m,rfl,(Bool.or_false _).symm⟩

/-- A batch runs to its end, and each note is what was in the buffer behind its operation. -/
theorem notes_at (ops : List Built) (k : Nat) (op : Built) (there : ops[k]? = some op) (m : Memory) :
    ∃ before after given last, (ops.take k).forM (Built.build contents.heap) m = (.ok (),before) ∧
      op.build contents.heap before = (.ok (),after) ∧
      notes contents.heap ops m = (.ok given,last) ∧
      given[k]? = some (if op.noted then some (noteOf after) else none) := by
  have runs (ops : List Built) (m : Memory) : ∃ given last,
      notes contents.heap ops m = (.ok given,last) := by
    induction ops generalizing m with
    | nil => exact ⟨[],m,rfl⟩
    | cons op ops ih =>
      obtain ⟨next,ran,_⟩ := op.build_run contents m
      obtain ⟨given,last,ran'⟩ := ih next
      refine ⟨(if op.noted then some (noteOf next) else none) :: given,last,?_⟩
      unfold notes
      rw [Prog.bind_ok _ ran,Prog.bind_ok _ (Prog.get_run next),Prog.bind_ok _ ran']
      rfl
  induction ops generalizing k m with
  | nil => cases there
  | cons first ops ih =>
    obtain ⟨next,ran,_⟩ := first.build_run contents m
    cases k with
    | zero =>
      cases there
      obtain ⟨given,last,ran'⟩ := runs ops next
      refine ⟨m,next,(if op.noted then some (noteOf next) else none) :: given,last,rfl,ran,?_,rfl⟩
      unfold notes
      rw [Prog.bind_ok _ ran,Prog.bind_ok _ (Prog.get_run next),Prog.bind_ok _ ran']
      rfl
    | succ k =>
      obtain ⟨before,after,given,last,earlier,built,ran',note⟩ := ih k there next
      refine ⟨before,after,(if first.noted then some (noteOf next) else none) :: given,last,
        (Prog.bind_ok _ ran).trans earlier,built,?_,note⟩
      unfold notes
      rw [Prog.bind_ok _ ran,Prog.bind_ok _ (Prog.get_run next),Prog.bind_ok _ ran']
      rfl

theorem builds_block (ops : List Built) (m next : Memory)
    (ran : ops.forM (Built.build contents.heap) m = (.ok (),next)) :
    next.buffer.buff.isSome = (m.buffer.buff.isSome || ops.any Built.makesPage) := by
  induction ops generalizing m with
  | nil =>
    cases ran
    exact (Bool.or_false _).symm
  | cons op ops ih =>
    obtain ⟨_,middle,first,rest⟩ := Prog.bind_inv ran
    obtain ⟨_,ran',block⟩ := op.build_run contents m
    cases first.symm.trans ran'
    rw [ih middle rest,block,List.any_cons,Bool.or_assoc]

/-- A NUL behind a page without one is where the note ends. -/
theorem note_terminated (page : Text) (m : Memory) (has : Has (Behind contents true) page m)
    (nulFree : 0 ∉ page) : noteOf m = .text page := by
  obtain ⟨tail,block,_,nul,_⟩ := has.block
  obtain ⟨rest,rfl⟩ : ∃ rest, tail = 0::rest := by
    cases tail with
    | nil => cases nul
    | cons c rest =>
      cases nul
      exact ⟨rest,rfl⟩
  have value : cstring (page ++ 0::rest) = page := by
    unfold cstring
    rw [List.takeWhile_append_of_pos fun c inside => by
      simp only [decide_eq_true_eq]
      rintro rfl
      exact nulFree inside]
    exact List.append_nil page
  unfold noteOf
  rw [block]
  dsimp only
  rw [if_pos (List.mem_append_right page List.mem_cons_self),value]

/-- A note never has a NUL in it. -/
theorem note_nulFree (m : Memory) (value : Text) (note : noteOf m = .text value) : 0 ∉ value := by
  unfold noteOf at note
  cases found : m.buffer.buff with
  | none =>
    rw [found] at note
    cases note
  | some block =>
    rw [found] at note
    dsimp only at note
    by_cases nul : 0 ∈ block
    · rw [if_pos nul] at note
      cases note
      exact cstring_nulFree block
    · rw [if_neg nul] at note
      cases note

/-- Where no memory happens to hold a NUL, the note runs on behind the page. -/
theorem note_unterminated (page : Text) (m : Memory)
    (has : Has (Behind (fun _ _ => 120) false) page m) : noteOf m ≠ .text page := by
  intro note
  have nulFree := note_nulFree m page note
  obtain ⟨tail,block,_,stands⟩ := has.block
  have none : 0 ∉ page ++ tail := by
    intro inside
    rcases List.mem_append.mp inside with inside | inside
    · exact nulFree inside
    · obtain ⟨n,place,same⟩ := stands 0 inside
      have other : (120 : UInt8) ≠ 0 := by decide
      exact other same
  unfold noteOf at note
  rw [block] at note
  dsimp only at note
  rw [if_neg none] at note
  cases note

theorem note_null_iff (m : Memory) : noteOf m = .null ↔ m.buffer.buff.isSome = false := by
  unfold noteOf
  cases m.buffer.buff with
  | none => exact ⟨fun _ => rfl,fun _ => rfl⟩
  | some block =>
    constructor
    · intro null
      dsimp only at null
      by_cases nul : 0 ∈ block
      · rw [if_pos nul] at null
        cases null
      · rw [if_neg nul] at null
        cases null
    · intro none
      cases none

end

/-- The note is right exactly if what is in the buffer behind the operation is. -/
theorem note_at_iff (contents : Contents) (ops : List Built) (k : Nat) (op : Built)
    (there : ops[k]? = some op) : ∃ before after,
    (ops.take k).forM (Built.build contents.heap) ⟨.new,0⟩ = (.ok (),before) ∧
      op.build contents.heap before = (.ok (),after) ∧
      ((∃ given last, notes contents.heap ops ⟨.new,0⟩ = (.ok given,last) ∧
        ∀ note, given[k]? = some (some note) → op.Right note) ↔
        (op.noted = true → op.Right (noteOf after))) := by
  obtain ⟨before,after,given,last,earlier,built,ran,note⟩ := notes_at contents ops k op there ⟨.new,0⟩
  refine ⟨before,after,earlier,built,?_⟩
  constructor
  · rintro ⟨given',last',ran',right⟩ noted
    cases ran.symm.trans ran'
    apply right
    rw [note,if_pos noted]
  · intro right
    refine ⟨given,last,ran,fun value named => ?_⟩
    rw [note] at named
    by_cases noted : op.noted = true
    · rw [if_pos noted] at named
      cases named
      exact right noted
    · rw [if_neg noted] at named
      cases named

/-- An operation without a page leaves what the ones before it have left. -/
theorem none_before_iff (contents : Contents) (ops : List Built) (before : Memory)
    (ran : ops.forM (Built.build contents.heap) ⟨.new,0⟩ = (.ok (),before)) :
    noteOf before = .null ↔ ∀ op ∈ ops, op.makesPage = false := by
  rw [note_null_iff,builds_block contents ops _ before ran]
  change ops.any Built.makesPage = false ↔ _
  rw [List.any_eq_false]
  simp only [Bool.not_eq_true]

/-- For every batch and every operation in it: whatever is in the memory of the process, the
note is the operation's page, or null if it has none, exactly if the operation fits. -/
theorem notes_right_iff (ops : List Built) (k : Nat) (op : Built) (there : ops[k]? = some op) :
    (∀ contents : Contents, ∃ given last,
        notes contents.heap ops ⟨.new,0⟩ = (.ok given,last) ∧
        ∀ note, given[k]? = some (some note) → op.Right note) ↔
      op.Fits (ops.take k) := by
  constructor
  · intro right
    obtain ⟨before,after,earlier,built,noted⟩ := note_at_iff (fun _ _ => 120) ops k op there
    have note := noted.mp (right _)
    cases op with
    | skipped => trivial
    | refused =>
      cases built
      exact (none_before_iff _ _ before earlier).mp (note rfl)
    | raw blob =>
      cases blob with
      | none =>
        cases built
        exact (none_before_iff _ _ before earlier).mp (note rfl)
      | some blob =>
        obtain ⟨_,ran,has⟩ := raw_has (fun _ _ => 120) blob before
        cases built.symm.trans ran
        exact note_unterminated blob after has (note rfl)
    | page status writes =>
      obtain ⟨_,ran,has⟩ := page_has (fun _ _ => 120) status writes before
      cases built.symm.trans ran
      refine ⟨note_nulFree after _ (note rfl),?_⟩
      by_contra unended
      rw [Bool.eq_false_iff.mpr unended] at has
      exact note_unterminated _ after has (note rfl)
  · intro fits contents
    obtain ⟨before,after,earlier,built,noted⟩ := note_at_iff contents ops k op there
    apply noted.mpr
    intro _
    cases op with
    | skipped => rename_i noted; cases noted
    | refused =>
      cases built
      exact (none_before_iff contents _ before earlier).mpr fits
    | raw blob =>
      cases blob with
      | none =>
        cases built
        exact (none_before_iff contents _ before earlier).mpr fits
      | some blob => exact fits.elim
    | page status writes =>
      obtain ⟨_,ran,has⟩ := page_has contents status writes before
      cases built.symm.trans ran
      rw [fits.2] at has
      exact note_terminated contents _ after has fits.1

theorem notes_right_two : ∃ given last,
    notes (Contents.heap fun _ _ => 120)
        [.refused,.page 0 [.copied (text "n="),.formatted (text "42")]] ⟨.new,0⟩ =
      (.ok given,last) ∧ ∀ note, given[1]? = some (some note) → note = .text (text "n=42") :=
  (notes_right_iff [.refused,.page 0 [.copied (text "n="),.formatted (text "42")]] 1 _ rfl).mpr
    ⟨by decide,by decide⟩ fun _ _ => 120

def sevenWrites : List Write :=
  Format.mainWrites .initial ⟨.theNullCell,.node 1,none,.chain (.constant (text "\n")) []⟩
    (Format.scanWrites .initial Format.jsonScan
      (Format.rowWrites Format.printNothing (fun _ _ => 0) .initial Format.scannedInt
        Format.jsonCompiled Format.jsonRow) [fun _ => ⟨false,[7,0,0,0]⟩])

/-- A page that ends in a text of its format: what follows it in the block is in the note. -/
theorem note_runs_on : ¬∀ contents : Contents, ∃ given last,
    notes contents.heap [.page 0 sevenWrites] ⟨.new,0⟩ = (.ok given,last) ∧
      ∀ note, given[0]? = some (some note) →
        note = .text (text "[\n  \x7b \"i\":7 \x7d \n]\n") := by
  intro right
  have printed : pageOf sevenWrites = text "[\n  \x7b \"i\":7 \x7d \n]\n" := by decide
  have open_ : terminated sevenWrites = false := by decide
  obtain ⟨before,after,_,built,noted⟩ := note_at_iff (fun _ _ => 120) [.page 0 sevenWrites] 0 _ rfl
  obtain ⟨_,ran,has⟩ := page_has (fun _ _ => 120) 0 sevenWrites before
  cases built.symm.trans ran
  rw [open_] at has
  have runs := right fun _ _ => 120
  rw [← printed] at runs
  exact note_unterminated _ after has (noted.mp runs rfl)

end ModNdb.Query
