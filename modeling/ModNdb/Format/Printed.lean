import ModNdb.Format.Output

/-! The bytes a format prints. Everything below a scan prints with the cursor in
place; a scan prints its rows in the order in which they come. -/
namespace ModNdb.Format
open MySQL (Printers)

/-- From the page the program returns, having appended bytes and moved no cursor. -/
def PrintsAt {α : Type} (p : Page) (x : Build α) (a : α) (bytes : Text) (outside : Bool) : Prop :=
  ∃ q, x p = (.ok a,q) ∧ q.bytes = p.bytes ++ bytes ∧ q.outside = (p.outside || outside) ∧
    q.cursor = p.cursor

theorem PrintsAt.pure {α : Type} (p : Page) (a : α) : PrintsAt p (pure a) a [] false :=
  ⟨p,rfl,by simp,by simp,rfl⟩

theorem PrintsAt.print (p : Page) (bytes : Text) : PrintsAt p (print bytes) () bytes false :=
  ⟨_,rfl,rfl,by simp,rfl⟩

theorem PrintsAt.readColumn (p : Page) (n : Nat) : PrintsAt p (readColumn n) () [] false :=
  ⟨_,rfl,by simp,by simp,rfl⟩

theorem PrintsAt.bind {α β : Type} {p : Page} {x : Build α} {f : α → Build β} {a : α} {b : β}
    {bytes bytes' : Text} {outside outside' : Bool} (first : PrintsAt p x a bytes outside)
    (rest : ∀ q, q.cursor = p.cursor → PrintsAt q (f a) b bytes' outside') :
    PrintsAt p (x >>= f) b (bytes ++ bytes') (outside || outside') := by
  obtain ⟨q,ran,printed,read,same⟩ := first
  obtain ⟨r,ran',printed',read',same'⟩ := rest q same
  refine ⟨r,by rw [Prog.bind_ok _ ran,ran'],?_,?_,same'.trans same⟩
  · rw [printed',printed,List.append_assoc]
  · rw [read',read,Bool.or_assoc]

theorem PrintsAt.skip {α β : Type} {p : Page} {x : Build α} {f : α → Build β} {a : α} {b : β}
    {bytes : Text} {outside : Bool} (first : PrintsAt p x a [] false)
    (rest : ∀ q, q.cursor = p.cursor → PrintsAt q (f a) b bytes outside) :
    PrintsAt p (x >>= f) b bytes outside := first.bind rest

theorem PrintsAt.cons {α : Type} {p : Page} {a : α} {l : List α} {f : α → Build PUnit}
    {bytes bytes' : Text} {outside outside' : Bool} (first : PrintsAt p (f a) ⟨⟩ bytes outside)
    (rest : ∀ q, q.cursor = p.cursor → PrintsAt q (l.forM f) ⟨⟩ bytes' outside') :
    PrintsAt p ((a::l).forM f) ⟨⟩ (bytes ++ bytes') (outside || outside') :=
  first.bind (f := fun _ => l.forM f) rest

theorem PrintsAt.forM {α : Type} {p : Page} {l : List α} {f : α → Build PUnit} {bytes : α → Text}
    {outside : α → Bool}
    (each : ∀ a ∈ l, ∀ q, q.cursor = p.cursor → PrintsAt q (f a) ⟨⟩ (bytes a) (outside a)) :
    PrintsAt p (l.forM f) ⟨⟩ (l.flatMap bytes) (l.any outside) := by
  induction l generalizing p with
  | nil => exact .pure p _
  | cons a l ih =>
    rw [List.flatMap_cons,List.any_cons]
    exact .cons (each a List.mem_cons_self p rfl) fun q same =>
      ih fun b inside r later => each b (List.mem_cons_of_mem a inside) r (later.trans same)

theorem PrintsAt.get {β : Type} {p : Page} {f : Page → Build β} {b : β} {bytes : Text}
    {outside : Bool} (rest : PrintsAt p (f p) b bytes outside) :
    PrintsAt p ((Prog.get : Build Page) >>= f) b bytes outside := rest

def Cursor.rows (c : Cursor) : List Row :=
  c.cached ++ c.later.flatMap fun batch => batch.1::batch.2

/-- The rows of a scan from the one with number `n` on, each as `piece` prints it. -/
def rowsFrom (piece : Nat → Row → Text) : Nat → List Row → Text
  | _, [] => []
  | n, row::rows => piece n row ++ rowsFrom piece (n + 1) rows

theorem rowsFrom_append (piece : Nat → Row → Text) (n : Nat) (a b : List Row) :
    rowsFrom piece n (a ++ b) = rowsFrom piece n a ++ rowsFrom piece (n + a.length) b := by
  induction a generalizing n with
  | nil => rfl
  | cons row a ih =>
    rw [List.cons_append,rowsFrom,rowsFrom,ih,List.append_assoc,List.length_cons,
      Nat.add_right_comm,Nat.add_assoc]

def joined (sep : Text) : List Text → Text
  | [] => []
  | t::ts => t ++ ts.flatMap (sep ++ ·)

theorem range_joined (sep : Text) (ts : List Text) :
    ((List.range ts.length).flatMap fun n => (if n ≠ 0 then sep else []) ++ ts.getD n []) =
      joined sep ts := by
  have all (ts : List Text) : ((List.range ts.length).flatMap fun n => sep ++ ts.getD n []) =
      ts.flatMap (sep ++ ·) := by
    induction ts with
    | nil => rfl
    | cons t ts ih =>
      rw [List.length_cons,List.range_succ_eq_map,List.flatMap_cons,List.flatMap_map]
      exact congrArg _ ih
  cases ts with
  | nil => rfl
  | cons t ts =>
    rw [List.length_cons,List.range_succ_eq_map,List.flatMap_cons,List.flatMap_map]
    exact congrArg _ (all ts)

theorem rowsFrom_joined (first sep : Text) (each : Row → Text) (row : Row) (rows : List Row) :
    rowsFrom (fun n row => (if n ≠ 0 then sep else first) ++ each row) 0 (row::rows) =
      first ++ joined sep ((row::rows).map each) := by
  have later (n : Nat) (rows : List Row) :
      rowsFrom (fun n row => (if n ≠ 0 then sep else first) ++ each row) (n + 1) rows =
        (rows.map each).flatMap (sep ++ ·) := by
    induction rows generalizing n with
    | nil => rfl
    | cons row rows ih =>
      rw [rowsFrom,ih,if_pos (Nat.succ_ne_zero n)]
      rfl
  rw [rowsFrom,later,if_neg (by simp),List.append_assoc]
  rfl

theorem nextResult_rows (p : Page) :
    (∃ row rows q, nextResult true p = (.ok true,q) ∧ q.bytes = p.bytes ∧ q.outside = p.outside ∧
      q.cursor.current = row ∧ p.cursor.rows = row::rows ∧ q.cursor.rows = rows ∧
      q.cursor.remaining < p.cursor.remaining) ∨
    nextResult true p = (.ok false,p) ∧ p.cursor.rows = [] := by
  obtain ⟨bytes,reads,outside,current,cached,later⟩ := p
  cases cached with
  | cons row cached =>
    refine .inl ⟨row,_,_,rfl,rfl,rfl,rfl,rfl,rfl,?_⟩
    simp [Cursor.remaining]
  | nil =>
    cases later with
    | nil => exact .inr ⟨rfl,rfl⟩
    | cons batch later =>
      refine .inl ⟨batch.1,_,_,rfl,rfl,rfl,rfl,rfl,rfl,?_⟩
      simp only [Cursor.remaining,List.map_cons,List.sum_cons,List.length_nil]
      omega

section
variable {row : Nat → Build Unit} {piece : Nat → Row → Text} {outside : Row → Bool}

theorem cachedRows_prints
    (each : ∀ n p, PrintsAt p (row n) () (piece n p.cursor.current) (outside p.cursor.current))
    (fuel n : Nat) (p : Page) (enough : p.cursor.cached.length < fuel) :
    ∃ q, cachedRows row fuel n p = (.ok (n + 1 + p.cursor.cached.length),q) ∧
      q.bytes = p.bytes ++ rowsFrom piece n (p.cursor.current::p.cursor.cached) ∧
      q.outside = (p.outside || (p.cursor.current::p.cursor.cached).any outside) ∧
      q.cursor = ⟨q.cursor.current,[],p.cursor.later⟩ := by
  induction fuel generalizing n p with
  | zero => omega
  | succ fuel ih =>
    obtain ⟨q,ran,printed,read,same⟩ := each n p
    rw [cachedRows,Prog.bind_ok _ ran]
    rcases hold : p.cursor with ⟨current,cached,later⟩
    rw [hold] at same printed read enough
    cases cached with
    | nil =>
      have ended : nextResult false q = (.ok false,q) := by
        simp only [nextResult,same]
        cases later <;> rfl
      rw [Prog.bind_ok _ ended]
      refine ⟨q,rfl,?_,?_,by rw [same]⟩
      · simpa [rowsFrom] using printed
      · simpa using read
    | cons next cached =>
      have more : nextResult false q = (.ok true,{q with cursor := ⟨next,cached,later⟩}) := by
        simp only [nextResult,same]
      rw [Prog.bind_ok _ more]
      obtain ⟨r,ran',printed',read',same'⟩ := ih (n + 1) {q with cursor := ⟨next,cached,later⟩}
        (by simpa using enough)
      refine ⟨r,?_,?_,?_,same'⟩
      · rw [List.length_cons,show n + 1 + (cached.length + 1) = n + 1 + 1 + cached.length by omega]
        exact ran'
      · rw [printed',printed,List.append_assoc]
        rfl
      · rw [read',read,Bool.or_assoc]
        rfl

theorem fetchedRows_prints
    (each : ∀ n p, PrintsAt p (row n) () (piece n p.cursor.current) (outside p.cursor.current))
    (fuel n : Nat) (p : Page) (enough : p.cursor.remaining < fuel) :
    ∃ q, fetchedRows row fuel n p = (.ok (n + p.cursor.rows.length),q) ∧
      q.bytes = p.bytes ++ rowsFrom piece n p.cursor.rows ∧
      q.outside = (p.outside || p.cursor.rows.any outside) := by
  induction fuel generalizing n p with
  | zero => omega
  | succ fuel ih =>
    rw [fetchedRows]
    rcases nextResult_rows p with
      ⟨current,rows,q,next,bytes,read,here,total,left,fewer⟩ | ⟨ended,total⟩
    · have within : q.cursor.cached.length < fuel + 1 := by
        have : q.cursor.cached.length ≤ q.cursor.remaining := by simp [Cursor.remaining]
        omega
      obtain ⟨r,ran,printed,outs,same⟩ := cachedRows_prints each (fuel + 1) n q within
      have remains : r.cursor.remaining ≤ q.cursor.remaining := by
        rw [same]
        simp [Cursor.remaining]
      obtain ⟨last,ran',printed',outs'⟩ := ih (n + 1 + q.cursor.cached.length) r (by omega)
      have split : p.cursor.rows = (q.cursor.current::q.cursor.cached) ++ r.cursor.rows := by
        rw [total,here,← left,same]
        simp [Cursor.rows]
      refine ⟨last,?_,?_,?_⟩
      · rw [Prog.bind_ok _ next]
        simp only [if_true]
        rw [Prog.bind_ok _ ran,ran',split,List.length_append,List.length_cons]
        congr 2
        omega
      · rw [printed',printed,bytes,split,rowsFrom_append,List.length_cons,List.append_assoc,
          show n + (q.cursor.cached.length + 1) = n + 1 + q.cursor.cached.length by omega]
      · rw [outs',outs,read,split,List.any_append,Bool.or_assoc]
    · rw [Prog.bind_ok _ ended,total]
      exact ⟨p,rfl,by simp [rowsFrom],by simp⟩

end

end ModNdb.Format
