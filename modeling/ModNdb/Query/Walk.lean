import ModNdb.MySQL.Usable
import ModNdb.Query.Settled

/-! The walk along the chain of the active index: which columns it reaches, and that it hands
over exactly their values. -/
namespace ModNdb.Query
open Config (Dir KeyCol)
open MySQL (DictColumn Mvalue encodes)
open Prog (Moves)

def chainAt (dir : Dir) : Nat → Option Nat → Option Nat
  | _, none => none
  | 0, some c => some c
  | p + 1, some c => chainAt dir p ((dir.keyColumns[c]?).bind KeyCol.nextInKey)

def partColumn (tab : Ndb.Table) (idx : Option Ndb.Index) (kind : IndexKind) (part : Nat)
    (baseColName : Option Text) : Option DictColumn :=
  match kind with
  | .pk => (tab.primaryKeys[part]?).bind tab.column
  | .unique => idx.bind fun idx => idx.columns[part]?
  | .ordered => baseColName.bind fun name =>
    if name = [] then idx.bind fun idx => idx.columns[part]? else tab.column name
  | .tableScan => none

section
variable (setting : Setting) (dir : Dir)

theorem chainAt_succ (p : Nat) (first : Option Nat) :
    chainAt dir (p + 1) first =
      (chainAt dir p first).bind fun c => (dir.keyColumns[c]?).bind KeyCol.nextInKey := by
  induction p generalizing first with
  | zero =>
    cases first with
    | none => rfl
    | some c =>
      unfold chainAt
      dsimp only [Option.bind_some]
      cases (dir.keyColumns[c]?).bind KeyCol.nextInKey <;> rfl
  | succ p ih =>
    cases first with
    | none => rfl
    | some c => exact ih _

theorem chainAt_before {p c : Nat} {first : Option Nat} (column : chainAt dir p first = some c)
    {i : Nat} (before : i ≤ p) : ∃ b, chainAt dir i first = some b := by
  induction p generalizing c with
  | zero =>
    obtain rfl := Nat.le_zero.mp before
    exact ⟨c,column⟩
  | succ p ih =>
    rcases Nat.le_succ_iff.mp before with before | rfl
    · rw [chainAt_succ] at column
      obtain ⟨b,here,_⟩ := Option.bind_eq_some_iff.mp column
      exact ih here before
    · exact ⟨c,column⟩

/-- `get_column` finds the column of the part, or ends the process where there is none. -/
theorem getColumn_cases (q : Items) (obj : IndexObject) (made : q.idxobj = some obj)
    (baseColName : Option Text) (relOp : Nat) :
    (∃ make, getColumn q baseColName relOp =
      pure (partColumn q.tab q.idx obj.kind obj.keyPart baseColName,make)) ∨
    (partColumn q.tab q.idx obj.kind obj.keyPart baseColName = none ∧
      ∃ why, getColumn q baseColName relOp = crash why) := by
  unfold getColumn partColumn
  rw [made]
  dsimp only
  cases obj.kind with
  | pk =>
    dsimp only
    cases (q.tab.primaryKeys[obj.keyPart]?).bind q.tab.column with
    | none => exact .inr ⟨rfl,_,rfl⟩
    | some col => exact .inl ⟨_,rfl⟩
  | unique => exact .inl ⟨_,rfl⟩
  | ordered =>
    dsimp only
    cases baseColName with
    | none => exact .inr ⟨rfl,_,rfl⟩
    | some name =>
      cases name with
      | nil => exact .inl ⟨_,rfl⟩
      | cons c rest => exact .inl ⟨_,rfl⟩
  | tableScan => exact .inr ⟨rfl,_,rfl⟩

theorem mvalIsUsable_good {mval : Mvalue} (good : mval.useValue.isGood = true) :
    mvalIsUsable mval = pure true := if_pos good

theorem mvalIsUsable_bad {mval : Mvalue} (bad : mval.useValue.isGood = false) :
    mvalIsUsable mval = pure false ∨ mvalIsUsable mval = crash .assertion := by
  unfold mvalIsUsable
  rw [if_neg (by rw [bad]; exact Bool.false_ne_true)]
  cases mval.useValue <;> first | exact .inl rfl | exact .inr rfl

theorem value_noColumn_isGood (out : MySQL.Surroundings) (m : Mvalue) (val : Option Text) :
    (MySQL.value out m none val).useValue.isGood = false := by
  unfold MySQL.value
  rfl

def afterPart (n : Option Nat) (result : Mvalue × Items) (refused : Bool) :
    Querying (Mvalue × Items) :=
  if refused then do
    let msg := if n.isSome then text "Configuration error" else text "Configuration error."
    let rc ← errorPage 500 (some setting.ndb.error) (some msg)
    Prog.fail (.abort1 rc)
  else return result

theorem afterPart_refused {allowed : Event → Prop} [AllowsPages allowed] (d : DataRef)
    (n : Option Nat) (result : Mvalue × Items) {P : Mvalue × Items → Prop} :
    Moves (Local allowed d) (afterPart setting n result true) P :=
  (errorPage_moves d _ _ _).bind fun _ _ => Moves.fail _

theorem afterPart_moves {allowed : Event → Prop} [AllowsPages allowed] (d : DataRef) (n : Option Nat)
    (result : Mvalue × Items) (refused : Bool) :
    Moves (Local allowed d) (afterPart setting n result refused) fun got => got = result := by
  cases refused with
  | true => exact afterPart_refused setting d n result
  | false => exact Moves.pure rfl

section
variable {q : Items} {obj : IndexObject} (n : Option Nat) (baseColName : Option Text) (relOp : Nat)
  (value : Option Text) (mval : Mvalue)

theorem setPart_encoded {col : Option DictColumn} {make : Ndb.Passed → Ndb.Call}
    (got : getColumn q baseColName relOp = pure (col,make)) :
    setPart setting n baseColName relOp value mval q =
      mvalIsUsable (MySQL.value setting.out mval col value) >>= fun usable =>
        handPart setting n value usable (make (passed (MySQL.value setting.out mval col value))) >>=
          afterPart setting n (MySQL.value setting.out mval col value,countPart q) := by
  unfold setPart
  rw [got]
  rfl

theorem setPart_fits (made : q.idxobj = some obj) {col : DictColumn}
    (column : partColumn q.tab q.idx obj.kind obj.keyPart baseColName = some col)
    (fits : encodes col.type value = true) :
    ∃ c, setPart setting n baseColName relOp value mval q =
      handPart setting n value true c >>=
        afterPart setting n (MySQL.value setting.out mval (some col) value,countPart q) := by
  rcases getColumn_cases q obj made baseColName relOp with ⟨make,got⟩ | ⟨missing,_⟩
  · rw [column] at got
    have good : (MySQL.value setting.out mval (some col) value).useValue.isGood = true := by
      rw [MySQL.value_isGood]
      exact fits
    rw [setPart_encoded setting n baseColName relOp value mval got,mvalIsUsable_good good]
    exact ⟨_,rfl⟩
  · rw [column] at missing
    cases missing

theorem setPart_unfit {allowed : Event → Prop} [AllowsPages allowed] (made : q.idxobj = some obj)
    (unfit : ∀ col, partColumn q.tab q.idx obj.kind obj.keyPart baseColName = some col →
      encodes col.type value = false) (d : DataRef) :
    Moves (Local allowed d) (setPart setting n baseColName relOp value mval q) fun _ => False := by
  rcases getColumn_cases q obj made baseColName relOp with ⟨make,got⟩ | ⟨_,why,crashed⟩
  · have bad : (MySQL.value setting.out mval
        (partColumn q.tab q.idx obj.kind obj.keyPart baseColName) value).useValue.isGood = false := by
      cases column : partColumn q.tab q.idx obj.kind obj.keyPart baseColName with
      | none => exact value_noColumn_isGood _ _ _
      | some col => rw [MySQL.value_isGood,unfit col column]
    rw [setPart_encoded setting n baseColName relOp value mval got]
    rcases mvalIsUsable_bad bad with unusable | crashed
    · rw [unusable]
      exact afterPart_refused setting d n (mval,q)
    · rw [crashed]
      exact Moves.fail _
  · unfold setPart
    rw [crashed]
    exact Moves.fail _

end

structure Walker where
  tab : Ndb.Table
  idx : Option Ndb.Index
  kind : IndexKind
  keys : Nat → Option Text

namespace Walker
variable (k : Walker) (dir : Dir) (first : Option Nat)

/-- The column of a chain at a position is in the dictionary, and its value is encoded. -/
def Fits (p c : Nat) : Prop :=
  ∃ keycol col, dir.keyColumns[c]? = some keycol ∧
    partColumn k.tab k.idx k.kind p keycol.baseColName = some col ∧
    encodes col.type (k.keys c) = true

def nParts : Nat :=
  match k.kind with
  | .pk => k.tab.primaryKeys.length
  | .unique | .ordered => (k.idx.map fun idx => idx.columns.length).getD 0
  | .tableScan => 0

/-- The walk from `first` over at most `used` columns comes to `c` at position `p`. -/
structure Reaches (used p c : Nat) : Prop where
  column : chainAt dir p first = some c
  counted : p < used
  room : k.kind = .ordered → p = 0 ∨ p < k.nParts
  before : ∀ i < p, ∀ b, chainAt dir i first = some b → k.Fits dir i b

structure At (p : Nat) (q : Items) : Prop where
  idxobj : q.idxobj = some ⟨k.kind,p,if k.kind = .ordered then p else 0,k.nParts⟩
  tab : q.tab = k.tab
  idx : q.idx = k.idx
  keys : q.keys = k.keys

end Walker

section
variable (k : Walker) (first : Option Nat)

theorem Walker.At.next {k : Walker} {p : Nat} {q : Items} (here : k.At p q) :
    k.At (p + 1) (nextKeyPart (countPart q)).2 ∧
    ((nextKeyPart (countPart q)).1 = true ↔
      if k.kind = .ordered then p + 1 < k.nParts else p < k.nParts) := by
  obtain ⟨idxobj,tab,idx,keys⟩ := here
  unfold countPart nextKeyPart
  rw [idxobj]
  by_cases ordered : k.kind = .ordered
  · simp only [ordered,Option.map_some,if_true,decide_eq_true_eq]
    exact ⟨⟨by simp [ordered],tab,idx,keys⟩,trivial⟩
  · simp only [ordered,Option.map_some,if_false,decide_eq_true_eq]
    exact ⟨⟨by simp [ordered],tab,idx,keys⟩,trivial⟩

/-- Every key part that the walk hands over is one that it reaches. -/
theorem setKeyParts_sound {allowed : Event → Prop} [AllowsPages allowed] (total : Nat)
    (sound : ∀ p c, k.Reaches dir first total p c → k.Fits dir p c →
      ∀ call, allowed (.keyPart c (k.keys c) call)) (p used : Nat) (budget : p + used = total)
    (room : k.kind = .ordered → p = 0 ∨ p < k.nParts)
    (before : ∀ i < p, ∀ b, chainAt dir i first = some b → k.Fits dir i b)
    (q : Items) (here : k.At p q) (mval : Mvalue) :
    Moves (Local allowed q.data) (setKeyParts setting dir used (chainAt dir p first) mval q)
      fun result => result.2.data = q.data := by
  induction used generalizing p q mval with
  | zero => exact Moves.pure rfl
  | succ used ih =>
    cases column : chainAt dir p first with
    | none => exact Moves.pure rfl
    | some c =>
      have reaches : k.Reaches dir first total p c := ⟨column,by omega,room,before⟩
      unfold setKeyParts
      cases entry : dir.keyColumns[c]? with
      | none => exact Moves.fail _
      | some keycol =>
        have made := here.idxobj
        have value : q.keys c = k.keys c := congrFun here.keys c
        have next : chainAt dir (p + 1) first = keycol.nextInKey := by
          rw [chainAt_succ,column,Option.bind_some,entry,Option.bind_some]
        by_cases fits : k.Fits dir p c
        · obtain ⟨same,col,entry',got,encoded⟩ := fits
          obtain rfl : same = keycol := Option.some.inj (entry'.symm.trans entry)
          have got' : partColumn q.tab q.idx k.kind p same.baseColName = some col := by
            rw [here.tab,here.idx]
            exact got
          obtain ⟨call,hands⟩ := setPart_fits setting (some c) same.baseColName same.relOp
            (q.keys c) mval made got' (value ▸ encoded)
          have handed : Moves (Local allowed q.data)
              (handPart setting (some c) (q.keys c) true call) fun _ => True := by
            apply handPart_moves
            intro b this
            cases this
            rw [value]
            exact sound p c reaches ⟨same,col,entry,got,encoded⟩ call
          dsimp only
          rw [hands]
          apply (handed.bind fun refused _ => afterPart_moves setting q.data _ _ refused).bind
          rintro ⟨mval',q'⟩ result
          cases result
          obtain ⟨there,more⟩ := here.next
          have data : (nextKeyPart (countPart q)).2.data = q.data := by rw [nextKeyPart_data,countPart_data]
          apply Moves.ite
          · intro goes
            rw [← next,← data]
            apply ih (p + 1) (by omega) ?_ ?_ _ there
            · intro ordered
              have space := more.mp goes
              rw [if_pos ordered] at space
              exact .inr space
            · intro i below b found
              rcases Nat.lt_succ_iff_lt_or_eq.mp below with below | rfl
              · exact before i below b found
              · cases column.symm.trans found
                exact ⟨same,col,entry,got,encoded⟩
          · exact fun _ => Moves.pure data
        · have unfit : ∀ col, partColumn q.tab q.idx k.kind p keycol.baseColName = some col →
              encodes col.type (q.keys c) = false := by
            intro col got
            rw [here.tab,here.idx] at got
            rw [value]
            exact Bool.eq_false_iff.mpr fun encoded => fits ⟨keycol,col,entry,got,encoded⟩
          exact (setPart_unfit setting (some c) keycol.baseColName keycol.relOp (q.keys c) mval made
            unfit q.data).bind fun _ none => none.elim

/-- The part after one that fits is there, if the walk comes to a later one. -/
theorem Walker.Fits.goes {k : Walker} {p b : Nat} (fits : k.Fits dir p b) {t : Nat} (later : p < t)
    (room : k.kind = .ordered → t = 0 ∨ t < k.nParts) :
    if k.kind = .ordered then p + 1 < k.nParts else p < k.nParts := by
  obtain ⟨keycol,col,_,got,_⟩ := fits
  unfold partColumn at got
  unfold nParts at room ⊢
  cases kind : k.kind with
  | pk =>
    rw [kind] at got
    obtain ⟨name,named,_⟩ := Option.bind_eq_some_iff.mp got
    exact (List.getElem?_eq_some_iff.mp named).1
  | unique =>
    rw [kind] at got
    obtain ⟨idx,made,named⟩ := Option.bind_eq_some_iff.mp got
    rw [made]
    exact (List.getElem?_eq_some_iff.mp named).1
  | ordered =>
    rw [kind] at room
    have space := (room rfl).resolve_left (Nat.ne_of_gt (Nat.zero_lt_of_lt later))
    exact Nat.lt_of_le_of_lt later space
  | tableScan =>
    rw [kind] at got
    cases got

theorem handPart_run (quiet : ∀ calls, setting.ndb.refuses calls = false) (n : Nat)
    (value : Option Text) (call : Ndb.Call) (w : World) :
    handPart setting (some n) value true call w = (.ok false,{w with
      calls := w.calls ++ [call], trace := w.trace ++ [.keyPart n value call]}) := by
  have accepted := quiet (w.calls ++ [call])
  rw [← accepted]
  rfl

/-- If NDB refuses nothing, every part that the walk reaches is handed over. -/
theorem setKeyParts_complete (quiet : ∀ calls, setting.ndb.refuses calls = false) (total t c : Nat)
    (reaches : k.Reaches dir first total t c) (fits : k.Fits dir t c) (p used : Nat)
    (budget : p + used = total) (before : p ≤ t) (q : Items) (here : k.At p q) (mval : Mvalue)
    (w : World) : ∃ call, .keyPart c (k.keys c) call ∈
      (setKeyParts setting dir used (chainAt dir p first) mval q w).2.trace := by
  induction used generalizing p q mval w with
  | zero => exact absurd reaches.counted (by omega)
  | succ used ih =>
    obtain ⟨b,column⟩ := chainAt_before dir reaches.column before
    have fitsHere : k.Fits dir p b := by
      rcases Nat.lt_or_eq_of_le before with earlier | rfl
      · exact reaches.before p earlier b column
      · cases column.symm.trans reaches.column
        exact fits
    obtain ⟨keycol,col,entry,got,encoded⟩ := fitsHere
    have next : chainAt dir (p + 1) first = keycol.nextInKey := by
      rw [chainAt_succ,column,Option.bind_some,entry,Option.bind_some]
    have value : q.keys b = k.keys b := congrFun here.keys b
    have got' : partColumn q.tab q.idx k.kind p keycol.baseColName = some col := by
      rw [here.tab,here.idx]
      exact got
    obtain ⟨call,hands⟩ := setPart_fits setting (some b) keycol.baseColName keycol.relOp
      (q.keys b) mval here.idxobj got' (value ▸ encoded)
    have ran := Prog.bind_ok (afterPart setting (some b)
      (MySQL.value setting.out mval (some col) (q.keys b),countPart q))
        (handPart_run setting quiet b (q.keys b) call w)
    obtain ⟨there,more⟩ := here.next
    rw [column]
    unfold setKeyParts
    rw [entry]
    dsimp only
    rw [hands,Prog.bind_ok _ ran]
    rcases Nat.lt_or_eq_of_le before with earlier | rfl
    · have goes := more.mpr (Walker.Fits.goes dir ⟨keycol,col,entry,got,encoded⟩ earlier reaches.room)
      dsimp only
      rw [if_pos goes,← next]
      exact ih (p + 1) (by omega) earlier _ there _ _
    · cases column.symm.trans reaches.column
      refine ⟨call,?_⟩
      have new : Event.keyPart c (k.keys c) call ∈ w.trace ++ [.keyPart c (q.keys c) call] := by
        rw [value]
        exact List.mem_append_right _ (List.mem_singleton_self _)
      dsimp only
      split
      · have rest (q' : Items) (mval' : Mvalue) : Moves (Local (fun _ => True) q'.data)
            (setKeyParts setting dir used keycol.nextInKey mval' q') _ :=
          setKeyParts_moves setting dir q' q'.data (fun _ _ _ => trivial) used keycol.nextInKey mval'
        obtain ⟨after,split,_⟩ := (rest _ _ _).1.trace
        rw [split]
        exact List.mem_append_left _ new
      · exact new

end

end

end ModNdb.Query
