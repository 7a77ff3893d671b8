import ModNdb.Query.Decided
import ModNdb.Query.Parts

/-! Which parts of a key `get_column` is asked for: the parts up to the last one of the key, and
the one behind it if the request and the chain go on. -/
namespace ModNdb.Query
open Config (Constant Dir KeyCol Reached)
open MySQL (Mvalue)
open Prog (Moves)

section
variable (setting : Setting) (dir : Dir)

/-- The walk along the chain calls `get_column` of an index object. -/
inductive Asks (obj : IndexObject) : Nat → Option Nat → Mvalue → Items → World → Prop
  | here (used col mval q w keycol) (entry : dir.keyColumns[col]? = some keycol)
      (made : q.idxobj = some obj) : Asks obj (used + 1) (some col) mval q w
  | later (used col mval q w keycol mval' q' next) (entry : dir.keyColumns[col]? = some keycol)
      (ran : setPart setting (some col) keycol.baseColName keycol.relOp (q.keys col) mval q w =
        (.ok (mval',q'),next))
      (goes : (nextKeyPart q').1 = true)
      (asks : Asks obj used keycol.nextInKey mval' (nextKeyPart q').2 next) :
      Asks obj (used + 1) (some col) mval q w

/-- The loop over the constants calls `get_column` of an index object. -/
inductive AsksConstants (obj : IndexObject) : List Constant → Mvalue → Items → World → Prop
  | here (constant constants mval q w) (made : q.idxobj = some obj) :
      AsksConstants obj (constant::constants) mval q w
  | later (constant constants mval q w mval' q' next)
      (ran : setPart setting none constant.baseColName constant.relOp (some constant.value) mval q w =
        (.ok (mval',q'),next))
      (asks : AsksConstants obj constants mval' q' next) :
      AsksConstants obj (constant::constants) mval q w

/-- One of the two calls `get_column`. -/
inductive AsksIndex (obj : IndexObject) (mval : Mvalue) (q : Items) (w : World) : Prop
  | chain (n record) (scans : q.plan ≠ .scan) (active : q.activeIndex = some n)
      (entry : dir.indexes[n]? = some record)
      (asks : Asks setting dir obj q.keyColumnsUsed.toNat record.firstCol mval q w)
  | constant (n record mval' q' next) (scans : q.plan ≠ .scan) (active : q.activeIndex = some n)
      (entry : dir.indexes[n]? = some record)
      (ran : setKeyParts setting dir q.keyColumnsUsed.toNat record.firstCol mval q w =
        (.ok (mval',q'),next))
      (asks : AsksConstants setting obj record.constants mval' q' next)

end

/-- A query calls `get_column` of an index object. -/
def Asked (srv : ServerConfig) (setting : Setting) (r : RequestRec) (dir : Dir) (w : World)
    (obj : IndexObject) : Prop :=
  ∃ q next, prepare srv setting r dir (sourceOf r) w = (.ok (false,q),next) ∧
    AsksIndex setting dir obj setting.mval q next

/-- Whatever is in the database and went before, the query of a request looks up no part that a
primary key or a unique index does not have. -/
def WithinKey (r : RequestRec) (dir : Dir) (tab : Ndb.Table) (index : Text → Option Ndb.Index) : Prop :=
  ∀ srv setting w obj, setting.ndb.table = some tab → setting.ndb.index = index →
    Asked srv setting r dir w obj → obj.kind = .pk ∨ obj.kind = .unique → obj.keyPart < obj.nParts

/-- The walk of a request along the chain of a primary key or a unique index ends with the parts
of the key: it does not come to a column more. -/
def EndsWithKey (r : RequestRec) (dir : Dir) (tab : Ndb.Table) (index : Text → Option Ndb.Index) : Prop :=
  Admitted dir (sourceOf r) → ∀ record k,
    walkOf tab index dir (chosen r dir) (supplied r dir) = some (record,k) → k.kind ≠ .ordered →
      ∀ c keycol, dir.keyColumns[c]? = some keycol →
        ¬k.Reaches dir record.firstCol (keysUsed r dir).toNat k.nParts c

section
variable (setting : Setting) {dir : Dir} {k : Walker}

theorem setPart_inv {p c : Nat} {keycol : KeyCol} {mval mval' : Mvalue} {q q' : Items} {w next : World}
    (here : k.At p q) (entry : dir.keyColumns[c]? = some keycol)
    (ran : setPart setting (some c) keycol.baseColName keycol.relOp (q.keys c) mval q w =
      (.ok (mval',q'),next)) : k.Fits dir p c ∧ q' = countPart q := by
  have value : q.keys c = k.keys c := congrFun here.keys c
  by_cases fits : k.Fits dir p c
  · refine ⟨fits,?_⟩
    obtain ⟨same,col,entry',got,encoded⟩ := fits
    obtain rfl : same = keycol := Option.some.inj (entry'.symm.trans entry)
    rw [← here.tab,← here.idx] at got
    obtain ⟨call,hands⟩ := setPart_fits setting (some c) same.baseColName same.relOp (q.keys c) mval
      here.idxobj got (value ▸ encoded)
    rw [hands] at ran
    obtain ⟨refused,middle,_,last⟩ := Prog.bind_inv ran
    have stays : Moves (Local (fun _ => True) q.data) (afterPart setting (some c)
        (MySQL.value setting.out mval (some col) (q.keys c),countPart q) refused) fun got =>
          got = (MySQL.value setting.out mval (some col) (q.keys c),countPart q) :=
      afterPart_moves setting q.data (some c) _ refused
    exact (Prod.mk.inj ((stays middle).2 _ (by rw [last]))).2
  · have unfit : ∀ col, partColumn q.tab q.idx k.kind p keycol.baseColName = some col →
        MySQL.encodes col.type (q.keys c) = false := by
      intro col got
      rw [here.tab,here.idx] at got
      rw [value]
      exact Bool.eq_false_iff.mpr fun encoded => fits ⟨keycol,col,entry,got,encoded⟩
    have stops : Moves (Local (fun _ => True) q.data) (setPart setting (some c) keycol.baseColName
        keycol.relOp (q.keys c) mval q) fun _ => False :=
      setPart_unfit setting (some c) keycol.baseColName keycol.relOp (q.keys c) mval here.idxobj unfit q.data
    exact ((stops w).2 _ (by rw [ran])).elim

/-- The chain is asked for positions that the walk reaches. -/
theorem asks_reaches {obj : IndexObject} {first : Option Nat} {total p used : Nat} {col : Option Nat}
    {mval : Mvalue} {q : Items} {w : World} (asks : Asks setting dir obj used col mval q w)
    (column : chainAt dir p first = col) (budget : p + used = total)
    (room : k.kind = .ordered → p = 0 ∨ p < k.nParts)
    (before : ∀ i < p, ∀ b, chainAt dir i first = some b → k.Fits dir i b) (here : k.At p q) :
    ∃ c keycol, dir.keyColumns[c]? = some keycol ∧ k.Reaches dir first total obj.keyPart c ∧
      obj.kind = k.kind ∧ obj.nParts = k.nParts := by
  induction asks generalizing p with
  | here used col mval q w keycol entry made =>
    have counted : p < total := by omega
    have same := Option.some.inj (made.symm.trans here.idxobj)
    rw [same]
    exact ⟨col,keycol,entry,⟨column,counted,room,before⟩,rfl,rfl⟩
  | later used col mval q w keycol mval' q' next entry ran goes asks ih =>
    obtain ⟨fits,rfl⟩ := setPart_inv setting here entry ran
    obtain ⟨there,more⟩ := here.next
    have on : chainAt dir (p + 1) first = keycol.nextInKey := by
      rw [chainAt_succ,column,Option.bind_some,entry,Option.bind_some]
    refine ih on (by omega) ?_ ?_ there
    · intro ordered
      have space := more.mp goes
      rw [if_pos ordered] at space
      exact .inr space
    · intro i below b found
      rcases Nat.lt_succ_iff_lt_or_eq.mp below with below | rfl
      · exact before i below b found
      · cases column.symm.trans found
        exact fits

/-- If NDB refuses nothing, the chain is asked for every position that the walk reaches. -/
theorem reaches_asks (quiet : ∀ calls, setting.ndb.refuses calls = false) {first : Option Nat}
    {total t c : Nat} {keycol : KeyCol} (reaches : k.Reaches dir first total t c)
    (entry : dir.keyColumns[c]? = some keycol) (p used : Nat) (budget : p + used = total)
    (before : p ≤ t) (q : Items) (here : k.At p q) (mval : Mvalue) (w : World) :
    ∃ obj, Asks setting dir obj used (chainAt dir p first) mval q w ∧
      obj.kind = k.kind ∧ obj.keyPart = t ∧ obj.nParts = k.nParts := by
  induction used generalizing p q mval w with
  | zero => exact absurd reaches.counted (by omega)
  | succ used ih =>
    rcases Nat.lt_or_eq_of_le before with earlier | rfl
    · obtain ⟨b,column⟩ := chainAt_before dir reaches.column before
      obtain ⟨keycol',col,entry',got,encoded⟩ := reaches.before p earlier b column
      have on : chainAt dir (p + 1) first = keycol'.nextInKey := by
        rw [chainAt_succ,column,Option.bind_some,entry',Option.bind_some]
      have value : q.keys b = k.keys b := congrFun here.keys b
      have got' : partColumn q.tab q.idx k.kind p keycol'.baseColName = some col := by
        rw [here.tab,here.idx]
        exact got
      obtain ⟨call,hands⟩ := setPart_fits setting (some b) keycol'.baseColName keycol'.relOp
        (q.keys b) mval here.idxobj got' (value ▸ encoded)
      have ran := Prog.bind_ok (afterPart setting (some b)
        (MySQL.value setting.out mval (some col) (q.keys b),countPart q))
          (handPart_run setting quiet b (q.keys b) call w)
      rw [← hands] at ran
      obtain ⟨there,more⟩ := here.next
      have goes := more.mpr (Walker.Fits.goes dir ⟨keycol',col,entry',got,encoded⟩ earlier reaches.room)
      obtain ⟨obj,asks,same⟩ := ih (p + 1) (by omega) earlier _ there _ _
      rw [on] at asks
      rw [column]
      exact ⟨obj,.later _ _ _ _ _ _ _ _ _ entry' ran goes asks,same⟩
    · rw [reaches.column]
      exact ⟨_,.here _ _ _ _ _ _ entry here.idxobj,rfl,rfl,rfl⟩

/-- A walk along a primary key or a unique index that comes to a part behind the key comes to the
first one there, and to no other. -/
theorem Walker.Reaches.behind {first : Option Nat} {total p c : Nat}
    (reaches : k.Reaches dir first total p c) (kind : k.kind = .pk ∨ k.kind = .unique)
    (behind : k.nParts ≤ p) : p = k.nParts := by
  rcases Nat.lt_or_eq_of_le behind with further | same
  · obtain ⟨b,column⟩ := chainAt_before dir reaches.column behind
    have goes := Walker.Fits.goes dir (reaches.before k.nParts further b column) further reaches.room
    rw [if_neg (by rcases kind with pk | unique <;> simp [*])] at goes
    exact absurd goes (Nat.lt_irrefl _)
  · exact same.symm

def Items.kind (q : Items) : Option IndexKind := q.idxobj.map IndexObject.kind

theorem countPart_kind (q : Items) : (countPart q).kind = q.kind := by
  unfold countPart Items.kind
  cases q.idxobj with
  | none => rfl
  | some obj =>
    dsimp only [Option.map_some]
    split <;> rfl

theorem nextKeyPart_kind (q : Items) : (nextKeyPart q).2.kind = q.kind := by
  unfold nextKeyPart Items.kind
  cases made : q.idxobj with
  | none => rw [made]
  | some obj =>
    dsimp only
    split <;> rfl

theorem asksConstants_kind {obj : IndexObject} {constants : List Constant} {mval : Mvalue} {q : Items}
    {w : World} (asks : AsksConstants setting obj constants mval q w) :
    q.kind = some obj.kind ∧ constants ≠ [] := by
  induction asks with
  | here constant constants mval q w made =>
    refine ⟨?_,List.cons_ne_nil _ _⟩
    unfold Items.kind
    rw [made]
    rfl
  | later constant constants mval q w mval' q' next ran asks ih =>
    rw [setPart_counts setting ran,countPart_kind] at ih
    exact ⟨ih.1,List.cons_ne_nil _ _⟩

end

section
variable {srv : ServerConfig} {setting : Setting} {r : RequestRec} {dir : Dir} {source : QuerySource}

theorem prepare_inv {w next : World} {refused : Bool} {q' : Items}
    (ran : prepare srv setting r dir source w = (.ok (refused,q'),next)) : ∃ q middle tab,
      planQuery srv setting r dir source w = (.ok q,middle) ∧ Planning setting r dir source tab q ∧
        Ready setting dir q q' := by
  unfold prepare at ran
  obtain ⟨q,w₁,planned,ran⟩ := Prog.bind_inv ran
  obtain ⟨_,w₂,_,ran⟩ := Prog.bind_inv ran
  obtain ⟨q₁,w₃,ran₁,ran⟩ := Prog.bind_inv ran
  obtain ⟨q₂,w₄,ran₂,ran₃⟩ := Prog.bind_inv ran
  have chose : Moves (Local (fun _ => True) q.data) (chooseIndex setting dir q) (Chose setting dir q) :=
    chooseIndex_moves setting dir q q.data
  have made : Moves (Local (fun _ => True) q₁.data) (getNdbOperation setting q₁) fun q' => ∃ obj,
      q₁.idxobj = some obj ∧ q' = {q₁ with idxobj := some {obj with nParts := numberOfParts q₁ obj.kind}} :=
    getNdbOperation_moves setting q₁
  have set : Moves (Local (fun _ => True) q₂.data) (opSetup setting dir q₂)
      fun result => ∃ setVals, result.2 = q₂.withVals setVals := opSetup_moves setting dir q₂ q₂.data
  obtain ⟨obj,object,same⟩ := (made w₃).2 q₂ (by rw [ran₂])
  obtain ⟨setVals,same'⟩ := (set w₄).2 (refused,q') (by rw [ran₃])
  obtain ⟨tab,planning⟩ := planQuery_planning srv setting r dir source planned
  exact ⟨q,w₁,tab,planned,planning,q₁,obj,setVals,(chose w₂).2 q₁ (by rw [ran₁]),object,same ▸ same'⟩

theorem planQuery_suited {formats : Text → Option Format.OutputFormat} (reached : Reached formats dir)
    {tab : Ndb.Table} (found : setting.ndb.table = some tab) {w next : World} {q : Items}
    (ran : planQuery srv setting r dir source w = (.ok q,next)) : Suited dir q.planned := by
  rw [planQuery_found srv setting r dir source tab found] at ran
  obtain ⟨q₀,_,made,checked⟩ := Prog.bind_inv ran
  rw [← checkPlan_same r dir checked]
  exact ((setUpMethod_begun srv r dir source tab made).2.decides reached).suited

theorem walkOf_kind {tab : Ndb.Table} {index : Text → Option Ndb.Index}
    {planned : Config.AccessPlan × Option Nat} {keys : Nat → Option Text} {record : Config.Index}
    {k : Walker} (walk : walkOf tab index dir planned keys = some (record,k)) :
    ∃ n, planned.2 = some n ∧ dir.indexes[n]? = some record ∧
      (k.kind = .pk ∧ planned.1 = .primaryKey ∨ k.kind = .unique ∧ planned.1 = .uniqueIndexAccess ∨
        k.kind = .ordered) := by
  unfold walkOf at walk
  obtain ⟨entry,listed,made⟩ := Option.bind_eq_some_iff.mp walk
  obtain ⟨n,active,there⟩ := Option.bind_eq_some_iff.mp listed
  revert made
  cases plan : planned.1 with
  | primaryKey =>
    intro made
    cases made
    exact ⟨n,active,there,.inl ⟨rfl,rfl⟩⟩
  | uniqueIndexAccess =>
    intro made
    obtain ⟨idx,_,typed⟩ := Option.bind_eq_some_iff.mp made
    split_ifs at typed
    cases typed
    exact ⟨n,active,there,.inr (.inl ⟨rfl,rfl⟩)⟩
  | orderedIndexScan =>
    intro made
    obtain ⟨idx,_,typed⟩ := Option.bind_eq_some_iff.mp made
    split_ifs at typed
    cases typed
    exact ⟨n,active,there,.inr (.inr rfl)⟩
  | noPlan | useIndex | scan =>
    intro none
    cases none

theorem walkOf_constants {formats : Text → Option Format.OutputFormat} (reached : Reached formats dir)
    {tab : Ndb.Table} {index : Text → Option Ndb.Index} {planned : Config.AccessPlan × Option Nat}
    {keys : Nat → Option Text} {record : Config.Index} {k : Walker}
    (walk : walkOf tab index dir planned keys = some (record,k)) (suited : Suited dir planned)
    (kind : k.kind = .pk ∨ k.kind = .unique) : record.constants = [] := by
  obtain ⟨n,active,there,kinds⟩ := walkOf_kind walk
  apply List.eq_nil_iff_forall_not_mem.mpr
  intro constant inside
  have ordered := ((reached.sound 0).constants record (List.mem_of_getElem? there) constant inside).1
  rcases kinds with ⟨_,plan⟩ | ⟨_,plan⟩ | other
  · obtain ⟨record',there',type⟩ := suited.primaryKey n active plan
    cases there.symm.trans there'
    rw [type] at ordered
    exact absurd ordered (by decide)
  · obtain ⟨record',there',type⟩ := suited.uniqueIndexAccess n active plan
    cases there.symm.trans there'
    rw [type] at ordered
    exact absurd ordered (by decide)
  · rw [other] at kind
    rcases kind with pk | unique
    · cases pk
    · cases unique

end

section
variable (r : RequestRec) (dir : Dir) (tab : Ndb.Table) (index : Text → Option Ndb.Index)

theorem ends_within {formats : Text → Option Format.OutputFormat} (reached : Reached formats dir)
    (ends : EndsWithKey r dir tab index) : WithinKey r dir tab index := by
  rintro srv setting w obj found rfl ⟨q',next,ran,asks⟩ kind
  obtain ⟨q,middle,tab',planned,planning,ready⟩ := prepare_inv ran
  cases planning.found.symm.trans found
  have used : q'.keyColumnsUsed = keysUsed r dir :=
    ready.keyColumnsUsed.trans planning.keyColumnsUsed
  cases asks with
  | chain n record scans active entry asks =>
    obtain ⟨k,walk,start⟩ := ready_walk setting dir planning.idxobj planning.idx ready scans active entry
    obtain ⟨c,keycol,column,reaches,same,parts⟩ := asks_reaches setting asks
      (chainAt_zero dir record.firstCol) (Nat.zero_add _) (fun _ => .inl rfl)
      (fun _ none => absurd none (Nat.not_lt_zero _)) start
    rw [used] at reaches
    by_contra behind
    have walking : q.planned = chosen r dir := by
      apply planning.planned.resolve_right
      intro idle
      have counted := reaches.counted
      rw [idle] at counted
      exact absurd counted (Nat.not_lt_zero _)
    rw [planning.tab,walking,planning.keys] at walk
    have last := reaches.behind (same ▸ kind) (by omega)
    rw [last] at reaches
    refine ends planning.admitted record k walk ?_ c keycol column reaches
    intro ordered
    rw [same,ordered] at kind
    rcases kind with pk | unique
    · cases pk
    · cases unique
  | constant n record mval' q₁ next' scans active entry walked asks =>
    obtain ⟨k,walk,start⟩ := ready_walk setting dir planning.idxobj planning.idx ready scans active entry
    obtain ⟨kinds,constants⟩ := asksConstants_kind setting asks
    rw [setKeyParts_keeps setting dir Items.kind countPart_kind nextKeyPart_kind walked,Items.kind,
      start.idxobj] at kinds
    have same : k.kind = obj.kind := Option.some.inj kinds
    exact absurd (walkOf_constants reached walk (planQuery_suited reached planning.found planned)
      (same ▸ kind)) constants

theorem within_ends (within : WithinKey r dir tab index) : EndsWithKey r dir tab index := by
  intro admitted record k walk unordered c keycol column reaches
  obtain ⟨q,next,ran,start,scans,⟨n,active,entry⟩,used⟩ :=
    prepare_begins r dir (sourceOf r) admitted walk (Nat.zero_lt_of_lt reaches.counted)
  rw [← used] at reaches
  obtain ⟨obj,asks,kind,part,parts⟩ := reaches_asks (.indexed tab index) (fun _ => rfl) reaches column
    0 _ (Nat.zero_add _) (Nat.zero_le _) q start (Setting.indexed tab index).mval next
  rw [chainAt_zero] at asks
  have short := within ⟨1,0,false⟩ (.indexed tab index) World.init obj rfl rfl
    ⟨q,next,ran,.chain n record scans active entry asks⟩ (by
      rw [kind]
      obtain ⟨_,_,_,⟨pk,_⟩ | ⟨unique,_⟩ | ordered⟩ := walkOf_kind walk
      · exact .inl pk
      · exact .inr unique
      · exact absurd ordered unordered)
  omega

/-- No part that a key does not have is looked up, exactly if the walk along the chain ends with
the parts of the key. -/
theorem within_key_iff {formats : Text → Option Format.OutputFormat} (reached : Reached formats dir) :
    WithinKey r dir tab index ↔ EndsWithKey r dir tab index :=
  ⟨within_ends r dir tab index,ends_within r dir tab index reached⟩

end

def keyPairDir : Dir :=
  {pairDir with keyColumns := pairDir.keyColumns.map fun key => {key with idxMapBucket := 0}}

theorem keyPairDir_reached : Reached (fun _ => none) keyPairDir :=
  .configured [.database (text "shop"),.table (text "items") none none,.columns [text "a"],
    .primaryKey [text "a",text "b"]] _ rfl

/-- A request for both columns goes along the primary key of the table. -/
theorem keyPair_walk (args : Text) (tab : Ndb.Table)
    (planned : chosen (asking false args) keyPairDir = (.primaryKey,some 0)) :
    walkOf tab (fun _ => none) keyPairDir (chosen (asking false args) keyPairDir)
      (supplied (asking false args) keyPairDir) =
        some (⟨text "*Primary$Key*",2,some 0,some 0,code 'P',false,false,[]⟩,
          ⟨tab,none,.pk,supplied (asking false args) keyPairDir⟩) := by
  rw [planned]
  rfl

/-- Two columns for a key of two parts. -/
theorem within_key_pair :
    WithinKey (asking false (text "a=1&b=x")) keyPairDir pairTable fun _ => none := by
  apply (within_key_iff _ keyPairDir pairTable (fun _ => none) keyPairDir_reached).mpr
  intro _ record k walk _ c keycol _ reaches
  cases (keyPair_walk (text "a=1&b=x") pairTable (by decide +kernel)).symm.trans walk
  have ended : chainAt keyPairDir 2 (some 0) = none := by decide
  cases ended.symm.trans reaches.column

/-- Two columns for a key of one part: the second part is looked up. -/
theorem beyond_key :
    Reached (fun _ => none) keyPairDir ∧
      ¬WithinKey (asking false (text "a=1&b=2")) keyPairDir items fun _ => none := by
  refine ⟨keyPairDir_reached,fun within => ?_⟩
  have walk := keyPair_walk (text "a=1&b=2") items (by decide +kernel)
  refine within_ends _ keyPairDir items (fun _ => none) within (.inl rfl) _ _ walk nofun 1
    (keyPairDir.keyColumns.get ⟨1,by decide⟩) rfl ⟨rfl,by decide +kernel,nofun,?_⟩
  intro i below b found
  obtain rfl := Nat.lt_one_iff.mp below
  cases found
  exact ⟨_,_,rfl,rfl,by decide +kernel⟩

end ModNdb.Query
