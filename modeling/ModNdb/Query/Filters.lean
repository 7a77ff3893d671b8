import ModNdb.Config.Reached
import ModNdb.Query.KeyParts

/-! The list of filters, which has room for as many entries as there are key columns, and the
indexes that `set_key` uses. -/
namespace ModNdb.Query
open Config (Dir KeyCol Reached Whole)

def filtersOf (dir : Dir) (keys : List (Nat × Text)) : List Nat :=
  (keys.map Prod.fst).filter fun n => ((dir.keyColumns[n]?).map KeyCol.isFilter).getD false

/-- Where a call of `set_key` writes to the list of filters, if it does. -/
def filterWrite (dir : Dir) (n : Nat) (q : Items) : Option Nat :=
  if ((dir.keyColumns[n]?).map KeyCol.isFilter).getD false then some q.filterList.length else none

/-- Where the calls of `set_key` for keys write to the list of filters, one after the other. -/
def filterWrites (dir : Dir) : List (Nat × Text) → Items → List Nat
  | [], _ => []
  | key::keys, q =>
    (filterWrite dir key.1 q).toList ++ filterWrites dir keys (setKey dir key.1 key.2 q)

section
variable (dir : Dir)

theorem filtersOf_one (key : Nat × Text) : filtersOf dir [key] =
    if ((dir.keyColumns[key.1]?).map KeyCol.isFilter).getD false then [key.1] else [] := by
  unfold filtersOf
  rw [List.map_singleton,List.filter_singleton]
  split <;> simp_all

theorem setKey_filterList (n : Nat) (value : Text) (q : Items) :
    (setKey dir n value q).filterList = q.filterList ++ filtersOf dir [(n,value)] := by
  rw [filtersOf_one]
  unfold setKey
  cases dir.keyColumns[n]? with
  | none => exact (List.append_nil _).symm
  | some keycol =>
    dsimp only [Option.map_some,Option.getD_some]
    split_ifs <;> first | rfl | exact (List.append_nil _).symm

theorem filtersOf_cons (key : Nat × Text) (keys : List (Nat × Text)) :
    filtersOf dir (key::keys) = filtersOf dir [key] ++ filtersOf dir keys := by
  unfold filtersOf
  rw [List.map_cons,List.filter_cons,List.map_cons,List.filter_cons,List.map_nil,List.filter_nil]
  split <;> rfl

theorem giveKeys_filterList (keys : List (Nat × Text)) (q : Items) :
    (giveKeys dir keys q).filterList = q.filterList ++ filtersOf dir keys := by
  induction keys generalizing q with
  | nil => exact (List.append_nil _).symm
  | cons key keys ih =>
    rw [giveKeys_cons,ih,setKey_filterList,filtersOf_cons dir key keys,List.append_assoc]

/-- The writes are at one index after the other. -/
theorem filterWrites_eq (keys : List (Nat × Text)) (q : Items) :
    filterWrites dir keys q = List.range' q.filterList.length (filtersOf dir keys).length := by
  induction keys generalizing q with
  | nil => rfl
  | cons key keys ih =>
    have pushed := congrArg List.length (setKey_filterList dir key.1 key.2 q)
    have one : (filterWrite dir key.1 q).toList =
        List.range' q.filterList.length (filtersOf dir [key]).length := by
      rw [filtersOf_one]
      unfold filterWrite
      split <;> rfl
    rw [List.length_append] at pushed
    unfold filterWrites
    rw [ih,pushed,one,filtersOf_cons dir key keys,List.length_append]
    exact List.range'_append_1

theorem keyColBinSearch_found {name : Text} {n : Nat} (found : keyColBinSearch name dir = some n) :
    ∃ keycol, dir.keyColumns[n]? = some keycol ∧ strcmp name keycol.name = .eq := by
  have search (fuel : Nat) : ∀ low high, keyColBinSearch.search name dir fuel low high = some n →
      ∃ keycol, dir.keyColumns[n]? = some keycol ∧ strcmp name keycol.name = .eq := by
    induction fuel with
    | zero =>
      intro low high none
      cases none
    | succ fuel ih =>
      intro low high found
      unfold keyColBinSearch.search at found
      split at found
      · cases found
      · dsimp only at found
        cases column : dir.keyColumns[((low + high) / 2).toNat]? with
        | none =>
          rw [column] at found
          cases found
        | some keycol =>
          rw [column] at found
          dsimp only at found
          cases order : strcmp name keycol.name with
          | lt =>
            rw [order] at found
            exact ih _ _ found
          | gt =>
            rw [order] at found
            exact ih _ _ found
          | eq =>
            rw [order] at found
            cases found
            exact ⟨keycol,column,order⟩
  exact search _ _ _ found

theorem pathKeys_element (chars : List UInt8) (item : Text) (elements : List Nat)
    (key : Nat × Text) (inside : key ∈ pathKeys chars item elements) : key.1 ∈ elements := by
  induction chars generalizing item elements with
  | nil => cases elements <;> cases inside
  | cons c cs ih =>
    cases elements with
    | nil => cases inside
    | cons element elements =>
      unfold pathKeys at inside
      split at inside
      · rcases List.mem_cons.mp inside with rfl | later
        · exact List.mem_cons_self
        · exact List.mem_cons_of_mem _ (ih _ _ later)
      · exact ih _ _ inside

theorem path_there (whole : Whole dir) (n : Nat) (inside : n ∈ dir.pathinfo) :
    n < dir.keyColumns.length := by
  obtain ⟨j,place⟩ := List.mem_iff_getElem?.mp inside
  have paths := (whole (j + 1)).paths j (Nat.lt_succ_self j)
  rw [place] at paths
  obtain ⟨serial,_,position⟩ := Option.bind_eq_some_iff.mp paths.symm
  obtain ⟨key,there,_⟩ := Config.position_some serial n position
  exact (List.getElem?_eq_some_iff.mp there).1

/-- `set_key` is called for columns that there are. -/
theorem givenKeys_there (whole : Whole dir) (r : RequestRec) (key : Nat × Text)
    (inside : key ∈ givenKeys r dir) : key.1 < dir.keyColumns.length := by
  rcases List.mem_append.mp inside with arg | path
  · obtain ⟨pair,_,found⟩ := List.mem_filterMap.mp arg
    obtain ⟨n,searched,rfl⟩ := Option.map_eq_some_iff.mp found
    obtain ⟨keycol,there,_⟩ := keyColBinSearch_found dir searched
    exact (List.getElem?_eq_some_iff.mp there).1
  · split at path
    · have element := pathKeys_element _ _ _ key path
      exact path_there dir whole key.1 (List.mem_reverse.mp element)
    · cases path

end

/-- The keys of a request are given one after the other by `set_key`, and every index into
`keys` and `filter_list` that it uses is in range. -/
structure InRange (r : RequestRec) (dir : Dir) (q : Items) : Prop where
  calls : findPlan r dir q = giveKeys dir (givenKeys r dir) (defaultKey dir (scanPlan dir q))
  keys : ∀ key ∈ givenKeys r dir, key.1 < dir.keyColumns.length
  filters : ∀ i ∈ filterWrites dir (givenKeys r dir) (defaultKey dir (scanPlan dir q)),
    i < dir.keyColumns.length

/-- The indexes are in range exactly if a request names filters, each as often as it does, at
most as often as there are key columns. -/
theorem inRange_iff {formats : Text → Option Format.OutputFormat} (srv : ServerConfig) (r : RequestRec)
    (dir : Dir) (source : QuerySource) (reached : Reached formats dir) (tab : Ndb.Table)
    (w next : World) (q : Items) (ran : setUpMethod srv r dir source (.init tab) w = (.ok q,next)) :
    InRange r dir q ↔ (filtersOf dir (givenKeys r dir)).length ≤ dir.keyColumns.length := by
  obtain ⟨_,begun⟩ := setUpMethod_begun srv r dir source tab ran
  have empty : (defaultKey dir (scanPlan dir q)).filterList = [] :=
    (defaultKey_keys dir q).2.2.trans begun.filterList
  have writes := filterWrites_eq dir (givenKeys r dir) (defaultKey dir (scanPlan dir q))
  rw [empty,List.length_nil] at writes
  constructor
  · intro inside
    by_contra more
    have full := inside.filters dir.keyColumns.length (by
      rw [writes]
      exact List.mem_range'_1.mpr (by omega))
    exact absurd full (Nat.lt_irrefl _)
  · intro few
    refine ⟨begun.given,givenKeys_there dir reached.sound r,fun i inside => ?_⟩
    rw [writes] at inside
    have before := (List.mem_range'_1.mp inside).2
    omega

def filterDirectives : List Config.Directive :=
  [.database (text "shop"),.table (text "items") (some (text "scan")) none,
    .columns [text "id"],.filter (text "id") (text ">") (text "from")]

def filterDir : Dir :=
  {itemsDir with
    tableScan := true
    hasFilters := true
    indexes := []
    keyColumns := [⟨text "from",some (text "id"),3,.noPlan,some 0,0,0,some 0,some 0,false,true,false,false⟩]}

theorem filterDir_reached : Reached (fun _ => none) filterDir :=
  .configured filterDirectives filterDir rfl

/-- The filter once. -/
theorem inRange_once : InRange (asking false (text "from=1")) filterDir
    {Items.init items with data := .slot 0} :=
  (inRange_iff ⟨1,0,false⟩ (asking false (text "from=1")) filterDir (httpSource (asking false (text "from=1")))
    filterDir_reached items World.init _ _ rfl).mpr (by decide +kernel)

/-- The filter twice: the second entry is behind the end of the list. -/
theorem filter_given_twice : Reached (fun _ => none) filterDir ∧
    ∃ q next, setUpMethod ⟨1,0,false⟩ (asking false (text "from=1&from=2")) filterDir
        (httpSource (asking false (text "from=1&from=2"))) (.init items) World.init = (.ok q,next) ∧
      ¬InRange (asking false (text "from=1&from=2")) filterDir q := by
  refine ⟨filterDir_reached,_,_,rfl,fun inside => ?_⟩
  exact absurd (inside.filters 1 (by decide +kernel)) (by decide)

end ModNdb.Query
