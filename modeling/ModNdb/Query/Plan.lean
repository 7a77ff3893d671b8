import ModNdb.Config.Dir
import ModNdb.Ndb.Api
import ModNdb.Query.Form

/-! The first half of `Query`: the arguments and the path info decide the access plan, the
active index and the values of key columns. -/
namespace ModNdb.Query
open Config (AccessPlan Dir)
open MySQL (Mvalue)

inductive OpSetup | read | write | insert | delete
  deriving DecidableEq

inductive OpAction | read | write | delete
  deriving DecidableEq

/-- `q->data`: a slot of the instance, or the local structure. -/
inductive DataRef
  | localData
  | slot (n : Nat)
  deriving DecidableEq

/-- The classes of index objects, with their members `key_part` and `parts_used`. -/
inductive IndexKind | pk | unique | ordered | tableScan
  deriving DecidableEq

structure IndexObject where
  kind : IndexKind
  keyPart : Nat
  partsUsed : Nat
  nParts : Nat
  deriving DecidableEq

/-- `QueryItems`, with the form data behind `source`. -/
structure Items where
  tab : Ndb.Table
  idx : Option Ndb.Index
  keys : Nat → Option Text
  activeIndex : Option Nat
  idxobj : Option IndexObject
  keyColumnsUsed : Int
  filterList : List Nat
  plan : AccessPlan
  opSetup : OpSetup
  opAction : OpAction
  setVals : List Mvalue
  data : DataRef
  form : FormTable

def Items.init (tab : Ndb.Table) : Items where
  tab := tab
  idx := none
  keys := fun _ => none
  activeIndex := none
  idxobj := none
  keyColumnsUsed := 0
  filterList := []
  plan := .noPlan
  opSetup := .read
  opAction := .read
  setVals := []
  data := .localData
  form := .empty

/-- A `short` after arithmetic. -/
def toShort (i : Int) : Int := Int.bmod i (2^16)

/-- `key_col_bin_search`; every round halves what lies between `low` and `high`. -/
def keyColBinSearch (name : Text) (dir : Dir) : Option Nat :=
  search (dir.keyColumns.length + 1) 0 (dir.keyColumns.length - 1)
where
  search : Nat → Int → Int → Option Nat
    | 0, _, _ => none
    | fuel + 1, low, high =>
      if high < low then none
      else
        let mid := ((low + high) / 2).toNat
        match dir.keyColumns[mid]? with
        | none => none
        | some keycol =>
          match strcmp name keycol.name with
          | .lt => search fuel low (mid - 1)
          | .gt => search fuel (mid + 1) high
          | .eq => some mid

def setKey (dir : Dir) (n : Nat) (value : Text) (q : Items) : Items :=
  match dir.keyColumns[n]? with
  | none => q
  | some keycol =>
    let q := {q with
      filterList := if keycol.isFilter then q.filterList ++ [n] else q.filterList,
      keys := Function.update q.keys n (some value),
      keyColumnsUsed := toShort (q.keyColumnsUsed + 1)}
    if q.plan.value < keycol.impliedPlan.value then
      {q with plan := keycol.impliedPlan, activeIndex := keycol.indexId}
    else q

def setArg (dir : Dir) (q : Items) (arg : Text × Text) : Items :=
  match keyColBinSearch arg.1 dir with
  | some n => setKey dir n arg.2 q
  | none => q

/-- The characters the path info loop looks at, from the right: the NUL at the end, or
what is in front of a trailing slash. -/
def pathChars (path : Text) (before : UInt8) : List UInt8 :=
  if path.getLast?.getD before = code '/' then path.dropLast.reverse else 0 :: path.reverse

/-- The path info loop, with the text between `s` and the component read last, and the
elements that are left, the last one first. -/
def pathLoop (dir : Dir) : List UInt8 → Text → List Nat → Items → Items
  | _, _, [], q => q
  | [], _, _, q => q
  | c::cs, item, element::elements, q =>
    if c = code '/' then
      pathLoop dir cs [] elements (setKey dir element (item.takeWhile (· ≠ 0)) q)
    else pathLoop dir cs (c::item) (element::elements) q

/-- What the default key contributes: the index, and the plan of its first constant. -/
def defaultKey (dir : Dir) (q : Items) : Items :=
  match dir.defaultKey with
  | none => q
  | some key =>
    let q := {q with activeIndex := some key}
    match (dir.indexes[key]?).bind fun index => index.constants.head? with
    | none => q
    | some e => {q with plan := e.impliedPlan}

def scanPlan (dir : Dir) (q : Items) : Items := if dir.tableScan then {q with plan := .scan} else q

def useArgs (r : RequestRec) (dir : Dir) (q : Items) : Items :=
  match r.args with
  | none => q
  | some args => (pairs args).foldl (setArg dir) q

/-- The path info counts if the arguments were not enough, or always. -/
def usePathInfo (r : RequestRec) (dir : Dir) (q : Items) : Items :=
  if dir.pathinfo ≠ [] ∧ (q.plan = .noPlan ∨ dir.pathinfoAlways = true) then
    pathLoop dir (pathChars r.pathInfo r.beforePathInfo) [] dir.pathinfo.reverse q
  else q

def findPlan (r : RequestRec) (dir : Dir) (q : Items) : Items :=
  usePathInfo r dir (useArgs r dir (defaultKey dir (scanPlan dir q)))

end ModNdb.Query
