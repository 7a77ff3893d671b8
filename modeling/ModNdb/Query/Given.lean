import ModNdb.Query.Plan

/-! What a request gives: the key columns that its arguments and its path info name, with
their values, and what the plan makes of them. -/
namespace ModNdb.Query
open Config (AccessPlan Dir KeyCol)

def argKeys (r : RequestRec) (dir : Dir) : List (Nat × Text) :=
  ((r.args.map pairs).getD []).filterMap fun arg =>
    (keyColBinSearch arg.1 dir).map fun n => (n,arg.2)

/-- The columns of the path info, with what is between slashes, from the right. -/
def pathKeys : List UInt8 → Text → List Nat → List (Nat × Text)
  | _, _, [] => []
  | [], _, _ => []
  | c::cs, item, element::elements =>
    if c = code '/' then (element,item.takeWhile (· ≠ 0)) :: pathKeys cs [] elements
    else pathKeys cs (c::item) (element::elements)

def giveKeys (dir : Dir) (keys : List (Nat × Text)) (q : Items) : Items :=
  keys.foldl (fun q key => setKey dir key.1 key.2 q) q

def columnsOf (dir : Dir) (keys : List (Nat × Text)) : List KeyCol :=
  keys.filterMap fun key => dir.keyColumns[key.1]?

def startPlan (dir : Dir) : AccessPlan :=
  let plan := if dir.tableScan then .scan else .noPlan
  ((dir.defaultKey.bind fun key => dir.indexes[key]?).bind fun index =>
    index.constants.head?.map Config.Constant.impliedPlan).getD plan

/-- The path info is looked at if no argument makes a plan, or always. -/
def LooksAtPath (r : RequestRec) (dir : Dir) : Prop :=
  dir.pathinfo ≠ [] ∧ (dir.pathinfoAlways = true ∨
    startPlan dir = .noPlan ∧ ∀ keycol ∈ columnsOf dir (argKeys r dir), keycol.impliedPlan = .noPlan)

instance (r : RequestRec) (dir : Dir) : Decidable (LooksAtPath r dir) :=
  inferInstanceAs (Decidable (_ ∧ (_ ∨ _ ∧ ∀ keycol ∈ columnsOf dir (argKeys r dir),
    keycol.impliedPlan = .noPlan)))

def givenKeys (r : RequestRec) (dir : Dir) : List (Nat × Text) :=
  argKeys r dir ++
    if LooksAtPath r dir then
      pathKeys (pathChars r.pathInfo r.beforePathInfo) [] dir.pathinfo.reverse
    else []

/-- The key that decides on the index: the first of those with the highest plan. -/
def leading (dir : Dir) (keys : List (Nat × Text)) : Option KeyCol :=
  (columnsOf dir keys).argmax fun keycol => keycol.impliedPlan.value

def raise (keycol : KeyCol) (plan : AccessPlan × Option Nat) : AccessPlan × Option Nat :=
  if plan.1.value < keycol.impliedPlan.value then (keycol.impliedPlan,keycol.indexId) else plan

/-- The plan and the index of a request: those of the leading key, where its plan is higher
than the one before any key, or the ones by default. -/
def chosen (r : RequestRec) (dir : Dir) : AccessPlan × Option Nat :=
  match leading dir (givenKeys r dir) with
  | none => (startPlan dir,dir.defaultKey)
  | some keycol => raise keycol (startPlan dir,dir.defaultKey)

def lastGiven (keys : List (Nat × Text)) (n : Nat) : Option Text :=
  (keys.reverse.find? fun key => key.1 == n).map Prod.snd

def supplied (r : RequestRec) (dir : Dir) (n : Nat) : Option Text :=
  (dir.keyColumns[n]?).bind fun _ => lastGiven (givenKeys r dir) n

/-- How many keys a request gives, in a `short`. -/
def keysUsed (r : RequestRec) (dir : Dir) : Int := toShort (columnsOf dir (givenKeys r dir)).length

section
variable (dir : Dir)

theorem foldl_setArg (args : List (Text × Text)) (q : Items) :
    args.foldl (setArg dir) q = giveKeys dir (args.filterMap fun arg =>
      (keyColBinSearch arg.1 dir).map fun n => (n,arg.2)) q := by
  induction args generalizing q with
  | nil => rfl
  | cons arg args ih =>
    rw [List.foldl_cons,ih,setArg,List.filterMap_cons]
    cases keyColBinSearch arg.1 dir with
    | none => rfl
    | some n => rfl

theorem useArgs_eq (r : RequestRec) (q : Items) :
    useArgs r dir q = giveKeys dir (argKeys r dir) q := by
  unfold useArgs argKeys
  cases r.args with
  | none => rfl
  | some args => exact foldl_setArg dir (pairs args) q

theorem pathLoop_eq (chars : List UInt8) (item : Text) (elements : List Nat) (q : Items) :
    pathLoop dir chars item elements q = giveKeys dir (pathKeys chars item elements) q := by
  induction chars generalizing item elements q with
  | nil => cases elements <;> rfl
  | cons c cs ih =>
    cases elements with
    | nil => rfl
    | cons element elements =>
      unfold pathLoop pathKeys
      by_cases slash : c = code '/'
      · rw [if_pos slash,if_pos slash,ih]
        rfl
      · rw [if_neg slash,if_neg slash,ih]

theorem giveKeys_cons (key : Nat × Text) (keys : List (Nat × Text)) (q : Items) :
    giveKeys dir (key::keys) q = giveKeys dir keys (setKey dir key.1 key.2 q) := rfl

theorem giveKeys_append (keys more : List (Nat × Text)) (q : Items) :
    giveKeys dir (keys ++ more) q = giveKeys dir more (giveKeys dir keys q) := List.foldl_append

theorem raise_raise (first second : KeyCol) (plan : AccessPlan × Option Nat) :
    raise second (raise first plan) =
      if first.impliedPlan.value < second.impliedPlan.value then raise second plan
      else raise first plan := by
  unfold raise
  by_cases higher : plan.1.value < first.impliedPlan.value
  · rw [if_pos higher]
    by_cases highest : first.impliedPlan.value < second.impliedPlan.value
    · rw [if_pos highest,if_pos highest,if_pos (Nat.lt_trans higher highest)]
    · rw [if_neg highest,if_neg highest]
  · rw [if_neg higher]
    by_cases highest : first.impliedPlan.value < second.impliedPlan.value
    · rw [if_pos highest]
    · rw [if_neg highest,if_neg fun above => ?_]
      omega

def Items.planned (q : Items) : AccessPlan × Option Nat := (q.plan,q.activeIndex)

theorem setKey_planned (n : Nat) (value : Text) (q : Items) (keycol : KeyCol)
    (column : dir.keyColumns[n]? = some keycol) :
    (setKey dir n value q).planned = raise keycol q.planned := by
  unfold setKey raise Items.planned
  rw [column]
  dsimp only
  split <;> rfl

theorem setKey_outside (n : Nat) (value : Text) (q : Items) (outside : dir.keyColumns[n]? = none) :
    setKey dir n value q = q := by
  unfold setKey
  rw [outside]

/-- The plan rises to that of the leading key, and takes its index with it. -/
theorem giveKeys_planned (keys : List (Nat × Text)) (q : Items) :
    (giveKeys dir keys q).planned =
      ((leading dir keys).map fun keycol => raise keycol q.planned).getD q.planned := by
  induction keys generalizing q with
  | nil => rfl
  | cons key keys ih =>
    rw [giveKeys_cons,ih]
    unfold leading columnsOf
    rw [List.filterMap_cons]
    cases column : dir.keyColumns[key.1]? with
    | none => rw [setKey_outside dir key.1 key.2 q column]
    | some keycol =>
      dsimp only
      rw [setKey_planned dir key.1 key.2 q keycol column,List.argmax_cons]
      cases (keys.filterMap fun key => dir.keyColumns[key.1]?).argmax
          fun keycol => keycol.impliedPlan.value with
      | none => rfl
      | some best =>
        dsimp only [Option.map_some,Option.getD_some]
        rw [raise_raise]
        split <;> rfl

end

theorem AccessPlan.value_eq_zero {plan : AccessPlan} (zero : plan.value = 0) : plan = .noPlan := by
  cases plan <;> first | rfl | cases zero

theorem raise_noPlan_iff (keycol : KeyCol) (plan : AccessPlan × Option Nat) :
    (raise keycol plan).1 = .noPlan ↔ plan.1 = .noPlan ∧ keycol.impliedPlan = .noPlan := by
  unfold raise
  by_cases higher : plan.1.value < keycol.impliedPlan.value
  · rw [if_pos higher]
    have planned : keycol.impliedPlan ≠ .noPlan := by
      intro bare
      rw [bare] at higher
      exact absurd higher (Nat.not_lt_zero _)
    exact ⟨fun bare => absurd bare planned,fun bare => absurd bare.2 planned⟩
  · rw [if_neg higher]
    refine ⟨fun bare => ⟨bare,?_⟩,And.left⟩
    rw [bare] at higher
    exact AccessPlan.value_eq_zero (Nat.eq_zero_of_not_pos higher)

/-- Keys leave no plan exactly if none of them implies one. -/
theorem giveKeys_noPlan_iff (dir : Dir) (keys : List (Nat × Text)) (q : Items) :
    (giveKeys dir keys q).plan = .noPlan ↔
      q.plan = .noPlan ∧ ∀ keycol ∈ columnsOf dir keys, keycol.impliedPlan = .noPlan := by
  induction keys generalizing q with
  | nil => exact ⟨fun bare => ⟨bare,fun _ none => absurd none List.not_mem_nil⟩,And.left⟩
  | cons key keys ih =>
    rw [giveKeys_cons,ih]
    unfold columnsOf
    rw [List.filterMap_cons]
    cases column : dir.keyColumns[key.1]? with
    | none => rw [setKey_outside dir key.1 key.2 q column]
    | some keycol =>
      have stepped : (setKey dir key.1 key.2 q).plan = (raise keycol q.planned).1 :=
        congrArg Prod.fst (setKey_planned dir key.1 key.2 q keycol column)
      rw [stepped,raise_noPlan_iff,List.forall_mem_cons,and_assoc]
      rfl

theorem defaultKey_start (dir : Dir) (q : Items) (fresh : q.plan = .noPlan)
    (unset : q.activeIndex = none) :
    (defaultKey dir (scanPlan dir q)).planned = (startPlan dir,dir.defaultKey) := by
  have scanned : (scanPlan dir q).planned = (if dir.tableScan then .scan else .noPlan,none) := by
    unfold scanPlan Items.planned
    split
    · rw [unset]
    · rw [fresh,unset]
  unfold defaultKey startPlan
  cases dir.defaultKey with
  | none => exact scanned
  | some key =>
    have plan : (scanPlan dir q).plan = if dir.tableScan then .scan else .noPlan :=
      congrArg Prod.fst scanned
    dsimp only [Option.bind_some]
    cases dir.indexes[key]? with
    | none => exact Prod.ext plan rfl
    | some index =>
      dsimp only [Option.bind_some]
      cases index.constants.head? with
      | none => exact Prod.ext plan rfl
      | some e => rfl

/-- The plan is that of the keys given, after what the directory has by default. -/
theorem findPlan_eq (r : RequestRec) (dir : Dir) (q : Items)
    (fresh : (defaultKey dir (scanPlan dir q)).plan = startPlan dir ∨ dir.pathinfo = []) :
    findPlan r dir q = giveKeys dir (givenKeys r dir) (defaultKey dir (scanPlan dir q)) := by
  unfold findPlan usePathInfo givenKeys
  rw [useArgs_eq,giveKeys_append]
  have looks : (dir.pathinfo ≠ [] ∧
      ((giveKeys dir (argKeys r dir) (defaultKey dir (scanPlan dir q))).plan = .noPlan ∨
        dir.pathinfoAlways = true)) ↔ LooksAtPath r dir := by
    unfold LooksAtPath
    apply and_congr_right
    intro path
    rw [giveKeys_noPlan_iff,fresh.resolve_right path,or_comm]
  by_cases path : LooksAtPath r dir
  · rw [if_pos (looks.mpr path),if_pos path,pathLoop_eq]
  · rw [if_neg fun used => path (looks.mp used),if_neg path]
    rfl

theorem defaultKey_activeIndex (dir : Dir) (q : Items) (unset : q.activeIndex = none) :
    (defaultKey dir (scanPlan dir q)).activeIndex = dir.defaultKey := by
  have scanned : (scanPlan dir q).activeIndex = none := by
    unfold scanPlan
    split <;> exact unset
  unfold defaultKey
  cases dir.defaultKey with
  | none => exact scanned
  | some key =>
    dsimp only
    split <;> rfl

theorem givenKeys_nil (r : RequestRec) (dir : Dir) (args : r.args = none) (path : dir.pathinfo = []) :
    givenKeys r dir = [] := by
  unfold givenKeys argKeys
  rw [args,if_neg fun looks : LooksAtPath r dir => looks.1 path]
  rfl

theorem findPlan_planned (r : RequestRec) (dir : Dir) (q : Items) (fresh : q.plan = .noPlan)
    (unset : q.activeIndex = none) : (findPlan r dir q).planned = chosen r dir := by
  have start := defaultKey_start dir q fresh unset
  rw [findPlan_eq r dir q (.inl (congrArg Prod.fst start)),giveKeys_planned,start]
  unfold chosen
  cases leading dir (givenKeys r dir) with
  | none => rfl
  | some keycol => rfl

theorem findPlan_activeIndex (r : RequestRec) (dir : Dir) (q : Items) (unset : q.activeIndex = none)
    (fresh : q.plan = .noPlan ∨ r.args = none ∧ dir.pathinfo = []) :
    (findPlan r dir q).activeIndex = (chosen r dir).2 := by
  rcases fresh with fresh | ⟨args,path⟩
  · exact congrArg Prod.snd (findPlan_planned r dir q fresh unset)
  · unfold chosen
    rw [findPlan_eq r dir q (.inr path),givenKeys_nil r dir args path]
    exact defaultKey_activeIndex dir q unset

section
variable (dir : Dir) (keys : List (Nat × Text)) (q : Items)

theorem lastGiven_cons (key : Nat × Text) (n : Nat) : lastGiven (key::keys) n =
    (lastGiven keys n).or (if key.1 = n then some key.2 else none) := by
  unfold lastGiven
  rw [List.reverse_cons,List.find?_append]
  cases keys.reverse.find? fun key => key.1 == n with
  | some later => rfl
  | none => by_cases same : key.1 = n <;> simp [same]

theorem setKey_column (n : Nat) (value : Text) (keycol : KeyCol)
    (column : dir.keyColumns[n]? = some keycol) :
    (setKey dir n value q).keys = Function.update q.keys n (some value) ∧
      (setKey dir n value q).keyColumnsUsed = toShort (q.keyColumnsUsed + 1) := by
  unfold setKey
  rw [column]
  dsimp only
  split <;> exact ⟨rfl,rfl⟩

theorem giveKeys_keys (n : Nat) : (giveKeys dir keys q).keys n =
    ((dir.keyColumns[n]?).bind fun _ => lastGiven keys n).or (q.keys n) := by
  induction keys generalizing q with
  | nil => cases dir.keyColumns[n]? <;> rfl
  | cons key keys ih =>
    rw [giveKeys_cons,ih]
    cases here : dir.keyColumns[n]? with
    | none =>
      cases other : dir.keyColumns[key.1]? with
      | none => rw [setKey_outside dir key.1 key.2 q other]; rfl
      | some kept =>
        have apart : n ≠ key.1 := by
          rintro rfl
          rw [here] at other
          cases other
        rw [(setKey_column dir q key.1 key.2 kept other).1,Function.update_of_ne apart]
        rfl
    | some keycol =>
      dsimp only [Option.bind_some]
      rw [lastGiven_cons,Option.or_assoc]
      congr 1
      by_cases same : key.1 = n
      · rw [if_pos same,same,(setKey_column dir q n key.2 keycol here).1,Function.update_self]
        rfl
      · rw [if_neg same]
        cases other : dir.keyColumns[key.1]? with
        | none => rw [setKey_outside dir key.1 key.2 q other]; rfl
        | some kept =>
          rw [(setKey_column dir q key.1 key.2 kept other).1,Function.update_of_ne (Ne.symm same)]
          rfl

/-- Every key that has a column is counted, in a `short`. -/
theorem giveKeys_used (short : toShort q.keyColumnsUsed = q.keyColumnsUsed) :
    (giveKeys dir keys q).keyColumnsUsed =
      toShort (q.keyColumnsUsed + (columnsOf dir keys).length) := by
  induction keys generalizing q with
  | nil => exact (short.symm.trans (congrArg toShort (Int.add_zero _).symm))
  | cons key keys ih =>
    rw [giveKeys_cons]
    unfold columnsOf
    rw [List.filterMap_cons]
    cases column : dir.keyColumns[key.1]? with
    | none =>
      rw [setKey_outside dir key.1 key.2 q column]
      exact ih q short
    | some keycol =>
      have used := (setKey_column dir q key.1 key.2 keycol column).2
      rw [ih _ (by rw [used]; exact Int.bmod_bmod),used]
      unfold toShort columnsOf
      rw [Int.bmod_add_bmod,List.length_cons]
      congr 1
      push_cast
      ring

def Items.setup (q : Items) := (q.tab,q.idx,q.idxobj,q.opSetup,q.opAction,q.setVals,q.data,q.form)

theorem setKey_setup (n : Nat) (value : Text) : (setKey dir n value q).setup = q.setup := by
  unfold setKey
  cases dir.keyColumns[n]? with
  | none => rfl
  | some keycol =>
    dsimp only
    split <;> rfl

theorem giveKeys_setup : (giveKeys dir keys q).setup = q.setup := by
  induction keys generalizing q with
  | nil => rfl
  | cons key keys ih => rw [giveKeys_cons,ih,setKey_setup]

theorem defaultKey_setup : (defaultKey dir (scanPlan dir q)).setup = q.setup := by
  have scanned : (scanPlan dir q).setup = q.setup := by
    unfold scanPlan
    split <;> rfl
  unfold defaultKey
  cases dir.defaultKey with
  | none => exact scanned
  | some key =>
    dsimp only
    split <;> exact scanned

theorem findPlan_setup (r : RequestRec) : (findPlan r dir q).setup = q.setup := by
  unfold findPlan usePathInfo
  split
  · rw [pathLoop_eq,giveKeys_setup,useArgs_eq,giveKeys_setup,defaultKey_setup]
  · rw [useArgs_eq,giveKeys_setup,defaultKey_setup]

theorem defaultKey_keys : (defaultKey dir (scanPlan dir q)).keys = q.keys ∧
    (defaultKey dir (scanPlan dir q)).keyColumnsUsed = q.keyColumnsUsed ∧
    (defaultKey dir (scanPlan dir q)).filterList = q.filterList := by
  have scanned : (scanPlan dir q).keys = q.keys ∧
      (scanPlan dir q).keyColumnsUsed = q.keyColumnsUsed ∧
      (scanPlan dir q).filterList = q.filterList := by
    unfold scanPlan
    split <;> exact ⟨rfl,rfl,rfl⟩
  unfold defaultKey
  cases dir.defaultKey with
  | none => exact scanned
  | some key =>
    dsimp only
    split <;> exact scanned

end

/-- The values and the count that a query begins with, after its keys are given. -/
theorem findPlan_keys (r : RequestRec) (dir : Dir) (q : Items)
    (fresh : q.plan = .noPlan ∧ q.activeIndex = none ∨ dir.pathinfo = [])
    (empty : q.keys = fun _ => none) (unused : q.keyColumnsUsed = 0) :
    (findPlan r dir q).keys = supplied r dir ∧
    (findPlan r dir q).keyColumnsUsed = keysUsed r dir := by
  have start : (defaultKey dir (scanPlan dir q)).plan = startPlan dir ∨ dir.pathinfo = [] := by
    rcases fresh with ⟨bare,unset⟩ | path
    · exact .inl (congrArg Prod.fst (defaultKey_start dir q bare unset))
    · exact .inr path
  obtain ⟨keys,used,_⟩ := defaultKey_keys dir q
  rw [findPlan_eq r dir q start]
  constructor
  · funext n
    rw [giveKeys_keys,keys,empty,Option.or_none]
    rfl
  · rw [giveKeys_used dir _ _ (by rw [used,unused]; rfl),used,unused,Int.zero_add]
    rfl

end ModNdb.Query
