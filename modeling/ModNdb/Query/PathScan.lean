import ModNdb.Config.Reached
import ModNdb.Query.Given
import ModNdb.Query.Run

/-! The loop over the path info as it runs: `s` moves to the left over the string, the length
of an item is counted on the way, and an item is copied at the slash in front of it. Every
offset that is read is kept. -/
namespace ModNdb.Query
open Config (Dir Reached)

structure PathScan where
  s : Int
  itemLen : Nat
  element : Int
  items : Items
  reads : List Int

/-- What stands at an offset of `path_info`: in front of it is another byte, behind it the NUL. -/
def byteAt (path : Text) (before : UInt8) (i : Int) : UInt8 :=
  if i < 0 then before else path.getD i.toNat 0

def offsets (i : Int) (n : Nat) : List Int := (List.range n).map fun k : Nat => i + (k : Int)

def scanStart (dir : Dir) (path : Text) (before : UInt8) (q : Items) : PathScan where
  s := if byteAt path before (path.length - 1) = code '/' then path.length - 2 else path.length
  itemLen := 0
  element := dir.pathinfo.length - 1
  items := q
  reads := offsets 0 (path.length + 1) ++ [(path.length : Int) - 1]

def scanStep (dir : Dir) (path : Text) (before : UInt8) (c : PathScan) : PathScan :=
  if byteAt path before c.s = code '/' then
    {s := c.s - 1
     itemLen := 0
     element := c.element - 1
     items := setKey dir (dir.pathinfo.getD c.element.toNat 0)
       (cstring ((offsets (c.s + 1) c.itemLen).map (byteAt path before))) c.items
     reads := c.reads ++ c.s :: offsets (c.s + 1) c.itemLen}
  else {c with s := c.s - 1, itemLen := c.itemLen + 1, reads := c.reads ++ [c.s]}

def scanRun (dir : Dir) (path : Text) (before : UInt8) : Nat → PathScan → Option PathScan
  | 0, _ => none
  | fuel + 1, c =>
    if 0 ≤ c.s ∧ 0 ≤ c.element then scanRun dir path before fuel (scanStep dir path before c)
    else some c

def scanPath (dir : Dir) (path : Text) (before : UInt8) (q : Items) (fuel : Nat) : Option PathScan :=
  if dir.pathinfo = [] then some ⟨0,0,0,q,[]⟩
  else scanRun dir path before fuel (scanStart dir path before q)

/-- What the string has behind its first slash, between slashes, without one at the end. -/
def components (path : Text) : List Text :=
  ((if path.getLast? = some (code '/') then path.dropLast else path).splitOn (code '/')).tail

theorem offsets_succ (i : Int) (n : Nat) : offsets i (n + 1) = i :: offsets (i + 1) n := by
  unfold offsets
  rw [List.range_succ_eq_map,List.map_cons,List.map_map]
  refine congr (congrArg _ (by simp)) (List.map_congr_left fun k _ => ?_)
  simp only [Function.comp_apply,Nat.cast_succ]
  omega

theorem offsets_snoc (i : Int) (n : Nat) : offsets i (n + 1) = offsets i n ++ [i + n] := by
  unfold offsets
  rw [List.range_succ,List.map_append]
  rfl

theorem mem_offsets (i j : Int) (n : Nat) : j ∈ offsets i n ↔ i ≤ j ∧ j < i + n := by
  unfold offsets
  rw [List.mem_map]
  constructor
  · rintro ⟨k,inside,rfl⟩
    have := List.mem_range.mp inside
    omega
  · intro between
    exact ⟨(j - i).toNat,List.mem_range.mpr (by omega),by omega⟩

section
variable (dir : Dir) (path : Text) (before : UInt8)

/-- The bytes in front of offset `k`, from the right. -/
def charsBefore (k : Nat) : List UInt8 := ((offsets 0 k).map (byteAt path before)).reverse

theorem charsBefore_succ (k : Nat) :
    charsBefore path before (k + 1) = byteAt path before k :: charsBefore path before k := by
  unfold charsBefore
  rw [offsets_snoc,List.map_append,List.reverse_append,Int.zero_add]
  rfl

theorem byteAt_nat (k : Nat) : byteAt path before k = path.getD k 0 :=
  if_neg (by omega)

theorem charsBefore_take (k : Nat) (inside : k ≤ path.length) :
    charsBefore path before k = (path.take k).reverse := by
  induction k with
  | zero => rfl
  | succ k ih =>
    rw [charsBefore_succ,ih (Nat.le_of_succ_le inside),byteAt_nat,List.getD_eq_getElem path 0 inside,
      List.take_succ_eq_append_getElem inside,List.reverse_append]
    rfl

theorem charsBefore_end : charsBefore path before (path.length + 1) = 0 :: path.reverse := by
  rw [charsBefore_succ,charsBefore_take path before path.length (Nat.le_refl _),List.take_length,
    byteAt_nat,List.getD_eq_default _ _ (Nat.le_refl _)]

/-- The byte that decides whether a slash trails. -/
theorem byteAt_last : byteAt path before (path.length - 1) = path.getLast?.getD before := by
  cases trailing : path.getLast? with
  | none =>
    rw [List.getLast?_eq_none_iff.mp trailing]
    rfl
  | some c =>
    obtain ⟨front,rfl⟩ := List.getLast?_eq_some_iff.mp trailing
    have here : ((front ++ [c]).length : Int) - 1 = (front.length : Int) := by simp
    rw [here,byteAt_nat]
    simp

/-- From offset `k` on to the left, with `m` columns left: the scan stops, with what the loop
over the characters makes of the items, and reads from the string only. -/
theorem scanRun_spec (k m itemLen fuel : Nat) (q : Items) (reads : List Int)
    (inside : k + itemLen ≤ path.length + 1) (left : m ≤ dir.pathinfo.length) (enough : k < fuel) :
    ∃ c, scanRun dir path before fuel ⟨(k : Int) - 1,itemLen,(m : Int) - 1,q,reads⟩ = some c ∧
      c.items = pathLoop dir (charsBefore path before k)
        ((offsets k itemLen).map (byteAt path before)) (dir.pathinfo.take m).reverse q ∧
      (∀ i ∈ c.reads, i ∈ reads ∨ 0 ≤ i ∧ i ≤ path.length) ∧ ∀ i ∈ reads, i ∈ c.reads := by
  induction k generalizing m itemLen fuel q reads with
  | zero =>
    obtain ⟨fuel,rfl⟩ := Nat.exists_eq_succ_of_ne_zero (Nat.ne_of_gt enough)
    refine ⟨_,if_neg (by dsimp only; omega),?_,fun i found => .inl found,fun _ found => found⟩
    cases (dir.pathinfo.take m).reverse <;> rfl
  | succ k ih =>
    obtain ⟨fuel,rfl⟩ := Nat.exists_eq_succ_of_ne_zero (Nat.ne_zero_of_lt enough)
    have here : ((k + 1 : Nat) : Int) - 1 = (k : Int) := by omega
    rw [here,charsBefore_succ]
    cases m with
    | zero => exact ⟨_,if_neg (by dsimp only; omega),rfl,fun i found => .inl found,fun _ found => found⟩
    | succ m =>
      have goes : scanRun dir path before (fuel + 1) ⟨k,itemLen,((m + 1 : Nat) : Int) - 1,q,reads⟩ =
          scanRun dir path before fuel
            (scanStep dir path before ⟨k,itemLen,((m + 1 : Nat) : Int) - 1,q,reads⟩) :=
        if_pos (by dsimp only; omega)
      have element : ((m + 1 : Nat) : Int) - 1 = (m : Int) := by omega
      rw [goes,element,List.take_succ_eq_append_getElem left,List.reverse_append,
        List.reverse_singleton,List.singleton_append,pathLoop]
      unfold scanStep
      dsimp only
      by_cases slash : byteAt path before k = code '/'
      · rw [if_pos slash,if_pos slash]
        obtain ⟨c,ran,items,read,kept⟩ := ih m 0 fuel _ (reads ++ (k : Int) :: offsets (k + 1) itemLen)
          (by omega) (Nat.le_of_succ_le left) (by omega)
        refine ⟨c,ran,?_,fun i found => ?_,fun i found => kept i (List.mem_append_left _ found)⟩
        · rw [items,Int.toNat_natCast,List.getD_eq_getElem _ 0 left]
          rfl
        · rcases read i found with earlier | within
          · rcases List.mem_append.mp earlier with old | new
            · exact .inl old
            · rw [← offsets_succ (k : Int) itemLen,mem_offsets] at new
              right
              omega
          · exact .inr within
      · rw [if_neg slash,if_neg slash]
        obtain ⟨c,ran,items,read,kept⟩ := ih (m + 1) (itemLen + 1) fuel q (reads ++ [(k : Int)])
          (by omega) left (by omega)
        refine ⟨c,element ▸ ran,?_,fun i found => ?_,fun i found => kept i (List.mem_append_left _ found)⟩
        · rw [items,offsets_succ,List.take_succ_eq_append_getElem left,List.reverse_append]
          rfl
        · rcases read i found with earlier | within
          · rcases List.mem_append.mp earlier with old | new
            · exact .inl old
            · rw [List.mem_singleton.mp new]
              right
              omega
          · exact .inr within

/-- From the start on. Only in front of an empty string something else is read. -/
theorem scanPath_spec (q : Items) :
    ∃ c, scanPath dir path before q (path.length + 2) = some c ∧
      c.items = pathLoop dir (pathChars path before) [] dir.pathinfo.reverse q ∧
      ((∀ i ∈ c.reads, 0 ≤ i ∧ i ≤ path.length) ↔ path ≠ [] ∨ dir.pathinfo = []) := by
  unfold scanPath
  by_cases none : dir.pathinfo = []
  · refine ⟨_,if_pos none,?_,iff_of_true nofun (.inr none)⟩
    rw [none]
    cases pathChars path before <;> rfl
  · rw [if_neg none]
    have begun : ∀ i ∈ (scanStart dir path before q).reads, i = (path.length : Int) - 1 ∨
        0 ≤ i ∧ i ≤ path.length := by
      intro i found
      rcases List.mem_append.mp found with walked | looked
      · rw [mem_offsets] at walked
        right
        omega
      · exact .inl (List.mem_singleton.mp looked)
    have looks : (path.length : Int) - 1 ∈ (scanStart dir path before q).reads :=
      List.mem_append_right _ (List.mem_singleton.mpr rfl)
    have bounded : ∀ {c : PathScan},
        (∀ i ∈ c.reads, i ∈ (scanStart dir path before q).reads ∨ 0 ≤ i ∧ i ≤ path.length) →
        (∀ i ∈ (scanStart dir path before q).reads, i ∈ c.reads) →
        ((∀ i ∈ c.reads, 0 ≤ i ∧ i ≤ path.length) ↔ path ≠ [] ∨ dir.pathinfo = []) := by
      intro c read kept
      constructor
      · intro within
        left
        rintro rfl
        exact absurd (within _ (kept _ looks)).1 (by decide)
      · intro filled i found
        have long := List.length_pos_iff.mpr (filled.resolve_right none)
        rcases read i found with early | within
        · rcases begun i early with last | within
          · omega
          · exact within
        · exact within
    by_cases slash : path.getLast?.getD before = code '/'
    · by_cases empty : path = []
      · subst empty
        refine ⟨_,if_neg ?_,?_,bounded (fun i found => .inl found) fun i found => found⟩
        · rw [scanStart,if_pos ((byteAt_last [] before).trans slash)]
          exact fun stays => absurd stays.1 (by decide : ¬(0 : Int) ≤ 0 - 2)
        · rw [pathChars,if_pos slash]
          cases dir.pathinfo.reverse <;> rfl
      · have long := List.length_pos_iff.mpr empty
        have start : scanStart dir path before q = ⟨((path.length - 1 : Nat) : Int) - 1,0,
            (dir.pathinfo.length : Int) - 1,q,(scanStart dir path before q).reads⟩ := by
          unfold scanStart
          rw [if_pos ((byteAt_last path before).trans slash)]
          congr 1
          omega
        obtain ⟨c,ran,items,read,kept⟩ := scanRun_spec dir path before (path.length - 1)
          dir.pathinfo.length 0 (path.length + 2) q (scanStart dir path before q).reads
          (by omega) (Nat.le_refl _) (by omega)
        refine ⟨c,start ▸ ran,?_,bounded read kept⟩
        rw [items,List.take_length,charsBefore_take path before _ (Nat.sub_le _ _),pathChars,
          if_pos slash,List.dropLast_eq_take]
        rfl
    · have start : scanStart dir path before q = ⟨((path.length + 1 : Nat) : Int) - 1,0,
          (dir.pathinfo.length : Int) - 1,q,(scanStart dir path before q).reads⟩ := by
        unfold scanStart
        rw [if_neg fun last => slash ((byteAt_last path before).symm.trans last)]
        congr 1
        omega
      obtain ⟨c,ran,items,read,kept⟩ := scanRun_spec dir path before (path.length + 1)
        dir.pathinfo.length 0 (path.length + 2) q (scanStart dir path before q).reads
        (Nat.le_refl _) (Nat.le_refl _) (Nat.lt_succ_self _)
      refine ⟨c,start ▸ ran,?_,bounded read kept⟩
      rw [items,List.take_length,charsBefore_end,pathChars,if_neg slash]
      rfl

end

/-- The values that the loop over the characters takes, from the right. -/
def pieces : List UInt8 → Text → List Text
  | [], _ => []
  | c::cs, item =>
    if c = code '/' then cstring item :: pieces cs [] else pieces cs (c::item)

theorem pathKeys_zip (chars : List UInt8) (item : Text) (elements : List Nat) :
    pathKeys chars item elements = elements.zip (pieces chars item) := by
  induction chars generalizing item elements with
  | nil => cases elements <;> rfl
  | cons c cs ih =>
    cases elements with
    | nil => rfl
    | cons element elements =>
      unfold pathKeys pieces
      by_cases slash : c = code '/'
      · rw [if_pos slash,if_pos slash,ih,List.zip_cons_cons]
        rfl
      · rw [if_neg slash,if_neg slash,ih]

/-- The values are what a split at the slashes gives, but for what is in front of the first.
The item that is open holds what follows, and at the end of the string its NUL. -/
theorem pieces_split (front item rest : Text) (item0 : 0 ∉ item) (front0 : 0 ∉ front)
    (plain : code '/' ∉ item) (ends : rest = [] ∨ rest = [0]) :
    pieces front.reverse (item ++ rest) = ((front ++ item).splitOn (code '/')).tail.reverse := by
  induction front using List.reverseRecOn generalizing item rest with
  | nil =>
    rw [List.nil_append,List.splitOn_eq_singleton plain]
    rfl
  | append_singleton front c ih =>
    have earlier0 : 0 ∉ front := fun inside => front0 (List.mem_append_left _ inside)
    rw [List.reverse_append,List.reverse_singleton,List.singleton_append,pieces,
      List.append_assoc,List.singleton_append]
    by_cases slash : c = code '/'
    · have copied : cstring (item ++ rest) = item := by
        rcases ends with rfl | rfl
        · rw [List.append_nil,cstring_self item item0]
        · unfold cstring
          have kept : ∀ b ∈ item, decide (b ≠ 0) = true := fun b inside =>
            decide_eq_true fun zero => item0 (zero ▸ inside)
          rw [List.takeWhile_append_of_pos kept]
          simp
      have before := ih [] [] nofun earlier0 nofun (.inl rfl)
      rw [if_pos slash,copied,slash,List.splitOn_append_cons_self,List.splitOn_eq_singleton plain,
        List.tail_append_of_ne_nil (List.splitOn_ne_nil _ _),List.reverse_append]
      rw [List.append_nil,List.append_nil] at before
      rw [before]
      rfl
    · rw [if_neg slash,← List.cons_append]
      apply ih (c::item) rest _ earlier0 _ ends
      · rintro (_ | ⟨_,inside⟩)
        · exact front0 (List.mem_append_right _ (List.mem_singleton.mpr rfl))
        · exact item0 inside
      · rintro (_ | ⟨_,inside⟩)
        · exact slash rfl
        · exact plain inside

/-- The loop pairs columns and components off, both from the right. -/
theorem pathKeys_components (path : Text) (before : UInt8) (elements : List Nat) (nulFree : 0 ∉ path) :
    pathKeys (pathChars path before) [] elements = elements.zip (components path).reverse := by
  rw [pathKeys_zip]
  congr 1
  unfold pathChars components
  cases trailing : path.getLast? with
  | none =>
    rw [List.getLast?_eq_none_iff.mp trailing,Option.getD_none]
    by_cases slash : before = code '/'
    · rw [if_pos slash]
      rfl
    · rw [if_neg slash]
      rfl
  | some last =>
    rw [Option.getD_some]
    by_cases slash : last = code '/'
    · have shorter := pieces_split path.dropLast [] [] nofun
        (fun inside => nulFree (List.mem_of_mem_dropLast inside)) nofun (.inl rfl)
      rw [if_pos slash,if_pos (congrArg some slash)]
      rwa [List.append_nil,List.append_nil] at shorter
    · have whole := pieces_split path [] [0] nofun nulFree nofun (.inr rfl)
      rw [if_neg slash,if_neg fun same => slash (Option.some.inj same),pieces,if_neg (by decide)]
      rwa [List.append_nil,List.nil_append] at whole

/-- What the loop is for: the last component goes to the last column, the one in front to the one
in front, as long as there are both; and no byte outside the string is looked at. -/
structure BindsRight (dir : Dir) (path : Text) (q : Items) (c : PathScan) : Prop where
  inside : ∀ i ∈ c.reads, 0 ≤ i ∧ i ≤ path.length
  bound : c.items = giveKeys dir (dir.pathinfo.reverse.zip (components path).reverse) q

theorem scanRun_fuel (dir : Dir) (path : Text) (before : UInt8) (fuel more : Nat) (c c' : PathScan)
    (ran : scanRun dir path before fuel c = some c') (enough : fuel ≤ more) :
    scanRun dir path before more c = some c' := by
  induction fuel generalizing more c with
  | zero => cases ran
  | succ fuel ih =>
    obtain ⟨more,rfl⟩ := Nat.exists_eq_succ_of_ne_zero (Nat.ne_zero_of_lt enough)
    unfold scanRun at ran ⊢
    split_ifs with goes
    · rw [if_pos goes] at ran
      exact ih more _ ran (Nat.le_of_succ_le_succ enough)
    · rw [if_neg goes] at ran
      exact ran

theorem scanPath_unique (dir : Dir) (path : Text) (before : UInt8) (q : Items) (fuel fuel' : Nat)
    (c c' : PathScan) (ran : scanPath dir path before q fuel = some c)
    (ran' : scanPath dir path before q fuel' = some c') : c = c' := by
  unfold scanPath at ran ran'
  by_cases none : dir.pathinfo = []
  · rw [if_pos none] at ran ran'
    exact Option.some.inj (ran.symm.trans ran')
  · rw [if_neg none] at ran ran'
    have wide := scanRun_fuel dir path before fuel (max fuel fuel') _ c ran (le_max_left _ _)
    have wide' := scanRun_fuel dir path before fuel' (max fuel fuel') _ c' ran' (le_max_right _ _)
    exact Option.some.inj (wide.symm.trans wide')

theorem scanPath_usePathInfo (r : RequestRec) (dir : Dir) (q : Items) (fuel : Nat) (c : PathScan)
    (looks : q.plan = .noPlan ∨ dir.pathinfoAlways = true)
    (ran : scanPath dir r.pathInfo r.beforePathInfo q fuel = some c) :
    usePathInfo r dir q = c.items := by
  obtain ⟨c',ran',items,-⟩ := scanPath_spec dir r.pathInfo r.beforePathInfo q
  rw [scanPath_unique dir _ _ q _ _ c c' ran ran',items]
  unfold usePathInfo
  by_cases none : dir.pathinfo = []
  · rw [if_neg fun used => used.1 none,none]
    cases pathChars r.pathInfo r.beforePathInfo <;> rfl
  · exact if_pos ⟨none,looks⟩

/-- The loop stops with every component bound, and has read the string only, unless it looks for
a slash in front of an empty string. -/
theorem path_bound_iff (dir : Dir) (path : Text) (before : UInt8) (q : Items) (nulFree : 0 ∉ path) :
    (∃ fuel c, scanPath dir path before q fuel = some c ∧ BindsRight dir path q c) ↔
      path ≠ [] ∨ dir.pathinfo = [] := by
  obtain ⟨c,ran,items,inside⟩ := scanPath_spec dir path before q
  rw [← inside]
  constructor
  · rintro ⟨fuel,c',ran',binds⟩
    rw [scanPath_unique dir path before q _ _ c c' ran ran']
    exact binds.inside
  · intro within
    refine ⟨_,c,ran,within,?_⟩
    rw [items,pathLoop_eq,pathKeys_components path before _ nulFree]

def pathDir : Dir := {itemsDir with pathinfo := [0], pathinfoSerials := [0]}

theorem pathDir_reached : Reached (fun _ => none) pathDir :=
  .configured [.database (text "shop"),.table (text "items") none none,.columns [text "id"],
    .primaryKey [text "id"],.pathInfo (text "id") none] _ rfl

/-- One component more than there are columns, and a slash at the end. -/
theorem path_bound_pair :
    ∃ fuel c, scanPath pathDir (text "/a/7/") 0 (Items.init items) fuel = some c ∧
      BindsRight pathDir (text "/a/7/") (Items.init items) c :=
  (path_bound_iff pathDir (text "/a/7/") 0 (Items.init items) (by decide)).mpr (.inl (by decide))

/-- Without a path info, the byte in front of it is read. -/
theorem path_left_of_empty :
    Reached (fun _ => none) pathDir ∧ ¬∃ fuel c,
      scanPath pathDir [] 0 (Items.init items) fuel = some c ∧
        BindsRight pathDir [] (Items.init items) c := by
  refine ⟨pathDir_reached,?_⟩
  rintro ⟨fuel,c,ran,binds⟩
  obtain ⟨c',ran',-,inside⟩ := scanPath_spec pathDir [] 0 (Items.init items)
  rw [← scanPath_unique pathDir [] 0 _ _ _ c c' ran ran'] at inside
  exact absurd (inside.mp binds.inside) (by decide)

end ModNdb.Query
