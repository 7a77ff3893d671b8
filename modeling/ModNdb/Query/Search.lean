import ModNdb.Config.Catalog
import ModNdb.Lib.Halving
import ModNdb.Query.Filters

/-! The search for a key column by its name. -/
namespace ModNdb.Query
open Config (Dir Directive catalogOf configure)

def nameOrder (name : Text) (dir : Dir) (id : Nat) : Ordering :=
  match dir.keyColumns[id]? with
  | some keycol => strcmp name keycol.name
  | none => .lt

/-- `key_col_bin_search`, with the places it looks at. -/
def keyColProbes (name : Text) (dir : Dir) : List Int × Halving.Outcome :=
  Halving.search (nameOrder name dir) (dir.keyColumns.length + 1) 0 (dir.keyColumns.length - 1)

theorem nameOrder_column (name : Text) (dir : Dir) (id : Nat) (bound : id < dir.keyColumns.length) :
    nameOrder name dir id = strcmp name dir.keyColumns[id].name := by
  unfold nameOrder
  rw [List.getElem?_eq_getElem bound]

theorem search_traced (name : Text) (dir : Dir) (fuel : Nat) (low high : Int) (start : 0 ≤ low)
    (probes : ∀ probe ∈ (Halving.search (nameOrder name dir) fuel low high).1,
      0 ≤ probe ∧ probe < dir.keyColumns.length) :
    keyColBinSearch.search name dir fuel low high =
      (Halving.search (nameOrder name dir) fuel low high).2.place := by
  induction fuel generalizing low high with
  | zero => rfl
  | succ fuel ih =>
    unfold Halving.search at probes ⊢
    unfold keyColBinSearch.search
    by_cases crossed : high < low
    · rw [if_pos crossed,if_pos crossed]
      rfl
    · rw [if_neg crossed] at probes
      rw [if_neg crossed,if_neg crossed]
      obtain ⟨mid,middle⟩ := Int.eq_ofNat_of_zero_le (show 0 ≤ (low + high) / 2 by omega)
      dsimp only at probes ⊢
      rw [middle,Int.toNat_natCast] at probes ⊢
      have bound : mid < dir.keyColumns.length :=
        Int.ofNat_lt.mp (probes mid List.mem_cons_self).2
      have later := fun probe among => probes probe (List.mem_cons_of_mem _ among)
      rw [nameOrder_column name dir mid bound] at later ⊢
      rw [List.getElem?_eq_getElem bound]
      dsimp only
      cases order : strcmp name dir.keyColumns[mid].name with
      | lt =>
        rw [order] at later
        exact ih low (mid - 1) start later
      | gt =>
        rw [order] at later
        exact ih (mid + 1) high (by omega) later
      | eq => rfl

section
variable {dir : Dir}
  (sorted : dir.keyColumns.Pairwise fun a b => strcmp a.name b.name = .lt)
include sorted

theorem names_sorted (name : Text) :
    Halving.Sorted (nameOrder name dir) dir.keyColumns.length := by
  have ascending (i j : Nat) (before : i < j) (below : j < dir.keyColumns.length) :
      strcmp dir.keyColumns[i].name dir.keyColumns[j].name = .lt :=
    List.pairwise_iff_getElem.mp sorted i j (before.trans below) below before
  constructor
  · intro i j before below notLess
    rw [nameOrder_column name dir j below] at notLess
    rw [nameOrder_column name dir i (before.trans below),← Config.strcmp_swap]
    have less := ascending i j before below
    cases order : strcmp name dir.keyColumns[j].name with
    | lt => exact absurd order notLess
    | eq =>
      rw [(strcmp_eq_iff _ _).mp order,less]
      rfl
    | gt =>
      have reversed : strcmp dir.keyColumns[j].name name = .lt := by
        rw [← Config.strcmp_swap,order]
        rfl
      rw [Config.strcmp_trans _ _ _ less reversed]
      rfl
  · intro i j before below notMore
    rw [nameOrder_column name dir i (before.trans below)] at notMore
    rw [nameOrder_column name dir j below]
    have less := ascending i j before below
    cases order : strcmp name dir.keyColumns[i].name with
    | lt => exact Config.strcmp_trans _ _ _ order less
    | eq => rw [(strcmp_eq_iff _ _).mp order,less]
    | gt => exact absurd order notMore

theorem keyColProbes_searched (name : Text) :
    Halving.Searched (nameOrder name dir) dir.keyColumns.length (keyColProbes name dir) :=
  Halving.search_run (names_sorted sorted name) _ _ _ .whole (by omega)

theorem keyColBinSearch_traced (name : Text) :
    keyColBinSearch name dir = (keyColProbes name dir).2.place :=
  search_traced name dir _ _ _ (Int.le_refl 0) (keyColProbes_searched sorted name).probes

/-- The search finds every name that a column has. -/
theorem keyColBinSearch_none (name : Text) :
    keyColBinSearch name dir = none ↔ name ∉ dir.keyColumns.map Config.KeyCol.name := by
  rw [keyColBinSearch_traced sorted name]
  rcases (keyColProbes_searched sorted name).outcome with ⟨place,bound,same,found⟩ | ⟨others,absent⟩
  · rw [nameOrder_column name dir place bound] at same
    rw [found]
    refine iff_of_false (Option.some_ne_none place) fun missing => missing ?_
    rw [(strcmp_eq_iff _ _).mp same]
    exact List.mem_map_of_mem (List.getElem_mem bound)
  · rw [absent]
    refine iff_of_true rfl fun there => ?_
    obtain ⟨keycol,inside,rfl⟩ := List.mem_map.mp there
    obtain ⟨place,bound,rfl⟩ := List.getElem_of_mem inside
    exact others place bound
      ((nameOrder_column _ dir place bound).trans ((strcmp_eq_iff _ _).mpr rfl))

end

/-- The columns are sorted, and a search ends, looks at columns only, and finds the name of
every column that the directives define, and no other. The id is a `short`: it is the place of
the column as long as the table is one that `short` ids can number. -/
structure Finds (directives : List Directive) (dir : Dir) : Prop where
  sorted : dir.keyColumns.Pairwise fun a b => strcmp a.name b.name = .lt
  ends : ∀ name, (keyColProbes name dir).2 ≠ .outOfFuel
  probes : ∀ name, ∀ probe ∈ (keyColProbes name dir).1, 0 ≤ probe ∧ probe < dir.keyColumns.length
  traced : ∀ name, keyColBinSearch name dir = (keyColProbes name dir).2.place
  found : ∀ name ∈ (catalogOf directives).columns, ∃ id keycol,
    keyColBinSearch name dir = some id ∧ dir.keyColumns[id]? = some keycol ∧ keycol.name = name
  missing : ∀ name, name ∉ (catalogOf directives).columns → keyColBinSearch name dir = none
  short : ∀ name id, keyColBinSearch name dir = some id → dir.keyColumns.length ≤ 2^15 →
    toShort id = id

theorem keyColBinSearch_finds (formats : Text → Option Format.OutputFormat)
    (directives : List Directive) (json : Option Format.OutputFormat) (dir : Dir)
    (accepted : configure formats directives (Dir.init json) = (.ok (),dir)) :
    Finds directives dir := by
  have whole := Config.configure_sound formats directives _ _ _ (Config.init_sound json) accepted
  have sorted := (whole 0).table.sorted
  have columns := (Config.configure_reflects formats directives json dir accepted).columns
  refine ⟨sorted,fun name => ?_,fun name => (keyColProbes_searched sorted name).probes,
    keyColBinSearch_traced sorted,fun name defined => ?_,fun name undefined => ?_,
    fun name id found small => ?_⟩
  · rcases (keyColProbes_searched sorted name).outcome with ⟨_,_,_,outcome⟩ | ⟨_,outcome⟩
    all_goals
      rw [outcome]
      exact Halving.Outcome.noConfusion
  · have there := (keyColBinSearch_none sorted name).not_left.mpr ((columns name).mpr defined)
    obtain ⟨id,found⟩ := Option.ne_none_iff_exists'.mp there
    obtain ⟨keycol,place,same⟩ := keyColBinSearch_found _ found
    exact ⟨id,keycol,found,place,((strcmp_eq_iff _ _).mp same).symm⟩
  · exact (keyColBinSearch_none sorted name).mpr (mt (columns name).mp undefined)
  · obtain ⟨keycol,place,_⟩ := keyColBinSearch_found _ found
    have bound := (List.getElem?_eq_some_iff.mp place).1
    exact Int.bmod_eq_of_le (by omega) (by omega)

theorem filterDir_finds : Finds filterDirectives filterDir :=
  keyColBinSearch_finds (fun _ => none) filterDirectives none filterDir rfl

end ModNdb.Query
