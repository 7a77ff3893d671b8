import ModNdb.Config.Directives

/-! The table of key columns: sorted by name, and numbered in the order in which the columns
were given. -/
namespace ModNdb.Config

theorem strcmp_swap (a b : Text) : (strcmp a b).swap = strcmp b a := by
  induction a generalizing b with
  | nil => cases b <;> rfl
  | cons x a ih =>
    cases b with
    | nil => rfl
    | cons y b =>
      unfold strcmp
      by_cases below : x < y
      · rw [if_pos below,if_neg (UInt8.lt_asymm below),if_pos below]
        rfl
      · by_cases above : y < x
        · rw [if_neg below,if_pos above,if_pos above]
          rfl
        · rw [if_neg below,if_neg above,if_neg above,if_neg below]
          exact ih b

theorem strcmp_trans (a b c : Text) (first : strcmp a b = .lt) (second : strcmp b c = .lt) :
    strcmp a c = .lt := by
  induction a generalizing b c with
  | nil =>
    cases c with
    | nil =>
      cases b with
      | nil => cases first
      | cons y b => cases second
    | cons z c => rfl
  | cons x a ih =>
    cases b with
    | nil => cases first
    | cons y b =>
      cases c with
      | nil => cases second
      | cons z c =>
        unfold strcmp at first second ⊢
        split_ifs at first second ⊢ with xy yz xz zx yz' zy' yz'' <;> grind

/-- Sorted by name, and every serial number below the number of columns is that of one of
them. -/
structure Table (keys : List KeyCol) : Prop where
  sorted : keys.Pairwise fun a b => strcmp a.name b.name = .lt
  numbered : (keys.map KeyCol.serialNo).Perm (List.range keys.length)

def position (keys : List KeyCol) (serial : Nat) : Option Nat :=
  keys.findIdx? fun key => key.serialNo = serial

section
variable {keys : List KeyCol}

theorem Table.serials_nodup (table : Table keys) : (keys.map KeyCol.serialNo).Nodup :=
  table.numbered.nodup_iff.mpr List.nodup_range

theorem Table.serial_lt (table : Table keys) (key : KeyCol) (inside : key ∈ keys) :
    key.serialNo < keys.length :=
  List.mem_range.mp (table.numbered.mem_iff.mp (List.mem_map.mpr ⟨key,inside,rfl⟩))

theorem Table.exists_serial (table : Table keys) (serial : Nat) (below : serial < keys.length) :
    ∃ (p : Nat) (key : KeyCol), keys[p]? = some key ∧ key.serialNo = serial := by
  have numbered := table.numbered.mem_iff.mpr (List.mem_range.mpr below)
  obtain ⟨key,inside,same⟩ := List.mem_map.mp numbered
  obtain ⟨p,there⟩ := List.mem_iff_getElem?.mp inside
  exact ⟨p,key,there,same⟩

theorem Table.serial_inj (table : Table keys) (p q : Nat) (a b : KeyCol) (first : keys[p]? = some a)
    (second : keys[q]? = some b) (same : a.serialNo = b.serialNo) : p = q := by
  have bound : p < (keys.map KeyCol.serialNo).length := by
    rw [List.length_map]
    exact (List.getElem?_eq_some_iff.mp first).1
  apply (List.getElem?_inj bound table.serials_nodup).mp
  rw [List.getElem?_map,List.getElem?_map,first,second,Option.map_some,Option.map_some,same]

theorem Table.position_of (table : Table keys) (p : Nat) (key : KeyCol) (there : keys[p]? = some key) :
    position keys key.serialNo = some p := by
  unfold position
  cases found : keys.findIdx? fun other => other.serialNo = key.serialNo with
  | none =>
    have none := List.findIdx?_eq_none_iff.mp found key (List.mem_of_getElem? there)
    simp at none
  | some q =>
    obtain ⟨bound,same,_⟩ := List.findIdx?_eq_some_iff_getElem.mp found
    have here : keys[q]? = some keys[q] := List.getElem?_eq_getElem bound
    rw [table.serial_inj p q key keys[q] there here (of_decide_eq_true same).symm]

theorem position_some (serial p : Nat) (found : position keys serial = some p) :
    ∃ key, keys[p]? = some key ∧ key.serialNo = serial := by
  obtain ⟨bound,same,_⟩ := List.findIdx?_eq_some_iff_getElem.mp found
  exact ⟨keys[p],List.getElem?_eq_getElem bound,of_decide_eq_true same⟩

theorem position_lt (serial p : Nat) (found : position keys serial = some p) : p < keys.length := by
  obtain ⟨key,there,_⟩ := position_some serial p found
  exact (List.getElem?_eq_some_iff.mp there).1

theorem Table.name_lt (table : Table keys) (p q : Nat) (a b : KeyCol) (first : keys[p]? = some a)
    (second : keys[q]? = some b) (before : p < q) : strcmp a.name b.name = .lt := by
  obtain ⟨bound,rfl⟩ := List.getElem?_eq_some_iff.mp first
  obtain ⟨bound',rfl⟩ := List.getElem?_eq_some_iff.mp second
  exact List.pairwise_iff_getElem.mp table.sorted p q bound bound' before

theorem Table.name_inj (table : Table keys) (p q : Nat) (a b : KeyCol) (first : keys[p]? = some a)
    (second : keys[q]? = some b) (same : a.name = b.name) : p = q := by
  have equal : strcmp a.name b.name = .eq := (strcmp_eq_iff _ _).mpr same
  rcases Nat.lt_trichotomy p q with before | here | behind
  · rw [table.name_lt p q a b first second before] at equal
    cases equal
  · exact here
  · have less := table.name_lt q p b a second first behind
    rw [same,(strcmp_eq_iff _ _).mpr rfl] at less
    cases less

theorem Table.same_column (table : Table keys) (a b : KeyCol) (first : a ∈ keys) (second : b ∈ keys)
    (same : a.name = b.name) : a = b := by
  obtain ⟨p,there⟩ := List.mem_iff_getElem?.mp first
  obtain ⟨q,there'⟩ := List.mem_iff_getElem?.mp second
  rw [table.name_inj p q a b there there' same,there'] at there
  exact (Option.some.inj there).symm

end

/-- What the table is about: the name and the number of a column. -/
def KeyCol.label (key : KeyCol) : Text × Nat := (key.name,key.serialNo)

section
variable {keys keys' : List KeyCol} (same : keys'.map KeyCol.label = keys.map KeyCol.label)

include same

theorem label_length : keys'.length = keys.length := by
  have lengths := congrArg List.length same
  rwa [List.length_map,List.length_map] at lengths

theorem label_position : position keys' = position keys := by
  have found (keys : List KeyCol) (serial : Nat) : position keys serial =
      (keys.map KeyCol.label).findIdx? fun label => label.2 = serial := by
    rw [List.findIdx?_map]
    rfl
  funext serial
  rw [found,found,same]

theorem label_table (table : Table keys) : Table keys' where
  sorted := by
    have names (keys : List KeyCol) : (keys.map KeyCol.label).Pairwise
        (fun a b => strcmp a.1 b.1 = .lt) ↔
        keys.Pairwise fun a b => strcmp a.name b.name = .lt := List.pairwise_map
    rw [← names,same,names]
    exact table.sorted
  numbered := by
    have serials (keys : List KeyCol) :
        keys.map KeyCol.serialNo = (keys.map KeyCol.label).map Prod.snd := by
      rw [List.map_map]
      rfl
    rw [serials,same,← serials,label_length same]
    exact table.numbered

end

theorem keyPlace_found (name : Text) (keys : List KeyCol) (found : (keyPlace name keys).2 = true) :
    ∃ key, keys[(keyPlace name keys).1]? = some key ∧ key.name = name := by
  induction keys with
  | nil => cases found
  | cons key keys ih =>
    unfold keyPlace at found ⊢
    cases order : strcmp name key.name with
    | lt =>
      rw [order] at found
      cases found
    | eq => exact ⟨key,rfl,((strcmp_eq_iff _ _).mp order).symm⟩
    | gt =>
      rw [order] at found
      exact ih found

theorem keyPlace_le (name : Text) (keys : List KeyCol) : (keyPlace name keys).1 ≤ keys.length := by
  induction keys with
  | nil => exact Nat.le_refl 0
  | cons key keys ih =>
    unfold keyPlace
    cases strcmp name key.name with
    | lt => exact Nat.zero_le _
    | eq => exact Nat.zero_le _
    | gt => exact Nat.succ_le_succ ih

theorem insert_sorted (key : KeyCol) (keys : List KeyCol)
    (sorted : keys.Pairwise fun a b => strcmp a.name b.name = .lt)
    (missing : (keyPlace key.name keys).2 = false) :
    (keys.insertIdx (keyPlace key.name keys).1 key).Pairwise fun a b =>
      strcmp a.name b.name = .lt := by
  induction keys with
  | nil => exact List.pairwise_singleton _ _
  | cons first keys ih =>
    obtain ⟨below,rest⟩ := List.pairwise_cons.mp sorted
    unfold keyPlace at missing ⊢
    cases order : strcmp key.name first.name with
    | lt =>
      dsimp only
      rw [List.insertIdx_zero]
      refine List.pairwise_cons.mpr ⟨fun other inside => ?_,sorted⟩
      rcases List.mem_cons.mp inside with rfl | later
      · exact order
      · exact strcmp_trans _ _ _ order (below other later)
    | eq =>
      rw [order] at missing
      cases missing
    | gt =>
      rw [order] at missing
      dsimp only
      rw [List.insertIdx_succ_cons]
      refine List.pairwise_cons.mpr ⟨fun other inside => ?_,ih rest missing⟩
      rcases (List.mem_insertIdx (keyPlace_le _ _)).mp inside with rfl | later
      · rw [← strcmp_swap,order]
        rfl
      · exact below other later

theorem insert_table (keys : List KeyCol) (table : Table keys) (key : KeyCol)
    (missing : (keyPlace key.name keys).2 = false) (next : key.serialNo = keys.length) :
    Table (keys.insertIdx (keyPlace key.name keys).1 key) where
  sorted := insert_sorted key keys table.sorted missing
  numbered := by
    have place := keyPlace_le key.name keys
    rw [List.length_insertIdx_of_le_length place,List.range_succ]
    have perm := (List.perm_insertIdx key keys place).map KeyCol.serialNo
    rw [List.map_cons,next] at perm
    exact perm.trans ((table.numbered.cons _).trans (List.perm_append_singleton _ _).symm)

end ModNdb.Config
