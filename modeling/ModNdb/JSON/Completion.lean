import ModNdb.JSON.Members

/-! When the semantic actions of a body run to the end. -/
namespace ModNdb.JSON

/-- Every `set_item` comes behind a name and behind a value, and the value read last in front
of it is not null. -/
def Supplied : (keyed valued : Bool) → List Action → Prop
  | _, _, [] => True
  | _, valued, .name _ :: actions => Supplied true valued actions
  | keyed, _, .value _ :: actions => Supplied keyed true actions
  | keyed, _, .null :: actions => Supplied keyed false actions
  | keyed, valued, .setItem :: actions =>
    keyed = true ∧ valued = true ∧ Supplied keyed valued actions

def Pointer.isMade : Pointer → Bool
  | .made _ => true
  | .unset | .null => false

theorem Pointer.isMade_iff (pointer : Pointer) : pointer.isMade = true ↔ ∃ text, pointer = .made text := by
  cases pointer <;> simp [Pointer.isMade]

theorem setItem_runs (r : Reading) (key val : Made) (named : r.key = .made key)
    (valued : r.val = .made val) : ∃ s, setItem r = (.ok (),s) ∧ s.key = r.key ∧ s.val = r.val := by
  unfold setItem
  rw [named,valued]
  exact ⟨_,rfl,rfl,rfl⟩

theorem supplied_of_run (actions : List Action) (r s : Reading)
    (ran : runActions actions r = (.ok (),s)) : Supplied r.key.isMade r.val.isMade actions := by
  induction actions generalizing r with
  | nil => trivial
  | cons action actions ih =>
    obtain ⟨_,middle,first,rest⟩ := Prog.bind_inv ran
    have later := ih middle rest
    cases action with
    | name token =>
      obtain ⟨_,_,rfl⟩ := name_inv token r middle first
      exact later
    | value token =>
      obtain ⟨_,_,rfl⟩ := value_inv token r middle first
      exact later
    | null =>
      cases first
      exact later
    | setItem =>
      obtain ⟨key,val,named,valued,rfl⟩ := setItem_inv r middle first
      exact ⟨r.key.isMade_iff.mpr ⟨key,named⟩,r.val.isMade_iff.mpr ⟨val,valued⟩,later⟩

theorem run_of_supplied (actions : List Action) (r : Reading) (decodes : Decodes actions)
    (supplied : Supplied r.key.isMade r.val.isMade actions) :
    ∃ s, runActions actions r = (.ok (),s) := by
  induction actions generalizing r with
  | nil => exact ⟨r,rfl⟩
  | cons action actions ih =>
    obtain ⟨here,decodes⟩ := List.forall_mem_cons.mp decodes
    have step (middle : Reading) (first : action.run r = (.ok (),middle))
        (later : Supplied middle.key.isMade middle.val.isMade actions) :
        ∃ s, runActions (action::actions) r = (.ok (),s) := by
      obtain ⟨s,ran⟩ := ih middle decodes later
      exact ⟨s,by rw [runActions_cons,Prog.bind_ok _ first,ran]⟩
    cases action with
    | name token =>
      obtain ⟨bytes,decoded⟩ := here token rfl
      exact step _ (Prog.bind_ok _ (blob_ok token bytes decoded r)) supplied
    | value token =>
      obtain ⟨bytes,decoded⟩ := here token rfl
      exact step _ (Prog.bind_ok _ (blob_ok token bytes decoded r)) supplied
    | null => exact step _ rfl supplied
    | setItem =>
      obtain ⟨keyed,valued,later⟩ := supplied
      obtain ⟨key,named⟩ := r.key.isMade_iff.mp keyed
      obtain ⟨val,made⟩ := r.val.isMade_iff.mp valued
      obtain ⟨middle,ran,sameKey,sameVal⟩ := setItem_runs r key val named made
      apply step middle ran
      rw [sameKey,sameVal]
      exact later

/-- The actions run to the end where texts decode and values are there. -/
theorem runs_iff (actions : List Action) :
    (∃ s, runActions actions .init = (.ok (),s)) ↔ Decodes actions ∧ Supplied false false actions := by
  constructor
  · rintro ⟨s,ran⟩
    exact ⟨run_decodes actions .init s ran,supplied_of_run actions .init s ran⟩
  · rintro ⟨decodes,supplied⟩
    exact run_of_supplied actions .init decodes supplied

end ModNdb.JSON
