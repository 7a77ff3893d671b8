import Mathlib

/-! Grammars with values: a phrase is a list of tokens that spells a value. -/

def Phrase (τ α : Type) := α → List τ → Prop

namespace Phrase
variable {τ α β : Type}

def one (kind : τ → Prop) : Phrase τ τ := fun t used => kind t ∧ used = [t]

def empty : Phrase τ Unit := fun _ used => used = []

def never : Phrase τ α := fun _ _ => False

def seq (first : Phrase τ α) (second : Phrase τ β) : Phrase τ (α × β) := fun a used =>
  ∃ front back, used = front ++ back ∧ first a.1 front ∧ second a.2 back

def or (first second : Phrase τ α) : Phrase τ α := fun a used => first a used ∨ second a used

def map (f : α → β) (phrase : Phrase τ α) : Phrase τ β := fun b used => ∃ a, f a = b ∧ phrase a used

/-- One phrase behind another that says nothing. -/
def next (first : Phrase τ α) (second : Phrase τ β) : Phrase τ β := (first.seq second).map Prod.snd

def before (first : Phrase τ α) (second : Phrase τ β) : Phrase τ α := (first.seq second).map Prod.fst

def optional (phrase : Phrase τ α) : Phrase τ (Option α) :=
  (phrase.map some).or (empty.map fun _ => none)

def many (separator : Phrase τ β) (item : Phrase τ α) : Phrase τ (List α)
  | [], used => used = []
  | a::as, used => ∃ front back, used = front ++ back ∧ separator.next item a front ∧
      many separator item as back

def list (separator : Phrase τ β) (item : Phrase τ α) : Phrase τ (List α) :=
  (item.seq (many separator item)).map fun a => a.1::a.2

theorem or_never (phrase : Phrase τ α) : phrase.or never = phrase := by
  funext a used
  exact propext ⟨fun spelled => spelled.resolve_right id,.inl⟩

theorem map_map {γ : Type} (f : α → β) (g : β → γ) (phrase : Phrase τ α) :
    (phrase.map f).map g = phrase.map (g ∘ f) := by
  funext c used
  refine propext ⟨?_,?_⟩
  · rintro ⟨_,rfl,a,rfl,spelled⟩
    exact ⟨a,rfl,spelled⟩
  · rintro ⟨a,rfl,spelled⟩
    exact ⟨f a,rfl,a,rfl,spelled⟩

theorem next_iff (first : Phrase τ α) (second : Phrase τ β) (b : β) (used : List τ) :
    first.next second b used ↔ ∃ a front back, used = front ++ back ∧ first a front ∧ second b back := by
  constructor
  · rintro ⟨⟨a,b⟩,rfl,front,back,rest⟩
    exact ⟨a,front,back,rest⟩
  · rintro ⟨a,front,back,rest⟩
    exact ⟨(a,b),rfl,front,back,rest⟩

theorem seq_empty (phrase : Phrase τ α) : (phrase.seq empty).map Prod.fst = phrase := by
  funext a used
  refine propext ⟨?_,fun spelled => ⟨(a,()),rfl,used,[],(List.append_nil used).symm,spelled,rfl⟩⟩
  rintro ⟨⟨a,_⟩,rfl,front,back,rfl,spelled,rfl⟩
  rwa [List.append_nil]

theorem empty_seq (phrase : Phrase τ α) : (empty.seq phrase).map Prod.snd = phrase := by
  funext a used
  refine propext ⟨?_,fun spelled => ⟨((),a),rfl,[],used,rfl,rfl,spelled⟩⟩
  rintro ⟨⟨_,a⟩,rfl,front,back,rfl,rfl,spelled⟩
  exact spelled

theorem list_ne_nil {separator : Phrase τ β} {item : Phrase τ α} {as : List α} {used : List τ}
    (spelled : list separator item as used) : as ≠ [] := by
  obtain ⟨a,rfl,_⟩ := spelled
  exact List.cons_ne_nil _ _

/-- What is spelled, in front of what meets one condition, meets another. -/
def Begins (phrase : Phrase τ α) (behind whole : List τ → Prop) : Prop :=
  ∀ a used rest, phrase a used → behind rest → whole (used ++ rest)

section
variable {phrase other : Phrase τ α} {second : Phrase τ β} {behind middle whole : List τ → Prop}

theorem Begins.one {kind : τ → Prop} (holds : ∀ t rest, kind t → behind rest → whole (t::rest)) :
    (one kind).Begins behind whole := by
  rintro t used rest ⟨kind,rfl⟩ after
  exact holds t rest kind after

theorem Begins.empty (holds : ∀ rest, behind rest → whole rest) :
    (empty : Phrase τ Unit).Begins behind whole := by
  rintro _ used rest rfl after
  exact holds rest after

theorem Begins.never : (never : Phrase τ α).Begins behind whole := fun _ _ _ none => none.elim

theorem Begins.seq (first : phrase.Begins middle whole) (rest : second.Begins behind middle) :
    (phrase.seq second).Begins behind whole := by
  rintro ⟨a,b⟩ used ahead ⟨front,back,rfl,spelled,spelled'⟩ after
  rw [List.append_assoc]
  exact first a front _ spelled (rest b back ahead spelled' after)

theorem Begins.or (first : phrase.Begins behind whole) (rest : other.Begins behind whole) :
    (phrase.or other).Begins behind whole := by
  rintro a used ahead (spelled | spelled) after
  · exact first a used ahead spelled after
  · exact rest a used ahead spelled after

theorem Begins.map {f : α → β} (begins : phrase.Begins behind whole) :
    (phrase.map f).Begins behind whole := by
  rintro _ used ahead ⟨a,rfl,spelled⟩ after
  exact begins a used ahead spelled after

theorem Begins.next (first : phrase.Begins middle whole) (rest : second.Begins behind middle) :
    (phrase.next second).Begins behind whole := (first.seq rest).map

theorem Begins.before (first : phrase.Begins middle whole) (rest : second.Begins behind middle) :
    (phrase.before second).Begins behind whole := (first.seq rest).map

theorem Begins.optional (some : phrase.Begins behind whole) (none : ∀ rest, behind rest → whole rest) :
    phrase.optional.Begins behind whole := some.map.or (Begins.empty none).map

theorem Begins.mono {behind' whole' : List τ → Prop} (begins : phrase.Begins behind whole)
    (stronger : ∀ rest, behind' rest → behind rest) (weaker : ∀ rest, whole rest → whole' rest) :
    phrase.Begins behind' whole' :=
  fun a used ahead spelled after => weaker _ (begins a used ahead spelled (stronger ahead after))

theorem Begins.many {separator : Phrase τ β} (first : separator.Begins (fun _ => True) whole)
    (none : ∀ rest, behind rest → whole rest) : (many separator phrase).Begins behind whole := by
  rintro (_ | ⟨a,as⟩)
  · rintro used rest rfl after
    exact none rest after
  · rintro used rest ⟨front,back,rfl,spelled,_⟩ _
    rw [List.append_assoc]
    have begins : (separator.next phrase).Begins (fun _ => True) whole :=
      first.next fun _ _ _ _ _ => trivial
    exact begins a front (back ++ rest) spelled trivial

end

def Of (kind : τ → Prop) (phrase : Phrase τ α) : Prop := ∀ a used, phrase a used → ∀ t ∈ used, kind t

section
variable {kind : τ → Prop} {phrase other : Phrase τ α} {second : Phrase τ β}

theorem Of.one {only : τ → Prop} (all : ∀ t, only t → kind t) : Of kind (one only) := by
  rintro t used ⟨is,rfl⟩
  exact List.forall_mem_singleton.mpr (all t is)

theorem Of.empty : Of kind (empty : Phrase τ Unit) := by
  rintro _ used rfl
  exact List.forall_mem_nil _

theorem Of.seq (first : Of kind phrase) (rest : Of kind second) : Of kind (phrase.seq second) := by
  rintro ⟨a,b⟩ used ⟨front,back,rfl,spelled,spelled'⟩
  exact List.forall_mem_append.mpr ⟨first a front spelled,rest b back spelled'⟩

theorem Of.or (first : Of kind phrase) (rest : Of kind other) : Of kind (phrase.or other) := by
  rintro a used (spelled | spelled)
  · exact first a used spelled
  · exact rest a used spelled

theorem Of.map {f : α → β} (all : Of kind phrase) : Of kind (phrase.map f) := by
  rintro _ used ⟨a,rfl,spelled⟩
  exact all a used spelled

theorem Of.next (first : Of kind phrase) (rest : Of kind second) : Of kind (phrase.next second) :=
  (first.seq rest).map

theorem Of.before (first : Of kind phrase) (rest : Of kind second) : Of kind (phrase.before second) :=
  (first.seq rest).map

theorem Of.optional (all : Of kind phrase) : Of kind phrase.optional := all.map.or Of.empty.map

theorem Of.many {separator : Phrase τ β} (first : Of kind separator) (item : Of kind phrase) :
    Of kind (many separator phrase) := by
  intro as
  induction as with
  | nil =>
    rintro used rfl
    exact List.forall_mem_nil _
  | cons a as ih =>
    rintro used ⟨front,back,rfl,spelled,others⟩
    exact List.forall_mem_append.mpr ⟨first.next item a front spelled,ih back others⟩

theorem Of.list {separator : Phrase τ β} (first : Of kind separator) (item : Of kind phrase) :
    Of kind (list separator phrase) := (item.seq (first.many item)).map

end

end Phrase
