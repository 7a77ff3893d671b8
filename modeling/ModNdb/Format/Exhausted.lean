import ModNdb.Format.Operations

/-! What becomes of a `result_buffer` when memory is exhausted: the block is gone, but
`alloc_sz` still has the size that was asked for. -/
namespace ModNdb.Format
open Prog

/-- `alloc_sz` is the size of the block, or 0 where there is none. -/
def Sized (m : Memory) : Prop := m.buffer.allocSz = (m.buffer.buff.map List.length).getD 0

section
variable (heap : Heap)

def EachStep (P : BufferOp → Memory → Except BufferFault Unit × Memory → Prop) :
    List BufferOp → Memory → Prop
  | [], _ => True
  | op::ops, m => P op m (op.run heap m) ∧
      ∀ next, op.run heap m = (.ok (),next) → EachStep P ops next

def Unharmed : List BufferOp → Memory → Prop :=
  EachStep heap fun _ _ r => r.1 ≠ .error .nullWrite

/-- Besides, the size is right behind every operation. -/
def Survives : List BufferOp → Memory → Prop :=
  EachStep heap fun _ _ r => r.1 ≠ .error .nullWrite ∧ (r.1 = .ok () → Sized r.2)

def Granted (m next : Memory) : Prop :=
  ∀ n, m.allocations ≤ n → n < next.allocations → heap n ≠ none

def Served : List BufferOp → Memory → Prop := EachStep heap fun _ m r => Granted heap m r.2

/-- Before it writes, an operation that wants so much room finds a block or gets one. -/
def Memory.Backed (m : Memory) (room : Nat) : Prop :=
  if m.buffer.allocSz < m.buffer.sz + room then
    m.buffer.allocSz = 0 ∨ (heap m.allocations).isSome = true
  else m.buffer.buff.isSome = true

/-- The operation does not come to write where there is no block. `out(len, s)` notices that an
allocation of its own failed, `out(fmt, ...)` writes before it allocates, and the others go on. -/
def BufferOp.Spares (m : Memory) : BufferOp → Prop
  | .init _ => True
  | .prepare _ => True
  | .outBytes s => s = [] ∨ m.buffer.allocSz < m.buffer.sz + s.length ∨ m.buffer.buff.isSome = true
  | .outFormatted _ => m.buffer.allocSz = m.buffer.sz ∨ m.buffer.buff.isSome = true
  | .outDecimal bytes spare => m.Backed heap (bytes.length + 1 + spare)
  | .putc _ => m.buffer.buff.isSome = true
  | .readBlob bytes => bytes = [] ∨ m.Backed heap bytes.length

def Spared : List BufferOp → Memory → Prop := EachStep heap fun op m _ => op.Spares heap m

theorem eachStep_congr {P Q : BufferOp → Memory → Except BufferFault Unit × Memory → Prop}
    (same : ∀ op m, P op m (op.run heap m) ↔ Q op m (op.run heap m)) (ops : List BufferOp)
    (m : Memory) : EachStep heap P ops m ↔ EachStep heap Q ops m := by
  induction ops generalizing m with
  | nil => exact Iff.rfl
  | cons op ops ih =>
    exact and_congr (same op m) (forall₂_congr fun next _ => ih next)

end

def Harmless {α : Type} (r : Except BufferFault α × Memory) : Prop := r.1 ≠ .error .nullWrite

theorem Harmless.ok {α : Type} (a : α) (m : Memory) :
    Harmless ((.ok a,m) : Except BufferFault α × Memory) := nofun

theorem Harmless.error {α : Type} {why : BufferFault} (other : why ≠ .nullWrite) (m : Memory) :
    Harmless ((.error why,m) : Except BufferFault α × Memory) :=
  fun wrong => other (Except.error.inj wrong)

theorem Harmless.bind {α β : Type} {x : Buffering α} {f : α → Buffering β} {m : Memory}
    (first : Harmless (x m)) (rest : ∀ a next, x m = (.ok a,next) → Harmless (f a next)) :
    Harmless ((x >>= f) m) := by
  rcases ran : x m with ⟨outcome,next⟩
  rw [ran] at first
  cases outcome with
  | error why =>
    rw [bind_error _ ran]
    exact fun wrong => first (congrArg Except.error (Except.error.inj wrong))
  | ok a =>
    rw [bind_ok _ ran]
    exact rest a next ran

section
variable (heap : Heap)

theorem store_harm (bytes : Text) (m : Memory) :
    Harmless (store bytes m) ↔ bytes = [] ∨ m.buffer.buff.isSome = true := by
  unfold store Harmless
  by_cases empty : bytes = []
  · rw [if_pos empty]
    exact iff_of_true nofun (.inl empty)
  rw [if_neg empty,or_iff_right empty]
  cases m.buffer.buff with
  | none => exact iff_of_false (fun other => other rfl) nofun
  | some block =>
    refine iff_of_true ?_ rfl
    dsimp only
    split <;> nofun

theorem stored_harm (bytes : Text) (len : Nat) (m : Memory) :
    Harmless ((do store bytes; advance len : Buffering Unit) m) ↔
      bytes = [] ∨ m.buffer.buff.isSome = true := by
  rw [← store_harm]
  unfold Harmless
  rcases ran : store bytes m with ⟨outcome,next⟩
  cases outcome with
  | error why => rw [bind_error _ ran]
  | ok _ =>
    rw [bind_ok _ ran]
    exact iff_of_true nofun nofun

/-- What an allocation leaves: a block of the size that was asked for, or none. -/
structure Took (m next : Memory) (size : Nat) : Prop where
  sz : next.buffer.sz = m.buffer.sz
  alloc : next.buffer.allocSz = size
  counted : next.allocations = m.allocations + 1
  answered : next.buffer.buff.isSome = (heap m.allocations).isSome
  length : ∀ block, next.buffer.buff = some block → block.length = size

theorem allocate_took (size : Nat) (kept : Text) (m : Memory) :
    ∃ next, allocate heap size kept m = (.ok (),next) ∧ Took heap m next size := by
  refine ⟨_,rfl,rfl,rfl,rfl,Option.isSome_map,fun block there => ?_⟩
  obtain ⟨contents,-,rfl⟩ := Option.map_eq_some_iff.mp there
  rw [List.length_append,List.length_take,List.length_map,List.length_drop,List.length_range]
  omega

/-- `prepare` finds room, divides by zero, or asks for a block. -/
theorem prepare_cases (len : Nat) (m : Memory) :
    (¬m.buffer.allocSz < m.buffer.sz + len ∧ prepare heap len m = (.ok true,m)) ∨
    (m.buffer.allocSz < m.buffer.sz + len ∧ m.buffer.allocSz = 0 ∧
      prepare heap len m = (.error .divisionByZero,m)) ∨
    (m.buffer.allocSz < m.buffer.sz + len ∧ m.buffer.allocSz ≠ 0 ∧ ∃ next size,
      prepare heap len m = (.ok (heap m.allocations).isSome,next) ∧ Took heap m next size ∧
        m.buffer.sz + len ≤ size) := by
  unfold prepare
  rw [bind_ok _ (get_run m)]
  dsimp only
  by_cases short : m.buffer.allocSz < m.buffer.sz + len
  swap
  · rw [if_neg short]
    exact .inl ⟨short,rfl⟩
  rw [if_pos short]
  by_cases empty : m.buffer.allocSz = 0
  · rw [if_pos empty]
    exact .inr (.inl ⟨short,empty,rfl⟩)
  rw [if_neg empty]
  have enough : m.buffer.sz + len < m.buffer.allocSz * ((m.buffer.sz + len) / m.buffer.allocSz + 1) :=
    Nat.lt_mul_div_succ _ (Nat.pos_of_ne_zero empty)
  obtain ⟨next,ran,took⟩ := allocate_took heap
    (m.buffer.allocSz * ((m.buffer.sz + len) / m.buffer.allocSz + 1)) (m.buffer.buff.getD []) m
  rw [bind_ok _ ran,bind_ok _ (get_run next),took.answered]
  exact .inr (.inr ⟨short,empty,next,_,rfl,took,Nat.le_of_lt enough⟩)

theorem prepare_harmless (len : Nat) (m : Memory) : Harmless (prepare heap len m) := by
  obtain ⟨-,ran⟩ | ⟨-,-,ran⟩ | ⟨-,-,next,size,ran,-⟩ := prepare_cases heap len m
  all_goals
    rw [ran]
    nofun

/-- With a block, a formatted text is never written through a null pointer: the loop ends when
there is no new block. -/
theorem outFormatted_harmless (bytes : Text) (fuel : Nat) (m : Memory)
    (there : m.buffer.buff.isSome = true) : Harmless (outFormatted heap bytes fuel m) := by
  induction fuel generalizing m with
  | zero => exact Harmless.error (by decide) m
  | succ fuel ih =>
    unfold outFormatted
    rw [bind_ok _ (get_run m)]
    have printed : Harmless (vsnprintf m.buffer.allocSz m.buffer.sz bytes m) := by
      unfold vsnprintf
      split
      · exact Harmless.ok _ m
      · split <;> exact (store_harm _ m).mpr (.inr there)
    refine printed.bind fun _ middle _ => ?_
    split
    · obtain ⟨next,ran,took⟩ := allocate_took heap (middle.buffer.allocSz * 4)
        (middle.buffer.buff.getD []) middle
      rw [bind_ok _ (get_run middle),bind_ok _ ran,bind_ok _ (get_run next)]
      split
      next got => exact ih next got
      next => exact Harmless.ok _ next
    · exact Harmless.ok _ middle

theorem outFormatted_harm (bytes : Text) (fuel : Nat) (m : Memory) :
    Harmless (outFormatted heap bytes (fuel + 1) m) ↔
      m.buffer.allocSz = m.buffer.sz ∨ m.buffer.buff.isSome = true := by
  by_cases there : m.buffer.buff.isSome = true
  · exact iff_of_true (outFormatted_harmless heap bytes _ m there) (.inr there)
  rw [or_iff_left there]
  unfold outFormatted
  rw [bind_ok _ (get_run m)]
  by_cases full : m.buffer.allocSz = m.buffer.sz
  · refine iff_of_true ?_ full
    have nothing : vsnprintf m.buffer.allocSz m.buffer.sz bytes m = (.ok (),m) := by
      unfold vsnprintf
      rw [if_pos full]
      rfl
    obtain ⟨next,ran,took⟩ := allocate_took heap (m.buffer.allocSz * 4) (m.buffer.buff.getD []) m
    rw [bind_ok _ nothing,if_pos (by omega),bind_ok _ (get_run m),bind_ok _ ran,
      bind_ok _ (get_run next)]
    by_cases got : next.buffer.buff.isSome = true
    · rw [if_pos got]
      exact outFormatted_harmless heap bytes fuel next got
    · rw [if_neg got]
      exact Harmless.ok _ next
  · refine iff_of_false (fun harmless => ?_) full
    have printed : ¬Harmless (vsnprintf m.buffer.allocSz m.buffer.sz bytes m) := by
      unfold vsnprintf
      rw [if_neg full]
      split <;> exact fun harmless => there (((store_harm _ m).mp harmless).resolve_left (by simp))
    rcases ran : vsnprintf m.buffer.allocSz m.buffer.sz bytes m with ⟨outcome,middle⟩
    rw [ran] at printed
    cases outcome with
    | error why =>
      rw [bind_error _ ran] at harmless
      exact printed harmless
    | ok _ => exact printed (Harmless.ok _ middle)

/-- `read_blob` and `out(decimal)` do not look at what `prepare` answers. -/
theorem backed_harm (room len : Nat) (bytes : Text) (some_bytes : bytes ≠ []) (m : Memory) :
    Harmless ((do let _ ← prepare heap room; store bytes; advance len : Buffering Unit) m) ↔
      m.Backed heap room := by
  unfold Memory.Backed
  obtain ⟨enough,ran⟩ | ⟨short,empty,ran⟩ | ⟨short,some_room,next,size,ran,took,-⟩ :=
    prepare_cases heap room m
  · rw [bind_ok _ ran,if_neg enough,stored_harm,or_iff_right some_bytes]
  · rw [bind_error _ ran,if_pos short]
    exact iff_of_true nofun (.inl empty)
  · rw [bind_ok _ ran,if_pos short,or_iff_right some_room,stored_harm,or_iff_right some_bytes,
      took.answered]

theorem outBytes_harm (s : Text) (m : Memory) : Harmless (outBytes heap s m) ↔
    s = [] ∨ m.buffer.allocSz < m.buffer.sz + s.length ∨ m.buffer.buff.isSome = true := by
  unfold outBytes
  by_cases nothing : s = []
  · rw [if_pos nothing]
    exact iff_of_true nofun (.inl nothing)
  rw [if_neg nothing,or_iff_right nothing]
  obtain ⟨enough,ran⟩ | ⟨short,empty,ran⟩ | ⟨short,some_room,next,size,ran,took,-⟩ :=
    prepare_cases heap s.length m
  · rw [bind_ok _ ran,if_pos rfl,stored_harm,or_iff_right nothing,or_iff_right enough]
  · rw [bind_error _ ran]
    exact iff_of_true nofun (.inl short)
  · refine iff_of_true ?_ (.inl short)
    rw [bind_ok _ ran]
    by_cases got : (heap m.allocations).isSome = true
    · rw [if_pos got,stored_harm,took.answered]
      exact .inr got
    · rw [if_neg got]
      nofun

/-- What `Spares` says of a step is exact. -/
theorem run_harm (op : BufferOp) (m : Memory) :
    Harmless (op.run heap m) ↔ op.Spares heap m := by
  cases op with
  | init size => exact iff_of_true nofun trivial
  | prepare len => exact iff_of_true ((prepare_harmless heap len m).bind fun _ _ _ => nofun) trivial
  | outBytes s => exact outBytes_harm heap s m
  | outFormatted bytes => exact outFormatted_harm heap bytes _ m
  | outDecimal bytes spare =>
    exact backed_harm heap (bytes.length + 1 + spare) bytes.length (bytes ++ [0]) (by simp) m
  | putc c => exact (stored_harm [c] 1 m).trans (or_iff_right (List.cons_ne_nil c []))
  | readBlob bytes =>
    change Harmless (readBlob heap bytes m) ↔ bytes = [] ∨ m.Backed heap bytes.length
    by_cases nothing : bytes = []
    · refine iff_of_true ((prepare_harmless heap bytes.length m).bind fun _ next _ => ?_)
        (.inl nothing)
      exact (stored_harm bytes bytes.length next).mpr (.inl nothing)
    · rw [or_iff_right nothing]
      exact backed_harm heap bytes.length bytes.length bytes nothing m

theorem unharmed_iff (ops : List BufferOp) (m : Memory) :
    Unharmed heap ops m ↔ Spared heap ops m :=
  eachStep_congr heap (fun op m => run_harm heap op m) ops m

structure Fine {α : Type} (m : Memory) (r : Except BufferFault α × Memory) : Prop where
  harmless : Harmless r
  granted : Granted heap m r.2
  later : m.allocations ≤ r.2.allocations
  blocked : ∀ a, r.1 = .ok a → Blocked r.2

/-- A null pointer is written through, or nothing stands behind the buffer. -/
def Ruined {α : Type} (r : Except BufferFault α × Memory) : Prop :=
  ¬Harmless r ∨ (∃ a, r.1 = .ok a) ∧ r.2.buffer.buff = none

/-- An allocation was not answered, which ruins the buffer. -/
def Starves {α : Type} (m : Memory) (r : Except BufferFault α × Memory) : Prop :=
  (∃ n, m.allocations ≤ n ∧ n < r.2.allocations ∧ heap n = none) ∧ Ruined r

theorem Granted.trans {m middle next : Memory} (first : Granted heap m middle)
    (second : Granted heap middle next) : Granted heap m next := by
  intro n above below
  by_cases before : n < middle.allocations
  · exact first n above before
  · exact second n (Nat.le_of_not_lt before) below

theorem granted_same {m next : Memory} (same : next.allocations = m.allocations) :
    Granted heap m next := fun n above below => absurd below (by omega)

theorem Fine.bind {α β : Type} {x : Buffering α} {f : α → Buffering β} {m : Memory}
    (first : Fine heap m (x m)) (rest : ∀ a next, x m = (.ok a,next) → Blocked next →
      Fine heap next (f a next) ∨ Starves heap next (f a next)) :
    Fine heap m ((x >>= f) m) ∨ Starves heap m ((x >>= f) m) := by
  rcases ran : x m with ⟨outcome,next⟩
  rw [ran] at first
  cases outcome with
  | error why =>
    rw [bind_error _ ran]
    exact .inl ⟨fun wrong => first.harmless (congrArg Except.error (Except.error.inj wrong)),
      first.granted,first.later,nofun⟩
  | ok a =>
    rw [bind_ok _ ran]
    rcases rest a next ran (first.blocked a rfl) with fine | ⟨⟨n,above,below,none⟩,ruined⟩
    · exact .inl ⟨fine.harmless,first.granted.trans heap fine.granted,
        Nat.le_trans first.later fine.later,fine.blocked⟩
    · exact .inr ⟨⟨n,Nat.le_trans first.later above,below,none⟩,ruined⟩

theorem Took.ends {α : Type} {m next : Memory} {size : Nat} (took : Took heap m next size)
    {r : Except BufferFault α × Memory}
    (got : Blocked next → Fine heap next r ∨ Starves heap next r)
    (lost : next.buffer.buff = none → Ruined r ∧ r.2.allocations = next.allocations) :
    Fine heap m r ∨ Starves heap m r := by
  have counted := took.counted
  cases answer : heap m.allocations with
  | none =>
    have empty : next.buffer.buff = none := by
      rw [← Option.isNone_iff_eq_none,← Option.not_isSome,took.answered,answer]
      rfl
    obtain ⟨ruined,same⟩ := lost empty
    exact .inr ⟨⟨m.allocations,Nat.le_refl _,by omega,answer⟩,ruined⟩
  | some contents =>
    have granted : Granted heap m next := by
      intro n above below
      obtain rfl : n = m.allocations := by omega
      rw [answer]
      nofun
    obtain ⟨block,there⟩ : ∃ block, next.buffer.buff = some block := by
      rw [← Option.isSome_iff_exists,took.answered,answer]
      rfl
    rcases got ⟨block,there,(took.length block there).trans took.alloc.symm⟩ with
      fine | ⟨⟨n,above,below,none⟩,ruined⟩
    · exact .inl ⟨fine.harmless,granted.trans heap fine.granted,
        Nat.le_trans (by omega) fine.later,fine.blocked⟩
    · exact .inr ⟨⟨n,by omega,below,none⟩,ruined⟩

theorem fine_ok {α : Type} (a : α) {m next : Memory} (blocked : Blocked next)
    (same : next.allocations = m.allocations) :
    Fine heap m ((.ok a,next) : Except BufferFault α × Memory) where
  harmless := nofun
  granted := granted_same heap same
  later := Nat.le_of_eq same.symm
  blocked := fun _ _ => blocked

theorem store_fine (bytes : Text) (m : Memory) (blocked : Blocked m) :
    Fine heap m (store bytes m) := by
  obtain ⟨block,there,length⟩ := id blocked
  unfold store
  split
  · exact fine_ok heap () blocked rfl
  · rw [there]
    dsimp only
    split
    next fits =>
      exact fine_ok heap () ⟨_,rfl,(overwritten_length block _ bytes fits).trans length⟩ rfl
    next => exact ⟨nofun,granted_same heap rfl,Nat.le_refl _,nofun⟩

theorem stored_fine (bytes : Text) (len : Nat) (m : Memory) (blocked : Blocked m) :
    Fine heap m ((do store bytes; advance len : Buffering Unit) m) ∨
      Starves heap m ((do store bytes; advance len : Buffering Unit) m) :=
  (store_fine heap bytes m blocked).bind heap fun _ _ _ blocked' =>
    .inl (fine_ok heap () blocked' rfl)

theorem stored_ruined (bytes : Text) (len : Nat) (m : Memory) (lost : m.buffer.buff = none) :
    Ruined ((do store bytes; advance len : Buffering Unit) m) ∧
      ((do store bytes; advance len : Buffering Unit) m).2.allocations = m.allocations := by
  by_cases empty : bytes = []
  · have nothing : store bytes m = (.ok (),m) := by
      unfold store
      rw [if_pos empty]
    rw [bind_ok _ nothing]
    exact ⟨.inr ⟨⟨(),rfl⟩,lost⟩,rfl⟩
  · have wrong : store bytes m = (.error .nullWrite,m) := by
      unfold store
      rw [if_neg empty,lost]
    rw [bind_error _ wrong]
    exact ⟨.inl fun harmless => harmless rfl,rfl⟩

/-- What follows `prepare` finds a block, or it is told that there is none. -/
theorem prepare_ends {α : Type} (len : Nat) (f : Bool → Buffering α) (m : Memory)
    (blocked : Blocked m)
    (got : ∀ next, Blocked next → Fine heap next (f true next) ∨ Starves heap next (f true next))
    (lost : ∀ next, next.buffer.buff = none →
      Ruined (f false next) ∧ (f false next).2.allocations = next.allocations) :
    Fine heap m ((prepare heap len >>= f) m) ∨ Starves heap m ((prepare heap len >>= f) m) := by
  obtain ⟨-,ran⟩ | ⟨-,-,ran⟩ | ⟨-,-,next,size,ran,took,-⟩ := prepare_cases heap len m
  · rw [bind_ok _ ran]
    exact got m blocked
  · rw [bind_error _ ran]
    exact .inl ⟨nofun,granted_same heap rfl,Nat.le_refl _,nofun⟩
  · rw [bind_ok _ ran]
    refine took.ends heap (fun there => ?_) fun none => ?_
    · obtain ⟨block,same,-⟩ := id there
      rw [← took.answered,same]
      exact got next there
    · rw [← took.answered,none]
      exact lost next none

theorem vsnprintf_fine (allocSz sz : Nat) (bytes : Text) (m : Memory) (blocked : Blocked m) :
    Fine heap m (vsnprintf allocSz sz bytes m) := by
  unfold vsnprintf
  split
  · exact fine_ok heap () blocked rfl
  · split <;> exact store_fine heap _ m blocked

theorem outFormatted_ends (bytes : Text) (fuel : Nat) (m : Memory) (blocked : Blocked m) :
    Fine heap m (outFormatted heap bytes fuel m) ∨
      Starves heap m (outFormatted heap bytes fuel m) := by
  induction fuel generalizing m with
  | zero => exact .inl ⟨nofun,granted_same heap rfl,Nat.le_refl _,nofun⟩
  | succ fuel ih =>
    unfold outFormatted
    rw [bind_ok _ (get_run m)]
    refine (vsnprintf_fine heap _ _ bytes m blocked).bind heap fun _ middle _ blocked' => ?_
    split
    · obtain ⟨next,ran,took⟩ := allocate_took heap (middle.buffer.allocSz * 4)
        (middle.buffer.buff.getD []) middle
      rw [bind_ok _ (get_run middle),bind_ok _ ran,bind_ok _ (get_run next)]
      refine took.ends heap (fun there => ?_) fun none => ?_
      · obtain ⟨block,same,-⟩ := id there
        rw [same]
        exact ih next there
      · rw [none]
        exact ⟨.inr ⟨⟨(),rfl⟩,none⟩,rfl⟩
    · exact .inl (fine_ok heap () blocked' rfl)

theorem init_ends (size : Nat) (m : Memory) :
    Fine heap m (init heap size m) ∨ Starves heap m (init heap size m) := by
  obtain ⟨next,ran,took⟩ := allocate_took heap size [] m
  unfold init
  rw [bind_ok _ ran]
  exact took.ends heap (fun there => .inl (fine_ok heap () there rfl))
    fun none => ⟨.inr ⟨⟨(),rfl⟩,none⟩,rfl⟩

/-- The run of an operation on a block keeps a block, or an allocation fails and there is none. -/
theorem run_ends (op : BufferOp) (m : Memory)
    (begun : Blocked m ∨ ∃ size, op = .init size) :
    Fine heap m (op.run heap m) ∨ Starves heap m (op.run heap m) := by
  rcases begun with blocked | ⟨size,rfl⟩
  swap
  · exact init_ends heap size m
  cases op with
  | init size => exact init_ends heap size m
  | prepare len =>
    exact prepare_ends heap len _ m blocked (fun next there => .inl (fine_ok heap () there rfl))
      fun next none => ⟨.inr ⟨⟨(),rfl⟩,none⟩,rfl⟩
  | outBytes s =>
    change Fine heap m (outBytes heap s m) ∨ Starves heap m (outBytes heap s m)
    unfold outBytes
    split
    · exact .inl (fine_ok heap () blocked rfl)
    · exact prepare_ends heap _ _ m blocked (fun next there => stored_fine heap s _ next there)
        fun next none => ⟨.inr ⟨⟨(),rfl⟩,none⟩,rfl⟩
  | outFormatted bytes => exact outFormatted_ends heap bytes _ m blocked
  | outDecimal bytes spare =>
    exact prepare_ends heap _ _ m blocked (fun next there => stored_fine heap _ _ next there)
      fun next none => stored_ruined _ _ next none
  | putc c => exact stored_fine heap [c] 1 m blocked
  | readBlob bytes =>
    exact prepare_ends heap _ _ m blocked (fun next there => stored_fine heap bytes _ next there)
      fun next none => stored_ruined bytes _ next none

theorem Blocked.sized {m : Memory} (blocked : Blocked m) : Sized m := by
  obtain ⟨block,there,length⟩ := blocked
  unfold Sized
  rw [there]
  exact length.symm

/-- A buffer with a block keeps it as long as allocations are answered. -/
theorem served_survives (ops : List BufferOp) (m : Memory)
    (begun : Blocked m ∨ ∃ size rest, ops = .init size::rest) (served : Served heap ops m) :
    Survives heap ops m := by
  induction ops generalizing m with
  | nil => trivial
  | cons op ops ih =>
    have starts : Blocked m ∨ ∃ size, op = .init size :=
      begun.imp_right fun ⟨size,rest,same⟩ => ⟨size,(List.cons.inj same).1⟩
    rcases run_ends heap op m starts with fine | ⟨⟨n,above,below,none⟩,-⟩
    · refine ⟨⟨fine.harmless,fun ok => (fine.blocked () ok).sized⟩,fun next ran => ?_⟩
      have blocked := fine.blocked () (congrArg Prod.fst ran)
      rw [ran] at blocked
      exact ih next (.inl blocked) (served.2 next ran)
    · exact absurd none (served.1 n above below)

def BufferOp.Positive : BufferOp → Prop
  | .init size => 0 < size
  | _ => True

theorem positive_roomed (op : BufferOp) (m : Memory) (positive : op.Positive)
    (begun : 0 < m.buffer.allocSz ∨ ∃ size, op = .init size) :
    0 < (op.run heap m).2.buffer.allocSz := by
  by_cases first : ∃ size, op = .init size
  · obtain ⟨size,rfl⟩ := first
    exact positive
  · exact run_roomed heap op (fun size same => first ⟨size,same⟩) m (begun.resolve_right first)

/-- The size is wrong as soon as an allocation fails. -/
theorem survives_served (ops : List BufferOp) (m : Memory) (positive : ∀ op ∈ ops, op.Positive)
    (begun : Blocked m ∧ 0 < m.buffer.allocSz ∨ ∃ size rest, ops = .init size::rest)
    (survives : Survives heap ops m) : Served heap ops m := by
  induction ops generalizing m with
  | nil => trivial
  | cons op ops ih =>
    obtain ⟨here,others⟩ := List.forall_mem_cons.mp positive
    have starts : (Blocked m ∧ 0 < m.buffer.allocSz) ∨ ∃ size, op = .init size :=
      begun.imp_right fun ⟨size,rest,same⟩ => ⟨size,(List.cons.inj same).1⟩
    have room := positive_roomed heap op m here (starts.imp_left And.right)
    rcases run_ends heap op m (starts.imp_left And.left) with fine | ⟨-,ruined⟩
    · refine ⟨fine.granted,fun next ran => ?_⟩
      have blocked := fine.blocked () (congrArg Prod.fst ran)
      rw [ran] at blocked room
      exact ih next others (.inl ⟨blocked,room⟩) (survives.2 next ran)
    · obtain ⟨⟨harmless,sized⟩,-⟩ := survives
      rcases ruined with harm | ⟨⟨_,ok⟩,lost⟩
      · exact absurd harmless harm
      · have zero : (op.run heap m).2.buffer.allocSz = 0 := by
          have same := sized ok
          unfold Sized at same
          rw [lost] at same
          exact same
        omega

/-- A buffer survives exactly the runs in which no allocation fails. Through a null pointer a run
writes exactly if some operation of it is not spared. -/
theorem survives_iff (size : Nat) (ops : List BufferOp) (m : Memory) :
    (Served heap (.init size::ops) m → Survives heap (.init size::ops) m) ∧
    ((∀ op ∈ BufferOp.init size::ops, op.Positive) → Survives heap (.init size::ops) m →
      Served heap (.init size::ops) m) ∧
    (Unharmed heap (.init size::ops) m ↔ Spared heap (.init size::ops) m) :=
  ⟨served_survives heap _ m (.inr ⟨size,ops,rfl⟩),
    fun positive => survives_served heap _ m positive (.inr ⟨size,ops,rfl⟩),
    unharmed_iff heap _ m⟩

end

def oneBlock : Heap := fun n => if n = 0 then some fun _ => 0 else none

/-- Eight bytes do not fit, which nobody is told; the next text is printed through a null
pointer. -/
theorem exhausted_writes : ¬Survives oneBlock
    [.init 4,.outBytes (text "too long"),.outFormatted (text "x")] ⟨.new,0⟩ := by
  intro survives
  obtain ⟨⟨harmless,-⟩,-⟩ := (survives.2 _ rfl).2 _ rfl
  exact harmless rfl

end ModNdb.Format
