import ModNdb.Format.Sources
import ModNdb.Format.Written

/-! The room that the source of a format has in the buffer it is printed into: formatted texts
make room for themselves, and characters that are put rely on there being some. -/
namespace ModNdb.Format

section
variable (heap : Heap)

def DumpCall.run : DumpCall → Buffering Unit
  | .putc c => Format.putc c
  | .out bytes => (Write.formatted bytes).run heap

def runCalls (calls : List DumpCall) : Buffering Unit := calls.forM (DumpCall.run heap)

/-- Every `putc` finds room, there are never more bytes than there is room for, and nothing is
written outside the block. -/
structure StaysInside (m : Memory) (calls : List DumpCall) : Prop where
  room : ∀ before c behind next, calls = before ++ .putc c :: behind →
    runCalls heap before m = (.ok (),next) → next.buffer.sz < next.buffer.allocSz
  within : ∀ before behind next, calls = before ++ behind →
    runCalls heap before m = (.ok (),next) → next.buffer.sz ≤ next.buffer.allocSz
  inside : ∀ before behind next, calls = before ++ behind →
    runCalls heap before m ≠ (.error .outside,next)

end

/-- Two characters in a row that are put where a buffer of this size gets full: the first as its
last byte, and the second behind it. -/
def Straddles (size : Nat) (calls : List DumpCall) : Prop :=
  ∃ before c d behind k, calls = before ++ .putc c :: .putc d :: behind ∧
    (printedBy before).length + 1 = size * 4^k

/-- Room that was made four times as large as often as some text needed it, which ends at
`stop`. -/
structure Growing (size stop room : Nat) : Prop where
  times : ∃ j, room = size * 4^j
  least : ∀ k, stop < size * 4^k → room ≤ size * 4^k

theorem Growing.first (size stop : Nat) : Growing size stop size where
  times := ⟨0,(Nat.mul_one _).symm⟩
  least := fun k _ => Nat.le_mul_of_pos_right size (Nat.pow_pos (by decide))

theorem Growing.later {size stop room : Nat} (growing : Growing size stop room) (more : Nat) :
    Growing size (stop + more) room where
  times := growing.times
  least := fun k above => growing.least k (by omega)

theorem Growing.again {size stop room : Nat} (growing : Growing size stop room)
    (full : room ≤ stop) : Growing size stop (room * 4) := by
  obtain ⟨j,rfl⟩ := growing.times
  refine ⟨⟨j + 1,by rw [Nat.mul_assoc,Nat.pow_succ]⟩,fun k above => ?_⟩
  have larger : size * 4^j < size * 4^k := Nat.lt_of_le_of_lt full above
  have further : j < k := (Nat.pow_lt_pow_iff_right (by decide)).mp (Nat.lt_of_mul_lt_mul_left larger)
  rw [Nat.mul_assoc,← Nat.pow_succ]
  exact Nat.mul_le_mul_left size (Nat.pow_le_pow_right (by decide) further)

def Blocked (m : Memory) : Prop :=
  ∃ block, m.buffer.buff = some block ∧ block.length = m.buffer.allocSz

def Lost (m : Memory) : Prop := m.buffer.buff = none ∧ m.buffer.sz < m.buffer.allocSz

/-- A formatted text has ended at `start`, and `n` characters have been put behind it. -/
structure Filled (size start n : Nat) (m : Memory) : Prop where
  block : Blocked m
  sz : m.buffer.sz = start + n
  growing : Growing size start m.buffer.allocSz
  more : start < m.buffer.allocSz
  within : start + n ≤ m.buffer.allocSz

theorem overwritten_length (block : Text) (place : Nat) (bytes : Text)
    (room : place + bytes.length ≤ block.length) :
    (overwritten block place bytes).length = block.length := by
  unfold overwritten
  rw [List.length_append,List.length_append,List.length_take,List.length_drop]
  omega

theorem store_blocked (bytes : Text) (m : Memory) (blocked : Blocked m)
    (room : m.buffer.sz + bytes.length ≤ m.buffer.allocSz) : ∃ next,
    store bytes m = (.ok (),next) ∧ Blocked next ∧ next.buffer.sz = m.buffer.sz ∧
      next.buffer.allocSz = m.buffer.allocSz := by
  obtain ⟨block,buff,length⟩ := blocked
  unfold store
  by_cases empty : bytes = []
  · exact ⟨m,if_pos empty,⟨block,buff,length⟩,rfl,rfl⟩
  · rw [if_neg empty,buff]
    dsimp only
    rw [if_pos (length ▸ room)]
    refine ⟨_,rfl,⟨_,rfl,?_⟩,rfl,rfl⟩
    rw [overwritten_length block _ bytes (length ▸ room)]
    exact length

theorem store_lost (bytes : Text) (m : Memory) (lost : Lost m) (some_bytes : bytes ≠ []) :
    store bytes m = (.error .nullWrite,m) := by
  unfold store
  rw [if_neg some_bytes,lost.1]

theorem allocate_cases (heap : Heap) (size : Nat) (kept : Text) (m : Memory) : ∃ next,
    allocate heap size kept m = (.ok (),next) ∧ next.buffer.sz = m.buffer.sz ∧
      next.buffer.allocSz = size ∧
      (Blocked next ∨ next.buffer.buff = none ∧ heap m.allocations = none) := by
  refine ⟨_,rfl,rfl,rfl,?_⟩
  cases answer : heap m.allocations with
  | none => exact .inr ⟨congrArg (Option.map _) answer,rfl⟩
  | some contents =>
    refine .inl ⟨_,congrArg (Option.map _) answer,?_⟩
    rw [List.length_append,List.length_take,List.length_map,List.length_drop,List.length_range]
    change min size kept.length + (size - kept.length) = size
    omega

/-- `vsnprintf` fills the room behind the bytes, if there is any. -/
theorem vsnprintf_blocked (bytes : Text) (m : Memory) (blocked : Blocked m)
    (within : m.buffer.sz ≤ m.buffer.allocSz) : ∃ next,
    vsnprintf m.buffer.allocSz m.buffer.sz bytes m = (.ok (),next) ∧ Blocked next ∧
      next.buffer.sz = m.buffer.sz ∧ next.buffer.allocSz = m.buffer.allocSz := by
  unfold vsnprintf
  by_cases full : m.buffer.allocSz = m.buffer.sz
  · exact ⟨m,if_pos full ▸ rfl,blocked,rfl,rfl⟩
  · rw [if_neg full,if_neg (Nat.not_lt_of_le within)]
    apply store_blocked _ m blocked
    rw [List.length_append,List.length_take,List.length_singleton]
    omega

/-- A formatted text grows the room until there is enough for it, or memory is exhausted. -/
theorem outFormatted_grows (heap : Heap) (size : Nat) (bytes : Text) (fuel : Nat) (m : Memory)
    (blocked : Blocked m) (within : m.buffer.sz ≤ m.buffer.allocSz) (positive : 0 < m.buffer.allocSz)
    (growing : Growing size (m.buffer.sz + bytes.length) m.buffer.allocSz)
    (enough : m.buffer.sz + bytes.length + 1 < m.buffer.allocSz + fuel) (some : 0 < fuel) :
    ∃ next, outFormatted heap bytes fuel m = (.ok (),next) ∧
      (Filled size (m.buffer.sz + bytes.length) 0 next ∨ Lost next ∧ ∃ n, heap n = none) := by
  induction fuel generalizing m with
  | zero => cases some
  | succ fuel ih =>
    obtain ⟨printed,ran,blocked',sz,alloc⟩ := vsnprintf_blocked bytes m blocked within
    unfold outFormatted
    rw [Prog.bind_ok _ (Prog.get_run m),Prog.bind_ok _ ran]
    by_cases truncated : m.buffer.allocSz ≤ m.buffer.sz + bytes.length
    · obtain ⟨larger,ran',sz',alloc',outcome⟩ := allocate_cases heap (printed.buffer.allocSz * 4)
        (printed.buffer.buff.getD []) printed
      rw [if_pos truncated,Prog.bind_ok _ (Prog.get_run printed),Prog.bind_ok _ ran',
        Prog.bind_ok _ (Prog.get_run larger)]
      rcases outcome with blocked'' | ⟨none,exhausted⟩
      · obtain ⟨block,buff,-⟩ := id blocked''
        rw [buff]
        obtain ⟨next,ran'',outcome⟩ := ih larger blocked'' (by omega) (by omega)
          (by rw [sz',sz,alloc',alloc]; exact growing.again truncated) (by omega) (by omega)
        rw [sz',sz] at outcome
        exact ⟨next,ran'',outcome⟩
      · rw [none]
        refine ⟨larger,rfl,.inr ⟨⟨none,?_⟩,_,exhausted⟩⟩
        rw [sz',alloc',sz,alloc]
        omega
    · rw [if_neg truncated]
      refine ⟨_,rfl,.inl ⟨blocked',?_,?_,?_,?_⟩⟩
      · change printed.buffer.sz + bytes.length = _
        rw [sz]
        rfl
      · change Growing size _ printed.buffer.allocSz
        rw [alloc]
        exact growing
      · change _ < printed.buffer.allocSz
        omega
      · change _ ≤ printed.buffer.allocSz
        omega

theorem out_run (heap : Heap) (size start n : Nat) (bytes : Text) (m : Memory)
    (filled : Filled size start n m) : ∃ next, (DumpCall.out bytes).run heap m = (.ok (),next) ∧
      (Filled size (start + n + bytes.length) 0 next ∨ Lost next ∧ ∃ n, heap n = none) := by
  have sz := filled.sz
  have more := filled.more
  obtain ⟨next,ran,outcome⟩ := outFormatted_grows heap size bytes
    (m.buffer.sz + bytes.length + 1) m filled.block (by rw [sz]; exact filled.within) (by omega)
    (by rw [sz,Nat.add_assoc]; exact filled.growing.later _) (by omega) (Nat.succ_pos _)
  rw [sz] at outcome
  exact ⟨next,ran,outcome⟩

theorem putc_run (size start n : Nat) (c : UInt8) (m : Memory) (filled : Filled size start n m) :
    (start + n < m.buffer.allocSz ∧ ∃ next, putc c m = (.ok (),next) ∧
      Filled size start (n + 1) next) ∨
    (¬start + n < m.buffer.allocSz ∧ putc c m = (.error .outside,m)) := by
  have sz := filled.sz
  unfold putc
  by_cases room : start + n < m.buffer.allocSz
  · obtain ⟨next,ran,blocked,sz',alloc⟩ := store_blocked [c] m filled.block
      (by rw [sz]; exact room)
    rw [Prog.bind_ok _ ran]
    refine .inl ⟨room,_,rfl,blocked,?_,?_,?_,?_⟩
    · change next.buffer.sz + 1 = _
      rw [sz',sz,Nat.add_assoc]
    · change Growing size start next.buffer.allocSz
      rw [alloc]
      exact filled.growing
    · change start < next.buffer.allocSz
      rw [alloc]
      exact filled.more
    · change start + (n + 1) ≤ next.buffer.allocSz
      omega
  · obtain ⟨block,buff,length⟩ := filled.block
    have outside : store [c] m = (.error .outside,m) := by
      unfold store
      rw [if_neg (List.cons_ne_nil c []),buff]
      dsimp only
      rw [if_neg (by rw [sz,length]; exact room)]
    rw [Prog.bind_error _ outside]
    exact .inr ⟨room,rfl⟩

/-- Nothing can be written any more. -/
theorem lost_run (heap : Heap) (call : DumpCall) (m : Memory) (lost : Lost m) :
    call.run heap m = (.error .nullWrite,m) := by
  cases call with
  | putc c => exact Prog.bind_error _ (store_lost [c] m lost (List.cons_ne_nil c []))
  | out bytes =>
    have below := lost.2
    have stopped : vsnprintf m.buffer.allocSz m.buffer.sz bytes m = (.error .nullWrite,m) := by
      unfold vsnprintf
      rw [if_neg (by omega),if_neg (by omega)]
      exact store_lost _ m lost (by simp)
    change outFormatted heap bytes (m.buffer.sz + bytes.length + 1) m = _
    unfold outFormatted
    rw [Prog.bind_ok _ (Prog.get_run m),Prog.bind_error _ stopped]

section
variable (heap : Heap) (m : Memory)

theorem staysInside_nil : StaysInside heap m [] ↔ m.buffer.sz ≤ m.buffer.allocSz := by
  constructor
  · intro stays
    exact stays.within [] [] m rfl rfl
  · intro within
    refine ⟨fun before c behind next split => ?_,fun before behind next split ran => ?_,
      fun before behind next split ran => ?_⟩
    · simp at split
    · obtain ⟨rfl,-⟩ := List.nil_eq_append_iff.mp split
      cases ran
      exact within
    · obtain ⟨rfl,-⟩ := List.nil_eq_append_iff.mp split
      cases ran

theorem staysInside_cons (call : DumpCall) (calls : List DumpCall) :
    StaysInside heap m (call::calls) ↔ m.buffer.sz ≤ m.buffer.allocSz ∧
      (∀ c, call = .putc c → m.buffer.sz < m.buffer.allocSz) ∧
      (∀ next, call.run heap m ≠ (.error .outside,next)) ∧
      ∀ next, call.run heap m = (.ok (),next) → StaysInside heap next calls := by
  have first (before : List DumpCall) (next : Memory) (ran : call.run heap m = (.ok (),next)) :
      runCalls heap (call::before) m = runCalls heap before next := Prog.bind_ok _ ran
  have fails (why : BufferFault) (next : Memory) (ran : call.run heap m = (.error why,next))
      (before : List DumpCall) : runCalls heap (call::before) m = (.error why,next) :=
    Prog.bind_error _ ran
  constructor
  · intro stays
    refine ⟨stays.within [] (call::calls) m rfl rfl,?_,?_,?_⟩
    · rintro c rfl
      exact stays.room [] c calls m rfl rfl
    · intro next ran
      exact stays.inside [call] calls next rfl (fails _ next ran [])
    · intro next ran
      refine ⟨fun before c behind last split ranLast => ?_,
        fun before behind last split ranLast => ?_,fun before behind last split ranLast => ?_⟩
      · exact stays.room (call::before) c behind last (congrArg (call :: ·) split)
          ((first before next ran).trans ranLast)
      · exact stays.within (call::before) behind last (congrArg (call :: ·) split)
          ((first before next ran).trans ranLast)
      · exact stays.inside (call::before) behind last (congrArg (call :: ·) split)
          ((first before next ran).trans ranLast)
  · rintro ⟨within,room,inside,rest⟩
    have step (before : List DumpCall) (outcome : Except BufferFault Unit) (last : Memory)
        (ran : runCalls heap (call::before) m = (outcome,last)) :
        (∃ next, call.run heap m = (.ok (),next) ∧ runCalls heap before next = (outcome,last)) ∨
          ∃ why, outcome = .error why ∧ call.run heap m = (.error why,last) := by
      rcases result : call.run heap m with ⟨answer,next⟩
      cases answer with
      | ok _ => exact .inl ⟨next,rfl,(first before next result).symm.trans ran⟩
      | error why =>
        obtain ⟨rfl,rfl⟩ := Prod.mk.inj ((fails why next result before).symm.trans ran)
        exact .inr ⟨why,rfl,rfl⟩
    refine ⟨fun before c behind last split ran => ?_,fun before behind last split ran => ?_,
      fun before behind last split ran => ?_⟩
    · cases before with
      | nil =>
        obtain ⟨rfl,-⟩ := List.cons.inj split
        cases ran
        exact room c rfl
      | cons other before =>
        obtain ⟨rfl,others⟩ := List.cons.inj split
        obtain ⟨next,ran',rest'⟩ | ⟨why,stopped,-⟩ := step before _ last ran
        · exact (rest next ran').room before c behind last others rest'
        · cases stopped
    · cases before with
      | nil =>
        cases ran
        exact within
      | cons other before =>
        obtain ⟨rfl,others⟩ := List.cons.inj split
        obtain ⟨next,ran',rest'⟩ | ⟨why,stopped,-⟩ := step before _ last ran
        · exact (rest next ran').within before behind last others rest'
        · cases stopped
    · cases before with
      | nil => cases ran
      | cons other before =>
        obtain ⟨rfl,others⟩ := List.cons.inj split
        obtain ⟨next,ran',rest'⟩ | ⟨why,stopped,ran'⟩ := step before _ last ran
        · exact (rest next ran').inside before behind last others rest'
        · obtain rfl := Except.error.inj stopped
          exact inside last ran'

theorem lost_stays (calls : List DumpCall) (lost : Lost m) : StaysInside heap m calls := by
  cases calls with
  | nil => exact (staysInside_nil heap m).mpr (Nat.le_of_lt lost.2)
  | cons call calls =>
    have ran := lost_run heap call m lost
    refine (staysInside_cons heap m call calls).mpr
      ⟨Nat.le_of_lt lost.2,fun _ _ => lost.2,fun next ran' => ?_,fun next ran' => ?_⟩
    · rw [ran] at ran'
      cases ran'
    · rw [ran] at ran'
      cases ran'

end

/-- Behind a formatted text that ends at `start` and `n` characters, each character that is put
is in front of the place where the buffer gets full next. -/
def Roomy (size : Nat) : Nat → Nat → List DumpCall → Prop
  | _, _, [] => True
  | start, n, .putc _ :: calls =>
    (∀ k, start < size * 4^k → start + n < size * 4^k) ∧ Roomy size start (n + 1) calls
  | start, n, .out bytes :: calls => Roomy size (start + n + bytes.length) 0 calls

theorem Filled.room_iff {size start n : Nat} {m : Memory} (filled : Filled size start n m) :
    start + n < m.buffer.allocSz ↔ ∀ k, start < size * 4^k → start + n < size * 4^k := by
  constructor
  · intro room k above
    exact Nat.lt_of_lt_of_le room (filled.growing.least k above)
  · intro room
    obtain ⟨j,times⟩ := filled.growing.times
    have more := filled.more
    rw [times] at more ⊢
    exact room j more

theorem roomy_stays (heap : Heap) (size : Nat) (calls : List DumpCall) (start n : Nat) (m : Memory)
    (filled : Filled size start n m) (roomy : Roomy size start n calls) :
    StaysInside heap m calls := by
  have within : m.buffer.sz ≤ m.buffer.allocSz := by
    rw [filled.sz]
    exact filled.within
  induction calls generalizing start n m with
  | nil => exact (staysInside_nil heap m).mpr within
  | cons call calls ih =>
    rw [staysInside_cons]
    cases call with
    | putc c =>
      have room := filled.room_iff.mpr roomy.1
      obtain ⟨-,next,ran,filled'⟩ | ⟨full,-⟩ := putc_run size start n c m filled
      · have same : (DumpCall.putc c).run heap m = (.ok (),next) := ran
        rw [same]
        refine ⟨within,fun _ _ => by rw [filled.sz]; exact room,by simp,fun last ran' => ?_⟩
        cases ran'
        exact ih start (n + 1) next filled' roomy.2 (by rw [filled'.sz]; exact filled'.within)
      · exact absurd room full
    | out bytes =>
      obtain ⟨next,ran,outcome⟩ := out_run heap size start n bytes m filled
      rw [ran]
      refine ⟨within,fun _ other => (nomatch other),by simp,fun last ran' => ?_⟩
      cases ran'
      rcases outcome with filled' | ⟨lost,-⟩
      · exact ih _ 0 next filled' roomy (by rw [filled'.sz]; exact filled'.within)
      · exact lost_stays heap next calls lost

/-- While memory lasts, nothing less will do. -/
theorem stays_roomy (contents : Contents) (size : Nat) (calls : List DumpCall) (start n : Nat)
    (m : Memory) (filled : Filled size start n m) (stays : StaysInside contents.heap m calls) :
    Roomy size start n calls := by
  induction calls generalizing start n m with
  | nil => trivial
  | cons call calls ih =>
    rw [staysInside_cons] at stays
    obtain ⟨-,room,-,rest⟩ := stays
    cases call with
    | putc c =>
      have more := room c rfl
      rw [filled.sz] at more
      obtain ⟨-,next,ran,filled'⟩ | ⟨full,-⟩ := putc_run size start n c m filled
      · exact ⟨filled.room_iff.mp more,ih start (n + 1) next filled' (rest next ran)⟩
      · exact absurd more full
    | out bytes =>
      obtain ⟨next,ran,filled' | ⟨-,place,exhausted⟩⟩ :=
        out_run contents.heap size start n bytes m filled
      · exact ih _ 0 next filled' (rest next ran)
      · cases exhausted

/-- Calls straddle a place where the buffer gets full, seen from behind `n` characters. -/
def StraddlesFrom (size start n : Nat) (calls : List DumpCall) : Prop :=
  (0 < n ∧ ∃ c behind k, calls = .putc c :: behind ∧ start + n = size * 4^k) ∨
  ∃ before c d behind k, calls = before ++ .putc c :: .putc d :: behind ∧
    start + n + (printedBy before).length + 1 = size * 4^k

section
variable (size start n : Nat)

theorem straddlesFrom_putc (c : UInt8) (calls : List DumpCall) :
    StraddlesFrom size start n (.putc c :: calls) ↔
      (0 < n ∧ ∃ k, start + n = size * 4^k) ∨ StraddlesFrom size start (n + 1) calls := by
  have printed (before : List DumpCall) :
      (printedBy (.putc c :: before)).length = (printedBy before).length + 1 := rfl
  constructor
  · rintro (⟨some_put,_,_,k,-,full⟩ | ⟨before,d,e,behind,k,split,full⟩)
    · exact .inl ⟨some_put,k,full⟩
    · cases before with
      | nil =>
        obtain ⟨-,rest⟩ := List.cons.inj split
        exact .inr (.inl ⟨Nat.succ_pos n,e,behind,k,rest,full⟩)
      | cons call before =>
        obtain ⟨rfl,rest⟩ := List.cons.inj split
        rw [printed] at full
        exact .inr (.inr ⟨before,d,e,behind,k,rest,by omega⟩)
  · rintro (⟨some_put,k,full⟩ | ⟨-,d,behind,k,rfl,full⟩ | ⟨before,d,e,behind,k,rfl,full⟩)
    · exact .inl ⟨some_put,c,calls,k,rfl,full⟩
    · exact .inr ⟨[],c,d,behind,k,rfl,full⟩
    · refine .inr ⟨.putc c :: before,d,e,behind,k,rfl,?_⟩
      rw [printed]
      omega

theorem straddlesFrom_out (bytes : Text) (calls : List DumpCall) :
    StraddlesFrom size start n (.out bytes :: calls) ↔
      StraddlesFrom size (start + n + bytes.length) 0 calls := by
  have printed (before : List DumpCall) :
      (printedBy (.out bytes :: before)).length = bytes.length + (printedBy before).length := by
    unfold printedBy
    rw [List.flatMap_cons,List.length_append]
    rfl
  constructor
  · rintro (⟨-,_,_,_,other,-⟩ | ⟨before,d,e,behind,k,split,full⟩)
    · cases other
    · cases before with
      | nil => cases split
      | cons call before =>
        obtain ⟨rfl,rest⟩ := List.cons.inj split
        rw [printed] at full
        exact .inr ⟨before,d,e,behind,k,rest,by omega⟩
  · rintro (⟨some_put,-⟩ | ⟨before,d,e,behind,k,rfl,full⟩)
    · cases some_put
    · refine .inr ⟨.out bytes :: before,d,e,behind,k,rfl,?_⟩
      rw [printed]
      omega

theorem roomy_iff (calls : List DumpCall) (ahead : ∀ k, start < size * 4^k → start + n ≤ size * 4^k) :
    Roomy size start n calls ↔ ¬StraddlesFrom size start n calls := by
  induction calls generalizing start n with
  | nil =>
    refine iff_of_true trivial ?_
    rintro (⟨-,_,_,_,other,-⟩ | ⟨before,_,_,_,_,other,-⟩)
    · cases other
    · simp at other
  | cons call calls ih =>
    cases call with
    | putc c =>
      rw [straddlesFrom_putc,not_or]
      have here : (∀ k, start < size * 4^k → start + n < size * 4^k) ↔
          ¬(0 < n ∧ ∃ k, start + n = size * 4^k) := by
        constructor
        · rintro room ⟨some_put,k,full⟩
          have below := room k (by omega)
          omega
        · intro apart k above
          refine Nat.lt_of_le_of_ne (ahead k above) fun full => apart ⟨?_,k,full⟩
          omega
      constructor
      · rintro ⟨room,rest⟩
        exact ⟨here.mp room,(ih start (n + 1) room).mp rest⟩
      · rintro ⟨apart,rest⟩
        have room := here.mpr apart
        exact ⟨room,(ih start (n + 1) room).mpr rest⟩
    | out bytes =>
      rw [straddlesFrom_out]
      exact ih _ 0 fun k above => Nat.le_of_lt above

end

theorem straddles_iff (size : Nat) (calls : List DumpCall) :
    StraddlesFrom size 0 0 calls ↔ Straddles size calls := by
  unfold StraddlesFrom Straddles
  simp only [Nat.lt_irrefl,false_and,false_or,Nat.zero_add]

theorem init_filled (heap : Heap) (size : Nat) (positive : 0 < size) (m : Memory) :
    Filled size 0 0 (init heap size m).2 ∨
      Lost (init heap size m).2 ∧ heap m.allocations = none := by
  obtain ⟨next,ran,-,alloc,outcome⟩ := allocate_cases heap size [] m
  have same : (init heap size m).2 = {next with buffer := {next.buffer with sz := 0}} := by
    unfold init
    rw [Prog.bind_ok _ ran]
    rfl
  rw [same]
  rcases outcome with blocked | ⟨none,exhausted⟩
  · refine .inl ⟨blocked,rfl,?_,?_,Nat.zero_le _⟩
    · change Growing size 0 next.buffer.allocSz
      rw [alloc]
      exact Growing.first size 0
    · change 0 < next.buffer.allocSz
      omega
  · refine .inr ⟨⟨none,?_⟩,exhausted⟩
    change 0 < next.buffer.allocSz
    omega

/-- Calls stay inside a buffer, however much memory there is, exactly if no two characters in
a row are put where it gets full. -/
theorem stays_iff (size : Nat) (positive : 0 < size) (calls : List DumpCall) :
    (∀ heap m, StaysInside heap (init heap size m).2 calls) ↔ ¬Straddles size calls := by
  rw [← straddles_iff,← roomy_iff size 0 0 calls fun k above => Nat.le_of_lt above]
  constructor
  · intro stays
    have contents : Contents := fun _ _ => 0
    have initial : Memory := ⟨.new,0⟩
    rcases init_filled contents.heap size positive initial with filled | ⟨-,exhausted⟩
    · exact stays_roomy contents size calls 0 0 _ filled (stays contents.heap initial)
    · cases exhausted
  · intro roomy heap m
    rcases init_filled heap size positive m with filled | ⟨lost,-⟩
    · exact roomy_stays heap size calls 0 0 _ filled roomy
    · exact lost_stays heap _ calls lost

/-- `ndb_dump_format_handler` prints the source of a format inside its buffer of 8192 bytes
exactly if no two characters of a source string lie next to each other where the buffer gets
full. -/
theorem dump_inside_iff (f : OutputFormat) :
    (∀ heap m, StaysInside heap (init heap 8192 m).2 f.dumpSource) ↔ ¬Straddles 8192 f.dumpSource :=
  stays_iff 8192 (by decide) f.dumpSource

/-- Characters that are put one after the other, to both sides of a place where the buffer gets
full. -/
theorem run_straddles (size k : Nat) (before behind : List DumpCall) (bytes : Text)
    (first : (printedBy before).length < size * 4^k)
    (last : size * 4^k < (printedBy before).length + bytes.length) :
    Straddles size (before ++ bytes.map DumpCall.putc ++ behind) := by
  obtain ⟨i,place⟩ := Nat.exists_eq_add_of_lt first
  have inside : i + 1 < bytes.length := by omega
  have split : bytes = bytes.take i ++ bytes[i] :: bytes[i + 1] :: bytes.drop (i + 2) := by
    rw [← List.drop_eq_getElem_cons,← List.drop_eq_getElem_cons,List.take_append_drop]
  have printed : printedBy ((bytes.take i).map DumpCall.putc) = bytes.take i := by
    unfold printedBy
    rw [List.flatMap_map]
    exact List.flatMap_singleton' _
  refine ⟨before ++ (bytes.take i).map DumpCall.putc,bytes[i],bytes[i + 1],
    (bytes.drop (i + 2)).map DumpCall.putc ++ behind,k,?_,?_⟩
  · conv_lhs => rw [split]
    simp only [List.map_append,List.map_cons,List.append_assoc,List.cons_append]
  · have appended : printedBy (before ++ (bytes.take i).map DumpCall.putc) =
        printedBy before ++ bytes.take i := by
      unfold printedBy at printed ⊢
      rw [List.flatMap_append,printed]
    rw [appended,List.length_append,List.length_take]
    omega

def textFormat (source : Text) : OutputFormat :=
  {OutputFormat.new (text "X") with
    topNode := some 0,
    nodes := [⟨text "_main",.mainLoop,source,none,.no⟩]}

theorem textFormat_dump (source : Text) : ∃ behind, (textFormat source).dumpSource =
    [.out (text "<ResultFormat \"X\">\n"),.out (text "    Format  X = "),.putc apostrophe] ++
      source.flatMap escapeChar ++ behind := by
  refine ⟨.putc apostrophe :: .out (text "\n") :: ((textFormat source).named.flatMap
    (Node.dumpSource · (text "X")) ++ [.out (text "</ResultFormat>\n\n")]),?_⟩
  have top : (((textFormat source).topNode.bind fun id => (textFormat source).nodes[id]?).toList.flatMap
      (Node.dumpSource · (text "X"))) = .out (text "    Format  X = ") ::
        (escapeConfStr source ++ [.out (text "\n")]) := List.append_nil _
  unfold OutputFormat.dumpSource
  rw [if_neg (show ¬(textFormat source).isRaw = true from Bool.false_ne_true)]
  change DumpCall.out (text "<ResultFormat \"X\">\n") :: (_ ++ (_ ++ _)) = _
  rw [show (textFormat source).name = text "X" from rfl,top]
  unfold escapeConfStr
  simp only [List.cons_append,List.append_assoc,List.nil_append]

/-- A text of 8170 letters, in a line that is not too long for the server. -/
theorem long_source_overflows : ¬∀ heap m,
    StaysInside heap (init heap 8192 m).2 (textFormat (List.replicate 8170 (code 'a'))).dumpSource := by
  have letters : (List.replicate 8170 (code 'a')).flatMap escapeChar =
      (List.replicate 8170 (code 'a')).map DumpCall.putc := by
    rw [List.map_eq_flatMap]
    refine List.flatMap_congr fun c inside => ?_
    rw [List.eq_of_mem_replicate inside]
    decide
  obtain ⟨behind,same⟩ := textFormat_dump (List.replicate 8170 (code 'a'))
  rw [stays_iff 8192 (by decide),not_not,same,letters]
  apply run_straddles 8192 0
  · decide
  · rw [List.length_replicate]
    decide

end ModNdb.Format
