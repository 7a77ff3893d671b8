import ModNdb.Format.Buffer

/-! What stands in the block of a buffer after it has been written to, while memory lasts. -/
namespace ModNdb.Format

/-- A process that does not run out of memory, with what is in its blocks. -/
abbrev Contents := Nat → Nat → UInt8

def Contents.heap (contents : Contents) : Heap := fun n => some (contents n)

def Contents.Gives (contents : Contents) (byte : UInt8) : Prop := ∃ n place, contents n place = byte

def Beyond (contents : Contents) (n : Nat) (tail : Text) : Prop :=
  ∀ byte ∈ tail.drop n, contents.Gives byte

def Behind (contents : Contents) (nul : Bool) (tail : Text) : Prop :=
  if nul then tail.head? = some 0 ∧ Beyond contents 1 tail else Beyond contents 0 tail

structure Has (behind : Text → Prop) (page : Text) (m : Memory) : Prop where
  block : ∃ tail, m.buffer.buff = some (page ++ tail) ∧
    m.buffer.allocSz = page.length + tail.length ∧ behind tail
  sz : m.buffer.sz = page.length
  positive : 0 < m.buffer.allocSz

section
variable (contents : Contents)

theorem beyond_append (n : Nat) (tail more : Text) (beyond : Beyond contents n tail)
    (given : ∀ byte ∈ more, contents.Gives byte) : Beyond contents n (tail ++ more) := by
  intro byte inside
  rw [List.drop_append] at inside
  exact (List.mem_append.mp inside).elim (beyond byte) fun later =>
    given byte (List.mem_of_mem_drop later)

theorem beyond_drop (n k : Nat) (tail : Text) (beyond : Beyond contents n tail) (far : n ≤ k) :
    Beyond contents k tail := by
  intro byte inside
  obtain ⟨d,rfl⟩ := Nat.exists_eq_add_of_le far
  rw [← List.drop_drop] at inside
  exact beyond byte (List.mem_of_mem_drop inside)

theorem behind_append (nul : Bool) (tail more : Text) (behind : Behind contents nul tail)
    (given : ∀ byte ∈ more, contents.Gives byte) : Behind contents nul (tail ++ more) := by
  cases nul with
  | true =>
    refine ⟨?_,beyond_append contents 1 tail more behind.2 given⟩
    rw [List.head?_append,behind.1]
    rfl
  | false => exact beyond_append contents 0 tail more behind given

theorem behind_beyond (nul : Bool) (tail : Text) (behind : Behind contents nul tail) (n : Nat)
    (some : 0 < n) : Beyond contents n tail := by
  cases nul with
  | true => exact beyond_drop contents 1 n tail behind.2 some
  | false => exact beyond_drop contents 0 n tail behind (Nat.zero_le n)

variable (behind : Text → Prop)
  (grows : ∀ tail more, behind tail → (∀ byte ∈ more, contents.Gives byte) → behind (tail ++ more))
  (page : Text) (m : Memory) (has : Has behind page m)

include grows has in
theorem allocate_has (size : Nat) (more : m.buffer.allocSz ≤ size) : ∃ next,
    allocate contents.heap size (m.buffer.buff.getD []) m = (.ok (),next) ∧
      Has behind page next ∧ next.buffer.allocSz = size := by
  obtain ⟨⟨tail,block,alloc,stands⟩,sz,positive⟩ := has
  refine ⟨_,rfl,⟨⟨tail ++ ((List.range size).drop (page ++ tail).length).map
    (contents m.allocations),?_,?_,?_⟩,sz,Nat.lt_of_lt_of_le positive more⟩,rfl⟩
  · rw [block,Option.getD_some,List.take_of_length_le (by rw [List.length_append]; omega),
      ← List.append_assoc]
    rfl
  · rw [List.length_append,List.length_map,List.length_drop,List.length_range,List.length_append]
    change size = _
    omega
  · apply grows tail _ stands
    intro byte inside
    obtain ⟨place,_,same⟩ := List.mem_map.mp inside
    exact ⟨_,place,same⟩

include grows has in
theorem prepare_has (len : Nat) : ∃ next, prepare contents.heap len m = (.ok true,next) ∧
    Has behind page next ∧ page.length + len ≤ next.buffer.allocSz := by
  unfold prepare
  rw [Prog.bind_ok _ (Prog.get_run m)]
  by_cases short : m.buffer.allocSz < m.buffer.sz + len
  · have positive := has.positive
    have enough : m.buffer.sz + len < m.buffer.allocSz * ((m.buffer.sz + len) / m.buffer.allocSz + 1) :=
      Nat.lt_mul_div_succ _ positive
    obtain ⟨next,ran,has',size⟩ := allocate_has contents behind grows page m has _
      (Nat.le_of_lt (Nat.lt_trans short enough))
    obtain ⟨tail,block,_⟩ := has'.block
    dsimp only
    rw [if_pos short,if_neg (Nat.ne_of_gt positive),Prog.bind_ok _ ran,
      Prog.bind_ok _ (Prog.get_run next),block]
    refine ⟨next,rfl,has',?_⟩
    rw [size,← has.sz]
    exact Nat.le_of_lt enough
  · dsimp only
    rw [if_neg short]
    refine ⟨m,rfl,has,?_⟩
    rw [← has.sz]
    exact Nat.le_of_not_lt short

include has in
theorem store_run (bytes : Text) (room : page.length + bytes.length ≤ m.buffer.allocSz) :
    ∃ next tail, store bytes m = (.ok (),next) ∧ behind tail ∧
      next.buffer.buff = some (page ++ (bytes ++ tail.drop bytes.length)) ∧
      next.buffer.allocSz = page.length + (bytes ++ tail.drop bytes.length).length ∧
      next.buffer.allocSz = m.buffer.allocSz ∧ next.buffer.sz = page.length := by
  obtain ⟨⟨tail,block,alloc,stands⟩,sz,positive⟩ := has
  have length : m.buffer.allocSz = page.length + (bytes ++ tail.drop bytes.length).length := by
    rw [List.length_append,List.length_drop]
    omega
  unfold store
  by_cases empty : bytes = []
  · subst empty
    exact ⟨m,tail,if_pos rfl,stands,block,length,rfl,sz⟩
  · have fits : m.buffer.sz + bytes.length ≤ (page ++ tail).length := by
      rw [List.length_append]
      omega
    rw [if_neg empty,block]
    dsimp only
    rw [if_pos fits]
    refine ⟨_,tail,rfl,stands,?_,length,rfl,sz⟩
    unfold overwritten
    rw [sz,List.take_left,List.drop_length_add_append]

end

section
variable (contents : Contents)

theorem stored_has (behind : Text → Prop) (page bytes : Text) (m : Memory) (has : Has behind page m)
    (room : page.length + bytes.length ≤ m.buffer.allocSz) : ∃ next,
    (do store bytes; advance bytes.length : Buffering Unit) m = (.ok (),next) ∧
      next.buffer.allocSz = m.buffer.allocSz ∧
      Has (fun rest => ∃ tail, behind tail ∧ rest = tail.drop bytes.length) (page ++ bytes) next := by
  obtain ⟨next,tail,ran,stands,block,length,alloc,sz⟩ := store_run behind page m has bytes room
  refine ⟨_,Prog.bind_ok _ ran,alloc,⟨tail.drop bytes.length,?_,?_,tail,stands,rfl⟩,?_,?_⟩
  · exact block.trans (congrArg some (List.append_assoc _ _ _).symm)
  · change next.buffer.allocSz = _
    rw [length,List.length_append,List.length_append]
    omega
  · change next.buffer.sz + bytes.length = _
    rw [sz,List.length_append]
  · exact alloc ▸ has.positive

/-- What is left behind a text that is not empty is what was in the block before. -/
theorem rest_behind (nul : Bool) (bytes tail : Text) (stands : Behind contents nul tail) :
    Behind contents (nul && bytes.isEmpty) (tail.drop bytes.length) := by
  cases bytes with
  | nil =>
    rw [List.isEmpty_nil,Bool.and_true]
    exact stands
  | cons c bytes =>
    rw [List.isEmpty_cons,Bool.and_false]
    exact behind_beyond contents nul tail stands _ (Nat.succ_pos bytes.length)

theorem rest_has (nul : Bool) (bytes page : Text) (m : Memory)
    (has : Has (fun rest => ∃ tail, Behind contents nul tail ∧ rest = tail.drop bytes.length) page m) :
    Has (Behind contents (nul && bytes.isEmpty)) page m := by
  obtain ⟨⟨_,block,length,tail,stands,rfl⟩,sz,positive⟩ := has
  exact ⟨⟨_,block,length,rest_behind contents nul bytes tail stands⟩,sz,positive⟩

section
variable (page : Text) (nul : Bool) (m : Memory) (has : Has (Behind contents nul) page m)
include has

theorem outBytes_has (bytes : Text) : ∃ next, outBytes contents.heap bytes m = (.ok (),next) ∧
    Has (Behind contents (nul && bytes.isEmpty)) (page ++ bytes) next := by
  unfold outBytes
  by_cases empty : bytes = []
  · subst empty
    rw [if_pos rfl,List.append_nil,List.isEmpty_nil,Bool.and_true]
    exact ⟨m,rfl,has⟩
  · obtain ⟨prepared,ran,has',room⟩ := prepare_has contents _ (behind_append contents nul) page m has
      bytes.length
    obtain ⟨next,ran',_,has''⟩ := stored_has _ page bytes prepared has' room
    rw [if_neg empty,Prog.bind_ok _ ran]
    exact ⟨next,ran',rest_has contents nul bytes _ next has''⟩

theorem readBlob_has (bytes : Text) : ∃ next, readBlob contents.heap bytes m = (.ok (),next) ∧
    Has (Behind contents (nul && bytes.isEmpty)) (page ++ bytes) next := by
  obtain ⟨prepared,ran,has',room⟩ := prepare_has contents _ (behind_append contents nul) page m has
    bytes.length
  obtain ⟨next,ran',_,has''⟩ := stored_has _ page bytes prepared has' room
  unfold readBlob
  rw [Prog.bind_ok _ ran]
  exact ⟨next,ran',rest_has contents nul bytes _ next has''⟩

theorem putc_has (c : UInt8) (room : page.length + 1 ≤ m.buffer.allocSz) : ∃ next,
    putc c m = (.ok (),next) ∧ next.buffer.allocSz = m.buffer.allocSz ∧
      Has (Behind contents false) (page ++ [c]) next := by
  obtain ⟨next,ran,alloc,has'⟩ := stored_has _ page [c] m has room
  have has'' := rest_has contents nul [c] _ next has'
  rw [List.isEmpty_cons,Bool.and_false] at has''
  exact ⟨next,ran,alloc,has''⟩

end

theorem putcs_have (bytes page : Text) (nul : Bool) (m : Memory)
    (has : Has (Behind contents nul) page m) (room : page.length + bytes.length ≤ m.buffer.allocSz) :
    ∃ next, bytes.forM putc m = (.ok (),next) ∧
      Has (Behind contents (nul && bytes.isEmpty)) (page ++ bytes) next := by
  induction bytes generalizing page nul m with
  | nil =>
    rw [List.append_nil,List.isEmpty_nil,Bool.and_true]
    exact ⟨m,rfl,has⟩
  | cons c bytes ih =>
    rw [List.length_cons] at room
    obtain ⟨middle,ran,alloc,has'⟩ := putc_has contents page nul m has c (by omega)
    obtain ⟨next,ran',has''⟩ := ih (page ++ [c]) false middle has' (by
      rw [alloc,List.length_append,List.length_singleton]
      omega)
    have whole : (List.forM (c::bytes) putc) m = (bytes.forM putc) middle := Prog.bind_ok _ ran
    rw [Bool.false_and] at has''
    rw [whole,List.isEmpty_cons,Bool.and_false,List.append_cons]
    exact ⟨next,ran',has''⟩

theorem outEscaped_has (page : Text) (nul : Bool) (m : Memory)
    (has : Has (Behind contents nul) page m) (bytes : Text) :
    ∃ next, outEscaped contents.heap bytes m = (.ok (),next) ∧
      Has (Behind contents (nul && bytes.isEmpty)) (page ++ bytes) next := by
  obtain ⟨prepared,ran,has',room⟩ := prepare_has contents _ (behind_append contents nul) page m has
    bytes.length
  unfold outEscaped
  rw [Prog.bind_ok _ ran]
  exact putcs_have contents bytes page nul prepared has' room

/-- A text is stored with a NUL behind it, which is not counted. -/
theorem printed_has (page bytes : Text) (m : Memory)
    (has : Has (Beyond contents (bytes.length + 1)) page m)
    (room : page.length + bytes.length < m.buffer.allocSz) : ∃ next,
    (do store (bytes ++ [0]); advance bytes.length : Buffering Unit) m = (.ok (),next) ∧
      Has (Behind contents true) (page ++ bytes) next := by
  have length : (bytes ++ [(0 : UInt8)]).length = bytes.length + 1 := List.length_append
  obtain ⟨next,tail,ran,beyond,block,whole,alloc,sz⟩ := store_run _ page m has (bytes ++ [0])
    (by omega)
  rw [length] at block whole
  refine ⟨_,Prog.bind_ok _ ran,⟨0::tail.drop (bytes.length + 1),?_,?_,rfl,beyond⟩,?_,?_⟩
  · exact block.trans (congrArg some (by simp))
  · change next.buffer.allocSz = _
    rw [whole]
    simp only [List.length_append,List.length_cons,List.length_nil,List.length_drop]
    omega
  · change next.buffer.sz + bytes.length = _
    rw [sz,List.length_append]
  · exact alloc ▸ has.positive

theorem outDecimal_has (page : Text) (nul : Bool) (m : Memory)
    (has : Has (Behind contents nul) page m) (bytes : Text) (spare : Nat) :
    ∃ next, outDecimal contents.heap (bytes.length + 1 + spare) bytes m = (.ok (),next) ∧
      Has (Behind contents true) (page ++ bytes) next := by
  obtain ⟨prepared,ran,⟨⟨tail,block,length,stands⟩,sz,positive⟩,room⟩ :=
    prepare_has contents _ (behind_append contents nul) page m has (bytes.length + 1 + spare)
  obtain ⟨next,ran',has'⟩ := printed_has contents page bytes prepared ⟨⟨tail,block,length,
    behind_beyond contents nul tail stands _ (Nat.succ_pos _)⟩,sz,positive⟩ (by omega)
  unfold outDecimal
  rw [Prog.bind_ok _ ran]
  exact ⟨next,ran',has'⟩

theorem truncated_has (page bytes : Text) (m : Memory)
    (has : Has (Beyond contents (bytes.length + 1)) page m)
    (truncated : m.buffer.allocSz ≤ page.length + bytes.length) : ∃ next,
    vsnprintf m.buffer.allocSz m.buffer.sz bytes m = (.ok (),next) ∧
      next.buffer.allocSz = m.buffer.allocSz ∧ Has (Beyond contents (bytes.length + 1)) page next := by
  have sz := has.sz
  obtain ⟨tail,_,length,_⟩ := has.block
  unfold vsnprintf
  by_cases full : m.buffer.allocSz = m.buffer.sz
  · rw [if_pos full]
    exact ⟨m,rfl,rfl,has⟩
  rw [if_neg full,if_neg (by omega)]
  have stored : (bytes.take (m.buffer.allocSz - m.buffer.sz - 1) ++ [(0 : UInt8)]).length =
      m.buffer.allocSz - page.length := by
    rw [List.length_append,List.length_take,List.length_singleton]
    omega
  obtain ⟨next,tail',ran,_,block,whole,alloc,sz'⟩ := store_run _ page m has
    (bytes.take (m.buffer.allocSz - m.buffer.sz - 1) ++ [0]) (by omega)
  refine ⟨next,ran,alloc,⟨_,block,whole,?_⟩,sz',alloc ▸ has.positive⟩
  intro byte inside
  rw [List.drop_of_length_le (by omega)] at inside
  cases inside

/-- Every round of the loop has more room, and the last one has enough of it. -/
theorem outFormatted_has (page bytes : Text) (fuel : Nat) (m : Memory)
    (has : Has (Beyond contents (bytes.length + 1)) page m)
    (enough : page.length + bytes.length + 1 < m.buffer.allocSz + fuel) (some : 0 < fuel) :
    ∃ next, outFormatted contents.heap bytes fuel m = (.ok (),next) ∧
      Has (Behind contents true) (page ++ bytes) next := by
  induction fuel generalizing m with
  | zero => cases some
  | succ fuel ih =>
    have sz := has.sz
    have positive := has.positive
    have grows : ∀ tail more, Beyond contents (bytes.length + 1) tail →
        (∀ byte ∈ more, contents.Gives byte) → Beyond contents (bytes.length + 1) (tail ++ more) :=
      beyond_append contents (bytes.length + 1)
    unfold outFormatted
    rw [Prog.bind_ok _ (Prog.get_run m)]
    by_cases truncated : m.buffer.allocSz ≤ m.buffer.sz + bytes.length
    · obtain ⟨next,ran,alloc,has'⟩ := truncated_has contents page bytes m has (by omega)
      obtain ⟨larger,ran',has'',size⟩ := allocate_has contents _ grows page next has'
        (next.buffer.allocSz * 4) (by omega)
      obtain ⟨tail,block,_⟩ := has''.block
      obtain ⟨last,ran'',ends⟩ := ih larger has'' (by omega) (by omega)
      rw [Prog.bind_ok _ ran,if_pos truncated,Prog.bind_ok _ (Prog.get_run next),
        Prog.bind_ok _ ran',Prog.bind_ok _ (Prog.get_run larger),block]
      exact ⟨last,ran'',ends⟩
    · obtain ⟨next,ran,ends⟩ := printed_has contents page bytes m has (by omega)
      have fits : bytes.take (m.buffer.allocSz - m.buffer.sz - 1) = bytes :=
        List.take_of_length_le (by omega)
      unfold vsnprintf
      rw [if_neg truncated,if_neg (by omega),if_neg (by omega),fits]
      exact ⟨next,ran,ends⟩

/-- A write adds to the page, and leaves a NUL behind it or does not. -/
theorem Write.run_has (write : Write) (page : Text) (nul : Bool) (m : Memory)
    (has : Has (Behind contents nul) page m) : ∃ next, write.run contents.heap m = (.ok (),next) ∧
      Has (Behind contents (write.terminates nul)) (page ++ write.bytes) next := by
  cases write with
  | copied bytes => exact outBytes_has contents page nul m has bytes
  | formatted bytes =>
    obtain ⟨⟨tail,block,length,stands⟩,sz,positive⟩ := has
    exact outFormatted_has contents page bytes _ m ⟨⟨tail,block,length,
      behind_beyond contents nul tail stands _ (Nat.succ_pos _)⟩,sz,positive⟩ (by omega)
      (Nat.succ_pos _)
  | decimal bytes spare => exact outDecimal_has contents page nul m has bytes spare
  | escaped bytes => exact outEscaped_has contents page nul m has bytes

theorem writes_have (writes : List Write) (page : Text) (nul : Bool) (m : Memory)
    (has : Has (Behind contents nul) page m) :
    ∃ next, writes.forM (Write.run contents.heap) m = (.ok (),next) ∧
      Has (Behind contents (writes.foldl Write.terminates nul)) (page ++ pageOf writes) next := by
  induction writes generalizing page nul m with
  | nil => exact ⟨m,rfl,by rw [pageOf,List.flatMap_nil,List.append_nil]; exact has⟩
  | cons write writes ih =>
    obtain ⟨middle,ran,has'⟩ := write.run_has contents page nul m has
    obtain ⟨next,ran',has''⟩ := ih _ _ middle has'
    refine ⟨next,(Prog.bind_ok _ ran).trans ran',?_⟩
    rw [pageOf,List.flatMap_cons,← List.append_assoc]
    exact has''

theorem init_has (size : Nat) (positive : 0 < size) (m : Memory) :
    ∃ next, init contents.heap size m = (.ok (),next) ∧ Has (Behind contents false) [] next := by
  refine ⟨_,rfl,⟨([] : Text).take size ++ ((List.range size).drop 0).map (contents m.allocations),
    rfl,?_,?_⟩,rfl,positive⟩
  · simp only [List.take_nil,List.nil_append,List.length_map,List.drop_zero,List.length_range,
      List.length_nil,Nat.zero_add]
  · intro byte inside
    rw [List.take_nil,List.nil_append] at inside
    obtain ⟨place,_,same⟩ := List.mem_map.mp (List.mem_of_mem_drop inside)
    exact ⟨_,place,same⟩

end

end ModNdb.Format
