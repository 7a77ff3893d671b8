import ModNdb.Format.Room

/-! Whatever is done to a `result_buffer`, in any order: while memory lasts, the buffer is a log
of what was written to it. -/
namespace ModNdb.Format
open Prog

/-- A method of `result_buffer`, with what it is called for. -/
inductive BufferOp
  | init (size : Nat)
  | prepare (len : Nat)
  | outBytes (s : Text)
  | outFormatted (bytes : Text)
  | outDecimal (bytes : Text) (spare : Nat)
  | putc (c : UInt8)
  | readBlob (bytes : Text)
  deriving DecidableEq

section
variable (heap : Heap)

def BufferOp.run : BufferOp → Buffering Unit
  | .init size => Format.init heap size
  | .prepare len => do let _ ← Format.prepare heap len
  | .outBytes s => Format.outBytes heap s
  | .outFormatted bytes => (Write.formatted bytes).run heap
  | .outDecimal bytes spare => (Write.decimal bytes spare).run heap
  | .putc c => Format.putc c
  | .readBlob bytes => Format.readBlob heap bytes

def runOps (ops : List BufferOp) : Buffering Unit := ops.forM (BufferOp.run heap)

end

/-- What a buffer is for: the bytes written since it was initialised, and the length up to which
there is room for single characters. -/
structure Log where
  written : Text
  room : Nat
  deriving DecidableEq

def Log.empty : Log := ⟨[],0⟩

def Log.write (log : Log) (bytes : Text) : Log := {log with written := log.written ++ bytes}

/-- A character is put where room was made for it before. -/
def Log.step (log : Log) : BufferOp → Option Log
  | .init size => if 0 < size then some .empty else none
  | .prepare len => some {log with room := max log.room (log.written.length + len)}
  | .outBytes s => some (log.write s)
  | .outFormatted bytes => some (log.write bytes)
  | .outDecimal bytes _ => some (log.write bytes)
  | .putc c => if log.written.length < log.room then some (log.write [c]) else none
  | .readBlob bytes => some (log.write bytes)

def Log.steps : Log → List BufferOp → Option Log
  | log, [] => some log
  | log, op::ops => (log.step op).bind (·.steps ops)

def BufferOp.bytes : BufferOp → Text
  | .init _ => []
  | .prepare _ => []
  | .outBytes s => s
  | .outFormatted bytes => bytes
  | .outDecimal bytes _ => bytes
  | .putc c => [c]
  | .readBlob bytes => bytes

theorem steps_append (log : Log) (ops more : List BufferOp) :
    log.steps (ops ++ more) = (log.steps ops).bind (·.steps more) := by
  induction ops generalizing log with
  | nil => rfl
  | cons op ops ih =>
    change (log.step op).bind (·.steps (ops ++ more)) =
      ((log.step op).bind (·.steps ops)).bind (·.steps more)
    rw [Option.bind_assoc]
    exact congrArg _ (funext ih)

theorem step_written (log after : Log) (op : BufferOp) (other : ∀ size, op ≠ .init size)
    (stepped : log.step op = some after) : after.written = log.written ++ op.bytes := by
  cases op with
  | init size => exact absurd rfl (other size)
  | prepare len =>
    cases stepped
    exact (List.append_nil _).symm
  | putc c =>
    obtain ⟨-,same⟩ := Option.ite_none_right_eq_some.mp stepped
    cases same
    rfl
  | _ =>
    cases stepped
    rfl

theorem steps_written (ops : List BufferOp) (log after : Log) (others : ∀ size, .init size ∉ ops)
    (stepped : log.steps ops = some after) :
    after.written = log.written ++ ops.flatMap BufferOp.bytes := by
  induction ops generalizing log with
  | nil =>
    cases stepped
    exact (List.append_nil _).symm
  | cons op ops ih =>
    obtain ⟨middle,first,rest⟩ := Option.bind_eq_some_iff.mp stepped
    rw [ih middle (fun size inside => others size (List.mem_cons_of_mem op inside)) rest,
      step_written log middle op (fun size same => others size (same ▸ List.mem_cons_self)) first,
      List.flatMap_cons,List.append_assoc]

/-- The block has the bytes of the log in front, and room for what may be put. -/
structure Memory.Holds (m : Memory) (log : Log) : Prop where
  block : ∃ block, m.buffer.buff = some block ∧ block.length = m.buffer.allocSz ∧
    block.take m.buffer.sz = log.written
  sz : m.buffer.sz = log.written.length
  within : m.buffer.sz ≤ m.buffer.allocSz
  positive : 0 < m.buffer.allocSz
  room : log.room ≤ m.buffer.allocSz

section
variable (heap : Heap) {n : Nat}

def Roomed (n : Nat) (m : Memory) : Prop := n ≤ m.buffer.allocSz

theorem store_roomed (bytes : Text) : Keeps (Roomed n) (store bytes) := by
  intro m roomed
  unfold store
  split
  · exact roomed
  · split
    · exact roomed
    · dsimp only
      split <;> exact roomed

theorem advance_roomed (len : Nat) : Keeps (Roomed n) (advance len) :=
  Keeps.modify _ fun _ roomed => roomed

theorem allocate_roomed (size : Nat) (kept : Text) (m : Memory) (more : n ≤ size) :
    Roomed n (allocate heap size kept m).2 := more

theorem prepare_roomed (len : Nat) : Keeps (Roomed n) (prepare heap len) := by
  intro m roomed
  unfold prepare
  rw [bind_ok _ (get_run m)]
  dsimp only
  split
  · split
    · exact roomed
    · have more : n ≤ m.buffer.allocSz * ((m.buffer.sz + len) / m.buffer.allocSz + 1) :=
        Nat.le_trans roomed (Nat.le_mul_of_pos_right _ (Nat.succ_pos _))
      exact bind_keeps (allocate_roomed heap _ _ m more) fun _ => Keeps.get fun _ => Keeps.pure _
  · exact roomed

theorem vsnprintf_roomed (allocSz sz : Nat) (bytes : Text) :
    Keeps (Roomed n) (vsnprintf allocSz sz bytes) :=
  Keeps.ite (fun _ => Keeps.pure _) fun _ =>
    Keeps.ite (fun _ => store_roomed _) fun _ => store_roomed _

theorem outFormatted_roomed (bytes : Text) (fuel : Nat) :
    Keeps (Roomed n) (outFormatted heap bytes fuel) := by
  induction fuel with
  | zero => exact Keeps.fail _
  | succ fuel ih =>
    unfold outFormatted
    refine Keeps.get fun m => (vsnprintf_roomed _ _ bytes).bind fun _ =>
      Keeps.ite (fun _ => ?_) fun _ => advance_roomed _
    intro next roomed
    rw [bind_ok _ (get_run next)]
    have more : n ≤ next.buffer.allocSz * 4 := Nat.le_trans roomed (Nat.le_mul_of_pos_right _ (by decide))
    exact bind_keeps (allocate_roomed heap _ _ next more) fun _ => Keeps.get fun _ =>
      Keeps.ite (fun _ => ih) fun _ => Keeps.pure _

/-- Only `init` may leave less room than there was. -/
theorem run_roomed (op : BufferOp) (other : ∀ size, op ≠ .init size) :
    Keeps (Roomed n) (op.run heap) := by
  cases op with
  | init size => exact absurd rfl (other size)
  | prepare len => exact (prepare_roomed heap len).bind fun _ => Keeps.pure _
  | outBytes s =>
    exact Keeps.ite (fun _ => Keeps.pure _) fun _ => (prepare_roomed heap _).bind fun _ =>
      Keeps.ite (fun _ => (store_roomed s).bind fun _ => advance_roomed _) fun _ => Keeps.pure _
  | outFormatted bytes => exact Keeps.get fun _ => outFormatted_roomed heap bytes _
  | outDecimal bytes spare =>
    exact (prepare_roomed heap _).bind fun _ => (store_roomed _).bind fun _ => advance_roomed _
  | putc c => exact (store_roomed [c]).bind fun _ => advance_roomed 1
  | readBlob bytes =>
    exact (prepare_roomed heap _).bind fun _ => (store_roomed bytes).bind fun _ => advance_roomed _

end

section
variable (contents : Contents)

/-- The log's bytes are the page of the buffer, with or without a NUL behind it. -/
structure Logged (log : Log) (m : Memory) : Prop where
  page : ∃ nul, Has (Behind contents nul) log.written m
  room : log.room ≤ m.buffer.allocSz

theorem Logged.holds {log : Log} {m : Memory} (logged : Logged contents log m) : m.Holds log := by
  obtain ⟨nul,⟨tail,block,length,_⟩,sz,positive⟩ := logged.page
  refine ⟨⟨_,block,?_,?_⟩,sz,?_,positive,logged.room⟩
  · rw [List.length_append,length]
  · rw [sz,List.take_left]
  · rw [sz,length]
    exact Nat.le_add_right _ _

theorem logged_write {log : Log} {m : Memory} (logged : Logged contents log m) (op : BufferOp)
    (bytes : Text) (other : ∀ size, op ≠ .init size)
    (ran : ∃ nul next, op.run contents.heap m = (.ok (),next) ∧
      Has (Behind contents nul) (log.written ++ bytes) next) :
    ∃ next, op.run contents.heap m = (.ok (),next) ∧ Logged contents (log.write bytes) next := by
  obtain ⟨nul,next,ran,has⟩ := ran
  have roomed := run_roomed contents.heap op other m logged.room
  rw [ran] at roomed
  exact ⟨next,ran,⟨nul,has⟩,roomed⟩

/-- One operation does to the buffer what it does to the log. -/
theorem step_logged (op : BufferOp) (log after : Log) (m : Memory) (logged : Logged contents log m)
    (stepped : log.step op = some after) :
    ∃ next, op.run contents.heap m = (.ok (),next) ∧ Logged contents after next := by
  obtain ⟨nul,has⟩ := logged.page
  cases op with
  | init size =>
    obtain ⟨positive,same⟩ := Option.ite_none_right_eq_some.mp stepped
    cases same
    obtain ⟨next,ran,has'⟩ := init_has contents size positive m
    exact ⟨next,ran,⟨false,has'⟩,Nat.zero_le _⟩
  | prepare len =>
    cases stepped
    obtain ⟨next,ran,has',room⟩ :=
      prepare_has contents _ (behind_append contents nul) log.written m has len
    have roomed := prepare_roomed contents.heap len m logged.room
    rw [ran] at roomed
    exact ⟨next,bind_ok _ ran,⟨nul,has'⟩,Nat.max_le.mpr ⟨roomed,room⟩⟩
  | outBytes s =>
    cases stepped
    exact logged_write contents logged (.outBytes s) s (fun _ => nofun)
      ⟨_,outBytes_has contents log.written nul m has s⟩
  | outFormatted bytes =>
    cases stepped
    exact logged_write contents logged (.outFormatted bytes) bytes (fun _ => nofun)
      ⟨_,(Write.formatted bytes).run_has contents log.written nul m has⟩
  | outDecimal bytes spare =>
    cases stepped
    exact logged_write contents logged (.outDecimal bytes spare) bytes (fun _ => nofun)
      ⟨_,(Write.decimal bytes spare).run_has contents log.written nul m has⟩
  | putc c =>
    obtain ⟨inside,same⟩ := Option.ite_none_right_eq_some.mp stepped
    cases same
    obtain ⟨next,ran,_,has'⟩ := putc_has contents log.written nul m has c
      (Nat.le_trans inside logged.room)
    exact logged_write contents logged (.putc c) [c] (fun _ => nofun) ⟨false,next,ran,has'⟩
  | readBlob bytes =>
    cases stepped
    exact logged_write contents logged (.readBlob bytes) bytes (fun _ => nofun)
      ⟨_,readBlob_has contents log.written nul m has bytes⟩

theorem steps_logged (ops : List BufferOp) (log after : Log) (m : Memory)
    (logged : Logged contents log m) (stepped : log.steps ops = some after) :
    ∃ next, runOps contents.heap ops m = (.ok (),next) ∧ Logged contents after next := by
  induction ops generalizing log m with
  | nil =>
    cases stepped
    exact ⟨m,rfl,logged⟩
  | cons op ops ih =>
    obtain ⟨middle,first,rest⟩ := Option.bind_eq_some_iff.mp stepped
    obtain ⟨between,ran,logged'⟩ := step_logged contents op log middle m logged first
    obtain ⟨next,ran',logged''⟩ := ih middle between logged' rest
    exact ⟨next,(bind_ok _ ran).trans ran',logged''⟩

/-- After any operations on a buffer of some size there is in front of its block what was written
to it, and there is the room that was made. -/
theorem buffer_logs (size : Nat) (positive : 0 < size) (m : Memory) (ops : List BufferOp) (log : Log)
    (allowed : Log.empty.steps ops = some log) :
    ∃ next, runOps contents.heap (.init size::ops) m = (.ok (),next) ∧ next.Holds log ∧
      ((∀ size, .init size ∉ ops) → log.written = ops.flatMap BufferOp.bytes) ∧
      ∀ len, ops.getLast? = some (.prepare len) →
        next.buffer.sz + len ≤ next.buffer.allocSz := by
  obtain ⟨first,ran,has⟩ := init_has contents size positive m
  obtain ⟨next,ran',logged⟩ := steps_logged contents ops .empty log first
    ⟨⟨false,has⟩,Nat.zero_le _⟩ allowed
  refine ⟨next,(bind_ok _ ran).trans ran',logged.holds,
    fun others => steps_written ops .empty log others allowed,fun len last => ?_⟩
  obtain ⟨before,rfl⟩ := List.getLast?_eq_some_iff.mp last
  rw [steps_append] at allowed
  obtain ⟨middle,_,prepared⟩ := Option.bind_eq_some_iff.mp allowed
  cases prepared
  rw [logged.holds.sz]
  exact Nat.le_trans (Nat.le_max_right _ _) logged.room

def keptOps : List BufferOp :=
  [.readBlob (text "x"),.prepare 2,.putc (code 'y'),.outFormatted (text "34"),
    .outDecimal (text "5.0") 2,.prepare 9]

def mixedOps : List BufferOp := .outBytes (text "abc")::.init 1::keptOps

theorem mixed_logs :
    (∃ next, runOps (Contents.heap fun _ _ => 7) (.init 4::keptOps) ⟨.new,0⟩ = (.ok (),next) ∧
      next.Holds ⟨text "xy345.0",16⟩ ∧ text "xy345.0" = keptOps.flatMap BufferOp.bytes ∧
      next.buffer.sz + 9 ≤ next.buffer.allocSz) ∧
    ∃ next, runOps (Contents.heap fun _ _ => 7) (.init 4::mixedOps) ⟨.new,0⟩ = (.ok (),next) ∧
      next.Holds ⟨text "xy345.0",16⟩ ∧ next.buffer.sz + 9 ≤ next.buffer.allocSz := by
  obtain ⟨kept,ran,holds,written,room⟩ := buffer_logs (fun _ _ => 7) 4 (by decide) ⟨.new,0⟩ keptOps
    ⟨text "xy345.0",16⟩ (by decide +kernel)
  obtain ⟨mixed,ran',holds',_,room'⟩ := buffer_logs (fun _ _ => 7) 4 (by decide) ⟨.new,0⟩ mixedOps
    ⟨text "xy345.0",16⟩ (by decide +kernel)
  exact ⟨⟨kept,ran,holds,written (by simp [keptOps]),room 9 rfl⟩,mixed,ran',holds',room' 9 rfl⟩

end

end ModNdb.Format
