import ModNdb.Lib.Prog
import ModNdb.Text

/-! `result_buffer` (result_buffer.cc), down to the block of memory behind it. -/
namespace ModNdb.Format

/-- What the allocations of a process answer: what happens to be in the block, by position,
or nothing when memory is exhausted. -/
abbrev Heap := Nat → Option (Nat → UInt8)

/-- `result_buffer`, with the block that `buff` points to. -/
structure ResultBuffer where
  buff : Option Text
  allocSz : Nat
  sz : Nat

/-- The constructor, which leaves `alloc_sz` unset. -/
def ResultBuffer.new : ResultBuffer := ⟨none,0,0⟩

structure Memory where
  buffer : ResultBuffer
  allocations : Nat

/-- A write through a null pointer, one outside the block, and what else goes wrong. -/
inductive BufferFault | nullWrite | outside | divisionByZero | outOfFuel
  deriving DecidableEq

abbrev Buffering (α : Type) := Prog BufferFault Memory α

/-- `sz += len` -/
def advance (len : Nat) : Buffering Unit :=
  Prog.modify fun m => {m with buffer := {m.buffer with sz := m.buffer.sz + len}}

def overwritten (block : Text) (place : Nat) (bytes : Text) : Text :=
  block.take place ++ (bytes ++ block.drop (place + bytes.length))

/-- Bytes are written at `buff + sz`. -/
def store (bytes : Text) : Buffering Unit := fun m =>
  if bytes = [] then (.ok (),m)
  else match m.buffer.buff with
    | none => (.error .nullWrite,m)
    | some block =>
      if m.buffer.sz + bytes.length ≤ block.length then
        let buff := some (overwritten block m.buffer.sz bytes)
        (.ok (),{m with buffer := {m.buffer with buff}})
      else (.error .outside,m)

def putc (c : UInt8) : Buffering Unit := do
  store [c]
  advance 1

/-- `vsnprintf(buff + sz, alloc_sz - sz, ...)` of a text; a room below zero is an enormous
one. -/
def vsnprintf (allocSz sz : Nat) (bytes : Text) : Buffering Unit :=
  if allocSz = sz then return ()
  else if allocSz < sz then store (bytes ++ [0])
  else store (bytes.take (allocSz - sz - 1) ++ [0])

section
variable (heap : Heap)

/-- `malloc`, and `realloc` with the contents of a block. -/
def allocate (size : Nat) (kept : Text) : Buffering Unit :=
  Prog.modify fun m => {m with
    allocations := m.allocations + 1,
    buffer := {m.buffer with
      allocSz := size,
      buff := (heap m.allocations).map fun contents =>
        kept.take size ++ ((List.range size).drop kept.length).map contents}}

def init (size : Nat) : Buffering Unit := do
  allocate heap size []
  Prog.modify fun m => {m with buffer := {m.buffer with sz := 0}}

def prepare (len : Nat) : Buffering Bool := do
  let m ← Prog.get
  let newSz := m.buffer.sz + len
  if m.buffer.allocSz < newSz then
    if m.buffer.allocSz = 0 then Prog.fail .divisionByZero
    else
      let factor := newSz / m.buffer.allocSz + 1
      allocate heap (m.buffer.allocSz * factor) (m.buffer.buff.getD [])
      let m ← Prog.get
      return m.buffer.buff.isSome
  else return true

/-- `out(len, s)` -/
def outBytes (s : Text) : Buffering Unit := do
  if s = [] then return ()
  else if ← prepare heap s.length then
    store s
    advance s.length

/-- `out(fmt, ...)` of what is printed: again with four times the room until it fits. -/
def outFormatted (bytes : Text) : Nat → Buffering Unit
  | 0 => Prog.fail .outOfFuel
  | fuel + 1 => do
    let m ← Prog.get
    vsnprintf m.buffer.allocSz m.buffer.sz bytes
    if m.buffer.allocSz ≤ m.buffer.sz + bytes.length then
      let m ← Prog.get
      allocate heap (m.buffer.allocSz * 4) (m.buffer.buff.getD [])
      let m ← Prog.get
      if m.buffer.buff.isSome then outFormatted bytes fuel
    else advance bytes.length

/-- `out(decimal)`, given how much room is asked for. -/
def outDecimal (room : Nat) (bytes : Text) : Buffering Unit := do
  let _ ← prepare heap room
  store (bytes ++ [0])
  advance bytes.length

/-- The second pass of `escape_string`, behind the room for it. -/
def outEscaped (bytes : Text) : Buffering Unit := do
  if ← prepare heap bytes.length then bytes.forM putc

def readBlob (bytes : Text) : Buffering Unit := do
  let _ ← prepare heap bytes.length
  store bytes
  advance bytes.length

/-- What is done to a buffer to print a part of a page; `decimal2string` is asked for room
for a NUL and has some to spare. -/
inductive Write
  | copied (bytes : Text)
  | formatted (bytes : Text)
  | decimal (bytes : Text) (spare : Nat)
  | escaped (bytes : Text)
  deriving DecidableEq

def Write.bytes : Write → Text
  | .copied bytes => bytes
  | .formatted bytes => bytes
  | .decimal bytes _ => bytes
  | .escaped bytes => bytes

def Write.run : Write → Buffering Unit
  | .copied bytes => outBytes heap bytes
  | .formatted bytes => do
    let m ← Prog.get
    outFormatted heap bytes (m.buffer.sz + bytes.length + 1)
  | .decimal bytes spare => outDecimal heap (bytes.length + 1 + spare) bytes
  | .escaped bytes => outEscaped heap bytes

end

def pageOf (writes : List Write) : Text := writes.flatMap Write.bytes

/-- Whether a NUL stands behind the page after a write, given whether one did before. -/
def Write.terminates (before : Bool) : Write → Bool
  | .formatted _ => true
  | .decimal _ _ => true
  | .copied bytes => before && bytes.isEmpty
  | .escaped bytes => before && bytes.isEmpty

/-- A NUL stands behind the page: the last write that is not empty was `printf`'s. -/
def terminated (writes : List Write) : Bool := writes.foldl Write.terminates false

end ModNdb.Format
