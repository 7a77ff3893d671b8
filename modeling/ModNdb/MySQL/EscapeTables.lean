import ModNdb.Format.Exhausted
import ModNdb.MySQL.Result

/-! The tables of `initialize_escapes`, and the two passes over a string in `escape_string`. There
is one of them in MySQL_result.cc, which indexes a table by a signed character in its first pass,
and another in format_dumper.cc, which does not. -/
namespace ModNdb.MySQL
open Format (ReEsc Heap Buffering Memory Blocked BufferFault prepare putc)

def counted (seq : Text) : Text := UInt8.ofNat seq.length :: seq

abbrev EscapeTable := UInt8 → Option Text

def EscapeTable.set (t : EscapeTable) (c : UInt8) (seq : Text) : EscapeTable :=
  Function.update t c (some seq)

structure EscapeTables where
  leaningToothpicks : EscapeTable
  xmlEntities : EscapeTable
  xmlPlusJson : EscapeTable

/-- `"\x06" "\\u%04x"` -/
def controlEscape (i : Nat) : Text :=
  6 :: text "\\u" ++ [hexDigit (i / 4096 % 16),hexDigit (i / 256 % 16),hexDigit (i / 16 % 16),
    hexDigit (i % 16)]

def noEscapes : EscapeTable := fun _ => none

def controlEscapes (n : Nat) : EscapeTable :=
  (List.range n).foldl (fun t i => t.set (UInt8.ofNat i) (controlEscape i)) noEscapes

def initializeEscapes : EscapeTables :=
  let json := controlEscapes 32
    |>.set (code '\\') (2 :: text "\\\\")
    |>.set (code '"') (2 :: text "\\\"")
    |>.set 8 (2 :: text "\\b")
    |>.set 12 (2 :: text "\\f")
    |>.set (code '\n') (2 :: text "\\n")
    |>.set (code '\r') (2 :: text "\\r")
    |>.set (code '\t') (2 :: text "\\t")
  let xml := noEscapes
    |>.set (code '<') (4 :: text "&lt;")
    |>.set (code '>') (4 :: text "&gt;")
    |>.set (code '&') (5 :: text "&amp;")
    |>.set (code '"') (6 :: text "&quot;")
  ⟨json,xml,fun c => if (xml c).isSome then xml c else json c⟩

/-- `get_escapes` -/
def EscapeTables.get (t : EscapeTables) : ReEsc → Option EscapeTable
  | .escXml => some t.xmlEntities
  | .escJson => some t.leaningToothpicks
  | .escXmljson => some t.xmlPlusJson
  | .noEsc => none

/-- A `char` that is signed. -/
def signedChar (c : UInt8) : Int := Int.bmod c.toNat 256

def unsignedChar (c : UInt8) : Int := c.toNat

/-- `esc[0]` -/
def escLength (esc : Text) : Int := signedChar (esc.headD 0)

/-- `esc[1]` to `esc[esc[0]]` -/
def escBytes (esc : Text) : Text := (esc.drop 1).take (escLength esc).toNat

def EscapeTable.within (t : EscapeTable) (around : Int → Option Text) (i : Int) : Option Text :=
  if 0 ≤ i ∧ i ≤ 255 then t (UInt8.ofNat i.toNat) else around i

section
variable (escapes : Int → Option Text)

/-- How long will the string be when it is escaped? With the indices that are looked up. -/
def sizingPass (index : UInt8 → Int) : Text → Int → List Int × Int
  | [], size => ([],size)
  | c::ref, size =>
    let more := match escapes (index c) with
      | some esc => escLength esc
      | none => 1
    let rest := sizingPass index ref (size + more)
    (index c :: rest.1,rest.2)

/-- The bytes that are written one at a time, with the indices that are looked up. -/
def copyPass : Text → List Int × Text
  | [] => ([],[])
  | c::ref =>
    let bytes := match escapes (unsignedChar c) with
      | some esc => escBytes esc
      | none => [c]
    let rest := copyPass ref
    (unsignedChar c :: rest.1,bytes ++ rest.2)

/-- The indices that `MySQL::escape_string` looks up. -/
def escapeLookups (ref : Text) : List Int :=
  (sizingPass escapes signedChar ref 0).1 ++ (copyPass escapes ref).1

def escapedSize (ref : Text) : Int := (sizingPass escapes signedChar ref 0).2

def escapedBytes (ref : Text) : Text := (copyPass escapes ref).2

/-- `MySQL::escape_string` -/
def escapeStringInto (heap : Heap) (ref : Text) : Buffering Unit := do
  if ← prepare heap (escapedSize escapes ref).toNat then (escapedBytes escapes ref).forM putc

/-- `escape_string` of format_dumper.cc: the string itself, where it does not get longer. -/
def dumperEscapeString (str : Text) : Text :=
  if (sizingPass escapes unsignedChar str 0).2 = str.length then str
  else (copyPass escapes str).2

/-- What is escaped is looked up in the table, fits in the room that was prepared for it, and is
what the dumper makes of it. -/
structure EscapesWell (ref : Text) : Prop where
  inside : ∀ i ∈ escapeLookups escapes ref, 0 ≤ i ∧ i ≤ 255
  size : escapedSize escapes ref = (escapedBytes escapes ref).length
  fits : ∀ heap (m : Memory), Blocked m → 0 < m.buffer.allocSz → heap m.allocations ≠ none →
    ∃ next, escapeStringInto escapes heap ref m = (.ok (),next) ∧ Blocked next ∧
      next.buffer.sz = m.buffer.sz + (escapedBytes escapes ref).length
  same : escapedBytes escapes ref = dumperEscapeString escapes ref

end

theorem table_entries : ∀ n : Fin 256,
    initializeEscapes.leaningToothpicks (UInt8.ofNat n) =
        (jsonEscape (UInt8.ofNat n)).map counted ∧
      initializeEscapes.xmlEntities (UInt8.ofNat n) =
        (xmlEscape (UInt8.ofNat n)).map counted := by
  decide +kernel

theorem json_entry (c : UInt8) :
    initializeEscapes.leaningToothpicks c = (jsonEscape c).map counted := by
  simpa using (table_entries ⟨c.toNat,c.toNat_lt⟩).1

theorem xml_entry (c : UInt8) :
    initializeEscapes.xmlEntities c = (xmlEscape c).map counted := by
  simpa using (table_entries ⟨c.toNat,c.toNat_lt⟩).2

theorem get_entries (esc : ReEsc) (table : EscapeTable)
    (given : initializeEscapes.get esc = some table) :
    ∃ seqs, getEscapes esc = some seqs ∧ ∀ c, table c = (seqs c).map counted := by
  cases esc with
  | noEsc => cases given
  | escXml =>
    cases given
    exact ⟨xmlEscape,rfl,xml_entry⟩
  | escJson =>
    cases given
    exact ⟨jsonEscape,rfl,json_entry⟩
  | escXmljson =>
    cases given
    refine ⟨_,rfl,fun c => ?_⟩
    change (if (initializeEscapes.xmlEntities c).isSome then initializeEscapes.xmlEntities c
      else initializeEscapes.leaningToothpicks c) = _
    rw [xml_entry,json_entry]
    cases xmlEscape c <;> rfl

theorem json_sizes (c : UInt8) (seq : Text) (there : jsonEscape c = some seq) :
    2 ≤ seq.length ∧ seq.length ≤ 6 := by
  unfold jsonEscape at there
  repeat' split at there
  all_goals cases there
  any_goals decide
  exact ⟨Nat.le_add_left 2 4,Nat.le_refl 6⟩

theorem xml_sizes (c : UInt8) (seq : Text) (there : xmlEscape c = some seq) :
    2 ≤ seq.length ∧ seq.length ≤ 6 := by
  unfold xmlEscape at there
  repeat' split at there
  all_goals cases there <;> decide

theorem seq_sizes (esc : ReEsc) (seqs : UInt8 → Option Text) (given : getEscapes esc = some seqs)
    (c : UInt8) (seq : Text) (there : seqs c = some seq) : 2 ≤ seq.length ∧ seq.length ≤ 6 := by
  cases esc with
  | noEsc => cases given
  | escXml =>
    cases given
    exact xml_sizes c seq there
  | escJson =>
    cases given
    exact json_sizes c seq there
  | escXmljson =>
    cases given
    rcases Option.or_eq_some_iff.mp there with xml | ⟨_,json⟩
    · exact xml_sizes c seq xml
    · exact json_sizes c seq json

theorem signedChar_ascii (c : UInt8) (ascii : c < 128) : signedChar c = unsignedChar c := by
  have below : c.toNat < 128 := ascii
  unfold signedChar unsignedChar
  rw [Int.bmod_eq_of_le (by omega) (by omega)]

theorem signedChar_high (c : UInt8) (high : ¬c < 128) : signedChar c < 0 := by
  have above : 128 ≤ c.toNat := Nat.le_of_not_lt high
  have byte := c.toNat_lt
  unfold signedChar Int.bmod
  dsimp only
  split <;> omega

theorem unsignedChar_inside (c : UInt8) : 0 ≤ unsignedChar c ∧ unsignedChar c ≤ 255 := by
  have byte := c.toNat_lt
  unfold unsignedChar
  omega

theorem within_unsigned (t : EscapeTable) (around : Int → Option Text) (c : UInt8) :
    t.within around (unsignedChar c) = t c := by
  unfold EscapeTable.within
  rw [if_pos (unsignedChar_inside c)]
  exact congrArg t (UInt8.ofNat_toNat)

theorem escLength_counted (seq : Text) (short : seq.length < 128) :
    escLength (counted seq) = seq.length := by
  have size : (UInt8.ofNat seq.length).toNat = seq.length :=
    UInt8.toNat_ofNat_of_lt (Nat.lt_trans short (by decide))
  have ascii : UInt8.ofNat seq.length < 128 := by
    rw [UInt8.lt_iff_toNat_lt,size]
    exact short
  change signedChar (UInt8.ofNat seq.length) = _
  rw [signedChar_ascii _ ascii,unsignedChar,size]

theorem escBytes_counted (seq : Text) (short : seq.length < 128) : escBytes (counted seq) = seq := by
  unfold escBytes
  rw [escLength_counted seq short,Int.toNat_natCast]
  exact List.take_length

section
variable (escapes : Int → Option Text)

theorem sizing_lookups (index : UInt8 → Int) (ref : Text) (size : Int) :
    (sizingPass escapes index ref size).1 = ref.map index := by
  induction ref generalizing size with
  | nil => rfl
  | cons c ref ih => exact congrArg (index c :: ·) (ih _)

theorem copy_lookups (ref : Text) : (copyPass escapes ref).1 = ref.map unsignedChar := by
  induction ref with
  | nil => rfl
  | cons c ref ih => exact congrArg (unsignedChar c :: ·) ih

variable (seqs : UInt8 → Option Text) (sizes : ∀ c seq, seqs c = some seq →
  2 ≤ seq.length ∧ seq.length ≤ 6)
include sizes

/-- The first pass adds up what the second one writes, where it finds the sequences. -/
theorem sizing_total (index : UInt8 → Int) (ref : Text) (size : Int)
    (found : ∀ c ∈ ref, escapes (index c) = (seqs c).map counted) :
    (sizingPass escapes index ref size).2 = size + (escapeString seqs ref).length := by
  induction ref generalizing size with
  | nil => exact (Int.add_zero size).symm
  | cons c ref ih =>
    obtain ⟨here,others⟩ := List.forall_mem_cons.mp found
    unfold sizingPass
    dsimp only
    rw [ih _ others,here]
    unfold escapeString
    rw [List.flatMap_cons,List.length_append]
    cases there : seqs c with
    | none =>
      rw [Option.map_none,Option.getD_none,List.length_singleton]
      dsimp only
      omega
    | some seq =>
      have short := (sizes c seq there).2
      rw [Option.map_some,Option.getD_some]
      dsimp only
      rw [escLength_counted seq (by omega)]
      omega

theorem copy_bytes (ref : Text) (found : ∀ c, escapes (unsignedChar c) = (seqs c).map counted) :
    (copyPass escapes ref).2 = escapeString seqs ref := by
  induction ref with
  | nil => rfl
  | cons c ref ih =>
    unfold copyPass escapeString
    dsimp only
    rw [ih,found c,List.flatMap_cons]
    cases there : seqs c with
    | none => rfl
    | some seq =>
      have short := (sizes c seq there).2
      rw [Option.map_some,Option.getD_some]
      dsimp only
      rw [escBytes_counted seq (by omega)]
      rfl

/-- A string that gets no longer has nothing to escape. -/
theorem escaped_longer (ref : Text) : ref.length ≤ (escapeString seqs ref).length ∧
    ((escapeString seqs ref).length = ref.length → escapeString seqs ref = ref) := by
  induction ref with
  | nil => exact ⟨Nat.le_refl _,fun _ => rfl⟩
  | cons c ref ih =>
    have split : escapeString seqs (c::ref) = (seqs c).getD [c] ++ escapeString seqs ref :=
      List.flatMap_cons
    rw [split,List.length_append,List.length_cons]
    cases there : seqs c with
    | none =>
      rw [Option.getD_none,List.length_singleton]
      exact ⟨by omega,fun same => congrArg (c :: ·) (ih.2 (by omega))⟩
    | some seq =>
      have long := (sizes c seq there).1
      rw [Option.getD_some]
      exact ⟨by omega,fun same => by omega⟩

end

theorem putcs_fit (bytes : Text) (m : Memory) (blocked : Blocked m)
    (room : m.buffer.sz + bytes.length ≤ m.buffer.allocSz) : ∃ next,
    bytes.forM putc m = (.ok (),next) ∧ Blocked next ∧
      next.buffer.sz = m.buffer.sz + bytes.length := by
  induction bytes generalizing m with
  | nil => exact ⟨m,rfl,blocked,rfl⟩
  | cons c bytes ih =>
    rw [List.length_cons] at room ⊢
    obtain ⟨stored,ran,blocked',sz,alloc⟩ := Format.store_blocked [c] m blocked
      (by rw [List.length_singleton]; omega)
    obtain ⟨next,ran',blocked'',sz'⟩ := ih
      {stored with buffer := {stored.buffer with sz := stored.buffer.sz + 1}} blocked'
      (by dsimp only; omega)
    have first : putc c m =
        (.ok (),{stored with buffer := {stored.buffer with sz := stored.buffer.sz + 1}}) :=
      Prog.bind_ok _ ran
    refine ⟨next,(Prog.bind_ok _ first).trans ran',blocked'',?_⟩
    dsimp only at sz'
    omega

theorem prepare_room (heap : Heap) (len : Nat) (m : Memory) (blocked : Blocked m)
    (positive : 0 < m.buffer.allocSz) (granted : heap m.allocations ≠ none) : ∃ next,
    prepare heap len m = (.ok true,next) ∧ Blocked next ∧ next.buffer.sz = m.buffer.sz ∧
      m.buffer.sz + len ≤ next.buffer.allocSz := by
  obtain ⟨enough,ran⟩ | ⟨-,empty,-⟩ | ⟨-,-,next,size,ran,took,room⟩ :=
    Format.prepare_cases heap len m
  · exact ⟨m,ran,blocked,rfl,Nat.le_of_not_lt enough⟩
  · omega
  · have answered : (heap m.allocations).isSome = true := Option.isSome_iff_ne_none.mpr granted
    obtain ⟨block,there⟩ := Option.isSome_iff_exists.mp (took.answered.trans answered)
    rw [answered] at ran
    exact ⟨next,ran,⟨block,there,(took.length block there).trans took.alloc.symm⟩,took.sz,
      took.alloc ▸ room⟩

/-- The two passes agree exactly about strings of ASCII: where a `char` is signed, the first one
reads in front of the table for any other character. -/
theorem escapes_well_iff (esc : ReEsc) (table : EscapeTable)
    (given : initializeEscapes.get esc = some table) (around : Int → Option Text) (ref : Text) :
    EscapesWell (table.within around) ref ↔ ∀ c ∈ ref, c < 128 := by
  constructor
  · intro well c inside
    by_contra high
    have looked : signedChar c ∈ escapeLookups (table.within around) ref := by
      unfold escapeLookups
      rw [sizing_lookups]
      exact List.mem_append_left _ (List.mem_map_of_mem inside)
    exact absurd (well.inside _ looked).1 (Int.not_le.mpr (signedChar_high c high))
  · intro ascii
    obtain ⟨seqs,listed,entries⟩ := get_entries esc table given
    have sizes := seq_sizes esc seqs listed
    have found (c : UInt8) : table.within around (unsignedChar c) = (seqs c).map counted :=
      (within_unsigned table around c).trans (entries c)
    have written : escapedBytes (table.within around) ref = escapeString seqs ref :=
      copy_bytes _ seqs sizes ref found
    have size : escapedSize (table.within around) ref = (escapeString seqs ref).length :=
      (sizing_total _ seqs sizes signedChar ref 0 fun c inside => by
        rw [signedChar_ascii c (ascii c inside)]
        exact found c).trans (Int.zero_add _)
    have dumped : (sizingPass (table.within around) unsignedChar ref 0).2 =
        (escapeString seqs ref).length :=
      (sizing_total _ seqs sizes unsignedChar ref 0 fun c _ => found c).trans (Int.zero_add _)
    refine ⟨fun i looked => ?_,by rw [size,written],fun heap m blocked positive granted => ?_,?_⟩
    · unfold escapeLookups at looked
      rw [sizing_lookups,copy_lookups] at looked
      rcases List.mem_append.mp looked with first | second
      · obtain ⟨c,inside,rfl⟩ := List.mem_map.mp first
        rw [signedChar_ascii c (ascii c inside)]
        exact unsignedChar_inside c
      · obtain ⟨c,-,rfl⟩ := List.mem_map.mp second
        exact unsignedChar_inside c
    · obtain ⟨prepared,ran,blocked',sz,room⟩ := prepare_room heap
        (escapedSize (table.within around) ref).toNat m blocked positive granted
      rw [size,Int.toNat_natCast] at room
      obtain ⟨next,ran',blocked'',sz'⟩ := putcs_fit (escapedBytes (table.within around) ref)
        prepared blocked' (by rw [written,sz]; exact room)
      refine ⟨next,(Prog.bind_ok _ ran).trans ran',blocked'',by rw [sz',sz]⟩
    · unfold dumperEscapeString
      rw [dumped]
      split
      next same =>
        rw [written]
        exact (escaped_longer seqs sizes ref).2 (Int.ofNat_inj.mp same)
      next => rfl

theorem quoted_escapes_well :
    EscapesWell (initializeEscapes.leaningToothpicks.within (fun _ => none)) (text "a \"b\"") ↔
      ∀ c ∈ text "a \"b\"", c < 128 :=
  escapes_well_iff .escJson initializeEscapes.leaningToothpicks rfl (fun _ => none)
    (text "a \"b\"")

/-- An accented letter in UTF-8. -/
theorem accent_reads_outside :
    ¬EscapesWell (initializeEscapes.leaningToothpicks.within (fun _ => none)) [195,169] := by
  intro well
  exact absurd (well.inside (-61) (by decide)).1 (by decide)

/-- The lookups outside the tables are those of `sizingReadsOutside`. -/
theorem sizingReadsOutside_iff (escapes : Int → Option Text) (ref : Text) :
    sizingReadsOutside ref = true ↔ ∃ i ∈ escapeLookups escapes ref, ¬(0 ≤ i ∧ i ≤ 255) := by
  unfold sizingReadsOutside escapeLookups
  rw [sizing_lookups,copy_lookups,List.any_eq_true]
  constructor
  · rintro ⟨c,inside,high⟩
    have negative := signedChar_high c (UInt8.not_lt.mpr (of_decide_eq_true high))
    exact ⟨signedChar c,List.mem_append_left _ (List.mem_map_of_mem inside),by omega⟩
  · rintro ⟨i,looked,outside⟩
    rcases List.mem_append.mp looked with first | second
    · obtain ⟨c,inside,rfl⟩ := List.mem_map.mp first
      refine ⟨c,inside,decide_eq_true (UInt8.not_lt.mp fun ascii => outside ?_)⟩
      rw [signedChar_ascii c ascii]
      exact unsignedChar_inside c
    · obtain ⟨c,-,rfl⟩ := List.mem_map.mp second
      exact absurd (unsignedChar_inside c) outside

end ModNdb.MySQL
