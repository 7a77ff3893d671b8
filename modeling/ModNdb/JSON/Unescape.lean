import ModNdb.Lib.Prog
import ModNdb.Text

/-! `JSON_unescape` (JSON_encoding.cc) rewrites a string in place: `r` reads, and `w`
follows it from the first escape on. The texts it decodes are put together from spelled
characters, which are decoded one by one. -/
namespace ModNdb.JSON

/-- What a run of `JSON_unescape` must not come to: a look behind the 128 entries of its
table, the assertion of `xval`, a read or write outside the buffer, more rounds than the
buffer has bytes. -/
inductive Fault | outsideTable | assertion | outsideBuffer | outOfFuel
  deriving DecidableEq

/-- The buffer and the locals; positions are counted from `str`. -/
structure Unescape where
  buffer : Text
  r : Nat
  w : Option Nat
  pair1 : Nat

abbrev Unescaping (α : Type) := Prog Fault Unescape α

/-- `JSON_unescape_table` -/
def unescapeTable (c : UInt8) : UInt8 :=
  if c = code '"' then code '"'
  else if c = code '/' then code '/'
  else if c = code '\\' then code '\\'
  else if c = code 'b' then 8
  else if c = code 'f' then 12
  else if c = code 'n' then 10
  else if c = code 'r' then 13
  else if c = code 't' then 9
  else if c = code 'u' then code 'u'
  else 0

def hexValue? (c : UInt8) : Option Nat :=
  if code '0' ≤ c ∧ c ≤ code '9' then some (c.toNat - 48)
  else if code 'a' ≤ c ∧ c ≤ code 'f' then some (c.toNat - 87)
  else if code 'A' ≤ c ∧ c ≤ code 'F' then some (c.toNat - 55)
  else none

def xval (c : UInt8) : Unescaping Nat :=
  match hexValue? c with
  | some n => return n
  | none => Prog.fail .assertion

/-- `*r` -/
def fetch : Unescaping UInt8 := fun u =>
  match u.buffer[u.r]? with
  | some c => (.ok c,u)
  | none => (.error .outsideBuffer,u)

def advance : Unescaping Unit := Prog.modify fun u => {u with r := u.r + 1}

/-- `*++r` -/
def fetchNext : Unescaping UInt8 := do
  advance
  fetch

/-- `if(w) *w++ = c` -/
def put (c : UInt8) : Unescaping Unit := fun u =>
  match u.w with
  | none => (.ok (),u)
  | some w =>
    if w < u.buffer.length then (.ok (),{u with buffer := u.buffer.set w c, w := some (w + 1)})
    else (.error .outsideBuffer,u)

def utf8 (charCode : Nat) : Text :=
  if charCode < 0x80 then [UInt8.ofNat charCode]
  else if charCode < 0x800 then
    [UInt8.ofNat (0xC0 ||| charCode >>> 6),UInt8.ofNat (0x80 ||| charCode &&& 0x3F)]
  else if charCode < 0x10000 then
    [UInt8.ofNat (0xE0 ||| charCode >>> 12),UInt8.ofNat (0x80 ||| charCode >>> 6 &&& 0x3F),
      UInt8.ofNat (0x80 ||| charCode &&& 0x3F)]
  else
    [UInt8.ofNat (0xF0 ||| charCode >>> 18 &&& 0x07),
      UInt8.ofNat (0x80 ||| charCode >>> 12 &&& 0x3F),
      UInt8.ofNat (0x80 ||| charCode >>> 6 &&& 0x3F),UInt8.ofNat (0x80 ||| charCode &&& 0x3F)]

def paired (high low : Nat) : Nat := 0x10000 + (high &&& 0x3FF) <<< 10 + (low &&& 0x3FF)

def Surrogate (charCode : Nat) : Prop := 0xD7FF < charCode ∧ charCode < 0xE000

instance (charCode : Nat) : Decidable (Surrogate charCode) := inferInstanceAs (Decidable (_ ∧ _))

/-- What is done about a code of four hex digits. -/
def unicode (charCode : Nat) : Unescaping Unit := do
  if Surrogate charCode then
    let u ← Prog.get
    if u.pair1 = 0 then Prog.modify fun u => {u with pair1 := charCode}
    else
      (utf8 (paired u.pair1 charCode)).forM put
      Prog.modify fun u => {u with pair1 := 0}
  else (utf8 charCode).forM put

/-- `\uXXXX`, from its `u` on. -/
def unicodeEscape : Unescaping Unit := do
  let c4 ← fetchNext
  let c3 ← fetchNext
  let c2 ← fetchNext
  let c1 ← fetchNext
  advance
  unicode (16 * 16 * 16 * (← xval c4) + 16 * 16 * (← xval c3) + 16 * (← xval c2) + (← xval c1))

def unescapeStep : Unescaping Bool := do
  let c ← fetch
  if c = code '\\' then
    Prog.modify fun u => {u with w := some (u.w.getD u.r)}
    let e ← fetchNext
    if 128 ≤ e then Prog.fail .outsideTable
    else if unescapeTable e = code 'u' then unicodeEscape
    else
      advance
      put (unescapeTable e)
    return true
  else
    advance
    put c
    return c ≠ 0

def unescapeLoop : Nat → Unescaping Unit
  | 0 => Prog.fail .outOfFuel
  | fuel + 1 => do
    if ← unescapeStep then unescapeLoop fuel

/-- `JSON_unescape` of the bytes in front of a terminating NUL: the length it returns, and
what is in the buffer then. -/
def jsonUnescape (str : Text) : Except Fault (Nat × Text) :=
  match unescapeLoop (str.length + 1) ⟨str ++ [0],0,none,0⟩ with
  | (.ok (),u) => .ok (u.w.getD u.r - 1,u.buffer)
  | (.error fault,_) => .error fault

def hexCode? (a b c d : UInt8) : Option Nat := do
  let i ← hexValue? a
  let j ← hexValue? b
  let k ← hexValue? c
  let l ← hexValue? d
  return 16 * 16 * 16 * i + 16 * 16 * j + 16 * k + l

/-- Bytes and how a JSON string may spell them: a byte as itself, an escape, a code of
four hex digits, a pair of surrogates. -/
inductive Spelled : Text → Text → Prop
  | plain (c : UInt8) (printable : c ≠ 0) (unescaped : c ≠ code '\\') : Spelled [c] [c]
  | escape (e : UInt8) (inside : ¬128 ≤ e) (short : unescapeTable e ≠ code 'u') :
      Spelled [unescapeTable e] [code '\\',e]
  | hex (a b c d : UInt8) (charCode : Nat) (reads : hexCode? a b c d = some charCode)
      (alone : ¬Surrogate charCode) : Spelled (utf8 charCode) [code '\\',code 'u',a,b,c,d]
  | pair (a b c d e f g h : UInt8) (high low : Nat) (first : hexCode? a b c d = some high)
      (second : hexCode? e f g h = some low) (isHigh : 0xD7FF < high ∧ high < 0xDC00)
      (isLow : 0xDBFF < low ∧ low < 0xE000) :
      Spelled (utf8 (paired high low))
        [code '\\',code 'u',a,b,c,d,code '\\',code 'u',e,f,g,h]

/-- `out` is written in front of `w`, with room behind it; `rest` is not read yet. -/
structure Writes (out rest : Text) (room half : Nat) (u : Unescape) : Prop where
  written : ∃ w, u.w = some w ∧ u.buffer.take w = out ∧ w + room ≤ u.r
  inside : u.r ≤ u.buffer.length
  ahead : u.buffer.drop u.r = rest
  half : u.pair1 = half

/-- Between two rounds: `out` has been decoded, written or left where it stood. -/
def Between (out rest : Text) (half : Nat) (u : Unescape) : Prop :=
  Writes out rest 0 half u ∨
    u.w = none ∧ u.buffer.take u.r = out ∧ u.r ≤ u.buffer.length ∧ u.buffer.drop u.r = rest ∧
      u.pair1 = half

section
variable {out rest : Text} {room half : Nat} {u : Unescape}

theorem fetch_ahead (c : UInt8) (ahead : u.buffer.drop u.r = c::rest) : fetch u = (.ok c,u) := by
  have head : u.buffer[u.r]? = some c := by
    have first := congrArg List.head? ahead
    rwa [List.head?_drop] at first
  unfold fetch
  rw [head]

theorem advance_ahead (c : UInt8) (ahead : u.buffer.drop u.r = c::rest) :
    u.buffer.drop (u.r + 1) = rest ∧ u.r + 1 ≤ u.buffer.length := by
  constructor
  · rw [← List.drop_drop,ahead]
    rfl
  · by_contra outside
    rw [List.drop_eq_nil_of_le (by omega)] at ahead
    cases ahead

theorem Writes.weaken {less : Nat} (state : Writes out rest room half u) (fewer : less ≤ room) :
    Writes out rest less half u := by
  obtain ⟨w,at_w,before,fits⟩ := state.written
  exact ⟨⟨w,at_w,before,by omega⟩,state.inside,state.ahead,state.half⟩

theorem advance_writes (c : UInt8) (state : Writes out (c::rest) room half u) :
    Prog.Returns advance u () (Writes out rest (room + 1) half) := by
  obtain ⟨w,at_w,before,fits⟩ := state.written
  obtain ⟨behind,inside⟩ := advance_ahead c state.ahead
  exact ⟨_,rfl,⟨w,at_w,before,Nat.succ_le_succ fits⟩,inside,behind,state.half⟩

theorem fetchNext_writes (c d : UInt8) (state : Writes out (c::d::rest) room half u) :
    Prog.Returns fetchNext u d (Writes out (d::rest) (room + 1) half) := by
  apply Prog.Returns.bind (advance_writes c state)
  intro next later
  exact ⟨next,fetch_ahead d later.ahead,later⟩

theorem put_writes (c : UInt8) (state : Writes out rest (room + 1) half u) :
    Prog.Returns (put c) u () (Writes (out ++ [c]) rest room half) := by
  obtain ⟨w,at_w,before,fits⟩ := state.written
  have inside := state.inside
  have below : w < u.buffer.length := by omega
  refine ⟨{u with buffer := u.buffer.set w c, w := some (w + 1)},?_,⟨w + 1,rfl,?_,?_⟩,?_,?_,?_⟩
  · unfold put
    rw [at_w]
    exact if_pos below
  · rw [List.take_add_one,List.take_set_of_le (Nat.le_refl w),before,List.getElem?_set_self below]
    rfl
  · change w + 1 + room ≤ u.r
    omega
  · change u.r ≤ (u.buffer.set w c).length
    rwa [List.length_set]
  · change (u.buffer.set w c).drop u.r = rest
    rw [List.drop_set_of_lt (by omega)]
    exact state.ahead
  · exact state.half

theorem Between.ahead (state : Between out rest half u) : u.buffer.drop u.r = rest := by
  rcases state with writing | ⟨_,_,_,ahead,_⟩
  · exact writing.ahead
  · exact ahead

/-- A backslash begins the rewriting, if nothing has. -/
theorem rewrite_writes (state : Between out rest half u) :
    Writes out rest 0 half {u with w := some (u.w.getD u.r)} := by
  rcases state with writing | ⟨unset,before,inside,ahead,first⟩
  · obtain ⟨w,at_w,before,fits⟩ := writing.written
    rw [at_w]
    exact ⟨⟨w,rfl,before,fits⟩,writing.inside,writing.ahead,writing.half⟩
  · rw [unset]
    exact ⟨⟨u.r,rfl,before,Nat.le_refl _⟩,inside,ahead,first⟩

end

theorem puts_write (bytes out rest : Text) (room half : Nat) (u : Unescape)
    (state : Writes out rest (room + bytes.length) half u) :
    Prog.Returns (bytes.forM put) u () (Writes (out ++ bytes) rest room half) := by
  induction bytes generalizing out u with
  | nil =>
    rw [List.append_nil]
    exact ⟨u,rfl,state⟩
  | cons c bytes ih =>
    apply Prog.Returns.bind (put_writes c state)
    intro next later
    rw [List.append_cons]
    exact ih (out ++ [c]) next later

theorem utf8_length (charCode : Nat) : (utf8 charCode).length ≤ 4 := by
  unfold utf8
  split_ifs <;> simp

theorem xval_value (c : UInt8) (n : Nat) (value : hexValue? c = some n) (u : Unescape) :
    xval c u = (.ok n,u) := by
  unfold xval
  rw [value]
  rfl

theorem unicodeEscape_writes (out rest : Text) (room half : Nat) (u : Unescape) (a b c d : UInt8)
    (charCode : Nat) (reads : hexCode? a b c d = some charCode)
    (state : Writes out (code 'u'::a::b::c::d::rest) room half u) :
    ∃ v, unicodeEscape u = unicode charCode v ∧ Writes out rest (room + 5) half v := by
  obtain ⟨i,first,j,second,k,third,l,fourth,value⟩ :
      ∃ i, hexValue? a = some i ∧ ∃ j, hexValue? b = some j ∧ ∃ k, hexValue? c = some k ∧
        ∃ l, hexValue? d = some l ∧ 16 * 16 * 16 * i + 16 * 16 * j + 16 * k + l = charCode := by
    simpa [hexCode?,Option.bind_eq_some_iff] using reads
  obtain ⟨v1,ran1,state1⟩ := fetchNext_writes _ _ state
  obtain ⟨v2,ran2,state2⟩ := fetchNext_writes _ _ state1
  obtain ⟨v3,ran3,state3⟩ := fetchNext_writes _ _ state2
  obtain ⟨v4,ran4,state4⟩ := fetchNext_writes _ _ state3
  obtain ⟨v5,ran5,state5⟩ := advance_writes _ state4
  refine ⟨v5,?_,state5⟩
  rw [unicodeEscape,Prog.bind_ok _ ran1,Prog.bind_ok _ ran2,Prog.bind_ok _ ran3,
    Prog.bind_ok _ ran4,Prog.bind_ok _ ran5,Prog.bind_ok _ (xval_value a i first v5),
    Prog.bind_ok _ (xval_value b j second v5),Prog.bind_ok _ (xval_value c k third v5),
    Prog.bind_ok _ (xval_value d l fourth v5),value]

theorem step_plain (out rest : Text) (half : Nat) (u : Unescape) (c : UInt8)
    (unescaped : c ≠ code '\\') (state : Between out (c::rest) half u) :
    Prog.Returns unescapeStep u (decide (c ≠ 0)) (Between (out ++ [c]) rest half) := by
  apply Prog.Returns.bind ⟨u,fetch_ahead c state.ahead,rfl⟩
  rintro _ rfl
  rw [if_neg unescaped]
  rcases state with writing | ⟨unset,before,_,ahead,first⟩
  · apply Prog.Returns.bind (advance_writes c writing)
    intro v later
    obtain ⟨w,ran,done⟩ := put_writes c later
    exact ⟨w,by rw [Prog.bind_ok _ ran]; rfl,.inl done⟩
  · obtain ⟨behind,inside⟩ := advance_ahead c ahead
    have skipped : put c {u with r := u.r + 1} = (.ok (),{u with r := u.r + 1}) := by
      unfold put
      rw [unset]
    refine ⟨{u with r := u.r + 1},?_,.inr ⟨unset,?_,inside,behind,first⟩⟩
    · rw [Prog.bind_ok _ (show advance u = (.ok (),{u with r := u.r + 1}) from rfl),
        Prog.bind_ok _ skipped]
      rfl
    · have head := congrArg List.head? ahead
      rw [List.head?_drop] at head
      rw [List.take_add_one,before,head]
      rfl

theorem step_escape (out rest : Text) (half : Nat) (u : Unescape) (e : UInt8) (inside : ¬128 ≤ e)
    (short : unescapeTable e ≠ code 'u') (state : Between out (code '\\'::e::rest) half u) :
    Prog.Returns unescapeStep u true (Between (out ++ [unescapeTable e]) rest half) := by
  obtain ⟨v2,ran2,state2⟩ := fetchNext_writes _ _ (rewrite_writes state)
  obtain ⟨v3,ran3,state3⟩ := advance_writes _ state2
  obtain ⟨v4,ran4,state4⟩ := put_writes (unescapeTable e) state3
  refine ⟨v4,?_,.inl (state4.weaken (Nat.zero_le _))⟩
  rw [unescapeStep,Prog.bind_ok _ (fetch_ahead _ state.ahead),if_pos rfl,
    Prog.bind_ok _ (Prog.modify_run _ _),Prog.bind_ok _ ran2,if_neg inside,if_neg short,
    Prog.bind_ok _ ran3,Prog.bind_ok _ ran4]
  rfl

theorem step_unicode (out rest : Text) (half : Nat) (u : Unescape) (a b c d : UInt8) (charCode : Nat)
    (reads : hexCode? a b c d = some charCode)
    (state : Between out (code '\\'::code 'u'::a::b::c::d::rest) half u) :
    ∃ v, unescapeStep u = (unicode charCode >>= fun _ => pure true) v ∧ Writes out rest 6 half v := by
  obtain ⟨v2,ran2,state2⟩ := fetchNext_writes _ _ (rewrite_writes state)
  obtain ⟨v3,ran3,state3⟩ := unicodeEscape_writes _ _ _ _ v2 a b c d charCode reads state2
  refine ⟨v3,?_,state3⟩
  rw [unescapeStep,Prog.bind_ok _ (fetch_ahead _ state.ahead),if_pos rfl,
    Prog.bind_ok _ (Prog.modify_run _ _),Prog.bind_ok _ ran2,if_neg (by decide),
    if_pos (by decide)]
  rw [Prog.bind_run,ran3,← Prog.bind_run]

theorem code_writes (out rest : Text) (half : Nat) (u : Unescape) (charCode : Nat)
    (state : Writes out rest 6 half u) :
    Prog.Returns ((utf8 charCode).forM put) u () (Writes (out ++ utf8 charCode) rest 0 half) := by
  have short := utf8_length charCode
  exact puts_write _ out _ 0 half u (state.weaken (by omega))

theorem unicode_alone (out rest : Text) (half : Nat) (u : Unescape) (charCode : Nat)
    (alone : ¬Surrogate charCode) (state : Writes out rest 6 half u) :
    Prog.Returns (unicode charCode) u () (Writes (out ++ utf8 charCode) rest 0 half) := by
  unfold unicode
  rw [if_neg alone]
  exact code_writes out rest half u charCode state

theorem unicode_high (out rest : Text) (u : Unescape) (charCode : Nat)
    (surrogate : Surrogate charCode) (state : Writes out rest 6 0 u) :
    Prog.Returns (unicode charCode) u () (Writes out rest 6 charCode) := by
  refine ⟨{u with pair1 := charCode},?_,state.written,state.inside,state.ahead,rfl⟩
  unfold unicode
  rw [if_pos surrogate,Prog.bind_ok _ (Prog.get_run u),if_pos state.half]
  rfl

theorem unicode_low (out rest : Text) (high : Nat) (u : Unescape) (charCode : Nat)
    (surrogate : Surrogate charCode) (first : high ≠ 0)
    (state : Writes out rest 6 high u) :
    Prog.Returns (unicode charCode) u () (Writes (out ++ utf8 (paired high charCode)) rest 0 0) := by
  obtain ⟨v,ran,later⟩ := code_writes out rest high u (paired high charCode) state
  refine ⟨{v with pair1 := 0},?_,later.written,later.inside,later.ahead,rfl⟩
  have unpaired : ¬u.pair1 = 0 := by rw [state.half]; exact first
  unfold unicode
  rw [if_pos surrogate,Prog.bind_ok _ (Prog.get_run u),if_neg unpaired,state.half,
    Prog.bind_ok _ ran]
  rfl

def Leads (most : Nat) (u v : Unescape) : Prop :=
  ∃ rounds ≤ most, ∀ fuel, unescapeLoop (fuel + rounds) u = unescapeLoop fuel v

theorem Leads.step {u v : Unescape} {most : Nat} (some : 0 < most)
    (ran : unescapeStep u = (.ok true,v)) : Leads most u v := by
  refine ⟨1,some,fun fuel => ?_⟩
  rw [unescapeLoop,Prog.bind_ok _ ran]
  rfl

theorem Leads.trans {u v w : Unescape} {m n : Nat} (first : Leads m u v) (second : Leads n v w) :
    Leads (m + n) u w := by
  obtain ⟨i,fewer,ran⟩ := first
  obtain ⟨j,fewer',ran'⟩ := second
  refine ⟨j + i,by omega,fun fuel => ?_⟩
  rw [← Nat.add_assoc,ran,ran']

theorem spelled_leads (out bytes unit rest : Text) (u : Unescape) (spelled : Spelled bytes unit)
    (state : Between out (unit ++ rest) 0 u) :
    ∃ v, Leads unit.length u v ∧ Between (out ++ bytes) rest 0 v := by
  cases spelled with
  | plain c printable unescaped =>
    obtain ⟨v,ran,later⟩ := step_plain out rest 0 u c unescaped state
    rw [decide_eq_true printable] at ran
    exact ⟨v,Leads.step (by simp) ran,later⟩
  | escape e inside short =>
    obtain ⟨v,ran,later⟩ := step_escape out rest 0 u e inside short state
    exact ⟨v,Leads.step (by simp) ran,later⟩
  | hex a b c d charCode reads alone =>
    obtain ⟨v,ran,writing⟩ := step_unicode out rest 0 u a b c d charCode reads state
    obtain ⟨w,coded,written⟩ := unicode_alone out rest 0 v charCode alone writing
    refine ⟨w,Leads.step (by simp) ?_,.inl written⟩
    rw [ran,Prog.bind_ok _ coded]
    rfl
  | pair a b c d e f g h high low first second isHigh isLow =>
    obtain ⟨v,ran,writing⟩ := step_unicode out _ 0 u a b c d high first state
    obtain ⟨w,kept,waiting⟩ := unicode_high out _ v high ⟨isHigh.1,by omega⟩ writing
    obtain ⟨x,ran',writing'⟩ := step_unicode out rest high w e f g h low second
      (.inl (waiting.weaken (Nat.zero_le _)))
    obtain ⟨y,coded,written⟩ := unicode_low out rest high x low ⟨by omega,isLow.2⟩ (by omega) writing'
    have leadsHigh : Leads 6 u w := by
      apply Leads.step (by decide)
      rw [ran,Prog.bind_ok _ kept]
      rfl
    have leadsLow : Leads 6 w y := by
      apply Leads.step (by decide)
      rw [ran',Prog.bind_ok _ coded]
      rfl
    exact ⟨y,leadsHigh.trans leadsLow,.inl written⟩

/-- A text put together from spelled characters leads to its end. -/
theorem spelled_text_leads (texts units : List Text) (out : Text) (u : Unescape)
    (spelled : List.Forall₂ Spelled texts units) (state : Between out (units.flatten ++ [0]) 0 u) :
    ∃ v, Leads units.flatten.length u v ∧ Between (out ++ texts.flatten) [0] 0 v := by
  induction spelled generalizing out u with
  | nil =>
    refine ⟨u,⟨0,Nat.le_refl _,fun _ => rfl⟩,?_⟩
    rw [List.flatten_nil,List.append_nil]
    exact state
  | cons first rest ih =>
    rename_i bytes unit texts units
    rw [List.flatten_cons,List.append_assoc] at state
    obtain ⟨v,leads,between⟩ := spelled_leads out bytes unit _ u first state
    obtain ⟨w,leads',ends⟩ := ih (out ++ bytes) v between
    refine ⟨w,?_,?_⟩
    · rw [List.flatten_cons,List.length_append]
      exact leads.trans leads'
    · rw [List.flatten_cons,← List.append_assoc]
      exact ends

theorem step_end (out rest : Text) (half : Nat) (u : Unescape) (state : Between out (0::rest) half u) :
    Prog.Returns unescapeStep u false
      (fun v => v.w.getD v.r - 1 = out.length ∧ v.buffer.take out.length = out) := by
  obtain ⟨v,ran,later⟩ := step_plain out rest half u 0 (by decide) state
  refine ⟨v,ran,?_⟩
  have front : v.buffer.take (v.w.getD v.r) = out ++ [0] ∧ v.w.getD v.r ≤ v.buffer.length := by
    rcases later with writing | ⟨unset,before,inside,_,_⟩
    · obtain ⟨w,at_w,before,fits⟩ := writing.written
      have inside := writing.inside
      rw [at_w]
      exact ⟨before,by change w ≤ _; omega⟩
    · rw [unset]
      exact ⟨before,inside⟩
  obtain ⟨before,inside⟩ := front
  have length := congrArg List.length before
  rw [List.length_take_of_le inside,List.length_append,List.length_singleton] at length
  refine ⟨by omega,?_⟩
  have shorter := congrArg (List.take out.length) before
  rwa [List.take_take,List.take_left,Nat.min_eq_left (by omega)] at shorter

def Unescapes (str decoded : Text) : Prop :=
  ∃ buffer, jsonUnescape str = .ok (decoded.length,buffer) ∧ buffer.take decoded.length = decoded

theorem between_start (str : Text) : Between [] (str ++ [0]) 0 ⟨str ++ [0],0,none,0⟩ :=
  .inr ⟨rfl,rfl,Nat.zero_le _,rfl,rfl⟩

/-- A run that comes to a terminating NUL has decoded the string. -/
theorem unescapes_of_leads (str out rest : Text) (half : Nat) (u : Unescape)
    (leads : Leads str.length ⟨str ++ [0],0,none,0⟩ u) (ends : Between out (0::rest) half u) :
    Unescapes str out := by
  obtain ⟨rounds,fewer,leads⟩ := leads
  obtain ⟨v,stops,length,front⟩ := step_end _ rest half u ends
  have ran : unescapeLoop (str.length + 1) ⟨str ++ [0],0,none,0⟩ = (.ok (),v) := by
    have enough : str.length + 1 = (str.length - rounds) + 1 + rounds := by omega
    rw [enough,leads,unescapeLoop,Prog.bind_ok _ stops]
    rfl
  refine ⟨v.buffer,?_,front⟩
  unfold jsonUnescape
  rw [ran]
  exact congrArg (fun n => Except.ok (n,v.buffer)) length

theorem unescapes_spelled (texts units : List Text) (spelled : List.Forall₂ Spelled texts units) :
    Unescapes units.flatten texts.flatten := by
  obtain ⟨u,leads,ends⟩ := spelled_text_leads texts units [] _ spelled (between_start _)
  exact unescapes_of_leads _ _ [] 0 u leads ends

end ModNdb.JSON
