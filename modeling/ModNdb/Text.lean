import Mathlib

/-! C strings of the module: byte lists without the terminating NUL. The
comparison and hashing below are shared by configuration, request data and the
symbol tables of the output formats. At the end, how a call can end the server process, or run
on for ever. -/
namespace ModNdb

abbrev Text := List UInt8

def code (c : Char) : UInt8 := UInt8.ofNat c.toNat

def text (s : String) : Text := s.toList.map code

/-- The string at a pointer: what stands in front of the first NUL. -/
def cstring (s : Text) : Text := s.takeWhile (· ≠ 0)

theorem cstring_self (s : Text) (nulFree : 0 ∉ s) : cstring s = s := by
  apply List.takeWhile_eq_self_iff.mpr
  intro c inside
  simp only [decide_eq_true_eq]
  rintro rfl
  exact nulFree inside

theorem cstring_nulFree (s : Text) : 0 ∉ cstring s := fun inside => by
  simpa using List.mem_takeWhile_imp inside

/-- `strcmp`: bytes compare as unsigned characters, a proper prefix first. -/
def strcmp : Text → Text → Ordering
  | [], [] => .eq
  | [], _::_ => .lt
  | _::_, [] => .gt
  | a::as, b::bs => if a < b then .lt else if b < a then .gt else strcmp as bs

theorem strcmp_eq_iff (a b : Text) : strcmp a b = .eq ↔ a = b := by
  induction a generalizing b with
  | nil => cases b <;> simp [strcmp]
  | cons x xs ih =>
    cases b with
    | nil => simp [strcmp]
    | cons y ys =>
      unfold strcmp
      split_ifs with below above
      · simp [UInt8.ne_of_lt below]
      · simp [(UInt8.ne_of_lt above).symm]
      · have same : x = y := UInt8.le_antisymm (UInt8.not_lt.mp above) (UInt8.not_lt.mp below)
        simp [same,ih]

/-- One step of `h = 37 * h + *s`, where `*s` is a signed character. -/
def hashStep (h : UInt32) (c : UInt8) : UInt32 :=
  37 * h + (if c < 128 then c.toUInt32 else c.toUInt32 + 0xFFFFFF00)

/-- The hash of the 16-bucket tables (`SYM_TAB_SZ` and `FORM_TABLE_SIZE`). -/
def hash (name : Text) : Fin 16 :=
  ⟨(name.foldl hashStep 0).toNat % 16,Nat.mod_lt _ (by decide)⟩

/-- A pointer is null, or was never set or stored where it must not be; a transaction is
closed through a null pointer or for the second time; an assertion fails; `exit` is
called; an `int` overflows. -/
inductive Crash
  | nullPointer | wildPointer | closeNull | closeClosed | assertion | exit | overflow | outOfFuel
  deriving DecidableEq

end ModNdb
