import ModNdb.Lib.Prog
import ModNdb.JSON.Parser
import ModNdb.JSON.Unescape
import ModNdb.Query.Form

/-! The semantic actions of JSON.atg. `key` and `val` are variables of the parser, which
nothing sets before the first action does. Texts are recorded with the member they were
made for, and calls of `set_item` with the member that ends there. -/
namespace ModNdb.JSON
open Query (FormTable)

/-- A text that `JSON_blob` made; `member` is the innermost member that was being read. -/
structure Made where
  bytes : Text
  member : Option Nat
  deriving DecidableEq

inductive Pointer
  | unset
  | null
  | made (text : Made)
  deriving DecidableEq

structure Call where
  member : Nat
  name : Pointer
  value : Pointer
  deriving DecidableEq

/-- The variables of the parser and the table it fills; members are counted as their names
are read, and `members` are those that are being read, the innermost first. -/
structure Reading where
  key : Pointer
  val : Pointer
  form : FormTable
  opened : Nat
  members : List Nat
  calls : List Call

def Reading.init : Reading := ⟨.unset,.unset,.empty,0,[],[]⟩

/-- The bytes of a token, cut to `char`s, without the quotes of a string. -/
def Token.chars (token : Token) : Text :=
  let chars := if token.val.head? = some 34 then (token.val.drop 1).take (token.val.length - 2)
    else token.val
  chars.map UInt8.ofNat

def Fault.crash : Fault → Crash
  | .outsideTable | .outsideBuffer => .wildPointer
  | .assertion => .assertion
  | .outOfFuel => .outOfFuel

/-- `JSON_blob` -/
def jsonBlob (token : Token) : Except Crash Text :=
  match jsonUnescape token.chars with
  | .ok (length,buffer) => .ok (buffer.take length)
  | .error fault => .error fault.crash

def blob (token : Token) : Prog Crash Reading Text := fun r => (jsonBlob token,r)

/-- `set_item(key, val)`, which copies the length and the string of `val`. A name is a C
string. -/
def setItem : Prog Crash Reading Unit := fun r =>
  let r := {r with
    calls := r.calls ++ [Call.mk (r.members.headD 0) r.key r.val], members := r.members.tail}
  match r.key, r.val with
  | .made key, .made val => (.ok (),{r with form := r.form.setItem (cstring key.bytes,val.bytes)})
  | .unset, _ | _, .unset => (.error .wildPointer,r)
  | .null, _ | _, .null => (.error .nullPointer,r)

def Action.run : Action → Prog Crash Reading Unit
  | .name token => do
    let bytes ← blob token
    Prog.modify fun r => {r with
      key := .made ⟨bytes,some r.opened⟩, opened := r.opened + 1, members := r.opened :: r.members}
  | .value token => do
    let bytes ← blob token
    Prog.modify fun r => {r with val := .made ⟨bytes,r.members.head?⟩}
  | .null => Prog.modify fun r => {r with val := .null}
  | .setItem => JSON.setItem

def runActions (actions : List Action) : Prog Crash Reading Unit := actions.forM Action.run

end ModNdb.JSON
