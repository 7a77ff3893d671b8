import ModNdb.Text

/-! Requests, as the server hands them to the module, and their form data: URL-encoded pairs, and
the hash table of names and values that readers of request bodies fill (query_source.cc). -/
namespace ModNdb.Query

inductive Method | get | post | delete | other
  deriving DecidableEq

/-- The body of a request: what `ap_setup_client_block` returns, whether
`ap_should_client_block` finds a body, its length, and what each `ap_get_client_block`
delivers. -/
structure ClientBlock where
  setup : Int
  should : Bool
  remaining : Nat
  blocks : List Text

/-- `request_rec`, where the module looks at it. `main` says that it is a subrequest, with
the notes of its main request. `beforePathInfo` is the byte in front of `path_info`. -/
structure RequestRec where
  main : Bool
  methodNumber : Method
  args : Option Text
  pathInfo : Text
  beforePathInfo : UInt8
  contentType : Option Text
  requestMethod : Option Text
  requestData : Option Text
  sendResult : Bool
  body : ClientBlock

/-- `ap_getword`: the word up to a stop character, and the line behind the run of stop
characters that follows it. -/
def getword (line : Text) (stop : UInt8) : Text × Text :=
  (line.takeWhile (· ≠ stop),(line.dropWhile (· ≠ stop)).dropWhile (· = stop))

def hexDigit? (c : UInt8) : Option Nat :=
  if code '0' ≤ c ∧ c ≤ code '9' then some (c.toNat - 48)
  else if code 'A' ≤ c ∧ c ≤ code 'F' then some (c.toNat - 55)
  else if code 'a' ≤ c ∧ c ≤ code 'f' then some (c.toNat - 87)
  else none

/-- The escapes of a URL decoded; a broken escape stands for itself. -/
def decodeUrl : Text → Text
  | c::a::b::rest =>
    match hexDigit? a, hexDigit? b with
    | some i, some j =>
      if c = code '%' then UInt8.ofNat (16 * i + j) :: decodeUrl rest
      else c :: decodeUrl (a::b::rest)
    | _, _ => c :: decodeUrl (a::b::rest)
  | short => short

/-- `ap_unescape_url` in place: a decoded NUL ends the string. -/
def unescapeUrl (url : Text) : Text := cstring (decodeUrl url)

/-- The pairs of `key=value&key=value...`; every round takes at least one character. -/
def pairsLoop : Nat → Text → List (Text × Text)
  | 0, _ => []
  | fuel + 1, line =>
    if line = [] then []
    else
      let (word,rest) := getword line (code '&')
      let (key,value) := getword word (code '=')
      (unescapeUrl key,unescapeUrl value) :: pairsLoop fuel rest

def pairs (line : Text) : List (Text × Text) := pairsLoop line.length line

/-- `form_table`: the items of a bucket, the one set last in front. -/
abbrev FormTable := Fin 16 → List (Text × Text)

def FormTable.empty : FormTable := fun _ => []

def FormTable.setItem (table : FormTable) (item : Text × Text) : FormTable :=
  Function.update table (hash item.1) (item :: table (hash item.1))

def FormTable.getItem (table : FormTable) (name : Text) : Option Text :=
  ((table (hash name)).find? fun item => item.1 == name).map Prod.snd

def setItems (items : List (Text × Text)) : FormTable := items.foldl FormTable.setItem .empty

@[simp] theorem getItem_empty (name : Text) : FormTable.empty.getItem name = none := rfl

theorem getItem_setItem (table : FormTable) (item : Text × Text) (name : Text) :
    (table.setItem item).getItem name = if item.1 = name then some item.2 else table.getItem name := by
  unfold FormTable.setItem FormTable.getItem
  by_cases same : hash name = hash item.1
  · rw [same,Function.update_self,List.find?_cons]
    by_cases named : item.1 = name
    · simp [named]
    · have other : (item.1 == name) = false := beq_eq_false_iff_ne.mpr named
      rw [other,if_neg named]
  · rw [Function.update_of_ne same,if_neg]
    rintro rfl
    exact same rfl

def lastNamed (items : List (Text × Text)) (name : Text) : Option Text :=
  (items.reverse.find? fun item => item.1 == name).map Prod.snd

theorem getItem_foldl (items : List (Text × Text)) (table : FormTable) (name : Text) :
    (items.foldl FormTable.setItem table).getItem name =
      (lastNamed items name).or (table.getItem name) := by
  induction items generalizing table with
  | nil => rfl
  | cons item items ih =>
    rw [List.foldl_cons,ih,getItem_setItem]
    unfold lastNamed
    rw [List.reverse_cons,List.find?_append]
    cases items.reverse.find? fun item => item.1 == name with
    | some later => rfl
    | none =>
      by_cases named : item.1 = name
      · simp [named]
      · simp [named]

/-- A table answers with the last item that was set under a name. -/
theorem getItem_setItems (items : List (Text × Text)) (name : Text) :
    (setItems items).getItem name = lastNamed items name := by
  rw [setItems,getItem_foldl,getItem_empty,Option.or_none]

theorem lastNamed_eq_none_iff (items : List (Text × Text)) (name : Text) :
    lastNamed items name = none ↔ ∀ item ∈ items, item.1 ≠ name := by
  unfold lastNamed
  rw [Option.map_eq_none_iff,List.find?_eq_none]
  simp

end ModNdb.Query
