import ModNdb.JSON.Actions
import ModNdb.Query.Form

/-! Readers of request bodies (request_body.cc), and where the method and the form data of a query
come from (query_source.cc). `databuffer` is null until a body was read; a reader returns a status
and leaves the form data. -/
namespace ModNdb.Query

/-- `read_urlencoded` -/
def readUrlencoded (databuffer : Option Text) : Except Crash (Int × FormTable) :=
  match databuffer with
  | none => .error .nullPointer
  | some data => .ok (0,setItems (pairs (cstring data)))

/-- `read_jsonrequest`. A token that does not fit in the scanner ends the process. -/
def readJsonrequest (fits : JSON.Token → Bool) (databuffer : Option Text) (length : Nat) :
    Except Crash (Int × FormTable) :=
  match JSON.scannerInit ((databuffer.getD []).take length) with
  | none => .error .exit
  | some chars =>
    let p := (JSON.parse (JSON.tokens chars)).2
    if (JSON.scanned (JSON.tokens chars)).all fits then
      match JSON.runActions p.actions .init with
      | (.ok (),r) => .ok (if p.erroneous then 400 else 0,r.form)
      | (.error crash,_) => .error crash
    else .error .exit

section
variable (fits : JSON.Token → Bool) (databuffer : Option Text) (length : Nat) (chars : List Nat)
  (begun : JSON.scannerInit ((databuffer.getD []).take length) = some chars)
include begun

theorem readJsonrequest_long (long : (JSON.scanned (JSON.tokens chars)).all fits = false) :
    readJsonrequest fits databuffer length = .error .exit := by
  simp only [readJsonrequest,begun,long,Bool.false_eq_true,if_false]

theorem readJsonrequest_runs (short : (JSON.scanned (JSON.tokens chars)).all fits = true)
    (r : JSON.Reading) (ran :
      JSON.runActions (JSON.parse (JSON.tokens chars)).2.actions .init = (.ok (),r)) :
    readJsonrequest fits databuffer length =
      .ok (if (JSON.parse (JSON.tokens chars)).2.erroneous then 400 else 0,r.form) := by
  simp only [readJsonrequest,begun,short,if_true,ran]

theorem readJsonrequest_crashes (short : (JSON.scanned (JSON.tokens chars)).all fits = true)
    (r : JSON.Reading) (crash : Crash) (ran :
      JSON.runActions (JSON.parse (JSON.tokens chars)).2.actions .init = (.error crash,r)) :
    readJsonrequest fits databuffer length = .error crash := by
  simp only [readJsonrequest,begun,short,if_true,ran]

end

/-- The loop of `util_read`: `rpos` is the length of what has been read. -/
def readBlocks (length : Nat) : List Text → Text → Except Crash Text
  | [], rbuf => .ok rbuf
  | block::blocks, rbuf =>
    if block = [] then .ok rbuf
    else if 2^31 ≤ rbuf.length + block.length then .error .overflow
    else
      let rsize := if length < rbuf.length + block.length then length - rbuf.length else block.length
      readBlocks length blocks (rbuf ++ block.take rsize)

/-- `util_read`: the status, the buffer that `ap_pcalloc` cleared, and the length. -/
def utilRead (body : ClientBlock) : Except Crash (Int × Option Text × Nat) :=
  if body.setup ≠ 0 then .ok (body.setup,none,0)
  else if body.should then do
    let rbuf ← readBlocks body.remaining body.blocks []
    return (0,some (rbuf ++ List.replicate (body.remaining + 1 - rbuf.length) 0),rbuf.length)
  else .ok (0,none,0)

inductive BodyReader | urlencoded | jsonrequest
  deriving DecidableEq

def toLower (c : UInt8) : UInt8 := if code 'A' ≤ c ∧ c ≤ code 'Z' then c + 32 else c

def bodyReader (contentType : Option Text) : Except Crash (Option BodyReader) :=
  match contentType with
  | none => .ok (some .urlencoded)
  | some contentType =>
    if contentType = text "application/x-www-form-urlencoded" then .ok (some .urlencoded)
    else if contentType.map toLower = text "application/jsonrequest" then .ok (some .jsonrequest)
    else if contentType.take 19 = text "multipart/form-data" then .error .assertion
    else .ok none

/-- What `get_form_data` returns and leaves; `passed` are the arguments of the reader, if one
was called. -/
structure FormRead where
  status : Int
  form : FormTable
  passed : Option (Option Text × Nat)

def readBody (reader : BodyReader) (databuffer : Option Text) (length : Nat) :
    Except Crash (Int × FormTable) :=
  match reader with
  | .urlencoded => readUrlencoded databuffer
  | .jsonrequest => readJsonrequest JSON.Token.fits databuffer length

/-- `HTTP_query_source::get_form_data` -/
def getFormData (r : RequestRec) : Except Crash FormRead :=
  if r.methodNumber ≠ .post then .ok ⟨0,.empty,none⟩
  else do
    match ← bodyReader r.contentType with
    | none => return ⟨-1,.empty,none⟩
    | some reader =>
      let (rc,databuffer,length) ← utilRead r.body
      if rc ≠ 0 then return ⟨rc,.empty,none⟩
      else
        let (rc,form) ← readBody reader databuffer length
        return ⟨rc,form,some (databuffer,length)⟩

/-- `Apache_subrequest_query_source::get_form_data` -/
def subrequestFormData (r : RequestRec) : Except Crash FormRead :=
  match r.requestData with
  | none => .error .nullPointer
  | some data => .ok ⟨0,setItems (pairs data),none⟩

/-- `query_source`, with what its `get_form_data` returns. -/
structure QuerySource where
  reqMethod : Method
  contentType : Option Text
  keepTxOpen : Bool
  formData : Except Crash FormRead

/-- `HTTP_query_source` -/
def httpSource (r : RequestRec) : QuerySource where
  reqMethod := r.methodNumber
  contentType := r.contentType
  keepTxOpen := false
  formData := getFormData r

/-- The method of the note; the memory of the source is cleared, and `M_GET` is 0. -/
def noteMethod (note : Option Text) : Method :=
  match note with
  | none => .get
  | some note =>
    if note = text "POST" then .post else if note = text "DELETE" then .delete else .get

/-- `Apache_subrequest_query_source` -/
def subrequestSource (r : RequestRec) : QuerySource where
  reqMethod := noteMethod r.requestMethod
  contentType := none
  keepTxOpen := true
  formData := subrequestFormData r

end ModNdb.Query
