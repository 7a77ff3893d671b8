import ModNdb.Query.Execute

/-! `Query` (Query.cc): a request is planned, a transaction opened or joined, and an operation
defined in it. -/
namespace ModNdb.Query
open Config (Dir KeyCol)
open MySQL (DictColumn Mvalue)

/-- What `Query` finds: NDB, the encoders of values, the bytes that are in `mval` when it is
declared, and what becomes of results. -/
structure Setting where
  ndb : Ndb.Answers
  out : MySQL.Surroundings
  mval : Mvalue
  rendering : Rendering

/-- An error page in the middle of `Query`, with its status. -/
def errorPage (status : Int) (error : Option Ndb.Error) (msg : Option Text) : Querying Int := fun w =>
  match handleError status error msg w with
  | (.ok rc,w) => (.ok rc,w)
  | (.error why,w) => (.error (.crash why),w)

/-- `return ndb_handle_error(...)` -/
def refuse {α : Type} (status : Int) (error : Option Ndb.Error) (msg : Option Text) : Querying α := do
  let rc ← errorPage status error msg
  Prog.fail (.returns rc)

def setInst (f : Instance → Instance) : Querying Unit :=
  Prog.modify fun w => {w with inst := f w.inst}

/-- A store to `*q->data`. The local structure is gone after the request. -/
def setData (q : Items) (f : DataOperation → DataOperation) : Querying Unit :=
  match q.data with
  | .localData => return ()
  | .slot n => setInst fun i => {i with data := Function.update i.data n (f (i.data n))}

/-- `allowed_methods` -/
def allowedMethods (dir : Dir) : Text :=
  List.intercalate [code ','] ((if dir.visible = [] then [] else [text "GET"]) ++
    (if dir.useEtags then [text "HEAD"] else []) ++
    (if dir.updatable = [] then [] else [text "POST"]) ++
    if dir.allowDelete then [text "DELETE"] else [])

section
variable (srv : ServerConfig) (setting : Setting) (r : RequestRec) (dir : Dir)
  (source : QuerySource)

def newRead (tab : Ndb.Table) (data : DataOperation) : DataOperation :=
  let data := {data with fmt := dir.fmt, selectStar := dir.selectStar, resultCols := some []}
  if dir.selectStar then {data with nResultCols := tab.columns.length}
  else {data with nResultCols := dir.visible.length, aliases := some dir.aliases}

def World.claim (tab : Ndb.Table) (w : World) : World :=
  let n := w.inst.nReadOps
  {w with
    inst := {w.inst with
      nReadOps := n + 1, useEtag := w.inst.useEtag || dir.useEtags,
      data := Function.update w.inst.data n (newRead dir tab (w.inst.data n))},
    queued := w.queued ++ [(w.request,n)]}

def setUpRead (q : Items) : Querying Items := do
  let w ← Prog.get
  if w.inst.nReadOps < srv.maxReadOperations then do
    Prog.modify (World.claim dir q.tab)
    return {q with data := .slot w.inst.nReadOps}
  else refuse 500 none (some (text "Too many read operations in one transaction."))

/-- `qsource.get_form_data()` -/
def getForm : Querying FormTable :=
  match source.formData with
  | .error why => crash why
  | .ok read => if read.status = 0 then return read.form else refuse read.status none none

/-- A write; one without keys is an insert. -/
def setUpPost (form : FormTable) (q : Items) : Items :=
  let q := {q with
    opSetup := .write, opAction := .write, form := form,
    setVals := List.replicate dir.updatable.length .zero}
  if r.args = none ∧ dir.pathinfo = [] then {q with plan := .primaryKey, opSetup := .insert} else q

def setUpMethod (q : Items) : Querying Items :=
  match source.reqMethod with
  | .get => setUpRead srv dir q
  | .post => do
    let form ← getForm source
    return setUpPost r dir form q
  | .delete =>
    if dir.allowDelete then return {q with opSetup := .delete, opAction := .delete}
    else refuse 405 none (some (allowedMethods dir))
  | .other => refuse 405 none (some (allowedMethods dir))

/-- `dict->getTable(dir->table)` -/
def getTable : Querying Ndb.Table :=
  match setting.ndb.table with
  | some tab => return tab
  | none => do
    setInst fun i => {i with stats := {i.stats with errors := i.stats.errors + 1}}
    refuse 500 (some setting.ndb.error) (some (text "Configuration error."))

def checkPlan (q : Items) : Querying Items :=
  if r.methodNumber = .get ∧ ¬(dir.tableScan = true ∨ q.activeIndex ≠ none) then
    Prog.fail (.abort2 404)
  else return q

/-- Up to the check that there is a plan. -/
def planQuery : Querying Items := do
  let tab ← getTable setting
  let q ← setUpMethod srv r dir source (.init tab)
  checkPlan r dir (findPlan r dir q)

/-- `i->db->startTransaction()` -/
def World.start (w : World) : World :=
  let t := w.transactions.length
  {w with
    inst := {w.inst with tx := some t}, transactions := w.transactions ++ [⟨true,[]⟩],
    trace := w.trace ++ [.started t]}

def openTransaction : Querying Unit := do
  let w ← Prog.get
  if w.inst.tx = none then
    if w.inst.aborted then Prog.fail (.abort2 500)
    else if setting.ndb.startTransaction then Prog.modify World.start
    else Prog.fail (.abort1 500)

def getIndex (name : Text) : Querying Ndb.Index :=
  match setting.ndb.index name with
  | none => Prog.fail (.abort1 500)
  | some idx => return idx

/-- An index object for an index of the type that it needs. -/
def indexOfType (name : Text) (type : Ndb.IndexType) (kind : IndexKind) (q : Items) :
    Querying Items := do
  let idx ← getIndex setting name
  if idx.type ≠ type then Prog.fail (.abort1 0)
  else return {q with idx := some idx, idxobj := some ⟨kind,0,0,0⟩}

/-- The index object of the plan. A plan that is none of the four cases leaves it null. -/
def chooseIndex (q : Items) : Querying Items :=
  if q.plan = .scan then
    match dir.indexScan.name with
    | some name => indexOfType setting name .orderedIndex .ordered q
    | none => return {q with idxobj := some ⟨.tableScan,0,0,0⟩}
  else if q.plan = .primaryKey then return {q with idxobj := some ⟨.pk,0,0,0⟩}
  else
    match q.activeIndex with
    | none => Prog.fail (.abort1 500)
    | some n =>
      match dir.indexes[n]? with
      | none => crash .wildPointer
      | some index =>
        if q.plan = .uniqueIndexAccess then
          indexOfType setting index.name .uniqueHashIndex .unique q
        else if q.plan = .orderedIndexScan then
          indexOfType setting index.name .orderedIndex .ordered q
        else do
          let idx ← getIndex setting index.name
          return {q with idx := some idx}

/-- `n_parts` of an index object -/
def numberOfParts (q : Items) (kind : IndexKind) : Nat :=
  match kind with
  | .pk => q.tab.primaryKeys.length
  | .unique | .ordered => (q.idx.map fun idx => idx.columns.length).getD 0
  | .tableScan => 0

/-- The stores to `op` and `scanop`. -/
def storeOperation (kind : IndexKind) (op : Ndb.Operation) (data : DataOperation) : DataOperation :=
  match kind with
  | .pk | .unique => {data with op := some op}
  | .ordered | .tableScan => {data with op := some op, scanop := some op}

def World.addOperation (t : Nat) (w : World) : World :=
  {w with transactions := w.transactions.modify t fun tx => {tx with ops := tx.ops ++ [⟨w.request⟩]}}

/-- `get_ndb_operation`: an operation is defined in the transaction. -/
def getNdbOperation (q : Items) : Querying Items := do
  let w ← Prog.get
  match q.idxobj, w.inst.tx with
  | some obj, some t =>
    if setting.ndb.operation then do
      Prog.modify (World.addOperation t)
      setData q (storeOperation obj.kind ⟨w.request⟩)
      return {q with idxobj := some {obj with nParts := numberOfParts q obj.kind}}
    else crash .nullPointer
  | _, _ => crash .nullPointer

/-- A call on the operation, and whether NDB refuses it. -/
def call (c : Ndb.Call) : Querying Bool := fun w =>
  let w := {w with calls := w.calls ++ [c]}
  (.ok (setting.ndb.refuses w.calls),w)

/-- `Plan::SetupRead` -/
def readSetup (q : Items) : Querying Bool := do
  let read (sorted descending : Bool) : Querying Bool :=
    call setting (if sorted then .readTuplesSorted descending else .readTuplesCommitted)
  if q.plan = .scan then
    match dir.indexScan.name with
    | none => call setting .readTuples
    | some _ => read dir.indexScan.sorted dir.indexScan.descending
  else if q.plan = .orderedIndexScan then
    match q.activeIndex.bind fun n => dir.indexes[n]? with
    | none => crash .wildPointer
    | some index => read index.sorted index.descending
  else call setting .readTuple

def updateValue (q : Items) (key : Text) (mval : Mvalue) : Mvalue :=
  match q.form.getItem key, q.tab.column key with
  | some val, some col =>
    let mval := MySQL.value setting.out mval (some col) (some val)
    if mval.useValue = .mustUseBinary then MySQL.binaryValue setting.out mval col val else mval
  | _, _ => mval

/-- `set_up_write` -/
def setUpWrite (q : Items) (isInsert : Bool) : Querying (Bool × Items) := do
  let setVals := List.zipWith (updateValue setting q) dir.updatable q.setVals
  let q := {q with setVals := setVals}
  let isInterpreted := setVals.any fun mval => mval.useValue = .useInterpreted
  let refused ← call setting (
    if isInsert then .insertTuple else if isInterpreted then .interpretedUpdateTuple else .writeTuple)
  return (refused,q)

/-- `Q.op_setup` -/
def opSetup (q : Items) : Querying (Bool × Items) :=
  match q.opSetup with
  | .read => do
    let refused ← readSetup setting dir q
    return (refused,q)
  | .write => setUpWrite setting dir q false
  | .insert => setUpWrite setting dir q true
  | .delete => do
    let refused ← call setting .deleteTuple
    return (refused,q)

/-- `mval_is_usable` -/
def mvalIsUsable (mval : Mvalue) : Querying Bool :=
  if mval.useValue.isGood then return true
  else
    match mval.useValue with
    | .errBadUserValue | .errBadColumn | .errBadDataType => return false
    | _ => crash .assertion

/-- The column of the current key part, and the call that sets it to a value. -/
def getColumn (q : Items) (baseColName : Option Text) (relOp : Nat) :
    Querying (Option DictColumn × (Ndb.Passed → Ndb.Call)) :=
  match q.idxobj with
  | none => crash .nullPointer
  | some obj =>
    match obj.kind with
    | .pk =>
      match (q.tab.primaryKeys[obj.keyPart]?).bind q.tab.column with
      | none => crash .nullPointer
      | some col => return (some col,.equal col.no)
    | .unique => return ((q.idx.bind fun idx => idx.columns[obj.keyPart]?),.equal obj.keyPart)
    | .ordered =>
      match baseColName with
      | none => crash .nullPointer
      | some [] =>
        return ((q.idx.bind fun idx => idx.columns[obj.keyPart]?),.setBound (.at obj.keyPart) relOp)
      | some name => return (q.tab.column name,.setBound (.named name) relOp)
    | .tableScan => crash .assertion

/-- The pointer that `set_key_part` passes. -/
def passed (mval : Mvalue) : Ndb.Passed :=
  if mval.useValue = .useChar then .target mval.target else .inside mval.u

def countPart (q : Items) : Items :=
  {q with idxobj := q.idxobj.map fun obj =>
    if obj.kind = .ordered then {obj with partsUsed := obj.partsUsed + 1} else obj}

/-- `next_key_part` -/
def nextKeyPart (q : Items) : Bool × Items :=
  match q.idxobj with
  | none => (false,q)
  | some obj =>
    let q := {q with idxobj := some {obj with keyPart := obj.keyPart + 1}}
    if obj.kind = .ordered then (obj.partsUsed < obj.nParts,q) else (obj.keyPart < obj.nParts,q)

/-- A key part is handed to the index object, unless its value is not usable; whether it was
refused. `n` is the key column, where the value is a parameter. -/
def handPart (n : Option Nat) (value : Option Text) (usable : Bool) (c : Ndb.Call) :
    Querying Bool :=
  if usable then do
    n.forM fun n => emit (.keyPart n value c)
    call setting c
  else return true

/-- A value is encoded and handed to the index object, or the request ends with an error. -/
def setPart (n : Option Nat) (baseColName : Option Text) (relOp : Nat) (value : Option Text)
    (mval : Mvalue) (q : Items) : Querying (Mvalue × Items) := do
  let (col,make) ← getColumn q baseColName relOp
  let mval := MySQL.value setting.out mval col value
  let usable ← mvalIsUsable mval
  let refused ← handPart setting n value usable (make (passed mval))
  if refused then do
    let msg := if n.isSome then text "Configuration error" else text "Configuration error."
    let rc ← errorPage 500 (some setting.ndb.error) (some msg)
    Prog.fail (.abort1 rc)
  else return (mval,countPart q)

/-- The walk along the chain of the active index, at most `used` columns far. -/
def setKeyParts : Nat → Option Nat → Mvalue → Items → Querying (Mvalue × Items)
  | 0, _, mval, q => return (mval,q)
  | _ + 1, none, mval, q => return (mval,q)
  | used + 1, some col, mval, q =>
    match dir.keyColumns[col]? with
    | none => crash .wildPointer
    | some keycol => do
      let (mval,q) ← setPart setting (some col) keycol.baseColName keycol.relOp (q.keys col) mval q
      let (more,q) := nextKeyPart q
      if more then setKeyParts used keycol.nextInKey mval q else return (mval,q)

def setConstants : List Config.Constant → Mvalue → Items → Querying (Mvalue × Items)
  | [], mval, q => return (mval,q)
  | constant::constants, mval, q => do
    let (mval,q) ← setPart setting none constant.baseColName constant.relOp (some constant.value) mval q
    setConstants constants mval q

def setIndexParts (mval : Mvalue) (q : Items) : Querying (Mvalue × Items) :=
  match if q.plan = .scan then none else q.activeIndex with
  | none => return (mval,q)
  | some n =>
    match dir.indexes[n]? with
    | none => crash .wildPointer
    | some index => do
      let (mval,q) ← setKeyParts setting dir q.keyColumnsUsed.toNat index.firstCol mval q
      setConstants setting index.constants mval q

/-- `NdbScanFilter::COND_LIKE` -/
def condLike : Nat := 6

/-- A condition of the scan filter; what the call returns is not looked at. -/
def filterCmp (q : Items) (n : Nat) (c : Ndb.Call) : Querying Unit := do
  emit (.filter n (q.keys n) c)
  let _ ← call setting c

/-- `filter.isnotnull(...)`, for a LIKE. -/
def filterNotNull (keycol : KeyCol) (col : DictColumn) : Querying Bool :=
  if keycol.relOp = condLike ∧ col.nullable = true then call setting (.filterNotNull col.no)
  else return false

def setFilter (q : Items) (mval : Mvalue) (n : Nat) : Querying Mvalue :=
  match dir.keyColumns[n]? with
  | none => crash .wildPointer
  | some keycol =>
    match keycol.baseColName.bind q.tab.column with
    | none => crash .nullPointer
    | some col =>
      if condLike ≤ keycol.relOp then do
        let _ ← filterNotNull setting keycol col
        filterCmp setting q n (.filterLike keycol.relOp col.no ((q.keys n).getD []))
        return mval
      else do
        let mval := MySQL.value setting.out mval (some col) (q.keys n)
        filterCmp setting q n (.filterCmp keycol.relOp col.no (passed mval)
          (if mval.useValue = .useChar then mval.colLen else 0))
        return mval

def setFilters (q : Items) : List Nat → Mvalue → Querying Mvalue
  | [], mval => return mval
  | n::filters, mval => do
    let mval ← setFilter setting dir q mval n
    setFilters q filters mval

/-- `MySQL::result` of a column -/
def newResult (col : DictColumn) : Querying Bool :=
  if col.type = .blob ∨ col.type = .text then
    if setting.ndb.blobHandle col.name then call setting (.getBlobHandle col.no)
    else crash .nullPointer
  else call setting (.getValue col.no)

/-- `Plan::Read` asks for the result columns. A column that is not there is not looked for
before its type is. -/
def readColumns (q : Items) : List (Option DictColumn) → Querying Unit
  | [] => return ()
  | none::_ => crash .nullPointer
  | some col::cols => do
    let _ ← newResult setting col
    setData q fun data => {data with resultCols := data.resultCols.map (· ++ [col])}
    readColumns q cols

/-- A column of `Plan::Write` is set; whether that failed. -/
def writeColumn (mval : Mvalue) (col : DictColumn) : Querying Bool := do
  if ← mvalIsUsable mval then
    match mval.useValue with
    | .useAutoinc =>
      match setting.ndb.autoInc with
      | none => return true
      | some next => call setting (.setAutoInc col.no (if mval.len = 8 then 8 else 4) next)
    | .useNull => call setting (.setNull col.no)
    | .useInterpreted =>
      match mval.interpreted with
      | .isIncrement => call setting (.incValue col.no)
      | .isDecrement => call setting (.subValue col.no)
      | .notInterpreted => crash .assertion
    | .useBlob =>
      if setting.ndb.blobHandle col.name then
        call setting (.setBlob col.name (mval.binaryInfo.getD []))
      else crash .nullPointer
    | _ => call setting (.setValue col.no (passed mval))
  else return true

/-- `Plan::Write` returns 1 if there is nothing to write. -/
def writeColumns : List Mvalue → Int → Querying Int
  | [], eqr => return eqr
  | mval::mvals, eqr =>
    match mval.column with
    | none => writeColumns mvals eqr
    | some col => do
      if ← writeColumn setting mval col then
        let rc ← errorPage 500 (some setting.ndb.error) none
        return rc
      else writeColumns mvals 0

/-- `Q.op_action` -/
def opAction (q : Items) : Querying Int :=
  match q.opAction with
  | .read => do
    readColumns setting q
      (if dir.selectStar then q.tab.columns.map some else dir.visible.map q.tab.column)
    return 0
  | .write => writeColumns setting q.setVals 1
  | .delete => return 0

/-- `Query`, once it is planned and there is a transaction. -/
def defineOperation (q : Items) : Querying Unit := do
  let q ← chooseIndex setting dir q
  let q ← getNdbOperation setting q
  let (refused,q) ← opSetup setting dir q
  if refused then Prog.fail (.abort1 404)
  else
    let (mval,q) ← setIndexParts setting dir setting.mval q
    let _ ← (if 4 ≤ q.plan.value then setFilters setting dir q q.filterList mval else return mval)
    setInst fun i => {i with
      jsonrequest := i.jsonrequest ||
        (source.contentType.map fun type => type.map toLower) = some (text "application/jsonrequest")}
    let rc ← opAction setting dir q
    if rc ≠ 0 then Prog.fail (.abort1 rc)

def queryBody : Querying Unit := do
  let q ← planQuery srv setting r dir source
  openTransaction setting
  defineOperation setting dir source q

/-- `abort2`: the transaction is given up, and the batch with it. -/
def abort (status : Int) : Prog Crash World Int := do
  Prog.modify fun w => {w with inst := {w.inst with tx := none}}
  (if source.keepTxOpen then
    Prog.modify fun w => {w with inst := {w.inst with aborted := true}}
  else cleanup)
  return if status = 0 then 500 else status

/-- `Query` -/
def query : Prog Crash World Int := fun w =>
  match queryBody srv setting r dir source w with
  | (.ok (),w) =>
    if source.keepTxOpen then (.ok 0,w)
    else executeAll srv setting.ndb setting.rendering r w
  | (.error (.returns status),w) => (.ok status,w)
  | (.error (.abort1 status),w) => (closeTx >>= fun _ => abort source status) w
  | (.error (.abort2 status),w) => abort source status w
  | (.error (.crash why),w) => (.error why,w)

end

end ModNdb.Query
