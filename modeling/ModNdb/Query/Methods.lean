import ModNdb.Query.Frame
import ModNdb.Query.Given
import ModNdb.Query.Run

/-! The two ways to a query, compared: a request of a client with a method, and a subrequest
whose note names it. -/
namespace ModNdb.Query
open Config (AccessPlan Dir)

/-- `r->method_number` for the name of a method; a HEAD is a GET. -/
def Method.named (name : Text) : Method :=
  if name = text "GET" ∨ name = text "HEAD" then .get
  else if name = text "POST" then .post
  else if name = text "DELETE" then .delete
  else .other

structure Planned where
  opSetup : OpSetup
  opAction : OpAction
  plan : AccessPlan
  activeIndex : Option Nat
  keys : Nat → Option Text

def Items.decided (q : Items) : Planned := ⟨q.opSetup,q.opAction,q.plan,q.activeIndex,q.keys⟩

/-- A request of a client and a subrequest for the same method, arguments and path info;
those that write have the same form data. The server gives every subrequest `M_GET`. -/
structure Alike (name : Text) (r sub : RequestRec) : Prop where
  client : r.main = false
  method : r.methodNumber = Method.named name
  main : sub.main = true
  methodNumber : sub.methodNumber = .get
  note : sub.requestMethod = some name
  args : sub.args = r.args
  pathInfo : sub.pathInfo = r.pathInfo
  beforePathInfo : sub.beforePathInfo = r.beforePathInfo
  form : Method.named name = .post → ∃ form passed passed',
    (httpSource r).formData = .ok ⟨0,form,passed⟩ ∧
      (subrequestSource sub).formData = .ok ⟨0,form,passed'⟩

section
variable (srv : ServerConfig) (setting : Setting) (dir : Dir) (w : World) (name : Text)
  (r sub : RequestRec)

/-- The decision, or how the request was rejected, with the page that it was answered. -/
def planning (r : RequestRec) (source : QuerySource) : Except Stop Planned × List Event :=
  let planned := planQuery srv setting r dir source w
  (planned.1.map Items.decided,planned.2.trace)

def PlannedAlike : Prop :=
  planning srv setting dir w r (httpSource r) =
    planning srv setting dir w sub (subrequestSource sub)

def HasPlan : Prop := dir.tableScan = true ∨ (chosen r dir).2 ≠ none

/-- When both are planned alike: there is no table, or the method reads, or it writes and
there is a plan, or deletes and there is a plan or that is not allowed. -/
def AlikeWhen : Prop :=
  setting.ndb.table = none ∨ Method.named name = .get ∨
  (Method.named name = .post ∧ HasPlan dir r) ∨
  (Method.named name = .delete ∧ (dir.allowDelete = false ∨ HasPlan dir r))

end

section
variable {srv : ServerConfig} {setting : Setting} {dir : Dir} {w : World} {name : Text}
  {r sub : RequestRec}

theorem findPlan_congr (alike : Alike name r sub) (q : Items) :
    findPlan sub dir q = findPlan r dir q := by
  unfold findPlan usePathInfo useArgs
  rw [alike.args,alike.pathInfo,alike.beforePathInfo]

/-- A note other than POST or DELETE is read as a GET. -/
theorem Alike.noteMethod (alike : Alike name r sub) : (subrequestSource sub).reqMethod =
    if Method.named name = .other then .get else Method.named name := by
  have note : (subrequestSource sub).reqMethod = Query.noteMethod (some name) :=
    congrArg Query.noteMethod alike.note
  rw [note]
  by_cases post : name = text "POST"
  · subst post
    rfl
  by_cases delete : name = text "DELETE"
  · subst delete
    rfl
  unfold Query.noteMethod Method.named
  dsimp only
  rw [if_neg post,if_neg delete,if_neg post,if_neg delete]
  by_cases get : name = text "GET" ∨ name = text "HEAD"
  · rw [if_pos get]
    rfl
  · rw [if_neg get]
    rfl

theorem checkPlan_other (q : Items) (method : r.methodNumber ≠ .get) : checkPlan r dir q = pure q :=
  if_neg fun get => method get.1

theorem checkPlan_get (q : Items) (method : r.methodNumber = .get) : checkPlan r dir q =
    if dir.tableScan = true ∨ q.activeIndex ≠ none then pure q else Prog.fail (.abort2 404) := by
  unfold checkPlan
  by_cases planned : dir.tableScan = true ∨ q.activeIndex ≠ none
  · rw [if_neg fun get => get.2 planned,if_pos planned]
  · rw [if_pos ⟨method,planned⟩,if_neg planned]

/-- The check differs for a query that has set up a write. -/
theorem checked_alike_iff (alike : Alike name r sub) (method : r.methodNumber ≠ .get) (q : Items)
    (unset : q.activeIndex = none) (fresh : q.plan = .noPlan ∨ r.args = none ∧ dir.pathinfo = []) :
    ((checkPlan r dir (findPlan r dir q) w).1.map Items.decided,
        (checkPlan r dir (findPlan r dir q) w).2.trace) =
      ((checkPlan sub dir (findPlan sub dir q) w).1.map Items.decided,
        (checkPlan sub dir (findPlan sub dir q) w).2.trace) ↔ HasPlan dir r := by
  rw [checkPlan_other _ method,checkPlan_get _ alike.methodNumber,findPlan_congr alike,
    findPlan_activeIndex r dir q unset fresh]
  unfold HasPlan
  by_cases planned : dir.tableScan = true ∨ (chosen r dir).2 ≠ none
  · rw [if_pos planned]
    exact ⟨fun _ => planned,fun _ => rfl⟩
  · rw [if_neg planned]
    refine ⟨fun same => ?_,fun has => absurd has planned⟩
    cases (Prod.mk.inj same).1

theorem alike_get (alike : Alike name r sub) (tab : Ndb.Table) (found : setting.ndb.table = some tab)
    (method : Method.named name = .get) : PlannedAlike srv setting dir w r sub := by
  have http : (httpSource r).reqMethod = .get := alike.method.trans method
  have note : (subrequestSource sub).reqMethod = .get := by
    rw [alike.noteMethod,method]
    rfl
  unfold PlannedAlike planning
  rw [planQuery_found _ _ _ _ _ tab found,planQuery_found _ _ _ _ _ tab found]
  unfold setUpMethod
  rw [http,note]
  dsimp only
  unfold checkPlan
  rw [alike.method,alike.methodNumber,method]
  simp only [findPlan_congr alike]

theorem setUpMethod_post {source : QuerySource} {form : FormTable}
    {passed : Option (Option Text × Nat)} (method : source.reqMethod = .post)
    (read : source.formData = .ok ⟨0,form,passed⟩) (q : Items) :
    setUpMethod srv r dir source q = pure (setUpPost r dir form q) := by
  unfold setUpMethod getForm
  rw [method,read]
  rfl

theorem setUpMethod_delete {source : QuerySource} (method : source.reqMethod = .delete) (q : Items) :
    setUpMethod srv r dir source q =
      if dir.allowDelete then pure {q with opSetup := .delete, opAction := .delete}
      else refuse 405 none (some (allowedMethods dir)) := by
  unfold setUpMethod
  rw [method]

/-- Writes that are set up alike are planned alike if there is a plan. -/
theorem alike_write_iff (alike : Alike name r sub) (tab : Ndb.Table)
    (found : setting.ndb.table = some tab) (method : r.methodNumber ≠ .get) (q : Items)
    (http : setUpMethod srv r dir (httpSource r) (.init tab) = pure q)
    (note : setUpMethod srv sub dir (subrequestSource sub) (.init tab) = pure q)
    (unset : q.activeIndex = none) (fresh : q.plan = .noPlan ∨ r.args = none ∧ dir.pathinfo = []) :
    PlannedAlike srv setting dir w r sub ↔ HasPlan dir r := by
  unfold PlannedAlike planning
  rw [planQuery_found _ _ _ _ _ tab found,planQuery_found _ _ _ _ _ tab found,http,note]
  exact checked_alike_iff alike method q unset fresh

theorem alike_post_iff (alike : Alike name r sub) (tab : Ndb.Table)
    (found : setting.ndb.table = some tab) (method : Method.named name = .post) :
    PlannedAlike srv setting dir w r sub ↔ HasPlan dir r := by
  obtain ⟨form,passed,passed',read,read'⟩ := alike.form method
  have note : (subrequestSource sub).reqMethod = .post := by
    rw [alike.noteMethod,method]
    rfl
  have write : r.methodNumber ≠ .get := by
    rw [alike.method,method]
    exact fun same => by cases same
  have posted : setUpPost sub dir form (.init tab) = setUpPost r dir form (.init tab) := by
    unfold setUpPost
    rw [alike.args]
  apply alike_write_iff alike tab found write (setUpPost r dir form (.init tab))
  · exact setUpMethod_post (alike.method.trans method) read _
  · rw [setUpMethod_post note read',posted]
  · unfold setUpPost
    dsimp only
    split <;> rfl
  · unfold setUpPost
    dsimp only
    by_cases insert : r.args = none ∧ dir.pathinfo = []
    · exact .inr insert
    · rw [if_neg insert]
      exact .inl rfl

theorem alike_delete_iff (alike : Alike name r sub) (tab : Ndb.Table)
    (found : setting.ndb.table = some tab) (method : Method.named name = .delete) :
    PlannedAlike srv setting dir w r sub ↔ dir.allowDelete = false ∨ HasPlan dir r := by
  have http : (httpSource r).reqMethod = .delete := alike.method.trans method
  have note : (subrequestSource sub).reqMethod = .delete := by
    rw [alike.noteMethod,method]
    rfl
  have write : r.methodNumber ≠ .get := by
    rw [alike.method,method]
    exact fun same => by cases same
  cases allowed : dir.allowDelete with
  | true =>
    rw [or_iff_right fun none => by cases none]
    apply alike_write_iff alike tab found write
        {Items.init tab with opSetup := .delete, opAction := .delete}
    · rw [setUpMethod_delete http,if_pos allowed]
    · rw [setUpMethod_delete note,if_pos allowed]
    · rfl
    · exact .inl rfl
  | false =>
    refine ⟨fun _ => .inl rfl,fun _ => ?_⟩
    have refused : ¬dir.allowDelete = true := by rw [allowed]; exact Bool.false_ne_true
    unfold PlannedAlike planning
    rw [planQuery_found _ _ _ _ _ tab found,planQuery_found _ _ _ _ _ tab found,
      setUpMethod_delete http,setUpMethod_delete note,if_neg refused]
    rw [refuse_bind,refuse_bind]

/-- Without a table, nothing else is looked at. -/
theorem alike_noTable (missing : setting.ndb.table = none) :
    PlannedAlike srv setting dir w r sub := by
  have refused (r : RequestRec) (source : QuerySource) : planQuery srv setting r dir source =
      setInst (fun i => {i with stats := {i.stats with errors := i.stats.errors + 1}}) >>= fun _ =>
        refuse 500 (some setting.ndb.error) (some (text "Configuration error.")) := by
    unfold planQuery getTable
    rw [missing]
    dsimp only
    rw [Prog.bind_assoc]
    simp only [refuse_bind]
  unfold PlannedAlike planning
  rw [refused,refused]

/-- A method that is not known is refused with 405 by one and read as a GET by the other. -/
theorem unlike_other (alike : Alike name r sub) (tab : Ndb.Table)
    (found : setting.ndb.table = some tab) (method : Method.named name = .other) :
    ¬PlannedAlike srv setting dir w r sub := by
  have http : (httpSource r).reqMethod = .other := alike.method.trans method
  have note : (subrequestSource sub).reqMethod = .get := by
    rw [alike.noteMethod,method]
    rfl
  unfold PlannedAlike planning
  rw [planQuery_found _ _ _ _ _ tab found,planQuery_found _ _ _ _ _ tab found]
  unfold setUpMethod
  rw [http,note]
  dsimp only
  rw [refuse_bind,refuse_run [] rfl]
  intro same
  have pages := (Prod.mk.inj same).2
  unfold setUpRead at pages
  rw [Prog.bind_assoc,Prog.bind_ok _ (Prog.get_run w)] at pages
  by_cases room : w.inst.nReadOps < srv.maxReadOperations
  · rw [if_pos room] at pages
    have quiet (q : Items) (w : World) : (checkPlan sub dir q w).2 = w := by
      rw [checkPlan_get q alike.methodNumber]
      split <;> rfl
    replace pages : w.trace ++ [.errorPage 405 []] = (checkPlan sub dir (findPlan sub dir
      {Items.init tab with data := .slot w.inst.nReadOps}) (w.claim dir tab)).2.trace := pages
    rw [quiet] at pages
    exact absurd (List.append_right_eq_self.mp pages) (List.cons_ne_nil _ _)
  · rw [if_neg room,refuse_bind,refuse_run (text "Too many read operations in one transaction.") rfl]
      at pages
    have page := List.singleton_inj.mp (List.append_cancel_left pages)
    cases page

/-- A subrequest is planned like the request of a client exactly under these conditions. -/
theorem planned_alike_iff (alike : Alike name r sub) :
    PlannedAlike srv setting dir w r sub ↔ AlikeWhen setting dir name r := by
  unfold AlikeWhen
  cases found : setting.ndb.table with
  | none => exact ⟨fun _ => .inl rfl,fun _ => alike_noTable found⟩
  | some tab =>
    rw [or_iff_right fun none => by cases none]
    cases method : Method.named name with
    | get => exact ⟨fun _ => .inl rfl,fun _ => alike_get alike tab found method⟩
    | post =>
      rw [alike_post_iff alike tab found method]
      simp
    | delete =>
      rw [alike_delete_iff alike tab found method]
      simp
    | other =>
      refine ⟨fun same => absurd same (unlike_other alike tab found method),?_⟩
      simp

end

/-- The form data `id=7`, as the body of a POST and as the note of a subrequest. -/
def posting (main : Bool) (args : Option Text) : RequestRec where
  main := main
  methodNumber := if main then .get else .post
  args := args
  pathInfo := []
  beforePathInfo := 0
  contentType := none
  requestMethod := if main then some (text "POST") else none
  requestData := if main then some (text "id=7") else none
  sendResult := false
  body := ⟨0,true,4,[text "id=7"]⟩

theorem posting_alike (args : Option Text) :
    Alike (text "POST") (posting false args) (posting true args) where
  client := rfl
  method := rfl
  main := rfl
  methodNumber := rfl
  note := rfl
  args := rfl
  pathInfo := rfl
  beforePathInfo := rfl
  form _ := ⟨_,_,_,rfl,rfl⟩

/-- An update by a key is planned alike. -/
theorem planned_alike_update :
    PlannedAlike ⟨1,0,false⟩ (serving items) itemsDir World.init
      (posting false (some (text "id=7"))) (posting true (some (text "id=7"))) :=
  (planned_alike_iff (posting_alike _)).mpr (.inr (.inr (.inl ⟨rfl,.inr (by decide)⟩)))

/-- An insert, which has no plan and needs none, is refused as a subrequest. -/
theorem insert_refused :
    (planning ⟨1,0,false⟩ (serving items) itemsDir World.init (posting false none)
      (httpSource (posting false none))).1.isOk = true ∧
    (planning ⟨1,0,false⟩ (serving items) itemsDir World.init (posting true none)
      (subrequestSource (posting true none))).1.isOk = false ∧
    Alike (text "POST") (posting false none) (posting true none) ∧
    ¬PlannedAlike ⟨1,0,false⟩ (serving items) itemsDir World.init (posting false none)
      (posting true none) := by
  refine ⟨rfl,rfl,posting_alike none,fun same => ?_⟩
  have accepted : true = false := congrArg (fun planned => planned.1.isOk) same
  cases accepted

end ModNdb.Query
