import ModNdb.Format.JsonPage
import ModNdb.MySQL.Numbers

/-! The registry of formats over the life of a configuration (output_format.cc): an array of
formats, and a table that has the place of each by name. `init_srv` makes both anew for every
server. -/
namespace ModNdb.Format
open MySQL (digits readDigits)

/-- `apr_table_t`: the keys are compared ignoring case. -/
abbrev Table := List (Text × Text)

def Table.get (t : Table) (key : Text) : Option Text :=
  (t.find? fun entry => strcaseEq entry.1 key).map Prod.snd

/-- `apr_table_set`: the first entry of that key gets the value, and there is no other. -/
def Table.set (key value : Text) : Table → Table
  | [] => [(key,value)]
  | entry::t =>
    if strcaseEq entry.1 key then
      (entry.1,value) :: t.filter fun entry => !strcaseEq entry.1 key
    else entry :: Table.set key value t

/-- `global_output_formats` and `global_format_names` -/
structure Registry where
  formats : List OutputFormat
  names : Table

def initializeOutputFormats : Registry := ⟨[],[]⟩

/-- `atoi`, of an index into an array. -/
def atoiIndex (formatIndex : Text) : Nat := readDigits 10 0 formatIndex

def Registry.getFormatByName (r : Registry) (name : Text) : Option OutputFormat :=
  match r.names.get name with
  | some formatIndex => r.formats[atoiIndex formatIndex]?
  | none => none

/-- Behind the check of `register_format`. -/
def Registry.store (r : Registry) (f : OutputFormat) : Registry where
  formats := r.formats ++ [f]
  names := r.names.set f.name (digits r.formats.length)

/-- `register_format`: its answer, which is null where the format was registered. -/
def Registry.registerFormat (r : Registry) (f : OutputFormat) : Option Text × Registry :=
  match r.getFormatByName f.name with
  | some existing =>
    if ¬existing.canOverride then
      (some (text "Output format " ++ quoted f.name ++ text " already exists " ++
        (if existing.isInternal then text "as an internal format " else []) ++
        text "and cannot be overriden."),r)
    else (none,r.store f)
  | none => (none,r.store f)

/-- What `register_built_in_formatters` registers, if it compiles: else the server exits. The
parser is as it was left by the formats before. -/
def builtInFormatters (parser : Parser) : Option (List OutputFormat) :=
  match jsonFormat.compile parser with
  | (.accepted json,parser) =>
    match xmlFormat.compile parser with
    | (.accepted xml,_) => some [rawFormat,json,xml]
    | _ => none
  | _ => none

/-- The formats that were registered with success, in that order, next to the registry. -/
structure Registered where
  registry : Registry
  log : List OutputFormat

def Registered.register (s : Registered) (f : OutputFormat) : Registered where
  registry := (s.registry.registerFormat f).2
  log := if (s.registry.registerFormat f).1 = none then s.log ++ [f] else s.log

/-- What happens to the registry while the configuration is read. -/
inductive ConfigStep
  | initSrv (parser : Parser)
  | registerFormat (f : OutputFormat)

def Registered.step (s : Registered) : ConfigStep → Option Registered
  | .initSrv parser =>
    (builtInFormatters parser).map fun builtIns =>
      builtIns.foldl Registered.register ⟨initializeOutputFormats,s.log⟩
  | .registerFormat f => some (s.register f)

def latest (log : List OutputFormat) (name : Text) : Option OutputFormat :=
  log.reverse.find? fun f => strcaseEq f.name name

def Registered.Current (s : Registered) : Prop :=
  ∀ name, s.registry.getFormatByName name = latest s.log name

/-- A format that cannot be overridden stays where it is, and a registration that is rejected
changes nothing. -/
structure Registered.Keeps (s : Registered) (step : ConfigStep) (next : Registered) : Prop where
  fixed : ∀ name f, s.registry.getFormatByName name = some f → f.canOverride = false →
    next.registry.getFormatByName name = some f
  rejected : ∀ f, step = .registerFormat f → (s.registry.registerFormat f).1 ≠ none →
    next.registry = s.registry

/-- The law in every state of a run and over each of its steps, none of which stops the
server. -/
def Registered.Lawful (s : Registered) : List ConfigStep → Prop
  | [] => s.Current
  | step::steps => s.Current ∧
    ∃ next, s.step step = some next ∧ s.Keeps step next ∧ next.Lawful steps

/-- Nothing is registered that the built-in formats do not replace. -/
def Registry.Replaceable (r : Registry) : Prop :=
  ∀ name f, r.getFormatByName name = some f →
    strcaseEq (text "raw") name ∨
      (strcaseEq (text "JSON") name ∨ strcaseEq (text "XML") name) ∧ f.canOverride = true

/-- No server is made while something is registered that it would lose. -/
def Registered.ServersFirst (s : Registered) : List ConfigStep → Prop
  | [] => True
  | step::steps => (∀ parser, step = .initSrv parser → s.registry.Replaceable) ∧
    ∀ next, s.step step = some next → next.ServersFirst steps

def mainServer (parser : Parser) : Option Registered :=
  Registered.step ⟨initializeOutputFormats,[]⟩ (.initSrv parser)

theorem strcaseEq_iff (a b : Text) : strcaseEq a b = true ↔ a.map lower = b.map lower := by
  unfold strcaseEq
  exact beq_iff_eq

theorem Table.get_cons (entry : Text × Text) (t : Table) (key : Text) : Table.get (entry::t) key =
    if strcaseEq entry.1 key then some entry.2 else Table.get t key := by
  unfold Table.get
  rw [List.find?_cons]
  cases same : strcaseEq entry.1 key <;> simp

theorem Table.get_filter (t : Table) (key other : Text) (apart : ¬strcaseEq key other) :
    Table.get (t.filter fun entry => !strcaseEq entry.1 key) other = Table.get t other := by
  induction t with
  | nil => rfl
  | cons entry t ih =>
    by_cases same : strcaseEq entry.1 key = true
    · have different : ¬strcaseEq entry.1 other := by
        rw [strcaseEq_iff] at same apart ⊢
        rw [same]
        exact apart
      rw [List.filter_cons_of_neg (by simp [same]),Table.get_cons,if_neg different]
      exact ih
    · rw [List.filter_cons_of_pos (by simp [same]),Table.get_cons,Table.get_cons,ih]

/-- `apr_table_set` and `apr_table_get` -/
theorem Table.get_set (t : Table) (key value other : Text) : (t.set key value).get other =
    if strcaseEq key other then some value else t.get other := by
  induction t with
  | nil =>
    unfold Table.set
    rw [Table.get_cons]
  | cons entry t ih =>
    unfold Table.set
    by_cases same : strcaseEq entry.1 key = true
    · have alike : strcaseEq entry.1 other = strcaseEq key other := by
        rw [Bool.eq_iff_iff,strcaseEq_iff,strcaseEq_iff,(strcaseEq_iff _ _).mp same]
      rw [if_pos same,Table.get_cons,Table.get_cons,alike]
      by_cases asked : strcaseEq key other = true
      · rw [if_pos asked,if_pos asked]
      · rw [if_neg asked,if_neg asked,if_neg asked]
        exact Table.get_filter t key other asked
    · rw [if_neg same,Table.get_cons,Table.get_cons,ih]
      by_cases asked : strcaseEq key other = true
      · have different : ¬strcaseEq entry.1 other := by
          rw [strcaseEq_iff] at same asked ⊢
          rw [← asked]
          exact same
        rw [if_neg different,if_pos asked,if_pos asked]
      · rw [if_neg asked,if_neg asked]

theorem atoiIndex_digits (n : Nat) : atoiIndex (digits n) = n := by
  unfold atoiIndex
  rw [MySQL.readDigits_all _ (MySQL.digits_all n),MySQL.digits_value]

theorem latest_append (log more : List OutputFormat) (name : Text) :
    latest (log ++ more) name = (latest more name).or (latest log name) := by
  unfold latest
  rw [List.reverse_append,List.find?_append]

theorem latest_snoc (log : List OutputFormat) (f : OutputFormat) (name : Text) :
    latest (log ++ [f]) name = if strcaseEq f.name name then some f else latest log name := by
  rw [latest_append]
  unfold latest
  rw [List.reverse_singleton,List.find?_singleton]
  cases same : strcaseEq f.name name <;> simp

def Registry.Within (r : Registry) : Prop :=
  ∀ name formatIndex, r.names.get name = some formatIndex → atoiIndex formatIndex < r.formats.length

namespace Registry

theorem store_within (r : Registry) (f : OutputFormat) (within : r.Within) : (r.store f).Within := by
  intro name formatIndex found
  unfold store at found ⊢
  rw [Table.get_set] at found
  rw [List.length_append,List.length_singleton]
  by_cases same : strcaseEq f.name name = true
  · rw [if_pos same] at found
    rw [← Option.some.inj found,atoiIndex_digits]
    exact Nat.lt_succ_self _
  · rw [if_neg same] at found
    exact Nat.lt_succ_of_lt (within name formatIndex found)

theorem store_get (r : Registry) (f : OutputFormat) (within : r.Within) (name : Text) :
    (r.store f).getFormatByName name =
      if strcaseEq f.name name then some f else r.getFormatByName name := by
  unfold getFormatByName store
  dsimp only
  rw [Table.get_set]
  by_cases same : strcaseEq f.name name = true
  · rw [if_pos same,if_pos same]
    dsimp only
    rw [atoiIndex_digits,List.getElem?_append_right (Nat.le_refl _),Nat.sub_self]
    rfl
  · rw [if_neg same,if_neg same]
    cases found : r.names.get name with
    | none => rfl
    | some formatIndex => exact List.getElem?_append_left (within name formatIndex found)

/-- What `register_format` does. -/
theorem registerFormat_cases (r : Registry) (f : OutputFormat) :
    ((r.registerFormat f).1 ≠ none ∧ (r.registerFormat f).2 = r ∧
      ∃ existing, r.getFormatByName f.name = some existing ∧ existing.canOverride = false) ∨
    (r.registerFormat f = (none,r.store f) ∧
      ∀ existing, r.getFormatByName f.name = some existing → existing.canOverride = true) := by
  unfold registerFormat
  cases found : r.getFormatByName f.name with
  | none => exact .inr ⟨rfl,by simp⟩
  | some existing =>
    dsimp only
    cases fixed : existing.canOverride with
    | false => exact .inl ⟨by simp,by simp,existing,rfl,fixed⟩
    | true => exact .inr ⟨by simp,by simp [fixed]⟩

theorem getFormatByName_same (r : Registry) (a b : Text) (same : strcaseEq a b) :
    r.getFormatByName a = r.getFormatByName b := by
  have alike : r.names.get a = r.names.get b := by
    unfold Table.get
    congr 2
    funext entry
    rw [Bool.eq_iff_iff,strcaseEq_iff,strcaseEq_iff,(strcaseEq_iff a b).mp same]
  unfold getFormatByName
  rw [alike]

section
variable (r : Registry) (parser : Parser) (f : OutputFormat) (name : Text)

def server : Server where
  parser := parser
  formats := r.formats
  names := fun key => if key.map lower = key then (r.names.get key).map atoiIndex else none

theorem lower_lower (c : UInt8) : lower (lower c) = lower c := by
  have letters : code 'A' = 65 ∧ code 'Z' = 90 := ⟨rfl,rfl⟩
  simp only [lower,letters,Bool.and_eq_true,decide_eq_true_eq]
  grind

theorem server_formatByName : (r.server parser).formatByName name = r.getFormatByName name := by
  have twice : (name.map lower).map lower = name.map lower := by
    rw [List.map_map]
    exact List.map_congr_left fun c _ => lower_lower c
  have same := r.getFormatByName_same (name.map lower) name ((strcaseEq_iff _ _).mpr twice)
  rw [← same]
  unfold Server.formatByName server getFormatByName
  dsimp only
  rw [if_pos twice]
  cases r.names.get (name.map lower) <;> rfl

theorem server_store : (r.store f).server parser = {r.server parser with
    formats := r.formats ++ [f],
    names := Function.update (r.server parser).names (f.name.map lower) (some r.formats.length)} := by
  unfold server store
  congr 1
  funext key
  by_cases lowered : key.map lower = key
  · rw [if_pos lowered,Table.get_set]
    by_cases same : key = f.name.map lower
    · rw [← same,Function.update_self,if_pos ((strcaseEq_iff _ _).mpr (same.symm.trans lowered.symm)),
        Option.map_some,atoiIndex_digits]
    · have apart : ¬strcaseEq f.name key := by
        rw [strcaseEq_iff,lowered]
        exact Ne.symm same
      rw [Function.update_of_ne same,if_neg apart]
      exact (if_pos lowered).symm
  · have other : key ≠ f.name.map lower := by
      rintro rfl
      rw [List.map_map] at lowered
      exact lowered (List.map_congr_left fun c _ => lower_lower c)
    rw [Function.update_of_ne other,if_neg lowered]
    exact (if_neg lowered).symm

theorem server_registerFormat : (r.server parser).registerFormat f =
    (r.registerFormat f).1.elim (.ok ((r.registerFormat f).2.server parser)) Except.error := by
  unfold Server.registerFormat registerFormat
  rw [server_formatByName]
  cases r.getFormatByName f.name with
  | none => exact congrArg Except.ok (r.server_store parser f).symm
  | some existing =>
    dsimp only
    cases existing.canOverride with
    | false => rfl
    | true => exact congrArg Except.ok (r.server_store parser f).symm

end

end Registry

namespace Registered

theorem register_within (s : Registered) (f : OutputFormat) (within : s.registry.Within) :
    (s.register f).registry.Within := by
  unfold register
  dsimp only
  rcases s.registry.registerFormat_cases f with ⟨-,same,-⟩ | ⟨stored,-⟩
  · rw [same]
    exact within
  · rw [stored]
    exact s.registry.store_within f within

theorem register_current (s : Registered) (f : OutputFormat) (within : s.registry.Within)
    (current : s.Current) : (s.register f).Current := by
  intro name
  unfold register
  dsimp only
  rcases s.registry.registerFormat_cases f with ⟨answer,same,-⟩ | ⟨stored,-⟩
  · rw [same,if_neg answer]
    exact current name
  · rw [stored,if_pos rfl,s.registry.store_get f within,latest_snoc,current name]

theorem register_keeps (s : Registered) (f : OutputFormat) (within : s.registry.Within) :
    s.Keeps (.registerFormat f) (s.register f) := by
  refine ⟨fun name g found fixed => ?_,fun f' same answer => ?_⟩
  · unfold register
    dsimp only
    rcases s.registry.registerFormat_cases f with ⟨-,same,-⟩ | ⟨stored,free⟩
    · rw [same]
      exact found
    · have apart : ¬strcaseEq f.name name := by
        intro same
        have override := free g ((s.registry.getFormatByName_same _ _ same).trans found)
        rw [fixed] at override
        cases override
      rw [stored,s.registry.store_get f within,if_neg apart]
      exact found
  · obtain rfl := ConfigStep.registerFormat.inj same
    rcases s.registry.registerFormat_cases f with ⟨-,same,-⟩ | ⟨stored,-⟩
    · exact same
    · rw [stored] at answer
      exact absurd rfl answer

theorem register_stored (s : Registered) (f : OutputFormat)
    (free : s.registry.getFormatByName f.name = none) :
    s.register f = ⟨s.registry.store f,s.log ++ [f]⟩ := by
  unfold register
  rcases s.registry.registerFormat_cases f with ⟨-,-,existing,found,-⟩ | ⟨stored,-⟩
  · rw [free] at found
    cases found
  · rw [stored,if_pos rfl]

end Registered

/-- The built-in formats compile, whatever was compiled before. -/
theorem builtInFormatters_some (parser : Parser) :
    ∃ json xml, builtInFormatters parser = some [rawFormat,json,xml] ∧
      (json.name = text "JSON" ∧ json.canOverride = true) ∧
      xml.name = text "XML" ∧ xml.canOverride = true := by
  have texts : xmlFormat.HasTexts := by
    unfold OutputFormat.HasTexts
    decide
  obtain ⟨xml,parsed,named,override⟩ : ∃ xml, parseAll xmlFormat.symbols xmlFormat = some xml ∧
      xml.name = text "XML" ∧ xml.canOverride = true := ⟨_,rfl,rfl,rfl⟩
  have json := jsonFormat_accepted parser
  rcases ran : jsonFormat.compile parser with ⟨result,p⟩
  rw [ran] at json
  dsimp only at json
  have accepted := (compile_accepted_iff xmlFormat xml p texts).mpr parsed
  rcases ranXml : xmlFormat.compile p with ⟨resultXml,q⟩
  rw [ranXml] at accepted
  dsimp only at accepted
  refine ⟨jsonCompiled,xml,?_,⟨rfl,rfl⟩,named,override⟩
  unfold builtInFormatters
  rw [ran,json]
  dsimp only
  rw [ranXml,accepted]

section
variable {json xml : OutputFormat}

theorem latest_builtIns (namedJson : json.name = text "JSON") (namedXml : xml.name = text "XML")
    (name : Text) : latest [rawFormat,json,xml] name =
      if strcaseEq (text "XML") name then some xml
      else if strcaseEq (text "JSON") name then some json
      else if strcaseEq (text "raw") name then some rawFormat else none := by
  have nothing : latest [] name = none := rfl
  have raw : rawFormat.name = text "raw" := rfl
  rw [show [rawFormat,json,xml] = ([] ++ [rawFormat] ++ [json]) ++ [xml] from rfl,latest_snoc,
    latest_snoc,latest_snoc,nothing,namedXml,namedJson,raw]

/-- `init_srv`: the registry has the built-in formats and nothing else. -/
theorem initSrv_step (s : Registered) (parser : Parser) :
    ∃ json xml next, s.step (.initSrv parser) = some next ∧
      (json.name = text "JSON" ∧ json.canOverride = true) ∧
      (xml.name = text "XML" ∧ xml.canOverride = true) ∧
      next.log = s.log ++ [rawFormat,json,xml] ∧ next.registry.Within ∧
      ∀ name, next.registry.getFormatByName name = latest [rawFormat,json,xml] name := by
  obtain ⟨json,xml,ran,⟨namedJson,overrideJson⟩,namedXml,overrideXml⟩ :=
    builtInFormatters_some parser
  have within0 : initializeOutputFormats.Within := fun _ _ found => nomatch found
  have empty : ∀ name, initializeOutputFormats.getFormatByName name = none := fun _ => rfl
  have raw : rawFormat.name = text "raw" := rfl
  have within1 := initializeOutputFormats.store_within rawFormat within0
  have within2 := (initializeOutputFormats.store rawFormat).store_within json within1
  have get1 := initializeOutputFormats.store_get rawFormat within0
  have get2 := (initializeOutputFormats.store rawFormat).store_get json within1
  have get3 := ((initializeOutputFormats.store rawFormat).store json).store_get xml within2
  refine ⟨json,xml,⟨((initializeOutputFormats.store rawFormat).store json).store xml,
    s.log ++ [rawFormat] ++ [json] ++ [xml]⟩,?_,⟨namedJson,overrideJson⟩,⟨namedXml,overrideXml⟩,
    by simp,Registry.store_within _ xml within2,fun name => ?_⟩
  · unfold Registered.step
    dsimp only
    rw [ran,Option.map_some,List.foldl_cons,List.foldl_cons,List.foldl_cons,List.foldl_nil,
      Registered.register_stored _ rawFormat (empty _),
      Registered.register_stored _ json,Registered.register_stored _ xml]
    · rw [get2,get1,namedXml,namedJson,raw,empty,if_neg (by decide),if_neg (by decide)]
    · rw [get1,namedJson,raw,empty]
      decide
  · rw [get3,get2,get1,empty,latest_builtIns namedJson namedXml,namedXml,namedJson,raw]

end

structure Registered.Sound (s : Registered) : Prop where
  within : s.registry.Within
  raw : s.registry.getFormatByName (text "raw") = some rawFormat

theorem Registered.step_sound (s next : Registered) (step : ConfigStep) (sound : s.Sound)
    (ran : s.step step = some next) : next.Sound := by
  cases step with
  | initSrv parser =>
    obtain ⟨json,xml,next',ran',⟨namedJson,-⟩,⟨namedXml,-⟩,-,within,get⟩ := initSrv_step s parser
    obtain rfl := Option.some.inj (ran.symm.trans ran')
    refine ⟨within,?_⟩
    rw [get,latest_builtIns namedJson namedXml,if_neg (by decide),if_neg (by decide),
      if_pos (by decide)]
  | registerFormat f =>
    obtain rfl := Option.some.inj ran
    exact ⟨s.register_within f sound.within,
      (s.register_keeps f sound.within).fixed _ _ sound.raw rfl⟩

/-- A server made after others: the law holds of it exactly if nothing gets lost. -/
theorem Registered.initSrv_iff (s next : Registered) (parser : Parser) (sound : s.Sound)
    (current : s.Current) (ran : s.step (.initSrv parser) = some next) :
    s.Keeps (.initSrv parser) next ∧ next.Current ↔ s.registry.Replaceable := by
  obtain ⟨json,xml,next',ran',⟨namedJson,overrideJson⟩,⟨namedXml,overrideXml⟩,log,-,get⟩ :=
    initSrv_step s parser
  obtain rfl := Option.some.inj (ran.symm.trans ran')
  have builtIns := latest_builtIns namedJson namedXml
  constructor
  · rintro ⟨keeps,currentNext⟩ name f found
    by_cases raw : strcaseEq (text "raw") name = true
    · exact .inl raw
    have known : (latest [rawFormat,json,xml] name).isSome := by
      have now := currentNext name
      rw [get,log,latest_append,← current name,found] at now
      cases shown : latest [rawFormat,json,xml] name with
      | some _ => rfl
      | none =>
        rw [shown] at now
        cases now
    have override : f.canOverride = true := by
      by_contra fixed
      have kept := keeps.fixed name f found (by simpa using fixed)
      rw [get,builtIns] at kept
      split_ifs at kept
      · rw [← Option.some.inj kept] at fixed
        exact fixed overrideXml
      · rw [← Option.some.inj kept] at fixed
        exact fixed overrideJson
    refine .inr ⟨?_,override⟩
    rw [builtIns,if_neg raw] at known
    split_ifs at known with isXml isJson
    · exact .inr isXml
    · exact .inl isJson
    · cases known
  · intro replaceable
    refine ⟨⟨fun name f found fixed => ?_,fun f same => (nomatch same)⟩,fun name => ?_⟩
    · rcases replaceable name f found with raw | ⟨-,override⟩
      · have alike := (s.registry.getFormatByName_same _ _ raw).symm.trans sound.raw
        rw [found] at alike
        rw [Option.some.inj alike,← next.registry.getFormatByName_same _ _ raw,get,builtIns,
          if_neg (by decide),if_neg (by decide),if_pos (by decide)]
      · rw [fixed] at override
        cases override
    · rw [get,log,latest_append,← current name]
      cases found : s.registry.getFormatByName name with
      | none => exact (Option.or_none).symm
      | some f =>
        have known : (latest [rawFormat,json,xml] name).isSome := by
          rw [builtIns]
          rcases replaceable name f found with raw | ⟨isJson | isXml,-⟩
          · split_ifs <;> rfl
          · split_ifs <;> rfl
          · split_ifs
            rfl
        rw [Option.or_of_isSome known]

theorem Registered.lawful_current (s : Registered) (steps : List ConfigStep)
    (lawful : s.Lawful steps) : s.Current := by
  cases steps with
  | nil => exact lawful
  | cons step steps => exact lawful.1

theorem Registered.lawful_iff (steps : List ConfigStep) (s : Registered) (sound : s.Sound)
    (current : s.Current) : s.Lawful steps ↔ s.ServersFirst steps := by
  induction steps generalizing s with
  | nil => exact iff_of_true current trivial
  | cons step steps ih =>
    cases step with
    | initSrv parser =>
      obtain ⟨-,-,next,ran,-⟩ := initSrv_step s parser
      have soundNext := s.step_sound next _ sound ran
      constructor
      · rintro ⟨-,next',ran',keeps,lawful⟩
        obtain rfl := Option.some.inj (ran.symm.trans ran')
        have currentNext := next.lawful_current steps lawful
        refine ⟨fun _ _ => (s.initSrv_iff next parser sound current ran).mp ⟨keeps,currentNext⟩,
          fun next' ran' => ?_⟩
        obtain rfl := Option.some.inj (ran.symm.trans ran')
        exact (ih next soundNext currentNext).mp lawful
      · rintro ⟨first,rest⟩
        obtain ⟨keeps,currentNext⟩ :=
          (s.initSrv_iff next parser sound current ran).mpr (first parser rfl)
        exact ⟨current,next,ran,keeps,(ih next soundNext currentNext).mpr (rest next ran)⟩
    | registerFormat f =>
      have soundNext := s.step_sound _ (.registerFormat f) sound rfl
      have currentNext := s.register_current f sound.within current
      have same := ih (s.register f) soundNext currentNext
      constructor
      · rintro ⟨-,next,ran,-,lawful⟩
        obtain rfl := Option.some.inj ran
        refine ⟨fun _ other => (nomatch other),fun next ran => ?_⟩
        obtain rfl := Option.some.inj ran
        exact same.mp lawful
      · rintro ⟨-,rest⟩
        exact ⟨current,s.register f,rfl,s.register_keeps f sound.within,same.mpr (rest _ rfl)⟩

theorem mainServer_some (parser : Parser) :
    ∃ s, mainServer parser = some s ∧ s.Sound ∧ s.Current := by
  obtain ⟨json,xml,s,ran,⟨namedJson,-⟩,⟨namedXml,-⟩,log,within,get⟩ :=
    initSrv_step ⟨initializeOutputFormats,[]⟩ parser
  refine ⟨s,ran,⟨within,?_⟩,fun name => ?_⟩
  · rw [get,latest_builtIns namedJson namedXml,if_neg (by decide),if_neg (by decide),
      if_pos (by decide)]
  · rw [get,log,List.nil_append]

/-- The registry follows its law over a whole configuration exactly if no server is made while
formats are registered that the built-in ones do not replace. -/
theorem registry_lawful_iff (parser : Parser) (steps : List ConfigStep) :
    ∃ s, mainServer parser = some s ∧ (s.Lawful steps ↔ s.ServersFirst steps) := by
  obtain ⟨s,ran,sound,current⟩ := mainServer_some parser
  exact ⟨s,ran,s.lawful_iff steps sound current⟩

def sectionFormat : OutputFormat :=
  {jsonCompiled with name := text "X", isInternal := false, canOverride := false, isJSON := false}

/-- A virtual host behind the section: the main server does not know its format any more. -/
theorem virtual_host_loses_format : ∃ s, mainServer .initial = some s ∧
    ¬s.Lawful [.registerFormat sectionFormat,.initSrv .initial] := by
  obtain ⟨json,xml,s,ran,⟨namedJson,-⟩,⟨namedXml,-⟩,-,within,get⟩ :=
    initSrv_step ⟨initializeOutputFormats,[]⟩ .initial
  refine ⟨s,ran,fun lawful => ?_⟩
  obtain ⟨-,next,stepped,-,-,last,ranLast,keeps,-⟩ := lawful
  obtain rfl := Option.some.inj stepped
  have free : s.registry.getFormatByName sectionFormat.name = none := by
    rw [get,latest_builtIns namedJson namedXml,if_neg (by decide),if_neg (by decide),
      if_neg (by decide)]
  obtain ⟨json',xml',last',ran',⟨namedJson',-⟩,⟨namedXml',-⟩,-,-,get'⟩ :=
    initSrv_step (s.register sectionFormat) .initial
  obtain rfl := Option.some.inj (ranLast.symm.trans ran')
  have found : (s.register sectionFormat).registry.getFormatByName (text "X") =
      some sectionFormat := by
    rw [s.register_stored sectionFormat free,s.registry.store_get sectionFormat within]
    exact if_pos (by decide)
  have kept := keeps.fixed (text "X") sectionFormat found rfl
  rw [get',latest_builtIns namedJson' namedXml',if_neg (by decide),if_neg (by decide),
    if_neg (by decide)] at kept
  cases kept

end ModNdb.Format
