import ModNdb.Config.Settings

/-! Nested sections: `merge_dir`, and which settings come from where. -/
namespace ModNdb.Config
open Format (OutputFormat)

/-- `merge_dir`: a copy of the inner configuration, with what it takes from the outer one. -/
def mergeDir (outer inner : Dir) : Dir :=
  {inner with
    database := inner.database.or outer.database,
    table := inner.table.or outer.table,
    fmt := inner.fmt.or outer.fmt}

/-- The configuration of nested sections, from the outermost to the innermost. -/
def effective (outermost : Dir) (inner : List Dir) : Dir := inner.foldl mergeDir outermost

structure Section (formats : Text → Option OutputFormat) where
  directives : List Directive
  dir : Dir
  configured : configure formats directives (Dir.init (formats (text "JSON"))) = (.ok (),dir)

section
variable {formats : Text → Option OutputFormat}

def Section.sets (place : Section formats) (setting : Setting) : Bool :=
  place.directives.any (·.sets setting)

theorem Section.given (place : Section formats) (setting : Setting) (sets : place.sets setting) :
    setting.Given place.dir := by
  obtain ⟨directive,inside,tells⟩ := List.any_eq_true.mp sets
  refine configure_establishes formats setting.Given place.directives ?_ directive inside
    (fun d d' ran => directive.gives formats setting tells d d' ran) _ _ place.configured
  intro other _ d d' ran given
  by_cases tells : other.sets setting
  · exact other.gives formats setting tells d d' ran
  · have kept := (other.spares formats setting (Bool.not_eq_true _ ▸ tells)).keeps _ d given
    rwa [ran] at kept

theorem Section.silent (place : Section formats) (setting : Setting)
    (silent : place.sets setting = false) :
    setting.Same (Dir.init (formats (text "JSON"))) place.dir := by
  refine configure_keeps formats (setting.Same (Dir.init (formats (text "JSON")))) place.directives ?_
    _ _ place.configured (setting.same_refl _)
  intro directive inside d d' ran same
  have tells : directive.sets setting = false := by
    have none := List.any_eq_false.mp silent directive inside
    exact Bool.not_eq_true _ ▸ none
  have kept := (directive.spares formats setting tells d).1
  rw [ran] at kept
  exact setting.same_trans _ _ _ same kept

/-- A section has a format in the end, or the server does not start. -/
theorem Section.formatted (place : Section formats) (json : (formats (text "JSON")).isSome) :
    place.dir.fmt.isSome := by
  refine configure_keeps formats (fun d => d.fmt.isSome) place.directives ?_ _ _ place.configured json
  intro directive _ d d' ran formatted
  by_cases tells : directive.sets .format = false
  · have same : d'.fmt = d.fmt := by
      have kept := (directive.spares formats .format tells d).1
      rwa [ran] at kept
    rwa [same]
  · cases directive with
    | format name =>
      obtain ⟨_,middle,first,rest⟩ := Prog.bind_inv ran
      cases first
      by_cases known : (formats name).isNone
      · rw [if_pos known] at rest
        cases rest
      · rw [if_neg known] at rest
        cases rest
        exact Option.isSome_iff_ne_none.mpr fun none => known (Option.isNone_iff_eq_none.mpr none)
    | sql query => cases query <;> exact absurd rfl tells
    | _ => exact absurd rfl tells

structure Nest (formats : Text → Option OutputFormat) where
  outermost : Section formats
  inner : List (Section formats)

def Nest.dir (nest : Nest formats) : Dir :=
  effective nest.outermost.dir (nest.inner.map (·.dir))

def Nest.innermost (nest : Nest formats) : Section formats :=
  nest.inner.getLast?.getD nest.outermost

/-- The innermost section that sets the setting. -/
def Nest.setter (nest : Nest formats) (setting : Setting) : Option (Section formats) :=
  (nest.outermost::nest.inner).reverse.find? (·.sets setting)

def Dir.path (d : Dir) : List Nat × List Nat × Bool :=
  (d.pathinfo,d.pathinfoSerials,d.pathinfoAlways)

/-- A configuration without what sections are to hand down. -/
def Dir.own (d : Dir) : Dir :=
  {d with
    database := none, fmt := none, useEtags := true,
    pathinfo := [], pathinfoSerials := [], pathinfoAlways := false}

/-- Database, Format, ETags and PathInfo come from the innermost section that sets them, and
all the rest is the innermost section's own. -/
structure Nest.Inherits (nest : Nest formats) : Prop where
  database : nest.dir.database = (nest.setter .database).bind (·.dir.database)
  format : nest.dir.fmt = (nest.setter .format).elim (formats (text "JSON")) (·.dir.fmt)
  eTags : nest.dir.useEtags = (nest.setter .eTags).elim true (·.dir.useEtags)
  pathInfo : nest.dir.path = (nest.setter .pathInfo).elim ([],[],false) (·.dir.path)
  own : nest.dir.own = nest.innermost.dir.own

/-- What an inner section does not set is set to nothing else further out, and a table is
not set further out at all. -/
structure Nest.Plain (nest : Nest formats) : Prop where
  format : nest.innermost.sets .format ∨
    ∀ place ∈ nest.setter .format, place.dir.fmt = formats (text "JSON")
  eTags : nest.innermost.sets .eTags ∨ ∀ place ∈ nest.setter .eTags, place.dir.useEtags = true
  pathInfo : nest.innermost.sets .pathInfo ∨
    ∀ place ∈ nest.setter .pathInfo, place.dir.path = ([],[],false)
  table : nest.innermost.sets .table ∨ nest.setter .table = none

theorem setter_append (outermost place : Section formats) (inner : List (Section formats))
    (setting : Setting) : Nest.setter ⟨outermost,inner ++ [place]⟩ setting =
      if place.sets setting then some place else Nest.setter ⟨outermost,inner⟩ setting := by
  unfold Nest.setter
  rw [← List.cons_append,List.reverse_append,List.reverse_singleton,List.singleton_append,
    List.find?_cons]
  cases place.sets setting <;> rfl

theorem innermost_append (outermost place : Section formats) (inner : List (Section formats)) :
    Nest.innermost ⟨outermost,inner ++ [place]⟩ = place := by
  unfold Nest.innermost
  rw [List.getLast?_concat]
  rfl

theorem dir_append (outermost place : Section formats) (inner : List (Section formats)) :
    Nest.dir ⟨outermost,inner ++ [place]⟩ = mergeDir (Nest.dir ⟨outermost,inner⟩) place.dir := by
  unfold Nest.dir effective
  rw [List.map_append,List.foldl_append]
  rfl

theorem setter_sets (nest : Nest formats) (setting : Setting) (place : Section formats)
    (found : nest.setter setting = some place) : place.sets setting := by
  unfold Nest.setter at found
  have holds := List.find?_some found
  exact holds

theorem setter_innermost (nest : Nest formats) (setting : Setting)
    (sets : nest.innermost.sets setting) : nest.setter setting = some nest.innermost := by
  obtain ⟨outermost,inner⟩ := nest
  rcases List.eq_nil_or_concat inner with rfl | ⟨inner,place,rfl⟩
  · have here : outermost.sets setting := sets
    exact List.find?_cons_of_pos here
  · rw [List.concat_eq_append,innermost_append] at sets ⊢
    rw [setter_append,if_pos sets]

/-- The name is that of the innermost section that gives one. -/
theorem merged_name (nest : Nest formats) (setting : Setting) (name : Dir → Option Text)
    (merges : ∀ outer inner, name (mergeDir outer inner) = (name inner).or (name outer))
    (given : ∀ place : Section formats, place.sets setting → (name place.dir).isSome)
    (silent : ∀ place : Section formats, place.sets setting = false → name place.dir = none) :
    name nest.dir = (nest.setter setting).bind (name ·.dir) := by
  obtain ⟨outermost,inner⟩ := nest
  induction inner using List.reverseRecOn with
  | nil =>
    by_cases sets : outermost.sets setting
    · have here : Nest.setter ⟨outermost,[]⟩ setting = some outermost := List.find?_cons_of_pos sets
      rw [here]
      rfl
    · have nowhere : Nest.setter ⟨outermost,[]⟩ setting = none := List.find?_cons_of_neg sets
      rw [nowhere]
      exact silent outermost (Bool.not_eq_true _ ▸ sets)
  | append_singleton inner place ih =>
    rw [dir_append,setter_append,merges]
    by_cases sets : place.sets setting
    · rw [if_pos sets,Option.or_of_isSome (given place sets)]
      rfl
    · rw [if_neg sets,silent place (Bool.not_eq_true _ ▸ sets),Option.none_or,ih]

/-- A value that is not handed down: it is the setter's where the innermost section is the
setter, or where the setter's is what a section has by itself. -/
theorem handed_iff {α : Type} (nest : Nest formats) (setting : Setting) (value : Dir → α)
    (default : α) (silent : ∀ place : Section formats,
      place.sets setting = false → value place.dir = default) :
    value nest.innermost.dir = (nest.setter setting).elim default (value ·.dir) ↔
      nest.innermost.sets setting ∨ ∀ place ∈ nest.setter setting, value place.dir = default := by
  by_cases sets : nest.innermost.sets setting
  · rw [setter_innermost nest setting sets]
    exact ⟨fun _ => .inl sets,fun _ => rfl⟩
  · rw [silent _ (Bool.not_eq_true _ ▸ sets)]
    cases found : nest.setter setting with
    | none => simp
    | some place =>
      simp only [Option.elim_some,Option.mem_def,Option.some.injEq,forall_eq',sets,
        Bool.false_eq_true,false_or]
      exact eq_comm

theorem dir_innermost (nest : Nest formats) : nest.dir = {nest.innermost.dir with
    database := nest.dir.database, table := nest.dir.table, fmt := nest.dir.fmt} := by
  obtain ⟨outermost,inner⟩ := nest
  rcases List.eq_nil_or_concat inner with rfl | ⟨inner,place,rfl⟩
  · rfl
  · rw [List.concat_eq_append,innermost_append,dir_append]
    rfl

theorem fmt_innermost (nest : Nest formats) (json : (formats (text "JSON")).isSome) :
    nest.dir.fmt = nest.innermost.dir.fmt := by
  obtain ⟨outermost,inner⟩ := nest
  rcases List.eq_nil_or_concat inner with rfl | ⟨inner,place,rfl⟩
  · rfl
  · rw [List.concat_eq_append,innermost_append,dir_append]
    exact Option.or_of_isSome (place.formatted json)

theorem database_merged (nest : Nest formats) :
    nest.dir.database = (nest.setter .database).bind (·.dir.database) :=
  merged_name nest .database (·.database) (fun _ _ => rfl) (fun place sets => place.given _ sets)
    fun place silent => place.silent _ silent

theorem table_merged (nest : Nest formats) :
    nest.dir.table = (nest.setter .table).bind (·.dir.table) :=
  merged_name nest .table (·.table) (fun _ _ => rfl) (fun place sets => place.given _ sets)
    fun place silent => place.silent _ silent

/-- The table is the innermost section's own, or it comes from a section that sets one. -/
theorem table_own_iff (nest : Nest formats) : nest.dir.table = nest.innermost.dir.table ↔
    nest.innermost.sets .table ∨ nest.setter .table = none := by
  rw [table_merged]
  by_cases sets : nest.innermost.sets .table
  · rw [setter_innermost nest .table sets]
    exact ⟨fun _ => .inl sets,fun _ => rfl⟩
  · have unset : nest.innermost.dir.table = none :=
      nest.innermost.silent .table (Bool.not_eq_true _ ▸ sets)
    rw [unset]
    cases found : nest.setter .table with
    | none => exact ⟨fun _ => .inr rfl,fun _ => rfl⟩
    | some place =>
      have given : place.dir.table.isSome := place.given .table (setter_sets nest .table place found)
      constructor
      · intro missing
        have none : place.dir.table = none := missing
        rw [none] at given
        cases given
      · rintro (set | none)
        · exact absurd set sets
        · cases none

theorem own_iff (nest : Nest formats) : nest.dir.own = nest.innermost.dir.own ↔
    nest.dir.table = nest.innermost.dir.table := by
  constructor
  · intro same
    have table : nest.dir.own.table = nest.innermost.dir.own.table := congrArg Dir.table same
    exact table
  · intro same
    rw [dir_innermost nest,same]
    rfl

/-- Nested sections have the settings that the table of commands promises if and only if
nothing is set further out that an inner section would have to inherit. -/
theorem inherits_iff (json : (formats (text "JSON")).isSome) (nest : Nest formats) :
    nest.Inherits ↔ nest.Plain := by
  have eTags : nest.dir.useEtags = nest.innermost.dir.useEtags := by rw [dir_innermost nest]
  have path : nest.dir.path = nest.innermost.dir.path := by rw [dir_innermost nest]; rfl
  have format := handed_iff nest .format (·.fmt) (formats (text "JSON"))
    fun place silent => place.silent .format silent
  have tags := handed_iff nest .eTags (·.useEtags) true fun place silent =>
    place.silent .eTags silent
  have paths := handed_iff nest .pathInfo (·.path) ([],[],false) fun place silent => by
    obtain ⟨serials,always,columns⟩ := place.silent .pathInfo silent
    unfold Dir.path
    rw [serials,always,columns rfl rfl]
    rfl
  constructor
  · intro inherits
    exact {
      format := format.mp ((fmt_innermost nest json).symm.trans inherits.format)
      eTags := tags.mp (eTags.symm.trans inherits.eTags)
      pathInfo := paths.mp (path.symm.trans inherits.pathInfo)
      table := (table_own_iff nest).mp ((own_iff nest).mp inherits.own) }
  · intro plain
    exact {
      database := database_merged nest
      format := (fmt_innermost nest json).trans (format.mpr plain.format)
      eTags := eTags.trans (tags.mpr plain.eTags)
      pathInfo := path.trans (paths.mpr plain.pathInfo)
      own := (own_iff nest).mpr ((table_own_iff nest).mpr plain.table) }

end

/-- `get_format_by_name` where no other formats are defined. -/
def builtIn (name : Text) : Option OutputFormat :=
  [Format.jsonFormat,Format.xmlFormat,Format.rawFormat].find? fun fmt =>
    fmt.name.map Format.lower = name.map Format.lower

def apiSection : Section builtIn where
  directives := [.table (text "t") none none,.format (text "XML"),.eTags false,
    .pathInfo (text "id") none]
  dir := _
  configured := rfl

def columnSection : Section builtIn where
  directives := [.columns [text "a"]]
  dir := _
  configured := rfl

def shopSection : Section builtIn where
  directives := [.database (text "shop"),.format (text "JSON")]
  dir := _
  configured := rfl

/-- The inner section has the database of the outer one, and its own table, format, ETags and
path. -/
theorem inherits_database : (builtIn (text "JSON")).isSome ∧
    Nest.Plain ⟨shopSection,[apiSection]⟩ ∧ Nest.Inherits ⟨shopSection,[apiSection]⟩ ∧
    (Nest.dir ⟨shopSection,[apiSection]⟩).database = some (text "shop") ∧
    (Nest.dir ⟨shopSection,[apiSection]⟩).table = some (text "t") := by
  have plain : Nest.Plain ⟨shopSection,[apiSection]⟩ := {
    format := .inl rfl
    eTags := .inl rfl
    pathInfo := .inl rfl
    table := .inl rfl }
  exact ⟨rfl,plain,(inherits_iff rfl ⟨shopSection,[apiSection]⟩).mpr plain,rfl,rfl⟩

/-- The inner section serves JSON and computes ETags, which the outer one has turned off. -/
theorem settings_lost : ¬Nest.Inherits ⟨apiSection,[columnSection]⟩ := by
  intro inherits
  have same : true = false := inherits.eTags
  cases same

end ModNdb.Config
