import ModNdb.Format.Output

/-! `<ResultFormat>` sections and the built-in formats: how the node graph of a
format comes about and how it is registered. A configuration line is the list of its
words; a missing word is empty. -/
namespace ModNdb.Format

/-- `unescape`: a backslash followed by an n is a newline. -/
def unescape : Text → Text
  | [] => []
  | [c] => [c]
  | c::d::rest =>
    if c = code '\\' ∧ d = code 'n' then code '\n' :: unescape rest else c :: unescape (d::rest)

def lower (c : UInt8) : UInt8 := if code 'A' ≤ c && c ≤ code 'Z' then c + 32 else c

/-- `!strcasecmp(a, b)` -/
def strcaseEq (a : Text) (b : Text) : Bool := a.map lower == b.map lower

abbrev Line := List Text

def Line.word (line : Line) (n : Nat) : Text := line.getD (n - 1) []

def quoted (t : Text) : Text := text "\"" ++ t ++ text "\""

def formatLine (f : OutputFormat) (line : Line) : Except Text OutputFormat :=
  let word1 := line.word 1
  let word2 := line.word 2
  let inFormat := text "in result format " ++ quoted f.name
  if word1 = [] ∨ word1.head? = some (code '#') then .ok f
  else if word2 = [] ∨ code '$' ∈ word2 then
    .error (text "Syntax error at " ++ quoted word1 ++ text " " ++ inFormat)
  else if (line.word 3).head? ≠ some (code '=') then
    .error (text "Expected '=' after " ++ quoted (word1 ++ text " " ++ word2) ++ text " " ++ inFormat)
  else if line.word 4 = [] then
    .error (text "Incomplete assignment to " ++ word1 ++ text " " ++ word2 ++ text " " ++ inFormat)
  else
    let word4 := unescape (line.word 4)
    if strcaseEq word1 (text "Format") then
      .ok {f.addSymbol (text "_main") .mainLoop word4 none with topNode := some f.nodes.length}
    else if strcaseEq word1 (text "Scan") then .ok (f.addSymbol word2 .scanLoop word4 none)
    else if strcaseEq word1 (text "Row") then .ok (f.addSymbol word2 .rowLoop word4 none)
    else if strcaseEq word1 (text "Record") then
      if line.word 6 = [] then .ok (f.addSymbol word2 .recAttr word4 (some word4))
      else if ¬strcaseEq (line.word 5) (text "or") then .error (text "Expected 'or'")
      else .ok (f.addSymbol word2 .recAttr word4 (some (unescape (line.word 6))))
    else .error (text "Unknown object type " ++ quoted word1 ++ text " " ++ inFormat ++ text ".")

/-- The formats a server knows: `global_output_formats`, and `global_format_names`, whose
keys ignore case. -/
structure Server where
  parser : Parser
  formats : List OutputFormat
  names : Text → Option Nat

def Server.formatByName (server : Server) (name : Text) : Option OutputFormat :=
  (server.names (name.map lower)).bind (server.formats[·]?)

def Server.registerFormat (server : Server) (f : OutputFormat) : Except Text Server :=
  let added := {server with
    formats := server.formats ++ [f],
    names := Function.update server.names (f.name.map lower) (some server.formats.length)}
  match server.formatByName f.name with
  | some existing =>
    if existing.canOverride then .ok added
    else .error (text "Output format " ++ quoted f.name ++ text " already exists " ++
      (if existing.isInternal then text "as an internal format " else []) ++
      text "and cannot be overriden.")
  | none => .ok added

/-- `result_fmt_container`; `closed` says whether its top line ends with a bracket. An
`assert` that fails during the compilation ends the server, and there is no answer. -/
def resultFmtContainer (name : Text) (closed : Bool) (lines : List Line) (server : Server) :
    Option (Except Text OutputFormat × Server) :=
  if ¬closed then
    some (.error (text "Could not find closing '>' at top line of result format " ++ quoted name ++
      text ". (Put the format name in quotes?)"),server)
  else match lines.foldlM formatLine (OutputFormat.new name) with
    | .error message => some (.error message,server)
    | .ok f =>
      if f.topNode = none then
        some (.error (text "You must define a Format object in result format " ++ quoted name),
          server)
      else match f.compile server.parser with
        | (.aborted,_) => none
        | (.rejected message,p) => some (.error message,{server with parser := p})
        | (.accepted f,p) =>
          match {server with parser := p}.registerFormat f with
          | .error message => some (.error message,{server with parser := p})
          | .ok server => some (.ok f,server)

/-- The JSON format of `register_built_in_formatters`, before it is compiled. -/
def jsonFormat : OutputFormat :=
  {(((((OutputFormat.new (text "JSON")).addSymbol (text "_main") .mainLoop (text "$scan$\n") none)
      ).addSymbol (text "scan") .scanLoop (text "[\n $row$,\n ... \n]") none
      ).addSymbol (text "row") .rowLoop (text " \x7b $item$ , ... \x7d") none
      ).addSymbol (text "item") .recAttr (text "$name/Q$:$value/qj$") (some (text "$name/Q$:null"))
    with isInternal := true, canOverride := true, isJSON := true, topNode := some 0}

def xmlFormat : OutputFormat :=
  {(((((OutputFormat.new (text "XML")).addSymbol (text "_main") .mainLoop (text "$scan$\n") none)
      ).addSymbol (text "scan") .scanLoop (text "<NDBScan>\n$row$\n...\n</NDBScan>") none
      ).addSymbol (text "row") .rowLoop (text " <NDBTuple> $attr$ \n  ...  </NDBTuple>") none
      ).addSymbol (text "attr") .recAttr (text "<Attr name=$name/Q$ value=$value/Qx$ />")
        (some (text "<Attr name=$name/Q$ isNull=\"1\" />"))
    with isInternal := true, canOverride := true, topNode := some 0}

def rawFormat : OutputFormat := {OutputFormat.new (text "raw") with isInternal := true, isRaw := true}

theorem resultFmtContainer_accepted (name : Text) (closed : Bool) (lines : List Line)
    (server server' : Server) (f : OutputFormat)
    (accepted : resultFmtContainer name closed lines server = some (.ok f,server')) :
    ∃ built p, lines.foldlM formatLine (OutputFormat.new name) = .ok built ∧
      built.topNode ≠ none ∧ built.compile server.parser = (.accepted f,p) ∧
      server'.parser = p := by
  unfold resultFmtContainer at accepted
  by_cases open_ : closed = true
  swap
  · simp [open_] at accepted
  rw [if_neg (by simpa using open_)] at accepted
  split at accepted
  · simp at accepted
  · rename_i built read
    split_ifs at accepted with top
    · simp at accepted
    · split at accepted
      · simp at accepted
      · simp at accepted
      · rename_i g p compiled
        refine ⟨built,p,read,top,?_⟩
        unfold Server.registerFormat at accepted
        split at accepted
        · simp at accepted
        · rename_i registered ok
          simp only [Option.some.injEq,Prod.mk.injEq,Except.ok.injEq] at accepted
          obtain ⟨rfl,rfl⟩ := accepted
          refine ⟨compiled,?_⟩
          split at ok
          · split_ifs at ok
            rw [← Except.ok.inj ok]
          · rw [← Except.ok.inj ok]

theorem resultFmtContainer_accepts (name : Text) (lines : List Line) (server : Server)
    (built f : OutputFormat) (read : lines.foldlM formatLine (OutputFormat.new name) = .ok built)
    (top : built.topNode ≠ none) (compiled : (built.compile server.parser).1 = .accepted f)
    (free : ∀ existing, server.formatByName f.name = some existing → existing.canOverride = true) :
    ∃ server', resultFmtContainer name true lines server = some (.ok f,server') := by
  rcases ran : built.compile server.parser with ⟨result,p⟩
  rw [ran] at compiled
  subst compiled
  obtain ⟨server',registered⟩ : ∃ server',
      Server.registerFormat {server with parser := p} f = .ok server' := by
    have same : Server.formatByName {server with parser := p} f.name = server.formatByName f.name :=
      rfl
    unfold Server.registerFormat
    rw [same]
    cases found : server.formatByName f.name with
    | none => exact ⟨_,rfl⟩
    | some existing => exact ⟨_,if_pos (free existing found)⟩
  refine ⟨server',?_⟩
  unfold resultFmtContainer
  rw [if_neg (by simp),read]
  simp only [if_neg top,ran,registered]

theorem unescape_some (t : Text) (some_text : t ≠ []) : unescape t ≠ [] := by
  match t, some_text with
  | [c], _ => simp [unescape]
  | c::d::rest, _ =>
    unfold unescape
    split_ifs <;> simp

theorem lines_invariant (I : OutputFormat → Prop) (lines : List Line) (f built : OutputFormat)
    (step : ∀ f g line, I f → formatLine f line = .ok g → I g) (initial : I f)
    (read : lines.foldlM formatLine f = .ok built) : I built := by
  induction lines generalizing f with
  | nil =>
    obtain rfl := Except.ok.inj read
    exact initial
  | cons line lines ih =>
    rw [List.foldlM_cons] at read
    cases first : formatLine f line with
    | error message => simp [first,bind,Except.bind] at read
    | ok g =>
      rw [first] at read
      exact ih g (step f g line initial first) read

structure Node.Formed (n : Node) : Prop where
  source : n.unresolved ≠ []
  record : n.kind = .recAttr → ∃ s, n.unresolved2 = some s ∧ s ≠ []
  loop : n.kind ≠ .recAttr → n.unresolved2 = none

theorem loop_formed (name source : Text) (kind : NodeKind) (some_text : source ≠ [])
    (loop : kind ≠ .recAttr) : Node.Formed ⟨name,kind,source,none,.no⟩ :=
  ⟨some_text,fun record => absurd record loop,fun _ => rfl⟩

theorem record_formed (name source source2 : Text) (some_text : source ≠ [])
    (some_text2 : source2 ≠ []) : Node.Formed ⟨name,.recAttr,source,some source2,.no⟩ :=
  ⟨some_text,fun _ => ⟨source2,rfl,some_text2⟩,fun loop => absurd rfl loop⟩

theorem formatLine_cases (f g : OutputFormat) (line : Line) (read : formatLine f line = .ok g) :
    g = f ∨
    (∃ source, source ≠ [] ∧
      g = {f.addSymbol (text "_main") .mainLoop source none with topNode := some f.nodes.length}) ∨
    (∃ name kind source source2, Node.Formed ⟨name,kind,source,source2,.no⟩ ∧ kind ≠ .mainLoop ∧
      g = f.addSymbol name kind source source2) := by
  unfold formatLine at read
  dsimp only at read
  by_cases comment : line.word 1 = [] ∨ (line.word 1).head? = some (code '#')
  · rw [if_pos comment] at read
    exact .inl (Except.ok.inj read).symm
  rw [if_neg comment] at read
  by_cases bad : line.word 2 = [] ∨ code '$' ∈ line.word 2
  · rw [if_pos bad] at read
    cases read
  rw [if_neg bad] at read
  by_cases equals : (line.word 3).head? ≠ some (code '=')
  · rw [if_pos equals] at read
    cases read
  rw [if_neg equals] at read
  by_cases nothing : line.word 4 = []
  · rw [if_pos nothing] at read
    cases read
  rw [if_neg nothing] at read
  have some_text := unescape_some _ nothing
  by_cases format : strcaseEq (line.word 1) (text "Format") = true
  · rw [if_pos format] at read
    exact .inr (.inl ⟨_,some_text,(Except.ok.inj read).symm⟩)
  rw [if_neg format] at read
  by_cases scan : strcaseEq (line.word 1) (text "Scan") = true
  · rw [if_pos scan] at read
    exact .inr (.inr ⟨_,_,_,_,loop_formed _ _ _ some_text (by simp),by simp,
      (Except.ok.inj read).symm⟩)
  rw [if_neg scan] at read
  by_cases row : strcaseEq (line.word 1) (text "Row") = true
  · rw [if_pos row] at read
    exact .inr (.inr ⟨_,_,_,_,loop_formed _ _ _ some_text (by simp),by simp,
      (Except.ok.inj read).symm⟩)
  rw [if_neg row] at read
  by_cases record : strcaseEq (line.word 1) (text "Record") = true
  · rw [if_pos record] at read
    by_cases one : line.word 6 = []
    · rw [if_pos one] at read
      exact .inr (.inr ⟨_,_,_,_,record_formed _ _ _ some_text some_text,by simp,
        (Except.ok.inj read).symm⟩)
    rw [if_neg one] at read
    by_cases or_ : ¬strcaseEq (line.word 5) (text "or") = true
    · rw [if_pos or_] at read
      cases read
    · rw [if_neg or_] at read
      exact .inr (.inr ⟨_,_,_,_,record_formed _ _ _ some_text (unescape_some _ one),by simp,
        (Except.ok.inj read).symm⟩)
  · rw [if_neg record] at read
    cases read

end ModNdb.Format
