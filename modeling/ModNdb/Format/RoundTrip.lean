import ModNdb.Format.Lines

/-! The source of a format, printed and read back as a section: when it defines that format. -/
namespace ModNdb.Format
open Conf (backslash newline isSpace isQuote readQuoted getwordConf words cfgLines Bare)

theorem escapedText_single (s : Text) : newline ∉ escapedText s := by
  induction s with
  | nil => exact List.not_mem_nil
  | cons c s ih =>
    have letters : newline ≠ backslash ∧ newline ≠ code 'n' ∧ newline ≠ apostrophe := by decide
    by_cases line : c = newline
    · rw [line,escapedText_newline]
      simp [ih,letters.1,letters.2.1]
    by_cases open_ : c = apostrophe
    · rw [open_,escapedText_apostrophe]
      simp [ih,letters.1,letters.2.2]
    · rw [escapedText_other c s line open_]
      simp [ih,Ne.symm line]

theorem quotedSource_single (s : Text) : newline ∉ quotedSource s := by
  have other : newline ≠ apostrophe := by decide
  unfold quotedSource
  simp [escapedText_single,other]

theorem quotedSource_last (before s : Text) :
    (before ++ quotedSource s).getLast? = some apostrophe := by
  unfold quotedSource
  rw [← List.cons_append,← List.append_assoc]
  exact List.getLast?_concat

theorem behind_single (n : Node) : newline ∉ n.behind := by
  have letters : newline ∉ text "  or  " := by decide
  unfold Node.behind
  split
  · simp [letters,quotedSource_single]
  · exact List.not_mem_nil

theorem object_single (kind : NodeKind) : newline ∉ kind.object := by
  cases kind <;> decide

theorem bare_single {name : Text} (bare : Bare name) : newline ∉ name := fun inside => by
  have blank : isSpace newline = false := bare.ink newline inside
  exact absurd blank (by decide)

section
variable (n : Node) (fmt : Text)

theorem line_single (bare : Bare (n.shownName fmt)) : newline ∉ n.line fmt := by
  have letters : newline ≠ 32 ∧ newline ≠ code '=' := by decide
  unfold Node.line
  simp [object_single,bare_single bare,quotedSource_single,behind_single,letters.1,letters.2]

theorem line_last : (n.line fmt).getLast? = some apostrophe := by
  have nothing (before s : Text) : (before ++ (quotedSource s ++ [])).getLast? = some apostrophe := by
    rw [List.append_nil]
    exact quotedSource_last before s
  have line : n.line fmt = (n.kind.object ++ 32 :: 32 :: n.shownName fmt ++ [32,code '=',32]) ++
      (quotedSource n.unresolved ++ n.behind) := by
    unfold Node.line
    simp
  rw [line]
  unfold Node.behind
  split
  · rw [← List.append_assoc,← List.append_assoc]
    exact quotedSource_last _ _
  · exact nothing _ _

theorem line_ink : (text "    " ++ n.line fmt).dropWhile isSpace = n.line fmt := by
  have spaces (t : Text) : (text "    " ++ t).dropWhile isSpace = t.dropWhile isSpace := by
    change (32 :: 32 :: 32 :: 32 :: t : Text).dropWhile isSpace = _
    rw [List.dropWhile_cons_of_pos (by decide),List.dropWhile_cons_of_pos (by decide),
      List.dropWhile_cons_of_pos (by decide),List.dropWhile_cons_of_pos (by decide)]
  rw [spaces]
  unfold Node.line
  cases n.kind <;> exact List.dropWhile_cons_of_neg (by decide)

theorem line_open : strcaseEq (n.line fmt) (text "</ResultFormat>") = false := by
  have other (c d : UInt8) (s t : Text) (apart : lower c ≠ lower d) :
      strcaseEq (c::s) (d::t) = false := by
    unfold strcaseEq
    simp [apart]
  unfold Node.line
  cases n.kind <;> exact other _ _ _ _ (by decide)

theorem cfgLines_node (file : Text) (bare : Bare (n.shownName fmt)) :
    cfgLines (printedBy (n.dumpSource fmt) ++ file) = n.line fmt :: cfgLines file := by
  have single : newline ∉ text "    " ++ n.line fmt := by
    have letters : newline ∉ text "    " := by decide
    simp [letters,line_single n fmt bare]
  have last : (text "    " ++ n.line fmt).getLast? = some apostrophe := by
    rw [List.getLast?_append,line_last]
    rfl
  have read := Conf.cfgLines_append _ file apostrophe single last apostrophe_other apostrophe_quote.2
  rw [dumpSource_line,List.append_assoc,List.singleton_append,read,line_ink]

end

theorem cfgLines_nodes (ns : List Node) (fmt file : Text)
    (bare : ∀ n ∈ ns, Bare (n.shownName fmt)) :
    cfgLines (printedBy (ns.flatMap (Node.dumpSource · fmt)) ++ file) =
      ns.map (Node.line · fmt) ++ cfgLines file := by
  induction ns with
  | nil => rfl
  | cons n ns ih =>
    obtain ⟨first,rest⟩ := List.forall_mem_cons.mp bare
    rw [List.flatMap_cons,printedBy_append,List.append_assoc,cfgLines_node n fmt _ first,ih rest]
    rfl

theorem cfgLines_header (name file : Text) (bare : Bare name) :
    cfgLines (text "<ResultFormat \"" ++ name ++ text "\">\n" ++ file) =
      (text "<ResultFormat" ++ 32 :: 34 :: (name ++ 34 :: text ">")) :: cfgLines file := by
  have line : text "<ResultFormat \"" ++ name ++ text "\">\n" ++ file =
      (text "<ResultFormat" ++ 32 :: 34 :: (name ++ 34 :: text ">")) ++ newline :: file := by
    have front : text "<ResultFormat \"" = text "<ResultFormat" ++ [32,34] := rfl
    have ends : text "\">\n" = 34 :: text ">" ++ [newline] := rfl
    rw [front,ends]
    simp
  have letters : newline ∉ text "<ResultFormat" ∧ newline ∉ text ">" ∧ newline ≠ 32 ∧
      newline ≠ 34 := by decide
  have single : newline ∉ text "<ResultFormat" ++ 32 :: 34 :: (name ++ 34 :: text ">") := by
    simp [letters,bare_single bare]
  have last : (text "<ResultFormat" ++ 32 :: 34 :: (name ++ 34 :: text ">")).getLast? =
      some (code '>') := by
    have whole : text "<ResultFormat" ++ 32 :: 34 :: (name ++ 34 :: text ">") =
        (text "<ResultFormat" ++ 32 :: 34 :: (name ++ [34])) ++ [code '>'] := by
      have bracket : text ">" = [code '>'] := rfl
      rw [bracket]
      simp
    rw [whole]
    exact List.getLast?_concat
  rw [line,Conf.cfgLines_append _ file (code '>') single last (by decide) (by decide)]
  exact congrArg (· :: cfgLines file) (List.dropWhile_cons_of_neg (by decide))

structure OutputFormat.Shaped (f : OutputFormat) : Prop where
  tabled : f.Tabled
  formed : ∀ id n, f.definition id = some n → n.Formed
  main : ∀ id n, f.definition id = some n → n.kind = .mainLoop → n.name = text "_main"
  top : ∀ id, f.topNode = some id → ∃ n, f.definition id = some n ∧ n.kind = .mainLoop

namespace OutputFormat.Shaped
variable {f : OutputFormat} (shaped : f.Shaped)
include shaped

theorem add (n : Node) (formed : n.defined.Formed)
    (main : n.kind = .mainLoop → n.name = text "_main") : (f.addNode n).Shaped where
  tabled := addSymbol_tabled shaped.tabled _ _ _ _
  formed := fun id m known => by
    rw [addNode_definition] at known
    split_ifs at known
    · exact Option.some.inj known ▸ formed
    · exact shaped.formed id m known
  main := fun id m known => by
    rw [addNode_definition] at known
    split_ifs at known
    · exact Option.some.inj known ▸ main
    · exact shaped.main id m known
  top := fun id topped => by
    obtain ⟨m,known,kind⟩ := shaped.top id ((addNode_kept n).2 ▸ topped)
    refine ⟨m,?_,kind⟩
    rw [addNode_definition,if_neg (by have := definition_bound known; omega)]
    exact known

theorem topped (g : OutputFormat) (nodes : g.nodes = f.nodes) (table : g.symbolTable = f.symbolTable)
    (top : ∀ id, g.topNode = some id → ∃ n, f.definition id = some n ∧ n.kind = .mainLoop) :
    g.Shaped := by
  have definition (id : Nat) : g.definition id = f.definition id := by
    unfold OutputFormat.definition
    rw [nodes]
  have symbol (x : Text) : g.symbol x = f.symbol x := by
    unfold OutputFormat.symbol OutputFormat.nameOf
    rw [nodes,table]
  refine ⟨fun h id entry => ?_,fun id n => ?_,fun id n => ?_,fun id topped => ?_⟩
  · rw [table] at entry
    obtain ⟨n,found,bucket,known⟩ := shaped.tabled h id entry
    exact ⟨n,nodes ▸ found,bucket,(symbol n.name).trans known⟩
  · rw [definition]
    exact shaped.formed id n
  · rw [definition]
    exact shaped.main id n
  · rw [definition]
    exact top id topped

theorem same {g : OutputFormat} (same : SameText f g) : g.Shaped where
  tabled := same.tabled shaped.tabled
  formed := fun id n known => shaped.formed id n ((same.definition id).symm.trans known)
  main := fun id n known => shaped.main id n ((same.definition id).symm.trans known)
  top := fun id topped => by
    rw [same.definition]
    exact shaped.top id (same.topNode.symm.trans topped)

theorem texts : f.HasTexts := by
  intro n inside
  obtain ⟨id,bound,found⟩ := List.getElem_of_mem inside
  have known : f.definition id = some n.defined := by
    unfold OutputFormat.definition
    rw [List.getElem?_eq_getElem bound,found]
    rfl
  exact (shaped.formed id _ known).source

theorem compiled {g : OutputFormat} {p q : Parser} (topped : f.topNode ≠ none)
    (compiled : f.compile p = (.accepted g,q)) :
    g.Shaped ∧ g.topNode ≠ none ∧ AllParse g g.symbols ∧ SameText f g := by
  have parsed := (compile_accepted_iff f g p shaped.texts).mp (congrArg Prod.fst compiled)
  have text := parseAll_text _ _ _ parsed
  have shaped' := shaped.same text
  refine ⟨shaped',?_,?_,text⟩
  · rw [text.topNode]
    exact topped
  · exact recompiles f g shaped'.tabled (fun x => (text.source x).symm)
      ((parseAll_iff f.symbols f).mp ⟨g,parsed⟩)

end OutputFormat.Shaped

theorem new_shaped (name : Text) : (OutputFormat.new name).Shaped where
  tabled := OutputFormat.new_tabled name
  formed := fun _ _ known => nomatch known
  main := fun _ _ known => nomatch known
  top := fun _ topped => nomatch topped

/-- The lines of a section keep the shape. -/
theorem formatLine_shaped (f g : OutputFormat) (line : Line) (shaped : f.Shaped)
    (read : formatLine f line = .ok g) : g.Shaped := by
  rcases formatLine_cases f g line read with rfl | ⟨source,some_text,rfl⟩ |
    ⟨name,kind,source,source2,formed,inner,rfl⟩
  · exact shaped
  · have added := shaped.add ⟨text "_main",.mainLoop,source,none,.no⟩
      (loop_formed _ _ _ some_text (by simp)) fun _ => rfl
    refine added.topped _ rfl rfl fun id same => ⟨⟨text "_main",.mainLoop,source,none,.no⟩,?_,rfl⟩
    rw [OutputFormat.addNode_definition,if_pos (Option.some.inj same).symm]
    rfl
  · exact shaped.add ⟨name,kind,source,source2,.no⟩ formed fun main => absurd main inner

theorem lines_shaped (name : Text) (lines : List Line) (built : OutputFormat)
    (read : lines.foldlM formatLine (OutputFormat.new name) = .ok built) : built.Shaped :=
  lines_invariant _ lines _ built formatLine_shaped (new_shaped name) read

theorem json_shaped : jsonFormat.Shaped := by
  have main := (new_shaped (text "JSON")).add ⟨text "_main",.mainLoop,text "$scan$\n",none,.no⟩
    (loop_formed _ _ _ (by decide) (by decide)) fun _ => rfl
  have scan := main.add ⟨text "scan",.scanLoop,text "[\n $row$,\n ... \n]",none,.no⟩
    (loop_formed _ _ _ (by decide) (by decide)) (by decide)
  have row := scan.add ⟨text "row",.rowLoop,text " \x7b $item$ , ... \x7d",none,.no⟩
    (loop_formed _ _ _ (by decide) (by decide)) (by decide)
  have item := row.add ⟨text "item",.recAttr,text "$name/Q$:$value/qj$",some (text "$name/Q$:null"),
    .no⟩ (record_formed _ _ _ (by decide) (by decide)) (by decide)
  exact item.topped jsonFormat rfl rfl fun id topped => by
    rw [← Option.some.inj topped]
    exact ⟨_,rfl,rfl⟩

theorem xml_shaped : xmlFormat.Shaped := by
  have main := (new_shaped (text "XML")).add ⟨text "_main",.mainLoop,text "$scan$\n",none,.no⟩
    (loop_formed _ _ _ (by decide) (by decide)) fun _ => rfl
  have scan := main.add ⟨text "scan",.scanLoop,text "<NDBScan>\n$row$\n...\n</NDBScan>",none,.no⟩
    (loop_formed _ _ _ (by decide) (by decide)) (by decide)
  have row := scan.add ⟨text "row",.rowLoop,text " <NDBTuple> $attr$ \n  ...  </NDBTuple>",none,.no⟩
    (loop_formed _ _ _ (by decide) (by decide)) (by decide)
  have item := row.add ⟨text "attr",.recAttr,text "<Attr name=$name/Q$ value=$value/Qx$ />",
    some (text "<Attr name=$name/Q$ isNull=\"1\" />"),.no⟩
    (record_formed _ _ _ (by decide) (by decide)) (by decide)
  exact item.topped xmlFormat rfl rfl fun id topped => by
    rw [← Option.some.inj topped]
    exact ⟨_,rfl,rfl⟩

/-- Every format that is defined has a top node and compiles, unless it is raw. -/
theorem defined_shaped (f : OutputFormat) (defined : Defined f) (raw : f.isRaw = false) :
    f.Shaped ∧ f.topNode ≠ none ∧ AllParse f f.symbols := by
  cases defined with
  | container args lines server next f read =>
    unfold readContainer at read
    obtain ⟨built,p,lines,top,compiled,-⟩ := resultFmtContainer_accepted _ _ _ _ _ _ read
    obtain ⟨shaped,topped,parse,-⟩ := (lines_shaped _ _ _ lines).compiled top compiled
    exact ⟨shaped,topped,parse⟩
  | json p q f compiled =>
    obtain ⟨shaped,topped,parse,-⟩ := json_shaped.compiled (by decide) compiled
    exact ⟨shaped,topped,parse⟩
  | xml p q f compiled =>
    obtain ⟨shaped,topped,parse,-⟩ := xml_shaped.compiled (by decide) compiled
    exact ⟨shaped,topped,parse⟩
  | raw => cases raw

def OutputFormat.printed (f : OutputFormat) : List Node :=
  (f.topNode.bind fun id => f.nodes[id]?).toList ++ f.named

/-- The lines of the source of a format, in the section of its name. -/
theorem readSection_source (f : OutputFormat) (server : Server) (raw : f.isRaw = false)
    (names : f.PlainNames) (bare : ∀ n ∈ f.printed, Bare (n.shownName f.name)) :
    readSection (printedBy f.dumpSource) server =
      resultFmtContainer f.name true (f.printed.map fun n => words 6 (n.line f.name)) server := by
  have source : printedBy f.dumpSource = text "<ResultFormat \"" ++ f.name ++ text "\">\n" ++
      (printedBy (f.printed.flatMap (Node.dumpSource · f.name)) ++
        (text "</ResultFormat>" ++ newline :: [newline])) := by
    have ends : printedBy [.out (text "</ResultFormat>\n\n")] =
        text "</ResultFormat>" ++ newline :: [newline] := rfl
    have begins (bytes : Text) (rest : List DumpCall) :
        printedBy (.out bytes :: rest) = bytes ++ printedBy rest := rfl
    unfold OutputFormat.dumpSource OutputFormat.printed
    rw [if_neg (by rw [raw]; exact Bool.false_ne_true),begins,printedBy_append,printedBy_append,ends,
      List.flatMap_append,printedBy_append]
    simp only [List.append_assoc]
  have close : cfgLines (text "</ResultFormat>" ++ newline :: [newline]) =
      text "</ResultFormat>" :: cfgLines [newline] :=
    Conf.cfgLines_append _ [newline] (code '>') (by decide) rfl (by decide) (by decide)
  have directive : getwordConf (text "<ResultFormat" ++ 32 :: 34 :: (f.name ++ 34 :: text ">")) =
      (text "<ResultFormat",34 :: (f.name ++ 34 :: text ">")) := by
    rw [Conf.getwordConf_bare _ _ (bare_test _ (by decide) (by decide) (by decide) (by decide)),
      List.dropWhile_cons_of_neg (by decide)]
  have name : getwordConf (34 :: (f.name ++ 34 :: text ">")) = (f.name,text ">") := by
    rw [Conf.getwordConf_quoted _ _ (by decide) (by decide),
      Conf.readQuoted_word _ _ _ names.quotes names.name.bare.single names.last]
    rfl
  have inside : ∀ line ∈ f.printed.map (Node.line · f.name),
      (!strcaseEq line (text "</ResultFormat>")) = true := by
    intro line there
    obtain ⟨n,-,rfl⟩ := List.mem_map.mp there
    rw [line_open]
    rfl
  have closed : strcaseEq (text "</ResultFormat>") (text "</ResultFormat>") = true := by decide
  unfold readSection
  rw [source,cfgLines_header _ _ names.name.bare,cfgLines_nodes _ _ _ bare,close]
  dsimp only
  rw [directive]
  dsimp only
  rw [if_pos (show strcaseEq (text "<ResultFormat") (text "<ResultFormat") = true by decide)]
  unfold readContainer
  rw [name]
  dsimp only
  rw [List.takeWhile_append_of_pos inside,
    List.takeWhile_cons_of_neg (by rw [closed]; exact Bool.false_ne_true),List.append_nil,
    List.map_map,show findLastToken (text ">") (text ">") = true by decide]
  rfl

theorem Node.Formed.of_defined {n : Node} (formed : n.defined.Formed) : n.Formed :=
  ⟨formed.source,formed.record,formed.loop⟩

theorem printed_nodes (f : OutputFormat) (shaped : f.Shaped) (topped : f.topNode ≠ none) :
    (∃ t, f.printed = t :: f.named ∧ f.top = some t.defined ∧ t.kind = .mainLoop ∧
      t.name = text "_main" ∧ t.Formed) ∧
    ∀ n ∈ f.named, n ∈ f.tableNodes ∧ n.name ≠ text "_main" ∧ n.kind ≠ .mainLoop ∧ n.Formed := by
  constructor
  · obtain ⟨id,top⟩ := Option.ne_none_iff_exists'.mp topped
    obtain ⟨m,known,kind⟩ := shaped.top id top
    obtain ⟨t,found,rfl⟩ := Option.map_eq_some_iff.mp known
    refine ⟨t,?_,?_,kind,shaped.main id t.defined known kind,.of_defined (shaped.formed id _ known)⟩
    · unfold OutputFormat.printed
      rw [top,Option.bind_some,found]
      rfl
    · unfold OutputFormat.top
      rw [top]
      exact known
  · intro n inside
    obtain ⟨there,other⟩ := List.mem_filter.mp inside
    have other : n.name ≠ text "_main" := by simpa using other
    have there : n ∈ f.tableNodes := there
    obtain ⟨id,-,found⟩ := List.mem_filterMap.mp there
    have known : f.definition id = some n.defined := congrArg (Option.map Node.defined) found
    exact ⟨there,other,fun kind => other (shaped.main id n.defined known kind),
      .of_defined (shaped.formed id _ known)⟩

def OutputFormat.reread (f : OutputFormat) (t : Node) : OutputFormat :=
  (f.named.map Node.readBack).foldl addNode
    {(OutputFormat.new f.name).addNode t.readBack with topNode := some 0}

section
variable (f : OutputFormat) (t : Node)

theorem reread_kept : (f.reread t).name = f.name ∧ (f.reread t).top = some t.readBack := by
  have named := (OutputFormat.addNode_kept (f := OutputFormat.new f.name) t.readBack).1
  obtain ⟨kept,top⟩ := OutputFormat.addAll_kept (f.named.map Node.readBack)
    {(OutputFormat.new f.name).addNode t.readBack with topNode := some 0} 0 t.readBack rfl
    ((OutputFormat.addNode_definition (f := OutputFormat.new f.name) t.readBack 0).trans (if_pos rfl))
  exact ⟨kept.trans named,top⟩

/-- What the names stand for once a source is read back. -/
theorem reread_source (main : t.name = text "_main") (x : Text) : (f.reread t).source x =
    if x = text "_main" then some t.readBack
    else (f.named.find? fun n => n.name == x).map Node.readBack := by
  have start (x : Text) : OutputFormat.source
      {(OutputFormat.new f.name).addNode t.readBack with topNode := some 0} x =
      if x = text "_main" then some t.readBack else none := by
    have free (y : Text) : (OutputFormat.new f.name).symbol y = none := rfl
    have added : ((OutputFormat.new f.name).addNode t.readBack).source x = _ :=
      OutputFormat.addSymbol_source (OutputFormat.new_tabled f.name) _ _ _ _ x
    have nothing : (OutputFormat.new f.name).source x = none := rfl
    have named : t.readBack.name = text "_main" := main
    have node : (⟨text "_main",t.readBack.kind,t.readBack.unresolved,t.readBack.unresolved2,.no⟩ :
        Node) = t.readBack := by
      rw [← named]
      rfl
    rw [free,nothing,named,node] at added
    simp only [true_and] at added
    exact added
  have tabled : OutputFormat.Tabled
      {(OutputFormat.new f.name).addNode t.readBack with topNode := some 0} :=
    OutputFormat.addSymbol_tabled (OutputFormat.new_tabled f.name) _ _ _ _
  unfold OutputFormat.reread
  rw [(OutputFormat.addAll_source _ tabled x).1,start,List.find?_map,Option.map_map]
  by_cases same : x = text "_main"
  · rw [if_pos same,if_pos same]
    rfl
  · rw [if_neg same,if_neg same]
    rfl

end

section
variable (f : OutputFormat) (shaped : f.Shaped) (topped : f.topNode ≠ none)
include shaped topped

/-- What the lines of a source do is told by the nodes they are read back as. -/
theorem lines_reread (names : f.PlainNames) (t : Node) (printed : f.printed = t :: f.named) (main : t.kind = .mainLoop)
    (named : t.name = text "_main") (formed : t.Formed) :
    (∀ built, (f.printed.map fun n => words 6 (n.line f.name)).foldlM formatLine
        (OutputFormat.new f.name) = .ok built → built = f.reread t) ∧
      (f.PlainSources → (f.printed.map fun n => words 6 (n.line f.name)).foldlM formatLine
        (OutputFormat.new f.name) = .ok (f.reread t)) := by
  have nodes := (printed_nodes f shaped topped).2
  have inner : ∀ n ∈ f.named, n.kind ≠ .mainLoop := fun n inside => (nodes n inside).2.2.1
  have formedAll : ∀ n ∈ f.named, n.Formed := fun n inside => (nodes n inside).2.2.2
  have first := formatLine_main (OutputFormat.new f.name) t f.name main named names.name formed
  rw [printed,List.map_cons,List.foldlM_cons,first]
  constructor
  · intro built read
    exact foldlM_accepted f.named f.name _ built inner names.nodes formedAll read
  · intro plain
    exact foldlM_plain f.named f.name _ inner names.nodes formedAll plain.nodes

theorem printed_bare (names : f.PlainNames) : ∀ n ∈ f.printed, Bare (n.shownName f.name) := by
  obtain ⟨⟨t,printed,-,main,-,-⟩,nodes⟩ := printed_nodes f shaped topped
  rw [printed,List.forall_mem_cons]
  constructor
  · have shown : t.shownName f.name = f.name := if_pos main
    rw [shown]
    exact names.name.bare
  · intro n inside
    have shown : n.shownName f.name = n.name := if_neg (nodes n inside).2.2.1
    rw [shown]
    exact (names.nodes n inside).bare

/-- Nodes that are read back as they are stand for the same names. -/
theorem reread_same (t : Node) (named : t.name = text "_main") (top : f.top = some t.defined)
    (formed : t.Formed) (main : f.source (text "_main") = f.top) (plain : f.PlainSources) (x : Text) :
    f.source x = (f.reread t).source x := by
  have nodes := (printed_nodes f shaped topped).2
  rw [reread_source f t named]
  by_cases same : x = text "_main"
  · have whole : t.readBack = t.defined :=
      (readBack_iff t formed).mpr (plain.top t.defined top)
    rw [if_pos same,same,main,top,whole]
  · rw [if_neg same,OutputFormat.source_find shaped.tabled (fun n => n.name ≠ text "_main") x
      fun n other => by simpa [other] using same]
    change (f.named.find? fun n => n.name == x).map Node.defined = _
    cases found : f.named.find? fun n => n.name == x with
    | none => rfl
    | some n =>
      have inside := List.mem_of_find?_eq_some found
      exact congrArg some ((readBack_iff n (nodes n inside).2.2.2).mpr (plain.nodes n inside)).symm

/-- Names that stand for the same are those of nodes that are read back as they are. -/
theorem plain_of_reread (t : Node) (named : t.name = text "_main") (top : f.top = some t.defined)
    (formed : t.Formed) (same : ∀ x, (f.reread t).source x = f.source x)
    (whole : (f.reread t).top = f.top) : f.source (text "_main") = f.top ∧ f.PlainSources := by
  have nodes := (printed_nodes f shaped topped).2
  have readTop := (reread_kept f t).2
  have back : t.readBack = t.defined := by
    rw [readTop,top] at whole
    exact Option.some.inj whole
  refine ⟨?_,fun n inside => ?_,fun n inside => ?_⟩
  · rw [← same,reread_source f t named,if_pos rfl,← whole,readTop]
  · obtain rfl := Option.some.inj (top.symm.trans inside)
    exact (readBack_iff t formed).mp back
  · obtain ⟨there,other,-,-⟩ := nodes n inside
    have source := OutputFormat.source_node shaped.tabled n there
    have found := same n.name
    rw [reread_source f t named,if_neg other,source] at found
    obtain ⟨m,first,back⟩ := Option.map_eq_some_iff.mp found
    obtain ⟨there',-,-,formed'⟩ := nodes m (List.mem_of_find?_eq_some first)
    have called : m.name = n.name := by simpa using List.find?_some first
    have source' := OutputFormat.source_node shaped.tabled m there'
    rw [called,source] at source'
    have defined : n.defined = m.defined := Option.some.inj source'
    have plain : m.defined.PlainSources := (readBack_iff m formed').mp (back.trans defined)
    rw [← defined] at plain
    exact plain

end

section
variable (f : OutputFormat) (defined : Defined f) (raw : f.isRaw = false) (names : f.PlainNames)
include defined raw names

/-- What it takes that a source defines its format again. -/
theorem plain_of_roundTrips (trips : f.RoundTrips) :
    f.source (text "_main") = f.top ∧ f.PlainSources := by
  obtain ⟨shaped,topped,-⟩ := defined_shaped f defined raw
  obtain ⟨⟨t,printed,top,main,named,formed⟩,-⟩ := printed_nodes f shaped topped
  have bare := printed_bare f shaped topped names
  obtain ⟨accepted,-⟩ := lines_reread f shaped topped names t printed main named formed
  obtain ⟨g,next,read,same⟩ := trips ⟨.initial,[],fun _ => none⟩ fun _ found => nomatch found
  rw [readSection_source f _ raw names bare] at read
  obtain ⟨built,p,lines,top',compiled,-⟩ := resultFmtContainer_accepted _ _ _ _ _ _ read
  obtain ⟨-,-,-,text⟩ := (lines_shaped _ _ _ lines).compiled top' compiled
  obtain rfl := accepted built lines
  exact plain_of_reread f shaped topped t named top formed
    (fun x => (text.source x).symm.trans (same.source x)) (text.top.symm.trans same.top)

theorem roundTrips_of_plain (table : f.source (text "_main") = f.top) (plain : f.PlainSources) :
    f.RoundTrips := by
  obtain ⟨shaped,topped,parse⟩ := defined_shaped f defined raw
  obtain ⟨⟨t,printed,top,main,named,formed⟩,-⟩ := printed_nodes f shaped topped
  have bare := printed_bare f shaped topped names
  have lines := (lines_reread f shaped topped names t printed main named formed).2 plain
  obtain ⟨keptName,keptTop⟩ := reread_kept f t
  have names' := reread_same f shaped topped t named top formed table plain
  have shaped' := lines_shaped _ _ _ lines
  obtain ⟨g,parsed⟩ := (parseAll_iff _ _).mpr (recompiles f (f.reread t) shaped'.tabled names' parse)
  have text := parseAll_text _ _ _ parsed
  have topped' : (f.reread t).topNode ≠ none := by
    intro nothing
    unfold OutputFormat.top at keptTop
    rw [nothing] at keptTop
    cases keptTop
  have back : t.readBack = t.defined := (readBack_iff t formed).mpr (plain.top t.defined top)
  intro server free
  have compiled := (compile_accepted_iff _ g server.parser shaped'.texts).mpr parsed
  have free' : ∀ existing, server.formatByName g.name = some existing →
      existing.canOverride = true := by
    rw [text.name,keptName]
    exact free
  rw [readSection_source f server raw names bare]
  obtain ⟨next,read⟩ := resultFmtContainer_accepts f.name _ server _ g lines topped' compiled free'
  refine ⟨g,next,read,text.name.trans keptName,?_,fun x => ?_⟩
  · rw [text.top,keptTop,top,back]
  · rw [text.source,names']

/-- The source of a format defines that format exactly if backslashes mean nothing in its source
strings, and its top node is the one that its table has. -/
theorem round_trips_iff : f.RoundTrips ↔ f.source (text "_main") = f.top ∧ f.PlainSources :=
  ⟨plain_of_roundTrips f defined raw names,
    fun plain => roundTrips_of_plain f defined raw names plain.1 plain.2⟩

end

theorem plainSource_single (s : Text) (single : backslash ∉ s) : PlainSource s :=
  fun _ found => absurd (List.mem_of_getElem? found) single

theorem bareName_test (name : Text) (some : name ≠ []) (ink : name.any isSpace = false)
    (starts : name.head?.any isQuote = false) (single : ¬[backslash,backslash] <:+: name)
    (dollar : code '$' ∉ name) : BareName name := ⟨bare_test name some ink starts single,dollar⟩

theorem named_all (P : Node → Prop) {f g : OutputFormat} (same : OutputFormat.SameText f g)
    (all : ∀ n ∈ f.nodes, P n.defined) : ∀ n ∈ g.named, P n.defined := by
  intro n inside
  obtain ⟨id,-,found⟩ := List.mem_filterMap.mp (List.mem_filter.mp inside).1
  have known : f.definition id = some n.defined :=
    (same.definition id).symm.trans (congrArg (Option.map Node.defined) found)
  obtain ⟨m,found',defined⟩ := Option.map_eq_some_iff.mp known
  rw [← defined]
  exact all m (List.mem_of_getElem? found')

theorem json_round_trips : jsonCompiled.RoundTrips := by
  have accepted := jsonFormat_accepted .initial
  rcases ran : jsonFormat.compile .initial with ⟨result,q⟩
  rw [ran] at accepted
  dsimp only at accepted
  rw [accepted] at ran
  have names : jsonCompiled.PlainNames := {
    name := bareName_test _ (by decide) (by decide) (by decide) (by decide) (by decide)
    quotes := by decide
    last := by decide
    nodes := named_all (fun n => BareName n.name) (.refl _) fun n inside => by
      fin_cases inside <;>
        exact bareName_test _ (by decide) (by decide) (by decide) (by decide) (by decide) }
  have plain : ∀ n ∈ jsonCompiled.named, n.PlainSources :=
    named_all Node.PlainSources (.refl _) fun n inside => by
      fin_cases inside <;>
        exact ⟨plainSource_single _ (by decide),fun s known => plainSource_single s (by
          cases known <;> decide)⟩
  exact (round_trips_iff jsonCompiled (.json .initial q _ ran) rfl names).mpr
    ⟨rfl,fun n top => by
      obtain rfl := Option.some.inj top
      exact ⟨plainSource_single _ (by decide),fun s known => nomatch known⟩,plain⟩

def quoteLines : List Text :=
  [text "Format f = \"\\'$r$\"",text "Row r = '$c$ ...'",text "Record c = '$value$'",
    text "</ResultFormat>"]

def quoteBuilt : OutputFormat :=
  (OutputFormat.addSymbol
    {(OutputFormat.new (text "f")).addSymbol (text "_main") .mainLoop (text "\\'$r$") none with
      topNode := some 0} (text "r") .rowLoop (text "$c$ ...") none
    ).addSymbol (text "c") .recAttr (text "$value$") (some (text "$value$"))

theorem quoteLines_built :
    ((quoteLines.take 3).map (words 6)).foldlM formatLine (OutputFormat.new (text "f")) =
      .ok quoteBuilt := by
  have read : (quoteLines.take 3).map (words 6) =
      [[text "Format",text "f",text "=",text "\\'$r$",[],[]],
        [text "Row",text "r",text "=",text "$c$ ...",[],[]],
        [text "Record",text "c",text "=",text "$value$",[],[]]] := by decide
  have f := bareName_test (text "f") (by decide) (by decide) (by decide) (by decide) (by decide)
  have r := bareName_test (text "r") (by decide) (by decide) (by decide) (by decide) (by decide)
  have c := bareName_test (text "c") (by decide) (by decide) (by decide) (by decide) (by decide)
  have first (g : OutputFormat) : formatLine g
      [text "Format",text "f",text "=",text "\\'$r$",[],[]] =
      .ok {g.addSymbol (text "_main") .mainLoop (text "\\'$r$") none with
        topNode := some g.nodes.length} :=
    formatLine_assign g .mainLoop _ _ _ f (by decide)
  have second (g : OutputFormat) : formatLine g
      [text "Row",text "r",text "=",text "$c$ ...",[],[]] =
      .ok (g.addSymbol (text "r") .rowLoop (text "$c$ ...") none) :=
    formatLine_assign g .rowLoop _ _ _ r (by decide)
  have third (g : OutputFormat) : formatLine g
      [text "Record",text "c",text "=",text "$value$",[],[]] =
      .ok (g.addSymbol (text "c") .recAttr (text "$value$") (some (text "$value$"))) :=
    formatLine_assign g .recAttr _ _ _ c (by decide)
  have next (g : OutputFormat) (lines : List Line) :
      ((Except.ok g : Except Text OutputFormat) >>= fun g => lines.foldlM formatLine g) =
        lines.foldlM formatLine g := rfl
  rw [read,List.foldlM_cons,first,next,List.foldlM_cons,second,next,List.foldlM_cons,third,next]
  rfl

theorem quoteBuilt_defined : ∃ f, Defined f ∧ OutputFormat.SameText quoteBuilt f := by
  have shaped := lines_shaped _ _ _ quoteLines_built
  obtain ⟨f,parsed⟩ := Option.isSome_iff_exists.mp
    (show (parseAll quoteBuilt.symbols quoteBuilt).isSome = true by decide +kernel)
  have compiled := (compile_accepted_iff quoteBuilt f .initial shaped.texts).mpr parsed
  obtain ⟨next,read⟩ := resultFmtContainer_accepts (text "f") _ ⟨.initial,[],fun _ => none⟩
    quoteBuilt f quoteLines_built (by decide) compiled fun _ found => nomatch found
  have name : getwordConf (text "\"f\">") = (text "f",text ">") := by decide
  have lines : quoteLines.takeWhile (fun line => !strcaseEq line (text "</ResultFormat>")) =
      quoteLines.take 3 := by decide
  have section_ : readContainer (text "\"f\">") quoteLines ⟨.initial,[],fun _ => none⟩ =
      some (.ok f,next) := by
    unfold readContainer
    rw [name,lines]
    dsimp only
    rw [show findLastToken (text ">") (text ">") = true by decide]
    exact read
  exact ⟨f,.container _ _ _ next f section_,parseAll_text _ _ _ parsed⟩

/-- An apostrophe behind a backslash ends the source when it is read back. -/
theorem hidden_apostrophe_lost : ∃ f, Defined f ∧ f.isRaw = false ∧
    f.top = some ⟨text "_main",.mainLoop,text "\\'$r$",none,.no⟩ ∧ ¬f.RoundTrips := by
  obtain ⟨f,defined,same⟩ := quoteBuilt_defined
  obtain ⟨named,top⟩ := OutputFormat.addAll_kept
    [⟨text "r",.rowLoop,text "$c$ ...",none,.no⟩,
      ⟨text "c",.recAttr,text "$value$",some (text "$value$"),.no⟩]
    {(OutputFormat.new (text "f")).addNode ⟨text "_main",.mainLoop,text "\\'$r$",none,.no⟩ with
      topNode := some 0} 0 ⟨text "_main",.mainLoop,text "\\'$r$",none,.no⟩ rfl rfl
  have raw : quoteBuilt.isRaw = false := by decide +kernel
  have nodes : quoteBuilt.nodes = [⟨text "_main",.mainLoop,text "\\'$r$",none,.no⟩,
      ⟨text "r",.rowLoop,text "$c$ ...",none,.no⟩,
      ⟨text "c",.recAttr,text "$value$",some (text "$value$"),.no⟩] := by
    unfold quoteBuilt
    rw [OutputFormat.addSymbol_nodes,OutputFormat.addSymbol_nodes]
    rfl
  have called : f.name = text "f" := same.name.trans named
  have names : f.PlainNames := {
    name := called ▸ bareName_test _ (by decide) (by decide) (by decide) (by decide) (by decide)
    quotes := called ▸ by decide
    last := called ▸ by decide
    nodes := named_all (fun n => BareName n.name) same fun n inside => by
      rw [nodes] at inside
      fin_cases inside <;>
        exact bareName_test _ (by decide) (by decide) (by decide) (by decide) (by decide) }
  have top : f.top = some ⟨text "_main",.mainLoop,text "\\'$r$",none,.no⟩ := same.top.trans top
  refine ⟨f,defined,same.isRaw.trans raw,top,fun trips => ?_⟩
  have plain := (plain_of_roundTrips f defined (same.isRaw.trans raw) names trips).2.top _ top
  exact plainSource_special (text "'$r$") (fun d first => by
    rw [← Option.some.inj first]
    decide) plain.1

end ModNdb.Format
