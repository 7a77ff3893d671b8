import ModNdb.Format.Sources
import ModNdb.Format.Tables

/-! A `<ResultFormat>` section as the server reads it from a file, and the lines that the source
of a format consists of. -/
namespace ModNdb.Format
open Conf (backslash newline isSpace isQuote readQuoted getwordConf words cfgLines Bare)

/-- `ap_find_last_token` -/
def findLastToken (line tok : Text) : Bool :=
  let before := line.take (line.length - tok.length)
  tok.length ≤ line.length ∧
    (before = [] ∨ before.getLast?.any fun c => isSpace c || c = code ',') ∧
    strcaseEq (line.drop before.length) tok

/-- `result_fmt_container`: what stands behind the directive, and the lines that follow. -/
def readContainer (args : Text) (lines : List Text) (server : Server) :
    Option (Except Text OutputFormat × Server) :=
  let (name,pos) := getwordConf args
  resultFmtContainer name (findLastToken pos (text ">"))
    ((lines.takeWhile fun line => !strcaseEq line (text "</ResultFormat>")).map (words 6)) server

def readSection (file : Text) (server : Server) : Option (Except Text OutputFormat × Server) :=
  match cfgLines file with
  | [] => none
  | line::lines =>
    if strcaseEq (getwordConf line).1 (text "<ResultFormat") then
      readContainer (getwordConf line).2 lines server
    else none

inductive Defined : OutputFormat → Prop
  | container (args : Text) (lines : List Text) (server next : Server) (f : OutputFormat)
    (read : readContainer args lines server = some (.ok f,next)) : Defined f
  | json (p q : Parser) (f : OutputFormat) (compiled : jsonFormat.compile p = (.accepted f,q)) :
    Defined f
  | xml (p q : Parser) (f : OutputFormat) (compiled : xmlFormat.compile p = (.accepted f,q)) :
    Defined f
  | raw : Defined rawFormat

structure SameSource (f g : OutputFormat) : Prop where
  name : g.name = f.name
  top : g.top = f.top
  source : ∀ x, g.source x = f.source x

/-- The source of a format defines that format, in a server that has no other of its name which
cannot be overridden. -/
def OutputFormat.RoundTrips (f : OutputFormat) : Prop := ∀ server : Server,
  (∀ existing, server.formatByName f.name = some existing → existing.canOverride = true) →
  ∃ g next, readSection (printedBy f.dumpSource) server = some (.ok g,next) ∧ SameSource f g

def Node.PlainSources (n : Node) : Prop :=
  PlainSource n.unresolved ∧ ∀ s ∈ n.unresolved2, PlainSource s

structure OutputFormat.PlainSources (f : OutputFormat) : Prop where
  top : ∀ n ∈ f.top, n.PlainSources
  nodes : ∀ n ∈ f.named, n.PlainSources

structure BareName (name : Text) : Prop where
  bare : Bare name
  dollar : code '$' ∉ name

structure OutputFormat.PlainNames (f : OutputFormat) : Prop where
  name : BareName f.name
  quotes : 34 ∉ f.name
  last : f.name.getLast? ≠ some backslash
  nodes : ∀ n ∈ f.named, BareName n.name

def quotedSource (s : Text) : Text := apostrophe :: (escapedText s ++ [apostrophe])

def NodeKind.object : NodeKind → Text
  | .mainLoop => text "Format"
  | .scanLoop => text "Scan"
  | .rowLoop => text "Row"
  | .recAttr => text "Record"

/-- The name a line shows, which is the format's for the top node. -/
def Node.shownName (n : Node) (fmt : Text) : Text := if n.kind = .mainLoop then fmt else n.name

def Node.behind (n : Node) : Text :=
  match n.kind, n.unresolved2 with
  | .recAttr, some s => text "  or  " ++ quotedSource s
  | _, _ => []

def Node.line (n : Node) (fmt : Text) : Text :=
  n.kind.object ++ 32 :: 32 :: (n.shownName fmt ++ 32 :: code '=' :: 32 ::
    (quotedSource n.unresolved ++ n.behind))

theorem dumpSource_line (n : Node) (fmt : Text) :
    printedBy (n.dumpSource fmt) = text "    " ++ n.line fmt ++ [newline] := by
  have spaces : text "  " = [32,32] := rfl
  have equals : text " = " = [32,code '=',32] := rfl
  have line (object name : Text) (calls : List DumpCall) (behind : Text)
      (printed : printedBy calls = behind) :
      printedBy (.out (text "    " ++ object ++ text "  " ++ name ++ text " = ") ::
        (escapeConfStr n.unresolved ++ (calls ++ [.out (text "\n")]))) =
      text "    " ++ (object ++ 32 :: 32 :: (name ++ 32 :: code '=' :: 32 ::
        (quotedSource n.unresolved ++ behind))) ++ [newline] := by
    have ends : printedBy [.out (text "\n")] = [newline] := rfl
    have begins (bytes : Text) (rest : List DumpCall) :
        printedBy (.out bytes :: rest) = bytes ++ printedBy rest := rfl
    rw [begins,printedBy_append,printedBy_append,escapeConfStr_text,printed,ends,spaces,equals]
    unfold quotedSource
    simp only [List.append_assoc,List.cons_append,List.nil_append]
  unfold Node.dumpSource Node.line Node.shownName Node.behind
  cases kind : n.kind with
  | mainLoop => exact line (text "Format") fmt [] [] rfl
  | scanLoop => exact line (text "Scan") n.name [] [] rfl
  | rowLoop => exact line (text "Row") n.name [] [] rfl
  | recAttr =>
    cases n.unresolved2 with
    | none => exact line (text "Record") n.name [] [] rfl
    | some s =>
      refine line (text "Record") n.name (.out (text "  or  ") :: escapeConfStr s) _ ?_
      exact congrArg (text "  or  " ++ ·) (escapeConfStr_text s)

end ModNdb.Format
