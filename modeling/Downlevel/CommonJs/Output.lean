import Downlevel.CommonJs.Conversion
import Downlevel.Compilation
import Downlevel.Script.Grammar.Module
import Downlevel.SourceMap.DataUrl

/-!
# Converted scripts

The whole way from the text of a module to that of its conversion, with its source map. Comments
with maps of earlier steps are dropped, so that only the last map is referred to.
-/

namespace Downlevel.CommonJs

/-! ## Comments with maps -/

/-- The lines of a text, without the line feeds between them. -/
def lines : List Char → List (List Char)
  | [] => [[]]
  | c :: cs =>
    match lines cs with
    | line :: rest => if c = '\n' then [] :: line :: rest else (c :: line) :: rest
    | [] => [[c]]

/-- Puts line feeds between lines. -/
def unlines : List (List Char) → List Char
  | [] => []
  | [line] => line
  | line :: next :: rest => line ++ '\n' :: unlines (next :: rest)

/-- Whether a line refers to a map, behind blanks and tabs. -/
def refersToMap (line : List Char) : Bool :=
  let text := line.dropWhile fun c ↦ c == ' ' || c == '\t'
  "//# sourceMappingURL=".toList.isPrefixOf text || "//@ sourceMappingURL=".toList.isPrefixOf text

/-- A text with the lines that refer to maps left empty. -/
def dropMapComments (text : List Char) : List Char :=
  unlines ((lines text).map fun line ↦ if refersToMap line then [] else line)

/-! ## Putting a script together -/

/-- Whether a text ends in a line feed. -/
def endsLine (text : List Char) : Bool := text.getLast? == some '\n'

/-- A text that goes on in a new line. -/
def freshLine (text : List Char) : List Char := if endsLine text then text else text ++ ['\n']

/-- The text of a converted script. -/
def Parts.text (p : Parts) : List Char :=
  let main := p.header ++ dropMapComments p.body
  if p.footer.isEmpty then main else freshLine main ++ p.footer

/-- The map of a converted script: that of the step before behind the lines of the header, or the
one that sends every line to itself. -/
def mapOf (p : Parts) (filename code : String) (input : Option SourceMap) : SourceMap :=
  let headerLines := Text.newlines p.header
  (match input with
    | some m => m.shift headerLines
    | none => SourceMap.ofLines filename code headerLines).named filename

/-- The parts of the conversion of a script. -/
def partsOf (config : ModuleConfig) (filename code : String) : Except Failure Parts :=
  let source := code.toList
  let features := Features.ofConfig config
  match Script.parse false source with
  | none => .error (.unreadable filename)
  | some m => return (← draft features source m).parts features source

/-- Converts a script that goes under a name in source maps. -/
def convert (config : ModuleConfig) (filename code : String) (input : Option SourceMap) :
    Except Failure ScriptUnit := do
  let parts ← partsOf config filename code
  let map := mapOf parts filename code input
  let text := parts.text
  let text := if config.sourceMaps.carries then freshLine text ++ map.comment.toList else text
  return ⟨String.ofList text, if config.sourceMaps.handsBack then some map else none⟩

end Downlevel.CommonJs
