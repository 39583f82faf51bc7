import Downlevel.Compilation
import Downlevel.Script.Grammar.Module
import Downlevel.Script.Printer
import Downlevel.SourceMap.DataUrl
import Downlevel.Typed.Gate
import Downlevel.Typed.Module

/-!
# Typed scripts made plain

The way of a typed script to the compiler: it is read, asked at the gates, freed of its types and
printed anew.
-/

namespace Downlevel.Typed

open Script

/-- The tree of a script that passes the gates, without types. -/
def strip (gates : Gates) (source : List Char) : Except TypedProblem Module :=
  match parse gates.types source with
  | none => .error .malformed
  | some m =>
    match gates.check source m with
    | .error problem => .error problem
    | .ok () =>
      if gates.types then
        match eraseModule gates.declaredFields m with
        | some m => .ok m
        | none => .error .malformed
      else .ok m

/-- The map that names the script that a text was printed from. -/
def originMap (path source : String) : SourceMap where
  version := 3
  file := none
  sourceRoot := none
  sources := [path]
  sourcesContent := some [some source]
  names := []
  mappings := ""

/-- A text that ends in a line feed. -/
def endLine (text : String) : String :=
  if text.toList.getLast? == some '\n' then text else text ++ "\n"

/-- The script at a path without its types. If it carries a map, that goes behind its code. -/
def toPlain (config : TypedConfig) (path source : String) :
    Except Failure ScriptUnit :=
  match strip (Gates.ofPasses config.passes) source.toList with
  | .error problem => .error (.typed path problem)
  | .ok m =>
    if config.sourceMaps.carries then .ok ⟨endLine m.print, some (originMap path source)⟩
    else .ok ⟨m.print, none⟩

end Downlevel.Typed
