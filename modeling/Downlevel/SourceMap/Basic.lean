/-!
# Source maps

A source map says for the places of a generated script where they come from. Lines of the generated
script are separated by semicolons in `mappings`, so lines put in front of a script are semicolons
put in front of its mappings.
-/

namespace Downlevel

/-- A source map of the third revision of the format, its mappings encoded. -/
structure SourceMap where
  version : UInt32
  /-- The generated script. -/
  file : Option String
  /-- What all sources have in front of their names. -/
  sourceRoot : Option String
  sources : List String
  /-- The texts of the sources, as far as they are known. -/
  sourcesContent : Option (List (Option String))
  names : List String
  mappings : String
  deriving DecidableEq, Inhabited, Repr

namespace SourceMap

/-- The mapping of the start of a line to the start of the first line of the first source. -/
def firstLine : String := "AAAA"

/-- The mapping of the start of a line to the start of the line behind the one mapped before. -/
def nextLine : String := "AACA"

/-- The mappings of `n` lines, each to the start of its own line. -/
def lineMappings : Nat → List String
  | 0 => []
  | n + 1 => firstLine :: List.replicate n nextLine

/-- The number of lines of a text. -/
def lineCount (text : String) : Nat := text.toList.count '\n' + 1

/-- Semicolons for a number of lines without mappings. -/
def blankLines (n : Nat) : String := String.ofList (List.replicate n ';')

/-- The map that sends every line behind a number of lines at the start to itself in a source. -/
def ofLines (filename source : String) (headerLines : Nat) : SourceMap where
  version := 3
  file := some filename
  sourceRoot := none
  sources := [filename]
  sourcesContent := some [some source]
  names := []
  mappings := blankLines headerLines ++ ";".intercalate (lineMappings (lineCount source))

/-- The map for a script behind a number of new lines. -/
def shift (m : SourceMap) (lines : Nat) : SourceMap :=
  { m with mappings := blankLines lines ++ m.mappings }

/-- The map with another name of the generated script. -/
def named (m : SourceMap) (name : String) : SourceMap := { m with file := some name }

end SourceMap

end Downlevel
