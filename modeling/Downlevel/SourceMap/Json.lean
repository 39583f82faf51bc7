import Downlevel.SourceMap.Basic
import Downlevel.Json.Basic

/-!
# Source maps as JSON

A map is written as an object with its fields in a fixed order, those that are missing left out. A
value is read as a map if its version marker counts as true and every other field that it has is of
the right kind.
-/

namespace Downlevel.SourceMap

/-! ## Writing -/

/-- A list of strings as a value. -/
def stringsToJson (ss : List String) : Json := .array (ss.map .string)

/-- A field that may be missing. -/
def optionalField {α : Type} (name : String) (write : α → Json) : Option α → List (String × Json)
  | some a => [(name, write a)]
  | none => []

/-- The text of a source, or null if it is not known. -/
def contentToJson : Option String → Json
  | some s => .string s
  | none => .null

/-- A map as a value. -/
def toJson (m : SourceMap) : Json :=
  .object <|
    [("version", .number (.natural m.version.toNat))]
      ++ optionalField "file" .string m.file
      ++ optionalField "sourceRoot" .string m.sourceRoot
      ++ [("sources", stringsToJson m.sources)]
      ++ optionalField "sourcesContent" (fun cs ↦ .array (cs.map contentToJson)) m.sourcesContent
      ++ [("names", stringsToJson m.names), ("mappings", .string m.mappings)]

/-! ## Reading -/

/-- Whether a value counts as a version marker: numbers other than zero, strings that are not empty,
truth, arrays and objects do. -/
def isMarker : Json → Bool
  | .number n => !n.isZero
  | .string s => s != ""
  | .bool b => b
  | .array _ | .object _ => true
  | .null => false

/-- The value of decimal digits, of which there has to be at least one. -/
def digitsValue? (cs : List Char) : Option Nat :=
  if cs.isEmpty || !cs.all Char.isDigit then none
  else some (cs.foldl (fun n c ↦ n * 10 + (c.toNat - 48)) 0)

/-- The version that a string spells: digits, with a plus sign in front or not, below 2^32. -/
def spelledVersion? (s : String) : Option UInt32 := do
  let n ← match s.toList with
    | '+' :: cs => digitsValue? cs
    | cs => digitsValue? cs
  if n < UInt32.size then some (UInt32.ofNat n) else none

/-- The version that a marker stands for: a natural number counts modulo 2^32, and anything that
does not name a version stands for the third. -/
def versionOf : Json → UInt32
  | .number (.natural n) => UInt32.ofNat n
  | .string s => (spelledVersion? s).getD 3
  | _ => 3

/-- The strings of an array of strings. -/
def strings? (v : Json) : Option (List String) := do (← v.array?).mapM Json.string?

/-- The text of a source, or null if it is not known. -/
def content? : Json → Option (Option String)
  | .null => some none
  | .string s => some (some s)
  | _ => none

/-- The texts of sources. -/
def contents? (v : Json) : Option (List (Option String)) := do (← v.array?).mapM content?

/-- A field that may be missing or null. -/
def nullable {α : Type} (read : Json → Option α) : Option Json → Option (Option α)
  | none => some none
  | some .null => some none
  | some v => (read v).map some

/-- A field that has a default when it is missing. -/
def defaulted {α : Type} (read : Json → Option α) (value : α) : Option Json → Option α
  | none => some value
  | some v => read v

/-- The map that a value is. -/
def ofJson? (v : Json) : Option SourceMap := do
  let marker ← v.get? "version"
  if isMarker marker then
    return {
      version := versionOf marker
      file := ← nullable Json.string? (v.get? "file")
      sourceRoot := ← nullable Json.string? (v.get? "sourceRoot")
      sources := ← defaulted strings? [] (v.get? "sources")
      sourcesContent := ← nullable contents? (v.get? "sourcesContent")
      names := ← defaulted strings? [] (v.get? "names")
      mappings := ← defaulted Json.string? "" (v.get? "mappings") }
  else none

end Downlevel.SourceMap
