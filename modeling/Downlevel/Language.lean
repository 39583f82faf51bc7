/-!
# Languages

The language that a path names, and the name under which its compiled script goes in source maps.
Both depend on the extension: what follows the last point of the last component of the path, unless
that point comes first.
-/

namespace Downlevel

/-! ## Extensions -/

namespace FilePath

/-- The parts of a text between slashes. -/
def components : List Char → List (List Char)
  | [] => [[]]
  | c :: cs =>
    match components cs with
    | part :: parts => if c = '/' then [] :: part :: parts else (c :: part) :: parts
    | [] => [[c]]

/-- The last component of a path; empty components and points at the end do not count. -/
def lastComponent (path : String) : List Char :=
  ((components path.toList).reverse.find? fun part ↦ part != [] && part != ['.']).getD []

/-- What follows the last point of a text, and what comes before it. -/
def splitLast : List Char → Option (List Char × List Char)
  | [] => none
  | c :: cs =>
    match splitLast cs with
    | some (stem, tail) => some (c :: stem, tail)
    | none => if c = '.' then some ([], cs) else none

/-- The extension of a path. -/
def extension? (path : String) : Option String :=
  let last := lastComponent path
  if last = ['.', '.'] then none
  else match splitLast last with
    | some (_ :: _, tail) => some (String.ofList tail)
    | _ => none

end FilePath

/-! ## Languages -/

/-- The languages of files. -/
inductive Language where
  /-- A script without types. -/
  | plainScript
  /-- A script with types. -/
  | typedScript
  | markup
  | style
  | other
  deriving DecidableEq, Inhabited, Repr

namespace Language

/-- The language of files with an extension. -/
def ofExtension : Option String → Language
  | some "js" | some "mjs" | some "cjs" => plainScript
  | some "ts" => typedScript
  | some "html" => markup
  | some "css" => style
  | _ => other

/-- The language of the file at a path. -/
def ofPath (path : String) : Language := ofExtension (FilePath.extension? path)

/-- Whether types have to be removed from files of a language. -/
def isTyped (l : Language) : Bool := l == typedScript

end Language

/-- The name of the compiled script of a path in source maps: only a `.js` file keeps its own. -/
def compiledName (path : String) : String :=
  if FilePath.extension? path = some "js" then path else path ++ ".compiled"

end Downlevel
