import Downlevel.Script.Name
import Downlevel.Text.Letter

/-!
# Generated names

The names that a conversion adds to a script: two helper functions, of which each is named when it
is first asked for, and references to modules. No generated name is in use in the script.
-/

namespace Downlevel.CommonJs

open Script

/-- The names in use, generated ones included, and the helpers among them. -/
structure Names where
  used : List String
  /-- The function that gives a default export to modules that have none. -/
  defaultHelper : Option String
  /-- The function that gives all exports of a module as one object. -/
  wholeHelper : Option String
  deriving Inhabited

namespace Names

/-- The names of a script. -/
def ofScript (m : Module) : Names := ⟨namesIn m.items, none, none⟩

/-- A name that starts like a base and is not in use; from then on it is. -/
def fresh (names : Names) (base : String) : String × Names :=
  let n := unusedName names.used base
  (n, { names with used := n :: names.used })

/-- The helper for default exports. -/
def forDefault (names : Names) : String × Names :=
  match names.defaultHelper with
  | some n => (n, names)
  | none =>
    let (n, names) := names.fresh "_interopRequireDefault"
    (n, { names with defaultHelper := some n })

/-- The helper for all exports. -/
def forWhole (names : Names) : String × Names :=
  match names.wholeHelper with
  | some n => (n, names)
  | none =>
    let (n, names) := names.fresh "_interopRequireWildcard"
    (n, { names with wholeHelper := some n })

/-- What a reference to a module is named after: the letters, digits, underscores and dollar signs
between the last slash of its name and the first point behind that. -/
def stem (specifier : String) : String :=
  let tail := (specifier.toList.reverse.takeWhile (· != '/')).reverse
  String.ofList ((tail.takeWhile (· != '.')).filter Text.isAsciiNamePart)

/-- A reference to a module. -/
def forModule (names : Names) (specifier : String) : String × Names :=
  names.fresh ("_" ++ stem specifier)

end Names

/-- The definition of the helper for default exports. -/
def defaultHelperText (name : String) : String :=
  "function " ++ name
    ++ "(e) \x7b return e && e.__esModule ? e : \x7b default: e \x7d; \x7d\n"

/-- The definition of the helper for all exports. -/
def wholeHelperText (name : String) : String :=
  "function " ++ name
    ++ "(e) \x7b if (e && e.__esModule) return e; var n = \x7b default: e \x7d; if (e !== null && "
    ++ "(typeof e === \"object\" || typeof e === \"function\")) \x7b for (var k in e) \x7b "
    ++ "if (k !== \"default\" && Object.prototype.hasOwnProperty.call(e, k)) n[k] = e[k]; \x7d "
    ++ "\x7d return n; \x7d\n"

end Downlevel.CommonJs
