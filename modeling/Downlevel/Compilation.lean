import Downlevel.SourceMap.Json

/-!
# The compiler

Components are compiled by a compiler from outside. It gets the same options for every file, except
for the one that marks scoped styles.
-/

namespace Downlevel

/-- The options of one call of the compiler. -/
structure CompilerOptions where
  name : String
  namespaceName : String
  /-- Whether a source map is asked for. -/
  sourcemap : Bool
  /-- Whether dynamic components need a fixed specifier. -/
  strictSpecifier : Bool
  /-- Whether the file holds scoped styles. -/
  scopedStyles : Bool
  enableLwcSpread : Bool
  enableDynamicComponents : Bool
  deriving DecidableEq, Repr

/-- Whether a path names a scoped style sheet by its last letters. -/
def hasScopedStyleSuffix (path : String) : Bool := ".scoped.css".toList.isSuffixOf path.toList

namespace CompilerOptions

/-- The options for a path; `isScopedStyle` tells which paths name scoped style sheets. -/
def ofPath (isScopedStyle : String → Bool) (path : String) : CompilerOptions where
  name := "test"
  namespaceName := "x"
  sourcemap := true
  strictSpecifier := false
  scopedStyles := isScopedStyle path
  enableLwcSpread := true
  enableDynamicComponents := true

/-- The options as a value. -/
def toJson (o : CompilerOptions) : Json :=
  .object
    [("name", .string o.name),
      ("namespace", .string o.namespaceName),
      ("outputConfig", .object [("sourcemap", .bool o.sourcemap)]),
      ("experimentalDynamicComponent", .object [("strictSpecifier", .bool o.strictSpecifier)]),
      ("scopedStyles", .bool o.scopedStyles),
      ("enableLwcSpread", .bool o.enableLwcSpread),
      ("enableDynamicComponents", .bool o.enableDynamicComponents)]

end CompilerOptions

/-- A script with its source map, if there is one. -/
structure ScriptUnit where
  code : String
  map : Option SourceMap
  deriving DecidableEq, Inhabited, Repr

/-- What a compiler returned: anything but a source map does not count as one. -/
def ScriptUnit.ofCompiler (code : String) (map : Option Json) : ScriptUnit :=
  ⟨code, map.bind SourceMap.ofJson?⟩

end Downlevel
