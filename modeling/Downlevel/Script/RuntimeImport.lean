import Downlevel.Script.Tree

/-!
# Import bindings

What an import declaration binds when the script runs: its specifiers without those of types.
-/

namespace Downlevel.Script

/-- A name bound by an import. -/
inductive RuntimeImport where
  /-- The default export. -/
  | default (localName : String)
  /-- The export of a name. -/
  | named (imported localName : String)
  /-- All exports, as one object. -/
  | wholeModule (localName : String)
  deriving DecidableEq, Inhabited, Repr

namespace RuntimeImport

/-- The name that is bound. -/
def localName : RuntimeImport → String
  | default n | wholeModule n | named _ n => n

/-- What a specifier binds, unless it is a type. -/
def ofSpecifier : ImportSpecifier → Option RuntimeImport
  | .defaultExport n => some (.default n)
  | .wholeModule n => some (.wholeModule n)
  | .named imported n isType => if isType then none else some (.named imported.text n)

end RuntimeImport

/-- What a declaration binds. -/
def ImportDeclaration.bindings (d : ImportDeclaration) : List RuntimeImport :=
  (d.specifiers.getD []).filterMap RuntimeImport.ofSpecifier

end Downlevel.Script
