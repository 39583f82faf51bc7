import Downlevel.ScopedImport.Fallback
import Downlevel.Script.RuntimeImport

/-!
# Statements for scoped imports

An import of a value of the platform becomes a variable and a guarded call of `require`: what a test
provides for the module wins, and a fallback stands in when nothing does. Only default imports have
a meaning, and named ones of the module of helpers.
-/

namespace Downlevel.ScopedImport

open Script

/-- Why an import of a module of the platform has no meaning. -/
inductive Problem where
  /-- Something else than the default export of a module of a kind is imported. -/
  | notDefault (kind : ScopedImport)
  /-- Something else than a named export of the module of helpers is imported. -/
  | notNamed
  /-- A helper is imported that does not exist. -/
  | unknownHelper (name : String)
  deriving DecidableEq, Repr

/-- The wording of a problem. -/
def Problem.message : Problem → String
  | notDefault kind => kind.root ++ " modules only support default imports"
  | notNamed => "only named imports of refreshApex and getSObjectValue are supported"
  | unknownHelper name => "unknown apex helper \x60" ++ name ++ "\x60"

/-- A variable that holds an export of a module, or a fallback if the module cannot be had. -/
def guardedVariable (localName specifier exported fallback : String) : String :=
  "let " ++ localName ++ ";\ntry \x7b\n  " ++ localName ++ " = require(" ++ stringLiteral specifier
    ++ ")" ++ propertyAccess exported ++ ";\n\x7d catch (e) \x7b\n  " ++ localName ++ " = "
    ++ fallback ++ ";\n\x7d\n"

/-- The statement for what is imported from the module of helpers. -/
def helperStatement (specifier : String) : RuntimeImport → Except Problem String
  | .named imported localName =>
    match helperFallback? imported with
    | some value => .ok (guardedVariable localName specifier imported value)
    | none => .error (.unknownHelper imported)
  | _ => .error .notNamed

/-- The statement for what is imported from a module of a kind. -/
def resourceStatement (kind : ScopedImport) (specifier resource : String) :
    RuntimeImport → Except Problem String
  | .default localName =>
    .ok (guardedVariable localName specifier "default" (kind.fallback resource))
  | _ => .error (.notDefault kind)

/-- The statement for one binding of an import that a kind owns. -/
def statement (kind : ScopedImport) (specifier : String) (b : RuntimeImport) :
    Except Problem String :=
  if kind == apex && specifier == helperModule then helperStatement specifier b
  else resourceStatement kind specifier ((kind.resource? specifier).getD "") b

/-- The statements for an import that a kind owns, in the order of its bindings; the first binding
without a meaning is the problem. -/
def statements (kind : ScopedImport) (specifier : String) (bs : List RuntimeImport) :
    Except Problem String := do
  return String.join (← bs.mapM (kind.statement specifier))

end Downlevel.ScopedImport
