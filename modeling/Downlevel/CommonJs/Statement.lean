import Downlevel.Script.RuntimeImport
import Downlevel.Script.Property

/-!
# Statements of a converted module

What takes the place of imports and exports: statements that require modules, at the start of the
converted script, and statements that write exports, at its end.
-/

namespace Downlevel.CommonJs

open Script

/-- The call that loads a module. -/
def requireCall (specifier : String) : String := "require(" ++ stringLiteral specifier ++ ")"

/-! ## Imports -/

/-- A statement that takes the place of an import, or of an export from another module. -/
inductive ImportStatement where
  /-- Loads a module for its effects. -/
  | effect (specifier : String)
  /-- Binds exports other than the default one; each is given with its local name. -/
  | fields (specifier : String) (fields : List (String × String))
  /-- Binds the default export. -/
  | defaultOnly (helper specifier localName : String)
  /-- Refers to a module and binds any of its exports. -/
  | reference (helper specifier name : String) (bindings : List RuntimeImport)
  /-- Binds values of the platform. -/
  | guarded (text : String)
  deriving DecidableEq, Inhabited, Repr

/-- One entry of the pattern that takes exports out of a module. -/
def fieldText : String × String → String
  | (imported, localName) =>
    if imported = localName && Text.isAsciiName imported then localName
    else writtenKey imported ++ ": " ++ localName

/-- The variable that holds what an import binds, given a reference to the module. -/
def bindingText (reference : String) : RuntimeImport → String
  | .default n => n ++ " = " ++ reference ++ ".default"
  | .wholeModule n => n ++ " = " ++ reference
  | .named imported n => n ++ " = " ++ reference ++ propertyAccess imported

/-- The text of a statement, with its line end. -/
def ImportStatement.text : ImportStatement → String
  | effect s => requireCall s ++ ";\n"
  | fields s fs =>
    "const \x7b " ++ ", ".intercalate (fs.map fieldText) ++ " \x7d = " ++ requireCall s ++ ";\n"
  | defaultOnly helper s n =>
    "const " ++ n ++ " = " ++ helper ++ "(" ++ requireCall s ++ ").default;\n"
  | reference helper s n bs =>
    "const "
      ++ ", ".intercalate ((n ++ " = " ++ helper ++ "(" ++ requireCall s ++ ")")
        :: bs.map (bindingText n))
      ++ ";\n"
  | guarded text => text

/-! ## Exports -/

/-- A statement that writes exports. -/
inductive ExportStatement where
  /-- Exports the value of a name. -/
  | value (exported target : String)
  /-- Exports what another module exports under a name, as it changes. -/
  | getter (exported reference imported : String)
  /-- Exports everything that another module exports. -/
  | all (reference : String)
  deriving DecidableEq, Inhabited, Repr

/-- The text of a statement, with its line end. -/
def ExportStatement.text : ExportStatement → String
  | value exported target => "exports" ++ propertyAccess exported ++ " = " ++ target ++ ";\n"
  | getter exported reference imported =>
    "Object.defineProperty(exports, " ++ stringLiteral exported
      ++ ", \x7b enumerable: true, get: function () \x7b return " ++ reference
      ++ propertyAccess imported ++ "; \x7d \x7d);\n"
  | all r =>
    "Object.keys(" ++ r ++ ").forEach(function (key) \x7b if (key === \"default\" || key === "
      ++ "\"__esModule\") return; if (key in exports && exports[key] === " ++ r
      ++ "[key]) return; Object.defineProperty(exports, key, \x7b enumerable: true, get: function "
      ++ "() \x7b return " ++ r ++ "[key]; \x7d \x7d); \x7d);\n"

/-- What is written in front of the value of a default export in its place. -/
def defaultAssignment : String := "exports.default = "

end Downlevel.CommonJs
