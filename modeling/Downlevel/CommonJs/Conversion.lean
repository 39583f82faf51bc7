import Downlevel.CommonJs.Draft

/-!
# Converting a module

The conversion goes through the statements of a script in their order. Dynamic imports are found
wherever they stand, except inside one another. Calls that replace modules by test doubles move to
the start of the script, above everything that loads a module.
-/

namespace Downlevel.CommonJs

open Script

/-! ## Dynamic imports -/

/-- The span of a dynamic import and that of its argument. -/
def dynamicImport? : Node → Option (Span × Span)
  | .importCall span argument .. => some (span, argument)
  | _ => none

/-- The dynamic imports of a script that do not stand inside others. -/
def dynamicImports (m : Module) : List (Span × Span) :=
  (Node.outermost (fun n ↦ (dynamicImport? n).isSome) m.items).filterMap dynamicImport?

/-- The text that takes the place of a dynamic import. -/
def promiseText (helper argument : String) : String :=
  "Promise.resolve().then(() => " ++ helper ++ "(require(" ++ argument ++ ")))"

/-- The edit that converts a dynamic import. -/
def promiseEdit (source : List Char) (helper : String) (found : Span × Span) : Edit :=
  ⟨found.1, promiseText helper (String.ofList (Text.slice source found.2))⟩

/-- The edits that convert the dynamic imports of a script, and the names with that of the helper
they need. -/
def promiseEdits (features : Features) (source : List Char) (m : Module) (names : Names) :
    List Edit × Names :=
  match if features.dynamicImports then dynamicImports m else [] with
  | [] => ([], names)
  | found =>
    let (helper, names) := names.forWhole
    (found.map (promiseEdit source helper), names)

/-! ## Hoisting -/

/-- The calls that have to come before every module that is loaded. -/
def hoistedMethods : List String :=
  ["mock", "unmock", "enableAutomock", "disableAutomock", "deepUnmock"]

/-- Whether an expression is a call that moves to the start. -/
def isHoisted : Node → Bool
  | .call (.member (.identifier "jest") method _) .. => hoistedMethods.contains method
  | _ => false

/-- Whether one span lies in another. -/
def within (inner outer : Span) : Bool := outer.start ≤ inner.start && inner.stop ≤ outer.stop

/-- Moves a statement to the start, with the edits that are made inside it. -/
def Draft.hoist (source : List Char) (promises : List Edit) (d : Draft) (span : Span) : Draft :=
  let nested := promises.filter fun e ↦ within e.span span
  let text := String.ofList (Edit.apply span.start nested (Text.slice source span))
  { d with hoisted := d.hoisted ++ [text] }.cut source span

/-! ## Statements -/

/-- Converts one statement. -/
def Draft.convert (features : Features) (source : List Char) (promises : List Edit) (d : Draft) :
    Node → Except Failure Draft
  | .item span _ (.importDeclaration i) => d.importDeclaration features source span i
  | .item span _ (.exportDefault inner value) =>
    .ok (if features.modules then d.exportDefault source span inner value else d)
  | .item span _ (.exportDeclaration inner declaration) =>
    .ok (if features.modules then d.exportDeclaration source span inner declaration else d)
  | .item span _ (.exportList l) =>
    .ok (if features.modules then d.exportList source span l else d)
  | .item span _ (.exportAll a) =>
    .ok (if features.modules then d.exportAll source span a else d)
  | .item span _ (.expressionStatement e) =>
    .ok (if features.hoists && isHoisted e then d.hoist source promises span else d)
  | _ => .ok d

/-- The draft of a converted script. -/
def draft (features : Features) (source : List Char) (m : Module) :
    Except Failure Draft := do
  let (promises, names) := promiseEdits features source m (Names.ofScript m)
  let d ← m.items.foldlM (Draft.convert features source promises) { (default : Draft) with names }
  return { d with edits := d.edits ++ promises }

/-! ## The three parts of a converted script -/

/-- A converted script in three parts. -/
structure Parts where
  /-- What comes before the body. -/
  header : List Char
  /-- The script with its edits. -/
  body : List Char
  /-- What comes behind the body. -/
  footer : List Char
  deriving Inhabited

/-- The lines in front of everything else. -/
def preamble (features : Features) (d : Draft) : String :=
  (if features.modules then "\"use strict\";\n" else "")
    ++ (if features.modules && d.hasExports then
      "Object.defineProperty(exports, \"__esModule\", \x7b value: true \x7d);\n" else "")
    ++ (d.names.defaultHelper.map defaultHelperText).getD ""
    ++ (d.names.wholeHelper.map wholeHelperText).getD ""

/-- The header of a converted script. -/
def header (features : Features) (d : Draft) : String :=
  preamble features d ++ String.join (d.hoisted.map (· ++ "\n"))
    ++ String.join (d.imports.map ImportStatement.text)

/-- Carries out a draft. -/
def Draft.parts (features : Features) (source : List Char) (d : Draft) : Parts where
  header := (header features d).toList
  body := Edit.apply 0 d.edits source
  footer := (String.join (d.exports.map ExportStatement.text)).toList

end Downlevel.CommonJs
