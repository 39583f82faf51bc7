import Downlevel.CommonJs.Names
import Downlevel.CommonJs.Statement
import Downlevel.Passes
import Downlevel.Failure
import Downlevel.Script.Binding
import Downlevel.Text.Edit

/-!
# Drafts of a converted module

Imports and exports are cut out of a script, and what takes their place is collected in a draft:
statements for the start and the end of the converted script, and edits of its body. A cut leaves
the line feeds behind, so that the body keeps its lines.
-/

namespace Downlevel.CommonJs

open Script

/-- What is to be done to a script. -/
structure Features where
  /-- Whether imports and exports are converted. -/
  modules : Bool
  /-- Whether dynamic imports are converted; they need `require`. -/
  dynamicImports : Bool
  /-- Whether calls that replace modules by test doubles are moved to the start. -/
  hoists : Bool
  /-- The scoped imports that are guarded. -/
  guarded : List ScopedImport

/-- What a configuration asks for. -/
def Features.ofConfig (config : ModuleConfig) : Features where
  modules := config.runs .modulesCommonJs
  dynamicImports := config.runs .modulesCommonJs && config.runs .dynamicImport
  hoists := config.uses .jest
  guarded := config.guardedKinds

/-- What has been collected so far. -/
structure Draft where
  /-- Edits of the body. -/
  edits : List Edit
  /-- Calls that go to the start of the script, with the dynamic imports in them converted. -/
  hoisted : List String
  imports : List ImportStatement
  exports : List ExportStatement
  names : Names
  /-- Whether the script exports anything. -/
  hasExports : Bool
  deriving Inhabited

namespace Draft

/-- Adds an edit. -/
def edit (d : Draft) (span : Span) (text : String) : Draft :=
  { d with edits := d.edits ++ [⟨span, text⟩] }

/-- Cuts a span out, except for its line feeds. -/
def cut (source : List Char) (d : Draft) (span : Span) : Draft :=
  d.edit span (String.ofList (List.replicate (Text.newlines (Text.slice source span)) '\n'))

/-- Adds a statement for the start of the script. -/
def addImport (d : Draft) (s : ImportStatement) : Draft := { d with imports := d.imports ++ [s] }

/-- Adds statements for the end of the script. -/
def addExports (d : Draft) (ss : List ExportStatement) : Draft :=
  { d with exports := d.exports ++ ss }

/-- Notes that the script exports something. -/
def marked (d : Draft) : Draft := { d with hasExports := true }

end Draft

/-! ## Imports -/

/-- The field that a binding takes out of a module, unless it needs a helper. -/
def plainField? : RuntimeImport → Option (String × String)
  | .named imported n => if imported = "default" then none else some (imported, n)
  | _ => none

/-- Adds the statement that takes the place of an import with given bindings. -/
def Draft.require (d : Draft) (specifier : String) (bs : List RuntimeImport) : Draft :=
  match bs, bs.mapM plainField? with
  | [], _ => d.addImport (.effect specifier)
  | _, some fields => d.addImport (.fields specifier fields)
  | [.default n], none =>
    let (helper, names) := d.names.forDefault
    { d with names }.addImport (.defaultOnly helper specifier n)
  | _, none =>
    let (helper, names) := d.names.forWhole
    let (reference, names) := names.forModule specifier
    { d with names }.addImport (.reference helper specifier reference bs)

/-- Whether an import only names types. -/
def namesOnlyTypes (i : ImportDeclaration) : Bool :=
  !(i.specifiers.getD []).isEmpty && i.bindings.isEmpty

/-- Converts an import declaration. A scoped import is guarded by the first kind that owns it. -/
def Draft.importDeclaration (features : Features) (source : List Char) (d : Draft) (span : Span)
    (i : ImportDeclaration) : Except Failure Draft :=
  let specifier := i.source.value
  if i.isType then .ok (d.cut source span)
  else match ScopedImport.owner? features.guarded specifier with
    | some kind =>
      match kind.statements specifier i.bindings with
      | .ok text => .ok ((d.addImport (.guarded text)).cut source span)
      | .error problem => .error (.scopedImport specifier problem)
    | none =>
      if !features.modules then .ok d
      else if namesOnlyTypes i then .ok (d.cut source span)
      else .ok ((d.require specifier i.bindings).cut source span)

/-! ## Exports -/

/-- Adds a reference to a module from which something is exported. -/
def Draft.reexport (d : Draft) (specifier : String) : String × Draft :=
  let (helper, names) := d.names.forWhole
  let (reference, names) := names.forModule specifier
  (reference, { d with names }.addImport (.reference helper specifier reference []))

/-- Converts a list of exports. -/
def Draft.exportList (source : List Char) (d : Draft) (span : Span) (l : ExportList) : Draft :=
  let specifiers := l.specifiers.filter (!·.isType)
  if l.isType then d.cut source span
  else match l.source with
    | some m =>
      let (reference, d) := d.marked.reexport m.value
      (d.addExports (specifiers.map fun s ↦
        .getter s.exported.text reference s.source.text)).cut source span
    | none =>
      (d.marked.addExports (specifiers.map fun s ↦
        .value s.exported.text s.source.text)).cut source span

/-- Converts an export of everything that a module exports. -/
def Draft.exportAll (source : List Char) (d : Draft) (span : Span) (a : ExportAll) : Draft :=
  if a.isType then d.cut source span
  else
    let (reference, d) := d.marked.reexport a.source.value
    let statement : ExportStatement := match a.exported with
      | some name => .value name.text reference
      | none => .all reference
    (d.addExports [statement]).cut source span

/-- Whether a declaration exists when the script runs. -/
def isRuntimeDeclaration : Node → Bool
  | .variableDeclaration .. | .functionDeclaration _ | .classDeclaration _ => true
  | _ => false

/-- Converts an exported declaration: it stays in its place without the word in front. -/
def Draft.exportDeclaration (source : List Char) (d : Draft) (span inner : Span)
    (declaration : Node) : Draft :=
  if isRuntimeDeclaration declaration then
    (d.marked.edit ⟨span.start, inner.start⟩ "").addExports
      (declaration.declaredNames.map fun n ↦ .value n n)
  else d.marked.cut source span

/-- Converts a default export: a named declaration stays as it is, and any other value is assigned
in its place. A declaration needs no semicolon, but an assignment does. -/
def Draft.exportDefault (source : List Char) (d : Draft) (span inner : Span) (value : Node) :
    Draft :=
  let front : Span := ⟨span.start, inner.start⟩
  let back : Span := ⟨inner.stop, inner.stop⟩
  match value with
  | .typeDeclaration _ => d.marked.cut source span
  | .functionDeclaration _ | .classDeclaration _ =>
    match value.declaredNames with
    | n :: _ => (d.marked.edit front "").addExports [.value "default" n]
    | [] => (d.marked.edit front defaultAssignment).edit back ";"
  | _ => d.marked.edit front defaultAssignment

end Downlevel.CommonJs
