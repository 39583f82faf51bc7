import Downlevel.Script.RuntimeImport
import Downlevel.Typed.Erasure

/-!
# Imports and exports of typed modules

An import that is never used as a value vanishes, and so does an export of a type. A script that
loses all its imports and exports in this way stays a module: an empty list of exports is put at its
end.
-/

namespace Downlevel.Typed

open Script

/-! ## Names of types -/

/-- The names that a statement declares for types, or for what exists elsewhere. -/
def typeNames : Node → List String
  | .item _ _ s => typeNames s
  | .exportDeclaration _ s => typeNames s
  | .exportDefault _ s => typeNames s
  | .typeDeclaration n => [n]
  | .ambient s =>
    (match s with
      | .typeDeclaration n => [n]
      | s => Node.scopeNames.declaredHere s)
  | .importDeclaration d =>
    (d.specifiers.getD []).filterMap fun s ↦
      if d.isType || (RuntimeImport.ofSpecifier s).isNone then some s.localName else none
  | s => if isTypeOnly s then Node.scopeNames.declaredHere s else []

/-- The names that a statement declares for values. -/
def valueNames (s : Node) : List String := if isTypeOnly s then [] else s.scopeNames

/-- The names of a module that are only declared for types. -/
def namesOfTypes (items : List Node) : List String :=
  let values := items.flatMap valueNames
  (items.flatMap typeNames).filter (!values.contains ·)

/-! ## What remains -/

/-- What becomes of a statement of a module. -/
inductive Fate where
  /-- It is neither an import nor an export. -/
  | plain (s : Node)
  /-- It stays an import or export. -/
  | kept (s : Node)
  /-- It was an import or export and is gone. -/
  | dropped

/-- The statement that is left. -/
def Fate.statement? : Fate → Option Node
  | plain s | kept s => some s
  | dropped => none

/-- What is known of the names of a module. -/
structure ModuleNames where
  /-- The names that are referred to as values. -/
  references : List String
  /-- The names that are declared for values in the module itself. -/
  values : List String
  /-- The names that are only declared for types. -/
  types : List String

/-- The names of a module. -/
def ModuleNames.ofItems (items : List Node) : ModuleNames :=
  ⟨Script.references items, items.flatMap valueNames, namesOfTypes items⟩

/-- Whether an import specifier binds something that is used as a value. -/
def ModuleNames.keepsImport (names : ModuleNames) (s : ImportSpecifier) : Bool :=
  (RuntimeImport.ofSpecifier s).isSome && names.references.contains s.localName
    && !names.values.contains s.localName

/-- Whether an export specifier exports a value. -/
def ModuleNames.keepsExport (names : ModuleNames) (isOwn : Bool) (s : ExportSpecifier) : Bool :=
  !s.isType && !(isOwn && names.types.contains s.source.text)

/-- What becomes of an import. -/
def ModuleNames.importFate (names : ModuleNames) (item : Node → Node) (d : ImportDeclaration) :
    Fate :=
  if d.isType then .dropped
  else match d.specifiers with
    | none => .kept (item (.importDeclaration d))
    | some [] => .kept (item (.importDeclaration { d with specifiers := none }))
    | some specifiers =>
      match specifiers.filter names.keepsImport with
      | [] => .dropped
      | used => .kept (item (.importDeclaration { d with specifiers := some used }))

/-- What becomes of a list of exports. -/
def ModuleNames.exportFate (names : ModuleNames) (item : Node → Node) (l : ExportList) : Fate :=
  if l.isType then .dropped
  else if l.specifiers.isEmpty then .kept (item (.exportList l))
  else match l.specifiers.filter (names.keepsExport l.source.isNone) with
    | [] => .dropped
    | specifiers => .kept (item (.exportList { l with specifiers }))

/-- What becomes of a statement. -/
def ModuleNames.fate (names : ModuleNames) (s : Node) : Fate :=
  match s with
  | .item span comments body =>
    let item := Node.item span comments
    match body with
    | .importDeclaration d => names.importFate item d
    | .exportList l => names.exportFate item l
    | .exportAll a => if a.isType then .dropped else .kept s
    | .exportDefault _ (.identifier n) => if names.types.contains n then .dropped else .kept s
    | .exportDefault _ d => if isTypeStatement d then .dropped else .kept s
    | .exportDeclaration _ (.namespaceDeclaration _ items) =>
      if areTypeOnly items then .plain s else .kept s
    | .exportDeclaration _ d => if isTypeStatement d then .dropped else .kept s
    | _ => .plain s
  | s => .plain s

/-- Whether a statement stays an import or export. -/
def Fate.isKept : Fate → Bool
  | kept _ => true
  | _ => false

/-- Whether an import or export is gone. -/
def Fate.isDropped : Fate → Bool
  | dropped => true
  | _ => false

/-- The statements of a module without imports and exports of types. -/
def keptItems (names : ModuleNames) (items : List Node) : List Node :=
  let fates := items.map names.fate
  let rest := fates.filterMap Fate.statement?
  if fates.any Fate.isDropped && !fates.any Fate.isKept then
    rest ++ [statement (.exportList ⟨[], none, none, false⟩)]
  else rest

/-- A module without types. -/
def eraseModule (keepsBareFields : Bool) (m : Module) : Option Module := do
  let names := ModuleNames.ofItems m.items
  let env : Surroundings := ⟨[], [], [], true, keepsBareFields, names.references⟩
  let (items, _) ← (eraseItems env (keptItems names m.items)).run (namesIn m.items)
  return { m with items, inTypes := [] }

end Downlevel.Typed
