import Downlevel.Script.Binding
import Downlevel.Script.Traversal

/-!
# Scopes

Which names a node binds for what stands inside it, and which names a script refers to without
binding them. Only references to values count: what is declared for types alone, or exists
elsewhere, is not looked into.
-/

namespace Downlevel.Script

namespace Node

/-- The names that a statement declares in the scope that it stands in. -/
def scopeNames : Node → List String
  | item _ _ (exportDeclaration _ d) => declaredHere d
  | item _ _ (exportDefault _ d) => d.declaredNames
  | item _ _ s => declaredHere s
  | _ => []
where
  /-- The names that a declaration declares. -/
  declaredHere : Node → List String
    | enumDeclaration n _ => [n]
    | namespaceDeclaration (n :: _) _ => [n]
    | importEquals n _ _ => [n]
    | s => s.declaredNames

/-- Whether a node is a function with a scope of its own. -/
def isScopeOfVar : Node → Bool
  | function .. | arrow .. | staticBlock _ => true
  | _ => false

/-- The names that a node declares for the whole function that it stands in. -/
def varNames : Node → List String
  | variableDeclaration .var ds => boundNamesOfList ds
  | _ => []

/-- The names that nodes declare for the whole function that they stand in, at any depth. -/
def hoistedNames (ns : List Node) : List String := (outermost isScopeOfVar ns).flatMap varNames

/-- The names that a node binds for what stands inside it. -/
def boundInside : Node → List String
  | function name _ _ ps body =>
    name.toList ++ boundNamesOfList ps ++ hoistedNames body.toList
  | arrow _ ps body => boundNamesOfList ps ++ hoistedNames [body]
  | functionBody items _ | block items | ambientModule items => items.flatMap scopeNames
  | staticBlock items => items.flatMap scopeNames ++ hoistedNames items
  | switchStatement _ cases =>
    cases.flatMap fun
      | switchCase _ items => items.flatMap scopeNames
      | _ => []
  | classDef _ name _ _ => name.toList
  | catchClause p _ => boundNamesOfList p.toList
  | forStatement (some d) _ _ _ | forIn d _ _ | forOf _ d _ _ => d.declaredNames
  | namespaceDeclaration ns items => ns ++ items.flatMap scopeNames
  | enumDeclaration n members =>
    n :: members.filterMap fun
      | enumMember m _ => some m
      | _ => none
  | _ => []

/-- Whether nothing inside a node refers to a value. -/
def isInert : Node → Bool
  | ambient _ | ambientModule _ | function _ _ _ _ none => true
  | importEquals .. => true
  | _ => false

/-- The names that a node itself refers to. -/
def referredNames : Node → List String
  | identifier n => [n]
  | shorthand n _ => [n]
  | exportList ⟨specifiers, none, _, false⟩ =>
    (specifiers.filter (!·.isType)).map fun s ↦ s.source.text
  | _ => []

/-- The names that nodes refer to and that are not bound within them. -/
def freeNames (ns : List Node) : List String :=
  let enter (bound : List String) (n : Node) : Option (List String) :=
    if n.isInert then none else some (n.boundInside ++ bound)
  (visitList enter [] ns).flatMap fun (bound, n) ↦ n.referredNames.filter (!bound.contains ·)

end Node

/-! ## References of a module -/

/-- What an import of a name refers to, if the name is among those referred to. -/
def reachedBy (names : List String) : Node → List String
  | .item _ _ (.importEquals n false e) => if names.contains n then Node.freeNames [e] else []
  | .item _ _ (.exportDeclaration _ (.importEquals _ false e)) => Node.freeNames [e]
  | _ => []

/-- Adds what is referred to by imports of names that are referred to. -/
def closeReferences (items : List Node) : Nat → List String → List String
  | 0, names => names
  | n + 1, names => closeReferences items n (names ++ items.flatMap (reachedBy names))

/-- Whether a statement gives another name to something. -/
def isAlias : Node → Bool
  | .item _ _ (.importEquals ..) => true
  | _ => false

/-- The names that statements refer to as values. An import of a name refers to something only if
its own name is referred to, so references are followed once for each of these. -/
def references (items : List Node) : List String :=
  closeReferences items ((items.filter isAlias).length + 1) (Node.freeNames items)

end Downlevel.Script
