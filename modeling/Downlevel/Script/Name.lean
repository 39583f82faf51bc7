import Downlevel.Script.Traversal

/-!
# Names in use

The names that a script binds or refers to anywhere, and names that it does not use.
-/

namespace Downlevel.Script

/-- The names that a node itself binds or refers to, without those inside it. -/
def Node.ownNames : Node → List String
  | .identifier n => [n]
  | .shorthand n _ => [n]
  | .function (some n) .. => [n]
  | .classDef _ (some n) .. => [n]
  | .importDeclaration d => (d.specifiers.getD []).map ImportSpecifier.localName
  | .exportList ⟨specifiers, none, _, _⟩ => specifiers.map fun s ↦ s.source.text
  | .typeDeclaration n => [n]
  | .enumDeclaration n _ => [n]
  | .namespaceDeclaration ns _ => ns
  | .importEquals n _ _ => [n]
  | _ => []

/-- The names that a script binds or refers to anywhere. -/
def namesIn (items : List Node) : List String := (Node.nodes items).flatMap Node.ownNames

/-! ## Fresh names -/

/-- The candidate with number `n`: the base itself, and from 2 on the base with the number. -/
def candidate (base : String) (n : Nat) : String := if n < 2 then base else base ++ toString n

/-- The first candidate from number `n` on that is not in use. The fuel bounds the number of
candidates tried. -/
def firstFree (used : List String) (base : String) : Nat → Nat → String
  | 0, n => candidate base n
  | fuel + 1, n =>
    if used.contains (candidate base n) then firstFree used base fuel (n + 1) else candidate base n

/-- The base, or the base with the least number from 2 on that makes a name not in use: among one
more candidate than there are names in use, one is free. -/
def unusedName (used : List String) (base : String) : String :=
  firstFree used base (used.length + 1) 1

end Downlevel.Script
