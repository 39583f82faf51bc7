import Downlevel.Script.Tree

/-!
# Bound names

The names that a pattern binds and that a declaration declares, in the order in which they are
written.
-/

namespace Downlevel.Script.Node

mutual

/-- The names that a pattern binds. -/
def boundNames : Node → List String
  | identifier n => [n]
  | array es => boundNamesOfList es
  | object ps => boundNamesOfList ps
  | spread p => boundNames p
  | property _ p => boundNames p
  | shorthand n _ => [n]
  | assignment _ p _ => boundNames p
  | parameter _ _ p => boundNames p
  | declarator p _ => boundNames p
  | _ => []

/-- The names that patterns bind. -/
def boundNamesOfList : List Node → List String
  | [] => []
  | p :: ps => boundNames p ++ boundNamesOfList ps

end

/-- The names that a declaration declares. -/
def declaredNames : Node → List String
  | variableDeclaration _ ds => boundNamesOfList ds
  | functionDeclaration (function name ..) => name.toList
  | classDeclaration (classDef _ name ..) => name.toList
  | _ => []

end Downlevel.Script.Node
