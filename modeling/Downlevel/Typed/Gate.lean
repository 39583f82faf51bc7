import Downlevel.Passes
import Downlevel.Failure
import Downlevel.Script.Traversal
import Downlevel.Text.Letter
import Downlevel.Text.Span

/-!
# Gates

What a script may contain depends on the passes that are on. The gates are asked in a fixed order:
fields of classes, fields that are only declared, decorators, and last the side of `export` on which
the decorators of exported classes stand.
-/

namespace Downlevel.Typed

open Script

/-- What the passes let through. -/
structure Gates where
  /-- Whether classes may have fields. -/
  classFields : Bool
  /-- Whether types may be written. -/
  types : Bool
  /-- Whether fields may be only declared. -/
  declaredFields : Bool
  /-- Whether the decorators of an exported class stand in front of `export`; nothing if there may
  be no decorators. -/
  decoratorsFirst : Option Bool
  deriving DecidableEq, Inhabited, Repr

namespace Gates

/-- Nothing is let through. -/
def closed : Gates := ⟨false, false, false, none⟩

/-- Opens what a pass lets through. -/
def opened (g : Gates) : Pass → Gates
  | .classProperties => { g with classFields := true }
  | .typescript allow => { g with types := true, declaredFields := allow }
  | .decorators first => { g with decoratorsFirst := some first }
  | _ => g

/-- What several passes let through; the last pass of a kind counts. -/
def ofPasses (passes : List Pass) : Gates := passes.foldl opened closed

end Gates

/-- Whether a node is a field of a class that is not only declared. -/
def isClassField : Node → Bool
  | .field _ m _ _ => !m.isDeclared && !m.isAccessor
  | _ => false

/-- Whether a node is a field that is only declared. -/
def isDeclaredField : Node → Bool
  | .field _ m _ _ => m.isDeclared && !m.isAccessor
  | _ => false

/-- Whether a node is a decorator. -/
def isDecorator : Node → Bool
  | .decorator .. => true
  | _ => false

/-- The span of a decorator. -/
def decoratorSpan? : Node → Option Span
  | .decorator span _ => some span
  | _ => none

/-- The decorators of the class that a declaration declares, also if it exists elsewhere. -/
def classDecorators : Node → List Node
  | .classDeclaration (.classDef ds ..) => ds
  | .ambient (.classDeclaration (.classDef ds ..)) => ds
  | _ => []

/-- The decorators of a class that a statement exports. -/
def exportedDecorators : Node → List Node
  | .item _ _ (.exportDefault _ d) => classDecorators d
  | .item _ _ (.exportDeclaration _ d) => classDecorators d
  | _ => []

/-- Whether `export` follows the last decorator of an exported class, behind nothing but white
space; nothing if there is no decorator. -/
def standsFirst? (source : List Char) (s : Node) : Option Bool := do
  let last ← (exportedDecorators s).getLast?
  let span ← decoratorSpan? last
  let behind := (Text.dropBytes source span.stop).dropWhile Text.isWhiteSpace
  return "export".toList.isPrefixOf behind

/-- All nodes of a script, those within types included. -/
def allNodes (m : Module) : List Node := Node.nodes (m.items ++ m.inTypes)

/-- The first gate that does not let a script through. -/
def Gates.check (g : Gates) (source : List Char) (m : Module) : Except TypedProblem Unit :=
  let nodes := allNodes m
  if !g.classFields && nodes.any isClassField then .error .classFields
  else if g.types && !g.declaredFields && nodes.any isDeclaredField then .error .declaredFields
  else match g.decoratorsFirst with
    | none => if nodes.any isDecorator then .error .decorators else .ok ()
    | some first =>
      if m.items.any fun s ↦ standsFirst? source s == some !first then
        .error (.decoratorPlacement first)
      else .ok ()

end Downlevel.Typed
