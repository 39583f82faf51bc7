import Downlevel.Script.Name
import Downlevel.Typed.Build
import Downlevel.Typed.Constant

/-!
# Erasing types

What a typed script is when it runs: declarations of types vanish, fields that parameters declare
are filled, and enumerations and namespaces become functions that are called at once. An exported
variable of a namespace that may change has no such form, and the erasure fails.

A statement may become none or several. The walk through the statements of a scope remembers which
names have been declared and which values the members of enumerations have.
-/

namespace Downlevel.Typed

open Script

/-- What is known where something is erased. -/
structure Surroundings where
  /-- The enumerations that are complete, the last one first. -/
  enums : List (String × Members)
  /-- The names that stand for members of the enumeration around, with the name of that. -/
  aliases : List (String × String)
  /-- The names that earlier statements of the scope declare. -/
  earlier : List String
  /-- Whether this is the outermost scope. -/
  isTop : Bool
  /-- Whether fields without values stay. -/
  keepsBareFields : Bool
  /-- The names that are referred to as values. -/
  references : List String

/-- Erases within a script: the names in use are known, and the work may fail. -/
abbrev Eraser (α : Type) := StateT (List String) Option α

instance {α : Type} : Inhabited (Eraser α) := ⟨fun _ ↦ none⟩

namespace Surroundings

/-- What is known inside a node that binds names. -/
def without (env : Surroundings) (bound : List String) : Surroundings :=
  { env with aliases := env.aliases.filter fun a ↦ !bound.contains a.1 }

/-- What is known inside a scope. -/
def inner (env : Surroundings) (bound : List String) : Surroundings :=
  { env.without bound with isTop := false, earlier := [] }

/-- What a name is when the script runs. -/
def refer (env : Surroundings) (n : String) : Option Node :=
  (env.aliases.lookup n).map fun e ↦ access e n

/-- What is known behind a statement. -/
def behind (env : Surroundings) (names : List String) : Surroundings :=
  { env with earlier := names ++ env.earlier }

end Surroundings

/-- Whether a statement vanishes because it only matters to types. -/
def isTypeStatement : Node → Bool
  | .typeDeclaration _ | .ambient _ | .ambientModule _ | .indexSignature => true
  | .functionDeclaration (.function _ _ _ _ none) => true
  | _ => false

mutual

/-- Whether a statement only matters to types, with everything in it. -/
def isTypeOnly : Node → Bool
  | .item _ _ s => isTypeOnly s
  | .exportDeclaration _ s => isTypeOnly s
  | .namespaceDeclaration _ items => areTypeOnly items
  | .importEquals _ isType _ => isType
  | s => isTypeStatement s

/-- Whether statements only matter to types. -/
def areTypeOnly : List Node → Bool
  | [] => true
  | s :: ss => isTypeOnly s && areTypeOnly ss

end

/-- A name for the parameter of a function that stands for a namespace. -/
def parameterName (n : String) : Eraser String := do
  let core := n.toList.dropWhile (· == '_')
  let stem := (core.reverse.dropWhile Char.isDigit).reverse
  let fresh := unusedName (← get) ("_" ++ String.ofList stem)
  modify (fresh :: ·)
  return fresh

/-- The statements of namespaces within each other, given by their names and those of their
parameters. `body` gives what is inside the last one. Only the outermost one may be declared already
or exported, and it takes the comments. -/
def nest (env : Surroundings) (comments : List Comment) (exported : Bool)
    (body : String → Eraser (List Node)) (parent : Option String) (isOuter : Bool) :
    List (String × String) → Eraser (List Node)
  | [] => return []
  | (n, p) :: rest => do
    let content ← if rest.isEmpty then body p
      else nest env comments exported body (some p) false rest
    return namespaceStatements (if isOuter then comments else []) n p parent
      (!isOuter || !env.earlier.contains n) (exported && isOuter) content

/-- The statements of a namespace with a dotted name. `body` gives what is inside, for the name of
its parameter. -/
def enclose (env : Surroundings) (comments : List Comment) (exported : Bool)
    (parent : Option String) (names : List String) (items : List Node)
    (body : String → Surroundings → Eraser (List Node)) : Eraser (List Node) := do
  if areTypeOnly items then return []
  else
    let parameters ← names.mapM parameterName
    let inside := { env.inner (names ++ items.flatMap Node.scopeNames) with
      references := references items }
    nest env comments exported (body · inside) parent true (names.zip parameters)

/-- The value that a member of an enumeration has if the one before it has a known number, or no
known value. -/
def nextValue (enumName : String) (previous : Option Float) (last : Option String) :
    Option Float × Node :=
  match previous, last with
  | some v, _ => (some (v + 1), Constant.numberNode (v + 1))
  | none, some n =>
    (none, .binary .add (.number 1) (.index (.identifier enumName) (stringNode n) false))
  | none, none => (some 0, .number 0)

/-- The statement that declares an enumeration. -/
def enumStatement (env : Surroundings) (span : Span) (comments : List Comment) (exported : Bool)
    (n : String) (members statements : List Node) : Node :=
  let isDeclared := env.earlier.contains n
  let isNew := (exported || !env.isTop) && !isDeclared
  let value := enumValue n isNew (!members.any calls) statements
  let declaration :=
    if isDeclared then .expressionStatement (assign (.identifier n) value)
    else
      let kind := if exported || !env.isTop then VariableKind.letVariable else .var
      singleVariable kind n (some value)
  .item span comments
    (if exported && !isDeclared then .exportDeclaration nowhere declaration else declaration)

/-- Whether a class element or statement vanishes. -/
def vanishes (env : Surroundings) : Node → Bool
  | .field ds m key initial =>
    m.isDeclared || m.isAbstract ||
      (!env.keepsBareFields && ds.isEmpty && initial.isNone && !m.isAccessor
        && !(key matches .privateName _))
  | .method _ _ isAbstract _ _ (.function _ _ _ _ body) => isAbstract || body.isNone
  | s => isTypeStatement s

mutual

/-- Erases types from a node that stays a single node. -/
def erase (env : Surroundings) (n : Node) : Eraser Node :=
  match n with
  | .identifier s => return (env.refer s).getD n
  | .shorthand s a => do
    let a ← eraseOption env a
    return match env.refer s with
      | some e => .property (.propertyName s) e
      | none => .shorthand s a
  | .computed a => return .computed (← erase env a)
  | .template chunks as => return .template chunks (← eraseList env as)
  | .taggedTemplate a b => return .taggedTemplate (← erase env a) (← erase env b)
  | .array as => return .array (← eraseList env as)
  | .spread a => return .spread (← erase env a)
  | .object as => return .object (← eraseList env as)
  | .property a b => return .property (← erase env a) (← erase env b)
  | .function name isAsync isGenerator ps body => do
    let env := env.inner n.boundInside
    let parameters ← eraseList env ps
    return .function name isAsync isGenerator parameters (fillFields ps (← eraseOption env body))
  | .arrow isAsync ps body => do
    let env := env.inner n.boundInside
    return .arrow isAsync (← eraseList env ps) (← erase env body)
  | .parameter ds _ a => return .parameter (← eraseList env ds) false (← erase env a)
  | .functionBody items closing =>
    return .functionBody (← eraseItems (env.inner n.boundInside) items) closing
  | .classDef ds name heritage members => do
    let env := env.without n.boundInside
    let ds ← eraseList env ds
    let heritage ← eraseOption env heritage
    return .classDef ds name heritage (← eraseItems (env.inner []) members)
  | .decorator span a => return .decorator span (← erase env a)
  | .method ds isStatic isAbstract kind a b =>
    return .method (← eraseList env ds) isStatic isAbstract kind (← erase env a) (← erase env b)
  | .field ds modifiers a b =>
    return .field (← eraseList env ds) modifiers (← erase env a) (← eraseOption env b)
  | .staticBlock items => return .staticBlock (← eraseItems (env.inner n.boundInside) items)
  | .unary op a => return .unary op (← erase env a)
  | .update op isPrefixed a => return .update op isPrefixed (← erase env a)
  | .binary op a b => return .binary op (← erase env a) (← erase env b)
  | .privateIn s a => return .privateIn s (← erase env a)
  | .assignment op a b => return .assignment op (← erase env a) (← erase env b)
  | .conditional a b c => return .conditional (← erase env a) (← erase env b) (← erase env c)
  | .sequence as => return .sequence (← eraseList env as)
  | .parenthesized a => return .parenthesized (← erase env a)
  | .member a s isOptional => return .member (← erase env a) s isOptional
  | .privateMember a s isOptional => return .privateMember (← erase env a) s isOptional
  | .index a b isOptional => return .index (← erase env a) (← erase env b) isOptional
  | .call a bs isOptional isPure =>
    return .call (← erase env a) (← eraseList env bs) isOptional isPure
  | .construct a bs isPure => return .construct (← erase env a) (← eraseList env bs) isPure
  | .chain a => return .chain (← erase env a)
  | .yieldExpression isDelegate a => return .yieldExpression isDelegate (← eraseOption env a)
  | .awaitExpression a => return .awaitExpression (← erase env a)
  | .importCall span argument a b =>
    return .importCall span argument (← erase env a) (← eraseOption env b)
  | .item span comments a => return .item span comments (← erase env a)
  | .expressionStatement a => return .expressionStatement (← erase env a)
  | .variableDeclaration kind as => return .variableDeclaration kind (← eraseList env as)
  | .declarator a b => return .declarator (← erase env a) (← eraseOption env b)
  | .functionDeclaration a => return .functionDeclaration (← erase env a)
  | .classDeclaration a => return .classDeclaration (← erase env a)
  | .block items => return .block (← eraseItems (env.inner n.boundInside) items)
  | .ifStatement a b c =>
    return .ifStatement (← erase env a) (← erase env b) (← eraseOption env c)
  | .forStatement a b c d => do
    let env := env.without n.boundInside
    return .forStatement (← eraseOption env a) (← eraseOption env b) (← eraseOption env c)
      (← erase env d)
  | .forIn a b c => do
    let env := env.without n.boundInside
    return .forIn (← erase env a) (← erase env b) (← erase env c)
  | .forOf isAwait a b c => do
    let env := env.without n.boundInside
    return .forOf isAwait (← erase env a) (← erase env b) (← erase env c)
  | .whileStatement a b => return .whileStatement (← erase env a) (← erase env b)
  | .doWhile a b => return .doWhile (← erase env a) (← erase env b)
  | .withStatement a b => return .withStatement (← erase env a) (← erase env b)
  | .returnStatement a => return .returnStatement (← eraseOption env a)
  | .throwStatement a => return .throwStatement (← erase env a)
  | .labeled label a => return .labeled label (← erase env a)
  | .tryStatement a b c =>
    return .tryStatement (← erase env a) (← eraseOption env b) (← eraseOption env c)
  | .catchClause a b => do
    let env := env.without n.boundInside
    return .catchClause (← eraseOption env a) (← erase env b)
  | .switchStatement a cases =>
    return .switchStatement (← erase env a) (← eraseList (env.inner n.boundInside) cases)
  | .switchCase a items => return .switchCase (← eraseOption env a) (← eraseItems env items)
  | .exportDeclaration span a => return .exportDeclaration span (← erase env a)
  | .exportDefault span a => return .exportDefault span (← erase env a)
  | .exportAssignment a =>
    return .expressionStatement (assign (access "module" "exports") (← erase env a))
  | _ => return n

/-- Erases types from nodes that stay single nodes. -/
def eraseList (env : Surroundings) : List Node → Eraser (List Node)
  | [] => return []
  | n :: ns => return (← erase env n) :: (← eraseList env ns)

/-- Erases types from a node that may be missing. -/
def eraseOption (env : Surroundings) : Option Node → Eraser (Option Node)
  | none => return none
  | some n => return some (← erase env n)

/-- Erases types from the statements of a scope or the elements of a class. -/
def eraseItems (env : Surroundings) : List Node → Eraser (List Node)
  | [] => return []
  | n :: ns => do
    let (statements, env) ← eraseItem env n
    return statements ++ (← eraseItems env ns)

/-- Erases types from a statement or class element; also gives what is known behind it. -/
def eraseItem (env : Surroundings) (n : Node) : Eraser (List Node × Surroundings) := do
  let after := env.behind n.scopeNames
  match n with
  | .item span comments body =>
    match body with
    | .enumDeclaration e members =>
      let (statements, values) ← eraseMembers env e ((env.enums.lookup e).getD []) (some (-1)) none
        members
      return ([enumStatement env span comments false e members statements],
        { after with enums := (e, values) :: env.enums })
    | .namespaceDeclaration names items =>
      let statements ← enclose env comments false none names items fun p env ↦
        eraseNamespace env p items
      return (statements, if statements.isEmpty then env else after)
    | .importEquals s isType e =>
      if isType || !env.references.contains s then return ([], after)
      else return ([.item span comments (aliasDeclaration s (← erase env e))], after)
    | .exportDeclaration inner declaration =>
      match declaration with
      | .enumDeclaration e members =>
        let (statements, values) ← eraseMembers env e ((env.enums.lookup e).getD []) (some (-1))
          none members
        return ([enumStatement env span comments true e members statements],
          { after with enums := (e, values) :: env.enums })
      | .namespaceDeclaration names items =>
        let statements ← enclose env comments true none names items fun p env ↦
          eraseNamespace env p items
        return (statements, if statements.isEmpty then env else after)
      | .importEquals s isType e =>
        if isType then return ([], after)
        else
          let declaration := aliasDeclaration s (← erase env e)
          return ([.item span comments (.exportDeclaration inner declaration)], after)
      | d =>
        if isTypeStatement d then return ([], after)
        else return ([.item span comments (.exportDeclaration inner (← erase env d))], after)
    | body =>
      if vanishes env body then return ([], after)
      else return ([.item span comments (← erase env body)], after)
  | n => return ([n], after)

/-- The statements for the members of an enumeration, and their values. -/
def eraseMembers (env : Surroundings) (e : String) (values : Members) (previous : Option Float)
    (last : Option String) : List Node → Eraser (List Node × Members)
  | [] => return ([], values)
  | m :: ms => do
    match m with
    | .enumMember n (some initial) =>
      match Constant.ofNode env.enums values initial with
      | some value =>
        let number := match value with
          | .number x => some x
          | .string _ => none
        let (rest, values) ← eraseMembers env e ((n, some value) :: values) number (some n) ms
        return (memberStatement e n value.toNode :: rest, values)
      | none =>
        let values := (n, none) :: values
        let initial ← erase { env with aliases := values.map fun v ↦ (v.1, e) } initial
        let (rest, values) ← eraseMembers env e values none (some n) ms
        return (memberStatement e n initial :: rest, values)
    | .enumMember n none =>
      let (number, node) := nextValue e previous last
      let values := (n, number.map Constant.number) :: values
      let (rest, values) ← eraseMembers env e values number (some n) ms
      return (memberStatement e n node :: rest, values)
    | _ => eraseMembers env e values previous last ms

/-- The statements of a namespace, for the name of its parameter. What is exported becomes known
outside; variables that may change cannot. -/
def eraseNamespace (env : Surroundings) (p : String) : List Node → Eraser (List Node)
  | [] => return []
  | n :: ns => do
    let (statements, env) ← match n with
      | .item span comments (.exportDeclaration _ declaration) => do
        let after := env.behind n.scopeNames
        match declaration with
        | .variableDeclaration kind ds =>
          if kind == .constant then
            pure (publishedVariables span comments p (← eraseList env ds), after)
          else failure
        | .enumDeclaration e members =>
          let (statements, values) ← eraseMembers env e ((env.enums.lookup e).getD []) (some (-1))
            none members
          pure ([enumStatement env span comments false e members statements,
            statement (.expressionStatement (publish p e))],
            { after with enums := (e, values) :: env.enums })
        | .namespaceDeclaration names items =>
          let statements ← enclose env comments false (some p) names items fun p env ↦
            eraseNamespace env p items
          pure (statements, if statements.isEmpty then env else after)
        | .importEquals s isType e =>
          if isType then pure ([], after)
          else
            let declaration := aliasDeclaration s (← erase env e)
            pure ([.item span comments declaration,
              statement (.expressionStatement (publish p s))], after)
        | d =>
          if isTypeStatement d then pure ([], after)
          else
            pure (.item span comments (← erase env d)
              :: (Node.declaredNames d).map (statement <| .expressionStatement <| publish p ·),
              after)
      | n => eraseItem env n
    return statements ++ (← eraseNamespace env p ns)

end

end Downlevel.Typed
