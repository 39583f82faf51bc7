import Downlevel.Script.Grammar.Statement
import Downlevel.Script.Binding

/-!
# Imports, exports and whole scripts

Imports and exports are read wherever a statement may stand. The last part ties the rules together
and reads whole scripts.
-/

namespace Downlevel.Script.Grammar

variable (r : Rules)

/-! ## Imports -/

/-- A name that a module exports: any word or string. -/
def exportName : Reader ExportName := do
  let t ← peek
  match t.kind with
  | .word n _ =>
    skip
    return .name n
  | .string points _ =>
    skip
    return .string ⟨t.span, points⟩
  | _ => fail

/-- An attribute of an import. -/
def importAttribute : Reader ImportAttribute := do
  let key ← exportName
  mark ":"
  return ⟨key, ← stringLiteral⟩

/-- The attributes behind the name of a module, if there is a list of them. -/
def importAttributes : Reader (Option (List ImportAttribute)) := do
  let t ← peek
  if t.isWord "with" || (t.isWord "assert" && !t.afterNewline) then
    skip
    mark openBrace
    return some (← listUpTo closeBrace importAttribute).1
  else return none

/-- One name of a list of imports or exports: the name in the module, its other name, and whether it
is a type. -/
def listedName : Reader (ExportName × Option ExportName × Bool) := do
  let plain : Reader (ExportName × Option ExportName) := do
    let n ← exportName
    let other ← if ← takeWord "as" then pure (some (← exportName)) else pure none
    guardThat ((← isAtMark ",") || (← isAtMark closeBrace))
    return (n, other)
  match ← attempt plain with
  | some (n, other) => return (n, other, false)
  | none =>
    typedOnly
    word "type"
    let (n, other) ← plain
    return (n, other, true)

/-- The name that is bound by a name of an import list. -/
def boundName : ExportName → Option String
  | .name n => if isReserved n then none else some n
  | .string _ => none

/-- A name of an import list. -/
def importSpecifier : Reader ImportSpecifier := do
  let (n, other, isType) ← listedName
  match boundName (other.getD n) with
  | some localName =>
    guardThat (!isOperatorHere (← read) localName)
    return .named n localName isType
  | none => fail

/-- What an import binds, up to the name of the module. -/
def importClause : Reader (List ImportSpecifier) := do
  let t ← peek
  let first ← if t.name?.isSome then pure [.defaultExport (← name)] else pure []
  let hasMore ← if first.isEmpty then pure true else takeMark ","
  if hasMore then
    if ← takeMark "*" then
      word "as"
      return first ++ [.wholeModule (← name)]
    else
      mark openBrace
      return first ++ (← listUpTo closeBrace importSpecifier).1
  else return first

/-- The name of a module with its attributes. -/
def moduleSource : Reader (StringLiteral × Option (List ImportAttribute)) := do
  let source ← stringLiteral
  let attributes ← importAttributes
  semicolon
  return (source, attributes)

/-- An import declaration that binds something. -/
def importFrom (isType : Bool) : Reader Node := do
  let specifiers ← importClause
  word "from"
  let (source, attributes) ← moduleSource
  return .importDeclaration ⟨some specifiers, source, attributes, isType⟩

/-- `import name = reference` behind the first word. -/
def importEquals (isType : Bool) : Reader Node := do
  let n ← name
  mark "="
  let reference ← if (← isAtWord "require") && (← peekSecond).isMark "(" then do
      skip
      mark "("
      let source ← stringLiteral
      mark ")"
      pure (.call (.identifier "require") [.string source] false false)
    else do
      let first ← name
      repeatFrom (Node.identifier first) fun e ↦ do
        if ← takeMark "." then return some (.member e (← anyWord) false) else return none
  semicolon
  return .importEquals n isType reference

/-- An import declaration. -/
def importDeclaration : Reader Node := do
  word "import"
  match (← peek).kind with
  | .string .. =>
    let (source, attributes) ← moduleSource
    return .importDeclaration ⟨none, source, attributes, false⟩
  | _ =>
    let ofTypes (p : Bool → Reader Node) : Reader Node := do
      typedOnly
      word "type"
      p true
    let rules : List (Reader Node) :=
      [importFrom false, ofTypes importFrom, (do typedOnly; importEquals false),
        ofTypes importEquals]
    for rule in rules do
      match ← attempt rule with
      | some node => return node
      | none => pure ()
    fail

/-! ## Exports -/

/-- A name of an export list. -/
def exportSpecifier : Reader ExportSpecifier := do
  let (n, other, isType) ← listedName
  return ⟨n, other.getD n, isType⟩

/-- Whether a name can be that of a binding of this module. -/
def isBindingName : ExportName → Bool
  | .name n => !isReserved n
  | .string _ => false

/-- A list of exports. -/
def exportList (isType : Bool) : Reader Node := do
  mark openBrace
  let (specifiers, _) ← listUpTo closeBrace exportSpecifier
  if ← takeWord "from" then
    let (source, attributes) ← moduleSource
    return .exportList ⟨specifiers, some source, attributes, isType⟩
  else
    guardThat (specifiers.all fun s ↦ isBindingName s.source)
    semicolon
    return .exportList ⟨specifiers, none, none, isType⟩

/-- An export of everything that a module exports. -/
def exportAll (isType : Bool) : Reader Node := do
  mark "*"
  let exported ← if ← takeWord "as" then some <$> exportName else pure none
  word "from"
  let (source, attributes) ← moduleSource
  return .exportAll ⟨exported, source, attributes, isType⟩

/-- A node with the span of what a rule read for it. -/
def spanned (rule : Reader Node) : Reader (Span × Node) := do
  let start ← position
  let node ← rule
  return (← spanFrom start, node)

/-- What a default export exports: a function, class or interface declaration, or an expression. -/
def defaultValue (ds : List Node) : Reader Node := do
  let t ← peek
  let following ← peekSecond
  let isFunction := t.isWord "function"
    || (t.isWord "async" && following.isWord "function" && !following.afterNewline)
  let isAbstract ← do
    pure ((← isTyped) && t.isWord "abstract" && following.isWord "class" && !following.afterNewline)
  if isAbstract then skip
  if t.isMark "@" || t.isWord "class" || isAbstract then
    let own ← decorators r
    guardThat (ds.isEmpty || own.isEmpty)
    if ← isTyped then let _ ← takeWord "abstract"
    return .classDeclaration (← classRest r (ds ++ own))
  else
    guardThat ds.isEmpty
    if isFunction then return .functionDeclaration (← functionFromKeyword r true)
    else if t.isWord "interface" && following.name?.isSome && !following.afterNewline then
      interfaceDeclaration r
    else inside r.assignment

/-- Whether a default export is a declaration, which needs no semicolon. -/
def isDeclaration : Node → Bool
  | .functionDeclaration _ | .classDeclaration _ | .typeDeclaration _ => true
  | _ => false

/-- A default export behind its first word. -/
def exportDefault (ds : List Node) : Reader Node := do
  word "default"
  let (inner, node) ← spanned (defaultValue r ds)
  if !isDeclaration node then semicolon
  return .exportDefault inner node

/-- An exported declaration. -/
def exportedDeclaration (ds : List Node) : Reader Node := do
  let (inner, node) ← spanned do
    let own ← decorators r
    guardThat (ds.isEmpty || own.isEmpty)
    decoratedDeclaration r (ds ++ own)
  return .exportDeclaration inner node

/-- An export of types. -/
def exportOfTypes : Reader Node := do
  typedOnly
  word "type"
  if ← isAtMark openBrace then exportList true else exportAll true

/-- An export as which a script without modules finds this one. -/
def exportAsNamespace : Reader Node := do
  typedOnly
  word "as"
  word "namespace"
  let n ← name
  semicolon
  return .typeDeclaration n

/-- An export with the decorators in front of it. -/
def exportStatement (ds : List Node) : Reader Node := do
  word "export"
  let t ← peek
  let following ← peekSecond
  if t.isWord "default" then exportDefault r ds
  else if t.isMark openBrace then exportList false
  else if t.isMark "*" then exportAll false
  else if t.isMark "=" then
    typedOnly
    mark "="
    let e ← inside r.expression
    semicolon
    return .exportAssignment e
  else if t.isWord "import" then
    typedOnly
    skip
    let isType := (← isAtWord "type") && !(← peekSecond).isMark "="
    if isType then skip
    let (inner, node) ← spanned (importEquals isType)
    return .exportDeclaration inner node
  else if t.isWord "type" && (following.isMark openBrace || following.isMark "*") then exportOfTypes
  else if t.isWord "as" && following.isWord "namespace" then exportAsNamespace
  else exportedDeclaration r ds

/-! ## All statements -/

/-- A statement. -/
def statement (isSingle : Bool) : Reader Node := do
  let t ← peek
  let following ← peekSecond
  if t.isMark "@" then
    let decorated : Reader Node := do
      let ds ← decorators r
      if ← isAtWord "export" then
        let keyword ← peek
        let node ← exportStatement r ds
        return .item (← spanFrom keyword.span.start) keyword.comments node
      else
        let node ← decoratedDeclaration r ds
        return .item (← spanFrom t.span.start) t.comments node
    decorated
  else if t.isWord "export" then itemOf (exportStatement r [])
  else if t.isWord "import" && !following.isMark "(" && !following.isMark "." then
    itemOf importDeclaration
  else itemOf (plainStatement r isSingle)

/-! ## Tying the rules together -/

/-- The rules, given those that they enter after they have read a token. -/
def Rules.next (r : Rules) : Rules where
  type := Grammar.type r
  typeOperand := Grammar.typeOperand r
  assignment := Grammar.assignment r
  expression := Grammar.expression r
  unary := Grammar.unary r
  operand := Grammar.operand r
  leftHandSide := Grammar.leftHandSide r
  constructed := Grammar.constructed r
  binding := Grammar.binding r
  target := Grammar.target r
  statement := Grammar.statement r

/-- The rules for scripts whose nesting has at most a given depth. -/
def Rules.nested : Nat → Rules
  | 0 => default
  | n + 1 => (Rules.nested n).next

/-- The names under which a statement exports something, as far as they are written in it. -/
def exportedNames : Node → List String
  | .item _ _ (.exportDefault ..) => ["default"]
  | .item _ _ (.exportAll all) => (all.exported.map ExportName.text).toList
  | .item _ _ (.exportList list) => list.specifiers.map fun s ↦ s.exported.text
  | .item _ _ (.exportDeclaration _ d) => d.declaredNames
  | _ => []

/-- Whether the members of a list differ from each other. -/
def areDistinct : List String → Bool
  | [] => true
  | s :: ss => !ss.contains s && areDistinct ss

/-- A whole script behind its interpreter line. -/
def moduleBody (r : Rules) (interpreter : Option String) : Reader Module := do
  let items ← statements r Token.isFinish
  let c ← place
  guardThat (c.token.isFinish && !c.hasDefault)
  guardThat ((← isTyped) || areDistinct (items.flatMap exportedNames))
  return ⟨interpreter, items, c.token.comments, c.inTypes.reverse⟩

/-- What is known at the start of a script. -/
def Context.ofScript (typed : Bool) (size : Nat) : Context where
  typed
  size
  allowsIn := true
  inFunction := false
  isAsync := true
  isGenerator := false
  isAmbient := false
  allowsArrowType := true
  allowsConditionalType := true
  allowsIndex := true

end Grammar

/-- The tree of a script, if it is one. Types may be written if it is `typed`; otherwise no two
exports have the same name. -/
def parse (typed : Bool) (source : List Char) : Option Module :=
  let (interpreter, pos, cs) := Scanner.interpreter source
  let (token, rest) := Scanner.next false true pos cs
  let size := source.length + 2
  let reader := Grammar.moduleBody (Grammar.Rules.nested size) interpreter
  (reader (Grammar.Context.ofScript typed size) ⟨token, rest, pos, false, []⟩).map (·.1)

end Downlevel.Script
