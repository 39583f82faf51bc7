import Downlevel.Script.Grammar.Expression

/-!
# Statements

Statements other than imports and exports, and the declarations that only matter to types.
-/

namespace Downlevel.Script.Grammar

variable (r : Rules)

/-! ## Variables -/

/-- The first part of a variable declaration: how variables are declared. -/
def variableKind : Reader VariableKind := do
  if ← takeWord "var" then return .var
  else if ← takeWord "let" then return .letVariable
  else if ← takeWord "const" then return .constant
  else if ← takeWord "using" then return .disposable
  else
    word "await"
    word "using"
    return .asyncDisposable

/-- Whether a token starts what a declaration binds. -/
def startsBinding (t : Token) : Bool := t.name?.isSome || t.isMark "[" || t.isMark openBrace

/-- Whether a declaration of variables is next. -/
def isAtVariables : Reader Bool := do
  let t ← peek
  let following ← peekSecond
  if t.isWord "var" then return true
  else if t.isWord "const" then return !following.isWord "enum"
  else if t.isWord "let" then return startsBinding following
  else if t.isWord "using" then
    return following.name?.isSome && !following.afterNewline && !following.isWord "of"
  else if t.isWord "await" && following.isWord "using" && !following.afterNewline then
    let third : Reader Token := fun _ c ↦ some (c.advance.advance.token, c)
    let t ← third
    return t.name?.isSome && !t.afterNewline
  else return false

/-- A variable with its value. -/
def declarator : Reader Node := do
  let pattern ← r.binding
  if ← isTyped then let _ ← takeMark "!"
  optionalAnnotation r
  let initial ← if ← takeMark "=" then pure (some (← r.assignment)) else pure none
  return .declarator pattern initial

/-- Whether a variable has a value if it needs one. -/
def hasValue (kind : VariableKind) : Node → Bool
  | .declarator pattern none =>
    !isPatternForm pattern && (kind == .var || kind == .letVariable)
  | _ => true

/-- A declaration of variables without its end. -/
def variableList : Reader (VariableKind × List Node) := do
  let kind ← variableKind
  let ds ← commaSeparated (declarator r)
  return (kind, ds)

/-- A declaration of variables as a statement. -/
def variableStatement (isSingle : Bool) : Reader Node := do
  let (kind, ds) ← variableList r
  let isAmbient ← ask (·.isAmbient)
  guardThat (isAmbient || ds.all (hasValue kind))
  guardThat (!isSingle || kind == .var)
  semicolon
  return .variableDeclaration kind ds

/-! ## Loops -/

/-- What follows the variable of a loop over the keys or values of an object. -/
def iterationRest (isAwait : Bool) (target : Node) : Reader Node := do
  if ← takeWord "of" then
    let object ← inside r.assignment
    mark ")"
    return .forOf isAwait target object (← r.statement true)
  else
    guardThat (!isAwait)
    word "in"
    let object ← inside r.expression
    mark ")"
    return .forIn target object (← r.statement true)

/-- What follows the first part of a loop with a test and an update. -/
def countingRest (initial : Option Node) : Reader Node := do
  mark ";"
  let test ← if ← isAtMark ";" then pure none else some <$> inside r.expression
  mark ";"
  let update ← if ← isAtMark ")" then pure none else some <$> inside r.expression
  mark ")"
  return .forStatement initial test update (← r.statement true)

/-- Whether a loop over keys or values follows. -/
def isAtIteration : Reader Bool := return (← isAtWord "of") || (← isAtWord "in")

/-- Whether an expression is the name `async`, which a loop over values may not assign to. -/
def namesAsync : Node → Bool
  | .identifier n => n == "async"
  | _ => false

/-- A loop with a head in parentheses. -/
def forStatement : Reader Node := do
  word "for"
  let isAwait ← takeWord "await"
  guardThat (!isAwait || (← ask (·.isAsync)))
  mark "("
  let headless {α : Type} : Reader α → Reader α := within ({ · with allowsIn := false })
  if ← isAtMark ";" then
    guardThat !isAwait
    countingRest r none
  else if ← isAtVariables then
    let (kind, ds) ← headless (variableList r)
    if ← isAtIteration then iterationRest r isAwait (.variableDeclaration kind ds)
    else
      guardThat (!isAwait && ds.all (hasValue kind))
      countingRest r (some (.variableDeclaration kind ds))
  else
    let start ← place
    let e ← headless r.expression
    guardThat (isAwait || !namesAsync e || !(← isAtWord "of"))
    -- What the loop assigns to was read as a value; the form of a pattern is read again as one.
    if ← isAtIteration then iterationRest r isAwait (← asTarget r start e)
    else
      guardThat !isAwait
      countingRest r (some e)

/-- An expression in parentheses that belongs to a statement. -/
def condition : Reader Node := do
  mark "("
  let e ← inside r.expression
  mark ")"
  return e

/-- A loop with its test in front. -/
def whileStatement : Reader Node := do
  word "while"
  let test ← condition r
  return .whileStatement test (← r.statement true)

/-- A loop with its test behind. -/
def doWhile : Reader Node := do
  word "do"
  let body ← r.statement true
  word "while"
  let test ← condition r
  let _ ← takeMark ";"
  return .doWhile body test

/-! ## Branches -/

/-- A choice between two statements. -/
def ifStatement : Reader Node := do
  word "if"
  let test ← condition r
  let consequent ← r.statement true
  let alternate ← if ← takeWord "else" then some <$> r.statement true else pure none
  return .ifStatement test consequent alternate

/-- A case of a switch. -/
def switchCase : Reader Node := do
  let test ← if ← takeWord "default" then pure none
    else do
      word "case"
      some <$> inside r.expression
  mark ":"
  let ends (t : Token) : Bool := t.isMark closeBrace || t.isWord "case" || t.isWord "default"
  return .switchCase test (← inside (readUntil ends (r.statement false)))

/-- A choice between cases. -/
def switchStatement : Reader Node := do
  word "switch"
  let discriminant ← condition r
  mark openBrace
  let cases ← readUntil (·.isMark closeBrace) (switchCase r)
  mark closeBrace
  guardThat ((cases.filter fun | .switchCase none _ => true | _ => false).length ≤ 1)
  return .switchStatement discriminant cases

/-- What catches an exception. -/
def catchClause : Reader Node := do
  word "catch"
  let parameter ← if ← takeMark "(" then do
      let pattern ← r.binding
      optionalAnnotation r
      mark ")"
      pure (some pattern)
    else pure none
  return .catchClause parameter (.block (← blockItems r))

/-- Statements whose exceptions are caught. -/
def tryStatement : Reader Node := do
  word "try"
  let body := .block (← blockItems r)
  let handler ← if ← isAtWord "catch" then some <$> catchClause r else pure none
  let finalizer ← if ← takeWord "finally" then pure (some (.block (← blockItems r))) else pure none
  guardThat (handler.isSome || finalizer.isSome)
  return .tryStatement body handler finalizer

/-! ## Simple statements -/

/-- An expression behind a word, if it is there. -/
def optionalArgument : Reader (Option Node) := do
  if mayEndBefore (← peek) then return none else return some (← inside r.expression)

/-- The label behind a word, if it is there. -/
def optionalLabel : Reader (Option String) := do
  if mayEndBefore (← peek) then return none else return some (← name)

/-- The end of a function's work. -/
def returnStatement : Reader Node := do
  guardThat (← ask (·.inFunction))
  word "return"
  let e ← optionalArgument r
  semicolon
  return .returnStatement e

/-- An exception. -/
def throwStatement : Reader Node := do
  word "throw"
  guardThat (!(← peek).afterNewline)
  let e ← inside r.expression
  semicolon
  return .throwStatement e

/-- An expression as a statement, or a label with its statement. -/
def expressionStatement : Reader Node := do
  let t ← peek
  if t.name?.isSome && (← peekSecond).isMark ":" then
    let label ← name
    mark ":"
    return .labeled label (← r.statement true)
  else
    let e ← inside r.expression
    semicolon
    return .expressionStatement e

/-! ## Functions and classes -/

/-- A function as a declaration. -/
def functionDeclaration : Reader Node := do
  let f ← functionFromKeyword r true
  match f with
  | .function (some _) .. => return .functionDeclaration f
  | _ => fail

/-- Whether a function is asynchronous or a generator. -/
def isSpecial : Node → Bool
  | .functionDeclaration (.function _ isAsync isGenerator _ _) => isAsync || isGenerator
  | _ => false

/-- A class as a declaration. -/
def classDeclaration (ds : List Node) : Reader Node := do
  let c ← classRest r ds
  match c with
  | .classDef _ (some _) .. => return .classDeclaration c
  | _ => fail

/-! ## Declarations that matter to types -/

/-- An interface. -/
def interfaceDeclaration : Reader Node := do
  word "interface"
  let n ← name
  within ({ · with typed := true }) do
    typeParameters r
    if ← takeWord "extends" then
      let _ ← commaSeparated r.type
    typeMembers r
  return .typeDeclaration n

/-- A name for a type. -/
def typeAlias : Reader Node := do
  word "type"
  let n ← name
  typeParameters r
  mark "="
  if (← isAtWord "intrinsic") && mayEndBefore (← peekSecond) then skip else freely r.type
  semicolon
  return .typeDeclaration n

/-- The name of a member of an enumeration. -/
def enumMemberName : Reader String := do
  match ← memberKey r with
  | .propertyName n => return n
  | .string s | .computed (.string s) => return s.value
  | .computed (.template [chunk] []) =>
    match chunk.codePoints with
    | some points => return ofCodePoints points
    | none => fail
  | _ => fail

/-- A member of an enumeration. -/
def enumMember : Reader Node := do
  let n ← enumMemberName r
  let initial ← if ← takeMark "=" then pure (some (← inside r.assignment)) else pure none
  return .enumMember n initial

/-- An enumeration. -/
def enumDeclaration : Reader Node := do
  let _ ← takeWord "const"
  word "enum"
  let n ← name
  mark openBrace
  let (members, _) ← listUpTo closeBrace (enumMember r)
  return .enumDeclaration n members

/-- A dotted name. -/
def dottedName : Reader (List String) := do
  let first ← name
  let reversed ← repeatFrom [first] fun ns ↦ do
    if ← takeMark "." then return some ((← anyWord) :: ns) else return none
  return reversed.reverse

/-- A namespace, or a module or the global scope described from outside. -/
def namespaceDeclaration : Reader Node := do
  if ← takeWord "global" then return .ambientModule (← blockItems r)
  else
    skip
    match (← peek).kind with
    | .string .. =>
      skip
      if ← isAtMark openBrace then return .ambientModule (← blockItems r)
      else
        semicolon
        return .ambientModule []
    | _ =>
      let names ← dottedName
      return .namespaceDeclaration names (← blockItems r)

/-- Whether a namespace, a module or the global scope is next. -/
def isAtNamespace : Reader Bool := do
  let t ← peek
  let following ← peekSecond
  if following.afterNewline then return false
  else if t.isWord "global" then return following.isMark openBrace
  else if t.isWord "namespace" then return following.name?.isSome
  else if t.isWord "module" then
    return following.name?.isSome || match following.kind with | .string .. => true | _ => false
  else return false

/-- Whether a word that starts a declaration is next, with a name behind it on its line. -/
def isAtNamed (s : String) : Reader Bool := do
  let following ← peekSecond
  return (← isAtWord s) && following.name?.isSome && !following.afterNewline

/-- Whether an enumeration is next. -/
def isAtEnum : Reader Bool := do
  return (← isAtWord "enum") || ((← isAtWord "const") && (← peekSecond).isWord "enum")

/-- A declaration, if one is next that only matters to types or that both kinds of script have. -/
def typedDeclaration : Reader (Option Node) := do
  if !(← isTyped) then return none
  else
    let t ← peek
    let following ← peekSecond
    if ← isAtNamed "interface" then return some (← interfaceDeclaration r)
    else if ← isAtNamed "type" then return some (← typeAlias r)
    else if ← isAtEnum then return some (← enumDeclaration r)
    else if ← isAtNamespace then return some (← namespaceDeclaration r)
    else if t.isWord "abstract" && following.isWord "class" && !following.afterNewline then
      skip
      return some (← classDeclaration r [])
    else return none

/-- A declaration of any kind. -/
def declaration (ds : List Node) : Reader Node := do
  if ← isAtWord "class" then classDeclaration r ds
  else if (← isTyped) && (← isAtWord "abstract") && (← peekSecond).isWord "class" then
    skip
    classDeclaration r ds
  else
    guardThat ds.isEmpty
    match ← typedDeclaration r with
    | some d => return d
    | none =>
      if ← isAtVariables then variableStatement r false
      else functionDeclaration r

/-- A declaration of something that exists elsewhere. -/
def ambientDeclaration (ds : List Node) : Reader Node := do
  word "declare"
  return .ambient (← within ({ · with isAmbient := true }) (declaration r ds))

/-- Whether a declaration of something that exists elsewhere is next. -/
def isAtAmbient : Reader Bool := do
  let following ← peekSecond
  return (← isTyped) && (← isAtWord "declare") && following.word?.isSome
    && !following.afterNewline && !following.isWord "in" && !following.isWord "instanceof"
    && !following.isWord "as" && !following.isWord "satisfies"

/-- A declaration behind its decorators, which may stand in front of `declare`. -/
def decoratedDeclaration (ds : List Node) : Reader Node := do
  if ← isAtAmbient then ambientDeclaration r ds else declaration r ds

/-! ## All of them -/

/-- A statement that starts with a reserved word. -/
def reservedStatement (t : Token) (isSingle : Bool) : Reader Node := do
  if t.isWord "if" then ifStatement r
  else if t.isWord "for" then forStatement r
  else if t.isWord "while" then whileStatement r
  else if t.isWord "do" then doWhile r
  else if t.isWord "return" then returnStatement r
  else if t.isWord "throw" then throwStatement r
  else if t.isWord "try" then tryStatement r
  else if t.isWord "switch" then switchStatement r
  else if t.isWord "with" then
    skip
    let object ← condition r
    return .withStatement object (← r.statement true)
  else if t.isWord "break" then
    skip
    let label ← optionalLabel
    semicolon
    return .breakStatement label
  else if t.isWord "continue" then
    skip
    let label ← optionalLabel
    semicolon
    return .continueStatement label
  else if t.isWord "debugger" then
    skip
    semicolon
    return .debuggerStatement
  else if t.isWord "class" then
    guardThat !isSingle
    classDeclaration r []
  else expressionStatement r

/-- A statement that is neither an import nor an export. -/
def plainStatement (isSingle : Bool) : Reader Node := do
  let t ← peek
  if t.isMark openBrace then return .block (← blockItems r)
  else if ← takeMark ";" then return .emptyStatement
  else if t.isMark "@" then
    let ds ← decorators r
    decoratedDeclaration r ds
  else if ← isAtVariables then variableStatement r isSingle
  else
    let following ← peekSecond
    let isFunction := t.isWord "function"
      || (t.isWord "async" && following.isWord "function" && !following.afterNewline)
    if isFunction then
      let f ← functionDeclaration r
      guardThat (!isSingle || !isSpecial f)
      return f
    else if ← isAtAmbient then ambientDeclaration r []
    else match ← typedDeclaration r with
      | some d => return d
      | none => reservedStatement r t isSingle

end Downlevel.Script.Grammar
