import Downlevel.Script.Grammar.Pattern

/-!
# Functions

Parameters and bodies of functions, methods and arrow functions.
-/

namespace Downlevel.Script.Grammar

variable (r : Rules)

/-! ## Statements in a row -/

/-- The text of a string that stands alone as a statement. -/
def directiveText (first : Token) : Node → Option String
  | .item _ _ (.expressionStatement (.string _)) =>
    match first.kind with
    | .string _ raw => some raw
    | _ => none
  | _ => none

/-- Statements up to a token, which is not read. Strings at the start are directives. -/
def statements (isEnd : Token → Bool) : Reader (List Node) := do
  let (reversed, _) ← repeatFrom (([] : List Node), true) fun (items, isStart) ↦ do
    let t ← peek
    if isEnd t then return none
    else
      let item ← r.statement false
      match item, if isStart then directiveText t item else none with
      | .item span comments _, some raw =>
        return some (.item span comments (.directive raw) :: items, true)
      | _, _ => return some (item :: items, false)
  return reversed.reverse

/-- Statements between braces, without directives. -/
def blockItems : Reader (List Node) := do
  mark openBrace
  let items ← inside (readUntil (·.isMark closeBrace) (r.statement false))
  mark closeBrace
  return items

/-- Within a function. -/
def inFunction {α : Type} (isAsync isGenerator : Bool) : Reader α → Reader α :=
  within fun ctx ↦
    { ctx with
      inFunction := true
      isAsync
      isGenerator
      isAmbient := false
      allowsIn := true
      allowsArrowType := true
      allowsIndex := true }

/-- The body of a function with its braces. -/
def functionBody : Reader Node := do
  mark openBrace
  let items ← statements r (·.isMark closeBrace)
  let closing := (← peek).comments
  mark closeBrace
  return .functionBody items closing

/-! ## Parameters -/

/-- A decorator. -/
def decorator : Reader Node := do
  let start ← position
  mark "@"
  let e ← within ({ · with allowsIndex := false }) r.leftHandSide
  return .decorator (← spanFrom start) e

/-- Decorators in a row. -/
def decorators : Reader (List Node) := readUntil (!·.isMark "@") (decorator r)

/-- Whether a word declares a field by a parameter. -/
def declaresField (t : Token) : Bool :=
  ["public", "private", "protected", "readonly", "override"].any t.isWord

/-- The words in front of a parameter that declare a field; whether there are any. -/
def parameterModifiers : Reader Bool := do
  if ← isTyped then
    repeatFrom false fun _ ↦ do
      let following ← peekSecond
      if declaresField (← peek) && (following.name?.isSome || following.isMark openBrace
          || following.isMark "[") then
        skip
        return some true
      else return none
  else return false

/-- A parameter; the one that only gives a type to `this` is nothing. -/
def parameter : Reader (Option Node) := do
  let ds ← decorators r
  -- Decorators of parameters are part of the typed language only.
  if !ds.isEmpty then typedOnly
  let isProperty ← parameterModifiers
  if (← isTyped) && (← isAtWord "this") then
    skip
    optionalAnnotation r
    return none
  else if ← takeMark "..." then
    let pattern ← r.binding
    optionalAnnotation r
    return some (.parameter ds isProperty (.spread pattern))
  else
    let pattern ← r.binding
    optionalMark
    optionalAnnotation r
    return some (.parameter ds isProperty (← withDefault r pattern))

/-- Whether a parameter takes the rest of the arguments. -/
def takesRest : Node → Bool
  | .parameter _ _ (.spread _) => true
  | _ => false

/-- Parameters with their parentheses. -/
def parameters : Reader (List Node) := do
  mark "("
  let (ps, hasComma) ← listUpTo ")" (parameter r)
  let ps := ps.filterMap id
  guardThat (!ps.dropLast.any takesRest && !(hasComma && (ps.getLast?.map takesRest).getD false))
  return ps

/-! ## Functions -/

/-- A function from its parameters on. Where types may be written, the body may be missing. -/
def functionRest (name : Option String) (isAsync isGenerator : Bool) : Reader Node :=
  inFunction isAsync isGenerator do
    typeParameters r
    let ps ← parameters r
    optionalAnnotation r
    if ← isAtMark openBrace then
      return .function name isAsync isGenerator ps (some (← functionBody r))
    else
      typedOnly
      semicolon
      return .function name isAsync isGenerator ps none

/-- Whether a function takes as many parameters as a method of its kind: a getter none, and a setter
one. -/
def fitsKind : MethodKind → Node → Bool
  | .getter, .function _ _ _ ps _ => ps.isEmpty
  | .setter, .function _ _ _ ps _ => ps.length == 1 && !ps.any takesRest
  | _, _ => true

/-- Whether a function has a body. -/
def hasBody : Node → Bool
  | .function _ _ _ _ (some _) => true
  | _ => false

/-- A name, if one is next. -/
def optionalName : Reader (Option String) := do
  if (← peek).name?.isSome then return some (← name) else return none

/-- A function from its first word on. The name of a declaration belongs to the surroundings, that
of an expression to the function itself. -/
def functionFromKeyword (isDeclaration : Bool) : Reader Node := do
  let isAsync ← takeWord "async"
  word "function"
  let isGenerator ← takeMark "*"
  let n ← if isDeclaration then optionalName
    else within ({ · with isAsync, isGenerator }) optionalName
  functionRest r n isAsync isGenerator

/-- A function as an expression. -/
def functionExpression : Reader Node := do
  let f ← functionFromKeyword r false
  guardThat (hasBody f)
  return f

/-! ## Arrow functions -/

/-- The body of an arrow function. -/
def arrowBody (isAsync : Bool) : Reader Node := do
  if ← isAtMark openBrace then inFunction isAsync false (functionBody r)
  else within ({ · with isAsync, isGenerator := false }) r.assignment

/-- The arrow of an arrow function, on the line of its parameters. -/
def arrowMark : Reader Unit := do
  guardThat (!(← peek).afterNewline)
  mark "=>"

/-- An arrow function with parentheses. Where a colon behind them may mean something else, another
one has to follow an arrow function with a result type. -/
def parenthesizedArrow (isAsync : Bool) : Reader Node := do
  typeParameters r
  let ps ← parameters r
  let hasType := (← isTyped) && (← isAtMark ":")
  optionalAnnotation r
  arrowMark
  let body ← arrowBody r isAsync
  if hasType && !(← ask (·.allowsArrowType)) then guardThat (← isAtMark ":")
  return .arrow isAsync ps body

/-- An arrow function of one parameter without parentheses. -/
def simpleArrow (isAsync : Bool) : Reader Node := do
  let n ← name
  arrowMark
  return .arrow isAsync [.parameter [] false (.identifier n)] (← arrowBody r isAsync)

/-- Whether parameters of an arrow function may start with a token. -/
def startsParameters (t : Token) : Reader Bool :=
  return t.isMark "(" || ((← isTyped) && (t.isMark "<" || t.isMark "<<"))

/-- An arrow function, if there is one. -/
def arrow : Reader (Option Node) := do
  let t ← peek
  let following ← peekSecond
  if t.name?.isSome && following.isMark "=>" && !following.afterNewline then
    return some (← simpleArrow r false)
  else if t.isWord "async" && !following.afterNewline && following.name?.isSome then
    attempt do
      skip
      simpleArrow r true
  -- Only the arrow tells parameters from arguments or an expression in parentheses.
  else if t.isWord "async" && !following.afterNewline && (← startsParameters following) then
    attempt do
      skip
      parenthesizedArrow r true
  else if ← startsParameters t then attempt (parenthesizedArrow r false)
  else return none

end Downlevel.Script.Grammar
