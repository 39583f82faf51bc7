import Downlevel.Script.Grammar.Class

/-!
# Expressions

Operands, operators and assignments. Casts and type arguments leave nothing behind.
-/

namespace Downlevel.Script.Grammar

variable (r : Rules)

/-! ## Literals and brackets -/

/-- An element of an array or an argument list. -/
def element : Reader Node := do
  if ← takeMark "..." then return .spread (← inside r.assignment) else inside r.assignment

/-- An array. -/
def arrayLiteral : Reader Node := do
  mark "["
  let reversed ← repeatFrom [] fun es ↦ do
    if ← isAtMark "]" then return none
    else if ← takeMark "," then return some (.hole :: es)
    else
      let e ← element r
      if !(← isAtMark "]") then mark ","
      return some (e :: es)
  mark "]"
  return .array reversed.reverse

/-- Notes that a default value stands in an object that is read as a value. -/
def noteDefault : Reader Unit := fun _ c ↦ some ((), { c with hasDefault := true })

/-- A method of an object. -/
def objectMethod (isAsync isGenerator : Bool) (kind : MethodKind) (key : Node) : Reader Node := do
  let f ← functionRest r none isAsync isGenerator
  guardThat (hasBody f && fitsKind kind f)
  return .method [] false false kind key f

/-- Whether a key is a private name. -/
def isPrivate : Node → Bool
  | .privateName _ => true
  | _ => false

/-- A property of an object. -/
def objectProperty : Reader Node := do
  if ← takeMark "..." then return .spread (← inside r.assignment)
  else
    let (isAsync, isGenerator, kind) ← methodWords
    let t ← peek
    let key ← memberKey r
    guardThat (!isPrivate key)
    if isAsync || isGenerator || kind != .plain || (← isAtParameters) then
      objectMethod r isAsync isGenerator kind key
    else if ← takeMark ":" then return .property key (← inside r.assignment)
    else match t.name? with
      | none => fail
      | some n =>
        guardThat (!isOperatorHere (← read) n)
        if ← takeMark "=" then
          let value ← inside r.assignment
          noteDefault
          return .shorthand n (some value)
        else return .shorthand n none

/-- An object. -/
def objectLiteral : Reader Node := do
  mark openBrace
  let (properties, _) ← listUpTo closeBrace (objectProperty r)
  return .object properties

/-- A template. -/
def templateLiteral : Reader Node := do
  let (first, isLast) ← templateHead
  let (chunks, values, _) ← repeatFrom ([first], ([] : List Node), isLast)
    fun (chunks, values, isLast) ↦ do
      if isLast then return none
      else
        let value ← inside r.expression
        let (chunk, isLast) ← templateTail
        return some (chunk :: chunks, value :: values, isLast)
  return .template chunks.reverse values.reverse

/-- Whether every chunk of a template denotes something. -/
def isWellFormed : Node → Bool
  | .template chunks _ => chunks.all (·.codePoints.isSome)
  | _ => true

/-- A regular expression, whose first slash is the next token or starts it. -/
def regexLiteral : Reader Node := fun _ c ↦
  let start := c.token.span.start + 1
  let cs := if c.token.isMark "/=" then '=' :: c.rest else c.rest
  match Literal.regex cs with
  | some ((pattern, flags), w, rest) =>
    let (token, rest) := Scanner.next false false (start + w) rest
    some (.regex pattern flags, ⟨token, rest, start + w, c.hasDefault, c.inTypes⟩)
  | none => none

/-- An expression in parentheses. -/
def parenthesized : Reader Node := do
  mark "("
  let e ← inside r.expression
  mark ")"
  return .parenthesized e

/-- A class with decorators as an expression. -/
def decoratedClass : Reader Node := do
  let ds ← decorators r
  classRest r ds

/-! ## Operands -/

/-- A dynamic import or `import.meta`. -/
def importExpression : Reader Node := do
  let start ← position
  word "import"
  if ← takeMark "." then
    word "meta"
    return .importMeta
  else
    mark "("
    let argumentStart ← position
    let argument ← inside r.assignment
    let argumentSpan ← spanFrom argumentStart
    let options ← if (← takeMark ",") && !(← isAtMark ")") then do
        let e ← inside r.assignment
        let _ ← takeMark ","
        pure (some e)
      else pure none
    mark ")"
    return .importCall (← spanFrom start) argumentSpan argument options

/-- Arguments with their parentheses. -/
def arguments : Reader (List Node) := do
  mark "("
  return (← listUpTo ")" (element r)).1

/-- `new` with its operand. -/
def construction : Reader Node := do
  word "new"
  if ← takeMark "." then
    word "target"
    return .newTarget
  else
    let callee ← r.constructed
    if (← isTyped) && (← isAtLess) then let _ ← attempt (argumentsInExpression r)
    guardThat (!(← isAtMark "?."))
    let args ← if ← isAtMark "(" then arguments r else pure []
    return .construct callee args false

/-- `super`, in front of an access or a call. -/
def superExpression : Reader Node := do
  word "super"
  let t ← peek
  guardThat (t.isMark "(" || t.isMark "." || t.isMark "[")
  return .superValue

/-- An operand that starts with a word. -/
def wordOperand (t : Token) : Reader Node := do
  if t.isWord "this" then
    skip
    return .thisValue
  else if t.isWord "null" then
    skip
    return .nullLiteral
  else if t.isWord "true" then
    skip
    return .boolean true
  else if t.isWord "false" then
    skip
    return .boolean false
  else if t.isWord "super" then superExpression
  else if t.isWord "function" then functionExpression r
  else if t.isWord "class" then classRest r []
  else if t.isWord "new" then construction r
  else if t.isWord "import" then importExpression r
  else
    let following ← peekSecond
    if t.isWord "async" && following.isWord "function" && !following.afterNewline then
      functionExpression r
    else return .identifier (← name)

/-- An operand without accesses and calls. -/
def primary : Reader Node := do
  let t ← peek
  match t.kind with
  | .word .. => wordOperand r t
  | .number v =>
    skip
    return .number v
  | .bigint v =>
    skip
    return .bigint v
  | .string points _ =>
    skip
    return .string ⟨t.span, points⟩
  | .template .. =>
    let node ← templateLiteral r
    guardThat (isWellFormed node)
    return node
  | .mark m =>
    if m == "(" then parenthesized r
    else if m == "[" then arrayLiteral r
    else if m == openBrace then objectLiteral r
    -- In the place of an operand, a slash cannot divide.
    else if m == "/" || m == "/=" then regexLiteral
    else if m == "@" then decoratedClass r
    else fail
  | _ => fail

/-! ## Accesses and calls -/

/-- A name behind a point. -/
def memberName (object : Node) (isOptional : Bool) : Reader Node := do
  match (← peek).kind with
  | .word n _ =>
    skip
    return .member object n isOptional
  | .privateWord n =>
    skip
    return .privateMember object n isOptional
  | _ => fail

/-- A key in brackets behind an object. -/
def indexAccess (object : Node) (isOptional : Bool) : Reader Node := do
  mark "["
  let key ← inside r.expression
  mark "]"
  return .index object key isOptional

/-- What follows `?.`. -/
def optionalAccess (object : Node) : Reader Node := do
  if (← isTyped) && (← isAtLess) then typeArguments r
  let t ← peek
  if t.isMark "(" then return .call object (← arguments r) true false
  else if t.isMark "[" then indexAccess r object true
  else memberName object true

/-- The accesses and calls behind an operand; the second part of the result tells whether one of
them is optional. -/
def accesses (allowsCalls : Bool) (start : Node) : Reader (Node × Bool) :=
  repeatFrom (start, false) fun (e, isChain) ↦ do
    let t ← peek
    match t.kind with
    | .template .. =>
      -- A chain with an optional access cannot be the tag of a template.
      if isChain then fail
      else return some (.taggedTemplate e (← templateLiteral r), false)
    | .mark m =>
      if m == "." then
        skip
        return some (← memberName e false, isChain)
      else if m == "?." then
        if allowsCalls then
          skip
          return some (← optionalAccess r e, true)
        else fail
      else if m == "[" then
        if ← ask (·.allowsIndex) then return some (← indexAccess r e false, isChain)
        else return none
      else if m == "(" then
        if allowsCalls then return some (.call e (← arguments r) false false, isChain)
        else return none
      else if ← isTyped then
        if m == "!" && !t.afterNewline then
          skip
          return some (e, isChain)
        else if (m == "<" || m == "<<") && (allowsCalls || isChain) then
          match ← attempt (argumentsInExpression r) with
          | some _ => return some (e, isChain)
          | none => return none
        else return none
      else return none
    | _ => return none

/-- A call that is known to have no effect. -/
def markPure : Node → Node
  | .call f args isOptional _ => .call f args isOptional true
  | .construct f args _ => .construct f args true
  | .chain e => .chain (markPure e)
  | .parenthesized e => .parenthesized (markPure e)
  | e => e

/-- An operand with its accesses and calls. -/
def leftHandSide : Reader Node := do
  let t ← peek
  let (e, isChain) ← accesses r true (← primary r)
  let e := if isChain then .chain e else e
  return if t.isPure then markPure e else e

/-- Whether an expression is a dynamic import. -/
def isImportCall : Node → Bool
  | .importCall .. => true
  | _ => false

/-- The operand of `new`: an operand with accesses, but without calls. -/
def constructed : Reader Node := do
  let e ← primary r
  guardThat (!isImportCall e)
  return (← accesses r false e).1

/-! ## Operators -/

/-- An operator in front of an operand. -/
def unaryOperator (t : Token) : Option UnaryOperator :=
  match t.kind with
  | .mark "-" => some .minus
  | .mark "+" => some .plus
  | .mark "!" => some .not
  | .mark "~" => some .complement
  | .word "typeof" false => some .typeof
  | .word "void" false => some .void
  | .word "delete" false => some .delete
  | _ => none

/-- `++` or `--`. -/
def updateOperator (t : Token) : Option UpdateOperator :=
  match t.kind with
  | .mark "++" => some .increment
  | .mark "--" => some .decrement
  | _ => none

/-- An operand with an update behind it. -/
def postfixed : Reader Node := do
  let e ← leftHandSide r
  let t ← peek
  match updateOperator t with
  | some op =>
    if t.afterNewline then return e
    else
      guardThat (isPlace e)
      skip
      return .update op false e
  | none => return e

/-- A type in angle brackets in front of an operand. -/
def typeAssertion : Reader Node := do
  takeAngle '<'
  freely r.type
  takeAngle '>'
  r.unary

/-- An operand with the operators in front of it. Only `await` may stand in front of the base of a
power. -/
def unary : Reader Node := do
  let t ← peek
  match unaryOperator t, updateOperator t with
  | some op, _ =>
    skip
    let e ← r.unary
    guardThat (!(← isAtMark "**"))
    return .unary op e
  | _, some op =>
    skip
    let e ← r.unary
    guardThat (isPlace e)
    return .update op true e
  | _, _ =>
    if t.isWord "await" && (← ask (·.isAsync)) then
      skip
      return .awaitExpression (← r.unary)
    else if (← isTyped) && (← isAtLess) then typeAssertion r
    else postfixed r

/-- The binary operator that is next, with its spelling. -/
def binaryOperator : Reader (Option (BinaryOperator × String)) := do
  let t ← peek
  match t.kind with
  | .word "in" false =>
    return if ← ask (·.allowsIn) then some (.memberOf, "in") else none
  | .word "instanceof" false => return some (.instanceOf, "instanceof")
  | .mark _ =>
    match ← spelling with
    | some s => return (BinaryOperator.ofText? s).map (·, s)
    | none => return none
  | _ => return none

/-- Whether an expression is one of `??` and `||` or `&&` and the operator is one of the other
sort: they are not mixed without parentheses. -/
def mixes (op : BinaryOperator) : Node → Bool
  | .binary inner _ _ =>
    op.isLogical && inner.isLogical && (op == .coalesce) != (inner == .coalesce)
  | _ => false

/-- The first operand of a row of operators. A private name may stand there in front of `in`. -/
def firstOperand (level : Nat) : Reader Node := do
  match (← peek).kind with
  | .privateWord n =>
    guardThat (level < Precedence.comparison.rank)
    skip
    word "in"
    return .privateIn n (← r.operand Precedence.comparison.rank)
  | _ => unary r

/-- Operands with the operators between them that bind tighter than a level. -/
def operand (level : Nat) : Reader Node := do
  let first ← firstOperand r level
  repeatFrom first fun left ↦ do
    let t ← peek
    let isCast := (t.isWord "as" || t.isWord "satisfies") && !t.afterNewline
    if isCast && (← isTyped) && level < Precedence.comparison.rank then
      skip
      if !(← takeWord "const") then freely r.type
      return some left
    else match ← binaryOperator with
      | none => return none
      | some (op, s) =>
        let rank := op.precedence.rank
        if rank ≤ level then return none
        else
          takeOperator s
          -- Powers group to the right, and all other operators to the left.
          let right ← r.operand (if op == .power then rank - 1 else rank)
          guardThat (!mixes op left && !mixes op right)
          return some (.binary op left right)

/-! ## Assignments -/

/-- `yield` with its argument. -/
def yieldExpression : Reader Node := do
  word "yield"
  if (← peek).afterNewline then return .yieldExpression false none
  else
    let isDelegate ← takeMark "*"
    let t ← peek
    let ends := t.isFinish || t.isWord "in"
      || [";", closeBrace, ")", "]", ":", ","].any t.isMark
    if ends && !isDelegate then return .yieldExpression false none
    else return .yieldExpression isDelegate (some (← r.assignment))

/-- A conditional behind its test. -/
def conditionalRest (test : Node) : Reader Node := do
  mark "?"
  -- The colon behind this part is that of the conditional, not that of a result type.
  let consequent ←
    within ({ · with allowsIn := true, allowsIndex := true, allowsArrowType := false }) r.assignment
  mark ":"
  return .conditional test consequent (← r.assignment)

/-- The assignment operator that is next, with its spelling. -/
def assignmentOperator : Reader (Option (AssignmentOperator × String)) := do
  match ← spelling with
  | some s => return (AssignmentOperator.ofText? s).map (·, s)
  | none => return none

/-- What is assigned to by an operator: only a plain assignment takes patterns. -/
def assigned (op : AssignmentOperator) (start : Cursor) (e : Node) : Reader Node := do
  match op with
  | .plain => asTarget r start e
  | .compound _ =>
    guardThat (isPlace e)
    return e

/-- An expression without commas outside brackets. -/
def assignment : Reader Node := do
  if (← isAtWord "yield") && (← ask (·.isGenerator)) then yieldExpression r
  else match ← arrow r with
    | some f => return f
    | none =>
      let start ← place
      let left ← operand r 0
      match ← assignmentOperator with
      | some (op, s) =>
        let target ← assigned r op start left
        takeOperator s
        return .assignment op target (← r.assignment)
      | none => if ← isAtMark "?" then conditionalRest r left else return left

/-- An expression. -/
def expression : Reader Node := do
  match ← commaSeparated r.assignment with
  | [e] => return e
  | es => return .sequence es

end Downlevel.Script.Grammar
