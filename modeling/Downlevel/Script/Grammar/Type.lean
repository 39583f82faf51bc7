import Downlevel.Script.Grammar.Basic

/-!
# Types

Types are read to find their end. They leave nothing behind but the expressions and patterns that
stand in them: keys in brackets, parameters of function types and attributes of imported types.
-/

namespace Downlevel.Script.Grammar

variable (r : Rules)

/-- In surroundings where any type may stand. -/
def freely {α : Type} : Reader α → Reader α := within ({ · with allowsConditionalType := true })

/-- Notes what stands within a type. -/
def noteInType (n : Node) : Reader Unit := fun _ c ↦ some ((), { c with inTypes := n :: c.inTypes })

/-- Type arguments with their angle brackets. -/
def typeArguments : Reader Unit := do
  takeAngle '<'
  let _ ← listUpTo ">" (freely r.type)

/-- One type parameter. -/
def typeParameter : Reader Unit := do
  let isModifier (t : Token) : Bool := t.isWord "const" || t.isWord "in" || t.isWord "out"
  let _ ← repeatFrom () fun _ ↦ do
    let t ← peek
    let following ← peekSecond
    if isModifier t && following.word?.isSome && !(following.isWord "extends") then
      skip
      return some ()
    else return none
  let _ ← name
  if ← takeWord "extends" then freely r.type
  if ← takeMark "=" then freely r.type

/-- Type parameters, if there are any. -/
def typeParameters : Reader Unit := do
  if (← isTyped) && (← isAtLess) then
    takeAngle '<'
    let _ ← listUpTo ">" (typeParameter r)

/-- A colon and a type. -/
def annotation : Reader Unit := do
  mark ":"
  freely r.type

/-- A colon and a type, if they are there and types may be written. -/
def optionalAnnotation : Reader Unit := do
  if (← isTyped) && (← isAtMark ":") then annotation r

/-- A question mark that makes something optional, and its type. -/
def optionalMark : Reader Unit := do
  if ← isTyped then let _ ← takeMark "?"

/-- A parameter of a function type. -/
def typeFunctionParameter : Reader Unit := do
  let _ ← takeMark "..."
  if !(← takeWord "this") then noteInType (← r.binding)
  let _ ← takeMark "?"
  optionalAnnotation r

/-- The parameters of a function type. -/
def typeFunctionParameters : Reader Unit := do
  mark "("
  let _ ← listUpTo ")" (typeFunctionParameter r)

/-- The parameters and result of a signature. -/
def signature : Reader Unit := do
  typeParameters r
  typeFunctionParameters r
  optionalAnnotation r

/-- The end of a member of an object type. -/
def memberEnd : Reader Unit := do
  if !(← takeMark ",") then semicolon

/-- A key in brackets. -/
def computedKey : Reader Node := do
  mark "["
  let key ← within ({ · with allowsIn := true }) r.assignment
  mark "]"
  return .computed key

/-- The name of a property. -/
def memberKey : Reader Node := do
  let t ← peek
  match t.kind with
  | .word w _ =>
    skip
    return .propertyName w
  | .string points _ =>
    skip
    return .string ⟨t.span, points⟩
  | .number v =>
    skip
    return .number v
  | .bigint v =>
    skip
    return .bigint v
  | .privateWord w =>
    skip
    return .privateName w
  | _ => computedKey r

/-- The type of all properties whose keys have a type, up to the end of that type. -/
def indexSignature : Reader Unit := do
  mark "["
  let _ ← name
  mark ":"
  freely r.type
  let _ ← takeMark ","
  mark "]"
  optionalAnnotation r

/-- A property or method of an object type. -/
def propertySignature : Reader Unit := do
  noteInType (← memberKey r)
  let _ ← takeMark "?"
  if (← isAtLess) || (← isAtMark "(") then signature r else optionalAnnotation r

/-- Skips a word that modifies the key behind it. -/
def skipModifier (words : List String) : Reader Unit := do
  let t ← peek
  if words.any t.isWord then
    let following ← peekSecond
    let isKey := match following.kind with
      | .word .. | .string .. | .number _ | .bigint _ | .privateWord _ => true
      | .mark m => m == "["
      | _ => false
    if isKey then skip

/-- A member of an object type. -/
def typeMember : Reader Unit := do
  skipModifier ["readonly"]
  skipModifier ["get", "set"]
  let t ← peek
  if t.isMark "(" || t.isMark "<" then signature r
  else if t.isWord "new" && ((← peekSecond).isMark "(" || (← peekSecond).isMark "<") then
    skip
    signature r
  else match ← attempt (indexSignature r) with
    | some _ => pure ()
    | none => propertySignature r
  memberEnd

/-- The members of an object type with their braces. -/
def typeMembers : Reader Unit := do
  mark openBrace
  let _ ← readUntil (·.isMark closeBrace) (typeMember r)
  mark closeBrace

/-- A plus or minus sign in front of a modifier of a mapped type. -/
def skipSign : Reader Unit := do
  if !(← takeMark "+") then let _ ← takeMark "-"

/-- An object type that maps keys to types. -/
def mappedType : Reader Unit := do
  mark openBrace
  skipSign
  let _ ← takeWord "readonly"
  mark "["
  let _ ← name
  word "in"
  freely r.type
  if ← takeWord "as" then freely r.type
  mark "]"
  skipSign
  let _ ← takeMark "?"
  optionalAnnotation r
  let _ ← takeMark ";"
  mark closeBrace

/-- An element of a tuple type. -/
def tupleElement : Reader Unit := do
  let _ ← takeMark "..."
  let label : Reader Unit := do
    let _ ← anyWord
    let _ ← takeMark "?"
    mark ":"
  let _ ← attempt label
  freely r.type
  let _ ← takeMark "?"

/-- The rest of a dotted name. -/
def dottedTail : Reader Unit :=
  repeatFrom () fun _ ↦ do
    if ← takeMark "." then
      let t ← peek
      match t.kind with
      | .word .. | .privateWord _ =>
        skip
        return some ()
      | _ => fail
    else return none

/-- Type arguments on the same line, if there are any. -/
def optionalTypeArguments : Reader Unit := do
  let t ← peek
  if (t.isMark "<" || t.isMark "<<") && !t.afterNewline then typeArguments r

/-- The type of a module. -/
def importType : Reader Unit := do
  word "import"
  mark "("
  freely r.type
  if ← takeMark "," then
    if !(← isAtMark ")") then
      noteInType (← r.assignment)
      let _ ← takeMark ","
  mark ")"
  dottedTail
  optionalTypeArguments r

/-- A template of string types. -/
def templateType : Reader Unit := do
  let (_, isLast) ← templateHead
  let _ ← repeatFrom isLast fun isLast ↦ do
    if isLast then return none
    else
      freely r.type
      return some (← templateTail).2

/-- A type reference, with the type that a value is said to be of behind `is`. -/
def typeReference : Reader Unit := do
  let _ ← anyWord
  dottedTail
  optionalTypeArguments r
  let t ← peek
  if t.isWord "is" && !t.afterNewline then
    skip
    r.type

/-- Words that cannot be the name of a type. -/
def isTypeName (t : Token) : Bool :=
  match t.word? with
  | some w => !isReserved w || ["void", "null", "this", "true", "false"].contains w
  | none => false

/-- A type without anything in front of it or behind it. -/
def basicType : Reader Unit := do
  let t ← peek
  match t.kind with
  | .string .. | .number _ | .bigint _ => skip
  | .template .. => templateType r
  | .mark m =>
    if m == "-" then
      skip
      match (← peek).kind with
      | .number _ | .bigint _ => skip
      | _ => fail
    else if m == openBrace then
      match ← attempt (mappedType r) with
      | some _ => pure ()
      | none => typeMembers r
    else if m == "[" then
      skip
      let _ ← listUpTo "]" (tupleElement r)
    else if m == "(" then
      skip
      freely r.type
      mark ")"
    else fail
  | .word .. =>
    if t.isWord "typeof" then
      skip
      if ← isAtWord "import" then importType r
      else
        let _ ← anyWord
        dottedTail
        optionalTypeArguments r
    else if t.isWord "import" then importType r
    else if t.isWord "asserts" then
      let following ← peekSecond
      if following.word?.isSome && !following.afterNewline && !(following.isWord "is") then skip
      typeReference r
    else
      guardThat (isTypeName t)
      typeReference r
  | _ => fail

/-- A type with brackets behind it. -/
def postfixType : Reader Unit := do
  basicType r
  repeatFrom () fun _ ↦ do
    let t ← peek
    if t.isMark "[" && !t.afterNewline then
      skip
      if !(← isAtMark "]") then freely r.type
      mark "]"
      return some ()
    else if t.isMark "!" && !t.afterNewline then
      skip
      return some ()
    else return none

/-- The bound of a type that is inferred, unless what follows shows that a condition is meant. -/
def inferredBound : Reader Unit := do
  word "extends"
  within ({ · with allowsConditionalType := false }) r.type
  guardThat (!(← ask (·.allowsConditionalType)) || !(← isAtMark "?"))

/-- A type with the operators in front of it. -/
def typeOperand : Reader Unit := do
  let t ← peek
  let following ← peekSecond
  let startsType := following.word?.isSome || match following.kind with
    | .string .. | .number _ | .bigint _ | .template .. => true
    | .mark m => m == openBrace || m == "[" || m == "("
    | _ => false
  if (t.isWord "keyof" || t.isWord "unique" || t.isWord "readonly") && startsType then
    skip
    r.typeOperand
  else if t.isWord "infer" && following.name?.isSome then
    skip
    let _ ← name
    if ← isAtWord "extends" then let _ ← attempt (inferredBound r)
  else postfixType r

/-- Operands between marks, of which one may also stand in front. -/
def joined (m : String) (operand : Reader Unit) : Reader Unit := do
  let _ ← takeMark m
  operand
  repeatFrom () fun _ ↦ do
    if ← takeMark m then
      operand
      return some ()
    else return none

/-- The parameters and the arrow of a function type. -/
def functionTypeHead : Reader Unit := do
  typeParameters r
  typeFunctionParameters r
  mark "=>"

/-- A type. -/
def type : Reader Unit := do
  let t ← peek
  let isConstructor := t.isWord "new" || (t.isWord "abstract" && (← peekSecond).isWord "new")
  if isConstructor then
    let _ ← takeWord "abstract"
    skip
    functionTypeHead r
    r.type
  else
    let isFunction ← if t.isMark "(" || t.isMark "<" then
        pure (← attempt (functionTypeHead r)).isSome
      else pure false
    if isFunction then r.type
    else
      joined "|" (joined "&" (typeOperand r))
      let next ← peek
      if (← ask (·.allowsConditionalType)) && next.isWord "extends" && !next.afterNewline then
        skip
        within ({ · with allowsConditionalType := false }) r.type
        mark "?"
        freely r.type
        mark ":"
        freely r.type

/-- Whether a token starts an expression. -/
def startsExpression (t : Token) : Bool :=
  match t.kind with
  | .word w false =>
    !isReserved w || ["this", "super", "null", "true", "false", "function", "class", "new",
      "import", "delete", "typeof", "void"].contains w
  | .word _ true | .privateWord _ | .number _ | .bigint _ | .string .. | .template .. => true
  | .mark m =>
    ["(", "[", openBrace, "+", "-", "~", "!", "++", "--", "<", "/", "/=", "@"].contains m
  | _ => false

/-- Whether a token is an operator between two operands. -/
def isBinaryOperator (t : Token) : Bool :=
  match t.kind with
  | .mark m => (BinaryOperator.ofText? m).isSome
  | .word w false => ["in", "instanceof", "as", "satisfies"].contains w
  | _ => false

/-- Type arguments within an expression: they must not be two comparisons. -/
def argumentsInExpression : Reader Unit := do
  takeAngle '<'
  let _ ← commaSeparated (freely r.type)
  let c ← place
  guardThat (greaterSpelling c == some ">")
  skip
  let t ← peek
  match t.kind with
  | .template .. => pure ()
  | _ =>
    if t.isMark "(" then pure ()
    else if t.isMark "<" || t.isMark ">" || t.isMark "+" || t.isMark "-" then fail
    else guardThat (t.afterNewline || isBinaryOperator t || !startsExpression t)

end Downlevel.Script.Grammar
