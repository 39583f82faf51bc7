import Downlevel.Script.Printer.Literal
import Downlevel.Script.Printer.Number

/-!
# Printing scripts

The text of a tree: one statement a line, indented by tabs, semicolons everywhere. Parentheses are
put where the tree needs them; those of the script are kept only around functions, which are then
likely to be called at once.

Every node is printed for a place: how deep it is indented, how tightly its surroundings bind, what
would be misread at its start, and whether it is a value or a pattern.
-/

namespace Downlevel.Script

/-- What stands in front of an expression. -/
inductive Start where
  /-- Something else of the same expression. -/
  | inside
  /-- The start of a statement. -/
  | statement
  /-- The start of a body, where a string would be taken for a directive. -/
  | body
  /-- The start of the value of a default export. -/
  | exportDefault
  /-- The arrow of an arrow function. -/
  | arrowBody
  deriving DecidableEq, Inhabited

/-- How the nodes that values and patterns share are meant. -/
inductive Role where
  | value
  /-- A pattern that binds names. -/
  | binding
  /-- A pattern that assigns to places. -/
  | target
  deriving DecidableEq, Inhabited

/-- Where a node is printed. -/
structure Place where
  /-- The depth of the line. -/
  depth : Nat
  /-- How tightly the surroundings bind. -/
  level : Precedence
  start : Start
  role : Role
  /-- Whether `in` would be taken for the head of a loop. -/
  forbidsIn : Bool
  /-- Whether a call would be taken for the operand of `new`. -/
  forbidsCall : Bool
  deriving Inhabited

namespace Place

/-- The place of a whole expression in brackets. -/
def fresh (p : Place) : Place := ⟨p.depth, .lowest, .inside, .value, false, false⟩

/-- The same place with a level, for what stands first in it. -/
def first (p : Place) (level : Precedence) : Place := { p with level, forbidsCall := false }

/-- The same place with a level, for what stands behind something. -/
def behind (p : Place) (level : Precedence) : Place :=
  { p with level, start := .inside, forbidsCall := false }

/-- An expression between commas in brackets. -/
def listed (p : Place) : Place := { p.fresh with level := .comma }

/-- A whole expression at a start. -/
def starting (p : Place) (start : Start) : Place := { p.fresh with start }

/-- A pattern. -/
def pattern (p : Place) (role : Role) : Place := { p.fresh with level := .comma, role }

/-- A line further in. -/
def deeper (p : Place) : Place := { p with depth := p.depth + 1 }

/-- The indentation of the line. -/
def indent (p : Place) : String := indentation p.depth

end Place

namespace Node

/-! ## Looking at nodes -/

/-- An expression without the parentheses around it. -/
def bare : Node → Node
  | parenthesized e => bare e
  | e => e

/-- Whether a node is a function. -/
def isFunction : Node → Bool
  | function .. | arrow .. => true
  | _ => false

/-- Whether an operand of `??` needs parentheses because it mixes operators. -/
def isOtherLogical (e : Node) : Bool :=
  match e.bare with
  | binary .or _ _ | binary .and _ _ => true
  | _ => false

/-- Whether an expression has an operator in front of it. -/
def isPrefixed (e : Node) : Bool :=
  match e.bare with
  | unary .. | awaitExpression _ => true
  | _ => false

/-- Whether a decorator needs no parentheses: it is a name, or is reached by points and calls. -/
def isPlainDecorator : Node → Bool
  | identifier _ => true
  | member e _ false => isPlainDecorator e
  | privateMember e _ false => isPlainDecorator e
  | call e _ false _ => isPlainDecorator e
  | _ => false

/-- Whether a property may be written as a shorthand: its value is a name like its key. -/
def isShorthand (role : Role) (key value : Node) : Bool :=
  match key with
  | propertyName k =>
    match value with
    | identifier v => k == v && (role != .value || k != "__proto__")
    | assignment .plain (identifier v) _ => k == v && role != .value
    | _ => false
  | _ => false

/-- Whether a statement could take an `else` that stands behind it. -/
def endsInShortIf : Node → Bool
  | item _ _ s => endsInShortIf s
  | ifStatement _ _ none => true
  | ifStatement _ _ (some s) => endsInShortIf s
  | forStatement _ _ _ s | forIn _ _ s | forOf _ _ _ s => endsInShortIf s
  | whileStatement _ s | withStatement _ s | labeled _ s => endsInShortIf s
  | _ => false

/-- Whether a statement is a block. -/
def isBlock : Node → Bool
  | item _ _ s => isBlock s
  | block _ => true
  | _ => false

/-- Whether a statement is a choice. -/
def isIf : Node → Bool
  | item _ _ s => isIf s
  | ifStatement .. => true
  | _ => false

/-- Whether a statement is empty. -/
def isEmpty : Node → Bool
  | item _ _ s => isEmpty s
  | emptyStatement => true
  | _ => false

/-- Whether an element is left out. -/
def isHole : Node → Bool
  | hole => true
  | _ => false

/-- Whether a node takes the rest of a list. -/
def isSpread : Node → Bool
  | spread _ => true
  | _ => false

/-- Whether an expression, alone in a statement at the start of a body, is a directive. -/
def looksLikeDirective (e : Node) : Bool :=
  match e.bare with
  | string _ => true
  | _ => false

/-- Whether a declaration ends without a semicolon. -/
def endsOpen : Node → Bool
  | functionDeclaration _ | classDeclaration _ => true
  | _ => false

/-! ## Parentheses -/

/-- Whether a node needs parentheses in a place. -/
def needsParentheses (p : Place) : Node → Bool
  | arrow .. => Precedence.assignment ≤ p.level
  | assignment _ target _ =>
    p.role == .value && (Precedence.assignment ≤ p.level
      || ((p.start == .statement || p.start == .arrowBody) && target matches object _))
  | sequence _ => Precedence.comma ≤ p.level
  | conditional .. => Precedence.conditional ≤ p.level
  | yieldExpression .. => Precedence.assignment ≤ p.level
  | awaitExpression _ | unary .. | update _ true _ => Precedence.unary ≤ p.level
  | update _ false _ | chain _ => Precedence.postfixed ≤ p.level
  | binary op _ _ => op.precedence ≤ p.level || (op == .memberOf && p.forbidsIn)
  | privateIn .. => Precedence.comparison ≤ p.level || p.forbidsIn
  | call _ _ _ isPure =>
    Precedence.construction ≤ p.level || p.forbidsCall || (isPure && Precedence.postfixed ≤ p.level)
  | construct _ _ isPure =>
    Precedence.call ≤ p.level || (isPure && Precedence.postfixed ≤ p.level)
  | importCall .. => Precedence.construction ≤ p.level || p.forbidsCall
  | function .. | classDef .. => p.start == .statement || p.start == .exportDefault
  | object _ => p.role == .value && (p.start == .statement || p.start == .arrowBody)
  | parenthesized e => e.isFunction
  | _ => false

/-! ## Parts of texts -/

/-- Puts parentheses around a text. -/
def wrapped (b : Bool) (s : String) : String := if b then "(" ++ s ++ ")" else s

/-- Parts with commas between them. -/
def commas (parts : List String) : String := ", ".intercalate parts

/-- Lines between braces; the closing brace stands as deep as the line with the opening one. -/
def bracedLines (p : Place) (lines : String) : String :=
  if lines.isEmpty then openBrace ++ closeBrace
  else openBrace ++ "\n" ++ lines ++ p.indent ++ closeBrace

/-- An element of an array in front of the next one. -/
def elementText (isLast : Bool) (e : Node) (text : String) : String :=
  if isLast then (if e.isHole then text ++ "," else text) else text ++ ","

/-- The elements of an array with the commas behind them. -/
def elementTexts : List Node → List String → List String
  | [e], [t] => [elementText true e t]
  | e :: es, t :: ts => elementText false e t :: elementTexts es ts
  | _, _ => []

/-- An array: short ones on one line. -/
def arrayText (p : Place) (es : List Node) (texts : List String) : String :=
  let parts := elementTexts es texts
  if es.length > 2 then
    "[" ++ String.join (parts.map fun t ↦ "\n" ++ p.deeper.indent ++ t) ++ "\n" ++ p.indent ++ "]"
  else "[" ++ " ".intercalate parts ++ "]"

/-- An array pattern. -/
def arrayPatternText (role : Role) (es : List Node) (texts : List String) : String :=
  if role == .binding && es.length == 1 && es.all isSpread then
    "[ " ++ String.join texts ++ "]"
  else "[" ++ " ".intercalate (elementTexts es texts) ++ "]"

/-- An object: one with several properties takes several lines. -/
def objectText (p : Place) (texts : List String) : String :=
  match texts with
  | [] => openBrace ++ closeBrace
  | [t] => openBrace ++ " " ++ t ++ " " ++ closeBrace
  | ts =>
    let lines := ts.map fun t ↦ p.deeper.indent ++ t
    openBrace ++ "\n" ++ ",\n".intercalate lines ++ "\n" ++ p.indent ++ closeBrace

/-- The opening of an optional access. -/
def accessMark (isOptional : Bool) : String := if isOptional then "?." else "."

/-- What promises that a call has no effect. -/
def pureMark (isPure : Bool) : String := if isPure then "/* @__PURE__ */ " else ""

/-- An operator in front of an operand; a space keeps like signs apart. -/
def unaryText (op : UnaryOperator) (operand : String) : String :=
  let joins (s : String) : Bool := s.toList.isPrefixOf operand.toList
  let space := op.isWord || (op == .minus && joins "-") || (op == .plus && joins "+")
  op.text ++ (if space then " " else "") ++ operand

/-- The chunks of a template with the substitutions between them. -/
def templateText : List TemplateChunk → List String → String
  | [], _ => ""
  | [c], _ => String.ofList (hideScriptEnd c.raw.toList)
  | c :: cs, t :: ts =>
    String.ofList (hideScriptEnd c.raw.toList) ++ "$" ++ openBrace ++ t ++ closeBrace
      ++ templateText cs ts
  | c :: _, [] => String.ofList (hideScriptEnd c.raw.toList)

/-- The first part of a function, up to its parameters. -/
def functionHead (name : Option String) (isAsync isGenerator : Bool) : String :=
  (if isAsync then "async " else "") ++ "function" ++ (if isGenerator then "*" else "")
    ++ (match name with
      | some n => " " ++ n
      | none => if isGenerator then " " else "")

/-- The words in front of the key of a method. -/
def methodHead (isStatic : Bool) (kind : MethodKind) : Node → String
  | function _ isAsync isGenerator _ _ =>
    (if isStatic then "static " else "")
      ++ (match kind with
        | .getter => "get "
        | .setter => "set "
        | _ => "")
      ++ (if isAsync then "async " else "") ++ (if isGenerator then "*" else "")
  | _ => ""

/-- The words in front of the key of a field. -/
def fieldHead (m : FieldModifiers) : String :=
  (if m.isDeclared then "declare " else "") ++ (if m.isStatic then "static " else "")
    ++ (if m.isAccessor then "accessor " else "")

/-- A text behind a space, if there is one. -/
def spaced (s : String) : String := if s.isEmpty then "" else " " ++ s

/-- The statement of a condition or loop behind its head: on the same line. -/
def bodyText (s : Node) (text : String) : String := if s.isEmpty then ";" else " " ++ text

/-- A choice. A short one that could take the `else` gets braces. -/
def ifText (p : Place) (test : String) (consequent : Node) (text deeperText : String)
    (alternate : Option (Node × String)) : String :=
  let head := "if (" ++ test ++ ")"
  let elseText (s : Node × String) : String :=
    "else" ++ (if s.1.isEmpty then ";" else " " ++ s.2)
  let braced (t : String) : String :=
    head ++ " " ++ t ++ (alternate.map fun s ↦ " " ++ elseText s).getD ""
  if consequent.isBlock then braced text
  else if consequent.endsInShortIf then
    braced (openBrace ++ "\n" ++ p.deeper.indent ++ deeperText ++ "\n" ++ p.indent ++ closeBrace)
  else
    head ++ bodyText consequent text
      ++ (alternate.map fun s ↦ "\n" ++ p.indent ++ elseText s).getD ""

/-- Decorators in front of something. -/
def decoratorsText (texts : List String) : String := String.join (texts.map (· ++ " "))

/-! ## Printing -/

mutual

/-- The text of a node in a place. The text of a statement starts behind the indentation of its
first line and ends before the line feed of its last one. -/
def print (p : Place) (n : Node) : String :=
  let wraps := n.needsParentheses p
  let q := if wraps then p.fresh else p
  wrapped wraps <| match n with
  | identifier s | propertyName s => s
  | privateName s => "#" ++ s
  | computed e => "[" ++ print p.listed e ++ "]"
  | thisValue => "this"
  | superValue => "super"
  | nullLiteral => "null"
  | boolean b => if b then "true" else "false"
  | number v => numberText v
  | bigint v => toString v ++ "n"
  | string s => stringText s.codePoints
  | regex pattern flags => regexText pattern flags
  | template chunks es => "\x60" ++ templateText chunks (printList p.fresh es) ++ "\x60"
  | taggedTemplate tag t => print (q.first .postfixed) tag ++ print p.fresh t
  | array es =>
    match p.role with
    | .value =>
      arrayText p es (printList (if es.length > 2 then p.deeper.listed else p.listed) es)
    | role => arrayPatternText role es (printList p es)
  | hole => ""
  | spread e => "..." ++ print (if p.role == .value then p.listed else p) e
  | object ps =>
    match p.role with
    | .value => objectText p (printList (if ps.length > 1 then p.deeper.listed else p.listed) ps)
    | .binding => braced (printList p ps)
    | .target => openBrace ++ commas (printList p ps) ++ closeBrace
  | property key v =>
    let text := print p v
    if isShorthand p.role key v then text else print p.fresh key ++ ": " ++ text
  | shorthand s initial =>
    s ++ match initial with
      | some e => " = " ++ print p.listed e
      | none => ""
  | function name isAsync isGenerator ps body =>
    functionHead name isAsync isGenerator ++ "(" ++ commas (printList p.fresh ps) ++ ") "
      ++ printOption p.fresh body
  | arrow isAsync ps body =>
    (if isAsync then "async " else "") ++ "(" ++ commas (printList p.fresh ps) ++ ") => "
      ++ print { q with level := .comma, start := .arrowBody, role := .value, forbidsCall := false }
        body
  | parameter ds _ target =>
    decoratorsText (printList p.fresh ds) ++ print (p.pattern .binding) target
  | functionBody items closing =>
    let inner := p.fresh.deeper
    let tail := if closing.isEmpty then ""
      else inner.indent ++ commentsText inner.indent closing ++ "\n"
    bracedLines p (printBody inner items ++ tail)
  | classDef ds name heritage members =>
    decoratorsText (printList p.fresh ds) ++ "class" ++ (name.map (" " ++ ·)).getD ""
      ++ (match heritage with
        | some e => " extends " ++ print { p.fresh with level := .postfixed } e
        | none => "")
      ++ " " ++ bracedLines p (printLines p.fresh.deeper members)
  | decorator _ e => "@" ++ wrapped (!e.isPlainDecorator) (print p.fresh e)
  | method ds isStatic _ kind key f =>
    decoratorsText (printList p.fresh ds) ++ methodHead isStatic kind f ++ print p.fresh key
      ++ match f with
        | function _ _ _ ps body =>
          "(" ++ commas (printList p.fresh ps) ++ ") " ++ printOption p.fresh body
        | _ => ""
  | field ds m key initial =>
    decoratorsText (printList p.fresh ds) ++ fieldHead m ++ print p.fresh key
      ++ (match initial with
        | some e => " = " ++ print p.listed e
        | none => "")
      ++ ";"
  | staticBlock items => "static " ++ bracedLines p (printLines p.fresh.deeper items)
  | indexSignature => ""
  | unary op e => unaryText op (print (q.behind .exponent) e)
  | update op isPrefixed e =>
    if isPrefixed then op.text ++ print (q.behind .unary) e
    else print (q.first .postfixed) e ++ op.text
  | binary op a b =>
    let rank := op.precedence
    let left :=
      if op == .coalesce && a.isOtherLogical then Precedence.unary
      else if op == .power then (if a.isPrefixed then Precedence.call else rank)
      else rank.looser
    let right :=
      if op == .coalesce && b.isOtherLogical then Precedence.unary
      else if op == .power then rank.looser
      else rank
    print (q.first left) a ++ " " ++ op.text ++ " " ++ print (q.behind right) b
  | privateIn s e => "#" ++ s ++ " in " ++ print (q.behind .comparison) e
  | assignment op target v =>
    match p.role with
    | .value =>
      print { q.first .comma with role := .target } target ++ " " ++ op.text ++ " "
        ++ print (q.behind .comma) v
    | _ => print p target ++ " = " ++ print p.listed v
  | conditional a b c =>
    print (q.first .conditional) a ++ " ? " ++ print { q.behind .yielded with forbidsIn := false } b
      ++ " : " ++ print (q.behind .yielded) c
  | sequence es =>
    match es with
    | [] => ""
    | e :: es =>
      commas (print (q.first .comma) e :: printList (q.behind .comma) es)
  | parenthesized e => print q e
  | member e s isOptional =>
    let object := print { q with level := .postfixed, role := .value } e
    let object := match e with
      | number _ => if takesPoint object then object ++ " " else object
      | _ => object
    object ++ accessMark isOptional ++ s
  | privateMember e s isOptional =>
    print { q with level := .postfixed, role := .value } e ++ accessMark isOptional ++ "#" ++ s
  | index e key isOptional =>
    print { q with level := .postfixed, role := .value } e ++ (if isOptional then "?.[" else "[")
      ++ print p.fresh key ++ "]"
  | call f es isOptional isPure =>
    pureMark isPure ++ print (q.first .postfixed) f ++ (if isOptional then "?.(" else "(")
      ++ commas (printList p.listed es) ++ ")"
  | construct f es isPure =>
    pureMark isPure ++ "new "
      ++ print { p.fresh with level := .construction, forbidsCall := true } f
      ++ "(" ++ commas (printList p.listed es) ++ ")"
  | chain e => print { q with level := .lowest } e
  | yieldExpression isDelegate e =>
    "yield" ++ (if isDelegate then "*" else "")
      ++ match e with
        | some e => " " ++ print (q.behind .yielded) e
        | none => ""
  | awaitExpression e => "await " ++ print (q.behind .exponent) e
  | importCall _ _ e options =>
    "import(" ++ print p.listed e
      ++ (match options with
        | some o => ", " ++ print p.listed o
        | none => "")
      ++ ")"
  | importMeta => "import.meta"
  | newTarget => "new.target"
  | item _ comments s => leadingText p.indent comments ++ print p s
  | directive raw => directiveText raw ++ ";"
  | expressionStatement e =>
    wrapped (p.start == .body && e.looksLikeDirective) (print (p.starting .statement) e) ++ ";"
  | variableDeclaration kind ds =>
    kind.text ++ " " ++ commas (printList p ds) ++ (if p.start == .inside then "" else ";")
  | declarator target initial =>
    print (p.pattern .binding) target
      ++ match initial with
        | some e => " = " ++ print { p.listed with forbidsIn := p.forbidsIn } e
        | none => ""
  | functionDeclaration f => print p.fresh f
  | classDeclaration c => print p.fresh c
  | block items => bracedLines p (printLines p.fresh.deeper items)
  | emptyStatement => ";"
  | ifStatement test a b =>
    let alternate := match b with
      | some s => some (s, print (p.starting .statement) s)
      | none => none
    ifText p (print p.fresh test) a (print (p.starting .statement) a)
      (print (p.deeper.starting .statement) a) alternate
  | forStatement a b c s =>
    let part (text : String) : String := spaced text
    "for (" ++ printOption { p.fresh with forbidsIn := true } a ++ ";"
      ++ part (printOption p.fresh b) ++ ";" ++ part (printOption p.fresh c) ++ ")"
      ++ bodyText s (print (p.starting .statement) s)
  | forIn target e s =>
    "for (" ++ print { p.pattern .target with forbidsIn := true } target ++ " in "
      ++ print p.fresh e ++ ")" ++ bodyText s (print (p.starting .statement) s)
  | forOf isAwait target e s =>
    "for " ++ (if isAwait then "await " else "") ++ "("
      ++ print { p.pattern .target with forbidsIn := true } target ++ " of "
      ++ print p.listed e ++ ")" ++ bodyText s (print (p.starting .statement) s)
  | whileStatement e s =>
    "while (" ++ print p.fresh e ++ ")" ++ bodyText s (print (p.starting .statement) s)
  | doWhile s e =>
    let tail := "while (" ++ print p.fresh e ++ ");"
    if s.isBlock then "do " ++ print (p.starting .statement) s ++ " " ++ tail
    else
      "do\n" ++ p.deeper.indent ++ print (p.deeper.starting .statement) s ++ "\n" ++ p.indent
        ++ tail
  | withStatement e s =>
    "with (" ++ print p.fresh e ++ ")" ++ bodyText s (print (p.starting .statement) s)
  | returnStatement e => "return" ++ spaced (printOption p.fresh e) ++ ";"
  | throwStatement e => "throw " ++ print p.fresh e ++ ";"
  | breakStatement label => "break" ++ spaced (label.getD "") ++ ";"
  | continueStatement label => "continue" ++ spaced (label.getD "") ++ ";"
  | labeled label s => label ++ ":" ++ bodyText s (print (p.starting .statement) s)
  | tryStatement s handler finalizer =>
    "try " ++ print p.fresh s ++ spaced (printOption p.fresh handler)
      ++ match finalizer with
        | some f => " finally " ++ print p.fresh f
        | none => ""
  | catchClause target s =>
    "catch "
      ++ (match target with
        | some t => "(" ++ print (p.pattern .binding) t ++ ") "
        | none => "")
      ++ print p.fresh s
  | switchStatement e cases =>
    "switch (" ++ print p.fresh e ++ ") " ++ bracedLines p (printLines p.fresh.deeper cases)
  | switchCase test items =>
    (match test with
      | some e => "case " ++ print p.fresh e ++ ":"
      | none => "default:")
      ++ match items with
        | [s] => bodyText s (print (p.starting .statement) s)
        | items =>
          let lines := printLines p.fresh.deeper items
          if lines.isEmpty then "" else "\n" ++ (lines.dropEnd 1).toString
  | debuggerStatement => "debugger;"
  | importDeclaration d => d.text
  | exportList l => l.text
  | exportAll a => a.text
  | exportDeclaration _ d => "export " ++ print (p.starting .statement) d
  | exportDefault _ e =>
    if e.endsOpen then "export default " ++ print p.fresh e
    else "export default " ++ print { p.starting .exportDefault with level := .comma } e ++ ";"
  | typeDeclaration _ => ""
  | ambient _ => ""
  | ambientModule _ => ""
  | enumDeclaration .. => ""
  | enumMember .. => ""
  | namespaceDeclaration .. => ""
  | importEquals .. => ""
  | exportAssignment _ => ""

/-- The texts of several nodes in the same place. -/
def printList (p : Place) : List Node → List String
  | [] => []
  | n :: ns => print p n :: printList p ns

/-- The text of a node that may be missing. -/
def printOption (p : Place) : Option Node → String
  | some n => print p n
  | none => ""

/-- The lines of several statements or elements. -/
def printLines (p : Place) : List Node → String
  | [] => ""
  | n :: ns => p.indent ++ print (p.starting .statement) n ++ "\n" ++ printLines p ns

/-- The lines of the body of a script or function. -/
def printBody (p : Place) : List Node → String
  | [] => ""
  | n :: ns => p.indent ++ print (p.starting .body) n ++ "\n" ++ printLines p ns

end

end Node

/-- The place of the outermost statements. -/
def Place.outermost : Place := ⟨0, .lowest, .statement, .value, false, false⟩

/-- The text of a script. -/
def Module.print (m : Module) : String :=
  (m.interpreter.map fun line ↦ "#!" ++ line ++ "\n").getD ""
    ++ Node.printBody .outermost m.items
    ++ (if m.closing.isEmpty then "" else commentsText "" m.closing ++ "\n")

end Downlevel.Script
