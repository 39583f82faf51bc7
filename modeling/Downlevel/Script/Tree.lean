import Downlevel.Script.Operator
import Downlevel.Text.Span

/-!
# Script trees

The tree of a script, in plain or typed dialect. Types leave no trace in it: an annotation or a cast
has no meaning when the script runs, so the grammar reads it and forgets it. Declarations of types
do appear, because removing them is visible. The expressions that stand within types, such as keys
in brackets, are kept apart from the statements, because what they contain can be refused.

One type of node serves expressions, patterns, class elements and statements. Every walk over a tree
is then one structural recursion with a companion for lists and one for optional nodes.

Patterns share the nodes of the expressions they look like: `array`, `object` and `spread` bind or
assign when they stand where a pattern is meant, and a default value is an `assignment`.

Spans are kept where something is cut out of the script or looked at in it: items (statements and
class elements), literals, decorators, dynamic imports and exported declarations.
-/

namespace Downlevel.Script

/-- A comment that stands on its own in front of a token. -/
structure Comment where
  /-- The comment with its delimiters. -/
  text : String
  /-- Whether it runs to the end of the line. -/
  isLine : Bool
  /-- Whether a line break comes between it and the token or comment before. -/
  afterNewline : Bool
  /-- Whether a line break follows it. -/
  beforeNewline : Bool
  deriving DecidableEq, Inhabited, Repr

/-- A string literal. Its value is a sequence of code points, lone surrogates included. -/
structure StringLiteral where
  /-- Where it stands, quotes included. -/
  span : Span
  /-- What it denotes. -/
  codePoints : List Nat
  deriving DecidableEq, Inhabited, Repr

/-- The string of a sequence of code points; a lone surrogate becomes U+FFFD. -/
def ofCodePoints (points : List Nat) : String :=
  String.ofList (points.map fun n ↦ if 0xd800 ≤ n ∧ n < 0xe000 then '\ufffd' else Char.ofNat n)

/-- The string that a literal denotes. -/
def StringLiteral.value (s : StringLiteral) : String := ofCodePoints s.codePoints

/-- The literal of a string that stands nowhere in the script. -/
def StringLiteral.ofString (s : String) : StringLiteral := ⟨⟨0, 0⟩, s.toList.map Char.toNat⟩

/-- The text of a template between two substitutions. -/
structure TemplateChunk where
  /-- Where it stands, without the delimiters. -/
  span : Span
  /-- The text as written, line breaks unified. -/
  raw : String
  /-- What it denotes, unless it has an escape that denotes nothing. -/
  codePoints : Option (List Nat)
  deriving DecidableEq, Inhabited, Repr

/-- The name under which a module exports something: an identifier or any string. -/
inductive ExportName where
  | name (name : String)
  | string (literal : StringLiteral)
  deriving DecidableEq, Inhabited, Repr

/-- The name that is meant. -/
def ExportName.text : ExportName → String
  | name n => n
  | string s => s.value

/-- What an import declaration binds. -/
inductive ImportSpecifier where
  | defaultExport (localName : String)
  | wholeModule (localName : String)
  | named (imported : ExportName) (localName : String) (isType : Bool)
  deriving DecidableEq, Inhabited, Repr

/-- The name that a specifier binds. -/
def ImportSpecifier.localName : ImportSpecifier → String
  | defaultExport n | wholeModule n | named _ n _ => n

/-- An attribute of an import: a key and its value. -/
structure ImportAttribute where
  key : ExportName
  value : StringLiteral
  deriving DecidableEq, Inhabited, Repr

/-- An import declaration. -/
structure ImportDeclaration where
  /-- What is bound; nothing at all for an import for its effects. -/
  specifiers : Option (List ImportSpecifier)
  /-- The module. -/
  source : StringLiteral
  /-- The attributes, if there is a list of them. -/
  attributes : Option (List ImportAttribute)
  /-- Whether only types are imported. -/
  isType : Bool
  deriving DecidableEq, Inhabited, Repr

/-- One name of an export list. -/
structure ExportSpecifier where
  /-- What is exported. -/
  source : ExportName
  /-- The name it is exported under. -/
  exported : ExportName
  /-- Whether it is a type. -/
  isType : Bool
  deriving DecidableEq, Inhabited, Repr

/-- A list of exports of this module, or of exports passed on from another one. -/
structure ExportList where
  specifiers : List ExportSpecifier
  /-- The module they are passed on from. -/
  source : Option StringLiteral
  attributes : Option (List ImportAttribute)
  /-- Whether only types are exported. -/
  isType : Bool
  deriving DecidableEq, Inhabited, Repr

/-- Passes on everything that a module exports, as it is or as one object. -/
structure ExportAll where
  /-- The name of the object. -/
  exported : Option ExportName
  source : StringLiteral
  attributes : Option (List ImportAttribute)
  /-- Whether only types are exported. -/
  isType : Bool
  deriving DecidableEq, Inhabited, Repr

/-- How variables are declared. -/
inductive VariableKind where
  | var | letVariable | constant | disposable | asyncDisposable
  deriving DecidableEq, Inhabited, Repr

/-- What a method is. -/
inductive MethodKind where
  | plain | getter | setter | constructor
  deriving DecidableEq, Inhabited, Repr

/-- What a field of a class is. -/
structure FieldModifiers where
  isStatic : Bool
  /-- Whether the field is only declared. -/
  isDeclared : Bool
  /-- Whether the field is left to subclasses. -/
  isAbstract : Bool
  /-- Whether the field is stored behind a getter and a setter. -/
  isAccessor : Bool
  deriving DecidableEq, Inhabited, Repr

/-- A node of the tree of a script. -/
inductive Node where
  /-- A name that is bound or referred to. -/
  | identifier (name : String)
  /-- A name behind a point or as a key. -/
  | propertyName (name : String)
  /-- A private name, without its `#`. -/
  | privateName (name : String)
  /-- A key in brackets. -/
  | computed (key : Node)
  | thisValue
  | superValue
  | nullLiteral
  | boolean (value : Bool)
  | number (value : Float)
  | bigint (value : Nat)
  | string (literal : StringLiteral)
  | regex (pattern flags : String)
  | template (chunks : List TemplateChunk) (substitutions : List Node)
  | taggedTemplate (tag template : Node)
  | array (elements : List Node)
  /-- An element left out. -/
  | hole
  /-- `...x` in an array, an object, an argument list or a pattern. -/
  | spread (argument : Node)
  | object (properties : List Node)
  /-- `key: value` -/
  | property (key value : Node)
  /-- `name` in an object, or `name = initial` in a pattern. -/
  | shorthand (name : String) (initial : Option Node)
  /-- A function; without a body it is an overload or left to subclasses. -/
  | function (name : Option String) (isAsync isGenerator : Bool) (parameters : List Node)
      (body : Option Node)
  /-- An arrow function; its body is an expression or a `functionBody`. -/
  | arrow (isAsync : Bool) (parameters : List Node) (body : Node)
  /-- A parameter; `isProperty` if it also declares a field. -/
  | parameter (decorators : List Node) (isProperty : Bool) (target : Node)
  /-- The body of a function, with the comments before its closing brace. -/
  | functionBody (items : List Node) (closing : List Comment)
  | classDef (decorators : List Node) (name : Option String) (heritage : Option Node)
      (members : List Node)
  | decorator (span : Span) (expression : Node)
  /-- A method of a class or an object. -/
  | method (decorators : List Node) (isStatic isAbstract : Bool) (kind : MethodKind)
      (key function : Node)
  | field (decorators : List Node) (modifiers : FieldModifiers) (key : Node)
      (initial : Option Node)
  | staticBlock (items : List Node)
  /-- The type of the fields that a class does not name. -/
  | indexSignature
  | unary (operator : UnaryOperator) (operand : Node)
  | update (operator : UpdateOperator) (isPrefixed : Bool) (operand : Node)
  | binary (operator : BinaryOperator) (left right : Node)
  /-- `#name in object` -/
  | privateIn (name : String) (object : Node)
  | assignment (operator : AssignmentOperator) (target value : Node)
  | conditional (test consequent alternate : Node)
  | sequence (expressions : List Node)
  | parenthesized (expression : Node)
  | member (object : Node) (name : String) (isOptional : Bool)
  | privateMember (object : Node) (name : String) (isOptional : Bool)
  | index (object key : Node) (isOptional : Bool)
  /-- A call; `isPure` if a comment promises that it has no effect. -/
  | call (callee : Node) (arguments : List Node) (isOptional isPure : Bool)
  | construct (callee : Node) (arguments : List Node) (isPure : Bool)
  /-- The end of a chain of accesses of which one is optional. -/
  | chain (expression : Node)
  | yieldExpression (isDelegate : Bool) (argument : Option Node)
  | awaitExpression (argument : Node)
  /-- A dynamic import, with its span and that of its argument. -/
  | importCall (span argumentSpan : Span) (argument : Node) (options : Option Node)
  | importMeta
  | newTarget
  /-- A statement or class element, with the comments in front of it. -/
  | item (span : Span) (leading : List Comment) (body : Node)
  /-- A string at the start of a body that configures it, as written between the quotes. -/
  | directive (raw : String)
  | expressionStatement (expression : Node)
  | variableDeclaration (kind : VariableKind) (declarators : List Node)
  | declarator (target : Node) (initial : Option Node)
  | functionDeclaration (function : Node)
  | classDeclaration (definition : Node)
  | block (items : List Node)
  | emptyStatement
  | ifStatement (test consequent : Node) (alternate : Option Node)
  | forStatement (initial test update : Option Node) (body : Node)
  | forIn (target object body : Node)
  | forOf (isAwait : Bool) (target object body : Node)
  | whileStatement (test body : Node)
  | doWhile (body test : Node)
  | withStatement (object body : Node)
  | returnStatement (argument : Option Node)
  | throwStatement (argument : Node)
  | breakStatement (label : Option String)
  | continueStatement (label : Option String)
  | labeled (label : String) (body : Node)
  | tryStatement (block : Node) (handler finalizer : Option Node)
  | catchClause (parameter : Option Node) (body : Node)
  | switchStatement (discriminant : Node) (cases : List Node)
  /-- A case of a switch; without a test, the default one. -/
  | switchCase (test : Option Node) (items : List Node)
  | debuggerStatement
  | importDeclaration (declaration : ImportDeclaration)
  | exportList (list : ExportList)
  | exportAll (all : ExportAll)
  /-- An exported declaration, with the span of the declaration itself. -/
  | exportDeclaration (inner : Span) (declaration : Node)
  /-- The default export, with the span of what is exported. -/
  | exportDefault (inner : Span) (value : Node)
  /-- A declaration of a type. -/
  | typeDeclaration (name : String)
  /-- A declaration of something that exists elsewhere. -/
  | ambient (declaration : Node)
  /-- A module or the global scope described from outside. -/
  | ambientModule (items : List Node)
  | enumDeclaration (name : String) (members : List Node)
  | enumMember (name : String) (initial : Option Node)
  /-- `namespace a.b.c { … }` -/
  | namespaceDeclaration (names : List String) (items : List Node)
  /-- `import name = reference`, where `require(…)` refers to a module. -/
  | importEquals (name : String) (isType : Bool) (reference : Node)
  /-- `export = value` -/
  | exportAssignment (value : Node)
  deriving Inhabited

/-- A whole script: its interpreter line, its statements, and the comments at its end. -/
structure Module where
  /-- The first line, if it names an interpreter, without the `#!`. -/
  interpreter : Option String
  /-- The statements, each an `item`. -/
  items : List Node
  /-- The comments behind the last statement. -/
  closing : List Comment
  /-- The expressions and patterns that stand within types. -/
  inTypes : List Node
  deriving Inhabited

end Downlevel.Script
