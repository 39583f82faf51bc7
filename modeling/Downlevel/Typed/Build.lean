import Downlevel.Script.Scope

/-!
# Statements that stand for typed ones

Enumerations, namespaces and some imports exist when a script runs, but have no form of their own in
a script without types. This module builds the statements that do the same.
-/

namespace Downlevel.Typed

open Script

/-- The span of what stands nowhere in the script. -/
def nowhere : Span := ⟨0, 0⟩

/-- A statement that stands nowhere in the script. -/
def statement (body : Node) : Node := .item nowhere [] body

/-- A string. -/
def stringNode (s : String) : Node := .string (.ofString s)

/-- A parameter of a name. -/
def nameParameter (n : String) : Node := .parameter [] false (.identifier n)

/-- `target = value` -/
def assign (target value : Node) : Node := .assignment .plain target value

/-- `object.name` -/
def access (object name : String) : Node := .member (.identifier object) name false

/-- A declaration of one variable. -/
def singleVariable (kind : VariableKind) (n : String) (value : Option Node) : Node :=
  .variableDeclaration kind [.declarator (.identifier n) value]

/-! ## Enumerations -/

/-- Whether the value of a member is a string as it stands. -/
def isString : Node → Bool
  | .string _ => true
  | _ => false

/-- The statement that gives a member of an enumeration its value. Unless that is a string, the
member can be found by it. -/
def memberStatement (enumName n : String) (value : Node) : Node :=
  let write := assign (.index (.identifier enumName) (stringNode n) false) value
  statement <| .expressionStatement <|
    if isString value then write
    else assign (.index (.identifier enumName) write false) (stringNode n)

/-- Whether a member calls something for its value. -/
def calls : Node → Bool
  | .enumMember _ (some (.call ..)) | .enumMember _ (some (.construct ..)) => true
  | _ => false

/-- The object of an enumeration: what there is of it already, or a new one. -/
def enumObject (enumName : String) (isNew : Bool) : Node :=
  if isNew then .object [] else .binary .or (.identifier enumName) (.object [])

/-- The expression that builds an enumeration by statements for its members. -/
def enumValue (enumName : String) (isNew isPure : Bool) (members : List Node) : Node :=
  let body := members ++ [statement (.returnStatement (some (.identifier enumName)))]
  .call (.function none false false [nameParameter enumName] (some (.functionBody body [])))
    [enumObject enumName isNew] false isPure

/-! ## Namespaces -/

/-- The object of a namespace: what there is of it already, or a new one, which is also what its
parent holds. -/
def namespaceObject (n : String) (parent : Option String) : Node :=
  let fresh (place : Node) : Node :=
    .binary .or place (.parenthesized (assign place (.object [])))
  match parent with
  | none => fresh (.identifier n)
  | some p =>
    .binary .or (.identifier n)
      (.parenthesized (assign (.identifier n) (fresh (access p n))))

/-- The statement that runs the body of a namespace. -/
def namespaceCall (comments : List Comment) (n inner : String) (parent : Option String)
    (body : List Node) : Node :=
  .item nowhere comments <| .expressionStatement <|
    .call
      (.parenthesized
        (.function none false false [nameParameter inner] (some (.functionBody body []))))
      [namespaceObject n parent] false false

/-- The statements of a namespace: a variable, unless it is declared already, and the call. -/
def namespaceStatements (comments : List Comment) (n inner : String) (parent : Option String)
    (declares exported : Bool) (body : List Node) : List Node :=
  let declaration := singleVariable .letVariable n none
  let declared := if exported then .exportDeclaration nowhere declaration else declaration
  (if declares then [statement declared] else []) ++ [namespaceCall comments n inner parent body]

/-- The statement that makes a name of a namespace known outside. -/
def publish (inner n : String) : Node := assign (access inner n) (.identifier n)

/-- A variable of a namespace with the value that it also has outside. -/
def publishedDeclarator (inner : String) : Node → Node
  | .declarator (.identifier n) (some v) =>
    .declarator (.identifier n) (some (assign (access inner n) v))
  | d => d

/-- Whether a variable is declared by its name. -/
def isNamed : Node → Bool
  | .declarator (.identifier _) _ => true
  | _ => false

/-- The statements for constants of a namespace that are known outside. -/
def publishedVariables (span : Span) (comments : List Comment) (inner : String)
    (ds : List Node) : List Node :=
  if ds.all isNamed then
    [.item span comments (.variableDeclaration .constant (ds.map (publishedDeclarator inner)))]
  else
    [.item span comments (.variableDeclaration .constant ds),
      statement (.expressionStatement
        (.sequence ((Node.boundNamesOfList ds).map (publish inner))))]

/-! ## Imports of names -/

/-- The variable for an import of a name. -/
def aliasDeclaration (n : String) (reference : Node) : Node :=
  match reference with
  | .call .. => singleVariable .constant n (some reference)
  | _ => singleVariable .var n (some reference)

/-! ## Fields declared by parameters -/

/-- The name of a field that a parameter declares. -/
def fieldName? : Node → Option String
  | .parameter _ true p => (Node.boundNames p).head?
  | _ => none

/-- The statement that fills a field from a parameter. -/
def fieldStatement (n : String) : Node :=
  statement (.expressionStatement (assign (.member .thisValue n false) (.identifier n)))

/-- Whether a statement calls the constructor of the parent class. -/
def callsSuper : Node → Bool
  | .item _ _ (.expressionStatement (.call .superValue ..)) => true
  | _ => false

/-- Puts statements behind the call of the constructor of the parent class, or in front of all. -/
def insertFields (fields items : List Node) : List Node :=
  match items.findIdx? callsSuper with
  | some i => items.take (i + 1) ++ fields ++ items.drop (i + 1)
  | none =>
    let isDirective : Node → Bool
      | .item _ _ (.directive _) => true
      | _ => false
    items.takeWhile isDirective ++ fields ++ items.dropWhile isDirective

/-- A body that fills the fields that parameters declare. -/
def fillFields (parameters : List Node) : Option Node → Option Node
  | some (.functionBody items closing) =>
    let fields := (parameters.filterMap fieldName?).map fieldStatement
    some (.functionBody (insertFields fields items) closing)
  | body => body

end Downlevel.Typed
