import Downlevel.Script.Grammar.Function

/-!
# Classes

Class definitions and their elements. Words that only matter to types are read where types may be
written; fields that are declared, left to subclasses or stored behind accessors keep a note of it.
-/

namespace Downlevel.Script.Grammar

variable (r : Rules)

/-- Whether the key of a class element or of a method may start with a token. -/
def startsKey (t : Token) : Bool :=
  match t.kind with
  | .word .. | .string .. | .number _ | .bigint _ | .privateWord _ => true
  | .mark m => m == "["
  | _ => false

/-- Whether a token is a word that modifies a class element. -/
def isModifier (typed : Bool) (t : Token) : Bool :=
  ["static", "accessor", "declare"].any t.isWord ||
    (typed && ["public", "private", "protected", "abstract", "override", "readonly"].any t.isWord)

/-- The modifiers of a class element. -/
def modifiers : Reader (List String) := do
  let typed ← isTyped
  let reversed ← repeatFrom [] fun words ↦ do
    let t ← peek
    let following ← peekSecond
    let continues := startsKey following || following.isMark "*"
    if isModifier typed t && continues && (t.isWord "static" || !following.afterNewline) then
      return some ((← anyWord) :: words)
    else return none
  return reversed.reverse

/-- What kind of method the words in front of a key announce: whether it is asynchronous, whether it
is a generator, and whether it is a getter or a setter. -/
def methodWords : Reader (Bool × Bool × MethodKind) := do
  let t ← peek
  let following ← peekSecond
  let isAsync := t.isWord "async" && !following.afterNewline
    && (startsKey following || following.isMark "*")
  if isAsync then skip
  let isGenerator ← takeMark "*"
  let t ← peek
  let isKind := !isAsync && !isGenerator && startsKey (← peekSecond)
  if isKind && t.isWord "get" then
    skip
    return (false, false, .getter)
  else if isKind && t.isWord "set" then
    skip
    return (false, false, .setter)
  else return (isAsync, isGenerator, .plain)

/-- Whether a key is a given name, written as a word or as a string. -/
def isNamed (n : String) : Node → Bool
  | .propertyName m => m == n
  | .string s => s.value == n
  | _ => false

/-- Whether a class may have an element with a key: no private element is named `constructor`, no
static one `prototype`, and any other one named `constructor` is a plain method. -/
def isElementKey (isStatic isPlainMethod : Bool) : Node → Bool
  | .privateName n => n != "constructor"
  | key =>
    if isStatic then !isNamed "prototype" key else isPlainMethod || !isNamed "constructor" key

/-- Whether parameters follow. -/
def isAtParameters : Reader Bool :=
  return (← isAtMark "(") || ((← isTyped) && (← isAtLess))

/-- A field behind its key. -/
def fieldRest (ds : List Node) (words : List String) (key : Node) : Reader Node := do
  if ← isTyped then let _ ← takeMark "!"
  optionalAnnotation r
  let value : Reader Node :=
    within (fun ctx ↦ { ctx with inFunction := false, isAsync := false, isGenerator := false })
      (inside r.assignment)
  let initial ← if ← takeMark "=" then pure (some (← value)) else pure none
  semicolon
  guardThat (isElementKey (words.contains "static") false key)
  let modifiers : FieldModifiers :=
    ⟨words.contains "static", words.contains "declare", words.contains "abstract",
      words.contains "accessor"⟩
  return .field ds modifiers key initial

/-- A class element behind its decorators and modifiers. -/
def elementRest (ds : List Node) (words : List String) : Reader Node := do
  let (isAsync, isGenerator, kind) ← methodWords
  let key ← memberKey r
  optionalMark
  let isStatic := words.contains "static"
  if isAsync || isGenerator || kind != .plain || (← isAtParameters) then
    let f ← functionRest r none isAsync isGenerator
    let isPlain := kind == .plain && !isAsync && !isGenerator
    guardThat (isElementKey isStatic isPlain key && fitsKind kind f)
    let kind := if isPlain && !isStatic && isNamed "constructor" key then .constructor else kind
    return .method ds isStatic (words.contains "abstract") kind key f
  else fieldRest r ds words key

/-- A class element, or nothing for a semicolon. -/
def classElement : Reader (Option Node) := do
  if ← takeMark ";" then return none
  else
    let t ← peek
    let ds ← decorators r
    let body ← if (← isAtWord "static") && (← peekSecond).isMark openBrace then do
        skip
        let block := within ({ · with inFunction := false, isAsync := true, isGenerator := false })
          (blockItems r)
        pure (.staticBlock (← block))
      else do
        let words ← modifiers
        let isIndex ← if ← isTyped then attempt (indexSignature r) else pure none
        match isIndex with
        | some _ =>
          memberEnd
          pure .indexSignature
        | none => elementRest r ds words
    return some (.item (← spanFrom t.span.start) t.comments body)

/-- The elements of a class with their braces. -/
def classBody : Reader (List Node) := do
  mark openBrace
  let elements ← inside (readUntil (·.isMark closeBrace) (classElement r))
  mark closeBrace
  return elements.filterMap id

/-- A class behind its decorators. -/
def classRest (ds : List Node) : Reader Node := do
  word "class"
  let t ← peek
  let isName := t.name?.isSome && !((← isTyped) && t.isWord "implements")
  let n ← if isName then some <$> name else pure none
  typeParameters r
  let heritage ← if ← takeWord "extends" then do
      let e ← r.leftHandSide
      if (← isTyped) && (← isAtLess) then typeArguments r
      pure (some e)
    else pure none
  let hasInterfaces ← if ← isTyped then takeWord "implements" else pure false
  if hasInterfaces then
    let _ ← commaSeparated r.type
  return .classDef ds n heritage (← classBody r)

end Downlevel.Script.Grammar
