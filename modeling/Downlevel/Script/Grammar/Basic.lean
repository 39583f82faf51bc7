import Downlevel.Script.Scanner

/-!
# Reading by a grammar

The machinery of the grammar: where a reader stands, what it knows of its surroundings, and how
rules are put together. A rule either reads something and moves on or fails; nothing is remembered
of a failure, so trying a rule is trying it on a copy of the place.

The rules of the grammar refer to each other. `Rules` collects those that others enter after they
have read a token, and every rule takes such a collection. Tying the knot a number of times that no
nesting can exceed (`Rules.nested`) gives the grammar of all scripts of a size.
-/

namespace Downlevel.Script.Grammar

/-! ## Readers -/

/-- What a rule knows of its surroundings. -/
structure Context where
  /-- Whether types may be written. -/
  typed : Bool
  /-- A bound of the number of tokens. -/
  size : Nat
  /-- Whether `in` is an operator here. -/
  allowsIn : Bool
  /-- Whether `return` may stand here. -/
  inFunction : Bool
  /-- Whether `await` is an operator here. -/
  isAsync : Bool
  /-- Whether `yield` is an operator here. -/
  isGenerator : Bool
  /-- Whether only things that exist elsewhere are declared here. -/
  isAmbient : Bool
  /-- Whether a colon behind the parameters of an arrow function starts a type. -/
  allowsArrowType : Bool
  /-- Whether a type may be conditional here. -/
  allowsConditionalType : Bool
  /-- Whether a bracket may start an access to an element here. -/
  allowsIndex : Bool

/-- Where a reader stands. -/
structure Cursor where
  /-- The next token. -/
  token : Token
  /-- What follows that token. -/
  rest : List Char
  /-- Where the last token read ends. -/
  lastStop : Nat
  /-- Whether an object with a default value, which only a pattern may have, was read as a value. -/
  hasDefault : Bool
  /-- The nodes that were read within types, which leave nothing else behind, the last one first. -/
  inTypes : List Node

/-- A rule of the grammar. -/
abbrev Reader (α : Type) := ReaderT Context (StateT Cursor Option) α

instance {α : Type} : Inhabited (Reader α) := ⟨fun _ _ ↦ none⟩

/-- Reads nothing and fails. -/
def fail {α : Type} : Reader α := fun _ _ ↦ none

/-- The next token. -/
def peek : Reader Token := fun _ c ↦ some (c.token, c)

/-- The next token and what follows it. -/
def place : Reader Cursor := fun _ c ↦ some (c, c)

/-- Goes on from a place. -/
def continueAt (c : Cursor) : Reader Unit := fun _ _ ↦ some ((), c)

/-- Where the next token starts. -/
def position : Reader Nat := fun _ c ↦ some (c.token.span.start, c)

/-- Where the last token ended. -/
def lastStop : Reader Nat := fun _ c ↦ some (c.lastStop, c)

/-- The span from a start to the end of the last token. -/
def spanFrom (start : Nat) : Reader Span := fun _ c ↦ some (⟨start, c.lastStop⟩, c)

/-- Whether a comment behind a token never belongs to the line of that token. -/
def opensGap (t : Token) : Bool := t.isMark "(" || t.isMark "="

/-- The place behind the next token. -/
def Cursor.advance (c : Cursor) : Cursor :=
  let (token, rest) := Scanner.next (opensGap c.token) false c.token.span.stop c.rest
  ⟨token, rest, c.token.span.stop, c.hasDefault, c.inTypes⟩

/-- Moves behind the next token. -/
def skip : Reader Unit := fun _ c ↦ some ((), c.advance)

/-- The token behind the next one. -/
def peekSecond : Reader Token := fun _ c ↦ some (c.advance.token, c)

/-- Fails unless a condition holds. -/
def guardThat (b : Bool) : Reader Unit := if b then pure () else fail

/-- What a rule reads, or nothing if it fails. -/
def attempt {α : Type} (p : Reader α) : Reader (Option α) := fun ctx c ↦
  match p ctx c with
  | some (a, c) => some (some a, c)
  | none => some (none, c)

/-- Reads in other surroundings. -/
def within {α : Type} (f : Context → Context) (p : Reader α) : Reader α := fun ctx ↦ p (f ctx)

/-- What a rule knows of its surroundings, asked by a question. -/
def ask {α : Type} (f : Context → α) : Reader α := fun ctx c ↦ some (f ctx, c)

/-- In surroundings that brackets of any kind delimit. -/
def inside {α : Type} : Reader α → Reader α :=
  within fun ctx ↦ { ctx with allowsIn := true, allowsArrowType := true, allowsIndex := true }

/-- Whether types may be written. -/
def isTyped : Reader Bool := fun ctx c ↦ some (ctx.typed, c)

/-- Succeeds where types may be written. -/
def typedOnly : Reader Unit := do guardThat (← isTyped)

/-! ## Tokens -/

/-- Whether the next token is a piece of punctuation. -/
def isAtMark (s : String) : Reader Bool := return (← peek).isMark s

/-- Whether the next token is a word, written without escapes. -/
def isAtWord (s : String) : Reader Bool := return (← peek).isWord s

/-- Reads a piece of punctuation if it is next, and tells whether it was. -/
def takeMark (s : String) : Reader Bool := do
  if ← isAtMark s then
    skip
    return true
  else return false

/-- Reads a word if it is next, and tells whether it was. -/
def takeWord (s : String) : Reader Bool := do
  if ← isAtWord s then
    skip
    return true
  else return false

/-- Reads a piece of punctuation. -/
def mark (s : String) : Reader Unit := do guardThat (← takeMark s)

/-- Reads a word. -/
def word (s : String) : Reader Unit := do guardThat (← takeWord s)

/-- Whether a word is an operator here. -/
def isOperatorHere (ctx : Context) (w : String) : Bool :=
  (w == "await" && ctx.isAsync) || (w == "yield" && ctx.isGenerator)

/-- Reads a name: a word that is not reserved and no operator here. -/
def name : Reader String := do
  match (← peek).name? with
  | some n =>
    guardThat (!isOperatorHere (← read) n)
    skip
    return n
  | none => fail

/-- Reads a word, reserved or not. -/
def anyWord : Reader String := do
  match (← peek).word? with
  | some n =>
    skip
    return n
  | none => fail

/-- Reads a string. -/
def stringLiteral : Reader StringLiteral := do
  let t ← peek
  match t.kind with
  | .string codePoints _ =>
    skip
    return ⟨t.span, codePoints⟩
  | _ => fail

/-- Reads the start of a template; the flag tells whether the template ends there. -/
def templateHead : Reader (TemplateChunk × Bool) := do
  match (← peek).kind with
  | .template chunk isLast =>
    skip
    return (chunk, isLast)
  | _ => fail

/-- Reads a closing brace as the end of a substitution, and the template up to the next one. -/
def templateTail : Reader (TemplateChunk × Bool) := fun _ c ↦
  if c.token.isMark closeBrace then
    match Literal.chunk c.token.span.stop c.rest with
    | some (chunk, w, isLast, rest) =>
      let stop := c.token.span.stop + w
      let (token, rest) := Scanner.next false false stop rest
      some ((chunk, isLast), ⟨token, rest, stop, c.hasDefault, c.inTypes⟩)
    | none => none
  else none

/-- The end of a statement: a semicolon, or a place where one may be left out. -/
def semicolon : Reader Unit := do
  if ← takeMark ";" then pure ()
  else
    let t ← peek
    guardThat (t.isMark closeBrace || t.isFinish || t.afterNewline)

/-- Whether a statement may end before a token. -/
def mayEndBefore (t : Token) : Bool :=
  t.isMark ";" || t.isMark closeBrace || t.isFinish || t.afterNewline

/-- Reads the first character of the next token, which is `<` or `>`, as a token of its own. -/
def takeAngle (c : Char) : Reader Unit := fun _ cursor ↦
  match cursor.token.kind with
  | .mark m =>
    match m.toList with
    | d :: tail =>
      if c = d then
        let stop := cursor.token.span.start + 1
        let (token, rest) := Scanner.next false false stop (tail ++ cursor.rest)
        some ((), ⟨token, rest, stop, cursor.hasDefault, cursor.inTypes⟩)
      else none
    | [] => none
  | _ => none

/-- Whether the next token starts with `<`. -/
def isAtLess : Reader Bool := do
  let t ← peek
  return t.isMark "<" || t.isMark "<<"

/-- The spelling of an operator that starts with `>`, if that is the next token: only `>` itself is
a token. -/
def greaterSpelling (c : Cursor) : Option String :=
  if c.token.isMark ">" then
    let operators := [">>>=", ">>>", ">>=", ">>", ">="]
    some ((operators.find? fun s ↦ (s.toList.drop 1).isPrefixOf c.rest).getD ">")
  else none

/-- The spelling of the punctuation that is next, with operators that start with `>` put
together. -/
def spelling : Reader (Option String) := fun _ c ↦
  match greaterSpelling c with
  | some s => some (some s, c)
  | none =>
    match c.token.kind with
    | .mark m => some (some m, c)
    | _ => some (none, c)

/-- Reads the operator that is next, which has a given spelling. -/
def takeOperator (s : String) : Reader Unit := fun _ c ↦
  match greaterSpelling c with
  | none => some ((), c.advance)
  | some t =>
    -- What follows the `>` in the spelling is not part of its token.
    if t = s then
      let stop := c.token.span.start + s.length
      let (token, rest) := Scanner.next false false stop (c.rest.drop (s.length - 1))
      some ((), ⟨token, rest, stop, c.hasDefault, c.inTypes⟩)
    else none

/-! ## Repetition -/

/-- Repeats a step as long as it reads something. -/
def grow {α : Type} (step : α → Reader (Option α)) : Nat → α → Reader α
  | 0, _ => fail
  | n + 1, a => do
    match ← step a with
    | some b => grow step n b
    | none => return a

/-- Repeats a step, starting from a value, as long as it reads something. -/
def repeatFrom {α : Type} (a : α) (step : α → Reader (Option α)) : Reader α := fun ctx ↦
  grow step ctx.size a ctx

/-- Reads elements until a token is met, which is not read. -/
def readUntil {α : Type} (isEnd : Token → Bool) (element : Reader α) : Reader (List α) := do
  let reversed ← repeatFrom [] fun as ↦ do
    if isEnd (← peek) then return none
    else return some ((← element) :: as)
  return reversed.reverse

/-- Reads elements between commas up to and with a closing mark, before which a comma may stand.
The flag tells whether one does. -/
def listUpTo {α : Type} (close : String) (element : Reader α) : Reader (List α × Bool) := do
  let (reversed, _, hasComma) ← repeatFrom (([] : List α), true, false) fun (as, again, _) ↦ do
    if !again || (← isAtMark close) then return none
    else
      let a ← element
      let more ← takeMark ","
      return some (a :: as, more, more)
  mark close
  return (reversed.reverse, hasComma)

/-- Elements between commas, at least one. -/
def commaSeparated {α : Type} (element : Reader α) : Reader (List α) := do
  let first ← element
  let reversed ← repeatFrom [first] fun as ↦ do
    if ← takeMark "," then return some ((← element) :: as) else return none
  return reversed.reverse

/-! ## The rules that refer to each other -/

/-- The rules that others enter after they have read a token. -/
structure Rules where
  /-- A type. -/
  type : Reader Unit
  /-- A type that stands in front of its postfixes and operators. -/
  typeOperand : Reader Unit
  /-- An expression without commas outside brackets. -/
  assignment : Reader Node
  /-- An expression. -/
  expression : Reader Node
  /-- An operand with the operators in front of it. -/
  unary : Reader Node
  /-- An operand of an operator that binds as tightly as given. -/
  operand : Nat → Reader Node
  /-- An operand without operators in front of it or behind it. -/
  leftHandSide : Reader Node
  /-- The operand of `new`. -/
  constructed : Reader Node
  /-- A pattern that binds names. -/
  binding : Reader Node
  /-- A pattern that assigns to places. -/
  target : Reader Node
  /-- A statement; the flag tells whether it is the only one of its kind, as the body of a loop. -/
  statement : Bool → Reader Node
  deriving Inhabited

/-- The first part of a statement's item: where it starts and which comments stand in front. -/
def itemOf (body : Reader Node) : Reader Node := do
  let t ← peek
  let node ← body
  return .item (← spanFrom t.span.start) t.comments node

end Downlevel.Script.Grammar
