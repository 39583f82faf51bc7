import Downlevel.Script.Tree

/-!
# Tokens

What a script is made of between blanks and comments. A token knows where it stands, whether a line
break comes before it, and which comments stand in front of it.
-/

namespace Downlevel.Script

/-- What a token is. -/
inductive TokenKind where
  /-- A name or keyword; `isEscaped` if it was written with escapes, which no keyword is. -/
  | word (text : String) (isEscaped : Bool)
  /-- A name behind `#`. -/
  | privateWord (text : String)
  /-- Punctuation. -/
  | mark (text : String)
  | number (value : Float)
  | bigint (value : Nat)
  /-- A string: what it denotes, and its text between the quotes. -/
  | string (codePoints : List Nat) (raw : String)
  | regex (pattern flags : String)
  /-- A template up to its first substitution, or to its end. -/
  | template (chunk : TemplateChunk) (isLast : Bool)
  /-- Nothing follows. -/
  | finish
  /-- No token starts like this. -/
  | invalid
  deriving Inhabited

/-- A token in its place. -/
structure Token where
  kind : TokenKind
  span : Span
  /-- Whether a line break comes before it. -/
  afterNewline : Bool
  /-- The comments in front of it that do not belong to the line of the token before. -/
  comments : List Comment
  /-- Whether a comment in front of it promises that what follows has no effect. -/
  isPure : Bool
  deriving Inhabited

/-- The opening brace. -/
def openBrace : String := "\x7b"

/-- The closing brace. -/
def closeBrace : String := "\x7d"

/-- The words that are never names. -/
def reservedWords : List String :=
  ["break", "case", "catch", "class", "const", "continue", "debugger", "default", "delete", "do",
    "else", "enum", "export", "extends", "false", "finally", "for", "function", "if", "import",
    "in", "instanceof", "new", "null", "return", "super", "switch", "this", "throw", "true", "try",
    "typeof", "var", "void", "while", "with"]

/-- Whether a word is never a name. -/
def isReserved (s : String) : Bool := reservedWords.contains s

namespace Token

/-- Whether a token is a given piece of punctuation. -/
def isMark (t : Token) (s : String) : Bool :=
  match t.kind with
  | .mark m => m == s
  | _ => false

/-- Whether a token is a given word, written without escapes. -/
def isWord (t : Token) (s : String) : Bool :=
  match t.kind with
  | .word w false => w == s
  | _ => false

/-- The name that a token may be used as: a word that is not reserved. -/
def name? (t : Token) : Option String :=
  match t.kind with
  | .word w _ => if isReserved w then none else some w
  | _ => none

/-- The word that a token is, reserved or not. -/
def word? (t : Token) : Option String :=
  match t.kind with
  | .word w _ => some w
  | _ => none

/-- Whether a token is the end of the script. -/
def isFinish (t : Token) : Bool :=
  match t.kind with
  | .finish => true
  | _ => false

end Token

end Downlevel.Script
