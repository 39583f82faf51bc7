import Downlevel.Script.Literal

/-!
# Scanning

The step from characters to tokens. The scanner skips blanks and comments and reads one token; what
a slash or a closing brace starts depends on the grammar, so the grammar asks for regular
expressions and the rest of templates itself. A `>` is always a token of its own: only the grammar
knows whether it closes a list of type arguments.

## Comments

A comment belongs to the token it stands in front of, unless it follows the token before on the same
line and ends that line.
-/

namespace Downlevel.Script.Scanner

open Text Literal

/-! ## Blanks and comments -/

/-- What has been seen between two tokens. -/
structure Gap where
  /-- The characters that are left. -/
  rest : List Char
  /-- Where they start. -/
  pos : Nat
  /-- Whether a line break separates the next token from the one before. -/
  broken : Bool
  /-- Whether the line of the token before has ended. -/
  lineEnded : Bool
  /-- The comments so far, the last one first. -/
  comments : List Comment
  /-- Whether one of them promises that what follows has no effect. -/
  isPure : Bool
  /-- Whether a comment does not end. -/
  unclosed : Bool

/-- The text of a block comment up to and with its closing mark, and what follows. -/
def blockComment : List Char → Option (List Char × List Char)
  | '*' :: '/' :: cs => some (['*', '/'], cs)
  | c :: cs => (blockComment cs).map fun (text, rest) ↦ (c :: text, rest)
  | [] => none

/-- Whether the inside of a comment is an annotation for tools. -/
def isAnnotation (word : String) (inside : List Char) : Bool :=
  match inside.dropWhile isWhiteSpace with
  | c :: cs => (c == '@' || c == '#') && word.toList.isPrefixOf cs
  | [] => false

/-- Marks the last comment as followed by a line break. -/
def closeLine : List Comment → List Comment
  | c :: cs => { c with beforeNewline := true } :: cs
  | [] => []

/-- Passes a line break: comments on the line of the token before stay behind. -/
def Gap.newline (g : Gap) : Gap :=
  { g with
    broken := true
    lineEnded := true
    comments := if g.lineEnded then closeLine g.comments else [] }

/-- Adds a comment; those that only speak to tools are not kept. -/
def Gap.add (g : Gap) (text : List Char) (inside : List Char) (isLine : Bool) : Gap :=
  let isPure := isAnnotation "__PURE__" inside
  if isPure || isAnnotation "__NO_SIDE_EFFECTS__" inside then
    { g with isPure := g.isPure || isPure }
  else
    { g with comments := ⟨String.ofList text, isLine, g.lineEnded, isLine⟩ :: g.comments }

/-- Skips blanks and comments. A line comment behind an opening parenthesis or an equals sign
(`opens`) does not belong to the line of the token before. Every step passes at least one character,
so the characters themselves bound the number of steps. -/
def skip (opens : Bool) : List Char → Gap → Gap
  | [], g => g
  | _ :: fuel, g =>
    match g.rest with
    | [] => g
    | '/' :: '/' :: cs =>
      let (inside, rest) := cs.span fun c ↦ !isLineEnd c
      let text := '/' :: '/' :: inside
      let added := g.add text inside true
      -- On the line of the token before, the comment belongs to that token.
      let kept := if g.lineEnded || opens then added else { added with comments := [] }
      skip opens fuel { kept with rest, pos := g.pos + width text, lineEnded := true }
    | '/' :: '*' :: cs =>
      match blockComment cs with
      | none => { g with unclosed := true }
      | some (inside, rest) =>
        let text := '/' :: '*' :: inside
        let added := g.add text inside false
        skip opens fuel
          { added with
            rest
            pos := g.pos + width text
            broken := g.broken || inside.any isLineEnd }
    | c :: rest =>
      if isLineEnd c then skip opens fuel { g.newline with rest, pos := g.pos + c.utf8Size }
      else if isBlank c then skip opens fuel { g with rest, pos := g.pos + c.utf8Size }
      else g

/-! ## Tokens -/

/-- Every piece of punctuation, longer ones before their beginnings. -/
def marks : List String :=
  ["...", "===", "!==", "**=", "<<=", "&&=", "||=", "??=", "=>", "==", "!=", "<=", "++", "--", "<<",
    "&&", "||", "??", "?.", "**", "+=", "-=", "*=", "/=", "%=", "&=", "|=", "^=", openBrace,
    closeBrace, "(", ")", "[", "]", ";", ",", "<", ">", "+", "-", "*", "/", "%", "&", "|", "^", "!",
    "~", "?", ":", "=", ".", "@"]

/-- The longest piece of punctuation that a text starts with. `?.` in front of a digit is not one:
it is a question mark and a number. -/
def mark? (cs : List Char) : Option String :=
  let fits (m : String) : Bool :=
    m.toList.isPrefixOf cs && !(m == "?." && startsWithDigit (cs.drop 2))
  marks.find? fits

/-- A token that starts with the first of the characters left, at byte `pos`: what it is, how many
bytes it takes, and what follows. -/
def body (pos : Nat) (cs : List Char) : TokenKind × Nat × List Char :=
  match cs with
  | [] => (.finish, 0, [])
  | c :: rest =>
    let read : Option (Taken TokenKind) :=
      if c.isDigit then Literal.number cs
      else if c = '.' && startsWithDigit rest then decimalTail [0] 0 cs
      else if c = '"' || c = '\'' then
        (Literal.string c rest).map fun (ps, w, r) ↦
          (.string ps (String.ofList (takeBytes rest (w - 1))), w + 1, r)
      else if c = '\x60' then
        (chunk (pos + 1) rest).map fun (ch, w, last, r) ↦ (.template ch last, w + 1, r)
      else if c = '#' then
        (Literal.name rest).map fun ((n, _), w, r) ↦ (.privateWord n, w + 1, r)
      else match mark? cs with
        | some m => some (.mark m, m.length, cs.drop m.length)
        | none => (Literal.name cs).map fun ((n, escaped), w, r) ↦ (.word n escaped, w, r)
    read.getD (.invalid, 0, cs)

/-- The next token and what follows it. The flags tell whether the token before opens a
parenthesis or is an equals sign, and whether nothing comes before. -/
def next (opens isFirst : Bool) (pos : Nat) (cs : List Char) : Token × List Char :=
  let g := skip opens cs ⟨cs, pos, isFirst, isFirst, [], false, false⟩
  let (kind, w, rest) := if g.unclosed then (.invalid, 0, []) else body g.pos g.rest
  (⟨kind, ⟨g.pos, g.pos + w⟩, g.broken, g.comments.reverse, g.isPure⟩, rest)

/-- The first line of a script, if it names an interpreter, and the characters behind it with their
position. -/
def interpreter (cs : List Char) : Option String × Nat × List Char :=
  let (bom, body) := match cs with
    | '\ufeff' :: cs => (['\ufeff'], cs)
    | cs => ([], cs)
  match body with
  | '#' :: '!' :: cs =>
    let (line, rest) := cs.span fun c ↦ !isLineEnd c
    (some (String.ofList line), width bom + 2 + width line, rest)
  | body => (none, width bom, body)

end Downlevel.Script.Scanner
