import Downlevel.Script.Token
import Downlevel.Script.Property
import Downlevel.Text.Letter

/-!
# Literals in scripts

The texts of strings, regular expressions, keys and lists of names, and of comments.
-/

namespace Downlevel.Script

open Text

/-! ## Strings -/

/-- A text in which no end of an embedded script is spelled. -/
def hideScriptEnd : List Char → List Char
  | [] => []
  | '<' :: '/' :: cs =>
    if (String.ofList (cs.take 6)).toLower == "script" then '<' :: '\\' :: '/' :: hideScriptEnd cs
    else '<' :: '/' :: hideScriptEnd cs
  | c :: cs => c :: hideScriptEnd cs

/-- A code unit as an escape. -/
def unicodeEscaped (n : Nat) : List Char :=
  ['\\', 'u', Quoted.hexDigit (n / 4096 % 16), Quoted.hexDigit (n / 256 % 16),
    Quoted.hexDigit (n / 16 % 16), Quoted.hexDigit (n % 16)]

/-- The escaped form of a code point that stands in front of others. -/
def escapedPoint (n : Nat) (rest : List Nat) : List Char :=
  if n = 0 then
    if rest.head?.any fun d ↦ 48 ≤ d && d ≤ 57 then "\\x00".toList else "\\0".toList
  else if n = 7 then "\\x07".toList
  else if n = 8 then "\\b".toList
  else if n = 10 then "\\n".toList
  else if n = 11 then "\\v".toList
  else if n = 12 then "\\f".toList
  else if n = 13 then "\\r".toList
  else if n = 27 then "\\x1B".toList
  else if n = 34 then "\\\"".toList
  else if n = 92 then "\\\\".toList
  else if n = 0xa0 then "\\xA0".toList
  else if n = 0x2028 || n = 0x2029 || (0xd800 ≤ n && n < 0xe000) then unicodeEscaped n
  else [Char.ofNat n]

/-- The escaped form of code points. -/
def escapedPoints : List Nat → List Char
  | [] => []
  | n :: ns => escapedPoint n ns ++ escapedPoints ns

/-- The text of a string, in double quotes. -/
def stringText (points : List Nat) : String :=
  "\"" ++ String.ofList (hideScriptEnd (escapedPoints points)) ++ "\""

/-- Whether a double quote stands in a text without a backslash in front of it. -/
def hasBareQuote : List Char → Bool
  | '\\' :: _ :: cs => hasBareQuote cs
  | c :: cs => c == '"' || hasBareQuote cs
  | [] => false

/-- The text of a string at the start of a body: it is kept as written, so the quotes depend on
those in it. -/
def directiveText (raw : String) : String :=
  let quote := if hasBareQuote raw.toList then "'" else "\""
  quote ++ raw ++ quote

/-- The text of a regular expression, its flags in alphabetical order. -/
def regexText (pattern flags : String) : String :=
  "/" ++ pattern ++ "/" ++ String.ofList (flags.toList.mergeSort fun a b ↦ a ≤ b)

/-! ## Imports and exports -/

/-- The text of the name of an export. -/
def ExportName.spelling : ExportName → String
  | name n => n
  | string s => stringText s.codePoints

/-- Parts between braces, separated by commas. -/
def braced (parts : List String) : String :=
  if parts.isEmpty then openBrace ++ closeBrace
  else openBrace ++ " " ++ ", ".intercalate parts ++ " " ++ closeBrace

/-- A name with another one it goes under, unless they are the same. -/
def renamed (n : ExportName) (other : String) : String :=
  if n.spelling = other then other else n.spelling ++ " as " ++ other

/-- The text of the attributes of an import, with a space in front. -/
def attributesText : Option (List ImportAttribute) → String
  | none => ""
  | some as =>
    " with " ++ braced (as.map fun a ↦ a.key.spelling ++ ": " ++ stringText a.value.codePoints)

/-- The text of an import specifier within braces. -/
def ImportSpecifier.spelling? : ImportSpecifier → Option String
  | named imported localName _ => some (renamed imported localName)
  | _ => none

/-- The text of an import specifier outside braces. -/
def ImportSpecifier.lead? : ImportSpecifier → Option String
  | defaultExport n => some n
  | wholeModule n => some ("* as " ++ n)
  | named .. => none

/-- The text of what an import binds. -/
def clauseText (specifiers : List ImportSpecifier) : String :=
  let leads := specifiers.filterMap ImportSpecifier.lead?
  let named := specifiers.filterMap ImportSpecifier.spelling?
  let parts := if named.isEmpty && !leads.isEmpty then leads else leads ++ [braced named]
  ", ".intercalate parts

/-- The text of an import declaration. -/
def ImportDeclaration.text (d : ImportDeclaration) : String :=
  let source := stringText d.source.codePoints ++ attributesText d.attributes ++ ";"
  match d.specifiers with
  | none => "import " ++ source
  | some specifiers => "import " ++ clauseText specifiers ++ " from " ++ source

/-- The text of the module that something is passed on from. -/
def fromText (source : StringLiteral) (attributes : Option (List ImportAttribute)) : String :=
  " from " ++ stringText source.codePoints ++ attributesText attributes

/-- The text of a list of exports. -/
def ExportList.text (l : ExportList) : String :=
  "export " ++ braced (l.specifiers.map fun s ↦ renamed s.source s.exported.spelling)
    ++ (l.source.map fun s ↦ fromText s l.attributes).getD "" ++ ";"

/-- The text of an export of everything. -/
def ExportAll.text (a : ExportAll) : String :=
  "export *" ++ (a.exported.map fun n ↦ " as " ++ n.spelling).getD ""
    ++ fromText a.source a.attributes ++ ";"

/-- How variables are declared. -/
def VariableKind.text : VariableKind → String
  | var => "var"
  | letVariable => "let"
  | constant => "const"
  | disposable => "using"
  | asyncDisposable => "await using"

/-! ## Comments -/

/-- The lines of a comment. -/
def commentLines : List Char → List (List Char)
  | [] => [[]]
  | '\r' :: '\n' :: cs => [] :: commentLines cs
  | c :: cs =>
    match commentLines cs with
    | line :: rest => if isLineEnd c then [] :: line :: rest else (c :: line) :: rest
    | [] => [[c]]

/-- The text of a comment; its lines are indented alike. -/
def Comment.spelling (indent : String) (c : Comment) : String :=
  let text := hideScriptEnd c.text.toList
  match commentLines text with
  | first :: rest =>
    String.ofList first ++ String.join (rest.map fun line ↦
      "\n" ++ indent ++ String.ofList (line.dropWhile isWhiteSpace))
  | [] => ""

/-- What stands between comments, or between a comment and what follows. -/
def commentGap (indent : String) (before : Bool) : String := if before then "\n" ++ indent else " "

/-- Comments in a row. A comment on a line of its own starts one. -/
def commentsText (indent : String) : List Comment → String
  | [] => ""
  | [c] => c.spelling indent
  | c :: d :: rest =>
    c.spelling indent ++ (if d.afterNewline then "\n" ++ indent else "")
      ++ commentsText indent (d :: rest)

/-- Comments in front of something, up to where that starts. -/
def leadingText (indent : String) (comments : List Comment) : String :=
  match comments.getLast? with
  | none => ""
  | some last =>
    commentsText indent comments ++ commentGap indent (last.isLine || last.beforeNewline)

/-- Indentation to a depth. -/
def indentation (depth : Nat) : String := String.ofList (List.replicate depth '\t')

end Downlevel.Script
