import Downlevel.Script.Token
import Downlevel.Text.Letter

/-!
# Literals

The inside of names, numbers, strings, templates and regular expressions, scanned from the
characters that are left. Every scanner gives back what it read, how many bytes that took and what
follows, or nothing if the literal is malformed.
-/

namespace Downlevel.Script.Literal

open Text

/-- What a scanner reads: a value, the bytes it took, and what follows. -/
abbrev Taken (α : Type) := α × Nat × List Char

/-- The value of a digit in a base of at most 16. -/
def digitValue (base : Nat) (c : Char) : Option Nat :=
  let n :=
    if '0' ≤ c ∧ c ≤ '9' then c.toNat - 48
    else if 'a' ≤ c ∧ c ≤ 'f' then c.toNat - 87
    else if 'A' ≤ c ∧ c ≤ 'F' then c.toNat - 55
    else 16
  if n < base then some n else none

/-! ## Escapes -/

/-- Exactly `n` hexadecimal digits. -/
def hexDigits : Nat → Nat → List Char → Option (Taken Nat)
  | 0, value, cs => some (value, 0, cs)
  | n + 1, value, c :: cs => do
    let d ← digitValue 16 c
    let (v, w, rest) ← hexDigits n (value * 16 + d) cs
    return (v, w + 1, rest)
  | _ + 1, _, [] => none

/-- Hexadecimal digits up to a closing brace; the value stays below `0x110000`. -/
def bracedHex : Bool → Nat → List Char → Option (Taken Nat)
  | started, value, c :: cs =>
    if c = '}' then if started then some (value, 1, cs) else none
    else do
      let d ← digitValue 16 c
      let next := value * 16 + d
      if 0x110000 ≤ next then none
      else
        let (v, w, rest) ← bracedHex true next cs
        return (v, w + 1, rest)
  | _, _, [] => none

/-- A code point behind `\u`. -/
def unicodeEscape : List Char → Option (Taken Nat)
  | '{' :: cs => (bracedHex false 0 cs).map fun (v, w, rest) ↦ (v, w + 1, rest)
  | cs => hexDigits 4 0 cs

/-- At most `n` octal digits. -/
def octalDigits : Nat → Nat → List Char → Nat × Nat × List Char
  | n + 1, value, c :: cs =>
    match digitValue 8 c with
    | some d =>
      let (v, w, rest) := octalDigits n (value * 8 + d) cs
      (v, w + 1, rest)
    | none => (value, 0, c :: cs)
  | _, value, cs => (value, 0, cs)

/-- Whether a text starts with a digit. -/
def startsWithDigit : List Char → Bool
  | c :: _ => c.isDigit
  | [] => false

/-- The code points that the characters behind a backslash stand for. Octal escapes are read where
they are allowed. -/
def escape (octal : Bool) : List Char → Option (Taken (List Nat))
  | [] => none
  | 'x' :: cs => (hexDigits 2 0 cs).map fun (v, w, rest) ↦ ([v], w + 1, rest)
  | 'u' :: cs => (unicodeEscape cs).map fun (v, w, rest) ↦ ([v], w + 1, rest)
  | '\r' :: '\n' :: cs => some ([], 2, cs)
  | c :: cs =>
    if isLineEnd c then some ([], c.utf8Size, cs)
    else if c = 'n' then some ([10], 1, cs)
    else if c = 't' then some ([9], 1, cs)
    else if c = 'r' then some ([13], 1, cs)
    else if c = 'b' then some ([8], 1, cs)
    else if c = 'v' then some ([11], 1, cs)
    else if c = 'f' then some ([12], 1, cs)
    else if c = '0' && !startsWithDigit cs then some ([0], 1, cs)
    else if c.isDigit then
      if !octal then none
      else if c = '8' || c = '9' then some ([c.toNat], 1, cs)
      else
        let (v, w, rest) := octalDigits (if c < '4' then 2 else 1) (c.toNat - 48) cs
        some ([v], w + 1, rest)
    else some ([c.toNat], c.utf8Size, cs)

/-- Joins the surrogate pairs of a sequence of code points. -/
def joinPairs : List Nat → List Nat
  | [] => []
  | [u] => [u]
  | u :: v :: rest =>
    if 0xd800 ≤ u ∧ u < 0xdc00 ∧ 0xdc00 ≤ v ∧ v < 0xe000 then
      (0x10000 + (u - 0xd800) * 1024 + (v - 0xdc00)) :: joinPairs rest
    else u :: joinPairs (v :: rest)

/-! ## Strings and templates -/

/-- The code points of a string up to its closing quote. Every step passes at least one character,
so the characters themselves bound the number of steps. -/
def stringBody (quote : Char) : List Char → List Char → Option (Taken (List Nat))
  | [], _ => none
  | _, [] => none
  | _ :: fuel, c :: cs =>
    if c = quote then some ([], 1, cs)
    else if c = '\n' || c = '\r' then none
    else do
      let (points, w, rest) ← if c = '\\' then
          (escape true cs).map fun (ps, w, rest) ↦ (ps, w + 1, rest)
        else some ([c.toNat], c.utf8Size, cs)
      let (more, w', rest) ← stringBody quote fuel rest
      return (points ++ more, w + w', rest)

/-- A string behind its opening quote. -/
def string (quote : Char) (cs : List Char) : Option (Taken (List Nat)) :=
  (stringBody quote cs cs).map fun (ps, w, rest) ↦ (joinPairs ps, w, rest)

/-- The text of a template chunk up to its end, how many bytes that is, whether the template ends
there, and what follows the delimiter. -/
def chunkText : List Char → Option (List Char × Nat × Bool × List Char)
  | [] => none
  | '\x60' :: cs => some ([], 0, true, cs)
  | '$' :: '{' :: cs => some ([], 0, false, cs)
  | '\\' :: c :: cs => do
    let (text, w, last, rest) ← chunkText cs
    return ('\\' :: c :: text, w + 1 + c.utf8Size, last, rest)
  | c :: cs => do
    let (text, w, last, rest) ← chunkText cs
    return (c :: text, w + c.utf8Size, last, rest)

/-- A text with every carriage return turned into a line feed or dropped in front of one. -/
def unifyLines : List Char → List Char
  | [] => []
  | '\r' :: '\n' :: cs => '\n' :: unifyLines cs
  | c :: cs => (if c = '\r' then '\n' else c) :: unifyLines cs

/-- What the text of a template chunk denotes, unless an escape in it is malformed. The characters
themselves bound the number of steps. -/
def chunkPoints : List Char → List Char → Option (List Nat)
  | _, [] => some []
  | [], _ => none
  | _ :: fuel, c :: cs => do
    let (points, _, rest) ← if c = '\\' then escape false cs else some ([c.toNat], 1, cs)
    return points ++ (← chunkPoints fuel rest)

/-- A template chunk that starts at byte `pos`: the chunk, how many bytes it and its closing
delimiter take, whether the template ends with it, and what follows. -/
def chunk (pos : Nat) (cs : List Char) : Option (TemplateChunk × Nat × Bool × List Char) := do
  let (text, w, last, rest) ← chunkText cs
  let raw := unifyLines text
  let points := (chunkPoints raw raw).map joinPairs
  return (⟨⟨pos, pos + w⟩, String.ofList raw, points⟩, w + (if last then 1 else 2), last, rest)

/-! ## Regular expressions -/

/-- The pattern of a regular expression up to its closing slash. A slash within brackets is part of
the pattern. -/
def regexBody : Bool → List Char → Option (Taken (List Char))
  | _, [] => none
  | inClass, '\\' :: c :: cs =>
    if isLineEnd c then none
    else do
      let (text, w, rest) ← regexBody inClass cs
      return ('\\' :: c :: text, w + 1 + c.utf8Size, rest)
  | inClass, c :: cs =>
    if isLineEnd c then none
    else if c = '/' && !inClass then some ([], 1, cs)
    else do
      let (text, w, rest) ← regexBody ((inClass || c = '[') && c != ']') cs
      return (c :: text, w + c.utf8Size, rest)

/-- Whether the flags of a regular expression are known and differ from each other. -/
def areFlags : List Char → Bool
  | [] => true
  | c :: cs => "dgimsuvy".toList.contains c && !cs.contains c && areFlags cs

/-- A regular expression behind its opening slash: pattern and flags. -/
def regex (cs : List Char) : Option (Taken (String × String)) := do
  let (pattern, w, rest) ← regexBody false cs
  let (flags, rest) := rest.span isNamePart
  if areFlags flags && !pattern.isEmpty then
    return ((String.ofList pattern, String.ofList flags), w + flags.length, rest)
  else none

/-! ## Names -/

/-- A name; the flag tells whether it was written with escapes. The characters themselves bound the
number of steps. -/
def nameBody : List Char → Bool → List Char → Option (Taken (List Char × Bool))
  | [], isFirst, cs => if isFirst then none else some (([], false), 0, cs)
  | _ :: fuel, isFirst, cs =>
    match cs with
    | '\\' :: 'u' :: cs => do
      let (n, w, rest) ← unicodeEscape cs
      let c := Char.ofNat n
      if if isFirst then isNameStart c else isNamePart c then
        let ((name, _), w', rest) ← nameBody fuel false rest
        return ((c :: name, true), w + 2 + w', rest)
      else none
    | '\\' :: _ => none
    | c :: rest =>
      if if isFirst then isNameStart c else isNamePart c then do
        let ((name, escaped), w, rest) ← nameBody fuel false rest
        return ((c :: name, escaped), c.utf8Size + w, rest)
      else if isFirst then none else some (([], false), 0, c :: rest)
    | [] => if isFirst then none else some (([], false), 0, [])

/-- A name, and whether it was written with escapes. -/
def name (cs : List Char) : Option (Taken (String × Bool)) :=
  (nameBody cs true cs).map fun ((n, escaped), w, rest) ↦
    ((String.ofList n, escaped), w, rest)

/-! ## Numbers -/

/-- The digits of a number in a given base, with single separators between them; at least one. -/
def digits (base : Nat) : Bool → List Char → Option (Taken (List Nat))
  | afterDigit, [] => if afterDigit then some ([], 0, []) else none
  | afterDigit, c :: cs =>
    match digitValue base c with
    | some d => do
      let (ds, w, rest) ← digits base true cs
      return (d :: ds, w + 1, rest)
    | none =>
      if !afterDigit then none
      else if c = '_' then (digits base false cs).map fun (ds, w, rest) ↦ (ds, w + 1, rest)
      else some ([], 0, c :: cs)

/-- The value of digits in a base. -/
def ofDigits (base : Nat) (ds : List Nat) : Nat := ds.foldl (fun n d ↦ n * base + d) 0

/-- A number token, unless a letter or digit follows it directly. -/
def closed (kind : TokenKind) (w : Nat) (cs : List Char) : Option (Taken TokenKind) :=
  match cs with
  | c :: _ => if isNamePart c || c = '\\' then none else some (kind, w, cs)
  | [] => some (kind, w, cs)

/-- An integer in a base other than ten, behind its two-character mark. -/
def basedInteger (base : Nat) (cs : List Char) : Option (Taken TokenKind) := do
  let (ds, w, rest) ← digits base false cs
  let n := ofDigits base ds
  match rest with
  | 'n' :: rest => closed (.bigint n) (w + 3) rest
  | _ => closed (.number (Float.ofNat n)) (w + 2) rest

/-- The digits behind a point, of which there may be none. -/
def fractionDigits (cs : List Char) : Option (Taken (List Nat)) :=
  if startsWithDigit cs then digits 10 false cs else some ([], 0, cs)

/-- The exponent of a number, if one is written. -/
def exponentPart : List Char → Option (Taken (Option Int))
  | c :: cs =>
    if c = 'e' || c = 'E' then
      match cs with
      | '+' :: cs => (digits 10 false cs).map fun (ds, w, r) ↦ (some ↑(ofDigits 10 ds), w + 2, r)
      | '-' :: cs => (digits 10 false cs).map fun (ds, w, r) ↦ (some (-ofDigits 10 ds), w + 2, r)
      | cs => (digits 10 false cs).map fun (ds, w, r) ↦ (some ↑(ofDigits 10 ds), w + 1, r)
    else some (none, 0, c :: cs)
  | [] => some (none, 0, [])

/-- The double nearest to `m · 10^e`. -/
def toFloat (m : Nat) (e : Int) : Float :=
  match e with
  | .ofNat k => Float.ofScientific m false k
  | .negSucc k => Float.ofScientific m true (k + 1)

/-- The fraction and exponent behind the whole part of a decimal number. -/
def decimalTail (whole : List Nat) (w : Nat) (cs : List Char) : Option (Taken TokenKind) := do
  let (fraction, w', rest) ← match cs with
    | '.' :: cs => (fractionDigits cs).map fun (ds, w, r) ↦ (ds, w + 1, r)
    | cs => some ([], 0, cs)
  let (power, w'', rest) ← exponentPart rest
  let value := toFloat (ofDigits 10 (whole ++ fraction)) (power.getD 0 - fraction.length)
  closed (.number value) (w + w' + w'') rest

/-- A number that starts with a digit. -/
def number : List Char → Option (Taken TokenKind)
  | '0' :: c :: cs =>
    if c = 'x' || c = 'X' then basedInteger 16 cs
    else if c = 'o' || c = 'O' then basedInteger 8 cs
    else if c = 'b' || c = 'B' then basedInteger 2 cs
    else if c = 'n' then closed (.bigint 0) 2 cs
    else if c.isDigit then
      let (ds, rest) := (c :: cs).span Char.isDigit
      let values := ds.map fun d ↦ d.toNat - 48
      if values.all (· < 8) then
        closed (.number (Float.ofNat (ofDigits 8 values))) (ds.length + 1) rest
      else decimalTail values (ds.length + 1) rest
    else decimalTail [0] 1 (c :: cs)
  | cs => do
    let (ds, w, rest) ← digits 10 false cs
    match rest with
    | 'n' :: rest => closed (.bigint (ofDigits 10 ds)) (w + 1) rest
    | _ => decimalTail ds w rest

end Downlevel.Script.Literal
