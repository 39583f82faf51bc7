import Downlevel.Text.NameTable

/-!
# Classes of characters

What a script's grammar asks of single characters: which are blanks, which end a line, and which may
stand in a name.
-/

namespace Downlevel.Text

/-- Whether one of the ranges holds `n`. -/
def inRanges (ranges : List (Nat × Nat)) (n : Nat) : Bool :=
  ranges.any fun r ↦ r.1 ≤ n && n ≤ r.2

/-- Whether a character ends a line. -/
def isLineEnd (c : Char) : Bool := c == '\n' || c == '\r' || c == '\u2028' || c == '\u2029'

/-- The blanks that do not end a line: those of ASCII, the space separators of Unicode, the byte
order mark, and the next-line and zero-width-space characters. -/
def isBlank (c : Char) : Bool :=
  c == ' ' || c == '\t' || c == '\x0b' || c == '\x0c' ||
    (128 ≤ c.toNat &&
      inRanges [(0x85, 0x85), (0xa0, 0xa0), (0x1680, 0x1680), (0x2000, 0x200b), (0x202f, 0x202f),
        (0x205f, 0x205f), (0x3000, 0x3000), (0xfeff, 0xfeff)] c.toNat)

/-- White space as Unicode has it, line ends included. -/
def isWhiteSpace (c : Char) : Bool :=
  inRanges [(0x09, 0x0d), (0x20, 0x20), (0x85, 0x85), (0xa0, 0xa0), (0x1680, 0x1680),
    (0x2000, 0x200a), (0x2028, 0x2029), (0x202f, 0x202f), (0x205f, 0x205f), (0x3000, 0x3000)]
    c.toNat

/-- Whether a character is an ASCII letter, `_` or `$`. -/
def isAsciiNameStart (c : Char) : Bool := c.isAlpha || c == '_' || c == '$'

/-- Whether a character is an ASCII letter or digit, `_` or `$`. -/
def isAsciiNamePart (c : Char) : Bool := isAsciiNameStart c || c.isDigit

/-- Whether a character may start a name. -/
def isNameStart (c : Char) : Bool :=
  if c.toNat < 128 then isAsciiNameStart c else inRanges NameTable.starting c.toNat

/-- Whether a character may continue a name; the joiners U+200C and U+200D may. -/
def isNamePart (c : Char) : Bool :=
  if c.toNat < 128 then isAsciiNamePart c
  else inRanges NameTable.starting c.toNat || inRanges NameTable.continuing c.toNat
    || c == '\u200c' || c == '\u200d'

/-- Whether a text is a name of ASCII characters. -/
def isAsciiName (s : String) : Bool :=
  match s.toList with
  | [] => false
  | c :: cs => isAsciiNameStart c && cs.all isAsciiNamePart

end Downlevel.Text
