/-!
# Quoted strings

The double-quoted form of a string that JSON and JavaScript read alike: the quote, the backslash and
the characters below U+0020 are escaped, and everything else stands for itself.
-/

namespace Downlevel.Text.Quoted

/-- A hexadecimal digit, in lower case. -/
def hexDigit (n : Nat) : Char :=
  if n < 10 then Char.ofNat (48 + n) else Char.ofNat (87 + n)

/-- The escaped form of one character. -/
def escape (c : Char) : List Char :=
  if c = '"' then ['\\', '"']
  else if c = '\\' then ['\\', '\\']
  else if c = '\n' then ['\\', 'n']
  else if c = '\t' then ['\\', 't']
  else if c = '\r' then ['\\', 'r']
  else if c = '\x08' then ['\\', 'b']
  else if c = '\x0c' then ['\\', 'f']
  else if c.toNat < 0x20 then
    ['\\', 'u', '0', '0', hexDigit (c.toNat / 16), hexDigit (c.toNat % 16)]
  else [c]

/-- The quoted form of a text. -/
def encode (text : List Char) : List Char := '"' :: text.flatMap escape ++ ['"']

/-- The quoted form of a string. -/
def quote (s : String) : String := String.ofList (encode s.toList)

end Downlevel.Text.Quoted
