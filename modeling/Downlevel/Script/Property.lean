import Downlevel.Text.Quoted
import Downlevel.Text.Letter

/-!
# Naming a property

A property is named by an identifier where its name is one of ASCII characters, and by a string
otherwise.
-/

namespace Downlevel.Script

open Text

/-- A string literal that denotes a string. -/
def stringLiteral (s : String) : String := Quoted.quote s

/-- The key of a property in an object. -/
def writtenKey (name : String) : String :=
  if isAsciiName name then name else stringLiteral name

/-- The access to a property behind an object. -/
def propertyAccess (name : String) : String :=
  if isAsciiName name then "." ++ name else "[" ++ stringLiteral name ++ "]"

end Downlevel.Script
