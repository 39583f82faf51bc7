import Downlevel.Json.Basic
import Downlevel.Text.Quoted

/-!
# Printing JSON

Values are printed without blanks, fields in their order.
-/

namespace Downlevel.Json

open Text (Quoted.quote)

/-- The text of a number. -/
def Number.render : Number → String
  | .natural n => toString n
  | .negative n => "-" ++ toString n
  | .decimal isNegative m e =>
    (if isNegative then "-" else "") ++ toString m ++ "e"
      ++ (match e with | .ofNat k => toString k | .negSucc k => "-" ++ toString (k + 1))

mutual

/-- The text of a value. -/
def render : Json → String
  | .null => "null"
  | .bool true => "true"
  | .bool false => "false"
  | .number n => n.render
  | .string s => Quoted.quote s
  | .array items => "[" ++ renderItems items ++ "]"
  | .object fields => "\x7b" ++ renderFields fields ++ "\x7d"

/-- The texts of the items of an array, separated by commas. -/
def renderItems : List Json → String
  | [] => ""
  | [v] => render v
  | v :: w :: vs => render v ++ "," ++ renderItems (w :: vs)

/-- The texts of the fields of an object, separated by commas. -/
def renderFields : List (String × Json) → String
  | [] => ""
  | [(k, v)] => Quoted.quote k ++ ":" ++ render v
  | (k, v) :: f :: fs => Quoted.quote k ++ ":" ++ render v ++ "," ++ renderFields (f :: fs)

end

end Downlevel.Json
