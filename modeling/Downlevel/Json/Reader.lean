import Downlevel.Json.Basic

/-!
# Reading JSON

A reader for texts that hold one JSON value. It works on the characters that are left, and every
function gives back what it read and what follows. Escapes are read as UTF-16 units first and joined
to characters afterwards; a surrogate without its partner is refused.
-/

namespace Downlevel.Json.Reader

/-- What follows the blanks at the start. -/
def skipBlanks (cs : List Char) : List Char :=
  cs.dropWhile fun c ↦ c == ' ' || c == '\n' || c == '\t' || c == '\r'

/-! ## Strings -/

/-- The value of a hexadecimal digit. -/
def hexValue (c : Char) : Option Nat :=
  if '0' ≤ c ∧ c ≤ '9' then some (c.toNat - 48)
  else if 'a' ≤ c ∧ c ≤ 'f' then some (c.toNat - 87)
  else if 'A' ≤ c ∧ c ≤ 'F' then some (c.toNat - 55)
  else none

/-- The value of four hexadecimal digits. -/
def hexValue4 (a b c d : Char) : Option Nat :=
  return ((← hexValue a) * 4096 + (← hexValue b) * 256 + (← hexValue c) * 16 + (← hexValue d))

/-- The character that a backslash and a letter stand for. -/
def shortEscape (c : Char) : Option Nat :=
  if c = '"' then some 0x22
  else if c = '\\' then some 0x5c
  else if c = '/' then some 0x2f
  else if c = 'b' then some 8
  else if c = 'f' then some 12
  else if c = 'n' then some 10
  else if c = 'r' then some 13
  else if c = 't' then some 9
  else none

/-- The units of a string up to its closing quote. -/
def stringUnits : List Char → Option (List Nat × List Char)
  | [] => none
  | '"' :: rest => some ([], rest)
  | '\\' :: 'u' :: a :: b :: c :: d :: rest => do
    let unit ← hexValue4 a b c d
    let (units, rest) ← stringUnits rest
    return (unit :: units, rest)
  | '\\' :: c :: rest => do
    let unit ← shortEscape c
    let (units, rest) ← stringUnits rest
    return (unit :: units, rest)
  | c :: rest =>
    if c.toNat < 0x20 then none
    else do
      let (units, rest) ← stringUnits rest
      return (c.toNat :: units, rest)

/-- Joins surrogate pairs to characters. -/
def joinUnits : List Nat → Option (List Char)
  | [] => some []
  | u :: rest =>
    if u < 0xd800 ∨ 0xe000 ≤ u then (joinUnits rest).map (Char.ofNat u :: ·)
    else match rest with
      | v :: rest =>
        if u < 0xdc00 ∧ 0xdc00 ≤ v ∧ v < 0xe000 then
          (joinUnits rest).map (Char.ofNat (0x10000 + (u - 0xd800) * 1024 + (v - 0xdc00)) :: ·)
        else none
      | [] => none

/-- A string behind its opening quote. -/
def string (cs : List Char) : Option (String × List Char) := do
  let (units, rest) ← stringUnits cs
  return (String.ofList (← joinUnits units), rest)

/-! ## Numbers -/

/-- The value of decimal digits. -/
def decimalValue (ds : List Char) : Nat := ds.foldl (fun n d ↦ n * 10 + (d.toNat - 48)) 0

/-- The digits behind a point, if there is one. -/
def fraction : List Char → Option (List Char × List Char)
  | '.' :: cs =>
    let (ds, rest) := cs.span Char.isDigit
    if ds.isEmpty then none else some (ds, rest)
  | cs => some ([], cs)

/-- The digits of an exponent with its sign. -/
def exponentDigits (isNegative : Bool) (cs : List Char) : Option (Option Int × List Char) :=
  let (ds, rest) := cs.span Char.isDigit
  if ds.isEmpty then none
  else
    let n : Int := decimalValue ds
    some (some (if isNegative then -n else n), rest)

/-- The exponent, if there is one. -/
def exponent : List Char → Option (Option Int × List Char)
  | c :: cs =>
    if c = 'e' ∨ c = 'E' then
      match cs with
      | '+' :: cs => exponentDigits false cs
      | '-' :: cs => exponentDigits true cs
      | cs => exponentDigits false cs
    else some (none, c :: cs)
  | [] => some (none, [])

/-- A number behind its sign. -/
def number (isNegative : Bool) (cs : List Char) : Option (Json × List Char) := do
  let (whole, rest) := cs.span Char.isDigit
  if whole.isEmpty || (whole.length > 1 && whole.head? == some '0') then none
  else
    let (parts, rest) ← fraction rest
    let (power, rest) ← exponent rest
    let m := decimalValue (whole ++ parts)
    let exact := parts.isEmpty && power.isNone
    let n :=
      if exact && !isNegative && m < UInt64.size then Number.natural m
      else if exact && isNegative && 0 < m && m ≤ UInt64.size / 2 then Number.negative m
      else Number.decimal isNegative m (power.getD 0 - parts.length)
    return (.number n, rest)

/-! ## Values -/

mutual

/-- A value, with its blanks before it. The fuel bounds the number of steps. -/
def value : Nat → List Char → Option (Json × List Char)
  | 0, _ => none
  | fuel + 1, cs =>
    match skipBlanks cs with
    | 'n' :: 'u' :: 'l' :: 'l' :: rest => some (.null, rest)
    | 't' :: 'r' :: 'u' :: 'e' :: rest => some (.bool true, rest)
    | 'f' :: 'a' :: 'l' :: 's' :: 'e' :: rest => some (.bool false, rest)
    | '"' :: rest => (string rest).map fun (s, rest) ↦ (.string s, rest)
    | '[' :: rest =>
      match skipBlanks rest with
      | ']' :: rest => some (.array [], rest)
      | rest => (items fuel rest).map fun (vs, rest) ↦ (.array vs, rest)
    | '{' :: rest =>
      match skipBlanks rest with
      | '}' :: rest => some (.object [], rest)
      | rest => (fields fuel rest).map fun (fs, rest) ↦ (.object fs, rest)
    | '-' :: rest => number true rest
    | rest => number false rest

/-- The items of an array, of which there is at least one, and the closing bracket. -/
def items : Nat → List Char → Option (List Json × List Char)
  | 0, _ => none
  | fuel + 1, cs => do
    let (v, rest) ← value fuel cs
    match skipBlanks rest with
    | ']' :: rest => return ([v], rest)
    | ',' :: rest =>
      let (vs, rest) ← items fuel rest
      return (v :: vs, rest)
    | _ => none

/-- The fields of an object, of which there is at least one, and the closing brace. -/
def fields : Nat → List Char → Option (List (String × Json) × List Char)
  | 0, _ => none
  | fuel + 1, cs => do
    match skipBlanks cs with
    | '"' :: rest =>
      let (k, rest) ← string rest
      match skipBlanks rest with
      | ':' :: rest =>
        let (v, rest) ← value fuel rest
        match skipBlanks rest with
        | '}' :: rest => return ([(k, v)], rest)
        | ',' :: rest =>
          let (fs, rest) ← fields fuel rest
          return ((k, v) :: fs, rest)
        | _ => none
      | _ => none
    | _ => none

end

end Downlevel.Json.Reader

namespace Downlevel.Json

/-- The value that a text holds. -/
def parse (text : String) : Option Json := do
  let cs := text.toList
  let (v, rest) ← Reader.value (2 * cs.length + 1) cs
  if (Reader.skipBlanks rest).isEmpty then some v else none

end Downlevel.Json
