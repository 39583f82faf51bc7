import Downlevel.Script.Printer.Number
import Downlevel.Script.Tree

/-!
# Constants

The values that members of enumerations have without running the script: numbers, strings, and what
operators make of them.
-/

namespace Downlevel.Typed

open Script

/-- A value known without running the script. -/
inductive Constant where
  | number (value : Float)
  | string (codePoints : List Nat)
  deriving Inhabited

/-- The members of an enumeration so far; those without a known value have none. -/
abbrev Members := List (String × Option Constant)

/-! ## Arithmetic of doubles -/

namespace Number

/-- Whether a double has a minus sign. -/
def isNegative (x : Float) : Bool := x.toBits >>> 63 == 1

/-- The exact value `± m · 2^e` of a finite double, without its sign. -/
def magnitude (x : Float) : Decimal.Binary := Decimal.Binary.ofFloat x.abs

/-- The low 32 bits of the whole part of a double. -/
def toWord (x : Float) : UInt32 :=
  if x.isNaN || x.isInf then 0
  else
    let n := UInt32.ofNat (wholeValue x.abs)
    if isNegative x then 0 - n else n

/-- The double of a word that stands for a signed number. -/
def ofSigned (w : UInt32) : Float := Float.ofInt w.toInt32.toInt

/-- The double of a word. -/
def ofUnsigned (w : UInt32) : Float := Float.ofNat w.toNat

/-- The remainder of a division, exact and with the sign of the dividend. -/
def remainder (x y : Float) : Float :=
  if x.isNaN || y.isNaN || x.isInf || y == 0 then 0.0 / 0.0
  else if y.isInf then x
  else
    let a := magnitude x
    let b := magnitude y
    let e := min a.e b.e
    let r := (a.m <<< (a.e - e).toNat) % (b.m <<< (b.e - e).toNat)
    let value := (Float.ofNat r).scaleB e
    if isNegative x then -value else value

/-- The text of a number as a part of a string. -/
def text (x : Float) : String :=
  if x.isNaN then "NaN"
  else if x == 0 then "0"
  else (if isNegative x then "-" else "")
    ++ if x.isInf then "Infinity" else plainNumber x.abs

end Number

namespace Constant

/-- A constant as a part of a string. -/
def points : Constant → List Nat
  | number x => (Number.text x).toList.map Char.toNat
  | string ps => ps

/-- The value of an operator between numbers. -/
def ofNumbers (op : BinaryOperator) (x y : Float) : Option Float :=
  let a := Number.toWord x
  let b := Number.toWord y
  match op with
  | .add => some (x + y)
  | .subtract => some (x - y)
  | .multiply => some (x * y)
  | .divide => some (x / y)
  | .remainder => some (Number.remainder x y)
  | .power => some (x ^ y)
  | .shiftLeft => some (Number.ofSigned (a <<< (b % 32)))
  | .shiftRight => some (Float.ofInt (a.toInt32 >>> (b % 32).toInt32).toInt)
  | .shiftRightUnsigned => some (Number.ofUnsigned (a >>> (b % 32)))
  | .bitAnd => some (Number.ofSigned (a &&& b))
  | .bitOr => some (Number.ofSigned (a ||| b))
  | .bitXor => some (Number.ofSigned (a ^^^ b))
  | _ => none

/-- The value of an operator between constants. A sum with a string is a string. -/
def binary (op : BinaryOperator) : Constant → Constant → Option Constant
  | number x, number y => (ofNumbers op x y).map number
  | a, b => if op == .add then some (string (a.points ++ b.points)) else none

/-- The value of an operator in front of a constant. -/
def unary (op : UnaryOperator) : Constant → Option Constant
  | number x =>
    match op with
    | .plus => some (number x)
    | .minus => some (number (-x))
    | .complement => some (number (Number.ofSigned (~~~(Number.toWord x))))
    | _ => none
  | string ps =>
    match op with
    | .minus => some (number (0.0 / 0.0))
    | .complement => some (number (-1))
    | _ => some (string ps)

/-- The text of a constant, if it is a string. -/
def string? : Constant → Option (List Nat)
  | string ps => some ps
  | number _ => none

/-- The code points of a template, given those of its substitutions. -/
def ofTemplate : List TemplateChunk → List (List Nat) → Option (List Nat)
  | [], _ => some []
  | c :: cs, vs =>
    match c.codePoints, vs with
    | some ps, v :: vs => (ofTemplate cs vs).map (ps ++ v ++ ·)
    | some ps, [] => (ofTemplate cs []).map (ps ++ ·)
    | none, _ => none

/-- The value of a member of an enumeration that is complete. -/
def ofMember (enums : List (String × Members)) (enumName member : String) : Option Constant :=
  ((enums.lookup enumName).bind (·.lookup member)).join

mutual

/-- The value of an expression, given the enumerations that are complete and the members before. -/
def ofNode (enums : List (String × Members)) (members : Members) : Node → Option Constant
  | .number x => some (number x)
  | .string s => some (string s.codePoints)
  | .identifier n =>
    if n = "Infinity" then some (number (1.0 / 0.0))
    else if n = "NaN" then some (number (0.0 / 0.0))
    else (members.lookup n).join
  | .member (.identifier e) n _ => ofMember enums e n
  | .index (.identifier e) (.string s) _ => ofMember enums e s.value
  | .parenthesized e => ofNode enums members e
  | .template chunks es =>
    (ofNodes enums members es).bind fun vs ↦ (ofTemplate chunks (vs.map points)).map string
  | .unary op e => (ofNode enums members e).bind (unary op)
  | .binary op a b =>
    (ofNode enums members a).bind fun x ↦ (ofNode enums members b).bind fun y ↦ binary op x y
  | _ => none

/-- The values of several expressions. -/
def ofNodes (enums : List (String × Members)) (members : Members) :
    List Node → Option (List Constant)
  | [] => some []
  | n :: ns =>
    (ofNode enums members n).bind fun v ↦ (ofNodes enums members ns).map (v :: ·)

end

/-- A number as an expression: a sign goes in front of it. -/
def numberNode (x : Float) : Node :=
  if Number.isNegative x && !x.isNaN then .unary .minus (.number x.abs) else .number x

/-- A constant as an expression. -/
def toNode : Constant → Node
  | number x => numberNode x
  | string ps => .string ⟨⟨0, 0⟩, ps⟩

end Constant

end Downlevel.Typed
