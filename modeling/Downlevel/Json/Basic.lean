/-!
# JSON values

Numbers keep how they were written as far as a reader can tell: a natural number or a negative
integer of at most 64 bits stays exact, and everything else is a decimal, whose value is that of a
double. Objects keep their fields in the order given, and the last of several fields of one name
counts.
-/

namespace Downlevel

/-- A JSON number. -/
inductive Json.Number where
  /-- A natural number below 2^64. -/
  | natural (value : Nat)
  /-- The negative integer `-value`, with `1 ≤ value ≤ 2^63`. -/
  | negative (value : Nat)
  /-- `± mantissa · 10^exponent`: written with a point or an exponent, or too long for 64 bits. -/
  | decimal (isNegative : Bool) (mantissa : Nat) (exponent : Int)
  deriving DecidableEq, Inhabited, Repr

/-- A JSON value. -/
inductive Json where
  | null
  | bool (value : Bool)
  | number (value : Json.Number)
  | string (value : String)
  | array (items : List Json)
  | object (fields : List (String × Json))
  deriving Inhabited

namespace Json

/-- Whether the double nearest to a number is zero. A decimal rounds to zero up to half the least
positive double, 2^-1075; a power of ten with more zeros than the other side has bits decides as
well as a larger one. -/
def Number.isZero : Number → Bool
  | .natural n => n == 0
  | .negative n => n == 0
  | .decimal _ m (.ofNat _) => m == 0
  | .decimal _ m (.negSucc k) => m <<< 1075 ≤ Nat.pow 10 (min (k + 1) (m.log2 + 1076))

/-- The field of an object, if there is one. -/
def get? (name : String) : Json → Option Json
  | .object fields => (fields.filter (·.1 == name)).getLast?.map (·.2)
  | _ => none

/-- The string that a value is. -/
def string? : Json → Option String
  | .string s => some s
  | _ => none

/-- The items of an array. -/
def array? : Json → Option (List Json)
  | .array items => some items
  | _ => none

/-- The truth value that a value is. -/
def bool? : Json → Option Bool
  | .bool b => some b
  | _ => none

/-- The natural number that a value is. -/
def natural? : Json → Option Nat
  | .number (.natural n) => some n
  | _ => none

end Json

end Downlevel
