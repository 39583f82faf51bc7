/-!
# Shortest decimals

The decimal with the fewest digits among those that read back as a given double, and the nearest to
it among these. A positive double is `m · 2^e` for natural `m`; the numbers that round to it make an
interval around it, which includes its ends exactly if `m` is even. For one digit, two, and so on,
the two neighbours of the double on the grid of decimals with so many digits are tested. Everything
is compared as a fraction of natural numbers.
-/

namespace Downlevel.Decimal

/-- The decimal `digits · 10^exponent`. -/
structure Shortest where
  digits : Nat
  exponent : Int
  deriving DecidableEq, Inhabited, Repr

/-- The double `m · 2^e`, and whether the doubles below it are twice as dense as those above. -/
structure Binary where
  m : Nat
  e : Int
  isEdge : Bool

/-- The number of doubles between one power of two and the next, 2^52. -/
def doublesPerPower : Nat := 0x10000000000000

/-- The parts of a positive double. -/
def Binary.ofFloat (x : Float) : Binary :=
  let bits := x.toBits.toNat
  let fraction := bits % doublesPerPower
  let power : Nat := bits / doublesPerPower % 2048
  if power = 0 then ⟨fraction, -1074, false⟩
  else ⟨fraction + doublesPerPower, (power : Int) - 1075, fraction = 0 && power > 1⟩

/-- A ratio of natural numbers, the second one positive. -/
structure Ratio where
  num : Nat
  den : Nat

/-- `n · b^k` as a ratio. -/
def Ratio.scaled (n b : Nat) : Int → Ratio
  | .ofNat k => ⟨n * b.pow k, 1⟩
  | .negSucc k => ⟨n, b.pow (k + 1)⟩

/-- Whether one ratio is less than another. -/
def Ratio.lt (a b : Ratio) : Bool := a.num * b.den < b.num * a.den

/-- Whether one ratio is at most another. -/
def Ratio.le (a b : Ratio) : Bool := a.num * b.den ≤ b.num * a.den

/-- The ends of the interval of numbers that round to a double: a quarter of the distance is exact
in units of `2^(e-2)`. -/
def Binary.interval (b : Binary) : Ratio × Ratio :=
  let low := if b.isEdge then 4 * b.m - 1 else 4 * b.m - 2
  (Ratio.scaled low 2 (b.e - 2), Ratio.scaled (4 * b.m + 2) 2 (b.e - 2))

/-- Whether a number rounds to a double. -/
def Binary.holds (b : Binary) (r : Ratio) : Bool :=
  let (low, high) := b.interval
  if b.m % 2 = 0 then low.le r && r.le high else low.lt r && r.lt high

/-- The number of decimal digits of a natural number. -/
def digitCount (n : Nat) : Nat := (toString n).length

/-- The power of ten of the first digit of a ratio, or one less. -/
def leadingPower (r : Ratio) : Int := (digitCount r.num : Int) - digitCount r.den - 1

/-- The distance of a decimal from a ratio, as a numerator over the product of denominators. -/
def distance (a b : Ratio) : Nat :=
  let x := a.num * b.den
  let y := b.num * a.den
  (x - y) + (y - x)

/-- The nearest decimal on the grid of multiples of `10^k` that rounds to a double, if there is
one. -/
def onGrid (b : Binary) (value : Ratio) (k : Int) : Option Shortest :=
  let unit := Ratio.scaled 1 10 k
  let below := value.num * unit.den / (value.den * unit.num)
  let multiple (n : Nat) : Ratio := ⟨n * unit.num, unit.den⟩
  let isBelow := 0 < below && b.holds (multiple below)
  let isAbove := b.holds (multiple (below + 1))
  if isBelow && isAbove then
    let isNearer := distance (multiple (below + 1)) value < distance (multiple below) value
    some (if isNearer then ⟨below + 1, k⟩ else ⟨below, k⟩)
  else if isBelow then some ⟨below, k⟩
  else if isAbove then some ⟨below + 1, k⟩
  else none

/-- The first grid from `10^k` down that holds a decimal. -/
def search (b : Binary) (value : Ratio) : Nat → Int → Shortest
  | 0, k => ⟨0, k⟩
  | fuel + 1, k =>
    match onGrid b value k with
    | some s => s
    | none => search b value fuel (k - 1)

/-- A decimal without zeros at its end. -/
def trim : Nat → Shortest → Shortest
  | 0, s => s
  | fuel + 1, s =>
    if s.digits ≠ 0 ∧ s.digits % 10 = 0 then trim fuel ⟨s.digits / 10, s.exponent + 1⟩ else s

/-- The shortest decimal of a positive double. -/
def shortest (x : Float) : Shortest :=
  let b := Binary.ofFloat x
  let value := Ratio.scaled b.m 2 b.e
  trim 400 (search b value 20 (leadingPower value + 1))

end Downlevel.Decimal
