import Downlevel.Decimal.Shortest

/-!
# Numbers in scripts

The text of a number, in the shortest of several spellings.
-/

namespace Downlevel.Script

open Decimal

/-- Zeros in a row. -/
def zeros (n : Nat) : String := String.ofList (List.replicate n '0')

/-- The plain spelling of a positive double: digits with a point where the point is near them, and
one digit in front of the point with a power of ten elsewhere. -/
def plainNumber (x : Float) : String :=
  let s := shortest x
  let ds := (toString s.digits).toList
  let n := ds.length
  let point : Int := s.exponent + n
  if n ≤ point ∧ point ≤ 21 then String.ofList ds ++ zeros (point - n).toNat
  else if 0 < point ∧ point ≤ 21 then
    String.ofList (ds.take point.toNat) ++ "." ++ String.ofList (ds.drop point.toNat)
  else if -6 < point ∧ point ≤ 0 then "0." ++ zeros (-point).toNat ++ String.ofList ds
  else
    let power := point - 1
    let tail := if n = 1 then "" else "." ++ String.ofList (ds.drop 1)
    String.ofList (ds.take 1) ++ tail ++ "e" ++ (if power < 0 then "-" else "+")
      ++ toString power.natAbs

/-- The shorter of two spellings, the first one if they are equally long. -/
def shorter (a b : String) : String := if b.length < a.length then b else a

/-- Whether a double is a whole number. -/
def isWhole (x : Float) : Bool := x.floor == x

/-- The hexadecimal spelling of a natural number. -/
def hexNumber (n : Nat) : String := "0x" ++ String.ofList (Nat.toDigits 16 n)

/-- The value of a whole double that is not negative. -/
def wholeValue (x : Float) : Nat :=
  let b := Binary.ofFloat x
  match b.e with
  | .ofNat k => b.m <<< k
  | .negSucc k => b.m >>> (k + 1)

/-- A spelling that starts with `.0`, or one with a negative power of ten if that is shorter. -/
def withoutLeadingZeros (s : String) : String :=
  let cs := s.toList.drop 1
  let digits := cs.dropWhile (· == '0')
  shorter s (String.ofList digits ++ "e-" ++ toString cs.length)

/-- A spelling that ends in zeros, or one with a power of ten if that is shorter. -/
def withoutTrailingZeros (s : String) : String :=
  let kept := s.toList.reverse.dropWhile (· == '0')
  let count := s.length - kept.length
  shorter s (String.ofList kept.reverse ++ "e" ++ toString count)

/-- A spelling with a point and a power of ten, or one without the point if that is shorter. -/
def withoutPoint (s : String) : String :=
  let (whole, rest) := s.toList.span (· != '.')
  let (part, power) := (rest.drop 1).span (· != 'e')
  match power with
  | _ :: digits =>
    match (String.ofList digits).toInt? with
    | some p =>
      let moved := String.ofList (whole ++ part) ++ "e" ++ toString (p - part.length)
      shorter s moved
    | none => s
  | [] => s

/-- The shortest spelling of a positive double. -/
def compactNumber (x : Float) : String :=
  let plain := plainNumber x
  let plain := if "0.".toList.isPrefixOf plain.toList then (plain.drop 1).toString else plain
  let plain := plain.replace "e+" "e"
  let hex := hexNumber (wholeValue x)
  if isWhole x && hex.length < plain.length then hex
  else
    let s := if !isWhole x && ".0".toList.isPrefixOf plain.toList then withoutLeadingZeros plain
      else plain
    let s := if s.toList.getLast? == some '0' then withoutTrailingZeros s else s
    withoutPoint s

/-- The text of a number that is not negative. -/
def numberText (x : Float) : String :=
  if x.isNaN then "NaN"
  else if x.isInf then "Infinity"
  else if x == 0 then "0"
  else if isWhole x && x < 1000 then toString (wholeValue x)
  else compactNumber x

/-- Whether a point behind a number would be part of it. -/
def takesPoint (text : String) : Bool := text.toList.all fun c ↦ c != '.' && c != 'e' && c != 'x'

end Downlevel.Script
