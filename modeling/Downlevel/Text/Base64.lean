import Downlevel.Text.Utf8

/-!
# Base 64

The standard alphabet with padding: three bytes make four digits, and a last group of one or two
bytes is filled up with `=`.
-/

namespace Downlevel.Text.Base64

/-- The digits in order of their value. -/
def alphabet : List Char :=
  "ABCDEFGHIJKLMNOPQRSTUVWXYZabcdefghijklmnopqrstuvwxyz0123456789+/".toList

/-- The digit of a value below 64. -/
def digit (n : Nat) : Char := alphabet.getD n '='

/-- The digits of a sequence of byte values. -/
def digits : List Nat → List Char
  | [] => []
  | [a] => [digit (a / 4), digit (a % 4 * 16), '=', '=']
  | [a, b] => [digit (a / 4), digit (a % 4 * 16 + b / 16), digit (b % 16 * 4), '=']
  | a :: b :: c :: rest =>
    digit (a / 4) :: digit (a % 4 * 16 + b / 16) :: digit (b % 16 * 4 + c / 64) :: digit (c % 64)
      :: digits rest

/-- The base 64 form of the UTF-8 bytes of a string. -/
def encode (s : String) : String :=
  String.ofList (digits ((utf8 s).map UInt8.toNat))

end Downlevel.Text.Base64
