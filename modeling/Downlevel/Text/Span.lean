/-!
# Spans of a text

A script is handled as its list of characters, and every position in it is a UTF-8 byte offset, the
unit in which tools that exchange positions count. This module measures texts in bytes and cuts
them at byte offsets. Cutting at an offset inside a character keeps that character on the left, so
the two halves of a cut always make up the text.
-/

namespace Downlevel

/-- A half-open range of byte offsets. -/
structure Span where
  /-- The offset of the first byte. -/
  start : Nat
  /-- The offset behind the last byte. -/
  stop : Nat
  deriving DecidableEq, Inhabited, Repr

namespace Text

/-- The number of bytes of a text. -/
def width : List Char → Nat
  | [] => 0
  | c :: cs => c.utf8Size + width cs

/-- The part of a text behind its first `n` bytes. -/
def dropBytes : List Char → Nat → List Char
  | [], _ => []
  | c :: cs, n => if n = 0 then c :: cs else dropBytes cs (n - c.utf8Size)

/-- The part of a text within its first `n` bytes. -/
def takeBytes : List Char → Nat → List Char
  | [], _ => []
  | c :: cs, n => if n = 0 then [] else c :: takeBytes cs (n - c.utf8Size)

/-- The part of a text that a span covers. -/
def slice (text : List Char) (span : Span) : List Char :=
  takeBytes (dropBytes text span.start) (span.stop - span.start)

/-- The number of line feeds of a text. -/
def newlines (text : List Char) : Nat := text.count '\n'

@[simp] theorem dropBytes_zero (cs : List Char) : dropBytes cs 0 = cs := by
  cases cs <;> simp [dropBytes]

@[simp] theorem takeBytes_zero (cs : List Char) : takeBytes cs 0 = [] := by
  cases cs <;> simp [takeBytes]

/-- The two halves of a cut make up the text. -/
@[simp] theorem takeBytes_append_dropBytes (cs : List Char) (n : Nat) :
    takeBytes cs n ++ dropBytes cs n = cs := by
  induction cs generalizing n with
  | nil => rfl
  | cons c cs ih =>
    by_cases h : n = 0
    · simp [h]
    · simp [takeBytes, dropBytes, h, ih]

/-- Widths add up. -/
@[simp] theorem width_append (as bs : List Char) : width (as ++ bs) = width as + width bs := by
  induction as with
  | nil => simp [width]
  | cons c cs ih => simp [width, ih, Nat.add_assoc]

end Text

end Downlevel
