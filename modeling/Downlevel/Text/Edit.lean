import Downlevel.Text.Span

/-!
# Edits of a text

An edit replaces the text of a span. Several edits are applied together: they are put in order of
their start, the wider of two that start together first, and an edit that starts before the end of
the last one kept is dropped. What is kept is then spliced in from left to right.
-/

namespace Downlevel

/-- Puts `text` in place of what `span` covers. -/
structure Edit where
  /-- What is replaced. -/
  span : Span
  /-- What takes its place. -/
  text : String
  deriving DecidableEq, Inhabited, Repr

namespace Edit

/-- Whether `a` comes no later than `b`: it starts earlier, or they start together and `a` reaches
at least as far. -/
def comesFirst (a b : Edit) : Bool :=
  a.span.start < b.span.start || (a.span.start == b.span.start && b.span.stop ≤ a.span.stop)

/-- The edits that start at or after `limit` and after the end of every edit kept before them. -/
def keep : Nat → List Edit → List Edit
  | _, [] => []
  | limit, e :: es => if limit ≤ e.span.start then e :: keep e.span.stop es else keep limit es

/-- The edits that are carried out, in the order of the text. -/
def outermost (edits : List Edit) : List Edit := keep 0 (edits.mergeSort comesFirst)

/-- Carries out ordered, disjoint edits on a text that begins at byte `base` of the script. -/
def splice : Nat → List Edit → List Char → List Char
  | _, [], text => text
  | base, e :: es, text =>
    Text.takeBytes text (e.span.start - base) ++ e.text.toList
      ++ splice e.span.stop es (Text.dropBytes text (e.span.stop - base))

/-- Applies edits to a text that begins at byte `base` of the script. -/
def apply (base : Nat) (edits : List Edit) (text : List Char) : List Char :=
  splice base (outermost edits) text

end Edit

end Downlevel
