import Downlevel.Script.Grammar.Type

/-!
# Patterns

Patterns that bind names, and patterns that assign to places. A rest element comes last and no comma
follows it.
-/

namespace Downlevel.Script.Grammar

variable (r : Rules)

/-- Reads a value behind an equals sign and adds it to a pattern as its default. -/
def withDefault (pattern : Node) : Reader Node := do
  if ← takeMark "=" then
    return .assignment .plain pattern (← inside r.assignment)
  else return pattern

/-- Elements between commas, where places between commas may be empty. -/
def arrayPattern (element rest : Reader Node) : Reader Node := do
  mark "["
  let (reversed, _) ← repeatFrom (([] : List Node), false) fun (es, isLast) ↦ do
    if isLast || (← isAtMark "]") then return none
    else if ← takeMark "," then return some (.hole :: es, false)
    else if ← takeMark "..." then return some (.spread (← rest) :: es, true)
    else
      let e ← element
      if !(← isAtMark "]") then mark ","
      return some (e :: es, false)
  mark "]"
  return .array reversed.reverse

/-- Whether a key is followed by a value of its own; otherwise it is a shorthand. -/
def isKeyed : Reader Bool := return !((← peek).name?.isSome) || (← peekSecond).isMark ":"

/-- One property of an object pattern. -/
def patternProperty (element : Reader Node) : Reader Node := do
  if ← isKeyed then
    let key ← memberKey r
    mark ":"
    return .property key (← element)
  else
    let n ← name
    if ← takeMark "=" then return .shorthand n (some (← inside r.assignment))
    else return .shorthand n none

/-- An object pattern. -/
def objectPattern (element rest : Reader Node) : Reader Node := do
  mark openBrace
  let (reversed, _) ← repeatFrom (([] : List Node), false) fun (ps, isLast) ↦ do
    if isLast || (← isAtMark closeBrace) then return none
    else if ← takeMark "..." then return some (.spread (← rest) :: ps, true)
    else
      let p ← patternProperty r element
      if !(← isAtMark closeBrace) then mark ","
      return some (p :: ps, false)
  mark closeBrace
  return .object reversed.reverse

/-! ## Binding names -/

/-- A pattern with its default. -/
def bindingElement : Reader Node := do withDefault r (← r.binding)

/-- A pattern that binds names. -/
def binding : Reader Node := do
  let t ← peek
  if t.isMark "[" then arrayPattern (bindingElement r) r.binding
  else if t.isMark openBrace then
    objectPattern r (bindingElement r) (do return .identifier (← name))
  else return .identifier (← name)

/-! ## Assigning to places -/

/-- Whether an expression denotes a single place. -/
def isPlace : Node → Bool
  | .identifier _ | .member .. | .privateMember .. | .index .. => true
  | .parenthesized e => isPlace e
  | _ => false

/-- Whether an expression has the form of a pattern. -/
def isPatternForm : Node → Bool
  | .array _ | .object _ => true
  | _ => false

/-- Whether a pattern may end before a token. -/
def endsTarget (t : Token) : Bool :=
  t.isMark "=" || t.isMark "," || t.isMark "]" || t.isMark closeBrace || t.isMark ")"
    || t.isWord "of" || t.isWord "in"

/-- A place or pattern with its default. -/
def targetElement : Reader Node := do withDefault r (← inside r.target)

/-- A pattern that assigns to places. -/
def targetPattern : Reader Node := do
  let pattern ← if ← isAtMark "[" then arrayPattern (targetElement r) (inside r.target)
    else objectPattern r (targetElement r) (inside r.target)
  -- An access behind the closing bracket is one to a value, and the value is not a pattern.
  guardThat (endsTarget (← peek))
  return pattern

/-- A place or a pattern that assigns to places. -/
def target : Reader Node := do
  let t ← peek
  let pattern ← if t.isMark "[" || t.isMark openBrace then attempt (targetPattern r) else pure none
  match pattern with
  | some p => return p
  | none =>
    let e ← r.leftHandSide
    guardThat (isPlace e)
    return e

/-- What is assigned to, for an expression that was read from a place: a form of a pattern is read
again as one. -/
def asTarget (start : Cursor) (e : Node) : Reader Node := do
  if isPatternForm e then
    continueAt start
    targetPattern r
  else
    guardThat (isPlace e)
    return e

end Downlevel.Script.Grammar
