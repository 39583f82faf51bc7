import Downlevel.SourceMap.Basic
import Downlevel.Text.Base64
import Mathlib.Data.Option.Basic

/-!
# Decoded mappings

What the mappings of a source map mean. Numbers are written in base 64 with five bits to a digit,
and all but the column of a generated line are differences to the mapping before, across lines. So
the meaning of a line depends on the lines in front of it, but a line without mappings changes
nothing but the number of the lines behind it.
-/

namespace Downlevel.SourceMap

/-! ## Mappings -/

/-- A place in a source, and perhaps the name that stands there. -/
structure Original where
  source : Int
  line : Int
  column : Int
  name : Option Int
  deriving DecidableEq, Repr

/-- A place in the generated script, and perhaps the one that it comes from. -/
structure Mapping where
  line : Nat
  column : Int
  original : Option Original
  deriving DecidableEq, Repr

/-- A mapping in a script behind a number of new lines. -/
def Mapping.shift (lines : Nat) (m : Mapping) : Mapping := { m with line := lines + m.line }

/-- The mapping of the start of a line to the start of a line of the first source. -/
def Mapping.ofLine (line original : Nat) : Mapping := ⟨line, 0, some ⟨0, original, 0, none⟩⟩

/-! ## Numbers -/

/-- The value of a digit in base 64. -/
def digitValue? (c : Char) : Option Nat := Text.Base64.alphabet.idxOf? c

/-- The integer that is written with its sign in the lowest bit. -/
def signed (n : Nat) : Int := if n % 2 = 1 then -(n / 2 : Nat) else (n / 2 : Nat)

/-- The numbers of a text. Each digit carries five bits, the lowest ones first, and a sixth one if
the number goes on; `value` and `scale` are those of the digits read of a number. -/
def numbers (value scale : Nat) : List Char → Option (List Int)
  | [] => if scale = 1 then some [] else none
  | c :: cs =>
    match digitValue? c with
    | none => none
    | some d =>
      let value := value + d % 32 * scale
      if d < 32 then (numbers 0 1 cs).map (signed value :: ·) else numbers value (scale * 32) cs

/-! ## Segments and lines -/

/-- What the next original place is counted from. -/
structure Carry where
  source : Int
  line : Int
  column : Int
  name : Int
  deriving DecidableEq, Repr

/-- What the first original place is counted from. -/
def Carry.start : Carry := ⟨0, 0, 0, 0⟩

/-- One mapping, behind a column of its line. -/
def segment (line : Nat) (column : Int) (carry : Carry) (text : List Char) :
    Option (Mapping × Carry) :=
  match numbers 0 1 text with
  | some [c] => some (⟨line, column + c, none⟩, carry)
  | some [c, s, l, k] =>
    let carry := { carry with
      source := carry.source + s, line := carry.line + l, column := carry.column + k }
    some (⟨line, column + c, some ⟨carry.source, carry.line, carry.column, none⟩⟩, carry)
  | some [c, s, l, k, n] =>
    let carry : Carry :=
      ⟨carry.source + s, carry.line + l, carry.column + k, carry.name + n⟩
    some (⟨line, column + c, some ⟨carry.source, carry.line, carry.column, some carry.name⟩⟩,
      carry)
  | _ => none

/-- The mappings of one line behind a column. -/
def segments (line : Nat) (column : Int) (carry : Carry) :
    List (List Char) → Option (List Mapping × Carry)
  | [] => some ([], carry)
  | text :: texts =>
    match segment line column carry text with
    | none => none
    | some (m, carry) =>
      (segments line m.column carry texts).map fun (ms, carry) ↦ (m :: ms, carry)

/-- The texts of the mappings of one line. -/
def segmentTexts (text : List Char) : List (List Char) := (text.splitOn ',').filter (· ≠ [])

/-- The mappings of lines, the first with a given number. -/
def decodeLines (line : Nat) (carry : Carry) : List (List Char) → Option (List Mapping)
  | [] => some []
  | text :: texts =>
    match segments line 0 carry (segmentTexts text) with
    | none => none
    | some (ms, carry) => (decodeLines (line + 1) carry texts).map (ms ++ ·)

/-- What mappings mean, if they are well written. -/
def decode (mappings : String) : Option (List Mapping) :=
  decodeLines 0 .start (mappings.toList.splitOn ';')

example : decode "AAAA,IAAIA;;AACJ,C" =
    some [⟨0, 0, some ⟨0, 0, 0, none⟩⟩, ⟨0, 4, some ⟨0, 0, 4, some 0⟩⟩,
      ⟨2, 0, some ⟨0, 1, 0, none⟩⟩, ⟨2, 1, none⟩] := by
  decide +kernel

/-! ## Lines in front -/

theorem segment_add (k line : Nat) (column : Int) (carry : Carry) (text : List Char) :
    segment (k + line) column carry text
      = (segment line column carry text).map fun (m, carry) ↦ (m.shift k, carry) := by
  unfold segment
  split <;> rfl

theorem segments_add (k line : Nat) (column : Int) (carry : Carry) (texts : List (List Char)) :
    segments (k + line) column carry texts
      = (segments line column carry texts).map fun (ms, carry) ↦ (ms.map (·.shift k), carry) := by
  induction texts generalizing column carry with
  | nil => rfl
  | cons text texts ih =>
    rw [segments, segments, segment_add]
    cases segment line column carry text with
    | none => rfl
    | some found =>
      obtain ⟨m, carry'⟩ := found
      have hcolumn : (m.shift k).column = m.column := rfl
      simp only [Option.map_some]
      rw [hcolumn, ih, Option.map_map, Option.map_map]
      rfl

theorem decodeLines_add (k line : Nat) (carry : Carry) (texts : List (List Char)) :
    decodeLines (k + line) carry texts
      = (decodeLines line carry texts).map (List.map (Mapping.shift k)) := by
  induction texts generalizing line carry with
  | nil => rfl
  | cons text texts ih =>
    rw [decodeLines, decodeLines, segments_add]
    cases segments line 0 carry (segmentTexts text) with
    | none => rfl
    | some found =>
      obtain ⟨ms, carry'⟩ := found
      simp only [Option.map_some]
      rw [Nat.add_assoc, ih, Option.map_map, Option.map_map]
      refine congrArg (Option.map · _) (funext fun rest ↦ ?_)
      exact List.map_append.symm

/-- A line without mappings only counts. -/
theorem decodeLines_nil (line : Nat) (carry : Carry) (texts : List (List Char)) :
    decodeLines line carry ([] :: texts) = decodeLines (line + 1) carry texts := by
  have hnone : segmentTexts [] = [] := by decide
  rw [decodeLines, hnone, segments]
  exact Option.map_id_apply

theorem splitOn_blankLines (n : Nat) (text : List Char) :
    (List.replicate n ';' ++ text).splitOn ';'
      = List.replicate n [] ++ text.splitOn ';' := by
  induction n with
  | zero => rfl
  | succ n ih =>
    rw [List.replicate_succ, List.replicate_succ, List.cons_append, List.cons_append, ← ih]
    exact List.splitOn_append_cons_self [] _

/-- Semicolons in front of mappings move them down. -/
theorem decode_blankLines_append (n : Nat) (mappings : String) :
    decode (blankLines n ++ mappings) = (decode mappings).map (List.map (Mapping.shift n)) := by
  -- A line without mappings carries nothing on, so each of them adds one to the line number only.
  have hlines : ∀ line, decodeLines line .start
      (List.replicate n [] ++ mappings.toList.splitOn ';')
        = decodeLines (n + line) .start (mappings.toList.splitOn ';') := by
    induction n with
    | zero =>
      intro line
      rw [Nat.zero_add]
      rfl
    | succ n ih =>
      intro line
      rw [List.replicate_succ, List.cons_append, decodeLines_nil, ih]
      exact congrArg (decodeLines · _ _) (by omega)
  rw [decode, String.toList_append, blankLines, String.toList_ofList, splitOn_blankLines, hlines,
    decodeLines_add]
  rfl

/-! ## Lines mapped to themselves -/

theorem segment_nextLine (line : Nat) (original : Int) :
    segment line 0 ⟨0, original, 0, 0⟩ nextLine.toList
      = some (⟨line, 0, some ⟨0, original + 1, 0, none⟩⟩, ⟨0, original + 1, 0, 0⟩) := by
  have hnumbers : numbers 0 1 nextLine.toList = some [0, 0, 1, 0] := by decide
  rw [segment, hnumbers]
  rfl

/-- Each further line is one line further in the source. -/
theorem decodeLines_nextLine (line original n : Nat) :
    decodeLines line ⟨0, original, 0, 0⟩ (List.replicate n nextLine.toList)
      = some ((List.range n).map fun i ↦ Mapping.ofLine (line + i) (original + 1 + i)) := by
  induction n generalizing line original with
  | zero => rfl
  | succ n ih =>
    have htexts : segmentTexts nextLine.toList = [nextLine.toList] := by decide
    have hcast : (original : Int) + 1 = (original + 1 : Nat) := rfl
    rw [List.replicate_succ, decodeLines, htexts, segments, segment_nextLine, hcast]
    simp only [segments, Option.map_some]
    rw [ih, List.range_succ_eq_map, List.map_cons, List.map_map]
    refine congrArg some (congrArg₂ List.cons rfl (List.map_congr_left fun i _ ↦ ?_))
    exact congrArg₂ Mapping.ofLine (by omega) (by omega)

theorem splitOn_lineMappings (n : Nat) :
    (";".intercalate (lineMappings (n + 1))).toList.splitOn ';'
      = firstLine.toList :: List.replicate n nextLine.toList := by
  have hfirst : ';' ∉ firstLine.toList := by decide
  have hnext : ';' ∉ nextLine.toList := by decide
  rw [String.toList_intercalate]
  refine (List.splitOn_intercalate ';' (fun l hl ↦ ?_) (by simp [lineMappings])).trans
    (by rw [lineMappings, List.map_cons, List.map_replicate])
  obtain ⟨text, htext, rfl⟩ := List.mem_map.mp hl
  rcases List.mem_cons.mp htext with rfl | htext
  · exact hfirst
  · rw [List.eq_of_mem_replicate htext]
    exact hnext

/-- The mappings of lines send every line to itself. -/
theorem decode_lineMappings (n : Nat) :
    decode (";".intercalate (lineMappings (n + 1)))
      = some ((List.range (n + 1)).map fun i ↦ Mapping.ofLine i i) := by
  have htexts : segmentTexts firstLine.toList = [firstLine.toList] := by decide
  have hsegment : segment 0 0 .start firstLine.toList
      = some (Mapping.ofLine 0 0, ⟨0, (0 : Nat), 0, 0⟩) := by
    have hnumbers : numbers 0 1 firstLine.toList = some [0, 0, 0, 0] := by decide
    rw [segment, hnumbers]
    rfl
  rw [decode, splitOn_lineMappings, decodeLines, htexts, segments, hsegment]
  simp only [segments, Option.map_some]
  rw [decodeLines_nextLine, List.range_succ_eq_map, List.map_cons, List.map_map]
  refine congrArg some (congrArg₂ List.cons rfl (List.map_congr_left fun i _ ↦ ?_))
  exact congrArg₂ Mapping.ofLine (by omega) (by omega)

theorem length_splitOn (text : List Char) :
    (text.splitOn '\n').length = text.count '\n' + 1 := by
  induction text with
  | nil => rfl
  | cons c cs ih =>
    rw [List.splitOn_cons_eq_if_modifyHead, List.count_cons]
    split
    · rw [List.length_cons, ih]
    · rw [List.length_modifyHead, ih, Nat.add_zero]

/-- The map of the lines of a source behind the lines of a header. -/
theorem decode_ofLines (filename source : String) (headerLines : Nat) :
    decode (ofLines filename source headerLines).mappings
      = some ((List.range (source.toList.splitOn '\n').length).map fun i ↦
          Mapping.ofLine (headerLines + i) i) := by
  have hmappings : (ofLines filename source headerLines).mappings
      = blankLines headerLines ++ ";".intercalate (lineMappings (lineCount source)) := rfl
  rw [hmappings, decode_blankLines_append, lineCount, decode_lineMappings, length_splitOn,
    Option.map_some, List.map_map]
  rfl

end Downlevel.SourceMap
