import Downlevel.CommonJs.Output
import Downlevel.Proofs.Text.Splice

/-!
# Lines of a converted script

A text is divided into lines, and put together again without the comments with maps. What that does
is described for a text whose first line has a beginning that stands elsewhere, because a cut of a
text divides one of its lines. So what is kept falls apart at every cut: dropping comments changes
neither the number of lines nor the place of anything on a line that is kept.
-/

namespace Downlevel.CommonJs

open Text

/-! ## Lines of a text -/

/-- A text up to its first line feed. -/
def firstLine (text : List Char) : List Char := text.takeWhile fun c ↦ decide (c ≠ '\n')

theorem lines_cons (c : Char) (cs : List Char) :
    ∃ line rest, lines cs = line :: rest ∧
      lines (c :: cs) = if c = '\n' then [] :: line :: rest else (c :: line) :: rest := by
  have hne : lines cs ≠ [] := by
    cases cs with
    | nil => simp [lines]
    | cons d ds =>
      rw [lines]
      split
      · split <;> simp
      · simp
  cases h : lines cs with
  | nil => exact absurd h hne
  | cons line rest => exact ⟨line, rest, rfl, by rw [lines, h]⟩

theorem exists_lines_eq (text : List Char) : ∃ rest, lines text = firstLine text :: rest := by
  unfold firstLine
  induction text with
  | nil => exact ⟨[], rfl⟩
  | cons c cs ih =>
    obtain ⟨rest, hrest⟩ := ih
    obtain ⟨line, tail, hlines, hcons⟩ := lines_cons c cs
    rw [hrest] at hlines
    cases hlines
    rw [hcons]
    by_cases hc : c = '\n'
    · exact ⟨_, by rw [if_pos hc, List.takeWhile_cons_of_neg (by simpa using hc)]⟩
    · exact ⟨_, by rw [if_neg hc, List.takeWhile_cons_of_pos (by simpa using hc)]⟩

/-! ## Whole lines -/

/-- A text that is empty or ends in a line feed. -/
def WholeLines (text : List Char) : Prop := text = [] ∨ endsLine text = true

theorem WholeLines.of_endsLine_append {as bs : List Char} (h : endsLine bs = true) :
    WholeLines (as ++ bs) := by
  right
  unfold endsLine at *
  rw [beq_iff_eq] at *
  rw [List.getLast?_append, h, Option.some_or]

theorem WholeLines.append {as bs : List Char} (has : WholeLines as) (hbs : WholeLines bs) :
    WholeLines (as ++ bs) := by
  rcases hbs with rfl | hbs
  · rwa [List.append_nil]
  · exact WholeLines.of_endsLine_append hbs

/-! ## What is kept behind a cut -/

theorem unlines_cons (line : List Char) (rest : List (List Char)) :
    ∃ behind, unlines (line :: rest) = line ++ behind := by
  cases rest with
  | nil => exact ⟨[], by rw [unlines, List.append_nil]⟩
  | cons next rest => exact ⟨_, rfl⟩

theorem unlines_cons_cons (c : Char) (line : List Char) (rest : List (List Char)) :
    unlines ((c :: line) :: rest) = c :: unlines (line :: rest) := by
  cases rest <;> rfl

/-- A line, or nothing if it refers to a map. -/
def keptLine (line : List Char) : List Char := if refersToMap line then [] else line

/-- The beginning of the line on which a text ends whose first line starts with `front`. -/
def lastLine (front : List Char) : List Char → List Char
  | [] => front
  | c :: cs => if c = '\n' then lastLine [] cs else lastLine (front ++ [c]) cs

/-- The lines of a text whose first line starts with `front`. -/
def linesBehind (front text : List Char) : List (List Char) :=
  match lines text with
  | [] => []
  | line :: rest => (front ++ line) :: rest

/-- What is kept of a text whose first line starts with `front`. -/
def keptBehind (front text : List Char) : List Char :=
  match lines text with
  | [] => []
  | line :: rest =>
    unlines ((if refersToMap (front ++ line) then [] else line) :: rest.map keptLine)

section Cut

variable {text line cs : List Char} {rest : List (List Char)} {c : Char}

theorem linesBehind_eq (front : List Char) (h : lines text = line :: rest) :
    linesBehind front text = (front ++ line) :: rest := by
  rw [linesBehind, h]

theorem keptBehind_eq (front : List Char) (h : lines text = line :: rest) :
    keptBehind front text
      = unlines ((if refersToMap (front ++ line) then [] else line) :: rest.map keptLine) := by
  rw [keptBehind, h]

theorem linesBehind_nil (text : List Char) : linesBehind [] text = lines text := by
  obtain ⟨rest, hlines⟩ := exists_lines_eq text
  rw [linesBehind_eq [] hlines, hlines, List.nil_append]

theorem linesBehind_newline (front cs : List Char) :
    linesBehind front ('\n' :: cs) = front :: linesBehind [] cs := by
  obtain ⟨line, rest, hlines, hcons⟩ := lines_cons '\n' cs
  rw [if_pos rfl, ← hlines] at hcons
  rw [linesBehind_nil, linesBehind_eq front hcons, List.append_nil]

theorem linesBehind_cons (hc : c ≠ '\n') (front cs : List Char) :
    linesBehind front (c :: cs) = linesBehind (front ++ [c]) cs := by
  obtain ⟨line, rest, hlines, hcons⟩ := lines_cons c cs
  rw [if_neg hc] at hcons
  rw [linesBehind_eq front hcons, linesBehind_eq _ hlines, List.append_assoc,
    List.singleton_append]

theorem keptBehind_nil (text : List Char) : keptBehind [] text = dropMapComments text := by
  obtain ⟨rest, hlines⟩ := exists_lines_eq text
  rw [keptBehind_eq [] hlines, dropMapComments, hlines]
  rfl

theorem keptBehind_newline (front cs : List Char) :
    keptBehind front ('\n' :: cs) = '\n' :: keptBehind [] cs := by
  obtain ⟨line, rest, hlines, hcons⟩ := lines_cons '\n' cs
  rw [if_pos rfl] at hcons
  rw [keptBehind_eq front hcons, keptBehind_eq [] hlines, ite_self]
  rfl

theorem keptBehind_cons (hc : c ≠ '\n') (front cs : List Char) :
    keptBehind front (c :: cs)
      = (if refersToMap ((linesBehind front (c :: cs)).getD 0 []) then [] else [c])
        ++ keptBehind (front ++ [c]) cs := by
  obtain ⟨line, rest, hlines, hcons⟩ := lines_cons c cs
  rw [if_neg hc] at hcons
  rw [keptBehind_eq front hcons, keptBehind_eq _ hlines, linesBehind_eq front hcons,
    List.getD_cons_zero, List.append_assoc, List.singleton_append]
  split
  · rfl
  · rw [unlines_cons_cons]
    rfl

end Cut

/-- Behind a cut, the lines are those of what follows, the first one with what stands before it. -/
theorem getD_linesBehind_append (front before behind : List Char) (i : Nat) :
    (linesBehind front (before ++ behind)).getD (newlines before + i) []
      = (linesBehind (lastLine front before) behind).getD i [] := by
  induction before generalizing front with
  | nil => rw [newlines_nil, Nat.zero_add, List.nil_append, lastLine]
  | cons c cs ih =>
    rw [List.cons_append, lastLine]
    by_cases hc : c = '\n'
    · rw [if_pos hc, hc, newlines_cons_newline, Nat.add_right_comm, linesBehind_newline,
        List.getD_cons_succ, ih]
    · rw [if_neg hc, newlines_cons_of_ne hc, linesBehind_cons hc, ih]

/-- What is kept falls apart where the text does, and has all its line feeds. If the line of the cut
is not kept, the first part consists of whole lines. -/
theorem exists_keptBehind_append (front before behind : List Char) :
    ∃ kept, keptBehind front (before ++ behind)
        = kept ++ keptBehind (lastLine front before) behind ∧
      newlines kept = newlines before ∧
      (refersToMap ((linesBehind (lastLine front before) behind).getD 0 []) = true →
        WholeLines kept) := by
  induction before generalizing front with
  | nil => exact ⟨[], rfl, rfl, fun _ ↦ .inl rfl⟩
  | cons c cs ih =>
    rw [List.cons_append, lastLine]
    by_cases hc : c = '\n'
    · obtain ⟨kept, hkept, hcount, hwhole⟩ := ih []
      rw [if_pos hc, hc, keptBehind_newline, hkept, newlines_cons_newline, ← hcount]
      refine ⟨'\n' :: kept, rfl, newlines_cons_newline kept, fun hrefers ↦ ?_⟩
      have hfeed : WholeLines ['\n'] := .inr rfl
      exact hfeed.append (hwhole hrefers)
    · obtain ⟨kept, hkept, hcount, hwhole⟩ := ih (front ++ [c])
      have hline := getD_linesBehind_append front (c :: cs) behind 0
      rw [newlines_cons_of_ne hc, ← hcount, lastLine, if_neg hc] at hline
      rw [if_neg hc, keptBehind_cons hc, hkept, ← List.append_assoc]
      refine ⟨_, rfl, ?_, fun hrefers ↦ ?_⟩
      · rw [newlines_append, hcount, newlines_cons_of_ne hc, Nat.add_eq_right, newlines_eq_zero]
        split
        · exact List.not_mem_nil
        · exact fun h ↦ hc (List.mem_singleton.mp h).symm
      · rcases hwhole hrefers with rfl | hends
        · -- Without a line feed before the cut, `c` stands on the line that is not kept.
          rw [newlines_nil, Nat.zero_add, List.cons_append] at hline
          rw [hline, if_pos hrefers]
          exact .inl rfl
        · exact WholeLines.of_endsLine_append hends

theorem firstLine_isPrefix_append (thing behind : List Char) :
    firstLine thing <+: firstLine (thing ++ behind) := by
  unfold firstLine
  induction thing with
  | nil => exact List.nil_prefix
  | cons c cs ih =>
    by_cases hc : c = '\n'
    · rw [List.takeWhile_cons_of_neg (by simpa using hc)]
      exact List.nil_prefix
    · simpa [List.takeWhile_cons, hc] using ih

/-- Something starts on a line of a text: in front of it are as many line feeds, and the first line
of it follows. -/
def StartsOnLine (text thing : List Char) (line : Nat) : Prop :=
  ∃ before behind, text = before ++ behind ∧ newlines before = line ∧ firstLine thing <+: behind

theorem StartsOnLine.append_left {text thing : List Char} {line : Nat}
    (h : StartsOnLine text thing line) (front : List Char) :
    StartsOnLine (front ++ text) thing (newlines front + line) := by
  obtain ⟨before, behind, rfl, rfl, hthing⟩ := h
  exact ⟨front ++ before, behind, (List.append_assoc ..).symm, newlines_append front before, hthing⟩

/-- What starts on a line behind whole lines starts on that line of the rest. -/
theorem StartsOnLine.of_append_left {front text thing : List Char} {line : Nat}
    (hfront : WholeLines front) (h : StartsOnLine (front ++ text) thing (newlines front + line)) :
    StartsOnLine text thing line := by
  obtain ⟨before, behind, heq, hcount, hthing⟩ := h
  rcases List.append_eq_append_iff.mp heq with ⟨inner, rfl, rfl⟩ | ⟨inner, rfl, rfl⟩
  · rw [newlines_append] at hcount
    exact ⟨inner, behind, rfl, by omega, hthing⟩
  · rw [newlines_append] at hcount
    have hnone : '\n' ∉ inner := newlines_eq_zero.mp (by omega)
    have hinner : inner = [] := by
      rcases hfront with hempty | hends
      · exact (List.append_eq_nil_iff.mp hempty).2
      · by_contra hne
        rw [endsLine, beq_iff_eq, List.getLast?_append_of_ne_nil _ hne] at hends
        exact hnone (List.mem_of_getLast? hends)
    subst hinner
    exact ⟨[], text, rfl, by rw [newlines_nil]; omega, hthing⟩

/-- What starts with something else than a line feed does not start on an empty line. -/
theorem not_startsOnLine_unlines_nil {rest : List (List Char)} {c : Char} {cs : List Char}
    (hc : c ≠ '\n') : ¬StartsOnLine (unlines ([] :: rest)) (c :: cs) 0 := by
  rintro ⟨before, behind, heq, hcount, hthing⟩
  rw [firstLine, List.takeWhile_cons_of_pos (by simpa using hc)] at hthing
  obtain ⟨tail, rfl⟩ := hthing
  cases rest with
  | nil => simp [unlines] at heq
  | cons next rest =>
    rw [unlines, List.nil_append] at heq
    cases before with
    | nil => exact hc (List.cons.inj heq).1.symm
    | cons b bs =>
      rw [← (List.cons.inj heq).1] at hcount
      exact newlines_eq_zero.mp hcount List.mem_cons_self

/-- What stands in a text still starts on its line when comments with maps have been dropped,
unless its line is taken for such a comment. -/
theorem startsOnLine_dropMapComments_iff {before behind cs : List Char} {c : Char} (hc : c ≠ '\n') :
    StartsOnLine (dropMapComments (before ++ (c :: cs ++ behind))) (c :: cs) (newlines before) ↔
      refersToMap ((lines (before ++ (c :: cs ++ behind))).getD (newlines before) []) = false := by
  obtain ⟨kept, hkept, hcount, hwhole⟩ := exists_keptBehind_append [] before (c :: cs ++ behind)
  obtain ⟨rest, hlines⟩ := exists_lines_eq (c :: cs ++ behind)
  have hline := getD_linesBehind_append [] before (c :: cs ++ behind) 0
  rw [linesBehind_nil, Nat.add_zero] at hline
  rw [← keptBehind_nil, hkept, hline, ← hcount]
  rw [linesBehind_eq _ hlines, List.getD_cons_zero] at hwhole ⊢
  rw [keptBehind_eq _ hlines]
  cases hrefers : refersToMap _ with
  | true =>
    -- The line has become empty, and what does not start with a line feed does not start there.
    rw [if_pos rfl]
    exact ⟨fun h ↦ (not_startsOnLine_unlines_nil hc (h.of_append_left (hwhole hrefers))).elim, nofun⟩
  | false =>
    obtain ⟨back, hback⟩ := unlines_cons (firstLine (c :: cs ++ behind)) (rest.map keptLine)
    rw [if_neg Bool.false_ne_true]
    refine ⟨fun _ ↦ rfl, fun _ ↦ ⟨kept, _, rfl, rfl, ?_⟩⟩
    rw [hback]
    exact (firstLine_isPrefix_append (c :: cs) behind).trans (List.prefix_append ..)

end Downlevel.CommonJs
