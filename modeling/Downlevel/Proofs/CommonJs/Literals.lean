import Downlevel.Proofs.CommonJs.Hoisting
import Downlevel.Proofs.CommonJs.Statements
import Downlevel.Proofs.Script.Spelling.Module

/-!
# Literals in statements that stay

What becomes of the literals in a statement that stays as it is. No edit reaches into them, so they
stand in the body as they are written. But comments with maps are looked for line by line and not
token by token: a literal loses what it has on a line that looks like such a comment, and nothing
else.
-/

namespace Downlevel.CommonJs

open Script Text

/-! ## What is kept of a part of a text -/

/-- The line of a text that goes on from what stands before a place to what stands behind it. -/
def lineAt (before behind : List Char) : List Char := lastLine [] before ++ firstLine behind

/-- What is kept of a part of a text: its line feeds, and what does not stand on a line that refers
to a map. -/
def keptPart (before : List Char) : List Char → List Char → List Char
  | [], _ => []
  | c :: cs, behind =>
    (if c ≠ '\n' ∧ refersToMap (lineAt before (c :: cs ++ behind)) = true then [] else [c])
      ++ keptPart (before ++ [c]) cs behind

section Part

variable {before thing behind : List Char}

theorem lastLine_append (front as bs : List Char) :
    lastLine front (as ++ bs) = lastLine (lastLine front as) bs := by
  induction as generalizing front with
  | nil => rfl
  | cons a as ih =>
    rw [List.cons_append, lastLine, lastLine]
    split <;> exact ih _

/-- Wherever a text is divided, the line of that place is a line of the text. -/
theorem lineAt_mem_lines (before behind : List Char) :
    lineAt before behind ∈ lines (before ++ behind) := by
  suffices h : ∀ front, lastLine front before ++ firstLine behind
      ∈ linesBehind front (before ++ behind) by
    have hline := h []
    rwa [linesBehind_nil] at hline
  intro front
  induction before generalizing front with
  | nil =>
    obtain ⟨rest, hlines⟩ := exists_lines_eq behind
    rw [List.nil_append, linesBehind_eq front hlines]
    exact List.mem_cons_self
  | cons c cs ih =>
    rw [List.cons_append, lastLine]
    by_cases hc : c = '\n'
    · rw [if_pos hc, hc, linesBehind_newline]
      exact List.mem_cons_of_mem _ (ih [])
    · rw [if_neg hc, linesBehind_cons hc]
      exact ih _

theorem keptPart_append (before xs ys behind : List Char) :
    keptPart before (xs ++ ys) behind
      = keptPart before xs (ys ++ behind) ++ keptPart (before ++ xs) ys behind := by
  induction xs generalizing before with
  | nil => rw [List.append_nil]; rfl
  | cons x xs ih =>
    rw [List.cons_append, keptPart, keptPart, ih, List.append_assoc, List.append_assoc,
      List.singleton_append]
    simp only [List.cons_append, List.append_assoc]

/-- What is kept of a text is what is kept of all its parts. -/
theorem keptBehind_eq_keptPart (before text : List Char) :
    keptBehind (lastLine [] before) text = keptPart before text [] := by
  induction text generalizing before with
  | nil => simp [keptBehind, lines, unlines, keptPart]
  | cons c cs ih =>
    have hnext := ih (before ++ [c])
    rw [lastLine_append, lastLine, lastLine] at hnext
    rw [keptPart, ← hnext, List.append_nil]
    by_cases hc : c = '\n'
    · rw [if_pos hc, if_neg (fun h ↦ h.1 hc), hc, keptBehind_newline]
      rfl
    · obtain ⟨rest, hlines⟩ := exists_lines_eq (c :: cs)
      rw [if_neg hc, keptBehind_cons hc, linesBehind_eq _ hlines, List.getD_cons_zero, lineAt]
      simp only [hc, ne_eq, not_false_eq_true, true_and, lastLine]

theorem dropMapComments_append (before thing behind : List Char) :
    dropMapComments (before ++ (thing ++ behind))
      = keptPart [] before (thing ++ behind)
        ++ (keptPart before thing behind ++ keptPart (before ++ thing) behind []) := by
  have hkept := keptBehind_eq_keptPart [] (before ++ (thing ++ behind))
  rw [lastLine, keptBehind_nil, keptPart_append, keptPart_append, List.append_nil,
    List.append_nil, List.nil_append] at hkept
  exact hkept

theorem keptPart_sublist (before thing behind : List Char) :
    (keptPart before thing behind).Sublist thing := by
  induction thing generalizing before with
  | nil => exact List.Sublist.refl _
  | cons c cs ih =>
    rw [keptPart]
    split
    · exact (ih _).cons c
    · exact (ih _).cons_cons c

/-- A part is kept as it is exactly if none of it but line feeds stands on a line that refers to a
map. -/
theorem keptPart_eq_iff :
    keptPart before thing behind = thing ↔ ∀ as c bs, thing = as ++ c :: bs → c ≠ '\n' →
      refersToMap (lineAt (before ++ as) (c :: bs ++ behind)) = false := by
  induction thing generalizing before with
  | nil => simp [keptPart]
  | cons d ds ih =>
    constructor
    · intro hkept as c bs heq hc
      rw [keptPart] at hkept
      split at hkept
      · -- A part that has lost its first character is shorter than it was.
        have hlength := (keptPart_sublist (before ++ [d]) ds behind).length_le
        rw [List.nil_append] at hkept
        rw [hkept, List.length_cons] at hlength
        omega
      · next hline =>
        cases as with
        | nil =>
          cases heq
          rw [List.append_nil]
          simpa [hc] using hline
        | cons a as =>
          cases heq
          have hrest := ih.mp (List.cons.inj hkept).2 as c bs rfl hc
          rwa [List.append_assoc] at hrest
    · intro hlines
      rw [keptPart, if_neg, ih.mpr]
      · rfl
      · intro as c bs heq hc
        have hrest := hlines (d :: as) c bs (by rw [heq, List.cons_append]) hc
        rwa [List.append_assoc]
      · rintro ⟨hd, hrefers⟩
        have hfirst := hlines [] d ds rfl hd
        rw [List.append_nil, hrefers] at hfirst
        cases hfirst

theorem keptPart_eq_of_lines
    (h : ∀ line ∈ lines (before ++ (thing ++ behind)), refersToMap line = false) :
    keptPart before thing behind = thing := by
  refine keptPart_eq_iff.mpr fun as c bs has _ ↦ h _ ?_
  have hline := lineAt_mem_lines (before ++ as) (c :: bs ++ behind)
  rwa [List.append_assoc, ← List.append_assoc as, ← has] at hline

end Part

/-! ## Statements that stay as they are -/

variable {features : Features} {source : List Char} {m : Module} {n : Node} {s : Span}

/-- Whether a statement stays as it is: it neither imports nor exports anything, is no call that
moves, and has no dynamic import in it. -/
def staysAsIs (features : Features) : Node → Bool
  | .item span leading body =>
    !Grammar.isImport body && !Grammar.isExportBody body
      && !(features.hoists && isMockCall (.item span leading body))
      && (Node.nodes [.item span leading body]).all fun k ↦ (dynamicImport? k).isNone
  | _ => false

theorem editsOf_of_staysAsIs (source : List Char) (h : staysAsIs features n = true) :
    editsOf features source n = [] ∧ content n = itemSpan n := by
  unfold staysAsIs at h
  split at h
  · next span leading body =>
    simp only [Bool.and_eq_true, Bool.not_eq_true'] at h
    obtain ⟨⟨⟨himport, hexport⟩, hmoved⟩, -⟩ := h
    have hexported : exportedSpan? (.item span leading body) = none := by
      cases body <;> first
        | rfl
        | cases hexport
    have hcut : isCut features (.item span leading body) = false := by
      cases body <;> first
        | rfl
        | exact hmoved
        | exact absurd himport.symm Bool.false_ne_true
        | exact absurd hexport.symm Bool.false_ne_true
    refine ⟨?_, by rw [content, hexported]; rfl⟩
    rw [editsOf, if_neg (by rw [hcut]; exact Bool.false_ne_true), exportEdits_of_none hexported]
  · cases h

theorem imports_of_staysAsIs (h : staysAsIs features n = true) : Grammar.imports n = [] := by
  unfold staysAsIs at h
  split at h
  · next span leading body =>
    rw [Bool.and_eq_true, List.all_eq_true] at h
    have hsingle : Grammar.imports [Node.item span leading body]
        = Grammar.imports (Node.item span leading body) := List.append_nil _
    rw [← hsingle, ← Grammar.imports_outermost, List.filterMap_eq_nil_iff]
    intro k hk
    -- A walk that stays out of dynamic imports comes to no other nodes than a full one.
    refine Option.isNone_iff_eq_none.mp (h.2 k ?_)
    rw [Node.nodes_eq_flatMap_outermost fun k ↦ (dynamicImport? k).isSome]
    exact List.mem_flatMap.mpr ⟨k, hk, List.mem_cons_self⟩
  · cases h

/-- A dynamic import that is not in a statement stands beside it. -/
theorem not_nested_of_imports_eq_nil (h : parse false source = some m) (hn : n ∈ m.items)
    (hnone : Grammar.imports n = []) : ∀ p ∈ dynamicImports m, ¬p.1.Nested (itemSpan n) := by
  intro p hp hnested
  obtain ⟨c, c', hitems⟩ := itemsAt_of_parse h
  have hmem := (imports_items_perm m).subset hp
  rcases hitems.apart p hmem n (List.mem_reverse.mpr hn) with hin | hbeside
  · rw [hnone] at hin
    cases hin
  · exact hbeside.not_nested (hitems.found.inside hmem).1.nonempty hnested

theorem untouched_of_staysAsIs (h : parse false source = some m) (hn : n ∈ m.items)
    (hstays : staysAsIs features n = true) : Untouched features source m n := by
  obtain ⟨hedits, hcontent⟩ := editsOf_of_staysAsIs source hstays
  exact (wellPlaced_of_parse h).untouched_of_nil hn hedits hcontent
    (not_nested_of_imports_eq_nil h hn (imports_of_staysAsIs hstays))

/-- The literals in a statement that stays as it is stand in its span. -/
theorem literal_inside_of_staysAsIs (h : parse false source = some m) (hn : n ∈ m.items)
    (hstays : staysAsIs features n = true) (hs : s ∈ literalsIn [n]) :
    s.Covers source ∧ (itemSpan n).start ≤ s.start ∧ s.stop ≤ (itemSpan n).stop := by
  unfold staysAsIs at hstays
  split at hstays
  · simp only [Bool.and_eq_true, Bool.not_eq_true'] at hstays
    exact literal_inside_of_parse h hn hstays.1.1.2 hs
  · cases hstays

/-! ## Literals -/

/-- What a conversion makes of the text in front of a place. -/
def bodyAhead (features : Features) (source : List Char) (m : Module) (place : Nat) : List Char :=
  Edit.ahead source 0 (Edit.outermost (recordedEdits features source m)) place

/-- What no edit reaches stands in the body as it is written. -/
theorem WellPlaced.exists_body_eq_of_inside (h : WellPlaced source m)
    (huntouched : Untouched features source m n) (hs : s.Covers source)
    (hstart : (itemSpan n).start ≤ s.start) (hstop : s.stop ≤ (itemSpan n).stop) :
    ∃ behind, bodyOf features source m
      = bodyAhead features source m s.start ++ (slice source s ++ behind) := by
  have hapart : ∀ e ∈ Edit.outermost (recordedEdits features source m), e.span.Apart s := by
    intro e he
    have hbeside := huntouched e (Edit.mem_of_mem_outermost he)
    unfold Span.Apart at *
    omega
  have hcut := Edit.splice_untouched (isBoundary_zero source) (isBoundary_width source)
    (Edit.ordered_outermost (recordedEdits features source m)) h.fit_outermost hs
    (Nat.zero_le _) hs.stop_isBoundary.le_width hapart
  rw [slice_all] at hcut
  exact ⟨_, hcut⟩

/-- A literal in a statement that stays as it is stands in the body as it is written, behind what
the conversion makes of the text in front of it. In the converted script, what is left of it is what
does not stand on a line of the body that refers to a map; so it is unchanged exactly if it has
nothing on such lines. -/
theorem literalsKept_of_convert {config : ModuleConfig} {filename code : String}
    {input : Option SourceMap} {unit : ScriptUnit} (hparse : parse false code.toList = some m)
    (hconvert : convert config filename code input = .ok unit) :
    ∃ parts tail, partsOf config filename code = .ok parts ∧
      ∀ n ∈ m.items, staysAsIs (Features.ofConfig config) n = true → ∀ s ∈ literalsIn [n],
        let literal := slice code.toList s
        let before := bodyAhead (Features.ofConfig config) code.toList m s.start
        ∃ behind, parts.body = before ++ (literal ++ behind) ∧
          unit.code.toList = parts.header ++ keptPart [] before (literal ++ behind)
            ++ (keptPart before literal behind ++ (keptPart (before ++ literal) behind [] ++ tail)) ∧
          (keptPart before literal behind = literal ↔
            ∀ as c bs, literal = as ++ c :: bs → c ≠ '\n' →
              refersToMap (lineAt (before ++ as) (c :: bs ++ behind)) = false) := by
  obtain ⟨parts, tail, hparts, hcode, -⟩ := exists_parts_of_convert hconvert
  obtain ⟨m', d, hparse', hdraft, rfl⟩ := exists_draft_of_partsOf hparts
  rw [hparse] at hparse'
  cases hparse'
  have hbody := body_of_draft hdraft
  refine ⟨_, tail, hparts, fun n hn hstays s hs ↦ ?_⟩
  obtain ⟨hcovers, hstart, hstop⟩ := literal_inside_of_staysAsIs hparse hn hstays hs
  obtain ⟨behind, heq⟩ := (wellPlaced_of_parse hparse).exists_body_eq_of_inside
    (untouched_of_staysAsIs hparse hn hstays) hcovers hstart hstop
  refine ⟨behind, hbody.trans heq, ?_, keptPart_eq_iff⟩
  rw [hcode, hbody, heq, dropMapComments_append]
  simp only [List.append_assoc]

/-- The text of a template on lines of their own is kept. -/
theorem literalsKept_of_convert_template :
    let code := "foo(`a\nb`);\n"
    ∃ unit, convert ⟨.off, [], [.modulesCommonJs]⟩ "a.js" code none = .ok unit ∧
      "a\nb".toList <:+: unit.code.toList := by
  intro code
  let config : ModuleConfig := ⟨.off, [], [.modulesCommonJs]⟩
  have hread : ((parse false code.toList).any fun m ↦ m.items.any fun n ↦
      staysAsIs (Features.ofConfig config) n && (literalsIn [n]).any fun s ↦
        decide (slice code.toList s = "a\nb".toList)) = true := by
    decide +kernel
  obtain ⟨m, hparse, hm⟩ := (Option.any_eq_true ..).mp hread
  obtain ⟨n, hn, hm⟩ := List.any_eq_true.mp hm
  rw [Bool.and_eq_true] at hm
  obtain ⟨s, hs, hslice⟩ := List.any_eq_true.mp hm.2
  have hdone : (convert config "a.js" code none).toOption.isSome = true := by decide +kernel
  have hbody : (partsOf config "a.js" code).toOption.all (fun p ↦
      (lines p.body).all fun line ↦ !refersToMap line) = true := by
    decide +kernel
  cases hconvert : convert config "a.js" code none with
  | error e => rw [hconvert] at hdone; cases hdone
  | ok unit =>
    obtain ⟨parts, tail, hparts, hkept⟩ := literalsKept_of_convert hparse hconvert
    obtain ⟨behind, heq, hcode, -⟩ := hkept n hn hm.1 s hs
    rw [hparts] at hbody
    have hwhole := keptPart_eq_of_lines fun line hline ↦ by
      rw [← heq] at hline
      simpa using List.all_eq_true.mp hbody line hline
    rw [hwhole, of_decide_eq_true hslice] at hcode
    refine ⟨unit, rfl, ?_⟩
    rw [hcode]
    exact List.infix_append' ..

/-- A line of a template that looks like a comment with a map is lost. -/
theorem literal_lost_to_map_line :
    let code := "foo(`\n//# sourceMappingURL=x\n`);\n"
    let config : ModuleConfig := ⟨.off, [], [.modulesCommonJs]⟩
    ∃ m n s unit, parse false code.toList = some m ∧ n ∈ m.items ∧
      staysAsIs (Features.ofConfig config) n = true ∧ s ∈ literalsIn [n] ∧
      convert config "a.js" code none = .ok unit ∧
      ¬slice code.toList s <:+: unit.code.toList := by
  intro code config
  have hread : ((parse false code.toList).any fun m ↦ m.items.any fun n ↦
      staysAsIs (Features.ofConfig config) n && (literalsIn [n]).any fun s ↦
        decide (slice code.toList s = "\n//# sourceMappingURL=x\n".toList)) = true := by
    decide +kernel
  obtain ⟨m, hparse, hm⟩ := (Option.any_eq_true ..).mp hread
  obtain ⟨n, hn, hm⟩ := List.any_eq_true.mp hm
  rw [Bool.and_eq_true] at hm
  obtain ⟨s, hs, hslice⟩ := List.any_eq_true.mp hm.2
  have hdone : (convert config "a.js" code none).toOption.any (fun unit ↦
      !decide ("\n//# sourceMappingURL=x\n".toList <:+: unit.code.toList)) = true := by
    decide +kernel
  cases hconvert : convert config "a.js" code none with
  | error e => rw [hconvert] at hdone; cases hdone
  | ok unit =>
    rw [hconvert] at hdone
    refine ⟨m, n, s, unit, hparse, hn, hm.1, hs, rfl, ?_⟩
    obtain ⟨_, hunit, hdone⟩ := (Option.any_eq_true ..).mp hdone
    cases hunit
    rw [Bool.not_eq_true', decide_eq_false_iff_not] at hdone
    rwa [of_decide_eq_true hslice]

end Downlevel.CommonJs
