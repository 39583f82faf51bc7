import Downlevel.Proofs.CommonJs.Header
import Downlevel.Proofs.CommonJs.Placement

/-!
# Lines of the body

Source maps of converted scripts only count lines, so the body of a converted script has to have the
lines of the script. A cut keeps its line feeds. The words in front of an export and the parts of a
dynamic import around its argument do not keep theirs: these are the only places where a conversion
can lose a line. No edit adds one.

A statement that no edit reaches moves with the line feeds in front of it. It can also disappear, if
its line looks like a comment that refers to a map.
-/

namespace Downlevel.CommonJs

open Script Text

variable {features : Features} {source : List Char} {m : Module} {e : Edit}

/-! ## Line feeds of edits -/

theorem keepsLines_semicolon (source : List Char) (n : Nat) :
    Edit.KeepsLines source ⟨⟨n, n⟩, ";"⟩ := by
  have hsemicolon : newlines ";".toList = 0 := by decide
  rw [Edit.KeepsLines, slice_self, newlines_nil]
  exact hsemicolon

theorem keepsLines_cutEdit (source : List Char) (span : Span) :
    (cutEdit source span).KeepsLines source := by
  rw [Edit.KeepsLines, cutEdit, String.toList_ofList, newlines_replicate]

/-- The name of the helper for all exports stands in one line. -/
theorem newlines_wholeHelper (m : Module) : newlines (Names.ofScript m).forWhole.1.toList = 0 := by
  obtain ⟨digits, hname, hdigits⟩ := toList_unusedName (namesIn m.items) "_interopRequireWildcard"
  have hfresh : (Names.ofScript m).forWhole.1
      = unusedName (namesIn m.items) "_interopRequireWildcard" := rfl
  have hbase : newlines "_interopRequireWildcard".toList = 0 := by decide
  rw [hfresh, hname, newlines_append, hbase, Nat.zero_add, newlines_eq_zero]
  exact fun hmem ↦ absurd (hdigits '\n' hmem) (by decide)

/-- A converted dynamic import has the line feeds of its argument. -/
theorem newlines_promiseText {helper : String} (hhelper : newlines helper.toList = 0)
    (argument : String) :
    newlines (promiseText helper argument).toList = newlines argument.toList := by
  have hpieces : ∀ a b c : String, newlines a.toList = 0 → newlines b.toList = 0 →
      newlines c.toList = 0 →
      newlines (a ++ helper ++ b ++ argument ++ c).toList = newlines argument.toList := by
    intro a b c ha hb hc
    simp only [String.toList_append, newlines_append, ha, hb, hc, hhelper, Nat.zero_add,
      Nat.add_zero]
  exact hpieces _ _ _ (by decide +kernel) (by decide) (by decide)

theorem newlines_promiseEdit (source : List Char) (m : Module) (p : Span × Span) :
    newlines (promiseEdit source (Names.ofScript m).forWhole.1 p).text.toList
      = newlines (slice source p.2) := by
  rw [promiseEdit, newlines_promiseText (newlines_wholeHelper m), String.toList_ofList]

theorem WellPlaced.newlines_import (h : WellPlaced source m) {p : Span × Span}
    (hp : p ∈ dynamicImports m) :
    newlines (slice source ⟨p.1.start, p.2.start⟩) + newlines (slice source p.2)
        + newlines (slice source ⟨p.2.stop, p.1.stop⟩)
      = newlines (slice source p.1) := by
  obtain ⟨⟨hle, hs, ht⟩, ⟨hle', hs', ht'⟩⟩ := h.import_covers p hp
  obtain ⟨hstart, hstop⟩ := h.import_inside p hp
  have hfront := newlines_slice_add hs hs' ht' (by omega) hle'
  have hback := newlines_slice_add hs ht' ht (by omega) (by omega)
  have harg : slice source ⟨p.2.start, p.2.stop⟩ = slice source p.2 := rfl
  have hwhole : slice source ⟨p.1.start, p.1.stop⟩ = slice source p.1 := rfl
  rw [harg] at hfront
  rw [hwhole] at hback
  omega

/-- What is written in front of an exported value has no line feed. -/
theorem newlines_exportWords {text : String} (h : text ∈ ["", defaultAssignment]) :
    newlines text.toList = 0 := by
  have hall : ∀ t ∈ ["", defaultAssignment], newlines t.toList = 0 := by decide
  exact hall text h

/-- No edit brings in more line feeds than it takes out. -/
theorem WellPlaced.newlines_le (h : WellPlaced source m)
    (he : e ∈ recordedEdits features source m) :
    newlines e.text.toList ≤ newlines (slice source e.span) := by
  rcases mem_recordedEdits.mp he with ⟨n, hn, he⟩ | he
  · rcases mem_editsOf he with ⟨-, rfl⟩ | ⟨inner, -, ⟨-, htext⟩ | rfl⟩
    · exact Nat.le_of_eq (keepsLines_cutEdit source _)
    · rw [newlines_exportWords htext]
      exact Nat.zero_le _
    · exact Nat.le_of_eq (keepsLines_semicolon source _)
  · obtain ⟨-, p, hp, rfl⟩ := mem_promisesOf he
    have himport := h.newlines_import hp
    have hspan : (promiseEdit source (Names.ofScript m).forWhole.1 p).span = p.1 := rfl
    rw [newlines_promiseEdit, hspan]
    omega

/-! ## Where line feeds are lost -/

/-- The spans whose line feeds a conversion takes out and does not put back. -/
def lostSpans (features : Features) (m : Module) : List Span :=
  m.items.flatMap (fun n ↦ ((keptExport? features n).map (exportWords n)).toList)
    ++ if features.dynamicImports then
        ((dynamicImports m).filter fun p ↦ !inCutStatement features m p.1).flatMap fun p ↦
          [⟨p.1.start, p.2.start⟩, ⟨p.2.stop, p.1.stop⟩]
      else []

theorem mem_lostSpans {s : Span} : s ∈ lostSpans features m ↔
    (∃ n ∈ m.items, ∃ inner, keptExport? features n = some inner ∧ s = exportWords n inner) ∨
    features.dynamicImports = true ∧ ∃ p ∈ dynamicImports m, inCutStatement features m p.1 = false ∧
      (s = ⟨p.1.start, p.2.start⟩ ∨ s = ⟨p.2.stop, p.1.stop⟩) := by
  rw [lostSpans, List.mem_append, List.mem_flatMap]
  refine or_congr (exists_congr fun n ↦ and_congr_right fun _ ↦ ?_) ?_
  · rw [Option.mem_toList, Option.map_eq_some_iff]
    exact exists_congr fun inner ↦ and_congr_right fun _ ↦ eq_comm
  · cases features.dynamicImports <;> simp [List.mem_flatMap, and_assoc]

theorem exists_words_edit {n : Node} {inner : Span} (source : List Char)
    (hkept : keptExport? features n = some inner) :
    ∃ text, newlines text.toList = 0 ∧ ⟨exportWords n inner, text⟩ ∈ editsOf features source n := by
  rcases editsOf_cases features source n with ⟨hcut, -⟩ | ⟨-, hnone, -⟩ |
    ⟨inner', text, ends, hkept', htext, -, heq⟩
  · rw [(mem_exportedSpan?_of_keptExport? hkept).1] at hcut
    cases hcut
  · rw [hkept] at hnone
    cases hnone
  · rw [hkept] at hkept'
    cases hkept'
    exact ⟨text, newlines_exportWords htext, by rw [heq]; exact List.mem_cons_self⟩

/-- A converted dynamic import keeps its line feeds exactly if there are none around its
argument. -/
theorem WellPlaced.keepsLines_promise_iff (h : WellPlaced source m) {p : Span × Span}
    (hp : p ∈ dynamicImports m) :
    (promiseEdit source (Names.ofScript m).forWhole.1 p).KeepsLines source ↔
      newlines (slice source ⟨p.1.start, p.2.start⟩) = 0 ∧
        newlines (slice source ⟨p.2.stop, p.1.stop⟩) = 0 := by
  have himport := h.newlines_import hp
  have hspan : (promiseEdit source (Names.ofScript m).forWhole.1 p).span = p.1 := rfl
  rw [Edit.KeepsLines, newlines_promiseEdit, hspan]
  omega

/-- The edits that are carried out keep their line feeds exactly if there are none where the
conversion loses them. -/
theorem WellPlaced.keepsLines_iff (h : WellPlaced source m) :
    (∀ e ∈ recordedEdits features source m,
        Edit.IsOutermost (recordedEdits features source m) e → e.KeepsLines source)
      ↔ ∀ s ∈ lostSpans features m, newlines (slice source s) = 0 := by
  constructor
  · intro hkeeps s hs
    rcases mem_lostSpans.mp hs with ⟨n, hn, inner, hkept, rfl⟩ | ⟨hd, p, hp, hcut, hs⟩
    · obtain ⟨text, htext, he⟩ := exists_words_edit source hkept
      have hkeeps := hkeeps _ (mem_recordedEdits.mpr (.inl ⟨n, hn, he⟩))
        (h.isOutermost_words hn hkept he rfl)
      exact hkeeps.symm.trans htext
    · have he : promiseEdit source (Names.ofScript m).forWhole.1 p
          ∈ promisesOf features source m := by
        rw [promisesOf_eq, if_pos hd]
        exact List.mem_map_of_mem hp
      have hkeeps := hkeeps _ (mem_recordedEdits.mpr (.inr he))
        ((h.isOutermost_promise hp _).mpr hcut)
      obtain ⟨hfront, hback⟩ := (h.keepsLines_promise_iff hp).mp hkeeps
      rcases hs with rfl | rfl
      · exact hfront
      · exact hback
  · intro hnone e he houter
    rcases mem_recordedEdits.mp he with ⟨n, hn, he⟩ | he
    · rcases mem_editsOf he with ⟨-, rfl⟩ | ⟨inner, hkept, ⟨hwords, htext⟩ | rfl⟩
      · exact keepsLines_cutEdit source _
      · have hlost := hnone _ (mem_lostSpans.mpr (.inl ⟨n, hn, inner, hkept, rfl⟩))
        rw [Edit.KeepsLines, newlines_exportWords htext, hwords, hlost]
      · exact keepsLines_semicolon source _
    · obtain ⟨hd, p, hp, rfl⟩ := mem_promisesOf he
      have hcut := (h.isOutermost_promise hp _).mp houter
      exact (h.keepsLines_promise_iff hp).mpr
        ⟨hnone _ (mem_lostSpans.mpr (.inr ⟨hd, p, hp, hcut, .inl rfl⟩)),
          hnone _ (mem_lostSpans.mpr (.inr ⟨hd, p, hp, hcut, .inr rfl⟩))⟩

/-! ## The body -/

/-- The body of a script. -/
def bodyOf (features : Features) (source : List Char) (m : Module) : List Char :=
  Edit.apply 0 (recordedEdits features source m) source

theorem body_of_draft {d : Draft} (h : draft features source m = .ok d) :
    (d.parts features source).body = bodyOf features source m := by
  rw [bodyOf, ← edits_of_draft h]
  rfl

theorem WellPlaced.mem_outermost (h : WellPlaced source m) :
    e ∈ Edit.outermost (recordedEdits features source m) ↔
      e ∈ recordedEdits features source m ∧
        Edit.IsOutermost (recordedEdits features source m) e := by
  rw [(Edit.outermost_perm (h.laminar features)).mem_iff, List.mem_filter, decide_eq_true_iff]

theorem WellPlaced.fit_outermost (h : WellPlaced source m) :
    Edit.Fit source (width source) (Edit.outermost (recordedEdits features source m)) := by
  intro e he
  have hcovers := h.recorded_covers (Edit.mem_of_mem_outermost he)
  exact ⟨hcovers, hcovers.stop_isBoundary.le_width⟩

/-- The body has the line feeds of the script exactly if none is where the conversion loses it. -/
theorem WellPlaced.newlines_body_iff (h : WellPlaced source m) (features : Features) :
    newlines (bodyOf features source m) = newlines source
      ↔ ∀ s ∈ lostSpans features m, newlines (slice source s) = 0 := by
  have hcount := (Edit.newlines_splice (isBoundary_zero source) (isBoundary_width source)
    (Nat.zero_le _) (Edit.ordered_outermost (recordedEdits features source m)) h.fit_outermost
    fun e he ↦ h.newlines_le (Edit.mem_of_mem_outermost he)).2
  rw [slice_all] at hcount
  rw [bodyOf, Edit.apply, hcount, ← h.keepsLines_iff]
  exact ⟨fun hk e he ho ↦ hk e (h.mem_outermost.mpr ⟨he, ho⟩), fun hk e he ↦
    hk e (h.mem_outermost.mp he).1 (h.mem_outermost.mp he).2⟩

/-! ## Statements that no edit reaches -/

/-- No edit reaches into a statement. -/
def Untouched (features : Features) (source : List Char) (m : Module) (n : Node) : Prop :=
  ∀ e ∈ recordedEdits features source m, e.span.Apart (itemSpan n)

/-- The line of the script on which a statement starts, counted from 0. -/
def lineOf (source : List Char) (n : Node) : Nat :=
  newlines (slice source ⟨0, (itemSpan n).start⟩)

/-- The line of the body on which a statement that no edit reaches starts, counted from 0. -/
def lineInBody (features : Features) (source : List Char) (m : Module) (n : Node) : Nat :=
  newlines (Edit.ahead source 0 (Edit.outermost (recordedEdits features source m))
    (itemSpan n).start)

/-- A statement that no edit reaches stands in the body. -/
theorem WellPlaced.exists_body_eq (h : WellPlaced source m) {n : Node} (hn : n ∈ m.items)
    (huntouched : Untouched features source m n) :
    ∃ before behind, bodyOf features source m = before ++ (slice source (itemSpan n) ++ behind) ∧
      newlines before = lineInBody features source m n := by
  have hitem := h.item_covers n hn
  have hcut := Edit.splice_untouched (isBoundary_zero source) (isBoundary_width source)
    (Edit.ordered_outermost (recordedEdits features source m)) h.fit_outermost hitem
    (Nat.zero_le _) hitem.stop_isBoundary.le_width fun e he ↦
      huntouched e (Edit.mem_of_mem_outermost he)
  rw [slice_all] at hcut
  exact ⟨_, _, hcut, rfl⟩

/-- If no line feed is lost, a statement starts on its own line. -/
theorem WellPlaced.lineInBody_eq (h : WellPlaced source m) {n : Node} (hn : n ∈ m.items)
    (hnone : ∀ s ∈ lostSpans features m, newlines (slice source s) = 0) :
    lineInBody features source m n = lineOf source n := by
  have hfit : Edit.Fit source (width source) (Edit.outermost (recordedEdits features source m)) :=
    h.fit_outermost
  have hord := (Edit.ordered_outermost (recordedEdits features source m)).filter_front
    (fun e he ↦ (hfit e he).1.start_le_stop) (itemSpan n).start
  have hkeeps := h.keepsLines_iff.mpr hnone
  -- In front of the statement stand whole edits, and each of them keeps its own line feeds.
  refine (Edit.newlines_splice (isBoundary_zero source) (h.item_covers n hn).start_isBoundary
    (Nat.zero_le _) hord (fun e he ↦ ?_) fun e he ↦ ?_).2.mpr fun e he ↦ ?_
  · obtain ⟨he, hstop⟩ := List.mem_filter.mp he
    exact ⟨(hfit e he).1, of_decide_eq_true hstop⟩
  · exact h.newlines_le (Edit.mem_of_mem_outermost (List.mem_filter.mp he).1)
  · obtain ⟨hrecorded, houter⟩ := h.mem_outermost.mp (List.mem_filter.mp he).1
    exact hkeeps e hrecorded houter

/-! ## Lines of the converted script -/

/-- A conversion keeps the lines of a script: its body has all its line feeds, and every statement
that no edit reaches starts on its own line behind the lines of the header. -/
structure LinesKept (features : Features) (source : List Char) (m : Module) (p : Parts) : Prop where
  body : newlines p.body = newlines source
  statement : ∀ n ∈ m.items, Untouched features source m n →
    StartsOnLine (p.header ++ dropMapComments p.body) (slice source (itemSpan n))
      (newlines p.header + lineOf source n)

theorem WellPlaced.linesKept_iff (h : WellPlaced source m) {p : Parts}
    (hheader : WholeLines p.header) (hbody : p.body = bodyOf features source m) :
    LinesKept features source m p ↔
      (∀ s ∈ lostSpans features m, '\n' ∉ slice source s) ∧
        ∀ n ∈ m.items, Untouched features source m n →
          refersToMap ((lines p.body).getD (lineOf source n) []) = false := by
  have hcount := h.newlines_body_iff features
  simp only [← newlines_eq_zero]
  have hline : ∀ n ∈ m.items, Untouched features source m n →
      (∀ s ∈ lostSpans features m, newlines (slice source s) = 0) →
      (StartsOnLine (dropMapComments p.body) (slice source (itemSpan n)) (lineOf source n)
        ↔ refersToMap ((lines p.body).getD (lineOf source n) []) = false) := by
    intro n hn huntouched hnone
    obtain ⟨before, behind, heq, hbefore⟩ := h.exists_body_eq hn huntouched
    rw [h.lineInBody_eq hn hnone] at hbefore
    have hstarts := h.item_starts n hn
    rw [startsInLine] at hstarts
    rw [hbody, heq, ← hbefore]
    cases hslice : slice source (itemSpan n) with
    | nil =>
      rw [hslice] at hstarts
      cases hstarts
    | cons c cs =>
      rw [hslice] at hstarts
      exact startsOnLine_dropMapComments_iff (by simpa using hstarts)
  constructor
  · rintro ⟨hcounted, hstatement⟩
    have hnone := hcount.mp (by rwa [← hbody])
    exact ⟨hnone, fun n hn huntouched ↦ (hline n hn huntouched hnone).mp
      ((hstatement n hn huntouched).of_append_left hheader)⟩
  · rintro ⟨hnone, hrefers⟩
    refine ⟨by rw [hbody]; exact hcount.mpr hnone, fun n hn huntouched ↦ ?_⟩
    exact ((hline n hn huntouched hnone).mpr (hrefers n hn huntouched)).append_left p.header

/-- A converted script keeps the lines of a well-placed script exactly if no line feed stands between
the words in front of an export and what is exported, or in a dynamic import around its argument,
and no statement starts on a line that is taken for a comment with a map. -/
theorem linesKept_of_convert_iff {config : ModuleConfig} {filename code : String}
    {input : Option SourceMap} {unit : ScriptUnit} (hparse : parse false code.toList = some m)
    (hplaced : WellPlaced code.toList m)
    (hconvert : convert config filename code input = .ok unit) :
    ∃ parts tail, partsOf config filename code = .ok parts ∧
      unit.code.toList = parts.header ++ dropMapComments parts.body ++ tail ∧
      (LinesKept (Features.ofConfig config) code.toList m parts ↔
        (∀ s ∈ lostSpans (Features.ofConfig config) m, '\n' ∉ slice code.toList s) ∧
          ∀ n ∈ m.items, Untouched (Features.ofConfig config) code.toList m n →
            refersToMap ((lines parts.body).getD (lineOf code.toList n) []) = false) := by
  obtain ⟨parts, tail, hparts, hcode, -⟩ := exists_parts_of_convert hconvert
  obtain ⟨m', d, hparse', hdraft, rfl⟩ := exists_draft_of_partsOf hparts
  rw [hparse] at hparse'
  cases hparse'
  refine ⟨_, tail, hparts, hcode, hplaced.linesKept_iff (wholeLines_of_partsOf hparts) ?_⟩
  rw [bodyOf, ← edits_of_draft hdraft]
  rfl

/-- An export whose word stands on a line of its own loses that line. -/
theorem not_linesKept_of_exportLine :
    let code := "export\nconst a = 1;\nbar();\n"
    let config : ModuleConfig := ⟨.off, [], [.modulesCommonJs]⟩
    ∃ m unit parts, parse false code.toList = some m ∧ WellPlaced code.toList m ∧
      convert config "a.js" code none = .ok unit ∧ partsOf config "a.js" code = .ok parts ∧
      ¬LinesKept (Features.ofConfig config) code.toList m parts := by
  intro code config
  have hread : ((parse false code.toList).any fun m ↦ decide (WellPlaced code.toList m) &&
      decide (⟨0, 7⟩ ∈ lostSpans (Features.ofConfig config) m)) = true := by decide +kernel
  obtain ⟨m, hparse, hm⟩ := (Option.any_eq_true ..).mp hread
  rw [Bool.and_eq_true, decide_eq_true_iff, decide_eq_true_iff] at hm
  have hdone : (convert config "a.js" code none).toOption.isSome = true := by decide +kernel
  cases hconvert : convert config "a.js" code none with
  | error e => rw [hconvert] at hdone; cases hdone
  | ok unit =>
    obtain ⟨parts, tail, hparts, -, hiff⟩ := linesKept_of_convert_iff hparse hm.1 hconvert
    refine ⟨m, unit, parts, hparse, hm.1, rfl, hparts, fun hkept ↦ ?_⟩
    exact (hiff.mp hkept).1 ⟨0, 7⟩ hm.2 (by decide +kernel)

end Downlevel.CommonJs
