import Downlevel.Proofs.CommonJs.Assignment

/-!
# Edits that are carried out

What becomes of the edits that a conversion records. An edit in a call that moves goes along with the
call, and the body has only the cut of the call. Every other edit is carried out in the body with one
exception: an edit that takes no room is displaced by an edit with room that starts in the same
place, because of two edits that start together the wider one is sorted first and the other then
starts before its end. The only edits without room are the semicolons behind default exports without
a name, and what displaces them is an edit of the next statement, if there is nothing in between.
-/

namespace Downlevel.CommonJs

open Script Text

variable {features : Features} {source : List Char} {m : Module} {n : Node} {e f : Edit}
  {inner : Span}

/-! ## Kinds of edits -/

/-- An edit stands in a call that moves. The edit that cuts the call out is none of these. -/
def InMovedCall (features : Features) (source : List Char) (m : Module) (e : Edit) : Prop :=
  ∃ n ∈ movedCalls features m, e.span.Nested (itemSpan n) ∧ e ≠ cutEdit source (itemSpan n)

instance (features : Features) (source : List Char) (m : Module) (e : Edit) :
    Decidable (InMovedCall features source m e) :=
  inferInstanceAs (Decidable (∃ n ∈ movedCalls features m, _))

/-- An edit takes no room, and another one that does starts in its place. -/
def Displaced (edits : List Edit) (e : Edit) : Prop :=
  e.span.stop = e.span.start ∧
    ∃ f ∈ edits, f.span.start = e.span.start ∧ f.span.start < f.span.stop

instance (edits : List Edit) (e : Edit) : Decidable (Displaced edits e) :=
  inferInstanceAs (Decidable (_ ∧ ∃ f ∈ edits, _))

/-- An edit is carried out in a body: its text stands in place of its span, between what the edits
before it make of the text in front of the span and what the edits behind it make of the rest. -/
def CarriedOut (source : List Char) (edits : List Edit) (body : List Char) (e : Edit) : Prop :=
  ∃ front back, Edit.outermost edits = front ++ e :: back ∧
    body = Edit.splice 0 front (slice source ⟨0, e.span.start⟩)
      ++ (e.text.toList ++ Edit.splice e.span.stop back (slice source ⟨e.span.stop, width source⟩))

/-- In a body an export without a name of its own is assigned in its place, and directly behind the
assigned value stands the text of an edit. -/
def ClosedBy (features : Features) (source : List Char) (m : Module) (body : List Char)
    (inner : Span) (f : Edit) : Prop :=
  ∃ before rest, body = before ++ (defaultAssignment.toList
    ++ (valueText features source m inner ++ (f.text.toList ++ rest)))

/-- The semicolon behind an exported value. -/
def semicolon (inner : Span) : Edit := ⟨⟨inner.stop, inner.stop⟩, ";"⟩

theorem assignsDefault_of_exportsUnnamed (h : exportsUnnamed n = true) : assignsDefault n = true := by
  unfold exportsUnnamed at h
  split at h
  · split at h
    · exact h
    · exact h
    · cases h
  · cases h

/-! ## Outermost edits -/

/-- A displaced edit is nested in the one that displaces it. -/
theorem Displaced.not_isOutermost {edits : List Edit} (h : Displaced edits e) :
    ¬Edit.IsOutermost edits e := by
  obtain ⟨hempty, f, hf, hstart, hroom⟩ := h
  intro houter
  refine houter f hf ?_ ?_
  · rw [Span.ne_iff]
    omega
  · unfold Span.Nested
    omega

namespace WellPlaced

/-- An edit of a statement is outermost unless it is displaced. -/
theorem isOutermost_of_mem_editsOf (h : WellPlaced source m) (hn : n ∈ m.items)
    (he : e ∈ editsOf features source n)
    (hfree : ¬Displaced (recordedEdits features source m) e) :
    Edit.IsOutermost (recordedEdits features source m) e := by
  rcases mem_editsOf he with ⟨hcut, rfl⟩ | ⟨inner, hkept, ⟨hwords, -⟩ | rfl⟩
  · exact h.isOutermost_cut hn hcut
  · exact h.isOutermost_words hn hkept he hwords
  · intro f hf _ hnested
    have hnear := h.ends_by_value_or_starts_behind hn hkept hf
    refine hfree ⟨rfl, f, hf, ?_⟩
    unfold Span.Nested at hnested
    dsimp only at hnested ⊢
    omega

/-- An edit that a conversion records is outermost exactly if it neither moves along with a call nor
is displaced. -/
theorem isOutermost_iff (h : WellPlaced source m) (hstay : ImportsStay features m)
    (he : e ∈ recordedEdits features source m) :
    Edit.IsOutermost (recordedEdits features source m) e
      ↔ ¬InMovedCall features source m e ∧ ¬Displaced (recordedEdits features source m) e := by
  constructor
  · intro houter
    refine ⟨?_, fun hdisplaced ↦ hdisplaced.not_isOutermost houter⟩
    rintro ⟨n, hmoved, hnested, hne⟩
    obtain ⟨hn, hcut, -⟩ := mem_movedCalls hmoved
    have hrecorded := mem_recordedEdits.mpr (.inl ⟨n, hn, cutEdit_mem_editsOf source hcut⟩)
    -- Edits that differ have different spans.
    have : Std.Symm fun a b : Edit ↦ a.span ≠ b.span := ⟨fun _ _ hab ↦ hab.symm⟩
    have hspan := (h.recorded_distinct features).forall hrecorded he hne.symm
    exact houter _ hrecorded hspan hnested
  · rintro ⟨hstays, hfree⟩
    rcases mem_recordedEdits.mp he with ⟨n, hn, he⟩ | he
    · exact h.isOutermost_of_mem_editsOf hn he hfree
    · obtain ⟨-, p, hp, rfl⟩ := mem_promisesOf he
      rw [h.isOutermost_promise hp, ← Bool.not_eq_true, inCutStatement_eq_true]
      rintro ⟨n, hn, hcut, hnested⟩
      have hmoved : n ∈ movedCalls features m :=
        List.mem_filter.mpr ⟨hn, hstay n hn hcut p hp hnested⟩
      refine hstays ⟨n, hmoved, hnested, fun heq ↦ ?_⟩
      rcases h.import_edit hp hn (cutEdit_mem_editsOf source hcut) with hapart | ⟨-, -, -, hne⟩
      · exact hapart.not_nested (h.import_nonempty hp) hnested
      · exact hne (congrArg Edit.span heq)

/-- An edit is carried out in the body exactly if it neither moves along with a call nor is
displaced. -/
theorem carriedOut_iff (h : WellPlaced source m) (hstay : ImportsStay features m)
    (he : e ∈ recordedEdits features source m) :
    CarriedOut source (recordedEdits features source m) (bodyOf features source m) e
      ↔ ¬InMovedCall features source m e ∧ ¬Displaced (recordedEdits features source m) e := by
  rw [← h.isOutermost_iff hstay he]
  constructor
  · rintro ⟨front, back, hkept, -⟩
    refine (h.mem_outermost.mp ?_).2
    rw [hkept]
    exact List.mem_append_right front List.mem_cons_self
  · intro houter
    obtain ⟨front, back, hkept⟩ := List.append_of_mem (h.mem_outermost.mpr ⟨he, houter⟩)
    have hord := Edit.ordered_outermost (recordedEdits features source m)
    have hfit : Edit.Fit source (width source)
        (Edit.outermost (recordedEdits features source m)) := h.fit_outermost
    rw [hkept] at hord hfit
    have hcut := Edit.splice_append_cons (isBoundary_zero source) (isBoundary_width source) hord
      hfit
    rw [slice_all, ← hkept] at hcut
    exact ⟨front, back, hkept, hcut⟩

/-! ## Behind default exports -/

/-- Where a semicolon is displaced, another edit that takes room is carried out. -/
theorem exists_outermost_of_displaced (h : WellPlaced source m) (hstay : ImportsStay features m)
    (hn : n ∈ m.items) (hkept : keptExport? features n = some inner)
    (hdisplaced : Displaced (recordedEdits features source m) (semicolon inner)) :
    ∃ f ∈ Edit.outermost (recordedEdits features source m),
      f.span.start = inner.stop ∧ f.span.start < f.span.stop := by
  obtain ⟨-, f, hf, hstart, hroom⟩ := hdisplaced
  have hstart : f.span.start = inner.stop := hstart
  by_cases hmoved : InMovedCall features source m f
  · -- The call in which the edit moves away starts in the same place, and its cut is carried out.
    obtain ⟨n', hmoved, hnested, -⟩ := hmoved
    obtain ⟨hn', hcut, -⟩ := mem_movedCalls hmoved
    have hrecorded := mem_recordedEdits.mpr (.inl ⟨n', hn', cutEdit_mem_editsOf source hcut⟩)
    have hnear := h.ends_by_value_or_starts_behind hn hkept hrecorded
    have hspan : (cutEdit source (itemSpan n')).span = itemSpan n' := rfl
    refine ⟨_, h.mem_outermost.mpr ⟨hrecorded, h.isOutermost_cut hn' hcut⟩, ?_⟩
    rw [hspan] at hnear ⊢
    unfold Span.Nested at hnested
    omega
  · have hfree : ¬Displaced (recordedEdits features source m) f := by
      rintro ⟨hempty, -⟩
      omega
    have houter := (h.isOutermost_iff hstay hf).mpr ⟨hmoved, hfree⟩
    exact ⟨f, h.mem_outermost.mpr ⟨hf, houter⟩, hstart, hroom⟩

/-- Directly behind the value of a default export without a name stands its semicolon, or the text of
the edit that displaces it. -/
theorem exists_closedBy (h : WellPlaced source m) (hstay : ImportsStay features m)
    (hmodules : features.modules = true) (hn : n ∈ m.items) (hunnamed : exportsUnnamed n = true) :
    ∃ inner f, exportedSpan? n = some inner ∧ semicolon inner ∈ recordedEdits features source m ∧
      f ∈ recordedEdits features source m ∧ f.span.start = inner.stop ∧
      ClosedBy features source m (bodyOf features source m) inner f ∧
      (f = semicolon inner ↔ ¬Displaced (recordedEdits features source m) (semicolon inner)) := by
  obtain ⟨inner, hinner, hkept, hedits⟩ :=
    exists_editsOf_of_assignsDefault source hmodules (assignsDefault_of_exportsUnnamed hunnamed)
  rw [if_pos hunnamed] at hedits
  have hsemicolon : semicolon inner ∈ editsOf features source n := by
    rw [hedits]
    exact List.mem_cons_of_mem _ List.mem_cons_self
  have hrecorded : semicolon inner ∈ recordedEdits features source m :=
    mem_recordedEdits.mpr (.inl ⟨n, hn, hsemicolon⟩)
  have hbody := h.body_value hn hkept (by rw [hedits]; exact List.mem_cons_self) rfl
  -- Whatever is carried out at the end of the value stands directly behind it.
  have hclosed : ∀ f ∈ Edit.outermost (recordedEdits features source m),
      f.span.start = inner.stop → ClosedBy features source m (bodyOf features source m) inner f := by
    intro f hf hstart
    obtain ⟨rest, hrest⟩ := Edit.exists_behind_eq (isBoundary_width source)
      (Edit.ordered_outermost (recordedEdits features source m)) h.fit_outermost
      (h.laminar features).starts_ne hf
    rw [hstart] at hrest
    rw [hrest] at hbody
    exact ⟨_, rest, hbody⟩
  by_cases hdisplaced : Displaced (recordedEdits features source m) (semicolon inner)
  · obtain ⟨f, hf, hstart, hroom⟩ := h.exists_outermost_of_displaced hstay hn hkept hdisplaced
    refine ⟨inner, f, hinner, hrecorded, Edit.mem_of_mem_outermost hf, hstart,
      hclosed f hf hstart, ?_, fun hfree ↦ absurd hdisplaced hfree⟩
    rintro rfl
    exact absurd hroom (Nat.lt_irrefl _)
  · have houter := h.isOutermost_of_mem_editsOf hn hsemicolon hdisplaced
    exact ⟨inner, semicolon inner, hinner, hrecorded, hrecorded, rfl,
      hclosed _ (h.mem_outermost.mpr ⟨hrecorded, houter⟩) rfl, fun _ ↦ hdisplaced, fun _ ↦ rfl⟩

end WellPlaced

/-! ## Converted scripts -/

/-- Of the edits that a conversion records outside the calls that move, exactly those are carried out
in the body that are not displaced. Directly behind the value of a default export without a name
stands the text of an edit, and that is the semicolon of the export exactly if it is not displaced. -/
theorem editsCarriedOut_of_partsOf {config : ModuleConfig} {filename code : String} {parts : Parts}
    (hparts : partsOf config filename code = .ok parts) :
    ∃ m d, parse false code.toList = some m ∧
      draft (Features.ofConfig config) code.toList m = .ok d ∧
      (∀ e ∈ d.edits, ¬InMovedCall (Features.ofConfig config) code.toList m e →
        (CarriedOut code.toList d.edits parts.body e ↔ ¬Displaced d.edits e)) ∧
      (config.runs .modulesCommonJs = true → ∀ n ∈ m.items, exportsUnnamed n = true →
        ∃ inner f, exportedSpan? n = some inner ∧ semicolon inner ∈ d.edits ∧ f ∈ d.edits ∧
          f.span.start = inner.stop ∧
          ClosedBy (Features.ofConfig config) code.toList m parts.body inner f ∧
          (f = semicolon inner ↔ ¬Displaced d.edits (semicolon inner))) := by
  obtain ⟨m, d, hparse, hdraft, rfl⟩ := exists_draft_of_partsOf hparts
  have hplaced := wellPlaced_of_parse hparse
  have hstay := importsStay_of_parse hparse (Features.ofConfig config)
  refine ⟨m, d, hparse, hdraft, ?_, ?_⟩
  · intro e he hstays
    rw [body_of_draft hdraft]
    rw [edits_of_draft hdraft] at he ⊢
    rw [hplaced.carriedOut_iff hstay he]
    exact and_iff_right hstays
  · intro hmodules n hn hunnamed
    rw [body_of_draft hdraft, edits_of_draft hdraft]
    exact hplaced.exists_closedBy hstay hmodules hn hunnamed

/-- Between two exports with nothing in between the semicolon of the first one is lost. -/
theorem editsCarriedOut_of_partsOf_adjoining :
    let code := "export default class {}export const a = 1;\n"
    let config : ModuleConfig := ⟨.off, [], [.modulesCommonJs]⟩
    let assigned : Edit := ⟨⟨0, 15⟩, defaultAssignment⟩
    let exported : Edit := ⟨⟨23, 30⟩, ""⟩
    ∃ parts m d, partsOf config "a.js" code = .ok parts ∧ parse false code.toList = some m ∧
      draft (Features.ofConfig config) code.toList m = .ok d ∧
      d.edits = [assigned, semicolon ⟨15, 23⟩, exported] ∧
      CarriedOut code.toList d.edits parts.body assigned ∧
      ¬CarriedOut code.toList d.edits parts.body (semicolon ⟨15, 23⟩) ∧
      CarriedOut code.toList d.edits parts.body exported ∧
      ClosedBy (Features.ofConfig config) code.toList m parts.body ⟨15, 23⟩ exported := by
  intro code config assigned exported
  have hread : ((parse false code.toList).any fun m ↦
      decide (recordedEdits (Features.ofConfig config) code.toList m
          = [assigned, semicolon ⟨15, 23⟩, exported]) &&
        decide (∀ e ∈ recordedEdits (Features.ofConfig config) code.toList m,
          ¬InMovedCall (Features.ofConfig config) code.toList m e) &&
        decide (∃ n ∈ m.items, exportsUnnamed n = true ∧ exportedSpan? n = some ⟨15, 23⟩))
      = true := by
    decide +kernel
  obtain ⟨m, hparse, hm⟩ := (Option.any_eq_true ..).mp hread
  simp only [Bool.and_eq_true, decide_eq_true_iff] at hm
  obtain ⟨⟨hrecorded, hstay⟩, n, hn, hunnamed, hinner⟩ := hm
  have hdone : (partsOf config "a.js" code).toOption.isSome = true := by decide +kernel
  cases hparts : partsOf config "a.js" code with
  | error e => rw [hparts] at hdone; cases hdone
  | ok parts =>
    obtain ⟨m', d, hparse', hdraft, hcarried, hclosed⟩ := editsCarriedOut_of_partsOf hparts
    rw [hparse] at hparse'
    cases hparse'
    rw [← edits_of_draft hdraft] at hrecorded hstay
    rw [hrecorded] at hcarried hclosed hstay
    have hiff := fun e he ↦ hcarried e he (hstay e he)
    have hdisplaced : Displaced [assigned, semicolon ⟨15, 23⟩, exported] (semicolon ⟨15, 23⟩) := by
      decide
    obtain ⟨inner, f, hinner', -, hf, hstart, hbehind, hsemicolon⟩ := hclosed rfl n hn hunnamed
    rw [hinner] at hinner'
    cases hinner'
    have hother : f ≠ semicolon ⟨15, 23⟩ := fun heq ↦ hsemicolon.mp heq hdisplaced
    have hexported : f = exported := by
      simp only [List.mem_cons, List.not_mem_nil, or_false] at hf
      rcases hf with rfl | rfl | rfl
      · cases hstart
      · exact absurd rfl hother
      · rfl
    rw [hexported] at hbehind
    refine ⟨parts, m, d, rfl, hparse, hdraft, hrecorded, ?_⟩
    rw [hrecorded]
    exact ⟨(hiff assigned (by simp)).mpr (by decide), fun h ↦ (hiff _ (by simp)).mp h hdisplaced,
      (hiff exported (by simp)).mpr (by decide), hbehind⟩

end Downlevel.CommonJs
