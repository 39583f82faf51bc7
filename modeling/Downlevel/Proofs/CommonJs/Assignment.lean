import Downlevel.Proofs.CommonJs.DynamicImports
import Downlevel.Proofs.CommonJs.Exports

/-!
# Values exported where they stand

A default export without a name of its own is assigned in its place. The words in front of the value
become the assignment, and behind them stands the text of the value with the dynamic imports in it
converted. Nothing else is written in front of a statement as an assignment, so the assignments in a
body are those of such exports. A declaration without a name gets a semicolon behind it, unless
another edit takes the place directly behind it.
-/

namespace Downlevel.CommonJs

open Script Text

variable {features : Features} {source : List Char} {m : Module} {n : Node} {e : Edit}
  {inner : Span}

/-! ## Edits of assigned values -/

/-- Whether a statement exports a declaration without a name. -/
def exportsUnnamed : Node → Bool
  | .item _ _ (.exportDefault _ value) =>
    match value with
    | .functionDeclaration _ | .classDeclaration _ => value.declaredNames.isEmpty
    | _ => false
  | _ => false

theorem exists_editsOf_of_assignsDefault (source : List Char) (hmodules : features.modules = true)
    (hn : assignsDefault n = true) :
    ∃ inner, exportedSpan? n = some inner ∧ keptExport? features n = some inner ∧
      editsOf features source n = ⟨exportWords n inner, defaultAssignment⟩ ::
        if exportsUnnamed n then [⟨⟨inner.stop, inner.stop⟩, ";"⟩] else [] := by
  unfold assignsDefault at hn
  split at hn
  · next span leading inner value =>
    have hruntime : isTypeDeclaration value = false := by
      cases value with
      | typeDeclaration n => cases hn
      | _ => rfl
    have hcut : isCut features (.item span leading (.exportDefault inner value)) = false := by
      rw [isCut, hruntime, Bool.and_false]
    refine ⟨inner, rfl, ?_, ?_⟩
    · rw [keptExport?, hmodules, hcut]
      rfl
    · rw [editsOf, hcut, if_neg Bool.false_ne_true, exportEdits, if_pos hmodules]
      cases value with
      | functionDeclaration f =>
        simp only [defaultEdits, exportsUnnamed, List.isEmpty_iff.mp hn]
        rfl
      | classDeclaration c =>
        simp only [defaultEdits, exportsUnnamed, List.isEmpty_iff.mp hn]
        rfl
      | typeDeclaration n => cases hn
      | _ => rfl
  · cases hn

/-- Whatever else is exported in its place only loses the words in front of it. -/
theorem editsOf_of_not_assignsDefault (source : List Char)
    (hkept : keptExport? features n = some inner) (hn : assignsDefault n = false) :
    editsOf features source n = [⟨exportWords n inner, ""⟩] := by
  obtain ⟨hcut, hinner⟩ := mem_exportedSpan?_of_keptExport? hkept
  have hmodules : features.modules = true := by
    unfold keptExport? at hkept
    split at hkept
    · next hcond => exact (Bool.and_eq_true_iff.mp hcond).1
    · cases hkept
  rw [editsOf, hcut, if_neg Bool.false_ne_true]
  unfold exportedSpan? at hinner
  split at hinner
  · cases hinner
    next value =>
    rw [exportEdits, if_pos hmodules]
    have hnamed : value.declaredNames.isEmpty = false →
        ∃ name names, value.declaredNames = name :: names := fun h ↦
      List.exists_cons_of_ne_nil (List.isEmpty_eq_false_iff.mp h)
    cases value with
    | typeDeclaration n => rw [isCut, hmodules] at hcut; cases hcut
    | functionDeclaration f =>
      obtain ⟨name, names, hnames⟩ := hnamed hn
      simp only [defaultEdits, hnames]
      rfl
    | classDeclaration c =>
      obtain ⟨name, names, hnames⟩ := hnamed hn
      simp only [defaultEdits, hnames]
      rfl
    | _ => cases hn
  · cases hinner
    rw [exportEdits, if_pos hmodules]
    rfl
  · cases hinner

theorem cutEdit_text_ne (source : List Char) (span : Span) :
    (cutEdit source span).text ≠ defaultAssignment := by
  intro htext
  rw [cutEdit] at htext
  dsimp only at htext
  have hletter : 'e' ∈ List.replicate (newlines (slice source span)) '\n' := by
    rw [← String.toList_ofList (l := List.replicate _ _), htext]
    decide
  cases List.eq_of_mem_replicate hletter

/-- Only a default export that is assigned in its place makes an assignment. -/
theorem assignsDefault_of_mem_editsOf (he : e ∈ editsOf features source n)
    (htext : e.text = defaultAssignment) :
    assignsDefault n = true ∧
      ∃ inner, exportedSpan? n = some inner ∧ e = ⟨exportWords n inner, defaultAssignment⟩ := by
  have hempty : "" ≠ defaultAssignment := by decide
  have hsemicolon : ";" ≠ defaultAssignment := by decide
  rcases mem_editsOf he with ⟨-, rfl⟩ | ⟨inner, hkept, ⟨hspan, -⟩ | rfl⟩
  · exact absurd htext (cutEdit_text_ne source _)
  · refine ⟨?_, inner, (mem_exportedSpan?_of_keptExport? hkept).2, ?_⟩
    · by_contra hn
      rw [editsOf_of_not_assignsDefault source hkept (Bool.eq_false_iff.mpr hn),
        List.mem_singleton] at he
      rw [he] at htext
      exact absurd htext hempty
    · rw [← hspan, ← htext]
  · exact absurd htext hsemicolon

/-! ## Bodies -/

/-- What the body has for the text of a value: its dynamic imports are converted. -/
def valueText (features : Features) (source : List Char) (m : Module) (inner : Span) : List Char :=
  Edit.apply inner.start ((promisesOf features source m).filter fun e ↦ within e.span inner)
    (slice source inner)

/-- What stands directly behind an assigned value. -/
def closing (features : Features) (source : List Char) (m : Module) (n : Node) (inner : Span) :
    List Char :=
  if exportsUnnamed n && decide (∀ e ∈ recordedEdits features source m,
    e.span.start = inner.stop → e.span.stop = inner.stop) then [';'] else []

/-- The edits of a body that write an assignment. -/
def assignments (features : Features) (source : List Char) (m : Module) : List Edit :=
  (Edit.outermost (recordedEdits features source m)).filter fun e ↦
    decide (e.text = defaultAssignment)

namespace WellPlaced

/-- An edit that starts in a value which is kept converts a dynamic import in it. -/
theorem starts_in_value_iff (h : WellPlaced source m) (hn : n ∈ m.items)
    (hkept : keptExport? features n = some inner) (he : e ∈ recordedEdits features source m) :
    inner.start ≤ e.span.start ∧ e.span.start < inner.stop
      ↔ e ∈ promisesOf features source m ∧ within e.span inner = true := by
  obtain ⟨hstays, hinner⟩ := mem_exportedSpan?_of_keptExport? hkept
  have hlies := h.exported_inside n hn inner hinner
  have hle := (h.recorded_covers he).start_le_stop
  rw [within, Bool.and_eq_true, decide_eq_true_iff, decide_eq_true_iff]
  constructor
  · rintro ⟨hstart, hstop⟩
    rcases mem_recordedEdits.mp he with ⟨n', hn', he⟩ | he
    · -- The edits of statements stand at the ends of a value, or in another statement.
      by_cases hsame : n = n'
      · subst hsame
        rcases mem_editsOf he with ⟨hcut, -⟩ | ⟨inner', hkept', ⟨hwords, -⟩ | rfl⟩
        · rw [hstays] at hcut
          cases hcut
        · rw [hwords] at hstart
          exact absurd hstart (Nat.not_le.mpr hlies.1)
        · rw [hkept] at hkept'
          cases hkept'
          exact absurd hstop (Nat.lt_irrefl _)
      · have hinside := h.edit_inside hn' he
        have hapart := h.items_apart hn hn' hsame
        unfold Span.Apart at hapart
        omega
    · refine ⟨he, hstart, ?_⟩
      obtain ⟨-, p, hp, rfl⟩ := mem_promisesOf he
      have hroom := h.import_nonempty hp
      -- A dynamic import lies in the value or apart from the statement.
      have hplaced := h.import_placed p hp n hn
      rw [content, hinner, Option.getD_some] at hplaced
      unfold Span.Nested Span.Apart at hplaced
      simp only [promiseEdit] at hstart hstop ⊢
      omega
  · rintro ⟨he, hstart, hstop⟩
    have hroom := h.promise_nonempty he
    omega

/-- An edit ends where a value that is kept does, or it starts there, or it is not near it. -/
theorem ends_by_value_or_starts_behind (h : WellPlaced source m) (hn : n ∈ m.items)
    (hkept : keptExport? features n = some inner) (he : e ∈ recordedEdits features source m) :
    e.span.stop ≤ inner.stop ∨ inner.stop ≤ e.span.start := by
  obtain ⟨hstays, hinner⟩ := mem_exportedSpan?_of_keptExport? hkept
  have hlies := h.exported_inside n hn inner hinner
  have hle := (h.exported_covers n hn inner hinner).start_le_stop
  rcases mem_recordedEdits.mp he with ⟨n', hn', he⟩ | he
  · by_cases hsame : n = n'
    · subst hsame
      rcases mem_editsOf he with ⟨hcut, -⟩ | ⟨inner', hkept', ⟨hwords, -⟩ | rfl⟩
      · rw [hstays] at hcut
        cases hcut
      · rw [hkept] at hkept'
        cases hkept'
        rw [hwords]
        exact .inl hle
      · rw [hkept] at hkept'
        cases hkept'
        exact .inl (Nat.le_refl _)
    · have hinside := h.edit_inside hn' he
      have hapart := h.items_apart hn hn' hsame
      unfold Span.Apart at hapart
      omega
  · obtain ⟨-, p, hp, rfl⟩ := mem_promisesOf he
    have hplaced := h.import_placed p hp n hn
    rw [content, hinner, Option.getD_some] at hplaced
    unfold Span.Nested Span.Apart at hplaced
    simp only [promiseEdit]
    omega

/-- What converts a dynamic import in a value that is kept is carried out in the body. -/
theorem isOutermost_value_promise (h : WellPlaced source m) (hn : n ∈ m.items)
    (hkept : keptExport? features n = some inner) (he : e ∈ promisesOf features source m)
    (hwithin : within e.span inner = true) :
    Edit.IsOutermost (recordedEdits features source m) e := by
  obtain ⟨hstays, hinner⟩ := mem_exportedSpan?_of_keptExport? hkept
  have hlies := h.exported_inside n hn inner hinner
  have hroom := h.promise_nonempty he
  rw [within, Bool.and_eq_true, decide_eq_true_iff, decide_eq_true_iff] at hwithin
  obtain ⟨-, p, hp, rfl⟩ := mem_promisesOf he
  rw [h.isOutermost_promise hp, ← Bool.not_eq_true, inCutStatement_eq_true]
  rintro ⟨n', hn', hcut, hnested⟩
  have hne : n ≠ n' := by
    rintro rfl
    rw [hstays] at hcut
    cases hcut
  have hapart := h.items_apart hn hn' hne
  simp only [promiseEdit] at hwithin hroom
  unfold Span.Apart at hapart
  unfold Span.Nested at hnested
  omega

/-- The edits of a body that start in a value are the conversions that the value calls for. -/
theorem filter_outermost_value (h : WellPlaced source m) (hn : n ∈ m.items)
    (hkept : keptExport? features n = some inner) :
    (Edit.outermost (recordedEdits features source m)).filter
        (fun e ↦ decide (inner.start ≤ e.span.start) && decide (e.span.start < inner.stop))
      = Edit.outermost ((promisesOf features source m).filter fun e ↦ within e.span inner) := by
  have hapart := (h.promises_apart features).filter fun e ↦ within e.span inner
  have hroom : ∀ e ∈ (promisesOf features source m).filter (fun e ↦ within e.span inner),
      e.span.start < e.span.stop := fun e he ↦ h.promise_nonempty (List.mem_filter.mp he).1
  have hinside := Edit.outermost_perm_of_apart hapart hroom
  have hmem : ∀ e, e ∈ (Edit.outermost (recordedEdits features source m)).filter
        (fun e ↦ decide (inner.start ≤ e.span.start) && decide (e.span.start < inner.stop))
      ↔ e ∈ Edit.outermost ((promisesOf features source m).filter fun e ↦ within e.span inner) := by
    intro e
    rw [hinside.mem_iff, List.mem_filter, List.mem_filter, h.mem_outermost, ← Bool.decide_and,
      decide_eq_true_iff]
    constructor
    · rintro ⟨⟨he, -⟩, hstarts⟩
      exact (h.starts_in_value_iff hn hkept he).mp hstarts
    · rintro ⟨he, hwithin⟩
      have hrecorded := mem_recordedEdits.mpr (.inr he)
      exact ⟨⟨hrecorded, h.isOutermost_value_promise hn hkept he hwithin⟩,
        (h.starts_in_value_iff hn hkept hrecorded).mpr ⟨he, hwithin⟩⟩
  have hnodup := (h.promises_nodup features).filter fun e ↦ within e.span inner
  have hperm := (List.perm_ext_iff_of_nodup ((h.outermost_nodup features).filter _)
    (hinside.nodup_iff.mpr hnodup)).mpr hmem
  refine Edit.eq_of_perm_of_inRow hperm (fun e he ↦ ?_) (List.Pairwise.filter _ ?_) ?_
  · exact hroom e (hinside.mem_iff.mp ((hmem e).mp he))
  · exact Edit.inRow_outermost fun e he ↦ (h.recorded_covers he).start_le_stop
  · exact Edit.inRow_outermost fun e he ↦ Nat.le_of_lt (hroom e he)

/-- What a body has for a value that is kept: the words in front of it are replaced, and its dynamic
imports are converted. -/
theorem body_value (h : WellPlaced source m) (hn : n ∈ m.items)
    (hkept : keptExport? features n = some inner) (he : e ∈ editsOf features source n)
    (hwords : e.span = exportWords n inner) :
    bodyOf features source m
      = Edit.ahead source 0 (Edit.outermost (recordedEdits features source m)) (itemSpan n).start
        ++ (e.text.toList ++ (valueText features source m inner
          ++ Edit.behind source (width source) (Edit.outermost (recordedEdits features source m))
            inner.stop)) := by
  have hinner := (mem_exportedSpan?_of_keptExport? hkept).2
  have hcovers := h.exported_covers n hn inner hinner
  have hord := Edit.ordered_outermost (recordedEdits features source m)
  have hmem : e ∈ Edit.outermost (recordedEdits features source m) :=
    h.mem_outermost.mpr
      ⟨mem_recordedEdits.mpr (.inl ⟨n, hn, he⟩), h.isOutermost_words hn hkept he hwords⟩
  have hroom : e.span.start < e.span.stop := by
    rw [hwords]
    exact (h.exported_inside n hn inner hinner).1
  have hcut := Edit.splice_mem (isBoundary_zero source) (isBoundary_width source) hord
    h.fit_outermost hmem hroom
  have hvalue := Edit.behind_append hcovers.start_isBoundary hcovers.stop_isBoundary
    (isBoundary_width source) hcovers.start_le_stop hcovers.stop_isBoundary.le_width hord
    h.fit_outermost fun f hf ↦
      h.ends_by_value_or_starts_behind hn hkept (Edit.mem_of_mem_outermost hf)
  rw [h.filter_outermost_value hn hkept] at hvalue
  rw [slice_all, hwords, exportWords] at hcut
  dsimp only at hcut
  rw [hvalue] at hcut
  exact hcut

/-- Behind a declaration without a name stands a semicolon, if no other edit takes its place. -/
theorem exists_behind_closing (h : WellPlaced source m) (hn : n ∈ m.items)
    (hkept : keptExport? features n = some inner)
    (he : ⟨⟨inner.stop, inner.stop⟩, ";"⟩ ∈ editsOf features source n)
    (hfree : ∀ e ∈ recordedEdits features source m,
      e.span.start = inner.stop → e.span.stop = inner.stop) :
    ∃ rest, Edit.behind source (width source)
        (Edit.outermost (recordedEdits features source m)) inner.stop = ';' :: rest := by
  have hmem : (⟨⟨inner.stop, inner.stop⟩, ";"⟩ : Edit)
      ∈ Edit.outermost (recordedEdits features source m) := by
    have hrecorded := mem_recordedEdits.mpr (.inl ⟨n, hn, he⟩)
    refine h.mem_outermost.mpr ⟨hrecorded, fun f hf _ hnested ↦ ?_⟩
    have hnear := h.ends_by_value_or_starts_behind hn hkept hf
    have hfree := hfree f hf
    unfold Span.Nested at hnested
    dsimp only at hnested
    omega
  obtain ⟨rest, hrest⟩ := Edit.exists_behind_eq (isBoundary_width source)
    (Edit.ordered_outermost (recordedEdits features source m)) h.fit_outermost
    (h.laminar features).starts_ne hmem
  have hchars : ";".toList = [';'] := rfl
  rw [hchars] at hrest
  exact ⟨rest, hrest⟩

end WellPlaced

/-! ## Assignments -/

/-- The edit of an assignment stands in front of the value that is exported by default. -/
inductive Assigns (features : Features) (source : List Char) (m : Module) :
    Edit → Span → Prop where
  | intro {n : Node} {inner : Span} {rest : List Char} (hn : n ∈ m.items)
      (hinner : exportedSpan? n = some inner)
      (hbody : bodyOf features source m
        = Edit.ahead source 0 (Edit.outermost (recordedEdits features source m)) (itemSpan n).start
          ++ (defaultAssignment.toList ++ (valueText features source m inner
            ++ (closing features source m n inner ++ rest)))) :
    Assigns features source m ⟨exportWords n inner, defaultAssignment⟩ inner

/-- What the body has for a default export without a name of its own. -/
theorem WellPlaced.assigns_of_mem (h : WellPlaced source m) (hmodules : features.modules = true)
    (hn : n ∈ m.items) (hassigns : assignsDefault n = true) (hinner : exportedSpan? n = some inner) :
    Assigns features source m ⟨exportWords n inner, defaultAssignment⟩ inner := by
  obtain ⟨inner', hinner', hkept, hedits⟩ :=
    exists_editsOf_of_assignsDefault source hmodules hassigns
  rw [hinner] at hinner'
  cases hinner'
  have hbody := h.body_value hn hkept (by rw [hedits]; exact List.mem_cons_self) rfl
  have hclosing : ∃ rest, Edit.behind source (width source)
      (Edit.outermost (recordedEdits features source m)) inner.stop
        = closing features source m n inner ++ rest := by
    unfold closing
    split
    · next hcond =>
      rw [Bool.and_eq_true, decide_eq_true_iff] at hcond
      refine h.exists_behind_closing hn hkept ?_ hcond.2
      rw [hedits, if_pos hcond.1]
      exact List.mem_cons_of_mem _ List.mem_cons_self
    · exact ⟨_, rfl⟩
  obtain ⟨rest, hrest⟩ := hclosing
  rw [hrest] at hbody
  exact .intro hn hinner hbody

theorem head?_promiseText (helper argument : String) :
    (promiseText helper argument).toList.head? = some 'P' := by
  have hstart : ∀ a b c : String, a.toList.head? = some 'P' →
      (a ++ helper ++ b ++ argument ++ c).toList.head? = some 'P' := by
    intro a b c ha
    simp only [String.toList_append, List.append_assoc]
    rw [List.head?_append, ha, Option.some_or]
  exact hstart _ _ _ (by decide +kernel)

theorem WellPlaced.mem_assignments (h : WellPlaced source m) (hmodules : features.modules = true) :
    e ∈ assignments features source m ↔ ∃ n ∈ m.items, assignsDefault n = true ∧
      ∃ inner, exportedSpan? n = some inner ∧ e = ⟨exportWords n inner, defaultAssignment⟩ := by
  rw [assignments, List.mem_filter, h.mem_outermost, decide_eq_true_iff]
  constructor
  · rintro ⟨⟨he, -⟩, htext⟩
    rcases mem_recordedEdits.mp he with ⟨n, hn, he⟩ | he
    · exact ⟨n, hn, assignsDefault_of_mem_editsOf he htext⟩
    · -- A converted dynamic import starts with another letter.
      obtain ⟨-, p, -, rfl⟩ := mem_promisesOf he
      have hfirst := head?_promiseText (Names.ofScript m).forWhole.1
        (String.ofList (slice source p.2))
      have hassignment : defaultAssignment.toList.head? = some 'e' := by decide
      rw [promiseEdit] at htext
      dsimp only at htext
      rw [htext, hassignment] at hfirst
      cases hfirst
  · rintro ⟨n, hn, hassigns, inner, hinner, rfl⟩
    obtain ⟨inner', hinner', hkept, hedits⟩ :=
      exists_editsOf_of_assignsDefault source hmodules hassigns
    rw [hinner] at hinner'
    cases hinner'
    have he : ⟨exportWords n inner, defaultAssignment⟩ ∈ editsOf features source n := by
      rw [hedits]
      exact List.mem_cons_self
    exact ⟨⟨mem_recordedEdits.mpr (.inl ⟨n, hn, he⟩), h.isOutermost_words hn hkept he rfl⟩, rfl⟩

/-- The edits that assign the default exports of a script, in their order. -/
def assignedExports (m : Module) : List Edit :=
  (m.items.filter assignsDefault).flatMap fun n ↦
    (exportedSpan? n).toList.map fun inner ↦ ⟨exportWords n inner, defaultAssignment⟩

theorem mem_assignedExports : e ∈ assignedExports m ↔ ∃ n ∈ m.items, assignsDefault n = true ∧
    ∃ inner, exportedSpan? n = some inner ∧ e = ⟨exportWords n inner, defaultAssignment⟩ := by
  rw [assignedExports, List.mem_flatMap]
  constructor
  · rintro ⟨n, hn, he⟩
    obtain ⟨inner, hinner, rfl⟩ := List.mem_map.mp he
    obtain ⟨hn, hassigns⟩ := List.mem_filter.mp hn
    exact ⟨n, hn, hassigns, inner, Option.mem_toList.mp hinner, rfl⟩
  · rintro ⟨n, hn, hassigns, inner, hinner, rfl⟩
    exact ⟨n, List.mem_filter.mpr ⟨hn, hassigns⟩,
      List.mem_map.mpr ⟨inner, Option.mem_toList.mpr hinner, rfl⟩⟩

theorem WellPlaced.assignedExports_inRow (h : WellPlaced source m) :
    (assignedExports m).Pairwise fun e f ↦ e.span.stop ≤ f.span.start := by
  refine List.pairwise_flatMap.mpr ⟨fun n _ ↦ ?_, ?_⟩
  · cases exportedSpan? n with
    | none => exact .nil
    | some inner => exact List.pairwise_singleton _ _
  · refine (h.items_ordered.filter _).imp_of_mem fun {a b} ha _ hab x hx y hy ↦ ?_
    obtain ⟨inner, hinner, rfl⟩ := List.mem_map.mp hx
    obtain ⟨inner', -, rfl⟩ := List.mem_map.mp hy
    have ha := (List.mem_filter.mp ha).1
    have hinner := Option.mem_toList.mp hinner
    have hlies := h.exported_inside a ha inner hinner
    have hle := (h.exported_covers a ha inner hinner).start_le_stop
    simp only [exportWords]
    omega

theorem WellPlaced.assignments_eq (h : WellPlaced source m) (hmodules : features.modules = true) :
    assignments features source m = assignedExports m := by
  have hmem : ∀ e, e ∈ assignments features source m ↔ e ∈ assignedExports m := fun e ↦
    (h.mem_assignments hmodules).trans mem_assignedExports.symm
  have hroom : ∀ e ∈ assignedExports m, e.span.start < e.span.stop := by
    intro e he
    obtain ⟨n, hn, -, inner, hinner, rfl⟩ := mem_assignedExports.mp he
    exact (h.exported_inside n hn inner hinner).1
  have hrow := h.assignedExports_inRow
  have hnodup : (assignedExports m).Nodup := hrow.imp_of_mem fun he _ hef heq ↦ by
    have hroom := hroom _ he
    rw [heq] at hroom hef
    omega
  have hassignments : (assignments features source m).Nodup :=
    (h.outermost_nodup features).filter _
  exact Edit.eq_of_perm_of_inRow ((List.perm_ext_iff_of_nodup hassignments hnodup).mpr hmem)
    (fun e he ↦ hroom e ((hmem e).mp he))
    ((Edit.inRow_outermost fun e he ↦ (h.recorded_covers he).start_le_stop).filter _) hrow

/-- The assignments of a body are those of its default exports without names of their own, in their
order, and each is followed by the value. -/
theorem WellPlaced.assigns (h : WellPlaced source m) (hmodules : features.modules = true) :
    List.Forall₂ (Assigns features source m) (assignments features source m)
      ((m.items.filter assignsDefault).flatMap fun n ↦ (exportedSpan? n).toList) := by
  have hsame : List.Forall₂ (fun a b ↦ a = b ∧ b ∈ m.items.filter assignsDefault)
      (m.items.filter assignsDefault) (m.items.filter assignsDefault) :=
    List.forall₂_same.mpr fun n hn ↦ ⟨rfl, hn⟩
  rw [h.assignments_eq hmodules]
  refine List.rel_flatMap hsame ?_
  rintro n _ ⟨rfl, hn⟩
  obtain ⟨hn, hassigns⟩ := List.mem_filter.mp hn
  dsimp only
  cases hinner : exportedSpan? n with
  | none => exact .nil
  | some inner => exact .cons (h.assigns_of_mem hmodules hn hassigns hinner) .nil

end Downlevel.CommonJs
