import Downlevel.Proofs.CommonJs.Collected
import Downlevel.Proofs.Script.Name
import Downlevel.Proofs.Text.Splice
import Mathlib.Data.List.Pairwise

/-!
# Where edits fall

What the conversion relies on about the spans in a tree, and what follows for the edits of a draft;
that every script that is read is like that is shown by following its grammar, in another module.
Statements stand side by side, what they export stands in them, and dynamic imports stand in what is
kept of a statement. So the spans of two edits are disjoint or nested, and an edit is dropped for
one reason only: it converts a dynamic import of a statement that is cut out.
-/

namespace Downlevel.CommonJs

open Script Text

/-! ## Well-placed scripts -/

/-- The span of what a statement exports, if that stands in the statement. -/
def exportedSpan? : Node → Option Span
  | .item _ _ (.exportDefault inner _) | .item _ _ (.exportDeclaration inner _) => some inner
  | _ => none

/-- The part of a statement in which dynamic imports can stand. -/
def content (n : Node) : Span := (exportedSpan? n).getD (itemSpan n)

/-- Whether a statement is nothing but a dynamic import. -/
def isImportStatement : Node → Bool
  | .item _ _ (.expressionStatement (.importCall ..)) => true
  | _ => false

/-- Whether a span starts with something else than a line feed. -/
def startsInLine (source : List Char) (span : Span) : Bool :=
  (slice source span).head?.any (· != '\n')

/-- The spans of a script lie where its grammar says: on boundaries of characters, statements one
behind the other, exported things behind the words in front of them, and the arguments of dynamic
imports between their parentheses. -/
structure WellPlaced (source : List Char) (m : Module) : Prop where
  item_covers : ∀ n ∈ m.items, (itemSpan n).Covers source
  item_starts : ∀ n ∈ m.items, startsInLine source (itemSpan n) = true
  items_ordered : m.items.Pairwise fun a b ↦ (itemSpan a).stop ≤ (itemSpan b).start
  exported_covers : ∀ n ∈ m.items, ∀ inner ∈ exportedSpan? n, inner.Covers source
  exported_inside : ∀ n ∈ m.items, ∀ inner ∈ exportedSpan? n,
    (itemSpan n).start < inner.start ∧ inner.stop ≤ (itemSpan n).stop
  import_covers : ∀ p ∈ dynamicImports m, p.1.Covers source ∧ p.2.Covers source
  import_inside : ∀ p ∈ dynamicImports m, p.1.start < p.2.start ∧ p.2.stop < p.1.stop
  imports_apart : (dynamicImports m).Pairwise fun p q ↦ p.1.Apart q.1
  import_placed : ∀ p ∈ dynamicImports m, ∀ n ∈ m.items,
    p.1.Nested (content n) ∨ p.1.Apart (itemSpan n)
  import_whole : ∀ p ∈ dynamicImports m, ∀ n ∈ m.items,
    p.1 = itemSpan n → isImportStatement n = true

instance (source : List Char) (m : Module) : Decidable (WellPlaced source m) :=
  decidable_of_iff
    ((∀ n ∈ m.items, (itemSpan n).Covers source) ∧
      (∀ n ∈ m.items, startsInLine source (itemSpan n) = true) ∧
      (m.items.Pairwise fun a b ↦ (itemSpan a).stop ≤ (itemSpan b).start) ∧
      (∀ n ∈ m.items, ∀ inner ∈ exportedSpan? n, inner.Covers source) ∧
      (∀ n ∈ m.items, ∀ inner ∈ exportedSpan? n,
        (itemSpan n).start < inner.start ∧ inner.stop ≤ (itemSpan n).stop) ∧
      (∀ p ∈ dynamicImports m, p.1.Covers source ∧ p.2.Covers source) ∧
      (∀ p ∈ dynamicImports m, p.1.start < p.2.start ∧ p.2.stop < p.1.stop) ∧
      ((dynamicImports m).Pairwise fun p q ↦ p.1.Apart q.1) ∧
      (∀ p ∈ dynamicImports m, ∀ n ∈ m.items,
        p.1.Nested (content n) ∨ p.1.Apart (itemSpan n)) ∧
      ∀ p ∈ dynamicImports m, ∀ n ∈ m.items, p.1 = itemSpan n → isImportStatement n = true)
    ⟨fun ⟨h1, h2, h3, h4, h5, h6, h7, h8, h9, h10⟩ ↦ ⟨h1, h2, h3, h4, h5, h6, h7, h8, h9, h10⟩,
      fun ⟨h1, h2, h3, h4, h5, h6, h7, h8, h9, h10⟩ ↦ ⟨h1, h2, h3, h4, h5, h6, h7, h8, h9, h10⟩⟩

namespace WellPlaced

variable {features : Features} {source : List Char} {m : Module} {n : Node} {p : Span × Span}

theorem item_nonempty (h : WellPlaced source m) (hn : n ∈ m.items) :
    (itemSpan n).start < (itemSpan n).stop := by
  refine Nat.lt_of_le_of_ne (h.item_covers n hn).start_le_stop fun heq ↦ ?_
  have hstarts := h.item_starts n hn
  have hempty : slice source (itemSpan n) = [] := by
    rw [← slice_self source (itemSpan n).stop]
    exact congrArg (slice source ⟨·, (itemSpan n).stop⟩) heq
  rw [startsInLine, hempty] at hstarts
  cases hstarts

theorem import_nonempty (h : WellPlaced source m) (hp : p ∈ dynamicImports m) :
    p.1.start < p.1.stop := by
  have hinside := h.import_inside p hp
  have harg := (h.import_covers p hp).2.start_le_stop
  omega

/-- Two statements stand side by side. -/
theorem items_apart (h : WellPlaced source m) {a b : Node} (ha : a ∈ m.items) (hb : b ∈ m.items)
    (hne : a ≠ b) : (itemSpan a).Apart (itemSpan b) := by
  have : Std.Symm fun a b ↦ (itemSpan a).Apart (itemSpan b) := ⟨fun _ _ hab ↦ hab.symm⟩
  have hpairwise : m.items.Pairwise fun a b ↦ (itemSpan a).Apart (itemSpan b) :=
    h.items_ordered.imp fun hab ↦ Or.inl hab
  exact hpairwise.forall ha hb hne

theorem imports_apart_of_ne (h : WellPlaced source m) {q : Span × Span}
    (hp : p ∈ dynamicImports m) (hq : q ∈ dynamicImports m) (hne : p ≠ q) : p.1.Apart q.1 := by
  have : Std.Symm fun p q : Span × Span ↦ p.1.Apart q.1 := ⟨fun _ _ hpq ↦ hpq.symm⟩
  exact h.imports_apart.forall hp hq hne

end WellPlaced

/-! ## The shapes of edits -/

section Shape

variable {features : Features} {source : List Char} {n : Node} {e : Edit}

/-- The span of what a statement exports, if the conversion leaves it in its place. -/
def keptExport? (features : Features) (n : Node) : Option Span :=
  if features.modules && !isCut features n then exportedSpan? n else none

/-- The words in front of what a statement exports. -/
def exportWords (n : Node) (inner : Span) : Span := ⟨(itemSpan n).start, inner.start⟩

theorem mem_exportedSpan?_of_keptExport? {inner : Span} (h : keptExport? features n = some inner) :
    isCut features n = false ∧ inner ∈ exportedSpan? n := by
  unfold keptExport? at h
  split at h
  · next hcond =>
    rw [Bool.and_eq_true, Bool.not_eq_true'] at hcond
    exact ⟨hcond.2, h⟩
  · cases h

theorem exportEdits_of_none (h : exportedSpan? n = none) : exportEdits features n = [] := by
  unfold exportEdits
  split
  · cases h
  · cases h
  · rfl

/-- What stays loses the words in front of it and perhaps gets a semicolon behind it. -/
theorem exportEdits_of_some {inner : Span} (hmodules : features.modules = true)
    (h : exportedSpan? n = some inner) :
    ∃ text ends, text ∈ ["", defaultAssignment] ∧
      (ends = [] ∨ ends = [⟨⟨inner.stop, inner.stop⟩, ";"⟩]) ∧
      exportEdits features n = ⟨exportWords n inner, text⟩ :: ends := by
  unfold exportEdits
  split
  · next span leading inner' value =>
    cases h
    rw [if_pos hmodules]
    have hnamed : "" ∈ ["", defaultAssignment] := List.mem_cons_self
    have hassigned : defaultAssignment ∈ ["", defaultAssignment] :=
      List.mem_cons_of_mem _ (List.mem_singleton_self _)
    unfold defaultEdits
    dsimp only
    split
    · split
      · exact ⟨"", [], hnamed, .inl rfl, rfl⟩
      · exact ⟨defaultAssignment, _, hassigned, .inr rfl, rfl⟩
    · split
      · exact ⟨"", [], hnamed, .inl rfl, rfl⟩
      · exact ⟨defaultAssignment, _, hassigned, .inr rfl, rfl⟩
    · exact ⟨defaultAssignment, [], hassigned, .inl rfl, rfl⟩
  · cases h
    rw [if_pos hmodules]
    exact ⟨"", [], List.mem_cons_self, .inl rfl, rfl⟩
  · next hdefault hdeclaration =>
    unfold exportedSpan? at h
    split at h
    · exact absurd rfl (hdefault _ _ _ _)
    · exact absurd rfl (hdeclaration _ _ _ _)
    · cases h

theorem cutEdit_mem_editsOf (source : List Char) (hcut : isCut features n = true) :
    cutEdit source (itemSpan n) ∈ editsOf features source n := by
  rw [editsOf, if_pos hcut]
  exact List.mem_singleton_self _

/-- A statement is cut out as a whole, or it loses the words in front of what it exports, perhaps
with a semicolon behind that, or it stays as it is. -/
theorem editsOf_cases (features : Features) (source : List Char) (n : Node) :
    (isCut features n = true ∧ editsOf features source n = [cutEdit source (itemSpan n)]) ∨
    (isCut features n = false ∧ keptExport? features n = none ∧ editsOf features source n = []) ∨
    ∃ inner text ends, keptExport? features n = some inner ∧ text ∈ ["", defaultAssignment] ∧
      (ends = [] ∨ ends = [⟨⟨inner.stop, inner.stop⟩, ";"⟩]) ∧
      editsOf features source n = ⟨exportWords n inner, text⟩ :: ends := by
  unfold editsOf keptExport?
  cases hcut : isCut features n with
  | true => exact .inl ⟨rfl, rfl⟩
  | false =>
    rw [if_neg Bool.false_ne_true, Bool.not_false, Bool.and_true]
    cases hexported : exportedSpan? n with
    | none => exact .inr (.inl ⟨rfl, ite_self none, exportEdits_of_none hexported⟩)
    | some inner =>
      cases hmodules : features.modules with
      | false =>
        refine .inr (.inl ⟨rfl, rfl, ?_⟩)
        unfold exportEdits
        rw [hmodules]
        split <;> rfl
      | true =>
        obtain ⟨text, ends, htext, hends, heq⟩ := exportEdits_of_some hmodules hexported
        exact .inr (.inr ⟨inner, text, ends, rfl, htext, hends, heq⟩)

/-- An edit of a statement cuts it out, or stands at an end of what it exports. -/
theorem mem_editsOf (h : e ∈ editsOf features source n) :
    (isCut features n = true ∧ e = cutEdit source (itemSpan n)) ∨
    ∃ inner, keptExport? features n = some inner ∧
      (e.span = exportWords n inner ∧ e.text ∈ ["", defaultAssignment]
        ∨ e = ⟨⟨inner.stop, inner.stop⟩, ";"⟩) := by
  rcases editsOf_cases features source n with ⟨hcut, heq⟩ | ⟨-, -, heq⟩ |
    ⟨inner, text, ends, hkept, htext, hends, heq⟩
  · rw [heq, List.mem_singleton] at h
    exact .inl ⟨hcut, h⟩
  · rw [heq] at h
    cases h
  · rw [heq, List.mem_cons] at h
    refine .inr ⟨inner, hkept, ?_⟩
    rcases h with rfl | h
    · exact .inl ⟨rfl, htext⟩
    · rcases hends with rfl | rfl
      · cases h
      · exact .inr (List.mem_singleton.mp h)

theorem mem_promisesOf {m : Module} (h : e ∈ promisesOf features source m) :
    features.dynamicImports = true ∧
      ∃ p ∈ dynamicImports m, e = promiseEdit source (Names.ofScript m).forWhole.1 p := by
  rw [promisesOf_eq] at h
  split at h
  · next hd =>
    obtain ⟨p, hp, rfl⟩ := List.mem_map.mp h
    exact ⟨hd, p, hp, rfl⟩
  · cases h

end Shape

/-! ## Edits of well-placed scripts -/

section Laminar

variable {features : Features} {source : List Char} {m : Module} {n : Node} {e : Edit}
  {p : Span × Span}

/-- The edits of a statement lie in it, and they end behind its start. -/
theorem WellPlaced.edit_inside (h : WellPlaced source m) (hn : n ∈ m.items)
    (he : e ∈ editsOf features source n) :
    e.span.Covers source ∧ (itemSpan n).start ≤ e.span.start ∧ (itemSpan n).start < e.span.stop ∧
      e.span.stop ≤ (itemSpan n).stop := by
  have hitem := h.item_covers n hn
  have hnonempty := h.item_nonempty hn
  rcases mem_editsOf he with ⟨-, rfl⟩ | ⟨inner, hkept, hends⟩
  · exact ⟨hitem, Nat.le_refl _, hnonempty, Nat.le_refl _⟩
  · have hinner := (mem_exportedSpan?_of_keptExport? hkept).2
    have hcovers := h.exported_covers n hn inner hinner
    obtain ⟨hstart, hstop⟩ := h.exported_inside n hn inner hinner
    have hle := hcovers.start_le_stop
    rcases hends with ⟨hwords, -⟩ | rfl
    · rw [hwords]
      exact ⟨⟨Nat.le_of_lt hstart, hitem.start_isBoundary, hcovers.start_isBoundary⟩,
        Nat.le_refl _, hstart, Nat.le_trans hle hstop⟩
    · exact ⟨⟨Nat.le_refl _, hcovers.stop_isBoundary, hcovers.stop_isBoundary⟩,
        by dsimp only; omega, by dsimp only; omega, hstop⟩

/-- A dynamic import lies beside an edit of a statement, unless the statement is cut out around
it. -/
theorem WellPlaced.import_edit (h : WellPlaced source m) (hp : p ∈ dynamicImports m)
    (hn : n ∈ m.items) (he : e ∈ editsOf features source n) :
    p.1.Apart e.span ∨ isCut features n = true ∧ e = cutEdit source (itemSpan n) ∧
      p.1.Nested (itemSpan n) ∧ p.1 ≠ itemSpan n := by
  have hinside := h.edit_inside hn he
  rcases h.import_placed p hp n hn with hnested | hapart
  · rcases mem_editsOf he with ⟨hcut, rfl⟩ | ⟨inner, hkept, hends⟩
    · right
      -- A statement that is nothing but a dynamic import is never cut out.
      have hne : p.1 ≠ itemSpan n := by
        intro heq
        have hwhole := h.import_whole p hp n hn heq
        unfold isImportStatement at hwhole
        split at hwhole
        · simp [isCut, isHoisted] at hcut
        · cases hwhole
      refine ⟨hcut, rfl, ?_, hne⟩
      unfold content at hnested
      cases hexported : exportedSpan? n with
      | none => rwa [hexported] at hnested
      | some inner =>
        have hlies := h.exported_inside n hn inner hexported
        rw [hexported, Option.getD_some] at hnested
        unfold Span.Nested at *
        omega
    · left
      -- The words in front of a value and the semicolon behind it are outside of the value.
      have hinner := (mem_exportedSpan?_of_keptExport? hkept).2
      rw [content, hinner, Option.getD_some] at hnested
      unfold Span.Nested at hnested
      unfold Span.Apart
      rcases hends with ⟨hwords, -⟩ | rfl
      · rw [hwords, exportWords]
        exact .inr hnested.1
      · exact .inl hnested.2.2
  · left
    unfold Span.Apart at *
    omega

theorem mem_recordedEdits : e ∈ recordedEdits features source m ↔
    (∃ n ∈ m.items, e ∈ editsOf features source n) ∨ e ∈ promisesOf features source m := by
  rw [recordedEdits, List.mem_append, List.mem_flatMap]

theorem WellPlaced.recorded_covers (h : WellPlaced source m)
    (he : e ∈ recordedEdits features source m) : e.span.Covers source := by
  rcases mem_recordedEdits.mp he with ⟨n, hn, he⟩ | he
  · exact (h.edit_inside hn he).1
  · obtain ⟨-, p, hp, rfl⟩ := mem_promisesOf he
    exact (h.import_covers p hp).1

theorem WellPlaced.editsOf_pairwise (h : WellPlaced source m) (hn : n ∈ m.items) :
    (editsOf features source n).Pairwise fun a b ↦ a.span.Apart b.span ∧ a.span ≠ b.span := by
  rcases editsOf_cases features source n with ⟨-, heq⟩ | ⟨-, -, heq⟩ |
    ⟨inner, text, ends, hkept, -, hends, heq⟩
  · rw [heq]
    exact List.pairwise_singleton _ _
  · rw [heq]
    exact List.Pairwise.nil
  · have hinner := (mem_exportedSpan?_of_keptExport? hkept).2
    have hlies := h.exported_inside n hn inner hinner
    have hle := (h.exported_covers n hn inner hinner).start_le_stop
    rw [heq]
    rcases hends with rfl | rfl
    · exact List.pairwise_singleton _ _
    · rw [List.pairwise_pair]
      refine ⟨.inl hle, fun hspan ↦ ?_⟩
      have hstart : (itemSpan n).start = inner.stop := congrArg Span.start hspan
      omega

/-- Two edits of statements stand side by side. -/
theorem WellPlaced.edits_apart (h : WellPlaced source m) {n' : Node} {f : Edit} (hn : n ∈ m.items)
    (hn' : n' ∈ m.items) (he : e ∈ editsOf features source n)
    (hf : f ∈ editsOf features source n') : e = f ∨ e.span.Apart f.span := by
  by_cases hsame : n = n'
  · subst hsame
    have : Std.Symm fun a b : Edit ↦ a.span.Apart b.span ∧ a.span ≠ b.span :=
      ⟨fun _ _ hab ↦ ⟨hab.1.symm, hab.2.symm⟩⟩
    by_cases hef : e = f
    · exact .inl hef
    · exact .inr ((h.editsOf_pairwise hn).forall he hf hef).1
  · have hitems := h.items_apart hn hn' hsame
    have hinside := h.edit_inside hn he
    have hinside' := h.edit_inside hn' hf
    right
    unfold Span.Apart at *
    omega

/-- The spans of all edits differ from each other. -/
theorem WellPlaced.recorded_distinct (h : WellPlaced source m) (features : Features) :
    (recordedEdits features source m).Pairwise fun a b ↦ a.span ≠ b.span := by
  have hstatements : (m.items.flatMap (editsOf features source)).Pairwise fun a b ↦
      a.span ≠ b.span := by
    refine List.pairwise_flatMap.mpr ⟨fun n hn ↦ ?_, ?_⟩
    · exact (h.editsOf_pairwise hn).imp fun hab ↦ hab.2
    · refine h.items_ordered.imp_of_mem fun {a b} ha hb hab x hx y hy hspan ↦ ?_
      have hxa := h.edit_inside ha hx
      have hyb := h.edit_inside hb hy
      rw [hspan] at hxa
      omega
  have himports : (promisesOf features source m).Pairwise fun a b ↦ a.span ≠ b.span := by
    rw [promisesOf_eq]
    split
    · rw [List.pairwise_map]
      exact h.imports_apart.imp_of_mem fun hp _ hpq ↦ hpq.ne (h.import_nonempty hp)
    · exact List.Pairwise.nil
  refine List.pairwise_append.mpr ⟨hstatements, himports, fun a ha b hb ↦ ?_⟩
  obtain ⟨n, hn, ha⟩ := List.mem_flatMap.mp ha
  obtain ⟨-, p, hp, rfl⟩ := mem_promisesOf hb
  rcases h.import_edit hp hn ha with hapart | ⟨-, rfl, -, hne⟩
  · exact (hapart.ne (h.import_nonempty hp)).symm
  · exact hne.symm

/-- The spans of two edits are disjoint or nested. -/
theorem WellPlaced.recorded_apart_or_nested (h : WellPlaced source m) {f : Edit}
    (he : e ∈ recordedEdits features source m) (hf : f ∈ recordedEdits features source m) :
    e.span.Apart f.span ∨ e.span.Nested f.span ∨ f.span.Nested e.span := by
  have hself : e = f → e.span.Apart f.span ∨ e.span.Nested f.span ∨ f.span.Nested e.span := by
    rintro rfl
    have hle := (h.recorded_covers he).start_le_stop
    unfold Span.Apart Span.Nested
    omega
  -- Only where a statement is cut out around a dynamic import are the two nested.
  rcases mem_recordedEdits.mp he with ⟨n, hn, he⟩ | he <;>
    rcases mem_recordedEdits.mp hf with ⟨n', hn', hf⟩ | hf
  · exact (h.edits_apart hn hn' he hf).elim hself .inl
  · obtain ⟨-, p, hp, rfl⟩ := mem_promisesOf hf
    rcases h.import_edit hp hn he with hapart | ⟨-, rfl, hnested, -⟩
    · exact .inl hapart.symm
    · exact .inr (.inr hnested)
  · obtain ⟨-, p, hp, rfl⟩ := mem_promisesOf he
    rcases h.import_edit hp hn' hf with hapart | ⟨-, rfl, hnested, -⟩
    · exact .inl hapart
    · exact .inr (.inl hnested)
  · obtain ⟨-, p, hp, rfl⟩ := mem_promisesOf he
    obtain ⟨-, q, hq, rfl⟩ := mem_promisesOf hf
    by_cases hpq : p = q
    · exact hself (by rw [hpq])
    · exact .inl (h.imports_apart_of_ne hp hq hpq)

/-- The spans of all edits are disjoint or nested, and they differ from each other. -/
theorem WellPlaced.laminar (h : WellPlaced source m) (features : Features) :
    Edit.Laminar (recordedEdits features source m) where
  start_le_stop _ he := (h.recorded_covers he).start_le_stop
  distinct := h.recorded_distinct features
  apart_or_nested _ ha _ hb := h.recorded_apart_or_nested ha hb

/-! ## What is carried out -/

/-- Whether a span stands in a statement that is cut out. -/
def inCutStatement (features : Features) (m : Module) (s : Span) : Bool :=
  m.items.any fun n ↦ isCut features n && decide (s.Nested (itemSpan n))

theorem inCutStatement_eq_true {s : Span} : inCutStatement features m s = true ↔
    ∃ n ∈ m.items, isCut features n = true ∧ s.Nested (itemSpan n) := by
  simp [inCutStatement]

/-- The words in front of what is exported are always taken out. -/
theorem WellPlaced.isOutermost_words (h : WellPlaced source m) (hn : n ∈ m.items) {inner : Span}
    (hkept : keptExport? features n = some inner) (he : e ∈ editsOf features source n)
    (hwords : e.span = exportWords n inner) :
    Edit.IsOutermost (recordedEdits features source m) e := by
  obtain ⟨hstays, hinner⟩ := mem_exportedSpan?_of_keptExport? hkept
  have hnonempty : e.span.start < e.span.stop := by
    rw [hwords]
    exact (h.exported_inside n hn inner hinner).1
  intro f hf hne
  rcases mem_recordedEdits.mp hf with ⟨n', hn', hf⟩ | hf
  · rcases h.edits_apart hn hn' he hf with rfl | hapart
    · exact absurd rfl hne
    · exact hapart.not_nested hnonempty
  · obtain ⟨-, p, hp, rfl⟩ := mem_promisesOf hf
    rcases h.import_edit hp hn he with hapart | ⟨hcut, -⟩
    · exact hapart.symm.not_nested hnonempty
    · rw [hstays] at hcut
      cases hcut

/-- A dynamic import is converted unless its statement is cut out. -/
theorem WellPlaced.isOutermost_promise (h : WellPlaced source m) (hp : p ∈ dynamicImports m)
    (helper : String) :
    Edit.IsOutermost (recordedEdits features source m) (promiseEdit source helper p)
      ↔ inCutStatement features m p.1 = false := by
  have hnonempty := h.import_nonempty hp
  rw [← Bool.not_eq_true, inCutStatement_eq_true]
  constructor
  · rintro houter ⟨n, hn, hcut, hnested⟩
    have hedits := cutEdit_mem_editsOf source hcut
    rcases h.import_edit hp hn hedits with hapart | ⟨-, -, -, hne⟩
    · exact hapart.not_nested hnonempty hnested
    · exact houter _ (mem_recordedEdits.mpr (.inl ⟨n, hn, hedits⟩)) hne.symm hnested
  · intro hcut f hf hne hnested
    rcases mem_recordedEdits.mp hf with ⟨n, hn, hf⟩ | hf
    · rcases h.import_edit hp hn hf with hapart | ⟨hcutn, -, hinside, -⟩
      · exact hapart.not_nested hnonempty hnested
      · exact hcut ⟨n, hn, hcutn, hinside⟩
    · obtain ⟨-, q, hq, rfl⟩ := mem_promisesOf hf
      have hapart := h.imports_apart_of_ne hp hq fun hpq ↦ hne (by rw [hpq]; rfl)
      exact hapart.not_nested hnonempty hnested

end Laminar

end Downlevel.CommonJs
