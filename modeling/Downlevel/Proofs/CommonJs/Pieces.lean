import Downlevel.Proofs.CommonJs.Identifiers

/-!
# Pieces of converted scripts

The header, the body and the footer of a converted script as sequences of pieces. A piece is a text
that the conversion writes, or a part of the script that it copies. The only written text with a
copy inside is a converted dynamic import, which falls into three pieces.

The identifiers of a written piece are read from its text. Of a copied one it is only known that all
its identifiers are names of the script, so it counts as if it had all of them.
-/

namespace Downlevel.CommonJs

open Script Text

/-- A piece of a converted script. -/
inductive Piece where
  /-- A text that the conversion writes. -/
  | written (text : String)
  /-- A part of the script. -/
  | copied (span : Span)
  deriving DecidableEq

namespace Piece

/-- The text of a piece. -/
def text (source : List Char) : Piece → List Char
  | written text => text.toList
  | copied span => slice source span

/-- The identifiers that can be in a piece. -/
def identifiers (m : Module) : Piece → List String
  | written text => identifiersOf text
  | copied _ => namesIn m.items

/-- The names that can be declared in a piece. -/
def declared (m : Module) : Piece → List String
  | written text => declaredIn text
  | copied _ => namesIn m.items

end Piece

/-- The text of a sequence of pieces. -/
def textOf (source : List Char) (ps : List Piece) : List Char := ps.flatMap (Piece.text source)

section Texts

variable {source : List Char} {ps qs : List Piece}

@[simp] theorem textOf_nil : textOf source [] = [] := rfl

@[simp] theorem textOf_cons (p : Piece) :
    textOf source (p :: ps) = p.text source ++ textOf source ps :=
  List.flatMap_cons

@[simp] theorem textOf_append : textOf source (ps ++ qs) = textOf source ps ++ textOf source qs :=
  List.flatMap_append

theorem textOf_flatMap {α : Type} (f : α → List Piece) (as : List α) :
    textOf source (as.flatMap f) = as.flatMap fun a ↦ textOf source (f a) :=
  List.flatMap_assoc

theorem textOf_written {α : Type} (f : α → String) (as : List α) :
    textOf source (as.map fun a ↦ .written (f a)) = as.flatMap fun a ↦ (f a).toList :=
  List.flatMap_map ..

end Texts

/-! ## Edited texts -/

/-- The pieces of a part of the script up to an offset, with ordered edits carried out. -/
def splicePieces (written : Edit → List Piece) : Nat → List Edit → Nat → List Piece
  | base, [], stop => [.copied ⟨base, stop⟩]
  | base, e :: es, stop =>
    .copied ⟨base, e.span.start⟩ :: (written e ++ splicePieces written e.span.stop es stop)

section Splice

variable {source : List Char} {written : Edit → List Piece} {base stop : Nat} {es : List Edit}
  {p : Piece}

theorem textOf_splicePieces (written : Edit → List Piece)
    (hwritten : ∀ e ∈ es, textOf source (written e) = e.text.toList)
    (hbase : IsBoundary source base) (hstop : IsBoundary source stop)
    (hord : Edit.Ordered base es) (hfit : Edit.Fit source stop es) :
    textOf source (splicePieces written base es stop)
      = Edit.splice base es (slice source ⟨base, stop⟩) := by
  induction es generalizing base with
  | nil => exact List.append_nil _
  | cons e es ih =>
    obtain ⟨⟨-, -, hend⟩, -⟩ := hfit.head
    have hrest := ih (fun f hf ↦ hwritten f (List.mem_cons_of_mem e hf)) hend hord.2 hfit.tail
    rw [splicePieces, textOf_cons, textOf_append, hwritten e List.mem_cons_self, hrest,
      Edit.splice_cons_slice hbase hstop hord hfit, List.append_assoc]
    rfl

theorem mem_splicePieces (h : p ∈ splicePieces written base es stop) :
    (∃ span, p = .copied span) ∨ ∃ e ∈ es, p ∈ written e := by
  induction es generalizing base with
  | nil => exact .inl ⟨_, List.mem_singleton.mp h⟩
  | cons e es ih =>
    rw [splicePieces, List.mem_cons, List.mem_append] at h
    rcases h with rfl | h | h
    · exact .inl ⟨_, rfl⟩
    · exact .inr ⟨e, List.mem_cons_self, h⟩
    · refine (ih h).imp_right ?_
      rintro ⟨f, hf, hp⟩
      exact ⟨f, List.mem_cons_of_mem e hf, hp⟩

theorem subset_splicePieces {e : Edit} (he : e ∈ es) :
    written e ⊆ splicePieces written base es stop := by
  induction es generalizing base with
  | nil => cases he
  | cons f es ih =>
    rw [splicePieces]
    refine List.subset_cons_of_subset _ ?_
    rcases List.mem_cons.mp he with rfl | he
    · exact List.subset_append_left ..
    · exact List.subset_append_of_subset_right _ (ih he)

end Splice

/-! ### Edits -/

/-- The dynamic import that an edit converts: its span, and that of its argument. -/
def convertedImport? (features : Features) (source : List Char) (m : Module) (e : Edit) :
    Option (Span × Span) :=
  if features.dynamicImports then
    (dynamicImports m).find? fun p ↦ decide (promiseEdit source (importHelper m) p = e)
  else none

/-- The pieces that an edit writes. -/
def editPieces (features : Features) (source : List Char) (m : Module) (e : Edit) : List Piece :=
  match convertedImport? features source m e with
  | some p => [.written (promiseFront (importHelper m)), .copied p.2, .written ")))"]
  | none => [.written e.text]

section Edits

variable {features : Features} {source : List Char} {m : Module} {e : Edit}

theorem convertedImport?_eq_some {found : Span × Span}
    (h : convertedImport? features source m e = some found) :
    e = promiseEdit source (importHelper m) found ∧ e ∈ promisesOf features source m := by
  unfold convertedImport? at h
  split at h
  · next hdynamic =>
    have hsame := List.find?_some h
    rw [decide_eq_true_iff] at hsame
    rw [promisesOf_eq, if_pos hdynamic, ← hsame]
    exact ⟨rfl, List.mem_map_of_mem (List.mem_of_find?_eq_some h)⟩
  · cases h

theorem textOf_editPieces (features : Features) (source : List Char) (m : Module) (e : Edit) :
    textOf source (editPieces features source m e) = e.text.toList := by
  unfold editPieces
  split
  · next found hfound =>
    obtain ⟨rfl, -⟩ := convertedImport?_eq_some hfound
    have htext : (promiseEdit source (importHelper m) found).text
        = promiseFront (importHelper m) ++ String.ofList (slice source found.2) ++ ")))" := rfl
    rw [htext, String.toList_append, String.toList_append, String.toList_ofList, textOf_cons,
      textOf_cons, textOf_cons, textOf_nil, List.append_nil, List.append_assoc]
    rfl
  · exact List.append_nil _

/-- A dynamic import becomes calls around a copy of its argument. -/
theorem exists_editPieces_eq (he : e ∈ promisesOf features source m) :
    ∃ argument, editPieces features source m e
      = [.written (promiseFront (importHelper m)), .copied argument, .written ")))"] := by
  obtain ⟨hdynamic, found, hfound, heq⟩ := mem_promisesOf he
  have hsame : promiseEdit source (importHelper m) found = e := heq.symm
  have hsome : (convertedImport? features source m e).isSome = true := by
    rw [convertedImport?, if_pos hdynamic, List.find?_isSome]
    exact ⟨found, hfound, decide_eq_true hsame⟩
  obtain ⟨found', hfound'⟩ := Option.isSome_iff_exists.mp hsome
  exact ⟨found'.2, by rw [editPieces, hfound']⟩

/-- No other edit calls a helper. -/
theorem editPieces_of_notMem (he : e ∉ promisesOf features source m) :
    editPieces features source m e = [.written e.text] := by
  unfold editPieces
  split
  · next found hfound => exact absurd (convertedImport?_eq_some hfound).2 he
  · rfl

end Edits

/-! ## The parts of a script -/

/-- The pieces of the lines in front of everything else. -/
def preamblePieces (features : Features) (d : Draft) : List Piece :=
  ((if features.modules then ["\"use strict\";\n"] else [])
    ++ (if features.modules && d.hasExports then
      ["Object.defineProperty(exports, \"__esModule\", \x7b value: true \x7d);\n"] else [])
    ++ (d.names.defaultHelper.map defaultHelperText).toList
    ++ (d.names.wholeHelper.map wholeHelperText).toList).map .written

/-- The pieces of a call that moves, on lines of its own. -/
def callPieces (features : Features) (source : List Char) (m : Module) (n : Node) : List Piece :=
  splicePieces (editPieces features source m) (itemSpan n).start
    (callConversions features source m n) (itemSpan n).stop ++ [.written "\n"]

/-- The pieces of the statements that load modules. -/
def importPieces (d : Draft) : List Piece := d.imports.map fun s ↦ .written s.text

/-- The pieces of the header. -/
def headerPieces (features : Features) (source : List Char) (m : Module) (d : Draft) : List Piece :=
  preamblePieces features d ++ (movedCalls features m).flatMap (callPieces features source m)
    ++ importPieces d

/-- The pieces of the body. -/
def bodyPieces (features : Features) (source : List Char) (m : Module) : List Piece :=
  splicePieces (editPieces features source m) 0 (Edit.outermost (recordedEdits features source m))
    (width source)

/-- The pieces of the footer. -/
def footerPieces (d : Draft) : List Piece := d.exports.map fun s ↦ .written s.text

section Parts

variable {features : Features} {source : List Char} {m : Module} {d : Draft} {n : Node}

theorem textOf_preamblePieces (features : Features) (d : Draft) :
    textOf source (preamblePieces features d) = (preamble features d).toList := by
  have hif : ∀ (b : Bool) (text : String),
      textOf source ((if b then [text] else []).map .written)
        = (if b then text else "").toList := by
    rintro (_ | _) text
    · rfl
    · exact List.append_nil _
  have hhelper : ∀ (name : Option String) (f : String → String),
      textOf source ((name.map f).toList.map .written) = ((name.map f).getD "").toList := by
    rintro (_ | name) f
    · rfl
    · exact List.append_nil _
  rw [preamblePieces, preamble]
  simp only [List.map_append, textOf_append, String.toList_append, hif, hhelper]

theorem textOf_callPieces (h : WellPlaced source m) (hn : n ∈ m.items) :
    textOf source (callPieces features source m n) = movedText features source m n ++ ['\n'] := by
  have hitem := h.item_covers n hn
  have hinside : ∀ e ∈ callConversions features source m n, e.span.Covers source ∧
      (itemSpan n).start ≤ e.span.start ∧ e.span.stop ≤ (itemSpan n).stop := by
    intro e he
    obtain ⟨he, hwithin⟩ := List.mem_filter.mp (Edit.mem_of_mem_outermost he)
    rw [within, Bool.and_eq_true, decide_eq_true_iff, decide_eq_true_iff] at hwithin
    exact ⟨h.recorded_covers (mem_recordedEdits.mpr (.inr he)), hwithin⟩
  have hcall := textOf_splicePieces (editPieces features source m)
    (fun e _ ↦ textOf_editPieces features source m e) hitem.start_isBoundary hitem.stop_isBoundary
    ((Edit.ordered_outermost _).of_le fun e he ↦ (hinside e he).2.1)
    fun e he ↦ ⟨(hinside e he).1, (hinside e he).2.2⟩
  rw [callPieces, callConversions, textOf_append, hcall]
  rfl

theorem textOf_headerPieces (hplaced : WellPlaced source m) (h : draft features source m = .ok d) :
    textOf source (headerPieces features source m d) = (d.parts features source).header := by
  have hcalls : ((movedCalls features m).flatMap fun n ↦
      textOf source (callPieces features source m n))
        = (movedCalls features m).flatMap fun n ↦ movedText features source m n ++ ['\n'] :=
    List.flatMap_congr fun n hn ↦ textOf_callPieces hplaced (mem_movedCalls hn).1
  rw [header_of_draft h, headerPieces, textOf_append, textOf_append, textOf_preamblePieces,
    textOf_flatMap, hcalls, importPieces, textOf_written]

theorem textOf_bodyPieces (hplaced : WellPlaced source m) (h : draft features source m = .ok d) :
    textOf source (bodyPieces features source m) = (d.parts features source).body := by
  have hbody := textOf_splicePieces (editPieces features source m)
    (fun e _ ↦ textOf_editPieces features source m e) (isBoundary_zero source)
    (isBoundary_width source) (Edit.ordered_outermost (recordedEdits features source m))
    hplaced.fit_outermost
  rw [bodyPieces, hbody, slice_all, body_of_draft h]
  rfl

theorem textOf_footerPieces (features : Features) (source : List Char) (d : Draft) :
    textOf source (footerPieces d) = (d.parts features source).footer := by
  rw [footerPieces, textOf_written, ← toList_join_map]
  rfl

/-- A converted dynamic import stands in the body or in a call that moves. -/
theorem promiseFront_mem_pieces (hplaced : WellPlaced source m) (hstay : ImportsStay features m)
    (d : Draft) (hfound : promisesOf features source m ≠ []) :
    .written (promiseFront (importHelper m))
      ∈ headerPieces features source m d ++ bodyPieces features source m := by
  obtain ⟨e, he⟩ := List.exists_mem_of_ne_nil _ hfound
  have hfront : .written (promiseFront (importHelper m)) ∈ editPieces features source m e := by
    obtain ⟨argument, hpieces⟩ := exists_editPieces_eq he
    rw [hpieces]
    exact List.mem_cons_self
  rw [← (hplaced.conversions_perm hstay).mem_iff, conversions, List.mem_append] at he
  rcases he with he | he
  · exact List.mem_append_right _ (subset_splicePieces (List.mem_filter.mp he).1 hfront)
  · obtain ⟨n, hn, he⟩ := List.mem_flatMap.mp he
    have hcall : .written (promiseFront (importHelper m)) ∈ callPieces features source m n :=
      List.mem_append_left _ (subset_splicePieces he hfront)
    exact List.mem_append_left _ (List.mem_append_left _ (List.mem_append_right _
      (List.mem_flatMap.mpr ⟨n, hn, hcall⟩)))

end Parts

end Downlevel.CommonJs
