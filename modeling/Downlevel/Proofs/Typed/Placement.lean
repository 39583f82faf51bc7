import Downlevel.Proofs.CommonJs.Parsed
import Downlevel.Proofs.Typed.Decorators
import Downlevel.Typed.Plain

/-!
# Where decorators stand

The decorators of an exported class stand on one side of the word `export`, all of them in front of
it or all of them behind it. The gate does not ask for their place: it asks whether `export` follows
the last decorator, behind nothing but white space. Decorators behind the word never look as if they
stood in front of it. Decorators in front of it do so only if nothing but white space stands in
between; a comment there, or a blank that is no white space, hides the word from the gate.
-/

namespace Downlevel.Typed

open Script Script.Grammar CommonJs Text

variable {source : List Char} {ctx : Context} {c c₁ c' : Cursor} {r : Rules} {ds : List Node}
  {n : Node} {w : String}

/-! ## The text behind the last token -/

theorem kind_of_isWord {t : Token} (h : t.isWord w = true) : t.kind = .word w false := by
  unfold Token.isWord at h
  split at h
  · next hkind => rw [hkind, eq_of_beq h]
  · cases h

theorem dropBytes_of_isWord (hc : c.At source) (h : c.token.isWord w = true) :
    dropBytes source c.token.span.start = w.toList ++ c.rest :=
  (hc.token.plain w (kind_of_isWord h)).dropBytes_eq

/-- The text behind the last token, up to the next one and from there on. -/
theorem dropBytes_lastStop (hc : c.At source) (h : c.token.isWord w = true) :
    dropBytes source c.lastStop
      = slice source ⟨c.lastStop, c.token.span.start⟩ ++ (w.toList ++ c.rest) := by
  have hstart := (hc.token.plain w (kind_of_isWord h)).isBoundary
  rw [← dropBytes_of_isWord hc h, slice_append_dropBytes hc.last hstart hc.last_le]

/-- Whether `export` is found in a text behind white space. -/
def findsExport (cs : List Char) : Bool := "export".toList.isPrefixOf (cs.dropWhile isWhiteSpace)

/-- In a text that starts between two tokens, `export` is found if it starts the second one and
nothing but white space stands in front of it. -/
theorem findsExport_append {gap cs : List Char} (h : IsTrivia gap) :
    findsExport (gap ++ cs) = (isWhite gap && findsExport cs) := by
  have hword : "export".toList = 'e' :: "xport".toList := rfl
  rw [Bool.eq_iff_iff, Bool.and_eq_true, findsExport, findsExport, List.isPrefixOf_iff_prefix,
    List.isPrefixOf_iff_prefix, hword]
  exact h.prefix_dropWhile_iff (by decide) (by decide) (by decide)

theorem findsExport_cons {d : Char} (hwhite : isWhiteSpace d = false) (hd : d ≠ 'e')
    (cs : List Char) : findsExport (d :: cs) = false := by
  have hword : "export".toList = 'e' :: "xport".toList := rfl
  rw [findsExport, List.dropWhile_cons_of_neg (by simp [hwhite]), hword, List.isPrefixOf_cons_cons,
    beq_false_of_ne hd.symm, Bool.false_and]

theorem findsExport_of_isWord (hc : c.At source) (h : c.token.isWord "export" = true) :
    findsExport (dropBytes source c.lastStop)
      = isWhite (slice source ⟨c.lastStop, c.token.span.start⟩) := by
  have hfound : findsExport ("export".toList ++ c.rest) = true :=
    List.isPrefixOf_iff_prefix.mpr ⟨c.rest, rfl⟩
  rw [dropBytes_lastStop hc h, findsExport_append hc.gap, hfound, Bool.and_true]

/-- The words in front of which the decorators of a class stand. -/
def classWords : List String := ["class", "abstract", "declare"]

theorem findsExport_of_mem_classWords (hc : c.At source) (hw : w ∈ classWords)
    (h : c.token.isWord w = true) : findsExport (dropBytes source c.lastStop) = false := by
  have hother : findsExport (w.toList ++ c.rest) = false := by
    simp only [classWords, List.mem_cons, List.not_mem_nil, or_false] at hw
    rcases hw with rfl | rfl | rfl
    · exact findsExport_cons (by decide) (by decide) ("lass".toList ++ c.rest)
    · exact findsExport_cons (by decide) (by decide) ("bstract".toList ++ c.rest)
    · exact findsExport_cons (by decide) (by decide) ("eclare".toList ++ c.rest)
  rw [dropBytes_lastStop hc h, findsExport_append hc.gap, hother, Bool.and_false]

/-! ## The word behind decorators -/

theorem isWord_of_word {u : Unit} (h : word w ctx c = some (u, c')) :
    c.token.isWord w = true ∧ c' = c.advance := by
  obtain ⟨b, c₁, htake, h⟩ := exists_of_bind_eq_some h
  rw [takeWord_eq] at htake
  have hb : b = true := of_guardThat_eq_some h
  split at htake
  · next hword =>
    cases htake
    cases Stays.stays h
    exact ⟨hword, rfl⟩
  · cases htake
    cases hb

theorem isWord_of_classRest (h : classRest r ds ctx c = some (n, c')) :
    c.token.isWord "class" = true := by
  obtain ⟨u, c₁, hword, -⟩ := exists_of_bind_eq_some h
  exact (isWord_of_word hword).1

/-- A declaration behind decorators is one of a class. -/
theorem exists_classWord_of_declaration (hds : ds ≠ [])
    (h : declaration r ds ctx c = some (n, c')) : ∃ w ∈ classWords, c.token.isWord w = true := by
  obtain ⟨isClass, c₁, hclass, h⟩ := exists_of_bind_eq_some h
  cases hclass
  split at h
  · next hword => exact ⟨"class", by decide, hword⟩
  obtain ⟨isTyped, c₁, hisTyped, h⟩ := exists_of_bind_eq_some h
  cases hisTyped
  obtain ⟨isAbstract, c₁, hisAbstract, h⟩ := exists_of_bind_eq_some h
  cases hisAbstract
  obtain ⟨following, c₁, hfollowing, h⟩ := exists_of_bind_eq_some h
  cases hfollowing
  split at h
  · next hwords =>
    rw [Bool.and_eq_true, Bool.and_eq_true] at hwords
    exact ⟨"abstract", by decide, hwords.1.2⟩
  · obtain ⟨u, c₁, hguard, -⟩ := exists_of_bind_eq_some h
    exact absurd (List.isEmpty_iff.mp (of_guardThat_eq_some hguard)) hds

theorem exists_classWord_of_decoratedDeclaration (hds : ds ≠ [])
    (h : decoratedDeclaration r ds ctx c = some (n, c')) :
    ∃ w ∈ classWords, c.token.isWord w = true := by
  obtain ⟨isAmbient, c₁, hambient, h⟩ := exists_of_bind_eq_some h
  cases Stays.stays hambient
  split at h
  · obtain ⟨u, c₁, hword, -⟩ := exists_of_bind_eq_some h
    exact ⟨"declare", by decide, (isWord_of_word hword).1⟩
  · exact exists_classWord_of_declaration hds h

/-! ## Decorators in a row -/

/-- Decorators that stand behind an offset and end where the last token in front of a cursor
does. -/
structure DecoratorsUpTo (lo : Nat) (ds : List Node) (c : Cursor) : Prop where
  between : ∀ d ∈ ds, ∃ span, decoratorSpan? d = some span ∧ lo ≤ span.start ∧
    span.start < span.stop ∧ span.stop ≤ c.lastStop
  last : ∀ d ∈ ds.getLast?, ∀ span ∈ decoratorSpan? d, span.stop = c.lastStop

theorem DecoratorsUpTo.nil (lo : Nat) (c : Cursor) : DecoratorsUpTo lo [] c := ⟨nofun, nofun⟩

theorem DecoratorsUpTo.mono {lo lo' : Nat} (h : DecoratorsUpTo lo ds c) (hle : lo' ≤ lo) :
    DecoratorsUpTo lo' ds c where
  between d hd := by
    obtain ⟨span, hspan, hlo, hbounds⟩ := h.between d hd
    exact ⟨span, hspan, Nat.le_trans hle hlo, hbounds⟩
  last := h.last

/-- One more decorator is read. -/
theorem DecoratorsUpTo.append {lo : Nat} {e : Node} (h : DecoratorsUpTo lo ds c)
    (hlo : lo ≤ c.token.span.start) (hread : c.lastStop ≤ c'.lastStop)
    (hmoved : c.token.span.start < c'.lastStop) :
    DecoratorsUpTo lo (ds ++ [.decorator ⟨c.token.span.start, c'.lastStop⟩ e]) c' where
  between d hd := by
    rcases List.mem_append.mp hd with hd | hd
    · obtain ⟨span, hspan, hlo, hroom, hstop⟩ := h.between d hd
      exact ⟨span, hspan, hlo, hroom, Nat.le_trans hstop hread⟩
    · rw [List.mem_singleton.mp hd]
      exact ⟨_, rfl, hlo, hmoved, Nat.le_refl _⟩
  last d hd span hspan := by
    rw [List.getLast?_concat, Option.mem_some_iff] at hd
    subst hd
    cases hspan
    rfl

theorem exists_of_decorator (h : decorator r ctx c = some (n, c')) :
    ∃ e, n = .decorator ⟨c.token.span.start, c'.lastStop⟩ e := by
  obtain ⟨start, c₁, hposition, h⟩ := exists_of_bind_eq_some h
  cases hposition
  obtain ⟨u, c₁, -, h⟩ := exists_of_bind_eq_some h
  obtain ⟨e, c₂, -, h⟩ := exists_of_bind_eq_some h
  cases h
  exact ⟨e, rfl⟩

theorem decoratorsUpTo_of_decorators [Rules.Sound source r] (hc : c.At source)
    (h : decorators r ctx c = some (ds, c')) :
    Reading source c c' [] ∧ DecoratorsUpTo c.token.span.start ds c' := by
  obtain ⟨reversed, c₁, hloop, h⟩ := exists_of_bind_eq_some h
  cases h
  refine grow_induction (fun reversed c₁ ↦ Reading source c c₁ [] ∧
    DecoratorsUpTo c.token.span.start reversed.reverse c₁) ?_ ⟨.refl hc, .nil _ c⟩ hloop
  rintro reversed c₁ o c₂ ⟨hread, hds⟩ hstep
  obtain ⟨t, c₃, hpeek, hstep⟩ := exists_of_bind_eq_some hstep
  cases hpeek
  split at hstep
  · cases hstep
    exact ⟨hread, hds⟩
  · obtain ⟨d, c₃, hd, hstep⟩ := exists_of_bind_eq_some hstep
    cases hstep
    have hopens : Opens source [] (decorator r) := inferInstance
    have hmore : Reading source c₁ c₂ [] := hopens.carries.steps.reading hread.place hd
    obtain ⟨e, rfl⟩ := exists_of_decorator hd
    refine ⟨hread.trans hmore, ?_⟩
    rw [Option.getD_some, List.reverse_cons]
    exact hds.append hread.start_le hmore.last_le (hopens.moves.moves hread.place hd)

/-! ## Exports -/

/-- The decorators of a class stand behind an offset, with one of its words behind them. -/
def StandBehind (source : List Char) (lo : Nat) (own : List Node) : Prop :=
  ∃ c : Cursor, c.At source ∧ DecoratorsUpTo lo own c ∧
    ∃ w ∈ classWords, c.token.isWord w = true

/-- The decorators of what is exported are those in front of the export, or stand behind an
offset. -/
def SidedAt (source : List Char) (ds : List Node) (lo : Nat) (found : List Node) : Prop :=
  found = [] ∨ found = ds ∨ StandBehind source lo found

theorem SidedAt.mono {lo lo' : Nat} {found : List Node} (h : SidedAt source ds lo found)
    (hle : lo' ≤ lo) : SidedAt source ds lo' found := by
  refine h.imp_right (Or.imp_right ?_)
  rintro ⟨c, hc, hown, hword⟩
  exact ⟨c, hc, hown.mono hle, hword⟩

/-- There are decorators on one side only. -/
theorem sidedAt_append {lo : Nat} {own : List Node} (hc : c.At source)
    (hguard : (ds.isEmpty || own.isEmpty) = true) (hown : DecoratorsUpTo lo own c)
    (hword : ds ++ own ≠ [] → ∃ w ∈ classWords, c.token.isWord w = true) :
    SidedAt source ds lo (ds ++ own) := by
  rw [Bool.or_eq_true, List.isEmpty_iff, List.isEmpty_iff] at hguard
  rcases hguard with rfl | rfl
  · rw [List.nil_append] at hword ⊢
    by_cases hnil : own = []
    · exact .inl hnil
    · exact .inr (.inr ⟨c, hc, hown, hword hnil⟩)
  · exact .inr (.inl (List.append_nil ds))

section Exports

variable [Rules.Sound source r] {body : Node}

theorem sidedAt_of_namedDeclaration (hc : c.At source)
    (h : namedDeclaration r ds ctx c = some (n, c')) :
    SidedAt source ds c.token.span.start (classDecorators n) := by
  obtain ⟨own, c₁, hdecorators, h⟩ := exists_of_bind_eq_some h
  obtain ⟨u, c₂, hguard, h⟩ := exists_of_bind_eq_some h
  cases Stays.stays hguard
  obtain ⟨hread, hown⟩ := decoratorsUpTo_of_decorators hc hdecorators
  rcases (always_decoratedDeclaration (ds ++ own)).made h with hboth | hplain
  · rw [hboth]
    exact sidedAt_append hread.place (of_guardThat_eq_some hguard) hown
      fun hne ↦ exists_classWord_of_decoratedDeclaration hne h
  · exact .inl hplain

theorem classDecorators_of_classValue {ds : List Node}
    (h : (do return .classDeclaration (← classRest r ds) : Reader Node) ctx c = some (n, c')) :
    c.token.isWord "class" = true ∧ classDecorators n = ds := by
  obtain ⟨d, c₁, hd, h⟩ := exists_of_bind_eq_some h
  obtain ⟨name, heritage, members, rfl⟩ := (always_classRest r ds).made hd
  cases h
  exact ⟨isWord_of_classRest hd, rfl⟩

/-- The class of a default export behind its decorators. Where types may be written it may be
abstract. -/
theorem classDecorators_of_defaultClass
    (h : (do
      if ← isTyped then let _ ← takeWord "abstract"
      return .classDeclaration (← classRest r ds) : Reader Node) ctx c = some (n, c')) :
    (∃ w ∈ classWords, c.token.isWord w = true) ∧ classDecorators n = ds := by
  obtain ⟨isTyped, c₁, hisTyped, h⟩ := exists_of_bind_eq_some h
  cases Stays.stays hisTyped
  split at h
  · obtain ⟨isAbstract, c₁, htake, h⟩ := exists_of_bind_eq_some h
    obtain ⟨hclass, hds⟩ := classDecorators_of_classValue h
    refine ⟨?_, hds⟩
    rw [takeWord_eq] at htake
    split at htake
    · next habstract => exact ⟨"abstract", by decide, habstract⟩
    · cases htake
      exact ⟨"class", by decide, hclass⟩
  · obtain ⟨hclass, hds⟩ := classDecorators_of_classValue h
    exact ⟨⟨"class", by decide, hclass⟩, hds⟩

/-- The class of a default export from its own decorators on. -/
theorem sidedAt_of_defaultClass (hc : c.At source)
    (h : (do
      let own ← decorators r
      guardThat (ds.isEmpty || own.isEmpty)
      if ← isTyped then let _ ← takeWord "abstract"
      return .classDeclaration (← classRest r (ds ++ own)) : Reader Node) ctx c = some (n, c')) :
    SidedAt source ds c.token.span.start (classDecorators n) := by
  obtain ⟨own, c₁, hdecorators, h⟩ := exists_of_bind_eq_some h
  obtain ⟨u, c₂, hguard, h⟩ := exists_of_bind_eq_some h
  cases Stays.stays hguard
  obtain ⟨hread, hown⟩ := decoratorsUpTo_of_decorators hc hdecorators
  obtain ⟨hword, hboth⟩ := classDecorators_of_defaultClass h
  rw [hboth]
  exact sidedAt_append hread.place (of_guardThat_eq_some hguard) hown fun _ ↦ hword

theorem sidedAt_of_defaultValue (hc : c.At source) (hassignment : Always IsPlain r.assignment)
    (h : defaultValue r ds ctx c = some (n, c')) :
    SidedAt source ds c.token.span.start (classDecorators n) := by
  have hplain (isFunction isInterface : Bool) : Always IsPlain (do
      guardThat ds.isEmpty
      if isFunction then return .functionDeclaration (← functionFromKeyword r true)
      else if isInterface then interfaceDeclaration r
      else inside r.assignment : Reader Node) := by
    have hinterface : MakesWhere (fun _ ↦ True) isTypedDeclaration (interfaceDeclaration r) :=
      inferInstance
    exact .step fun _ ↦ .ite (.step fun _ ↦ .pure rfl)
      (.ite (hinterface.mono fun _ ↦ isPlain_of_isTypedDeclaration) (hassignment.within _))
  obtain ⟨t, c₁, hpeek, h⟩ := exists_of_bind_eq_some h
  cases hpeek
  obtain ⟨following, c₁, hpeek, h⟩ := exists_of_bind_eq_some h
  cases hpeek
  obtain ⟨isTyped, c₁, hisTyped, h⟩ := exists_of_bind_eq_some h
  cases hisTyped
  obtain ⟨isAbstract, c₁, habstract, h⟩ := exists_of_bind_eq_some h
  cases habstract
  dsimp only at h
  split at h
  · obtain ⟨u, c₁, hskip, h⟩ := exists_of_bind_eq_some h
    have hread : Reading source c c₁ [] := Steps.reading hc hskip
    split at h
    · exact (sidedAt_of_defaultClass hread.place h).mono hread.start_le
    · exact .inl ((hplain _ _).made h)
  · split at h
    · exact sidedAt_of_defaultClass hc h
    · exact .inl ((hplain _ _).made h)

theorem always_exportOfTypes : Always ExportsPlain exportOfTypes := by
  have hlist : MakesWhere (fun _ ↦ True) isExportClause (exportList true) := inferInstance
  have hall : MakesWhere (fun _ ↦ True) isExportClause (exportAll true) := inferInstance
  unfold exportOfTypes
  exact .step fun _ ↦ .step fun _ ↦ .step fun _ ↦
    .ite (hlist.mono fun _ ↦ exportsPlain_of_isExportClause)
      (hall.mono fun _ ↦ exportsPlain_of_isExportClause)

theorem always_exportAsNamespace : Always ExportsPlain exportAsNamespace := by
  unfold exportAsNamespace
  exact .step fun _ ↦ .step fun _ ↦ .step fun _ ↦ .step fun _ ↦ .step fun _ ↦ .pure fun _ _ ↦ rfl

theorem sidedAt_of_exportDefault (hc : c.At source) (hassignment : Always IsPlain r.assignment)
    (h : exportDefault r ds ctx c = some (body, c')) (span : Span) (leading : List Comment) :
    SidedAt source ds c.token.span.start (exportedDecorators (.item span leading body)) := by
  obtain ⟨u, c₁, hword, h⟩ := exists_of_bind_eq_some h
  have hread : Reading source c c₁ [] := Steps.reading hc hword
  obtain ⟨⟨inner, value⟩, c₂, hspanned, h⟩ := exists_of_bind_eq_some h
  obtain ⟨-, hvalue⟩ := of_spanned_eq_some hspanned
  obtain rfl : body = .exportDefault inner value := by
    dsimp only at h
    split at h
    · obtain ⟨u, c₃, -, h⟩ := exists_of_bind_eq_some h
      cases h
      rfl
    · cases h
      rfl
  exact (sidedAt_of_defaultValue hread.place hassignment hvalue).mono hread.start_le

theorem sidedAt_of_exportedDeclaration (hc : c.At source)
    (h : exportedDeclaration r ds ctx c = some (body, c')) (span : Span)
    (leading : List Comment) :
    SidedAt source ds c.token.span.start (exportedDecorators (.item span leading body)) := by
  rw [exportedDeclaration_eq] at h
  obtain ⟨⟨inner, value⟩, c₁, hspanned, h⟩ := exists_of_bind_eq_some h
  cases h
  exact sidedAt_of_namedDeclaration hc (of_spanned_eq_some hspanned).2

theorem sidedAt_of_exportStatement (hc : c.At source) (hassignment : Always IsPlain r.assignment)
    (h : exportStatement r ds ctx c = some (body, c')) (span : Span) (leading : List Comment) :
    SidedAt source ds (c.token.span.start + 1) (exportedDecorators (.item span leading body)) := by
  obtain ⟨u, c₁, hword, h⟩ := exists_of_bind_eq_some h
  have hread : Reading source c c₁ [] := Steps.reading hc hword
  have hbehind : c.token.span.start < c₁.token.span.start :=
    Nat.lt_of_lt_of_le (Moves.moves hc hword) hread.place.last_le
  obtain ⟨t, c₂, hpeek, h⟩ := exists_of_bind_eq_some h
  cases hpeek
  obtain ⟨following, c₂, hpeek, h⟩ := exists_of_bind_eq_some h
  cases hpeek
  have hclause {p : Reader Node} (hp : MakesWhere (fun _ ↦ True) isExportClause p) :
      Always ExportsPlain p := hp.mono fun _ ↦ exportsPlain_of_isExportClause
  dsimp only at h
  split at h
  · exact (sidedAt_of_exportDefault hread.place hassignment h span leading).mono hbehind
  split at h
  · exact .inl ((hclause inferInstance).made h span leading)
  split at h
  · exact .inl ((hclause inferInstance).made h span leading)
  split at h
  · refine .inl (Always.made (P := ExportsPlain) ?_ h span leading)
    exact .step fun _ ↦ .step fun _ ↦ .step fun _ ↦ .step fun _ ↦ .pure fun _ _ ↦ rfl
  split at h
  · refine .inl (Always.made (P := ExportsPlain) ?_ h span leading)
    refine .step fun _ ↦ .step fun _ ↦ .step fun _ ↦ .step fun _ ↦ .ite (.step fun _ ↦ ?_) ?_ <;>
    exact .bind (.spanned (always_importEquals _))
      (Prod.forall.mpr fun inner node hnode ↦ .pure fun _ _ ↦ hnode.1)
  split at h
  · exact .inl (always_exportOfTypes.made h span leading)
  split at h
  · exact .inl (always_exportAsNamespace.made h span leading)
  · exact (sidedAt_of_exportedDeclaration hread.place h span leading).mono hbehind

end Exports

/-! ## Sides of a statement -/

/-- The decorators of an exported class stand in front of the word `export`, with which its
statement starts. -/
def InFront (s : Node) : Prop :=
  exportedDecorators s ≠ [] ∧ ∀ d ∈ exportedDecorators s, ∃ span ∈ decoratorSpan? d,
    span.start < span.stop ∧ span.stop ≤ (itemSpan s).start

/-- The decorators of an exported class stand behind the word `export`. -/
def Behind (s : Node) : Prop :=
  exportedDecorators s ≠ [] ∧ ∀ d ∈ exportedDecorators s, ∃ span ∈ decoratorSpan? d,
    span.start < span.stop ∧ (itemSpan s).start < span.start

instance (s : Node) : Decidable (InFront s) := inferInstanceAs (Decidable (_ ∧ _))

instance (s : Node) : Decidable (Behind s) := inferInstanceAs (Decidable (_ ∧ _))

theorem InFront.not_behind {s : Node} (h : InFront s) : ¬Behind s := by
  intro hbehind
  obtain ⟨d, hd⟩ := List.exists_mem_of_ne_nil _ h.1
  obtain ⟨span, hspan, hroom, hstop⟩ := h.2 d hd
  obtain ⟨span', hspan', -, hstart⟩ := hbehind.2 d hd
  cases hspan.symm.trans hspan'
  omega

/-- What stands between the last decorator of an exported class and the word `export` behind it. -/
def gap (source : List Char) (s : Node) : List Char :=
  ((exportedDecorators s).getLast?.bind decoratorSpan?).elim [] fun span ↦
    slice source ⟨span.stop, (itemSpan s).start⟩

/-- The decorators of an exported class stand on one side of the word `export`. The gate finds out
which one unless something else than white space stands between them and the word behind them. -/
inductive Placed (source : List Char) (s : Node) : Prop
  | inFront (hside : InFront s) (hgap : IsTrivia (gap source s))
      (hfirst : standsFirst? source s = some (isWhite (gap source s)))
  | behind (hside : Behind s) (hfirst : standsFirst? source s = some false)

theorem DecoratorsUpTo.exists_last {lo : Nat} (h : DecoratorsUpTo lo ds c) (hne : ds ≠ []) :
    ∃ span, ds.getLast?.bind decoratorSpan? = some span ∧ span.stop = c.lastStop := by
  have hmem := List.getLast_mem hne
  obtain ⟨span, hspan, -⟩ := h.between _ hmem
  have hlast := List.getLast?_eq_some_getLast hne
  refine ⟨span, ?_, h.last _ hlast span hspan⟩
  rw [hlast, Option.bind_some, hspan]

theorem standsFirst?_eq {s : Node} {span : Span}
    (h : (exportedDecorators s).getLast?.bind decoratorSpan? = some span) :
    standsFirst? source s = some (findsExport (dropBytes source span.stop)) := by
  obtain ⟨d, hd, hspan⟩ := Option.bind_eq_some_iff.mp h
  unfold standsFirst?
  rw [hd]
  simp only [Option.bind_eq_bind, Option.bind_some, hspan]
  rfl

theorem placed_of_sidedAt {lo : Nat} {s : Node} (hc : c.At source)
    (hword : c.token.isWord "export" = true) (hstart : (itemSpan s).start = c.token.span.start)
    (hds : DecoratorsUpTo lo ds c)
    (hsided : SidedAt source ds (c.token.span.start + 1) (exportedDecorators s))
    (hne : exportedDecorators s ≠ []) : Placed source s := by
  rcases hsided with hnil | heq | ⟨c₁, hc₁, hown, w, hw, hclass⟩
  · exact absurd hnil hne
  · obtain ⟨span, hlast, hstop⟩ := hds.exists_last (heq ▸ hne)
    rw [← heq] at hlast
    have hgap : gap source s = slice source ⟨c.lastStop, c.token.span.start⟩ := by
      rw [gap, hlast, Option.elim_some, hstart, hstop]
    refine .inFront ⟨hne, fun d hd ↦ ?_⟩ (hgap ▸ hc.gap) ?_
    · obtain ⟨span, hspan, -, hroom, hstop⟩ := hds.between d (heq ▸ hd)
      exact ⟨span, hspan, hroom, hstart ▸ Nat.le_trans hstop hc.last_le⟩
    · rw [standsFirst?_eq hlast, hstop, findsExport_of_isWord hc hword, hgap]
  · obtain ⟨span, hlast, hstop⟩ := hown.exists_last hne
    refine .behind ⟨hne, fun d hd ↦ ?_⟩ ?_
    · obtain ⟨span, hspan, hlo, hroom, -⟩ := hown.between d hd
      exact ⟨span, hspan, hroom, hstart ▸ hlo⟩
    · rw [standsFirst?_eq hlast, hstop, findsExport_of_mem_classWords hc₁ hw hclass]

/-! ## Statements -/

/-- The decorators of an exported class stand on one side of the word its statement starts with. -/
def IsPlaced (source : List Char) (s : Node) : Prop :=
  exportedDecorators s ≠ [] →
    "export".toList <+: dropBytes source (itemSpan s).start ∧ Placed source s

theorem ExportsPlain.isPlaced {body : Node} (h : ExportsPlain body) (span : Span)
    (leading : List Comment) : IsPlaced source (.item span leading body) :=
  fun hne ↦ absurd (h span leading) hne

theorem isPlaced_of_exportStatement [Rules.Sound source r] {lo : Nat} {body : Node}
    (hc : c.At source) (hword : c.token.isWord "export" = true)
    (hassignment : Always IsPlain r.assignment) (hds : DecoratorsUpTo lo ds c)
    (h : exportStatement r ds ctx c = some (body, c')) (leading : List Comment) :
    IsPlaced source (.item ⟨c.token.span.start, c'.lastStop⟩ leading body) := by
  intro hne
  refine ⟨?_, placed_of_sidedAt hc hword rfl hds
    (sidedAt_of_exportStatement hc hassignment h _ leading) hne⟩
  exact ⟨c.rest, (dropBytes_of_isWord hc hword).symm⟩

theorem isPlaced_of_statement [Rules.Sound source r] (hc : c.At source)
    (hassignment : Always IsPlain r.assignment) (isSingle : Bool)
    (h : Grammar.statement r isSingle ctx c = some (n, c')) : IsPlaced source n := by
  cases readsStatement_of_statement h with
  | decoratedExport _ hdecorators hword hbody =>
    obtain ⟨hread, hds⟩ := decoratorsUpTo_of_decorators hc hdecorators
    exact isPlaced_of_exportStatement hread.place hword hassignment hds hbody _
  | @decorated ds _ _ _ _ _ hbody =>
    have hinner : MakesWhere (fun _ ↦ True) isInner (decoratedDeclaration r ds) := inferInstance
    exact (exportsPlain_of_isInner (Always.made hinner hbody)).isPlaced _ _
  | exported hword hbody =>
    exact isPlaced_of_exportStatement hc hword hassignment (.nil 0 c) hbody _
  | imported _ hbody => exact (always_importDeclaration.made hbody).isPlaced _ _
  | plain hbody =>
    have hinner : MakesWhere (fun _ ↦ True) isInner (plainStatement r isSingle) := inferInstance
    exact (exportsPlain_of_isInner (Always.made hinner hbody)).isPlaced _ _

theorem forall_of_statements {Q : Node → Prop} {isEnd : Token → Bool} {ns : List Node}
    (hitem : ∀ {c c' : Cursor} {n : Node}, c.At source →
      r.statement false ctx c = some (n, c') → Reading source c c' [] ∧ Q n)
    (hdirective : ∀ span leading raw, Q (.item span leading (.directive raw)))
    (hc : c.At source) (h : statements r isEnd ctx c = some (ns, c')) : ∀ n ∈ ns, Q n := by
  have hall := (statements_induction (fun ns c₁ ↦ Reading source c c₁ [] ∧ ∀ n ∈ ns, Q n)
    ⟨.refl hc, List.forall_mem_nil Q⟩ ?_ ?_ h).2
  · exact fun n hn ↦ hall n (List.mem_reverse.mpr hn)
  · rintro items c₁ n c₂ ⟨hread, hitems⟩ hn
    obtain ⟨hmore, hholds⟩ := hitem hread.place hn
    exact ⟨hread.trans hmore, List.forall_mem_cons.mpr ⟨hholds, hitems⟩⟩
  · rintro items c₁ span leading body c₂ raw ⟨hread, hitems⟩ hn -
    obtain ⟨hmore, -⟩ := hitem hread.place hn
    exact ⟨hread.trans hmore, List.forall_mem_cons.mpr ⟨hdirective _ _ _, hitems⟩⟩

theorem isPlaced_of_parse {typed : Bool} {m : Module} (h : parse typed source = some m) :
    ∀ s ∈ m.items, IsPlaced source s := by
  obtain ⟨c, c', hc, hitems⟩ := exists_statements_of_parse h
  refine forall_of_statements (fun hc hn ↦ ⟨?_, ?_⟩) (fun span leading raw hne ↦ ?_) hc hitems
  · exact Steps.reading hc hn
  · exact isPlaced_of_statement hc (always_nested_assignment _) false hn
  · exact absurd rfl hne

/-! ## The gate -/

section Gate

variable {g : Gates} {first : Bool} {m : Module} {s : Node}

theorem decoratorsFirst_foldl {passes : List Pass} (h : ∀ other, .decorators other ∉ passes)
    (g : Gates) : (passes.foldl Gates.opened g).decoratorsFirst = g.decoratorsFirst := by
  induction passes generalizing g with
  | nil => rfl
  | cons pass passes ih =>
    rw [List.foldl_cons, ih fun other hmem ↦ h other (List.mem_cons_of_mem _ hmem)]
    cases pass with
    | decorators other => exact absurd List.mem_cons_self (h other)
    | _ => rfl

/-- The last pass for decorators counts. -/
theorem decoratorsFirst_ofPasses {front back : List Pass} (h : ∀ other, .decorators other ∉ back) :
    (Gates.ofPasses (front ++ .decorators first :: back)).decoratorsFirst = some first := by
  rw [Gates.ofPasses, List.foldl_append, List.foldl_cons, decoratorsFirst_foldl h]
  rfl

/-- The other gates let a script through. -/
def LetsFieldsThrough (g : Gates) (m : Module) : Prop :=
  (g.classFields = true ∨ (allNodes m).any isClassField = false) ∧
    (g.types = false ∨ g.declaredFields = true ∨ (allNodes m).any isDeclaredField = false)

instance (g : Gates) (m : Module) : Decidable (LetsFieldsThrough g m) :=
  inferInstanceAs (Decidable (_ ∧ _))

theorem check_eq (hfirst : g.decoratorsFirst = some first) (hfields : LetsFieldsThrough g m) :
    g.check source m = if m.items.any fun s ↦ standsFirst? source s == some !first then
      .error (.decoratorPlacement first) else .ok () := by
  obtain ⟨hclass, hdeclared⟩ := hfields
  have hclass : (!g.classFields && (allNodes m).any isClassField) = false := by
    rcases hclass with h | h <;> simp [h]
  have hdeclared : (g.types && !g.declaredFields && (allNodes m).any isDeclaredField)
      = false := by
    rcases hdeclared with h | h | h <;> simp [h]
  unfold Gates.check
  simp only [hclass, hdeclared, hfirst, Bool.false_eq_true, if_false]

/-- What the gate finds out of decorators in their place. -/
theorem standsFirst?_eq_some_iff (h : IsPlaced source s) :
    standsFirst? source s = some (!first) ↔ if first then
      Behind s ∨ InFront s ∧ isWhite (gap source s) = false
    else InFront s ∧ isWhite (gap source s) = true := by
  by_cases hnil : exportedDecorators s = []
  · have hnone : standsFirst? source s = none := by
      unfold standsFirst?
      rw [hnil]
      rfl
    rw [hnone]
    cases first <;> simp [Behind, InFront, hnil]
  · rcases (h hnil).2 with ⟨hside, -, hfound⟩ | ⟨hside, hfound⟩
    · have hother := hside.not_behind
      rw [hfound]
      cases first <;> simp [hside, hother]
    · have hother : ¬InFront s := fun hfront ↦ hfront.not_behind hside
      rw [hfound]
      cases first <;> simp [hside, hother]

theorem strip_eq_decoratorPlacement_iff (hparse : parse g.types source = some m) :
    strip g source = .error (.decoratorPlacement first)
      ↔ g.check source m = .error (.decoratorPlacement first) := by
  unfold strip
  rw [hparse]
  dsimp only
  cases g.check source m with
  | error problem => simp
  | ok =>
    dsimp only
    split
    · cases eraseModule g.declaredFields m <;> simp
    · simp

theorem toPlain_eq_error_iff {config : TypedConfig} {path source : String}
    {problem : TypedProblem} :
    toPlain config path source = .error (.typed path problem)
      ↔ strip (Gates.ofPasses config.passes) source.toList = .error problem := by
  unfold toPlain
  cases strip (Gates.ofPasses config.passes) source.toList with
  | error other => simp
  | ok m =>
    dsimp only
    split <;> simp

/-- **Decorators and the word `export`.** In every script that is read, the decorators of an
exported class stand on one side of `export`. A script that the other gates let through is refused
for them exactly if the decorators of some class are found on the side where none may stand; those
in front of `export` are taken for decorators behind it where something else than white space stands
between the last of them and the word. Where there is nothing but white space, the side alone
decides. -/
theorem toPlain_decoratorPlacement {config : TypedConfig} {front back : List Pass}
    {source : String} (path : String)
    (hpasses : config.passes = front ++ .decorators first :: back)
    (hlast : ∀ other, .decorators other ∉ back)
    (hparse : parse (Gates.ofPasses config.passes).types source.toList = some m)
    (hfields : LetsFieldsThrough (Gates.ofPasses config.passes) m) :
    (∀ s ∈ m.items, exportedDecorators s ≠ [] →
      "export".toList <+: dropBytes source.toList (itemSpan s).start ∧
        (InFront s ∧ ¬Behind s ∧ IsTrivia (gap source.toList s) ∨ Behind s ∧ ¬InFront s)) ∧
    (toPlain config path source = .error (.typed path (.decoratorPlacement first)) ↔
      ∃ s ∈ m.items, if first then
        Behind s ∨ InFront s ∧ isWhite (gap source.toList s) = false
      else InFront s ∧ isWhite (gap source.toList s) = true) ∧
    ((∀ s ∈ m.items, InFront s → isWhite (gap source.toList s) = true) →
      (toPlain config path source = .error (.typed path (.decoratorPlacement first)) ↔
        ∃ s ∈ m.items, if first then Behind s else InFront s)) := by
  have hplaced : ∀ s ∈ m.items, IsPlaced source.toList s := isPlaced_of_parse hparse
  have hfirst : (Gates.ofPasses config.passes).decoratorsFirst = some first :=
    hpasses ▸ decoratorsFirst_ofPasses hlast
  have hrefused : toPlain config path source = .error (.typed path (.decoratorPlacement first)) ↔
      ∃ s ∈ m.items, standsFirst? source.toList s = some (!first) := by
    rw [toPlain_eq_error_iff, strip_eq_decoratorPlacement_iff hparse, check_eq hfirst hfields]
    simp
  have hexact : toPlain config path source = .error (.typed path (.decoratorPlacement first)) ↔
      ∃ s ∈ m.items, if first then
        Behind s ∨ InFront s ∧ isWhite (gap source.toList s) = false
      else InFront s ∧ isWhite (gap source.toList s) = true :=
    hrefused.trans (exists_congr fun s ↦ and_congr_right fun hs ↦
      standsFirst?_eq_some_iff (hplaced s hs))
  refine ⟨fun s hs hne ↦ ?_, hexact, fun hwhite ↦ hexact.trans ?_⟩
  · obtain ⟨hword, hside⟩ := hplaced s hs hne
    refine ⟨hword, ?_⟩
    rcases hside with ⟨hside, hgap, -⟩ | ⟨hside, -⟩
    · exact .inl ⟨hside, hside.not_behind, hgap⟩
    · exact .inr ⟨hside, fun hfront ↦ hfront.not_behind hside⟩
  · refine exists_congr fun s ↦ and_congr_right fun hs ↦ ?_
    have hs := hwhite s hs
    cases first with
    | true =>
      refine or_iff_left ?_
      rintro ⟨hfront, hother⟩
      rw [hs hfront] at hother
      cases hother
    | false => exact and_iff_left_of_imp hs

/-- Decorators behind `export` are refused where they have to stand in front of it. -/
theorem toPlain_decoratorPlacement_behind :
    let source := "export default @a /* b */ class {}\n"
    let config : TypedConfig := ⟨.off, [.decorators false, .decorators true]⟩
    ∃ m, parse (Gates.ofPasses config.passes).types source.toList = some m ∧
      LetsFieldsThrough (Gates.ofPasses config.passes) m ∧ (∃ s ∈ m.items, Behind s) ∧
      toPlain config "a.js" source = .error (.typed "a.js" (.decoratorPlacement true)) := by
  intro source config
  have hread : ((parse (Gates.ofPasses config.passes).types source.toList).any fun m ↦
      decide (LetsFieldsThrough (Gates.ofPasses config.passes) m ∧ ∃ s ∈ m.items, Behind s))
      = true := by
    decide +kernel
  obtain ⟨m, hparse, hm⟩ := (Option.any_eq_true ..).mp hread
  obtain ⟨hfields, s, hs, hbehind⟩ := of_decide_eq_true hm
  have hpasses : config.passes = [.decorators false] ++ .decorators true :: [] := rfl
  have hexact := (toPlain_decoratorPlacement "a.js" hpasses nofun hparse hfields).2.1
  exact ⟨m, hparse, hfields, ⟨s, hs, hbehind⟩, hexact.mpr ⟨s, hs, .inl hbehind⟩⟩

/-- A comment hides the word `export` from the gate, wherever the decorators have to stand. -/
theorem decoratorPlacement_misjudged :
    let source := "@register // c\nexport class Foo {}\n"
    let passes (first : Bool) : List Pass := [.classProperties, .decorators first, .typescript true]
    ∃ m, parse true source.toList = some m ∧
      (∀ first, LetsFieldsThrough (Gates.ofPasses (passes first)) m) ∧
      (∃ s ∈ m.items, InFront s) ∧ (∀ s ∈ m.items, ¬Behind s) ∧
      toPlain ⟨.off, passes true⟩ "a.ts" source
        = .error (.typed "a.ts" (.decoratorPlacement true)) ∧
      ∃ unit, toPlain ⟨.off, passes false⟩ "a.ts" source = .ok unit := by
  intro source passes
  have hread : ((parse true source.toList).any fun m ↦
      decide ((∀ first, LetsFieldsThrough (Gates.ofPasses (passes first)) m) ∧
        (∃ s ∈ m.items, InFront s) ∧ ∀ s ∈ m.items, ¬Behind s)) = true := by
    decide +kernel
  obtain ⟨m, hparse, hm⟩ := (Option.any_eq_true ..).mp hread
  obtain ⟨hfields, hfront, hbehind⟩ := of_decide_eq_true hm
  have hrefused : toPlain ⟨.off, passes true⟩ "a.ts" source
      = .error (.typed "a.ts" (.decoratorPlacement true)) := by
    decide +kernel
  have hdone : (toPlain ⟨.off, passes false⟩ "a.ts" source).toOption.isSome = true := by
    decide +kernel
  refine ⟨m, hparse, hfields, hfront, hbehind, hrefused, ?_⟩
  cases haccepted : toPlain ⟨.off, passes false⟩ "a.ts" source with
  | error e =>
    rw [haccepted] at hdone
    cases hdone
  | ok unit => exact ⟨unit, rfl⟩

end Gate

end Downlevel.Typed
