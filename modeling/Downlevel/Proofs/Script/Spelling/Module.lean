import Downlevel.Proofs.Script.Name
import Downlevel.Proofs.Script.Spelling.Statement

/-!
# What imports, exports and scripts spell out

A statement spells out its literals inside its span. Only the decorators of an exported class may
stand in front of the word `export`, where the span of its statement starts.
-/

namespace Downlevel.Script

namespace Grammar

open Text

variable {source : List Char} {known : List Spelling} {x : Spelling}
  {ctx : Context} {c c' : Cursor} {n body : Node} {span : Span} {leading : List Comment}

/-! ## Literals in declarations -/

theorem mem_literalSpellings {ss : List StringLiteral} :
    x ∈ literalSpellings ss ↔ ∃ s ∈ ss, .literal s.span = x :=
  List.mem_map

theorem literals_subset (n : ExportName) : literalSpellings n.literals ⊆ spellings n := by
  cases n with
  | name n => exact List.nil_subset _
  | string s => exact List.Subset.refl _

theorem spellings_getD {α : Type} [HasSpellings α] (o : Option (List α)) :
    spellings (o.getD []) = spellings o := by
  cases o with
  | none => rfl
  | some as => rw [spellings_some, Option.getD_some]

theorem mem_spellings_of_attributeLiterals {attributes : Option (List ImportAttribute)}
    {s : StringLiteral} (h : s ∈ attributeLiterals attributes) :
    .literal s.span ∈ spellings attributes := by
  obtain ⟨a, ha, hs⟩ := List.mem_flatMap.mp h
  rw [← spellings_getD]
  exact mem_spellings.mpr ⟨a, ha, mem_literalSpellings.mpr ⟨s, hs, rfl⟩⟩

/-- What a node spells out that has nothing below it. -/
theorem mem_spellings_of_children_eq_nil {n : Node} (hn : n.children = []) (h : x ∈ spellings n) :
    (∃ name ∈ n.ownNames, .name name = x) ∨ ∃ span ∈ n.ownLiterals, .literal span = x := by
  rw [spellings_node, hn, spellings_nil, List.append_nil] at h
  exact (List.mem_append.mp h).imp List.mem_map.mp List.mem_map.mp

theorem mem_spellings_importDeclaration {i : ImportDeclaration}
    (h : x ∈ spellings (Node.importDeclaration i)) :
    x ∈ spellings i.specifiers ++ spellings i.source ++ spellings i.attributes := by
  rw [← spellings_getD i.specifiers]
  rcases mem_spellings_of_children_eq_nil rfl h with ⟨name, hname, rfl⟩ | ⟨span, hspan, rfl⟩
  · obtain ⟨s, hs, rfl⟩ := List.mem_map.mp hname
    exact List.mem_append_left _ (List.mem_append_left _
      (mem_spellings.mpr ⟨s, hs, List.mem_cons_self⟩))
  · obtain ⟨s, hs, rfl⟩ := List.mem_map.mp hspan
    rcases List.mem_append.mp hs with hs | hs
    · obtain ⟨specifier, hmem, hs⟩ := List.mem_flatMap.mp hs
      exact List.mem_append_left _ (List.mem_append_left _ (mem_spellings.mpr ⟨specifier, hmem,
        List.mem_cons_of_mem _ (mem_literalSpellings.mpr ⟨s, hs, rfl⟩)⟩))
    · rcases List.mem_cons.mp hs with rfl | hs
      · exact List.mem_append_left _ (List.mem_append_right _ (List.mem_singleton_self _))
      · exact List.mem_append_right _ (mem_spellings_of_attributeLiterals hs)

/-- Names that are exported from this module are names of bindings. -/
theorem mem_spellings_exportList {l : ExportList}
    (hnames : l.source = none → ∀ s ∈ l.specifiers, isBindingName s.source = true)
    (h : x ∈ spellings (Node.exportList l)) :
    x ∈ spellings l.specifiers ++ spellings l.source ++ spellings l.attributes := by
  rcases mem_spellings_of_children_eq_nil rfl h with ⟨name, hname, rfl⟩ | ⟨span, hspan, rfl⟩
  · obtain ⟨specifiers, source, attributes, isType⟩ := l
    cases source with
    | some source => cases hname
    | none =>
      obtain ⟨s, hs, rfl⟩ := List.mem_map.mp hname
      have hbinding := hnames rfl s hs
      refine List.mem_append_left _ (List.mem_append_left _ (mem_spellings.mpr ⟨s, hs, ?_⟩))
      refine List.mem_append_left _ ?_
      unfold isBindingName at hbinding
      split at hbinding
      · next n heq =>
        rw [heq]
        exact List.mem_singleton_self _
      · cases hbinding
  · obtain ⟨s, hs, rfl⟩ := List.mem_map.mp hspan
    rcases List.mem_append.mp hs with hs | hs
    · refine List.mem_append_left _ ?_
      rcases List.mem_append.mp hs with hs | hs
      · obtain ⟨specifier, hmem, hs⟩ := List.mem_flatMap.mp hs
        refine List.mem_append_left _ (mem_spellings.mpr ⟨specifier, hmem, ?_⟩)
        exact List.mem_append.mpr ((List.mem_append.mp hs).imp
          (fun hs ↦ literals_subset _ (mem_literalSpellings.mpr ⟨s, hs, rfl⟩))
          fun hs ↦ literals_subset _ (mem_literalSpellings.mpr ⟨s, hs, rfl⟩))
      · exact List.mem_append_right _
          (mem_spellings.mpr ⟨s, hs, List.mem_singleton_self _⟩)
    · exact List.mem_append_right _ (mem_spellings_of_attributeLiterals hs)

theorem mem_spellings_exportAll {a : ExportAll} (h : x ∈ spellings (Node.exportAll a)) :
    x ∈ spellings a.exported ++ spellings a.source ++ spellings a.attributes := by
  rcases mem_spellings_of_children_eq_nil rfl h with ⟨name, hname, -⟩ | ⟨span, hspan, rfl⟩
  · cases hname
  · obtain ⟨s, hs, rfl⟩ := List.mem_map.mp hspan
    rcases List.mem_append.mp hs with hs | hs
    · obtain ⟨name, hmem, hs⟩ := List.mem_flatMap.mp hs
      exact List.mem_append_left _ (List.mem_append_left _ (mem_spellings.mpr
        ⟨name, hmem, literals_subset _ (mem_literalSpellings.mpr ⟨s, hs, rfl⟩)⟩))
    · rcases List.mem_cons.mp hs with rfl | hs
      · exact List.mem_append_left _ (List.mem_append_right _ (List.mem_singleton_self _))
      · exact List.mem_append_right _ (mem_spellings_of_attributeLiterals hs)

/-! ## Imports -/

instance : Spells source [] exportName := by
  unfold exportName
  refine .peek fun t ↦ ?_
  split
  · next hkind => exact .skip (.pure (by simp [spellings, tokenSpellings, hkind]))
  · next hkind => exact .skip (.pure (by simp [spellings, tokenSpellings, hkind]))
  · infer_instance

instance : Spells source [] importAttribute := by
  unfold importAttribute
  refine .bind fun key ↦ .step fun _ ↦ .bind fun value ↦ .pure fun x hx ↦ ?_
  obtain ⟨s, hs, rfl⟩ := mem_literalSpellings.mp hx
  rcases List.mem_append.mp hs with hs | hs
  · exact List.mem_append_left _ (literals_subset _ (mem_literalSpellings.mpr ⟨s, hs, rfl⟩))
  · cases List.mem_singleton.mp hs
    exact List.mem_append_right _ (List.mem_singleton_self _)

instance : Spells source [] importAttributes := by
  unfold importAttributes
  exact .step fun t ↦ .ite (.step fun _ ↦ .step fun _ ↦ .bind fun (as, _) ↦ .pure) .pure

instance : Spells source [] listedName := by
  have hplain : Spells source [] (do
      let n ← exportName
      let other ← if ← takeWord "as" then pure (some (← exportName)) else pure none
      guardThat ((← isAtMark ",") || (← isAtMark closeBrace))
      return (n, other)) :=
    .bind fun _ ↦ .step fun _ ↦ .ite
      (.bind fun _ ↦ .value (.step fun _ ↦ .step fun _ ↦ .step fun _ ↦ .pure))
      (.value (.step fun _ ↦ .step fun _ ↦ .step fun _ ↦ .pure))
  unfold listedName
  refine .bind fun o ↦ ?_
  cases o with
  | none => exact .typedOnly
  | some o =>
    obtain ⟨n, other⟩ := o
    exact .pure

theorem mem_spellings_boundName {n : ExportName} {other : Option ExportName} {localName : String}
    (h : boundName (other.getD n) = some localName) :
    Spelling.name localName ∈ spellings n ++ spellings other := by
  have hname : ∀ n : ExportName, boundName n = some localName → n = .name localName := by
    intro n hn
    unfold boundName at hn
    split at hn
    · split at hn
      · cases hn
      · cases hn
        rfl
    · cases hn
  cases other with
  | none =>
    cases hname n h
    exact List.mem_append_left _ (List.mem_singleton_self _)
  | some other =>
    cases hname other h
    exact List.mem_append_right _ (List.mem_singleton_self _)

instance : Spells source [] importSpecifier := by
  unfold importSpecifier
  refine .bind fun (n, other, isType) ↦ ?_
  dsimp only
  split
  · next localName hname =>
    refine .step fun _ ↦ .step fun _ ↦ .pure fun x hx ↦ ?_
    rw [List.nil_append, spellings_mk, spellings_mk, spellings_leaf, List.append_nil]
    rcases List.mem_cons.mp hx with rfl | hx
    · exact mem_spellings_boundName hname
    · exact List.mem_append_left _ (literals_subset n hx)
  · infer_instance

instance : Spells source [] importClause := by
  have hwhole (n : String) : spellings (ImportSpecifier.wholeModule n) = spellings n := rfl
  have hdefault (n : String) : spellings (ImportSpecifier.defaultExport n) = spellings n := rfl
  have hrest (first : List ImportSpecifier) (known : List Spelling)
      (hfirst : ∀ x ∈ spellings first, x ∈ known) : Spells source known (do
        if ← takeMark "*" then
          word "as"
          return first ++ [.wholeModule (← name)]
        else
          mark openBrace
          return first ++ (← listUpTo closeBrace importSpecifier).1) := by
    refine .step fun _ ↦ .ite (.step fun _ ↦ .bind fun n ↦ .pure ?_)
      (.step fun _ ↦ .bind fun (ss, _) ↦ .pure ?_)
    · intro x
      rw [spellings_append, spellings_cons, hwhole]
      simp
      grind
    · intro x
      simp
      grind
  unfold importClause
  refine .step fun t ↦ .ite (.bind fun n ↦ .value (.step fun _ ↦ .ite (hrest _ _ ?_) (.pure ?_)))
    (.value (.value (hrest [] [] nofun))) <;>
  · intro x
    rw [spellings_cons, hdefault]
    simp

instance : Spells source [] moduleSource := by
  unfold moduleSource
  exact .bind fun _ ↦ .bind fun _ ↦ .step fun _ ↦ .pure

instance : Spells source [] (importFrom false) := by
  unfold importFrom
  refine .bind fun specifiers ↦ .step fun _ ↦ .bind fun (source, attributes) ↦
    .pure fun x hx ↦ ?_
  simpa using mem_spellings_importDeclaration hx

instance : Spells source [] importDeclaration := by
  unfold importDeclaration
  refine .step fun _ ↦ .step fun t ↦ ?_
  split
  · refine .bind fun (source, attributes) ↦ .pure fun x hx ↦ ?_
    simpa using mem_spellings_importDeclaration hx
  · refine .firstOf ?_
    simp only [List.forall_mem_cons]
    exact ⟨inferInstance, .typedOnly, .typedOnly, .typedOnly, nofun⟩

/-! ## Exports -/

theorem spellings_exportSpecifier (s : ExportSpecifier) :
    spellings s = spellings s.source ++ spellings s.exported :=
  rfl

instance : Spells source [] exportSpecifier := by
  unfold exportSpecifier
  refine .bind fun (n, other, isType) ↦ .pure fun x hx ↦ ?_
  cases other with
  | none => simpa [spellings_exportSpecifier] using hx
  | some other => simpa [spellings_exportSpecifier] using hx

instance : Spells source [] (exportList false) := by
  unfold exportList
  refine .step fun _ ↦ .bind fun (specifiers, _) ↦ .step fun _ ↦ .ite
    (.bind fun (source, attributes) ↦ .pure fun x hx ↦ ?_) (.guarded fun hnames ↦ .step fun _ ↦
      .pure fun x hx ↦ ?_)
  · simpa using mem_spellings_exportList (fun hsource ↦ by cases hsource) hx
  · simpa using mem_spellings_exportList (fun _ ↦ List.all_eq_true.mp hnames) hx

instance : Spells source [] (exportAll false) := by
  unfold exportAll
  refine .step fun _ ↦ .step fun _ ↦ .ite (.bind fun _ ↦ ?_) (.bind fun _ ↦ ?_) <;>
  · refine .step fun _ ↦ .bind fun (source, attributes) ↦ .pure fun x hx ↦ ?_
    simpa using mem_spellings_exportAll hx

variable (r : Rules) [Rules.SpellsOut source r]

theorem spells_spanned {rule : Reader Node} (h : Spells source known rule) :
    Spells source known (spanned rule) := by
  unfold spanned
  exact .step fun _ ↦ .along h fun _ ↦ .step fun _ ↦ .pure

theorem spells_defaultValue (ds : List Node) :
    Spells source (spellings ds) (defaultValue r ds) := by
  unfold defaultValue
  refine .step fun t ↦ .step fun following ↦ .step fun isAbstract ↦ .ite (.step fun _ ↦ ?_) ?_ <;>
  · refine .ite (.bind fun own ↦ .step fun _ ↦ .step fun _ ↦ .ite (.step fun _ ↦ ?_) ?_)
      (.step fun _ ↦ .ite (.bind fun _ ↦ .pure) (.ite inferInstance inferInstance)) <;>
    exact .along (spells_classRest r (ds ++ own)).mono fun _ ↦ .pure

theorem spells_exportDefault (ds : List Node) :
    Spells source (spellings ds) (exportDefault r ds) := by
  unfold exportDefault
  refine .step fun _ ↦ .along (spells_spanned (spells_defaultValue r ds)) fun found ↦ ?_
  obtain ⟨inner, node⟩ := found
  exact .ite (.step fun _ ↦ .pure) .pure

theorem spells_exportedDeclaration (ds : List Node) :
    Spells source (spellings ds) (exportedDeclaration r ds) := by
  have hdeclaration : Spells source (spellings ds) (namedDeclaration r ds) := by
    unfold namedDeclaration
    exact .bind fun own ↦ .step fun _ ↦ (spells_decoratedDeclaration r (ds ++ own)).mono
  rw [exportedDeclaration_eq]
  refine .along (spells_spanned hdeclaration) fun found ↦ ?_
  obtain ⟨inner, node⟩ := found
  exact .pure

theorem spells_exportStatement (ds : List Node) :
    Spells source (spellings ds) (exportStatement r ds) := by
  unfold exportStatement
  exact .step fun _ ↦ .step fun t ↦ .step fun following ↦ .ite (spells_exportDefault r ds)
    (.ite inferInstance (.ite inferInstance (.ite .typedOnly (.ite .typedOnly (.ite .typedOnly
      (.ite .typedOnly (spells_exportedDeclaration r ds)))))))

/-! ## All statements -/

/-- A statement spells out its names and literals where it is read. If it exports nothing, its span
is all that is read for it. -/
structure SpelledItem (source : List Char) (c : Cursor) (n : Node) (c' : Cursor) : Prop where
  reading : Reading source c c' []
  spelled : Spelled source c.token.span.start c'.lastStop (spellings n)
  whole : ∃ span leading body, n = .item span leading body ∧
    (isExportBody body = true ∨ span = ⟨c.token.span.start, c'.lastStop⟩)

theorem spelledItem_of_body (hbody : isOrdinary body = true) (hread : Reading source c c' [])
    (hspelled : Spelled source c.token.span.start c'.lastStop (spellings body))
    (hwhole : isExportBody body = true ∨ span = ⟨c.token.span.start, c'.lastStop⟩)
    (leading : List Comment) : SpelledItem source c (.item span leading body) c' :=
  ⟨hread, fun x hx ↦ hspelled x ((mem_spellings_item hbody).mp hx), _, _, _, rfl, hwhole⟩

theorem spelledItem_of_spells {p : Reader Node} [hp : Spells source [] p]
    (hmakes : Makes isOrdinary p) (htyped : ctx.typed = false) (hc : c.At source)
    (hbody : p ctx c = some (body, c')) (leading : List Comment) :
    SpelledItem source c (.item ⟨c.token.span.start, c'.lastStop⟩ leading body) c' := by
  obtain ⟨hread, hspelled⟩ :=
    hp.spelled htyped hc (Nat.le_refl _) (List.forall_mem_nil _) hbody
  exact spelledItem_of_body (hmakes.kind htyped hbody) hread hspelled (.inr rfl) _

theorem spelledItem_of_statement {isSingle : Bool} (htyped : ctx.typed = false) (hc : c.At source)
    (h : statement r isSingle ctx c = some (n, c')) : SpelledItem source c n c' := by
  have hexport (ds : List Node) : Makes isOrdinary (exportStatement r ds) :=
    (inferInstance : Makes isExportBody _).mono fun _ ↦ isOrdinary_of_isExportBody
  have himport : Makes isOrdinary importDeclaration :=
    (inferInstance : Makes isImport _).mono fun _ ↦ isOrdinary_of_isImport
  have hplain : Makes isOrdinary (plainStatement r isSingle) :=
    (inferInstance : Makes isInner _).mono fun _ ↦ isOrdinary_of_isInner
  have hexported : Spells source [] (exportStatement r []) := spells_exportStatement r []
  have hdecorators : Spells source [] (decorators r) := inferInstance
  cases readsStatement_of_statement h with
  | @decoratedExport ds _ _ _ _ hds _ hbody =>
    obtain ⟨hfirst, hknown⟩ :=
      hdecorators.spelled htyped hc (Nat.le_refl _) (List.forall_mem_nil _) hds
    obtain ⟨hread, hspelled⟩ := (spells_exportStatement r ds).spelled htyped hfirst.place
      hfirst.start_le hknown hbody
    exact spelledItem_of_body ((hexport ds).yields htyped hbody) (hfirst.trans hread) hspelled
      (.inl (Makes.kind htyped hbody)) _
  | @decorated ds _ _ _ _ hds hbody =>
    obtain ⟨hfirst, hknown⟩ :=
      hdecorators.spelled htyped hc (Nat.le_refl _) (List.forall_mem_nil _) hds
    have hinner : Makes isInner (decoratedDeclaration r ds) := inferInstance
    obtain ⟨hread, hspelled⟩ := (spells_decoratedDeclaration r ds).spelled htyped hfirst.place
      hfirst.start_le hknown hbody
    exact spelledItem_of_body (isOrdinary_of_isInner (hinner.yields htyped hbody))
      (hfirst.trans hread) hspelled (.inr rfl) _
  | exported _ hbody => exact spelledItem_of_spells (hexport []) htyped hc hbody _
  | imported _ hbody => exact spelledItem_of_spells himport htyped hc hbody _
  | plain hbody => exact spelledItem_of_spells hplain htyped hc hbody _

instance (isSingle : Bool) : Spells source [] (statement r isSingle) where
  spelled htyped hc hlo _ h := by
    have hitem := spelledItem_of_statement r htyped hc h
    exact ⟨hitem.reading, hitem.spelled.mono hlo (Nat.le_refl _)⟩

/-! ## The rules tied together -/

instance : Rules.SpellsOut source r.next where
  passes_assignment := inferInstanceAs (Passes source (Grammar.assignment r))
  passes_expression := inferInstanceAs (Passes source (Grammar.expression r))
  starts_statement isSingle := inferInstanceAs (StartsItem source (statement r isSingle))
  spells_assignment := inferInstanceAs (Spells source [] (Grammar.assignment r))
  spells_expression := inferInstanceAs (Spells source [] (Grammar.expression r))
  spells_unary := inferInstanceAs (Spells source [] (Grammar.unary r))
  spells_operand level := inferInstanceAs (Spells source [] (Grammar.operand r level))
  spells_leftHandSide := inferInstanceAs (Spells source [] (Grammar.leftHandSide r))
  spells_constructed := inferInstanceAs (Spells source [] (Grammar.constructed r))
  spells_binding := inferInstanceAs (Spells source [] (Grammar.binding r))
  spells_target := inferInstanceAs (Spells source [] (Grammar.target r))
  spells_statement isSingle := inferInstanceAs (Spells source [] (statement r isSingle))

instance : Rules.SpellsOut source default where
  passes_assignment := ⟨fun _ _ _ h ↦ by cases h⟩
  passes_expression := ⟨fun _ _ _ h ↦ by cases h⟩
  starts_statement _ := ⟨fun _ _ _ h ↦ by cases h⟩
  spells_assignment := ⟨fun _ _ _ _ h ↦ by cases h⟩
  spells_expression := ⟨fun _ _ _ _ h ↦ by cases h⟩
  spells_unary := ⟨fun _ _ _ _ h ↦ by cases h⟩
  spells_operand _ := ⟨fun _ _ _ _ h ↦ by cases h⟩
  spells_leftHandSide := ⟨fun _ _ _ _ h ↦ by cases h⟩
  spells_constructed := ⟨fun _ _ _ _ h ↦ by cases h⟩
  spells_binding := ⟨fun _ _ _ _ h ↦ by cases h⟩
  spells_target := ⟨fun _ _ _ _ h ↦ by cases h⟩
  spells_statement _ := ⟨fun _ _ _ _ h ↦ by cases h⟩

instance rules_spellOut (size : Nat) : Rules.SpellsOut source (Rules.nested size) := by
  induction size with
  | zero => exact inferInstanceAs (Rules.SpellsOut source default)
  | succ size ih => exact inferInstanceAs (Rules.SpellsOut source (Rules.nested size).next)

/-! ## Statements in a row -/

/-- A statement that becomes a directive exports nothing. -/
theorem SpelledItem.directive {raw : String} {t : Token}
    (h : SpelledItem source c (.item span leading body) c')
    (hraw : directiveText t (.item span leading body) = some raw)
    (hspelled : Spelled source c.token.span.start c'.lastStop
      (spellings (Node.item span leading (.directive raw)))) :
    SpelledItem source c (.item span leading (.directive raw)) c' := by
  obtain ⟨_, _, _, heq, hwhole⟩ := h.whole
  cases heq
  refine ⟨h.reading, hspelled, _, _, _, rfl, .inr (hwhole.resolve_left fun hexport ↦ ?_)⟩
  unfold directiveText at hraw
  split at hraw
  · next heq =>
    cases heq
    cases hexport
  · cases hraw

theorem exists_spelledItem_of_statements {isEnd : Token → Bool} {ns : List Node}
    (hitem : ∀ {c c' : Cursor} {n : Node}, c.At source → r.statement false ctx c = some (n, c') →
      SpelledItem source c n c')
    (htyped : ctx.typed = false) (hc : c.At source)
    (h : statements r isEnd ctx c = some (ns, c')) :
    ∀ n ∈ ns, ∃ c₁ c₂, SpelledItem source c₁ n c₂ := by
  have hall := (statements_induction
    (fun ns c ↦ c.At source ∧ ∀ n ∈ ns, ∃ c₁ c₂, SpelledItem source c₁ n c₂)
    ⟨hc, List.forall_mem_nil _⟩ ?_ ?_ h).2
  · exact fun n hn ↦ hall n (List.mem_reverse.mpr hn)
  · rintro items c₁ n c₂ ⟨hc, hitems⟩ hn
    have hat := hitem hc hn
    exact ⟨hat.reading.place, List.forall_mem_cons.mpr ⟨⟨_, _, hat⟩, hitems⟩⟩
  · rintro items c₁ span leading body c₂ raw ⟨hc, hitems⟩ hn hraw
    have hat := hitem hc hn
    exact ⟨hat.reading.place, List.forall_mem_cons.mpr ⟨⟨_, _, hat.directive hraw
      (spelled_directive r htyped hc (Nat.le_refl _) hn hraw)⟩, hitems⟩⟩

end Grammar

/-! ## Scripts -/

open Text

variable {source : List Char} {m : Module}

theorem exists_spelledItem_of_parse (h : parse false source = some m) :
    ∀ n ∈ m.items, ∃ c c', Grammar.SpelledItem source c n c' := by
  obtain ⟨c, c', hc, hitems⟩ := exists_statements_of_parse h
  exact Grammar.exists_spelledItem_of_statements _
    (fun hc hn ↦ Grammar.spelledItem_of_statement _ rfl hc hn) rfl hc hitems

/-- Every name in a script consists of characters of names, and of one at least. -/
theorem isWord_of_parse (h : parse false source = some m) :
    ∀ n ∈ namesIn m.items, Literal.IsWord n.toList := by
  intro name hname
  obtain ⟨n, hn, hname⟩ := mem_namesIn.mp hname
  obtain ⟨c, c', hitem⟩ := exists_spelledItem_of_parse h n hn
  exact hitem.spelled (.name name) (Grammar.name_mem_spellings.mpr hname)

theorem isNamePart_of_parse (h : parse false source = some m) :
    ∀ n ∈ namesIn m.items, ∀ c ∈ n.toList, isNamePart c = true :=
  fun n hn ↦ (isWord_of_parse h n hn).2

/-- The literals in a statement that exports nothing stand in its span. -/
theorem literal_inside_of_parse {span : Span} {leading : List Comment} {body : Node} {s : Span}
    (h : parse false source = some m) (hn : .item span leading body ∈ m.items)
    (hbody : Grammar.isExportBody body = false)
    (hs : s ∈ literalsIn [.item span leading body]) :
    s.Covers source ∧ span.start ≤ s.start ∧ s.stop ≤ span.stop := by
  obtain ⟨c, c', hitem⟩ := exists_spelledItem_of_parse h _ hn
  obtain ⟨_, _, _, heq, hwhole⟩ := hitem.whole
  cases heq
  have hspan := hwhole.resolve_left fun hexport ↦ by rw [hbody] at hexport; cases hexport
  have hspelled := hitem.spelled (.literal s) (Grammar.literal_mem_spellings.mpr hs)
  rw [hspan]
  exact hspelled

end Downlevel.Script
