import Downlevel.Proofs.Script.Spelling.Basic
import Downlevel.Proofs.Script.Spelling.Directive

/-!
# What expressions spell out

The rules for patterns, functions, classes and expressions, in the order of the grammar.
-/

namespace Downlevel.Script.Grammar

open Text

variable {source : List Char} {known : List Spelling}

/-- What is known of the rules that others enter. -/
class Rules.SpellsOut (source : List Char) (r : Rules) : Prop
    extends Rules.Sound source r, Rules.Pass source r where
  spells_assignment : Spells source [] r.assignment
  spells_expression : Spells source [] r.expression
  spells_unary : Spells source [] r.unary
  spells_operand (level : Nat) : Spells source [] (r.operand level)
  spells_leftHandSide : Spells source [] r.leftHandSide
  spells_constructed : Spells source [] r.constructed
  spells_binding : Spells source [] r.binding
  spells_target : Spells source [] r.target
  spells_statement (isSingle : Bool) : Spells source [] (r.statement isSingle)

attribute [instance] Rules.SpellsOut.spells_assignment Rules.SpellsOut.spells_expression
  Rules.SpellsOut.spells_unary Rules.SpellsOut.spells_operand Rules.SpellsOut.spells_leftHandSide
  Rules.SpellsOut.spells_constructed Rules.SpellsOut.spells_binding Rules.SpellsOut.spells_target
  Rules.SpellsOut.spells_statement

variable (r : Rules) [Rules.SpellsOut source r]

/-! ## Keys -/

instance : Spells source [] (computedKey r) := by
  unfold computedKey
  exact .step fun _ ↦ .along (.within inferInstance) fun _ ↦ .step fun _ ↦ .pure

instance : Spells source [] (memberKey r) := by
  unfold memberKey
  refine .peek fun t ↦ ?_
  split
  · exact .skip .pure
  · next hkind => exact .skip (.pure (by
      simp [spellings_of_children, ownSpellings, Node.ownNames, Node.ownLiterals, Node.children,
        tokenSpellings, hkind]))
  · exact .skip .pure
  · exact .skip .pure
  · exact .skip .pure
  · infer_instance

/-! ## Patterns -/

theorem spells_withDefault (pattern : Node) :
    Spells source (spellings pattern) (withDefault r pattern) := by
  unfold withDefault
  exact .step fun _ ↦ .ite (.bind fun _ ↦ .pure) .pure

section

variable {element rest : Reader Node} [Spells source [] element] [Spells source [] rest]
  [Steps source element] [Steps source rest]

instance : Spells source [] (arrayPattern element rest) := by
  unfold arrayPattern
  refine .step fun _ ↦ .loop (fun (es, isLast) ↦ ?_) fun (es, _) ↦ .step fun _ ↦ .pure
  exact .step fun _ ↦ .ite .pure (.step fun _ ↦ .ite .pure
    (.step fun _ ↦ .ite (.bind fun _ ↦ .pure) (.bind fun _ ↦ .step fun _ ↦ .ite
      (.step fun _ ↦ .pure) .pure)))

instance : Spells source [] (patternProperty r element) := by
  unfold patternProperty
  exact .step fun _ ↦ .ite (.bind fun _ ↦ .step fun _ ↦ .bind fun _ ↦ .pure)
    (.bind fun _ ↦ .step fun _ ↦ .ite (.bind fun _ ↦ .pure) .pure)

instance : Spells source [] (objectPattern r element rest) := by
  unfold objectPattern
  refine .step fun _ ↦ .loop (fun (ps, isLast) ↦ ?_) fun (ps, _) ↦ .step fun _ ↦ .pure
  exact .step fun _ ↦ .ite .pure (.step fun _ ↦ .ite (.bind fun _ ↦ .pure)
    (.bind fun _ ↦ .step fun _ ↦ .ite (.step fun _ ↦ .pure) .pure))

end

instance : Spells source [] (bindingElement r) := by
  unfold bindingElement
  exact .bind fun p ↦ (spells_withDefault r p).mono

instance : Spells source [] (do return .identifier (← name) : Reader Node) :=
  .bind fun _ ↦ .pure

instance : Spells source [] (Grammar.binding r) := by
  unfold Grammar.binding
  exact .step fun _ ↦ .ite inferInstance (.ite inferInstance inferInstance)

instance : Spells source [] (targetElement r) := by
  unfold targetElement
  exact .bind fun p ↦ (spells_withDefault r p).mono

instance : Spells source [] (targetPattern r) := by
  unfold targetPattern
  exact .step fun _ ↦ .ite (.bind fun _ ↦ .step fun _ ↦ .step fun _ ↦ .pure)
    (.bind fun _ ↦ .step fun _ ↦ .step fun _ ↦ .pure)

instance : Spells source [] (Grammar.target r) := by
  unfold Grammar.target
  refine .step fun t ↦ .ite (.bind fun pattern ↦ ?_) (.bind fun pattern ↦ ?_) <;>
  · cases pattern with
    | none => exact .bind fun _ ↦ .step fun _ ↦ .pure
    | some p => exact .pure

/-- What an expression is as a target is read from the place where the expression starts. -/
theorem spelled_asTarget {start c c' : Cursor} {ctx : Context} {e t : Node} {lo : Nat}
    (htyped : ctx.typed = false) (hstart : start.At source) (hlo : lo ≤ start.token.span.start)
    (hread : Reading source start c []) (he : Spelled source lo c.lastStop (spellings e))
    (h : asTarget r start e ctx c = some (t, c')) :
    Reading source start c' [] ∧ Spelled source lo c'.lastStop (spellings t) := by
  unfold asTarget at h
  split at h
  · obtain ⟨u, c₁, hback, h⟩ := exists_of_bind_eq_some h
    cases hback
    have hpattern : Spells source [] (targetPattern r) := inferInstance
    exact hpattern.spelled htyped hstart hlo (List.forall_mem_nil _) h
  · obtain ⟨u, c₁, hguard, h⟩ := exists_of_bind_eq_some h
    cases Stays.stays hguard
    cases h
    exact ⟨hread, he⟩

/-! ## Functions -/

/-- An item spells out what its body does, if that is no directive. -/
theorem mem_spellings_item {x : Spelling} {span : Span} {leading : List Comment} {body : Node}
    (hbody : isOrdinary body = true) :
    x ∈ spellings (Node.item span leading body) ↔ x ∈ spellings body := by
  have hnone : ownSpellings (.item span leading body) = [] := by
    cases body <;> first
      | rfl
      | cases hbody
  rw [spellings_node, hnone, List.nil_append, Node.children, spellings_cons, spellings_nil,
    List.append_nil]

theorem spellings_directive (span : Span) (leading : List Comment) (raw : String) :
    spellings (Node.item span leading (.directive raw))
      = [.literal ⟨span.start, span.start + (width raw.toList + 2)⟩] := by
  simp [spellings_of_children, ownSpellings, Node.ownNames, Node.ownLiterals, Node.children]

theorem exists_kind_of_directiveText {t : Token} {item : Node} {raw : String}
    (h : directiveText t item = some raw) : ∃ points, t.kind = .string points raw := by
  unfold directiveText at h
  split at h
  · split at h
    · next hkind =>
      cases h
      exact ⟨_, hkind⟩
    · cases h
  · cases h

/-- The string of a directive is the token that its statement starts with. -/
theorem spelled_directive {c c' : Cursor} {ctx : Context} {span : Span}
    {leading : List Comment} {body : Node} {raw : String} {lo : Nat}
    (htyped : ctx.typed = false) (hc : c.At source) (hlo : lo ≤ c.token.span.start)
    (hitem : r.statement false ctx c = some (.item span leading body, c'))
    (hraw : directiveText c.token (.item span leading body) = some raw) :
    Spelled source lo c'.lastStop (spellings (Node.item span leading (.directive raw))) := by
  obtain ⟨points, hkind⟩ := exists_kind_of_directiveText hraw
  have hstring : c.token.isString = true := by rw [Token.isString, hkind]
  obtain ⟨hstop, _, _, _, heq, hstart⟩ := StartsItem.starts htyped hc hstring hitem
  cases heq
  have hliteral := hc.token.string _ _ hkind
  rw [spellings_directive, hstart, ← hliteral]
  exact List.forall_mem_singleton.mpr ⟨hc.covers, hlo, hstop⟩

instance (isEnd : Token → Bool) : Spells source [] (statements r isEnd) := by
  unfold statements
  refine .loop (fun (items, isStart) ↦ ?_) fun (items, _) ↦ .pure
  refine ⟨fun {ctx c c' o lo} htyped hc hlo hknown h ↦ ?_⟩
  obtain ⟨t, c₁, hpeek, h⟩ := exists_of_bind_eq_some h
  cases hpeek
  split at h
  · cases h
    exact ⟨.refl hc, nofun⟩
  · obtain ⟨item, c₁, hitem, h⟩ := exists_of_bind_eq_some h
    have hstatement : Spells source [] (r.statement false) := inferInstance
    obtain ⟨hread, hspelled⟩ := hstatement.spelled htyped hc hlo nofun hitem
    have hbefore : Spelled source lo c₁.lastStop (spellings items) :=
      (hknown.subset (by simp)).mono (Nat.le_refl _) hread.last_le
    generalize hdirective : (if isStart = true then directiveText c.token item else none)
      = directive at h
    split at h
    · next span leading body raw =>
      cases h
      have hraw : directiveText c.token (.item span leading body) = some raw := by
        split at hdirective
        · exact hdirective
        · cases hdirective
      refine ⟨hread, ?_⟩
      rw [spellings_some, spellings_mk, spellings_cons, spellings_leaf, List.append_nil]
      exact (spelled_directive r htyped hc hlo hitem hraw).append hbefore
    · cases h
      refine ⟨hread, ?_⟩
      rw [spellings_some, spellings_mk, spellings_cons, spellings_leaf, List.append_nil]
      exact hspelled.append hbefore

instance : Spells source [] (blockItems r) := by
  unfold blockItems
  exact .step fun _ ↦ .bind fun _ ↦ .step fun _ ↦ .pure

instance : Spells source [] (functionBody r) := by
  unfold functionBody
  exact .step fun _ ↦ .bind fun _ ↦ .step fun _ ↦ .step fun _ ↦ .pure

instance : Spells source [] (decorator r) := by
  unfold decorator
  exact .step fun _ ↦ .step fun _ ↦ .along (.within inferInstance) fun _ ↦ .step fun _ ↦ .pure

instance : Spells source [] (decorators r) := by
  unfold decorators
  infer_instance

instance : Spells source [] (parameter r) := by
  unfold parameter
  refine .bind fun ds ↦ .ite (.step fun _ ↦ ?_) ?_ <;>
  · refine .step fun _ ↦ .step fun _ ↦ .step fun _ ↦ .ite (.step fun _ ↦ .step fun _ ↦ .pure)
      (.step fun _ ↦ .ite (.bind fun _ ↦ .step fun _ ↦ .pure) ?_)
    exact .bind fun p ↦ .step fun _ ↦ .step fun _ ↦ .along (spells_withDefault r p).mono fun _ ↦ .pure

instance : Spells source [] (parameters r) := by
  unfold parameters
  exact .step fun _ ↦ .bind fun (ps, hasComma) ↦ .step fun _ ↦ .pure

theorem spells_functionRest (name : Option String) (isAsync isGenerator : Bool) :
    Spells source (spellings name) (functionRest r name isAsync isGenerator) := by
  unfold functionRest
  have hrest : Spells source (spellings name) (do
      typeParameters r
      let ps ← parameters r
      optionalAnnotation r
      if ← isAtMark openBrace then
        return .function name isAsync isGenerator ps (some (← functionBody r))
      else
        typedOnly
        semicolon
        return .function name isAsync isGenerator ps none : Reader Node) :=
    .step fun _ ↦ .bind fun _ ↦ .step fun _ ↦ .step fun _ ↦ .ite (.bind fun _ ↦ .pure) .typedOnly
  infer_instance

instance : Spells source [] optionalName := by
  unfold optionalName
  exact .step fun _ ↦ .ite (.bind fun _ ↦ .pure) .pure

instance (isDeclaration : Bool) : Spells source [] (functionFromKeyword r isDeclaration) := by
  unfold functionFromKeyword
  refine .step fun _ ↦ .step fun _ ↦ .step fun _ ↦ .ite
    (.bind fun n ↦ (spells_functionRest r n _ _).mono)
    (.along (.within inferInstance) fun n ↦ (spells_functionRest r n _ _).mono)

instance : Spells source [] (functionExpression r) := by
  unfold functionExpression
  exact .bind fun _ ↦ .step fun _ ↦ .pure

instance (isAsync : Bool) : Spells source [] (arrowBody r isAsync) := by
  unfold arrowBody
  exact .step fun _ ↦ .ite inferInstance (.within inferInstance)

instance (isAsync : Bool) : Spells source [] (parenthesizedArrow r isAsync) := by
  unfold parenthesizedArrow
  exact .step fun _ ↦ .bind fun ps ↦ .step fun _ ↦ .step fun _ ↦ .step fun _ ↦ .step fun _ ↦
    .bind fun _ ↦ .step fun _ ↦ .ite (.step fun _ ↦ .step fun _ ↦ .pure) .pure

instance (isAsync : Bool) : Spells source [] (simpleArrow r isAsync) := by
  unfold simpleArrow
  exact .bind fun _ ↦ .step fun _ ↦ .bind fun _ ↦ .pure

instance : Spells source [] (arrow r) := by
  unfold arrow
  have : Spells source [] (do
      skip
      simpleArrow r true) := .step fun _ ↦ inferInstance
  have : Spells source [] (do
      skip
      parenthesizedArrow r true) := .step fun _ ↦ inferInstance
  exact .step fun t ↦ .step fun following ↦ .ite (.bind fun _ ↦ .pure) (.ite inferInstance
    (.step fun _ ↦ .ite inferInstance (.step fun _ ↦ .ite inferInstance .pure)))

/-! ## Classes -/

theorem spells_fieldRest (ds : List Node) (words : List String) (key : Node) :
    Spells source (spellings ds ++ spellings key) (fieldRest r ds words key) := by
  unfold fieldRest
  refine .step fun _ ↦ .ite (.step fun _ ↦ ?_) ?_ <;>
  · refine .step fun _ ↦ .step fun _ ↦ .ite
      (.along (.within inferInstance) fun _ ↦ .value ?_) (.value ?_) <;>
    exact .step fun _ ↦ .step fun _ ↦ .pure

theorem spells_elementRest (ds : List Node) (words : List String) :
    Spells source (spellings ds) (elementRest r ds words) := by
  have hfunction (isAsync isGenerator : Bool) (known : List Spelling) :
      Spells source known (functionRest r none isAsync isGenerator) :=
    (spells_functionRest r none _ _).mono
  unfold elementRest
  refine .step fun _ ↦ .bind fun key ↦ .step fun _ ↦ .step fun _ ↦
    .ite (.bind fun _ ↦ .step fun _ ↦ .pure) (spells_fieldRest r ds words key)

/-- A class element is no directive. -/
theorem makes_elementRest (ds : List Node) (words : List String) :
    Makes isOrdinary (elementRest r ds words) := by
  have hfield (key : Node) : Makes isOrdinary (fieldRest r ds words key) := by
    unfold fieldRest
    refine .step fun _ ↦ .ite (.step fun _ ↦ .step fun _ ↦ .step fun _ ↦ ?_)
      (.step fun _ ↦ .step fun _ ↦ ?_) <;>
    exact .ite (.step fun _ ↦ .step fun _ ↦ .step fun _ ↦ .step fun _ ↦ .pure rfl)
      (.step fun _ ↦ .step fun _ ↦ .step fun _ ↦ .pure rfl)
  unfold elementRest
  exact .step fun _ ↦ .step fun key ↦ .step fun _ ↦ .step fun _ ↦
    .ite (.step fun _ ↦ .step fun _ ↦ .pure rfl) (hfield key)

instance : Spells source [] (classElement r) := by
  unfold classElement
  refine .step fun _ ↦ .ite .pure (.step fun t ↦ .bind fun ds ↦ ?_)
  refine .step fun _ ↦ .step fun _ ↦ .ite (.step fun _ ↦
    .along (.within inferInstance) fun _ ↦ .value ?_) (.step fun _ ↦ ?_)
  · exact .step fun _ ↦ .pure
  · refine .step fun _ ↦ .ite (.step fun isIndex ↦ ?_) (.step fun isIndex ↦ ?_) <;>
    · cases isIndex with
      | some _ => exact .step fun _ ↦ .value (.step fun _ ↦ .pure)
      | none =>
        exact .made (spells_elementRest r ds _).mono (makes_elementRest r ds _) fun n hn ↦
          .step fun _ ↦ .pure fun x hx ↦ by
            rw [spellings_some, mem_spellings_item hn] at hx
            exact List.mem_append_right _ hx

instance : Spells source [] (classBody r) := by
  unfold classBody
  exact .step fun _ ↦ .bind fun _ ↦ .step fun _ ↦ .pure

theorem spells_classRest (ds : List Node) : Spells source (spellings ds) (classRest r ds) := by
  unfold classRest
  refine .step fun _ ↦ .step fun t ↦ .step fun _ ↦ .ite (.bind fun n ↦ ?_) (.bind fun n ↦ ?_) <;>
  · refine .step fun _ ↦ .step fun _ ↦ .ite (.bind fun _ ↦ .step fun _ ↦ .step fun _ ↦
      .ite (.step fun _ ↦ .value ?_) (.value ?_)) (.value ?_) <;>
    · refine .step fun _ ↦ .ite (.step fun _ ↦ .ite (.step fun _ ↦ ?_) ?_)
        (.step fun _ ↦ .ite (.step fun _ ↦ ?_) ?_) <;>
      exact .bind fun _ ↦ .pure

/-! ## Literals and brackets -/

instance : Spells source [] (element r) := by
  unfold element
  exact .step fun _ ↦ .ite (.bind fun _ ↦ .pure) inferInstance

instance : Spells source [] (arrayLiteral r) := by
  unfold arrayLiteral
  refine .step fun _ ↦ .loop (fun es ↦ ?_) fun _ ↦ .step fun _ ↦ .pure
  exact .step fun _ ↦ .ite .pure (.step fun _ ↦ .ite .pure
    (.bind fun _ ↦ .step fun _ ↦ .ite (.step fun _ ↦ .pure) .pure))

theorem spells_objectMethod (isAsync isGenerator : Bool) (kind : MethodKind) (key : Node) :
    Spells source (spellings key) (objectMethod r isAsync isGenerator kind key) := by
  unfold objectMethod
  exact .along (spells_functionRest r none _ _).mono fun _ ↦ .step fun _ ↦ .pure

instance : Spells source [] (objectProperty r) := by
  unfold objectProperty
  refine .step fun _ ↦ .ite (.bind fun _ ↦ .pure) (.step fun (isAsync, isGenerator, kind) ↦
    .peekName fun t ↦ .bind fun key ↦ .step fun _ ↦ .step fun _ ↦ .ite
      (spells_objectMethod r isAsync isGenerator kind key).mono (.step fun _ ↦ .ite
        (.bind fun _ ↦ .pure) ?_))
  split
  · infer_instance
  · next n hname =>
    rw [hname]
    exact .step fun _ ↦ .step fun _ ↦ .step fun _ ↦
      .ite (.bind fun _ ↦ .step fun _ ↦ .pure) .pure

instance : Spells source [] (objectLiteral r) := by
  unfold objectLiteral
  exact .step fun _ ↦ .bind fun (properties, _) ↦ .pure

instance : Spells source [] (templateLiteral r) := by
  unfold templateLiteral
  refine .bind fun (first, isLast) ↦ .loop (fun (chunks, values, isLast) ↦ ?_)
    fun (chunks, values, _) ↦ .pure
  exact .ite .pure (.bind fun _ ↦ .bind fun (chunk, isLast) ↦ .pure)

instance : Spells source [] (parenthesized r) := by
  unfold parenthesized
  exact .step fun _ ↦ .bind fun _ ↦ .step fun _ ↦ .pure

instance : Spells source [] (decoratedClass r) := by
  unfold decoratedClass
  exact .bind fun ds ↦ (spells_classRest r ds).mono

/-! ## Operands -/

instance : Spells source [] (importExpression r) := by
  unfold importExpression
  refine .step fun _ ↦ .step fun _ ↦ .step fun _ ↦ .ite (.step fun _ ↦ .pure) ?_
  refine .step fun _ ↦ .step fun _ ↦ .bind fun _ ↦ .step fun _ ↦ .step fun _ ↦ .step fun _ ↦
    .ite (.bind fun _ ↦ .step fun _ ↦ .value ?_) (.value ?_) <;>
  exact .step fun _ ↦ .step fun _ ↦ .pure

instance : Spells source [] (Grammar.arguments r) := by
  unfold Grammar.arguments
  exact .step fun _ ↦ .bind fun (es, _) ↦ .pure

instance : Spells source [] (construction r) := by
  unfold construction
  refine .step fun _ ↦ .step fun _ ↦ .ite (.step fun _ ↦ .pure)
    (.bind fun _ ↦ .step fun _ ↦ .step fun _ ↦ .ite (.step fun _ ↦ ?_) ?_) <;>
  exact .step fun _ ↦ .step fun _ ↦ .step fun _ ↦ .ite (.bind fun _ ↦ .pure) (.value .pure)

instance : Spells source [] superExpression := by
  unfold superExpression
  exact .step fun _ ↦ .step fun _ ↦ .step fun _ ↦ .pure

instance (t : Token) : Spells source [] (wordOperand r t) := by
  have hclass : Spells source [] (classRest r []) := spells_classRest r []
  unfold wordOperand
  exact .ite (.step fun _ ↦ .pure) (.ite (.step fun _ ↦ .pure) (.ite (.step fun _ ↦ .pure)
    (.ite (.step fun _ ↦ .pure) (.ite inferInstance (.ite inferInstance (.ite hclass
      (.ite inferInstance (.ite inferInstance (.step fun _ ↦
        .ite inferInstance (.bind fun _ ↦ .pure))))))))))

/-- A regular expression is neither a name nor a literal with a text of its own. -/
theorem spellsFrom_regexLiteral {t : Token} (ht : t.kind = .mark "/" ∨ t.kind = .mark "/=") :
    SpellsFrom source t known regexLiteral where
  spelled {ctx c c' n lo} _ hc htoken _ _ h := by
    have hexpresses : ExpressesFrom source t isImportCall regexLiteral :=
      expressesFrom_regexLiteral ht
    refine ⟨(hexpresses.fits hc htoken h).found.reading, ?_⟩
    unfold regexLiteral at h
    dsimp only at h
    split at h
    · cases h
      exact nofun
    · cases h

instance : Spells source [] (primary r) := by
  unfold primary
  refine .peek fun t ↦ ?_
  split
  · infer_instance
  · exact .skip .pure
  · exact .skip .pure
  · next hkind => exact .skip (.pure (by
      simp [spellings_of_children, ownSpellings, Node.ownNames, Node.ownLiterals, Node.children,
        tokenSpellings, hkind]))
  · have : Spells source [] (do
        let node ← templateLiteral r
        guardThat (isWellFormed node)
        return node) := .bind fun _ ↦ .step fun _ ↦ .pure
    infer_instance
  · next m hkind =>
    refine .ite (fun _ ↦ inferInstance) (.ite (fun _ ↦ inferInstance)
      (.ite (fun _ ↦ inferInstance) (.ite (fun hslash ↦ ?_)
        (.ite (fun _ ↦ inferInstance) inferInstance))))
    rw [Bool.or_eq_true, beq_iff_eq, beq_iff_eq] at hslash
    refine spellsFrom_regexLiteral ?_
    rw [hkind]
    exact hslash.imp (congrArg _) (congrArg _)
  · infer_instance

/-! ## Accesses and calls -/

theorem spells_memberName (object : Node) (isOptional : Bool) :
    Spells source (spellings object) (memberName object isOptional) := by
  unfold memberName
  refine .step fun t ↦ ?_
  split
  · exact .step fun _ ↦ .pure
  · exact .step fun _ ↦ .pure
  · infer_instance

theorem spells_indexAccess (object : Node) (isOptional : Bool) :
    Spells source (spellings object) (indexAccess r object isOptional) := by
  unfold indexAccess
  exact .step fun _ ↦ .bind fun _ ↦ .step fun _ ↦ .pure

theorem spells_optionalAccess (object : Node) :
    Spells source (spellings object) (optionalAccess r object) := by
  unfold optionalAccess
  refine .step fun _ ↦ .step fun _ ↦ .ite (.step fun _ ↦ ?_) ?_ <;>
  exact .step fun _ ↦ .ite (.bind fun _ ↦ .pure)
    (.ite (spells_indexAccess r object true) (spells_memberName object true))

theorem spells_accesses (allowsCalls : Bool) (start : Node) :
    Spells source (spellings start) (accesses r allowsCalls start) := by
  unfold accesses
  refine spells_repeatFrom (fun found ↦ ?_) (by simp)
  obtain ⟨e, isChain⟩ := found
  refine .step fun t ↦ ?_
  split
  · exact .ite inferInstance (.bind fun _ ↦ .pure)
  · refine .ite (.step fun _ ↦ .along (spells_memberName e false).mono fun _ ↦ .pure) (.ite
      (.ite (.step fun _ ↦ .along (spells_optionalAccess r e).mono fun _ ↦ .pure) inferInstance)
      (.ite (.step fun _ ↦ .ite (.along (spells_indexAccess r e false).mono fun _ ↦ .pure) .pure)
        (.ite (.ite (.bind fun _ ↦ .pure) .pure) (.step fun _ ↦ .ite (.ite
          (.step fun _ ↦ .pure) (.ite (.step fun o ↦ ?_) .pure)) .pure))))
    cases o with
    | none => exact .pure
    | some _ => exact .pure
  · exact .pure

theorem spellings_markPure (e : Node) : spellings (markPure e) = spellings e := by
  fun_induction markPure e with
  | case1 f args isOptional isPure => rfl
  | case2 f args isPure => rfl
  | case3 e ih => simpa [spellings_of_children, ownSpellings, Node.ownNames, Node.ownLiterals,
      Node.children] using ih
  | case4 e ih => simpa [spellings_of_children, ownSpellings, Node.ownNames, Node.ownLiterals,
      Node.children] using ih
  | case5 => rfl

/-- What is known of a call does not change what it spells out. -/
theorem spellings_finished (isPure isChain : Bool) (e : Node) :
    spellings (if isPure then markPure (if isChain then .chain e else e)
      else if isChain then .chain e else e) = spellings e := by
  cases isPure <;> cases isChain <;>
    simp [spellings_markPure, spellings_of_children, ownSpellings, Node.ownNames, Node.ownLiterals,
      Node.children]

instance : Spells source [] (Grammar.leftHandSide r) := by
  unfold Grammar.leftHandSide
  refine .step fun t ↦ .bind fun e ↦ .along (spells_accesses r true e).mono fun (e', isChain) ↦ ?_
  exact .pure fun x hx ↦ by
    rw [spellings_finished] at hx
    simp [hx]

instance : Spells source [] (Grammar.constructed r) := by
  unfold Grammar.constructed
  exact .bind fun e ↦ .step fun _ ↦ .along (spells_accesses r false e).mono fun (e', _) ↦ .pure

/-! ## Operators -/

instance : Spells source [] (postfixed r) := by
  unfold postfixed
  refine .bind fun e ↦ .step fun t ↦ ?_
  split
  · exact .ite .pure (.step fun _ ↦ .step fun _ ↦ .pure)
  · exact .pure

instance : Spells source [] (typeAssertion r) := by
  unfold typeAssertion
  exact .step fun _ ↦ .step fun _ ↦ .step fun _ ↦ inferInstance

instance : Spells source [] (Grammar.unary r) := by
  unfold Grammar.unary
  refine .step fun t ↦ ?_
  split
  · exact .step fun _ ↦ .bind fun _ ↦ .step fun _ ↦ .step fun _ ↦ .pure
  · exact .step fun _ ↦ .bind fun _ ↦ .step fun _ ↦ .pure
  · exact .step fun _ ↦ .ite (.step fun _ ↦ .bind fun _ ↦ .pure)
      (.step fun _ ↦ .step fun _ ↦ .ite inferInstance inferInstance)

instance (level : Nat) : Spells source [] (firstOperand r level) := by
  unfold firstOperand
  refine .step fun t ↦ ?_
  split
  · exact .step fun _ ↦ .step fun _ ↦ .step fun _ ↦ .bind fun _ ↦ .pure
  · infer_instance

instance (level : Nat) : Spells source [] (Grammar.operand r level) := by
  unfold Grammar.operand
  refine .bind fun first ↦ spells_repeatFrom (fun left ↦ .step fun t ↦ .step fun isTyped ↦
    .ite ?_ (.step fun o ↦ ?_)) (by simp)
  · exact .step fun _ ↦ .step fun _ ↦ .ite (.step fun _ ↦ .pure) .pure
  · cases o with
    | none => exact .pure
    | some o => exact .ite .pure (.step fun _ ↦ .bind fun _ ↦ .step fun _ ↦ .pure)

/-! ## Assignments -/

instance : Spells source [] (yieldExpression r) := by
  unfold yieldExpression
  exact .step fun _ ↦ .step fun _ ↦ .ite .pure (.step fun _ ↦ .step fun t ↦
    .ite .pure (.bind fun _ ↦ .pure))

theorem spells_conditionalRest (test : Node) :
    Spells source (spellings test) (conditionalRest r test) := by
  unfold conditionalRest
  exact .step fun _ ↦ .along (.within inferInstance) fun _ ↦ .step fun _ ↦ .bind fun _ ↦ .pure

/-- What is assigned to is read from the place where the expression starts. -/
theorem spelled_assigned {op : AssignmentOperator} {start c c' : Cursor} {ctx : Context}
    {e t : Node} {lo : Nat} (htyped : ctx.typed = false) (hstart : start.At source)
    (hlo : lo ≤ start.token.span.start) (hread : Reading source start c [])
    (he : Spelled source lo c.lastStop (spellings e))
    (h : assigned r op start e ctx c = some (t, c')) :
    Reading source start c' [] ∧ Spelled source lo c'.lastStop (spellings t) := by
  unfold assigned at h
  split at h
  · exact spelled_asTarget r htyped hstart hlo hread he h
  · obtain ⟨u, c₁, hguard, h⟩ := exists_of_bind_eq_some h
    cases Stays.stays hguard
    cases h
    exact ⟨hread, he⟩

instance : Spells source [] (Grammar.assignment r) := by
  unfold Grammar.assignment
  suffices hoperation : Spells source [] (do
      let start ← place
      let left ← Grammar.operand r 0
      match ← assignmentOperator with
      | some (op, s) =>
        let target ← assigned r op start left
        takeOperator s
        return Node.assignment op target (← r.assignment)
      | none => if ← isAtMark "?" then conditionalRest r left else return left) by
    refine .step fun _ ↦ .step fun _ ↦ .ite inferInstance (.bind fun o ↦ ?_)
    cases o with
    | none => exact hoperation.mono
    | some f => exact .pure
  refine ⟨fun {ctx c c' n lo} htyped hc hlo _ h ↦ ?_⟩
  obtain ⟨start, c₁, hplace, h⟩ := exists_of_bind_eq_some h
  cases hplace
  obtain ⟨left, c₁, hleft, h⟩ := exists_of_bind_eq_some h
  have hoperand : Spells source [] (Grammar.operand r 0) := inferInstance
  obtain ⟨hread, hspelled⟩ := hoperand.spelled htyped hc hlo nofun hleft
  obtain ⟨o, c₂, hoperator, h⟩ := exists_of_bind_eq_some h
  cases Stays.stays hoperator
  cases o with
  | none =>
    have hrest : Spells source (spellings left) (do
        if ← isAtMark "?" then conditionalRest r left else return left) :=
      .step fun _ ↦ .ite (spells_conditionalRest r left) .pure
    obtain ⟨hread', hspelled'⟩ := hrest.spelled htyped hread.place
      (Nat.le_trans hlo hread.start_le) hspelled h
    exact ⟨hread.trans hread', hspelled'⟩
  | some o =>
    obtain ⟨target, c₂, htarget, h⟩ := exists_of_bind_eq_some h
    obtain ⟨hread, hspelled⟩ := spelled_assigned r htyped hc hlo hread hspelled htarget
    have hrest : Spells source (spellings target) (do
        takeOperator o.2
        return Node.assignment o.1 target (← r.assignment)) := .step fun _ ↦ .bind fun _ ↦ .pure
    obtain ⟨hread', hspelled'⟩ := hrest.spelled htyped hread.place
      (Nat.le_trans hlo hread.start_le) hspelled h
    exact ⟨hread.trans hread', hspelled'⟩

instance : Spells source [] (Grammar.expression r) := by
  unfold Grammar.expression
  refine .bind fun es ↦ ?_
  split <;> exact .pure

end Downlevel.Script.Grammar
