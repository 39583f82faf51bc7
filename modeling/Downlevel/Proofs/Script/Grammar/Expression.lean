import Downlevel.Proofs.Script.Grammar.Class

/-!
# What expressions carry

An import call is the only expression that comes upon a dynamic import at its own start and has it
end where the expression ends.
-/

namespace Downlevel.Script.Grammar

variable {source : List Char} (r : Rules) [Rules.Sound source r]

/-! ## Literals and brackets -/

instance : Carries source false [] (element r) := by
  unfold element
  exact .step fun _ ↦ .ite (.bind fun _ ↦ .pure) inferInstance

instance : Opens source [] (arrayLiteral r) := by
  unfold arrayLiteral
  refine .first fun _ ↦ .loop (fun es ↦ ?_) fun _ ↦ .step fun _ ↦ .pure
  exact .step fun _ ↦ .ite .pure (.step fun _ ↦ .ite .pure
    (.bind fun _ ↦ .step fun _ ↦ .ite (.step fun _ ↦ .pure) .pure))

instance : Steps source noteDefault where
  reading hc h := by
    cases h
    exact .note hc _ _

theorem carries_objectMethod (isAsync isGenerator : Bool) (kind : MethodKind) (key : Node) :
    Carries source false (imports key) (objectMethod r isAsync isGenerator kind key) := by
  unfold objectMethod
  exact .bind fun _ ↦ .step fun _ ↦ .pure

instance : Carries source false [] (objectProperty r) := by
  unfold objectProperty
  refine .step fun _ ↦ .ite (.bind fun _ ↦ .pure) (.step fun (isAsync, isGenerator, kind) ↦
    .step fun t ↦ .bind fun key ↦ .step fun _ ↦ .step fun _ ↦ .ite
      (carries_objectMethod r isAsync isGenerator kind key) (.step fun _ ↦ .ite
        (.bind fun _ ↦ .pure) ?_))
  split
  · infer_instance
  · exact .step fun _ ↦ .step fun _ ↦ .step fun _ ↦
      .ite (.bind fun _ ↦ .step fun _ ↦ .pure) .pure

instance : Opens source [] (objectLiteral r) := by
  unfold objectLiteral
  exact .first fun _ ↦ .bind fun (properties, _) ↦ .pure

instance : Opens source [] (templateLiteral r) := by
  unfold templateLiteral
  refine .first fun (first, isLast) ↦ .loop (fun (chunks, values, isLast) ↦ ?_)
    fun (chunks, values, _) ↦ .pure
  exact .ite .pure (.bind fun _ ↦ .step fun (chunk, isLast) ↦ .pure)

instance : Opens source [] (parenthesized r) := by
  unfold parenthesized
  exact .first fun _ ↦ .bind fun _ ↦ .step fun _ ↦ .pure

instance : Opens source [] (decoratedClass r) := by
  unfold decoratedClass
  exact .bind fun ds ↦ opens_classRest r ds

/-! ## Operands -/

instance : Opens source [] (Grammar.arguments r) := by
  unfold Grammar.arguments
  exact .first fun _ ↦ .bind fun (es, _) ↦ .pure

instance : Opens source [] (construction r) := by
  unfold construction
  refine .first fun _ ↦ .step fun _ ↦ .ite (.step fun _ ↦ .pure)
    (.bind fun _ ↦ .step fun _ ↦ .step fun _ ↦ .ite (.step fun _ ↦ ?_) ?_) <;>
  exact .step fun _ ↦ .step fun _ ↦ .step fun _ ↦ .ite (.bind fun _ ↦ .pure) (.value .pure)

instance : Opens source [] superExpression := by
  unfold superExpression
  exact .first fun _ ↦ .step fun _ ↦ .step fun _ ↦ .pure

/-- The end of an import call, behind its argument. -/
structure ImportEnd (source : List Char) (start : Nat) (argumentSpan : Span) (argument : Node)
    (c : Cursor) (n : Node) (c' : Cursor) : Prop where
  reading : Reading source c c' []
  lt : c.lastStop < c'.lastStop
  eq : ∃ options, n = .importCall ⟨start, c'.lastStop⟩ argumentSpan argument options

theorem ImportEnd.after {start : Nat} {argumentSpan : Span} {argument n : Node} {c c₁ c' : Cursor}
    (h : Reading source c c₁ []) (h' : ImportEnd source start argumentSpan argument c₁ n c') :
    ImportEnd source start argumentSpan argument c n c' where
  reading := h.trans h'.reading
  lt := Nat.lt_of_le_of_lt h.last_le h'.lt
  eq := h'.eq

/-- A rule for the rest of an import call. -/
class EndsImport (source : List Char) (start : Nat) (argumentSpan : Span) (argument : Node)
    (p : Reader Node) : Prop where
  ends : ∀ {ctx : Context} {c c' : Cursor} {n : Node}, c.At source → p ctx c = some (n, c') →
    ImportEnd source start argumentSpan argument c n c'

namespace EndsImport

variable {start : Nat} {argumentSpan : Span} {argument : Node}

instance {α : Type} {p : Reader α} {f : α → Reader Node} [Steps source p]
    [hf : ∀ a, EndsImport source start argumentSpan argument (f a)] :
    EndsImport source start argumentSpan argument (p >>= f) where
  ends hc h := by
    obtain ⟨a, c₁, hp, h⟩ := exists_of_bind_eq_some h
    have hfirst := Steps.reading hc hp
    exact .after hfirst ((hf a).ends hfirst.place h)

instance {p q : Reader Node} [hp : EndsImport source start argumentSpan argument p]
    [hq : EndsImport source start argumentSpan argument q] (b : Prop) [Decidable b] :
    EndsImport source start argumentSpan argument (if b then p else q) where
  ends hc h := by
    split at h
    · exact hp.ends hc h
    · exact hq.ends hc h

instance (priority := high) (options : Option Node) :
    EndsImport source start argumentSpan argument (do
      mark ")"
      return .importCall (← spanFrom start) argumentSpan argument options) where
  ends hc h := by
    obtain ⟨u, c₁, hclose, h⟩ := exists_of_bind_eq_some h
    obtain ⟨span, c₂, hspan, h⟩ := exists_of_bind_eq_some h
    cases hspan
    cases h
    exact ⟨Steps.reading hc hclose, Nat.lt_of_le_of_lt hc.last_le (Moves.moves hc hclose),
      options, rfl⟩

end EndsImport

/-- An import call stands where it is read, with its argument behind its first word and in front of
its end. -/
theorem fits_of_importEnd {c c₁ c₂ c' : Cursor} {argument n : Node} (hc : c.At source)
    (hopen : Reading source c c₁ []) (hbehind : c.token.span.start < c₁.token.span.start)
    (hargument : Reading source c₁ c₂ []) (hnonempty : c₁.token.span.start < c₂.lastStop)
    (hend : ImportEnd source c.token.span.start ⟨c₁.token.span.start, c₂.lastStop⟩ argument c₂ n
      c') : Fits source isImportCall c n c' := by
  obtain ⟨options, rfl⟩ := hend.eq
  have hall : Reading source c c' [] := hopen.trans (hargument.trans hend.reading)
  have hwide : c.token.span.start < c'.lastStop :=
    Nat.lt_trans (Nat.lt_trans hbehind hnonempty) hend.lt
  obtain ⟨_, hstart, -⟩ := hc.token.start
  obtain ⟨_, hargumentStart, -⟩ := hopen.place.token.start
  have himport : ImportAt source
      (⟨c.token.span.start, c'.lastStop⟩, ⟨c₁.token.span.start, c₂.lastStop⟩) :=
    { covers := ⟨Nat.le_of_lt hwide, hstart.isBoundary, hall.place.last⟩
      argument_covers :=
        ⟨Nat.le_of_lt hnonempty, hargumentStart.isBoundary, hargument.place.last⟩
      start_lt := hbehind
      stop_lt := hend.lt }
  refine ⟨⟨_, .single hall himport ⟨Nat.le_refl _, Nat.le_refl _⟩, nofun, ?_⟩, hwide,
    fun _ _ _ _ ↦ rfl⟩
  rw [imports_importCall]
  exact .refl _

instance : Expresses source isImportCall (importExpression r) where
  fits {ctx c c' n} hc h := by
    unfold importExpression at h
    obtain ⟨start, c₁, hstart, h⟩ := exists_of_bind_eq_some h
    cases hstart
    obtain ⟨_, c₁, hword, h⟩ := exists_of_bind_eq_some h
    have hfirst := Steps.reading hc hword
    have hmoved := Moves.moves hc hword
    obtain ⟨b, c₂, hpoint, h⟩ := exists_of_bind_eq_some h
    have hsecond := Steps.reading hfirst.place hpoint
    split at h
    · have hmeta : Carries source false [] (do
          word "meta"
          return Node.importMeta) := .step fun _ ↦ .pure
      have hfound := hmeta.found hsecond.place h
      have hread := hsecond.trans hfound.reading
      exact .of_late (.behind hfirst hmoved (.after hsecond hfound))
        (Nat.lt_of_lt_of_le hmoved hread.last_le)
    · obtain ⟨_, c₃, hopen, h⟩ := exists_of_bind_eq_some h
      have hthird := hsecond.trans (Steps.reading hsecond.place hopen)
      obtain ⟨argumentStart, c₄, hposition, h⟩ := exists_of_bind_eq_some h
      cases hposition
      obtain ⟨argument, c₄, hargument, h⟩ := exists_of_bind_eq_some h
      have hread := Steps.reading hthird.place hargument
      obtain ⟨argumentSpan, c₅, hspan, h⟩ := exists_of_bind_eq_some h
      cases hspan
      have hbehind : c.token.span.start < c₃.token.span.start :=
        Nat.lt_of_lt_of_le hmoved (Nat.le_trans hfirst.place.last_le hthird.start_le)
      have hend : ImportEnd source c.token.span.start ⟨c₃.token.span.start, c₄.lastStop⟩ argument
          c₄ n c' := EndsImport.ends hread.place h
      exact fits_of_importEnd hc (hfirst.trans hthird) hbehind hread
        (Moves.moves hthird.place hargument) hend

theorem expressesFrom_wordOperand {t : Token} (ht : t.isWritten = true) :
    ExpressesFrom source t isImportCall (wordOperand r t) := by
  have hskip := movesFrom_skip source ht
  have hleaf (n : Node) (hn : imports n = []) : ExpressesFrom source t isImportCall (do
      skip
      return n) := .first hskip fun _ ↦ .pure fun q ↦ by simp [hn]
  unfold wordOperand
  exact .ite (fun _ ↦ hleaf _ (by simp [imports_of_children, Node.children]))
    (.ite (fun _ ↦ hleaf _ (by simp [imports_of_children, Node.children]))
      (.ite (fun _ ↦ hleaf _ (by simp [imports_of_children, Node.children]))
        (.ite (fun _ ↦ hleaf _ (by simp [imports_of_children, Node.children]))
          (.ite (fun _ ↦ .of_opens inferInstance) (.ite (fun _ ↦ .of_opens inferInstance)
            (.ite (fun _ ↦ .of_opens (opens_classRest r [])) (.ite (fun _ ↦ .of_opens inferInstance)
              (.ite inferInstance (.stay fun _ ↦ .ite (fun _ ↦ .of_opens inferInstance)
                (.of_opens (.first fun _ ↦ .pure)))))))))))

/-- A regular expression is read from its first slash on. -/
theorem expressesFrom_regexLiteral {t : Token} (ht : t.kind = .mark "/" ∨ t.kind = .mark "/=") :
    ExpressesFrom source t isImportCall regexLiteral where
  fits {ctx c c' n} hc htoken h := by
    subst htoken
    have hslash : ∃ cs, (if c.token.isMark "/=" then '=' :: c.rest else c.rest) = cs ∧
        Literal.Takes source (c.token.span.start + 1) cs := by
      rcases ht with ht | ht
      · refine ⟨c.rest, if_neg (by simp [Token.isMark, ht]), ?_⟩
        exact (hc.token.mark _ ht).trans ((Literal.Takes.nil _).cons_ascii rfl)
      · refine ⟨'=' :: c.rest, if_pos (by simp [Token.isMark, ht]), ?_⟩
        exact (hc.token.mark _ ht).trans ((Literal.Takes.nil _).cons_ascii rfl)
    obtain ⟨cs, hcs, htakes⟩ := hslash
    unfold regexLiteral at h
    dsimp only at h
    rw [hcs] at h
    split at h
    · next pattern flags w rest hregex =>
      cases h
      have hlt : c.token.span.start < c.token.span.start + 1 + w := by omega
      have hread := Reading.of_next hc (.inl (htakes.trans (Literal.takes_regex hregex)))
        (Nat.le_of_lt hlt) false false c.hasDefault c.inTypes
      refine .of_late (.after hread (.refl hread.place ?_)) hlt
      simp [imports_of_children, Node.children]
    · cases h

instance : Expresses source isImportCall (primary r) := by
  unfold primary
  refine .peek fun t ↦ ?_
  split
  · next hkind => exact expressesFrom_wordOperand r (by rw [Token.isWritten, hkind])
  · next hkind =>
    exact .first (movesFrom_skip source (by rw [Token.isWritten, hkind])) fun _ ↦ .pure
  · next hkind =>
    exact .first (movesFrom_skip source (by rw [Token.isWritten, hkind])) fun _ ↦ .pure
  · next hkind =>
    exact .first (movesFrom_skip source (by rw [Token.isWritten, hkind])) fun _ ↦ .pure
  · exact .of_opens (.lead fun _ ↦ .step fun _ ↦ .pure)
  · next m hkind =>
    refine .ite (fun _ ↦ .of_opens inferInstance) (.ite (fun _ ↦ .of_opens inferInstance)
      (.ite (fun _ ↦ .of_opens inferInstance) (.ite (fun hslash ↦ ?_)
        (.ite (fun _ ↦ .of_opens inferInstance) ⟨fun _ _ h ↦ by cases h⟩))))
    rw [Bool.or_eq_true, beq_iff_eq, beq_iff_eq] at hslash
    refine expressesFrom_regexLiteral ?_
    rw [hkind]
    exact hslash.imp (congrArg _) (congrArg _)
  · exact ⟨fun _ _ h ↦ by cases h⟩

/-! ## Accesses and calls -/

theorem carries_memberName (object : Node) (isOptional : Bool) :
    Carries source false (imports object) (memberName object isOptional) := by
  unfold memberName
  refine .step fun t ↦ ?_
  split
  · exact .step fun _ ↦ .pure
  · exact .step fun _ ↦ .pure
  · infer_instance

theorem carries_indexAccess (object : Node) (isOptional : Bool) :
    Carries source false (imports object) (indexAccess r object isOptional) := by
  unfold indexAccess
  exact .step fun _ ↦ .bind fun _ ↦ .step fun _ ↦ .pure

instance (object : Node) (isOptional : Bool) : Moves source (indexAccess r object isOptional) := by
  unfold indexAccess
  infer_instance

theorem carries_optionalAccess (object : Node) :
    Carries source false (imports object) (optionalAccess r object) := by
  unfold optionalAccess
  refine .step fun _ ↦ .step fun _ ↦ .ite (.step fun _ ↦ ?_) ?_ <;>
  exact .step fun _ ↦ .ite (.bind fun _ ↦ .pure)
    (.ite (carries_indexAccess r object true) (carries_memberName object true))

instance (object : Node) (isOptional : Bool) : Steps source (memberName object isOptional) :=
  (carries_memberName object isOptional).steps

instance (object : Node) (isOptional : Bool) : Steps source (indexAccess r object isOptional) :=
  (carries_indexAccess r object isOptional).steps

instance (object : Node) : Steps source (optionalAccess r object) :=
  (carries_optionalAccess r object).steps

instance : Moves source (argumentsInExpression r) := by
  unfold argumentsInExpression
  refine .left fun _ ↦ .bind fun _ ↦ .bind fun _ ↦ .bind fun _ ↦ .bind fun _ ↦ .bind fun t ↦ ?_
  split <;> infer_instance

/-- The accesses behind an operand carry what is in it, and there are none or they are read. -/
theorem loop_accesses (source : List Char) [Rules.Sound source r] (allowsCalls : Bool)
    (start : Node) :
    Carries source false (imports (start, false)) (accesses r allowsCalls start) ∧
      ∀ t, ExtendsFrom source t (start, false) (accesses r allowsCalls start) := by
  unfold accesses
  refine loop_repeatFrom (fun (e, isChain) ↦ .step fun t ↦ ?_)
    (fun t (e, isChain) ↦ .peek ?_) (start, false)
  · split
    · exact .ite inferInstance (.bind fun _ ↦ .pure)
    · refine .ite (.step fun _ ↦ .along [] (carries_memberName e false) fun _ ↦ .pure) (.ite
        (.ite (.step fun _ ↦ .along [] (carries_optionalAccess r e) fun _ ↦ .pure) inferInstance)
        (.ite (.step fun _ ↦ .ite (.along [] (carries_indexAccess r e false) fun _ ↦ .pure) .pure)
          (.ite (.ite (.bind fun _ ↦ .pure) .pure) (.step fun _ ↦ .ite (.ite
            (.step fun _ ↦ .pure) (.ite (.step fun o ↦ ?_) .pure)) .pure))))
      cases o with
      | none => exact .pure
      | some _ => exact .pure
    · exact .pure
  · split
    · infer_instance
    · next hkind =>
      have := movesFrom_skip source (t := t) (by rw [Token.isWritten, hkind])
      exact .ite inferInstance (.ite inferInstance (.ite inferInstance (.ite inferInstance
        (.stay fun _ ↦ .ite (fun _ ↦ .ite inferInstance
          (.ite (fun _ ↦ .attempt inferInstance fun _ ↦ inferInstance) inferInstance))
            inferInstance))))
    · infer_instance

theorem imports_markPure (e : Node) : imports (markPure e) = imports e := by
  fun_induction markPure e with
  | case1 f args isOptional isPure => simp [imports_of_children, Node.children]
  | case2 f args isPure => simp [imports_of_children, Node.children]
  | case3 e ih => simpa [imports_of_children, Node.children] using ih
  | case4 e ih => simpa [imports_of_children, Node.children] using ih
  | case5 => rfl

theorem isImportCall_markPure {e : Node} (h : isImportCall e = true) :
    isImportCall (markPure e) = true := by
  unfold isImportCall at h
  split at h
  · rfl
  · cases h

/-- What is known of a call does not change the dynamic imports in it. -/
theorem imports_finished (isPure isChain : Bool) (e : Node) :
    imports (if isPure then markPure (if isChain then .chain e else e)
      else if isChain then .chain e else e) = imports e := by
  cases isPure <;> cases isChain <;>
    simp [imports_markPure, imports_of_children, Node.children]

instance : Expresses source isImportCall (Grammar.leftHandSide r) where
  fits {ctx c c' n} hc h := by
    unfold Grammar.leftHandSide at h
    obtain ⟨t, c₁, hpeek, h⟩ := exists_of_bind_eq_some h
    cases Stays.stays hpeek
    obtain ⟨e, c₁, he, h⟩ := exists_of_bind_eq_some h
    obtain ⟨⟨e', isChain⟩, c₂, haccesses, h⟩ := exists_of_bind_eq_some h
    cases h
    have hfirst : Fits source isImportCall c e c₁ := Expresses.fits hc he
    have hplace := hfirst.found.reading.place
    obtain ⟨hcarries, hextends⟩ := loop_accesses r source true e
    have hnext : Found source false (imports e) c₁ (imports e') c' := by
      simpa using hcarries.found hplace haccesses
    rw [← imports_finished t.isPure isChain e'] at hnext
    -- Without accesses, the operand itself is what is read; with some, more than it is read.
    rcases (hextends _).eq_or_moves hplace rfl haccesses with ⟨heq, rfl⟩ | hmoved
    · cases heq
      refine ⟨hfirst.found.trans hnext, hfirst.moved, fun p hp hstart hstop ↦ ?_⟩
      rw [imports_finished] at hp
      have hcall := hfirst.bare p hp hstart hstop
      cases t.isPure
      · exact hcall
      · exact isImportCall_markPure hcall
    · exact .of_lt hfirst.found hfirst.moved hnext (Nat.lt_of_le_of_lt hplace.last_le hmoved)

instance : Carries source false [] (Grammar.constructed r) := by
  unfold Grammar.constructed
  exact .bind fun e ↦ .step fun _ ↦ .along [] (loop_accesses r source false e).1 fun (e', _) ↦ .pure

/-! ## Operators -/

theorem isWritten_of_updateOperator {t : Token} {op : UpdateOperator}
    (h : updateOperator t = some op) : t.isWritten = true := by
  unfold updateOperator at h
  unfold Token.isWritten
  split at h
  · next hkind => rw [hkind]
  · next hkind => rw [hkind]
  · cases h

theorem isWritten_of_unaryOperator {t : Token} {op : UnaryOperator}
    (h : unaryOperator t = some op) : t.isWritten = true := by
  unfold unaryOperator at h
  unfold Token.isWritten
  split at h
  all_goals first
    | next hkind => rw [hkind]
    | cases h

instance : Expresses source isImportCall (postfixed r) := by
  unfold postfixed
  refine .bind (fun t e ↦ .peek ?_) fun e ↦ .step fun t ↦ ?_
  · split
    · next hop =>
      have := movesFrom_skip source (isWritten_of_updateOperator hop)
      infer_instance
    · infer_instance
  · split
    · exact .ite .pure (.step fun _ ↦ .step fun _ ↦ .pure)
    · exact .pure

instance : Opens source [] (typeAssertion r) := by
  unfold typeAssertion
  exact .first fun _ ↦ .step fun _ ↦ .step fun _ ↦ inferInstance

instance : Expresses source isImportCall (Grammar.unary r) := by
  unfold Grammar.unary
  refine .peek fun t ↦ ?_
  split
  · next op hop =>
    exact .first (movesFrom_skip source (isWritten_of_unaryOperator hop)) fun _ ↦
      .bind fun _ ↦ .step fun _ ↦ .step fun _ ↦ .pure
  · next op hop _ =>
    exact .first (movesFrom_skip source (isWritten_of_updateOperator hop)) fun _ ↦
      .bind fun _ ↦ .step fun _ ↦ .pure
  · refine .stay fun isAsync ↦ .ite (fun hawait ↦ ?_) (.stay fun _ ↦ .stay fun _ ↦
      .ite (fun _ ↦ .of_opens inferInstance) inferInstance)
    rw [Bool.and_eq_true] at hawait
    exact .first (movesFrom_skip source (isWritten_of_isWord hawait.1)) fun _ ↦ .bind fun _ ↦ .pure

instance : Stays binaryOperator := by
  unfold binaryOperator
  refine .bind fun t ↦ ?_
  split
  · infer_instance
  · infer_instance
  · refine .bind fun o ↦ ?_
    split <;> infer_instance
  · infer_instance

instance (level : Nat) : Expresses source isImportCall (firstOperand r level) := by
  unfold firstOperand
  refine .peek fun t ↦ ?_
  split
  · exact .of_opens (.step fun _ ↦ .step fun _ ↦ .first fun _ ↦ .bind fun _ ↦ .pure)
  · infer_instance

instance (level : Nat) : Expresses source isImportCall (Grammar.operand r level) := by
  unfold Grammar.operand
  refine .loop (fun left ↦ .step fun t ↦ .step fun isTyped ↦ .ite ?_ (.step fun o ↦ ?_))
    (fun t left ↦ .peek (.stay fun isTyped ↦ .ite (fun hcast ↦ ?_) (.stay fun o ↦ ?_)))
  · exact .step fun _ ↦ .step fun _ ↦ .ite (.step fun _ ↦ .pure) .pure
  · cases o with
    | none => exact .pure
    | some o => exact .ite .pure (.step fun _ ↦ .bind fun _ ↦ .step fun _ ↦ .pure)
  · simp only [Bool.and_eq_true, Bool.or_eq_true] at hcast
    have := movesFrom_skip source
      (hcast.1.1.1.elim isWritten_of_isWord isWritten_of_isWord)
    infer_instance
  · cases o with
    | none => infer_instance
    | some o => exact .ite inferInstance inferInstance

/-! ## Assignments -/

instance : Opens source [] (yieldExpression r) := by
  unfold yieldExpression
  exact .first fun _ ↦ .step fun _ ↦ .ite .pure (.step fun _ ↦ .step fun t ↦
    .ite .pure (.bind fun _ ↦ .pure))

theorem opens_conditionalRest (source : List Char) [Rules.Sound source r] (test : Node) :
    Opens source (imports test) (conditionalRest r test) := by
  unfold conditionalRest
  exact .first fun _ ↦ .bind fun _ ↦ .step fun _ ↦ .bind fun _ ↦ .pure

instance : Stays assignmentOperator := by
  unfold assignmentOperator
  refine .bind fun o ↦ ?_
  split <;> infer_instance

instance (t : Token) : ExtendsFrom source t none (arrow r) := by
  unfold arrow
  exact .stay fun _ ↦ .stay fun _ ↦ .ite inferInstance (.ite inferInstance
    (.stay fun _ ↦ .ite inferInstance (.stay fun _ ↦ .ite inferInstance inferInstance)))

/-- What is assigned to is read from the place where the expression starts, and takes some room. -/
theorem found_assigned {op : AssignmentOperator} {start c c' : Cursor} {ctx : Context} {e t : Node}
    (hstart : start.At source) (he : Found source false [] start (imports e) c)
    (hmoved : start.token.span.start < c.lastStop)
    (h : assigned r op start e ctx c = some (t, c')) :
    Found source false [] start (imports t) c' ∧ start.token.span.start < c'.lastStop := by
  unfold assigned at h
  split at h
  · exact found_asTarget r hstart he hmoved h
  · obtain ⟨u, c₁, hguard, h⟩ := exists_of_bind_eq_some h
    cases Stays.stays hguard
    cases h
    exact ⟨he, hmoved⟩

instance : Expresses source isImportCall (Grammar.assignment r) := by
  unfold Grammar.assignment
  -- An arrow function starts with a token of its own; what is left is an operand with what follows.
  suffices hoperation : Expresses source isImportCall (do
      let start ← place
      let left ← Grammar.operand r 0
      match ← assignmentOperator with
      | some (op, s) =>
        let target ← assigned r op start left
        takeOperator s
        return Node.assignment op target (← r.assignment)
      | none => if ← isAtMark "?" then conditionalRest r left else return left) from
    .of_tokens fun t ↦ .stay fun _ ↦ .stay fun _ ↦ .ite (fun _ ↦ .of_opens inferInstance)
      (.choice inferInstance inferInstance inferInstance fun _ ↦ .pure)
  refine ⟨fun {ctx c c' n} hc h ↦ ?_⟩
  obtain ⟨start, c₁, hplace, h⟩ := exists_of_bind_eq_some h
  cases hplace
  obtain ⟨left, c₁, hleft, h⟩ := exists_of_bind_eq_some h
  have hoperand : Fits source isImportCall c left c₁ := Expresses.fits hc hleft
  have hplace := hoperand.found.reading.place
  obtain ⟨o, c₂, hoperator, h⟩ := exists_of_bind_eq_some h
  cases Stays.stays hoperator
  cases o with
  | some o =>
    obtain ⟨target, c₂, htarget, h⟩ := exists_of_bind_eq_some h
    obtain ⟨hassigned, hmoved⟩ := found_assigned r hc hoperand.found hoperand.moved htarget
    have hcarries : Carries source false (imports target) (do
        takeOperator o.2
        return Node.assignment o.1 target (← r.assignment)) := .step fun _ ↦ .bind fun _ ↦ .pure
    have hmoves : Moves source (do
        takeOperator o.2
        return Node.assignment o.1 target (← r.assignment)) := inferInstance
    have hplace := hassigned.reading.place
    exact .of_lt hassigned hmoved (hcarries.found hplace h)
      (Nat.lt_of_le_of_lt hplace.last_le (hmoves.moves hplace h))
  | none =>
    obtain ⟨isConditional, c₂, hmark, h⟩ := exists_of_bind_eq_some h
    cases Stays.stays hmark
    split at h
    · have hrest := opens_conditionalRest r source left
      exact .of_lt hoperand.found hoperand.moved (hrest.carries.found hplace h).early
        (Nat.lt_of_le_of_lt hplace.last_le (hrest.moves.moves hplace h))
    · cases h
      exact hoperand

instance : Expresses source isImportCall (Grammar.expression r) := by
  unfold Grammar.expression
  refine .commaSeparated (fun _ ↦ rfl) (fun es ↦ ?_) fun es ↦ ?_
  · split <;> infer_instance
  · split <;> exact .pure

end Downlevel.Script.Grammar
