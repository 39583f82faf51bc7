import Downlevel.Proofs.Script.Grammar.Shape
import Downlevel.Typed.Gate

/-!
# Decorators of declarations

No expression declares a class, and a declaration with decorators in front of it is one of a class
that has exactly these decorators. A statement that exports nothing in its own place exports no
class.
-/

namespace Downlevel.Typed

open Script Script.Grammar

/-- A node that declares no class with decorators. -/
def IsPlain (n : Node) : Prop := classDecorators n = []

variable {r : Rules}

/-! ## Expressions -/

section Expressions

variable {o : Option Node} {n : Node}

theorem always_simpleArrow (isAsync : Bool) : Always IsPlain (simpleArrow r isAsync) := by
  unfold simpleArrow
  exact .step fun _ ↦ .step fun _ ↦ .step fun _ ↦ .pure rfl

theorem always_parenthesizedArrow (isAsync : Bool) :
    Always IsPlain (parenthesizedArrow r isAsync) := by
  unfold parenthesizedArrow
  exact .step fun _ ↦ .step fun _ ↦ .step fun _ ↦ .step fun _ ↦ .step fun _ ↦ .step fun _ ↦
    .step fun _ ↦ .step fun _ ↦ .ite (.step fun _ ↦ .step fun _ ↦ .pure rfl) (.pure rfl)

theorem always_arrow : Always (fun o ↦ ∀ n ∈ o, IsPlain n) (arrow r) := by
  unfold arrow
  refine .step fun t ↦ .step fun following ↦ .ite ?_ (.ite ?_ (.step fun _ ↦ .ite ?_
    (.step fun _ ↦ .ite ?_ .pure_none)))
  · exact .return_some (always_simpleArrow false)
  · exact .attempt (.step fun _ ↦ always_simpleArrow true)
  · exact .attempt (.step fun _ ↦ always_parenthesizedArrow true)
  · exact .attempt (always_parenthesizedArrow false)

theorem always_functionFromKeyword (isDeclaration : Bool) :
    Always IsPlain (functionFromKeyword r isDeclaration) := by
  have hrest (name : Option String) (isAsync isGenerator : Bool) :
      Always IsPlain (functionRest r name isAsync isGenerator) := by
    unfold functionRest inFunction
    refine .within _ ?_
    exact .step fun _ ↦ .step fun _ ↦ .step fun _ ↦ .step fun _ ↦
      .ite (.step fun _ ↦ .pure rfl) (.step fun _ ↦ .step fun _ ↦ .pure rfl)
  unfold functionFromKeyword
  exact .step fun _ ↦ .step fun _ ↦ .step fun _ ↦
    .ite (.step fun _ ↦ hrest _ _ _) (.step fun _ ↦ hrest _ _ _)

theorem always_functionExpression : Always IsPlain (functionExpression r) := by
  unfold functionExpression
  exact .bind (always_functionFromKeyword false) fun f hf ↦ .step fun _ ↦ .pure hf

/-- A class that is no declaration declares nothing. -/
theorem always_plainClass (ds : List Node) : Always IsPlain (classRest r ds) := by
  refine (always_classRest r ds).mono ?_
  rintro n ⟨name, heritage, members, rfl⟩
  rfl

theorem always_construction : Always IsPlain (construction r) := by
  unfold construction
  refine .step fun _ ↦ .step fun _ ↦ .ite (.step fun _ ↦ .pure rfl) (.step fun _ ↦ .step fun _ ↦
    .step fun _ ↦ .ite (.step fun _ ↦ ?_) ?_) <;>
  exact .step fun _ ↦ .step fun _ ↦ .step fun _ ↦
    .ite (.step fun _ ↦ .pure rfl) (.step fun _ ↦ .pure rfl)

theorem always_importExpression : Always IsPlain (importExpression r) := by
  unfold importExpression
  refine .step fun _ ↦ .step fun _ ↦ .step fun _ ↦ .ite (.step fun _ ↦ .pure rfl)
    (.step fun _ ↦ .step fun _ ↦ .step fun _ ↦ .step fun _ ↦ .step fun _ ↦ .step fun _ ↦
      .ite (.step fun _ ↦ .step fun _ ↦ .step fun _ ↦ ?_) (.step fun _ ↦ ?_)) <;>
  exact .step fun _ ↦ .step fun _ ↦ .pure rfl

theorem always_wordOperand (t : Token) : Always IsPlain (wordOperand r t) := by
  have hsuper : Always IsPlain superExpression := by
    unfold superExpression
    exact .step fun _ ↦ .step fun _ ↦ .step fun _ ↦ .pure rfl
  unfold wordOperand
  exact .ite (.step fun _ ↦ .pure rfl) (.ite (.step fun _ ↦ .pure rfl)
    (.ite (.step fun _ ↦ .pure rfl) (.ite (.step fun _ ↦ .pure rfl) (.ite hsuper
      (.ite always_functionExpression (.ite (always_plainClass []) (.ite always_construction
        (.ite always_importExpression (.step fun _ ↦ .ite always_functionExpression
          (.step fun _ ↦ .pure rfl))))))))))

theorem always_templateLiteral : Always IsPlain (templateLiteral r) := by
  unfold templateLiteral
  exact .step (Prod.forall.mpr fun first isLast ↦ .step (Prod.forall.mpr fun chunks _ ↦
    .pure rfl))

theorem always_regexLiteral : Always IsPlain regexLiteral where
  yields {ctx c c' n} _ h := by
    unfold regexLiteral at h
    dsimp only at h
    split at h
    · cases h
      rfl
    · cases h

theorem always_primary : Always IsPlain (primary r) := by
  have hparenthesized : Always IsPlain (parenthesized r) := by
    unfold parenthesized
    exact .step fun _ ↦ .step fun _ ↦ .step fun _ ↦ .pure rfl
  have harray : Always IsPlain (arrayLiteral r) := by
    unfold arrayLiteral
    exact .step fun _ ↦ .step fun _ ↦ .step fun _ ↦ .pure rfl
  have hobject : Always IsPlain (objectLiteral r) := by
    unfold objectLiteral
    exact .step fun _ ↦ .step (Prod.forall.mpr fun properties _ ↦ .pure rfl)
  have hclass : Always IsPlain (decoratedClass r) := by
    unfold decoratedClass
    exact .step fun ds ↦ always_plainClass ds
  unfold primary
  refine .step fun t ↦ ?_
  split
  · exact always_wordOperand t
  · exact .step fun _ ↦ .pure rfl
  · exact .step fun _ ↦ .pure rfl
  · exact .step fun _ ↦ .pure rfl
  · exact .bind always_templateLiteral fun n hn ↦ .step fun _ ↦ .pure hn
  · exact .ite hparenthesized (.ite harray (.ite hobject (.ite always_regexLiteral
      (.ite hclass .fail))))
  · exact .fail

theorem always_memberName (isOptional : Bool) : Always IsPlain (memberName n isOptional) := by
  unfold memberName
  refine .step fun t ↦ ?_
  split
  · exact .step fun _ ↦ .pure rfl
  · exact .step fun _ ↦ .pure rfl
  · exact .fail

theorem always_indexAccess (isOptional : Bool) : Always IsPlain (indexAccess r n isOptional) := by
  unfold indexAccess
  exact .step fun _ ↦ .step fun _ ↦ .step fun _ ↦ .pure rfl

theorem always_optionalAccess : Always IsPlain (optionalAccess r n) := by
  unfold optionalAccess
  refine .step fun _ ↦ .step fun _ ↦ .ite (.step fun _ ↦ ?_) ?_ <;>
  exact .step fun _ ↦ .ite (.step fun _ ↦ .pure rfl)
    (.ite (always_indexAccess true) (always_memberName true))

theorem always_accesses (allowsCalls : Bool) (hn : IsPlain n) :
    Always (fun x ↦ IsPlain x.1) (accesses r allowsCalls n) := by
  unfold accesses
  refine .repeats hn fun (e, isChain) he ↦ .step fun t ↦ ?_
  split
  · exact .ite .fail (.step fun _ ↦ .pure_some rfl)
  · refine .ite (.step fun _ ↦ .bind (always_memberName false) fun m hm ↦ .pure_some hm)
      (.ite (.ite (.step fun _ ↦ .bind always_optionalAccess fun m hm ↦ .pure_some hm) .fail)
        (.ite (.step fun _ ↦ .ite (.bind (always_indexAccess false) fun m hm ↦ .pure_some hm)
          .pure_none) (.ite (.ite (.step fun _ ↦ .pure_some rfl) .pure_none)
            (.step fun _ ↦ .ite (.ite (.step fun _ ↦ .pure_some he)
              (.ite (.step fun o ↦ ?_) .pure_none)) .pure_none))))
    cases o with
    | none => exact .pure_none
    | some _ => exact .pure_some he
  · exact .pure_none

theorem isPlain_markPure (hn : IsPlain n) : IsPlain (markPure n) := by
  unfold markPure
  split
  · rfl
  · rfl
  · rfl
  · rfl
  · exact hn

theorem always_leftHandSide : Always IsPlain (leftHandSide r) := by
  unfold leftHandSide
  refine .step fun t ↦ .bind always_primary fun e he ↦ .bind (always_accesses true he)
    fun (e, isChain) he ↦ .pure ?_
  have hchain : IsPlain (if isChain = true then .chain e else e) := by
    split
    · rfl
    · exact he
  split
  · exact isPlain_markPure hchain
  · exact hchain

theorem always_postfixed : Always IsPlain (postfixed r) := by
  unfold postfixed
  refine .bind always_leftHandSide fun e he ↦ .step fun t ↦ ?_
  split
  · exact .ite (.pure he) (.step fun _ ↦ .step fun _ ↦ .pure rfl)
  · exact .pure he

/-- A type in angle brackets leaves nothing behind, so what follows it is asked for. -/
theorem always_unary (h : Always IsPlain r.unary) : Always IsPlain (unary r) := by
  have hassertion : Always IsPlain (typeAssertion r) := by
    unfold typeAssertion
    exact .step fun _ ↦ .step fun _ ↦ .step fun _ ↦ h
  unfold unary
  refine .step fun t ↦ ?_
  split
  · exact .step fun _ ↦ .step fun _ ↦ .step fun _ ↦ .step fun _ ↦ .pure rfl
  · exact .step fun _ ↦ .step fun _ ↦ .step fun _ ↦ .pure rfl
  · exact .step fun _ ↦ .ite (.step fun _ ↦ .step fun _ ↦ .pure rfl)
      (.step fun _ ↦ .step fun _ ↦ .ite hassertion always_postfixed)

theorem always_operand (h : Always IsPlain r.unary) (level : Nat) :
    Always IsPlain (operand r level) := by
  have hfirst : Always IsPlain (firstOperand r level) := by
    unfold firstOperand
    refine .step fun t ↦ ?_
    split
    · exact .step fun _ ↦ .step fun _ ↦ .step fun _ ↦ .step fun _ ↦ .pure rfl
    · exact always_unary h
  unfold operand
  refine .bind hfirst fun first hfirst ↦ .repeats hfirst fun left hleft ↦
    .step fun t ↦ .step fun isTyped ↦ .ite ?_ (.step fun o ↦ ?_)
  · exact .step fun _ ↦ .step fun _ ↦ .ite (.step fun _ ↦ .pure_some hleft)
      (.pure_some hleft)
  · cases o with
    | none => exact .pure_none
    | some o => exact .ite .pure_none (.step fun _ ↦ .step fun _ ↦ .step fun _ ↦
        .pure_some rfl)

theorem always_assignment (h : Always IsPlain r.unary) : Always IsPlain (assignment r) := by
  have hyield : Always IsPlain (yieldExpression r) := by
    unfold yieldExpression
    exact .step fun _ ↦ .step fun _ ↦ .ite (.pure rfl) (.step fun _ ↦ .step fun t ↦
      .ite (.pure rfl) (.step fun _ ↦ .pure rfl))
  have hconditional (test : Node) : Always IsPlain (conditionalRest r test) := by
    unfold conditionalRest
    exact .step fun _ ↦ .step fun _ ↦ .step fun _ ↦ .step fun _ ↦ .pure rfl
  unfold assignment
  refine .step fun _ ↦ .step fun _ ↦ .ite hyield (.bind always_arrow fun o ho ↦ ?_)
  cases o with
  | some f => exact .pure (ho f rfl)
  | none =>
    refine .step fun start ↦ .bind (always_operand h 0) fun left hleft ↦ .step fun o ↦ ?_
    cases o with
    | some o => exact .step fun _ ↦ .step fun _ ↦ .step fun _ ↦ .pure rfl
    | none => exact .step fun _ ↦ .ite (hconditional left) (.pure hleft)

theorem always_nested_unary (size : Nat) : Always IsPlain (Rules.nested size).unary := by
  induction size with
  | zero => exact ⟨fun _ h ↦ by cases h⟩
  | succ size ih => exact always_unary ih

theorem always_nested_assignment (size : Nat) : Always IsPlain (Rules.nested size).assignment := by
  cases size with
  | zero => exact ⟨fun _ h ↦ by cases h⟩
  | succ size => exact always_assignment (always_nested_unary size)

end Expressions

/-! ## Declarations -/

section Declarations

variable {ds : List Node} {ctx : Context} {c c' : Cursor} {n : Node}

/-- A declaration, of a class with given decorators or of something that has none. -/
def DeclaresWith (ds : List Node) (n : Node) : Prop := classDecorators n = ds ∨ IsPlain n

theorem DeclaresWith.ambient (h : DeclaresWith ds n) : DeclaresWith ds (.ambient n) := by
  cases n with
  | classDeclaration d =>
    cases d with
    | classDef => exact h
    | _ => exact .inr rfl
  | _ => exact .inr rfl

theorem isPlain_of_isTypedDeclaration (h : isTypedDeclaration n = true) : IsPlain n := by
  unfold isTypedDeclaration at h
  split at h <;> first
    | rfl
    | cases h

theorem always_declaration (ds : List Node) : Always (DeclaresWith ds) (declaration r ds) := by
  have hclass : Always (DeclaresWith ds) (classDeclaration r ds) := by
    refine (always_classDeclaration r ds).mono ?_
    rintro n ⟨name, heritage, members, rfl⟩
    exact .inl rfl
  have hvariables : Always IsPlain (variableStatement r false) := by
    unfold variableStatement
    exact .step (Prod.forall.mpr fun kind ds ↦ .step fun _ ↦ .step fun _ ↦ .step fun _ ↦
      .step fun _ ↦ .pure rfl)
  have hfunction : Always IsPlain (functionDeclaration r) := by
    unfold functionDeclaration
    refine .step fun f ↦ ?_
    split
    · exact .pure rfl
    · exact .fail
  unfold declaration
  refine .step fun _ ↦ .ite hclass (.step fun _ ↦ .step fun _ ↦ .step fun _ ↦
    .ite (.step fun _ ↦ hclass) (.step fun _ ↦ .bind (always_typedDeclaration r) fun o ho ↦ ?_))
  cases o with
  | some d => exact .pure (.inr (isPlain_of_isTypedDeclaration (ho d rfl)))
  | none => exact (YieldsWhere.step fun _ ↦ .ite hvariables hfunction).mono fun _ ↦ .inr

theorem always_decoratedDeclaration (ds : List Node) :
    Always (DeclaresWith ds) (decoratedDeclaration r ds) := by
  have hambient : Always (DeclaresWith ds) (ambientDeclaration r ds) := by
    unfold ambientDeclaration
    exact .step fun _ ↦ .bind (Always.within _ (always_declaration ds)) fun n hn ↦ .pure hn.ambient
  unfold decoratedDeclaration
  exact .step fun _ ↦ .ite hambient (always_declaration ds)

end Declarations

/-! ## Statements that export no class -/

section Statements

variable {n : Node}

/-- The body of a statement that exports no class with decorators. -/
def ExportsPlain (body : Node) : Prop :=
  ∀ span leading, exportedDecorators (.item span leading body) = []

theorem exportsPlain_of_isInner (h : isInner n = true) : ExportsPlain n := by
  intro span leading
  cases n <;> first
    | rfl
    | cases h

theorem exportsPlain_of_isExportClause (h : isExportClause n = true) : ExportsPlain n := by
  intro span leading
  cases n <;> first
    | rfl
    | cases h

theorem always_importEquals (isType : Bool) :
    Always (fun n ↦ IsPlain n ∧ ExportsPlain n) (importEquals isType) := by
  unfold importEquals
  exact .step fun _ ↦ .step fun _ ↦ .step fun _ ↦ .step fun _ ↦
    .ite (.step fun _ ↦ .step fun _ ↦ .step fun _ ↦ .step fun _ ↦ .step fun _ ↦ .step fun _ ↦
      .pure ⟨rfl, fun _ _ ↦ rfl⟩)
    (.step fun _ ↦ .step fun _ ↦ .step fun _ ↦ .pure ⟨rfl, fun _ _ ↦ rfl⟩)

theorem always_importDeclaration : Always ExportsPlain importDeclaration := by
  have hfrom (isType : Bool) : Always ExportsPlain (importFrom isType) := by
    unfold importFrom
    exact .step fun _ ↦ .step fun _ ↦ .step (Prod.forall.mpr fun source attributes ↦
      .pure fun _ _ ↦ rfl)
  have hequals (isType : Bool) : Always ExportsPlain (importEquals isType) :=
    (always_importEquals isType).mono fun _ ↦ And.right
  unfold importDeclaration
  refine .step fun _ ↦ .step fun t ↦ ?_
  split
  · exact .step (Prod.forall.mpr fun source attributes ↦ .pure fun _ _ ↦ rfl)
  · refine .firstOf ?_
    simp only [List.forall_mem_cons]
    exact ⟨hfrom false, .step fun _ ↦ .step fun _ ↦ hfrom true, .step fun _ ↦ hequals false,
      .step fun _ ↦ .step fun _ ↦ hequals true, List.forall_mem_nil _⟩

end Statements

end Downlevel.Typed
