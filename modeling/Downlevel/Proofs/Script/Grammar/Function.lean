import Downlevel.Proofs.Script.Grammar.Pattern

/-!
# What functions carry
-/

namespace Downlevel.Script.Grammar

variable {source : List Char} (r : Rules) [Rules.Sound source r]

/-! ## Statements in a row -/

instance (isEnd : Token → Bool) : Carries source false [] (statements r isEnd) := by
  unfold statements
  refine .loop (fun (items, isStart) ↦ ?_) fun (items, _) ↦ .pure
  refine .step fun t ↦ .ite .pure (.bind fun item ↦ ?_)
  split
  · exact .pure
  · exact .pure

instance : Opens source [] (blockItems r) := by
  unfold blockItems
  exact .first fun _ ↦ .bind fun _ ↦ .step fun _ ↦ .pure

instance {α : Type} [HasImports α] {late : Bool} {known : List (Span × Span)}
    (isAsync isGenerator : Bool) {p : Reader α} [Carries source late known p] :
    Carries source late known (inFunction isAsync isGenerator p) :=
  inferInstanceAs (Carries source late known (within _ p))

instance : Opens source [] (functionBody r) := by
  unfold functionBody
  exact .first fun _ ↦ .bind fun _ ↦ .step fun _ ↦ .step fun _ ↦ .pure

/-! ## Parameters -/

instance : Opens source [] (decorator r) := by
  unfold decorator
  exact .step fun _ ↦ .first fun _ ↦ .bind fun _ ↦ .step fun _ ↦ .pure

instance : Carries source true [] (decorators r) := by
  unfold decorators
  infer_instance

instance : Steps source parameterModifiers := by
  unfold parameterModifiers
  infer_instance

instance : Carries source false [] (parameter r) := by
  unfold parameter
  refine .bind fun ds ↦ .ite (.step fun _ ↦ ?_) ?_ <;>
  · refine .step fun _ ↦ .step fun _ ↦ .step fun _ ↦ .ite (.step fun _ ↦ .step fun _ ↦ .pure)
      (.step fun _ ↦ .ite (.bind fun _ ↦ .step fun _ ↦ .pure) ?_)
    exact .bind fun p ↦ .step fun _ ↦ .step fun _ ↦
      .along (imports ds) (carries_withDefault r p) fun _ ↦ .pure

instance : Opens source [] (parameters r) := by
  unfold parameters
  exact .first fun _ ↦ .bind fun (ps, hasComma) ↦ .step fun _ ↦ .pure

/-! ## Functions -/

instance (name : Option String) (isAsync isGenerator : Bool) :
    Carries source false [] (functionRest r name isAsync isGenerator) := by
  unfold functionRest
  have : Carries source false [] (do
      typeParameters r
      let ps ← parameters r
      optionalAnnotation r
      if ← isAtMark openBrace then
        return .function name isAsync isGenerator ps (some (← functionBody r))
      else
        typedOnly
        semicolon
        return .function name isAsync isGenerator ps none : Reader Node) :=
    .step fun _ ↦ .bind fun _ ↦ .step fun _ ↦ .step fun _ ↦
      .ite (.bind fun _ ↦ .pure) (.step fun _ ↦ .step fun _ ↦ .pure)
  infer_instance

instance : Steps source optionalName := by
  unfold optionalName
  infer_instance

instance (isDeclaration : Bool) : Opens source [] (functionFromKeyword r isDeclaration) := by
  unfold functionFromKeyword
  exact .step fun _ ↦ .first fun _ ↦ .step fun _ ↦ .ite (.step fun _ ↦ .anew)
    (.step fun _ ↦ .anew)

instance : Opens source [] (functionExpression r) := by
  unfold functionExpression
  exact .lead fun _ ↦ .step fun _ ↦ .pure

/-! ## Arrow functions -/

instance (isAsync : Bool) : Carries source false [] (arrowBody r isAsync) := by
  unfold arrowBody
  exact .step fun _ ↦ .ite inferInstance inferInstance

instance : Steps source arrowMark := by
  unfold arrowMark
  infer_instance

instance (isAsync : Bool) : Opens source [] (parenthesizedArrow r isAsync) := by
  unfold parenthesizedArrow
  refine .step fun _ ↦ .lead fun ps ↦ .step fun _ ↦ .step fun _ ↦ .step fun _ ↦ .step fun _ ↦
    .bind fun _ ↦ .step fun _ ↦ .ite (.step fun _ ↦ .step fun _ ↦ .pure) .pure

instance (isAsync : Bool) : Opens source [] (simpleArrow r isAsync) := by
  unfold simpleArrow
  exact .first fun _ ↦ .step fun _ ↦ .bind fun _ ↦ .pure

instance (t : Token) : Stays (startsParameters t) := by
  unfold startsParameters
  infer_instance

instance : Carries source true [] (arrow r) := by
  unfold arrow
  have : Opens source [] (do
      skip
      simpleArrow r true) := .step fun _ ↦ .anew
  have : Opens source [] (do
      skip
      parenthesizedArrow r true) := .step fun _ ↦ .anew
  exact .step fun t ↦ .step fun following ↦ .ite (.bind fun _ ↦ .pure) (.ite inferInstance
    (.step fun _ ↦ .ite inferInstance (.step fun _ ↦ .ite inferInstance .pure)))

end Downlevel.Script.Grammar
