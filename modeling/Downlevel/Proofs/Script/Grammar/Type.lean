import Downlevel.Proofs.Script.Grammar.Fitting

/-!
# What types read

Types leave nothing behind, so all there is to say of their rules is that they move on.
-/

namespace Downlevel.Script.Grammar

variable {source : List Char}

/-- What is known of the rules that others enter. -/
class Rules.Sound (source : List Char) (r : Rules) : Prop where
  type : Steps source r.type
  typeOperand : Steps source r.typeOperand
  assignment : Expresses source isImportCall r.assignment
  expression : Expresses source isImportCall r.expression
  unary : Expresses source isImportCall r.unary
  operand (level : Nat) : Expresses source isImportCall (r.operand level)
  leftHandSide : Carries source false [] r.leftHandSide
  constructed : Carries source false [] r.constructed
  binding : Carries source false [] r.binding
  target : Carries source false [] r.target
  statement (isSingle : Bool) : Carries source false [] (r.statement isSingle)

attribute [instance] Rules.Sound.type Rules.Sound.typeOperand Rules.Sound.assignment
  Rules.Sound.expression Rules.Sound.unary Rules.Sound.operand Rules.Sound.leftHandSide
  Rules.Sound.constructed Rules.Sound.binding Rules.Sound.target Rules.Sound.statement

set_option synthInstance.maxSize 1000

section Types

variable (r : Rules) [Rules.Sound source r]

instance {α : Type} {p : Reader α} [Steps source p] : Steps source (freely p) :=
  inferInstanceAs (Steps source (within _ p))

instance (n : Node) : Steps source (noteInType n) where
  reading hc h := by
    cases h
    exact .note hc _ _

instance : Steps source (typeArguments r) := by
  unfold typeArguments
  infer_instance

instance : Steps source (typeParameter r) := by
  unfold typeParameter
  dsimp only
  infer_instance

instance : Steps source (typeParameters r) := by
  unfold typeParameters
  infer_instance

instance : Steps source <| annotation r := by
  unfold annotation
  infer_instance

instance : Steps source <| optionalAnnotation r := by
  unfold optionalAnnotation
  infer_instance

instance : Steps source optionalMark := by
  unfold optionalMark
  infer_instance

instance : Steps source (typeFunctionParameter r) := by
  unfold typeFunctionParameter
  infer_instance

instance : Steps source (typeFunctionParameters r) := by
  unfold typeFunctionParameters
  infer_instance

instance : Steps source (signature r) := by
  unfold signature
  infer_instance

instance : Steps source memberEnd := by
  unfold memberEnd
  infer_instance

instance : Opens source [] (computedKey r) := by
  unfold computedKey
  exact .first fun _ ↦ .bind fun _ ↦ .step fun _ ↦ .pure

instance : Carries source false [] (memberKey r) := by
  unfold memberKey
  refine .step fun t ↦ ?_
  split
  · exact .step fun _ ↦ .pure
  · exact .step fun _ ↦ .pure
  · exact .step fun _ ↦ .pure
  · exact .step fun _ ↦ .pure
  · exact .step fun _ ↦ .pure
  · infer_instance

instance : Steps source (indexSignature r) := by
  unfold indexSignature
  infer_instance

instance : Steps source (propertySignature r) := by
  unfold propertySignature
  infer_instance

instance (words : List String) : Steps source (skipModifier words) := by
  unfold skipModifier
  infer_instance

instance : Steps source (typeMember r) := by
  unfold typeMember
  refine .bind fun _ ↦ .bind fun _ ↦ .bind fun t ↦ .ite inferInstance
    (.bind fun _ ↦ .bind fun _ ↦ .ite inferInstance (.bind fun o ↦ ?_))
  cases o <;> infer_instance

instance : Steps source (typeMembers r) := by
  unfold typeMembers
  infer_instance

instance : Steps source skipSign := by
  unfold skipSign
  infer_instance

instance : Steps source (mappedType r) := by
  unfold mappedType
  refine .bind fun _ ↦ .bind fun _ ↦ .bind fun _ ↦ .bind fun _ ↦ .bind fun _ ↦ .bind fun _ ↦
    .bind fun _ ↦ .bind fun _ ↦ .ite (.bind fun _ ↦ ?_) ?_ <;> infer_instance

instance : Steps source (tupleElement r) := by
  unfold tupleElement
  infer_instance

instance : Steps source dottedTail := by
  unfold dottedTail
  refine .repeats fun _ ↦ .bind fun _ ↦ .ite (.bind fun t ↦ ?_) inferInstance
  split <;> infer_instance

instance : Steps source (optionalTypeArguments r) := by
  unfold optionalTypeArguments
  infer_instance

instance : Steps source (importType r) := by
  unfold importType
  exact .bind fun _ ↦ .bind fun _ ↦ .bind fun _ ↦ .bind fun _ ↦
    .ite (.bind fun _ ↦ .ite inferInstance inferInstance) inferInstance

instance : Steps source (templateType r) := by
  unfold templateType
  infer_instance

instance : Steps source (typeReference r) := by
  unfold typeReference
  infer_instance

instance : Steps source (basicType r) := by
  unfold basicType
  refine .bind fun t ↦ ?_
  split <;> try infer_instance
  · refine .ite (.bind fun _ ↦ .bind fun next ↦ ?_) (.ite (.bind fun o ↦ ?_) inferInstance)
    · split <;> infer_instance
    · cases o <;> infer_instance

instance : Steps source (postfixType r) := by
  unfold postfixType
  dsimp only
  infer_instance

instance : Steps source (inferredBound r) := by
  unfold inferredBound
  infer_instance

instance : Steps source (typeOperand r) := by
  unfold typeOperand
  dsimp only
  infer_instance

instance (m : String) (p : Reader Unit) [Steps source p] : Steps source (joined m p) := by
  unfold joined
  infer_instance

instance : Steps source (functionTypeHead r) := by
  unfold functionTypeHead
  infer_instance

instance : Steps source (Grammar.type r) := by
  unfold Grammar.type
  refine .bind fun t ↦ .bind fun _ ↦ .ite inferInstance
    (.ite (.bind fun _ ↦ .bind fun isFunction ↦ ?_) (.bind fun isFunction ↦ ?_)) <;>
  exact .ite inferInstance inferInstance

instance : Steps source (argumentsInExpression r) := by
  unfold argumentsInExpression
  refine .bind fun _ ↦ .bind fun _ ↦ .bind fun _ ↦ .bind fun _ ↦ .bind fun _ ↦ .bind fun t ↦ ?_
  split <;> infer_instance

end Types

end Downlevel.Script.Grammar
