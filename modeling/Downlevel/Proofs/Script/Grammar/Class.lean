import Downlevel.Proofs.Script.Grammar.Function

/-!
# What classes carry
-/

namespace Downlevel.Script.Grammar

variable {source : List Char} (r : Rules) [Rules.Sound source r]

instance : Steps source modifiers := by
  unfold modifiers
  infer_instance

instance : Steps source methodWords := by
  unfold methodWords
  refine .bind fun t ↦ .bind fun following ↦ .ite (.bind fun _ ↦ ?_) ?_ <;>
  exact .bind fun _ ↦ .bind fun _ ↦ .bind fun _ ↦ inferInstance

instance : Stays isAtParameters := by
  unfold isAtParameters
  infer_instance

theorem carries_fieldRest (ds : List Node) (words : List String) (key : Node) :
    Carries source false (imports ds ++ imports key) (fieldRest r ds words key) := by
  unfold fieldRest
  refine .step fun _ ↦ .ite (.step fun _ ↦ ?_) ?_ <;>
  · refine .step fun _ ↦ .step fun _ ↦ .ite (.bind fun _ ↦ .value ?_) (.value ?_) <;>
    exact .step fun _ ↦ .step fun _ ↦ .pure

theorem carries_elementRest (ds : List Node) (words : List String) :
    Carries source false (imports ds) (elementRest r ds words) := by
  unfold elementRest
  refine .step fun (isAsync, isGenerator, kind) ↦ .bind fun key ↦ .step fun _ ↦ .step fun _ ↦
    .ite (.bind fun _ ↦ .step fun _ ↦ .pure) (carries_fieldRest r ds words key)

instance : Carries source false [] (classElement r) := by
  unfold classElement
  refine .step fun _ ↦ .ite .pure (.step fun t ↦ .bind fun ds ↦ ?_)
  refine .step fun _ ↦ .step fun _ ↦ .ite (.step fun _ ↦ .bind fun _ ↦ .value ?_) (.step fun _ ↦ ?_)
  · exact .step fun _ ↦ .pure
  · refine .step fun _ ↦ .ite (.step fun isIndex ↦ ?_) (.step fun isIndex ↦ ?_) <;>
    · cases isIndex with
      | some _ => exact .step fun _ ↦ .value (.step fun _ ↦ .pure)
      | none => exact .along [] (carries_elementRest r ds _) fun _ ↦ .step fun _ ↦ .pure

instance : Opens source [] (classBody r) := by
  unfold classBody
  exact .first fun _ ↦ .bind fun _ ↦ .step fun _ ↦ .pure

theorem opens_classRest (ds : List Node) : Opens source (imports ds) (classRest r ds) := by
  unfold classRest
  refine .first fun _ ↦ .step fun t ↦ .step fun _ ↦ .ite (.step fun _ ↦ ?_) (.step fun _ ↦ ?_) <;>
  · refine .step fun _ ↦ .step fun _ ↦ .ite (.bind fun _ ↦ .step fun _ ↦ .step fun _ ↦
      .ite (.step fun _ ↦ .value ?_) (.value ?_)) (.value ?_) <;>
    · refine .step fun _ ↦ .ite (.step fun _ ↦ .ite (.step fun _ ↦ ?_) ?_)
        (.step fun _ ↦ .ite (.step fun _ ↦ ?_) ?_) <;>
      exact .bind fun _ ↦ .pure

end Downlevel.Script.Grammar
