import Downlevel.Proofs.Script.Grammar.Type

/-!
# What patterns carry

A pattern that was read as a value is read again, and then only what is found the second time
counts.
-/

namespace Downlevel.Script.Grammar

variable {source : List Char} (r : Rules) [Rules.Sound source r]

theorem carries_withDefault (pattern : Node) :
    Carries source false (imports pattern) (withDefault r pattern) := by
  unfold withDefault
  exact .step fun _ ↦ .ite (.bind fun _ ↦ .pure) .pure

section

variable {element rest : Reader Node} [Carries source false [] element]
  [Carries source false [] rest]

instance : Opens source [] (arrayPattern element rest) := by
  unfold arrayPattern
  refine .first fun _ ↦ .loop (fun (es, isLast) ↦ ?_) fun (es, _) ↦ .step fun _ ↦ .pure
  exact .step fun _ ↦ .ite .pure (.step fun _ ↦ .ite .pure
    (.step fun _ ↦ .ite (.bind fun _ ↦ .pure) (.bind fun _ ↦ .step fun _ ↦ .ite
      (.step fun _ ↦ .pure) .pure)))

instance : Stays isKeyed := by
  unfold isKeyed
  infer_instance

instance : Carries source false [] (patternProperty r element) := by
  unfold patternProperty
  exact .step fun _ ↦ .ite (.bind fun _ ↦ .step fun _ ↦ .bind fun _ ↦ .pure)
    (.step fun _ ↦ .step fun _ ↦ .ite (.bind fun _ ↦ .pure) .pure)

instance : Opens source [] (objectPattern r element rest) := by
  unfold objectPattern
  refine .first fun _ ↦ .loop (fun (ps, isLast) ↦ ?_) fun (ps, _) ↦ .step fun _ ↦ .pure
  exact .step fun _ ↦ .ite .pure (.step fun _ ↦ .ite (.bind fun _ ↦ .pure)
    (.bind fun _ ↦ .step fun _ ↦ .ite (.step fun _ ↦ .pure) .pure))

end

/-! ## Binding names -/

instance : Carries source false [] (bindingElement r) := by
  unfold bindingElement
  exact .bind fun p ↦ carries_withDefault r p

instance : Opens source [] (do return .identifier (← name) : Reader Node) :=
  .first fun _ ↦ .pure

instance : Opens source [] (Grammar.binding r) := by
  unfold Grammar.binding
  exact .step fun _ ↦ .ite inferInstance (.ite inferInstance inferInstance)

/-! ## Assigning to places -/

instance : Carries source false [] (targetElement r) := by
  unfold targetElement
  exact .bind fun p ↦ carries_withDefault r p

instance : Opens source [] (targetPattern r) := by
  unfold targetPattern
  exact .step fun _ ↦ .ite (.lead fun _ ↦ .step fun _ ↦ .step fun _ ↦ .pure)
    (.lead fun _ ↦ .step fun _ ↦ .step fun _ ↦ .pure)

instance : Carries source false [] (Grammar.target r) := by
  unfold Grammar.target
  refine .step fun t ↦ .ite (.bind fun pattern ↦ ?_) (.bind fun pattern ↦ ?_) <;>
  · cases pattern with
    | none => exact .bind fun _ ↦ .step fun _ ↦ .pure
    | some p => exact .pure

/-- What an expression is as a target is read from the place where the expression starts. -/
theorem found_asTarget {start c c' : Cursor} {ctx : Context} {e t : Node} (hstart : start.At source)
    (he : Found source false [] start (imports e) c)
    (hmoved : start.token.span.start < c.lastStop)
    (h : asTarget r start e ctx c = some (t, c')) :
    Found source false [] start (imports t) c' ∧ start.token.span.start < c'.lastStop := by
  unfold asTarget at h
  split at h
  -- What was found in the form of a pattern is dropped, as it is read again from its start.
  · obtain ⟨u, c₁, hback, h⟩ := exists_of_bind_eq_some h
    cases hback
    exact ⟨Carries.found hstart h, Moves.moves hstart h⟩
  · obtain ⟨u, c₁, hguard, h⟩ := exists_of_bind_eq_some h
    cases Stays.stays hguard
    cases h
    exact ⟨he, hmoved⟩

end Downlevel.Script.Grammar
