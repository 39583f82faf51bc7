import Downlevel.Proofs.CommonJs.LineCount

/-!
# Statements that stay

Statements that are neither imports nor exports nor moved calls, and that have no dynamic import in
them, stand unchanged in the converted script and in their order, if no line of theirs is taken for
a comment with a map. That is a property of the text only. What is taken out between two statements
can be what kept them apart: without a semicolon at its end, a statement goes on in what follows a
statement that was cut out.
-/

namespace Downlevel.CommonJs

open Script Text

variable {features : Features} {source : List Char} {m : Module}

/-! ## Plain statements -/

/-- Whether a statement is neither an import nor an export nor a call that can be moved. -/
def isPlain : Node → Bool
  | .item _ _ (.importDeclaration _) | .item _ _ (.exportDefault ..)
  | .item _ _ (.exportDeclaration ..) | .item _ _ (.exportList _)
  | .item _ _ (.exportAll _) => false
  | .item _ _ (.expressionStatement e) => !isHoisted e
  | _ => true

/-- No edit reaches into a statement that calls for none and has no dynamic import in it. -/
theorem WellPlaced.untouched_of_nil (h : WellPlaced source m) {n : Node} (hn : n ∈ m.items)
    (hedits : editsOf features source n = []) (hcontent : content n = itemSpan n)
    (houtside : ∀ p ∈ dynamicImports m, ¬p.1.Nested (itemSpan n)) :
    Untouched features source m n := by
  intro e he
  rcases mem_recordedEdits.mp he with ⟨n', hn', he⟩ | he
  · by_cases hsame : n' = n
    · -- The statement has no edits of its own, and those of others stay in their statements.
      rw [hsame, hedits] at he
      cases he
    · have hinside := h.edit_inside hn' he
      have hitems := h.items_apart hn' hn hsame
      unfold Span.Apart at *
      omega
  · obtain ⟨-, p, hp, rfl⟩ := mem_promisesOf he
    have hplaced := h.import_placed p hp n hn
    rw [hcontent] at hplaced
    exact hplaced.resolve_left (houtside p hp)

/-- The texts of the statements of a script. -/
def statementTexts (source : List Char) (m : Module) : List (List Char) :=
  m.items.map fun n ↦ slice source (itemSpan n)

end Downlevel.CommonJs
