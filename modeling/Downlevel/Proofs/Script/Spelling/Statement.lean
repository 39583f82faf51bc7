import Downlevel.Proofs.Script.Spelling.Expression

/-!
# What statements spell out

The rules for statements, imports and exports, and for whole scripts. A statement spells out its
literals inside its span; only the decorators of an exported class may stand in front of the word
`export`, where the span starts.
-/

namespace Downlevel.Script.Grammar

open Text

variable {source : List Char} {known : List Spelling} (r : Rules) [Rules.SpellsOut source r]

/-! ## Variables -/

instance : Spells source [] (declarator r) := by
  unfold declarator
  refine .bind fun _ ↦ .step fun _ ↦ .ite (.step fun _ ↦ ?_) ?_ <;>
  exact .step fun _ ↦ .step fun _ ↦ .ite (.bind fun _ ↦ .value .pure) (.value .pure)

instance : Spells source [] (variableList r) := by
  unfold variableList
  exact .step fun _ ↦ .bind fun _ ↦ .pure

instance (isSingle : Bool) : Spells source [] (variableStatement r isSingle) := by
  unfold variableStatement
  exact .bind fun (kind, ds) ↦ .step fun _ ↦ .step fun _ ↦ .step fun _ ↦ .step fun _ ↦ .pure

/-! ## Loops -/

theorem spells_iterationRest (isAwait : Bool) (target : Node) :
    Spells source (spellings target) (iterationRest r isAwait target) := by
  unfold iterationRest
  exact .step fun _ ↦ .ite (.bind fun _ ↦ .step fun _ ↦ .bind fun _ ↦ .pure)
    (.step fun _ ↦ .step fun _ ↦ .bind fun _ ↦ .step fun _ ↦ .bind fun _ ↦ .pure)

theorem spells_countingRest (initial : Option Node) :
    Spells source (spellings initial) (countingRest r initial) := by
  unfold countingRest
  refine .step fun _ ↦ .step fun _ ↦ .ite (.bind fun _ ↦ ?_) (.bind fun _ ↦ ?_) <;>
  · refine .step fun _ ↦ .step fun _ ↦ .ite (.bind fun _ ↦ ?_) (.bind fun _ ↦ ?_) <;>
    exact .step fun _ ↦ .bind fun _ ↦ .pure

instance : Spells source [] (forStatement r) := by
  unfold forStatement
  refine .step fun _ ↦ .step fun isAwait ↦ .step fun _ ↦ .step fun _ ↦ .step fun _ ↦ .step fun _ ↦
    .ite (.step fun _ ↦ (spells_countingRest r none).mono) (.step fun _ ↦ .ite
      (.along (.within inferInstance) fun (kind, ds) ↦ .step fun _ ↦ .ite
        (.mono (spells_iterationRest r _ _) ?_)
        (.step fun _ ↦ .mono (spells_countingRest r _) ?_)) ?_)
  · intro x
    simp [spellings_of_children, ownSpellings, Node.ownNames, Node.ownLiterals, Node.children]
  · intro x
    simp [spellings_of_children, ownSpellings, Node.ownNames, Node.ownLiterals, Node.children]
  refine ⟨fun {ctx c c' n lo} htyped hc hlo _ h ↦ ?_⟩
  obtain ⟨start, c₁, hplace, h⟩ := exists_of_bind_eq_some h
  cases hplace
  obtain ⟨e, c₁, he, h⟩ := exists_of_bind_eq_some h
  have hexpression : Spells source [] (within ({ · with allowsIn := false }) r.expression) :=
    .within inferInstance
  obtain ⟨hread, hspelled⟩ := hexpression.spelled htyped hc hlo nofun he
  obtain ⟨isOf, c₂, hisOf, h⟩ := exists_of_bind_eq_some h
  cases Stays.stays hisOf
  obtain ⟨u, c₂, hguard, h⟩ := exists_of_bind_eq_some h
  cases Stays.stays hguard
  obtain ⟨isIteration, c₂, hiteration, h⟩ := exists_of_bind_eq_some h
  cases Stays.stays hiteration
  split at h
  · obtain ⟨target, c₂, htarget, h⟩ := exists_of_bind_eq_some h
    obtain ⟨hread, hspelled⟩ := spelled_asTarget r htyped hc hlo hread hspelled htarget
    obtain ⟨hread', hspelled'⟩ := (spells_iterationRest r isAwait target).spelled htyped
      hread.place (Nat.le_trans hlo hread.start_le) hspelled h
    exact ⟨hread.trans hread', hspelled'⟩
  · obtain ⟨u, c₂, hguard, h⟩ := exists_of_bind_eq_some h
    cases Stays.stays hguard
    obtain ⟨hread', hspelled'⟩ := (spells_countingRest r (some e)).spelled htyped
      hread.place (Nat.le_trans hlo hread.start_le) (by rwa [spellings_some]) h
    exact ⟨hread.trans hread', hspelled'⟩

instance : Spells source [] (condition r) := by
  unfold condition
  exact .step fun _ ↦ .bind fun _ ↦ .step fun _ ↦ .pure

instance : Spells source [] (whileStatement r) := by
  unfold whileStatement
  exact .step fun _ ↦ .bind fun _ ↦ .bind fun _ ↦ .pure

instance : Spells source [] (doWhile r) := by
  unfold doWhile
  exact .step fun _ ↦ .bind fun _ ↦ .step fun _ ↦ .bind fun _ ↦ .step fun _ ↦ .pure

/-! ## Branches -/

instance : Spells source [] (ifStatement r) := by
  unfold ifStatement
  exact .step fun _ ↦ .bind fun _ ↦ .bind fun _ ↦ .step fun _ ↦
    .ite (.bind fun _ ↦ .pure) (.value .pure)

instance : Spells source [] (switchCase r) := by
  unfold switchCase
  refine .step fun _ ↦ .ite (.value ?_) (.step fun _ ↦ .bind fun _ ↦ ?_) <;>
  exact .step fun _ ↦ .bind fun _ ↦ .pure

instance : Spells source [] (switchStatement r) := by
  unfold switchStatement
  exact .step fun _ ↦ .bind fun _ ↦ .step fun _ ↦ .bind fun _ ↦ .step fun _ ↦ .step fun _ ↦ .pure

instance : Spells source [] (catchClause r) := by
  unfold catchClause
  refine .step fun _ ↦ .step fun _ ↦ .ite
    (.bind fun _ ↦ .step fun _ ↦ .step fun _ ↦ .value ?_) (.value ?_) <;>
  exact .bind fun _ ↦ .pure

instance : Spells source [] (tryStatement r) := by
  unfold tryStatement
  refine .step fun _ ↦ .bind fun _ ↦ .step fun _ ↦ .ite (.bind fun _ ↦ ?_) (.value ?_) <;>
  exact .step fun _ ↦ .ite (.bind fun _ ↦ .value (.step fun _ ↦ .pure))
    (.value (.step fun _ ↦ .pure))

/-! ## Simple statements -/

instance : Spells source [] (optionalArgument r) := by
  unfold optionalArgument
  exact .step fun _ ↦ .ite .pure (.bind fun _ ↦ .pure)

instance : Spells source [] (returnStatement r) := by
  unfold returnStatement
  exact .step fun _ ↦ .step fun _ ↦ .step fun _ ↦ .bind fun _ ↦ .step fun _ ↦ .pure

instance : Spells source [] (throwStatement r) := by
  unfold throwStatement
  exact .step fun _ ↦ .step fun _ ↦ .step fun _ ↦ .bind fun _ ↦ .step fun _ ↦ .pure

instance : Spells source [] (expressionStatement r) := by
  unfold expressionStatement
  exact .step fun t ↦ .step fun _ ↦ .ite (.step fun _ ↦ .step fun _ ↦ .bind fun _ ↦ .pure)
    (.bind fun _ ↦ .step fun _ ↦ .pure)

/-! ## Declarations -/

instance : Spells source [] (functionDeclaration r) := by
  unfold functionDeclaration
  refine .bind fun f ↦ ?_
  split
  · exact .pure
  · infer_instance

theorem spells_classDeclaration (ds : List Node) :
    Spells source (spellings ds) (classDeclaration r ds) := by
  unfold classDeclaration
  refine .along (spells_classRest r ds) fun c ↦ ?_
  split
  · exact .pure
  · infer_instance

instance : Spells source [] (interfaceDeclaration r) := by
  unfold interfaceDeclaration
  exact .step fun _ ↦ .bind fun _ ↦ .step fun _ ↦ .pure

theorem spells_declaration (ds : List Node) : Spells source (spellings ds) (declaration r ds) := by
  unfold declaration
  exact .step fun _ ↦ .ite (spells_classDeclaration r ds) (.step fun _ ↦ .step fun _ ↦ .step fun _ ↦
    .ite (.step fun _ ↦ spells_classDeclaration r ds) (.step fun _ ↦
      .settle (.step fun _ ↦ .ite inferInstance inferInstance)))

theorem spells_decoratedDeclaration (ds : List Node) :
    Spells source (spellings ds) (decoratedDeclaration r ds) := by
  unfold decoratedDeclaration
  refine .settle ?_
  exact spells_declaration r ds

/-! ## All plain statements -/

instance (t : Token) (isSingle : Bool) : Spells source [] (reservedStatement r t isSingle) := by
  have hclass : Spells source [] (classDeclaration r []) := spells_classDeclaration r []
  unfold reservedStatement
  refine .ite inferInstance (.ite inferInstance (.ite inferInstance (.ite inferInstance
    (.ite inferInstance (.ite inferInstance (.ite inferInstance (.ite inferInstance
      (.ite (.step fun _ ↦ .bind fun _ ↦ .bind fun _ ↦ .pure)
        (.ite ?_ (.ite ?_ (.ite (.step fun _ ↦ .step fun _ ↦ .pure)
          (.ite (.step fun _ ↦ hclass) inferInstance)))))))))))) <;>
  exact .step fun _ ↦ .step fun _ ↦ .step fun _ ↦ .pure

instance (isSingle : Bool) : Spells source [] (plainStatement r isSingle) := by
  unfold plainStatement
  exact .step fun t ↦ .ite (.bind fun _ ↦ .pure) (.step fun _ ↦ .ite .pure
    (.ite (.bind fun ds ↦ (spells_decoratedDeclaration r ds).mono) (.step fun _ ↦ .ite inferInstance
      (.step fun following ↦ .ite (.bind fun _ ↦ .step fun _ ↦ .pure)
        (.settle (.settle inferInstance))))))

end Downlevel.Script.Grammar
