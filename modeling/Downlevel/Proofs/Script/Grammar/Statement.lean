import Downlevel.Proofs.Script.Grammar.Expression

/-!
# What statements carry
-/

namespace Downlevel.Script.Grammar

variable {source : List Char} (r : Rules) [Rules.Sound source r]

/-! ## Variables -/

instance : Steps source variableKind := by
  unfold variableKind
  exact .bind fun _ ↦ .ite inferInstance (.bind fun _ ↦ .ite inferInstance (.bind fun _ ↦
    .ite inferInstance inferInstance))

instance : Moves source variableKind := by
  unfold variableKind
  infer_instance

instance : Stays isAtVariables := by
  unfold isAtVariables
  have : Stays fun _ c ↦ some (c.advance.advance.token, c) := ⟨fun h ↦ by cases h; rfl⟩
  infer_instance

instance : Carries source false [] (declarator r) := by
  unfold declarator
  refine .bind fun _ ↦ .step fun _ ↦ .ite (.step fun _ ↦ ?_) ?_ <;>
  exact .step fun _ ↦ .step fun _ ↦ .ite (.bind fun _ ↦ .value .pure) (.value .pure)

instance : Opens source [] (variableList r) := by
  unfold variableList
  exact .first fun _ ↦ .bind fun _ ↦ .pure

instance (isSingle : Bool) : Opens source [] (variableStatement r isSingle) := by
  unfold variableStatement
  exact .lead fun (kind, ds) ↦ .step fun _ ↦ .step fun _ ↦ .step fun _ ↦ .step fun _ ↦ .pure

/-! ## Loops -/

theorem carries_iterationRest (isAwait : Bool) (target : Node) :
    Carries source false (imports target) (iterationRest r isAwait target) := by
  unfold iterationRest
  exact .step fun _ ↦ .ite (.bind fun _ ↦ .step fun _ ↦ .bind fun _ ↦ .pure)
    (.step fun _ ↦ .step fun _ ↦ .bind fun _ ↦ .step fun _ ↦ .bind fun _ ↦ .pure)

theorem carries_countingRest (initial : Option Node) :
    Carries source false (imports initial) (countingRest r initial) := by
  unfold countingRest
  refine .step fun _ ↦ .step fun _ ↦ .ite (.bind fun _ ↦ ?_) (.bind fun _ ↦ ?_) <;>
  · refine .step fun _ ↦ .step fun _ ↦ .ite (.bind fun _ ↦ ?_) (.bind fun _ ↦ ?_) <;>
    exact .step fun _ ↦ .bind fun _ ↦ .pure

instance : Stays isAtIteration := by
  unfold isAtIteration
  infer_instance

instance : Opens source [] (forStatement r) := by
  unfold forStatement
  refine .first fun _ ↦ .step fun isAwait ↦ .step fun _ ↦ .step fun _ ↦ .step fun _ ↦ .step fun _ ↦
    .ite (.step fun _ ↦ carries_countingRest r none) (.step fun _ ↦ .ite
      (.bind fun (kind, ds) ↦ .step fun _ ↦ .ite (carries_iterationRest r _ _).mono
        (.step fun _ ↦ (carries_countingRest r _).mono)) (.ofPlace fun hc h ↦ ?_))
  obtain ⟨e, c₁, he, h⟩ := exists_of_bind_eq_some h
  have hfirst : Found source false [] _ (imports e) c₁ := Carries.found hc he
  have hmoved := Moves.moves hc he
  obtain ⟨isOf, c₂, hisOf, h⟩ := exists_of_bind_eq_some h
  cases Stays.stays hisOf
  obtain ⟨u, c₂, hguard, h⟩ := exists_of_bind_eq_some h
  cases Stays.stays hguard
  obtain ⟨isIteration, c₂, hiteration, h⟩ := exists_of_bind_eq_some h
  cases Stays.stays hiteration
  split at h
  · obtain ⟨target, c₂, htarget, h⟩ := exists_of_bind_eq_some h
    have htarget := (found_asTarget r hc hfirst hmoved htarget).1
    exact htarget.trans ((carries_iterationRest r isAwait target).found htarget.reading.place h)
  · obtain ⟨u, c₂, hguard, h⟩ := exists_of_bind_eq_some h
    cases Stays.stays hguard
    exact hfirst.trans ((carries_countingRest r (some e)).mono.found hfirst.reading.place h)

instance : Opens source [] (condition r) := by
  unfold condition
  exact .first fun _ ↦ .bind fun _ ↦ .step fun _ ↦ .pure

instance : Opens source [] (whileStatement r) := by
  unfold whileStatement
  exact .first fun _ ↦ .bind fun _ ↦ .bind fun _ ↦ .pure

instance : Opens source [] (doWhile r) := by
  unfold doWhile
  exact .first fun _ ↦ .bind fun _ ↦ .step fun _ ↦ .bind fun _ ↦ .step fun _ ↦ .pure

/-! ## Branches -/

instance : Opens source [] (ifStatement r) := by
  unfold ifStatement
  exact .first fun _ ↦ .bind fun _ ↦ .bind fun _ ↦ .step fun _ ↦
    .ite (.bind fun _ ↦ .pure) (.value .pure)

instance : Carries source false [] (switchCase r) := by
  unfold switchCase
  refine .step fun _ ↦ .ite (.value ?_) (.step fun _ ↦ .bind fun _ ↦ ?_) <;>
  exact .step fun _ ↦ .bind fun _ ↦ .pure

instance : Opens source [] (switchStatement r) := by
  unfold switchStatement
  exact .first fun _ ↦ .bind fun _ ↦ .step fun _ ↦ .bind fun _ ↦ .step fun _ ↦ .step fun _ ↦ .pure

instance : Opens source [] (catchClause r) := by
  unfold catchClause
  refine .first fun _ ↦ .step fun _ ↦ .ite
    (.bind fun _ ↦ .step fun _ ↦ .step fun _ ↦ .value ?_) (.value ?_) <;>
  exact .bind fun _ ↦ .pure

instance : Opens source [] (tryStatement r) := by
  unfold tryStatement
  refine .first fun _ ↦ .bind fun _ ↦ .step fun _ ↦ .ite (.bind fun _ ↦ ?_) (.value ?_) <;>
  exact .step fun _ ↦ .ite (.bind fun _ ↦ .value (.step fun _ ↦ .pure))
    (.value (.step fun _ ↦ .pure))

/-! ## Simple statements -/

instance : Carries source false [] (optionalArgument r) := by
  unfold optionalArgument
  exact .step fun _ ↦ .ite .pure (.bind fun _ ↦ .pure)

instance : Steps source optionalLabel := by
  unfold optionalLabel
  infer_instance

instance : Opens source [] (returnStatement r) := by
  unfold returnStatement
  exact .step fun _ ↦ .step fun _ ↦ .first fun _ ↦ .bind fun _ ↦ .step fun _ ↦ .pure

instance : Opens source [] (throwStatement r) := by
  unfold throwStatement
  exact .first fun _ ↦ .step fun _ ↦ .step fun _ ↦ .bind fun _ ↦ .step fun _ ↦ .pure

/-! ## Functions and classes -/

instance : Opens source [] (functionDeclaration r) := by
  unfold functionDeclaration
  refine .lead fun f ↦ ?_
  split
  · exact .pure
  · infer_instance

theorem opens_classDeclaration (ds : List Node) :
    Opens source (imports ds) (classDeclaration r ds) := by
  unfold classDeclaration
  refine .along (opens_classRest r ds) fun c ↦ ?_
  split
  · exact .pure
  · infer_instance

instance : Opens source [] (classDeclaration r []) := opens_classDeclaration r []

/-! ## Declarations that matter to types -/

instance : Opens source [] (interfaceDeclaration r) := by
  unfold interfaceDeclaration
  exact .first fun _ ↦ .step fun _ ↦ .step fun _ ↦ .pure

instance : Opens source [] (typeAlias r) := by
  unfold typeAlias
  refine .first fun _ ↦ .step fun _ ↦ .step fun _ ↦ .step fun _ ↦ .step fun _ ↦ .step fun _ ↦
    .ite (.step fun _ ↦ ?_) (.step fun _ ↦ ?_) <;>
  exact .step fun _ ↦ .pure

instance : Steps source (enumMemberName r) := by
  unfold enumMemberName
  refine .bind fun key ↦ ?_
  split <;> try infer_instance
  split <;> infer_instance

instance : Carries source false [] (enumMember r) := by
  unfold enumMember
  exact .step fun _ ↦ .step fun _ ↦ .ite (.bind fun _ ↦ .value .pure) (.value .pure)

instance : Opens source [] (enumDeclaration r) := by
  unfold enumDeclaration
  exact .step fun _ ↦ .first fun _ ↦ .step fun _ ↦ .step fun _ ↦ .bind fun (members, _) ↦ .pure

instance : Steps source dottedName := by
  unfold dottedName
  infer_instance

instance : Moves source dottedName := by
  unfold dottedName
  infer_instance

instance : Carries source true [] (namespaceDeclaration r) := by
  unfold namespaceDeclaration
  refine .step fun _ ↦ .ite (.bind fun _ ↦ .pure) (.step fun _ ↦ .step fun t ↦ ?_)
  split
  · exact .step fun _ ↦ .step fun _ ↦ .ite (.bind fun _ ↦ .pure) (.step fun _ ↦ .pure)
  · exact .step fun _ ↦ .bind fun _ ↦ .pure

instance : Moves source (namespaceDeclaration r) := by
  unfold namespaceDeclaration
  refine .right fun _ ↦ .ite inferInstance (.right fun _ ↦ .peek fun t ↦ ?_)
  split
  · next hkind =>
    have := movesFrom_skip source (t := t) (by rw [Token.isWritten, hkind])
    infer_instance
  · infer_instance

instance : Stays isAtNamespace := by
  unfold isAtNamespace
  infer_instance

instance (s : String) : Stays (isAtNamed s) := by
  unfold isAtNamed
  infer_instance

instance : Stays isAtEnum := by
  unfold isAtEnum
  infer_instance

instance : Carries source true [] (typedDeclaration r) := by
  unfold typedDeclaration
  exact .step fun _ ↦ .ite .pure (.step fun t ↦ .step fun following ↦ .step fun _ ↦
    .ite (.bind fun _ ↦ .pure) (.step fun _ ↦ .ite (.bind fun _ ↦ .pure) (.step fun _ ↦
      .ite (.bind fun _ ↦ .pure) (.step fun _ ↦ .ite (.bind fun _ ↦ .pure)
        (.ite (.step fun _ ↦ .bind fun _ ↦ .pure) .pure)))))

instance (t : Token) : ExtendsFrom source t none (typedDeclaration r) := by
  unfold typedDeclaration
  exact .stay fun _ ↦ .ite inferInstance (.stay fun _ ↦ .stay fun _ ↦ .stay fun _ ↦
    .ite inferInstance (.stay fun _ ↦ .ite inferInstance (.stay fun _ ↦
      .ite inferInstance (.stay fun _ ↦ .ite inferInstance (.ite inferInstance inferInstance)))))

theorem opens_declaration (ds : List Node) : Opens source (imports ds) (declaration r ds) := by
  unfold declaration
  exact .step fun _ ↦ .ite (opens_classDeclaration r ds) (.step fun _ ↦ .step fun _ ↦ .step fun _ ↦
    .ite (.step fun _ ↦ opens_classDeclaration r ds) (.step fun _ ↦
      .choice inferInstance (.step fun _ ↦ .ite .anew .anew) fun _ ↦ .pure))

instance : Opens source [] (declaration r []) := opens_declaration r []

theorem opens_ambientDeclaration (ds : List Node) :
    Opens source (imports ds) (ambientDeclaration r ds) := by
  have hdeclaration : Carries source false (imports ds) (declaration r ds) :=
    (opens_declaration r ds).carries.early
  have hwithin (g : Context → Context) :
      Carries source false (imports ds) (within g (declaration r ds)) := inferInstance
  unfold ambientDeclaration
  exact .first fun _ ↦ .along [] (hwithin _) fun _ ↦ .pure

instance : Opens source [] (ambientDeclaration r []) := opens_ambientDeclaration r []

instance : Stays isAtAmbient := by
  unfold isAtAmbient
  infer_instance

theorem opens_decoratedDeclaration (ds : List Node) :
    Opens source (imports ds) (decoratedDeclaration r ds) := by
  unfold decoratedDeclaration
  exact .step fun _ ↦ .ite (opens_ambientDeclaration r ds) (opens_declaration r ds)

/-! ## All of them -/

/-- Whether a statement is nothing but a dynamic import. -/
def isImportBody : Node → Bool
  | .expressionStatement e => isImportCall e
  | _ => false

instance : Expresses source isImportBody (expressionStatement r) := by
  unfold expressionStatement
  refine .of_tokens fun t ↦ .stay fun _ ↦ .stay fun _ ↦ .ite
    (fun _ ↦ .of_opens (.first fun _ ↦ .step fun _ ↦ .bind fun _ ↦ .pure))
    ⟨fun {ctx c c' n} hc _ h ↦ ?_⟩
  obtain ⟨e, c₁, he, h⟩ := exists_of_bind_eq_some h
  obtain ⟨u, c₂, hend, h⟩ := exists_of_bind_eq_some h
  cases h
  have hexpression : Fits source isImportCall c e c₁ := Expresses.fits hc he
  have hread := Steps.reading hexpression.found.reading.place hend
  have himports : imports (Node.expressionStatement e) = imports e := by
    simp [imports_of_children, Node.children]
  refine ⟨hexpression.found.trans (.after hread (.refl hread.place ?_)),
    Nat.lt_of_lt_of_le hexpression.moved hread.last_le, fun p hp hstart hstop ↦ ?_⟩
  · rw [himports]
  · rw [himports] at hp
    obtain ⟨found, hfound, -, hsub⟩ := hexpression.found
    have hinside := (hfound.inside p (hsub.subset hp)).2
    have hlast := hread.last_le
    exact hexpression.bare p hp hstart (by omega)

theorem expressesFrom_reservedStatement (t : Token) (isSingle : Bool) :
    ExpressesFrom source t isImportBody (reservedStatement r t isSingle) := by
  unfold reservedStatement
  refine .ite (fun _ ↦ .of_opens inferInstance) (.ite (fun _ ↦ .of_opens inferInstance)
    (.ite (fun _ ↦ .of_opens inferInstance) (.ite (fun _ ↦ .of_opens inferInstance)
      (.ite (fun _ ↦ .of_opens inferInstance) (.ite (fun _ ↦ .of_opens inferInstance)
        (.ite (fun _ ↦ .of_opens inferInstance) (.ite (fun _ ↦ .of_opens inferInstance)
          (.ite (fun ht ↦ ?_) (.ite (fun ht ↦ ?_) (.ite (fun ht ↦ ?_) (.ite (fun ht ↦ ?_)
            (.ite (fun _ ↦ .of_opens (.step fun _ ↦ inferInstance)) inferInstance))))))))))))
  · exact .first (movesFrom_skip source (isWritten_of_isWord ht)) fun _ ↦
      .bind fun _ ↦ .bind fun _ ↦ .pure
  · exact .first (movesFrom_skip source (isWritten_of_isWord ht)) fun _ ↦
      .step fun _ ↦ .step fun _ ↦ .pure
  · exact .first (movesFrom_skip source (isWritten_of_isWord ht)) fun _ ↦
      .step fun _ ↦ .step fun _ ↦ .pure
  · exact .first (movesFrom_skip source (isWritten_of_isWord ht)) fun _ ↦ .step fun _ ↦ .pure

instance (t : Token) (isSingle : Bool) :
    Carries source false [] (reservedStatement r t isSingle) := by
  unfold reservedStatement
  refine .ite inferInstance (.ite inferInstance (.ite inferInstance (.ite inferInstance
    (.ite inferInstance (.ite inferInstance (.ite inferInstance (.ite inferInstance
      (.ite (.step fun _ ↦ .bind fun _ ↦ .bind fun _ ↦ .pure)
        (.ite ?_ (.ite ?_ (.ite (.step fun _ ↦ .step fun _ ↦ .pure)
          (.ite (.step fun _ ↦ inferInstance) inferInstance)))))))))))) <;>
  exact .step fun _ ↦ .step fun _ ↦ .step fun _ ↦ .pure

instance (isSingle : Bool) : Expresses source isImportBody (plainStatement r isSingle) := by
  unfold plainStatement
  exact .peek fun t ↦ .ite (fun _ ↦ .of_opens (.lead fun _ ↦ .pure)) (.takeMark .pure
    (.ite (fun _ ↦ .of_opens (.bind fun ds ↦ opens_decoratedDeclaration r ds)) (.stay fun _ ↦ .ite
      (fun _ ↦ .of_opens inferInstance) (.stay fun following ↦ .ite
        (fun _ ↦ .of_opens (.lead fun _ ↦ .step fun _ ↦ .pure)) (.stay fun _ ↦ .ite
          (fun _ ↦ .of_opens inferInstance) (.choice inferInstance
            (expressesFrom_reservedStatement r t isSingle) inferInstance fun _ ↦ .pure))))))

end Downlevel.Script.Grammar
