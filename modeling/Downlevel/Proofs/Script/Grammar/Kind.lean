import Downlevel.CommonJs.Draft
import Downlevel.Proofs.Script.Grammar.Yielding

/-!
# Which kinds of statements are read

In a script without types, the rule that reads a statement tells whether it imports or exports
something, and what is exported as a declaration exists when the script runs.
-/

namespace Downlevel.Script.Grammar

open CommonJs

/-! ## Kinds -/

/-- The body of a statement that imports something. -/
def isImport : Node → Bool
  | .importDeclaration _ => true
  | _ => false

/-- The body of a statement that exports something that stands elsewhere. -/
def isExportClause : Node → Bool
  | .exportList _ | .exportAll _ => true
  | _ => false

/-- The body of a statement that exports something. -/
def isExportBody : Node → Bool
  | .exportList _ | .exportAll _ | .exportDefault .. | .exportDeclaration .. => true
  | _ => false

/-- The body of a statement that is read as neither an import nor an export. A directive is made of
such a statement later. -/
def isInner : Node → Bool
  | .importDeclaration _ | .exportList _ | .exportAll _ | .exportDefault ..
  | .exportDeclaration .. | .directive _ => false
  | _ => true

/-- The body of a statement before it can become a directive. -/
def isOrdinary : Node → Bool
  | .directive _ => false
  | _ => true

theorem isInner_of_isRuntimeDeclaration {n : Node} (h : isRuntimeDeclaration n = true) :
    isInner n = true := by
  unfold isRuntimeDeclaration at h
  split at h
  · rfl
  · rfl
  · rfl
  · cases h

/-- In some surroundings, a rule makes nodes of one kind. -/
abbrev MakesWhere (T : Context → Prop) (kind : Node → Bool) (p : Reader Node) : Prop :=
  YieldsWhere T (fun n ↦ kind n = true) p

/-- Where no types may be written, a rule makes nodes of one kind. -/
abbrev Makes (kind : Node → Bool) (p : Reader Node) : Prop := Yields (fun n ↦ kind n = true) p

theorem Makes.kind {kind : Node → Bool} {p : Reader Node} [hp : Makes kind p] {ctx : Context}
    {c c' : Cursor} {n : Node} (htyped : ctx.typed = false) (h : p ctx c = some (n, c')) :
    kind n = true :=
  hp.yields htyped h

/-- Where no types may be written, a rule can only come to one value. -/
class Settles {α : Type} (a : outParam α) (p : Reader α) : Prop where
  eq : ∀ {ctx : Context} {c c' : Cursor} {b : α}, ctx.typed = false → p ctx c = some (b, c') → b = a

theorem YieldsWhere.settle {α β : Type} {Q : β → Prop} {p : Reader α} {f : α → Reader β} {a : α}
    [hp : Settles a p] (hf : Yields Q (f a)) : Yields Q (p >>= f) where
  yields htyped h := by
    obtain ⟨b, c₁, hb, h⟩ := exists_of_bind_eq_some h
    cases hp.eq htyped hb
    exact hf.yields htyped h

instance : Settles false isTyped := ⟨fun htyped h ↦ by cases h; exact htyped⟩

theorem typedOnly_bind_eq_none {α : Type} {ctx : Context} (htyped : ctx.typed = false)
    (f : Unit → Reader α) (c : Cursor) : (typedOnly >>= f) ctx c = none := by
  have hunfold : (typedOnly >>= f) ctx c = (guardThat ctx.typed >>= f) ctx c := rfl
  rw [hunfold, htyped]
  rfl

theorem YieldsWhere.typedOnly {α : Type} {P : α → Prop} {f : Unit → Reader α} :
    Yields P (Grammar.typedOnly >>= f) where
  yields htyped h := by
    rw [typedOnly_bind_eq_none htyped] at h
    cases h

variable (r : Rules) {T : Context → Prop}

/-! ## Declarations -/

instance : Settles none (typedDeclaration r) where
  eq htyped h := by
    unfold typedDeclaration at h
    obtain ⟨isTyped, c₁, hisTyped, h⟩ := exists_of_bind_eq_some h
    cases Settles.eq htyped hisTyped
    cases h
    rfl

instance : Settles false isAtAmbient where
  eq htyped h := by
    unfold isAtAmbient at h
    obtain ⟨following, c₁, -, h⟩ := exists_of_bind_eq_some h
    obtain ⟨isTyped, c₁, hisTyped, h⟩ := exists_of_bind_eq_some h
    cases Settles.eq htyped hisTyped
    obtain ⟨isDeclare, c₁, -, h⟩ := exists_of_bind_eq_some h
    cases h
    rfl

instance (isSingle : Bool) : MakesWhere T isRuntimeDeclaration (variableStatement r isSingle) := by
  unfold variableStatement
  exact .step fun (kind, ds) ↦ .step fun _ ↦ .step fun _ ↦ .step fun _ ↦ .step fun _ ↦ .pure rfl

instance : MakesWhere T isRuntimeDeclaration (functionDeclaration r) := by
  unfold functionDeclaration
  refine .step fun f ↦ ?_
  split
  · exact .pure rfl
  · infer_instance

instance (ds : List Node) : MakesWhere T isRuntimeDeclaration (classDeclaration r ds) := by
  unfold classDeclaration
  refine .step fun c ↦ ?_
  split
  · exact .pure rfl
  · infer_instance

theorem always_classRest (ds : List Node) :
    Always (fun n ↦ ∃ name heritage members, n = .classDef ds name heritage members)
      (classRest r ds) := by
  unfold classRest
  refine .step fun _ ↦ .step fun t ↦ .step fun _ ↦ .ite (.step fun _ ↦ ?_) (.step fun _ ↦ ?_) <;>
  · refine .step fun _ ↦ .step fun _ ↦ .ite (.step fun _ ↦ .step fun _ ↦ .step fun _ ↦
      .ite (.step fun _ ↦ .step fun _ ↦ ?_) (.step fun _ ↦ ?_)) (.step fun _ ↦ ?_) <;>
    · refine .step fun _ ↦ .ite (.step fun _ ↦ .ite (.step fun _ ↦ ?_) ?_)
        (.step fun _ ↦ .ite (.step fun _ ↦ ?_) ?_) <;>
      exact .step fun _ ↦ .pure ⟨_, _, _, rfl⟩

/-- The class of a declaration has the decorators in front of it. -/
theorem always_classDeclaration (ds : List Node) :
    Always (fun n ↦ ∃ name heritage members,
      n = .classDeclaration (.classDef ds name heritage members)) (classDeclaration r ds) := by
  unfold classDeclaration
  refine .bind (always_classRest r ds) fun c hc ↦ ?_
  obtain ⟨name, heritage, members, rfl⟩ := hc
  split
  · next heq =>
    cases heq
    exact .pure ⟨_, _, _, rfl⟩
  · infer_instance

instance (ds : List Node) : Makes isRuntimeDeclaration (declaration r ds) := by
  unfold declaration
  refine .step fun _ ↦ .ite inferInstance (.step fun _ ↦ .step fun _ ↦ .step fun _ ↦
    .ite (.step fun _ ↦ inferInstance) (.step fun _ ↦ .settle ?_))
  exact .step fun _ ↦ .ite inferInstance inferInstance

instance (priority := low) {p : Reader Node} [h : MakesWhere T isRuntimeDeclaration p] :
    MakesWhere T isInner p :=
  h.mono fun _ ↦ isInner_of_isRuntimeDeclaration

instance (ds : List Node) : Makes isRuntimeDeclaration (decoratedDeclaration r ds) := by
  unfold decoratedDeclaration
  refine .settle ?_
  exact (inferInstance : Makes isRuntimeDeclaration (declaration r ds))

instance (ds : List Node) : Makes isRuntimeDeclaration (namedDeclaration r ds) := by
  unfold namedDeclaration
  exact .step fun own ↦ .step fun _ ↦ inferInstance

/-! ## Other statements -/

instance : MakesWhere T isInner (forStatement r) := by
  have hiteration (isAwait : Bool) (n : Node) :
      MakesWhere T isInner (iterationRest r isAwait n) := by
    unfold iterationRest
    exact .step fun _ ↦ .ite (.step fun _ ↦ .step fun _ ↦ .step fun _ ↦ .pure rfl)
      (.step fun _ ↦ .step fun _ ↦ .step fun _ ↦ .step fun _ ↦ .step fun _ ↦ .pure rfl)
  have hcounting (o : Option Node) : MakesWhere T isInner (countingRest r o) := by
    unfold countingRest
    refine .step fun _ ↦ .step fun _ ↦ .ite (.step fun _ ↦ ?_) (.step fun _ ↦ ?_) <;>
    · refine .step fun _ ↦ .step fun _ ↦ .ite (.step fun _ ↦ ?_) (.step fun _ ↦ ?_) <;>
      exact .step fun _ ↦ .step fun _ ↦ .pure rfl
  unfold forStatement
  exact .step fun _ ↦ .step fun _ ↦ .step fun _ ↦ .step fun _ ↦ .step fun _ ↦ .step fun _ ↦
    .ite (.step fun _ ↦ hcounting _) (.step fun _ ↦ .ite
      (.step fun (kind, ds) ↦ .step fun _ ↦ .ite (hiteration _ _) (.step fun _ ↦ hcounting _))
      (.step fun _ ↦ .step fun _ ↦ .step fun _ ↦ .step fun _ ↦ .step fun _ ↦
        .ite (.step fun _ ↦ hiteration _ _) (.step fun _ ↦ hcounting _)))

instance : MakesWhere T isInner (whileStatement r) := by
  unfold whileStatement
  exact .step fun _ ↦ .step fun _ ↦ .step fun _ ↦ .pure rfl

instance : MakesWhere T isInner (doWhile r) := by
  unfold doWhile
  exact .step fun _ ↦ .step fun _ ↦ .step fun _ ↦ .step fun _ ↦ .step fun _ ↦ .pure rfl

instance : MakesWhere T isInner (ifStatement r) := by
  unfold ifStatement
  exact .step fun _ ↦ .step fun _ ↦ .step fun _ ↦ .step fun _ ↦
    .ite (.step fun _ ↦ .pure rfl) (.step fun _ ↦ .pure rfl)

instance : MakesWhere T isInner (switchStatement r) := by
  unfold switchStatement
  exact .step fun _ ↦ .step fun _ ↦ .step fun _ ↦ .step fun _ ↦ .step fun _ ↦ .step fun _ ↦
    .pure rfl

instance : MakesWhere T isInner (tryStatement r) := by
  unfold tryStatement
  refine .step fun _ ↦ .step fun _ ↦ .step fun _ ↦ .ite (.step fun _ ↦ ?_) (.step fun _ ↦ ?_) <;>
  · refine .step fun _ ↦ .ite (.step fun _ ↦ .step fun _ ↦ ?_) (.step fun _ ↦ ?_) <;>
    exact .step fun _ ↦ .pure rfl

instance : MakesWhere T isInner (returnStatement r) := by
  unfold returnStatement
  exact .step fun _ ↦ .step fun _ ↦ .step fun _ ↦ .step fun _ ↦ .step fun _ ↦ .pure rfl

instance : MakesWhere T isInner (throwStatement r) := by
  unfold throwStatement
  exact .step fun _ ↦ .step fun _ ↦ .step fun _ ↦ .step fun _ ↦ .step fun _ ↦ .pure rfl

instance : MakesWhere T isInner (expressionStatement r) := by
  unfold expressionStatement
  refine .step fun _ ↦ .step fun _ ↦ .ite (.step fun _ ↦ .step fun _ ↦ ?_) (.step fun _ ↦ ?_) <;>
  exact .step fun _ ↦ .pure rfl

instance (t : Token) (isSingle : Bool) : MakesWhere T isInner (reservedStatement r t isSingle) := by
  unfold reservedStatement
  refine .ite inferInstance (.ite inferInstance (.ite inferInstance (.ite inferInstance
    (.ite inferInstance (.ite inferInstance (.ite inferInstance (.ite inferInstance
      (.ite ?_ (.ite ?_ (.ite ?_ (.ite ?_ (.ite ?_ inferInstance))))))))))))
  · exact .step fun _ ↦ .step fun _ ↦ .step fun _ ↦ .pure rfl
  · exact .step fun _ ↦ .step fun _ ↦ .step fun _ ↦ .pure rfl
  · exact .step fun _ ↦ .step fun _ ↦ .step fun _ ↦ .pure rfl
  · exact .step fun _ ↦ .step fun _ ↦ .pure rfl
  · exact .step fun _ ↦ inferInstance

/-- What a declaration declares that is none of variables or of a function, if no decorators stand
in front of it. -/
def isTypedDeclaration : Node → Bool
  | .typeDeclaration _ | .enumDeclaration .. | .namespaceDeclaration .. | .ambientModule _
  | .classDeclaration (.classDef [] ..) => true
  | _ => false

theorem isInner_of_isTypedDeclaration {n : Node} (h : isTypedDeclaration n = true) :
    isInner n = true := by
  unfold isTypedDeclaration at h
  split at h <;> first
    | rfl
    | cases h

instance : MakesWhere T isTypedDeclaration (interfaceDeclaration r) := by
  unfold interfaceDeclaration
  exact .step fun _ ↦ .step fun _ ↦ .step fun _ ↦ .pure rfl

theorem always_typedDeclaration :
    Always (fun o ↦ ∀ n ∈ o, isTypedDeclaration n = true) (typedDeclaration r) := by
  have hinterface : MakesWhere (fun _ ↦ True) isTypedDeclaration (interfaceDeclaration r) :=
    inferInstance
  have halias : MakesWhere (fun _ ↦ True) isTypedDeclaration (typeAlias r) := by
    unfold typeAlias
    refine .step fun _ ↦ .step fun _ ↦ .step fun _ ↦ .step fun _ ↦ .step fun _ ↦ .step fun _ ↦
      .ite (.step fun _ ↦ ?_) (.step fun _ ↦ ?_) <;>
    exact .step fun _ ↦ .pure rfl
  have henum : MakesWhere (fun _ ↦ True) isTypedDeclaration (enumDeclaration r) := by
    unfold enumDeclaration
    exact .step fun _ ↦ .step fun _ ↦ .step fun _ ↦ .step fun _ ↦ .step fun _ ↦ .pure rfl
  have hnamespace : MakesWhere (fun _ ↦ True) isTypedDeclaration (namespaceDeclaration r) := by
    unfold namespaceDeclaration
    refine .step fun _ ↦ .ite (.step fun _ ↦ .pure rfl) (.step fun _ ↦ .step fun _ ↦ ?_)
    split
    · exact .step fun _ ↦ .step fun _ ↦
        .ite (.step fun _ ↦ .pure rfl) (.step fun _ ↦ .pure rfl)
    · exact .step fun _ ↦ .step fun _ ↦ .pure rfl
  have hclass : MakesWhere (fun _ ↦ True) isTypedDeclaration (classDeclaration r []) := by
    refine (always_classDeclaration r []).mono ?_
    rintro n ⟨name, heritage, members, rfl⟩
    rfl
  unfold typedDeclaration
  exact .step fun _ ↦ .ite .pure_none (.step fun _ ↦ .step fun _ ↦ .step fun _ ↦
    .ite (.return_some hinterface) (.step fun _ ↦ .ite (.return_some halias)
      (.step fun _ ↦ .ite (.return_some henum) (.step fun _ ↦ .ite (.return_some hnamespace)
        (.ite (.step fun _ ↦ .return_some hclass) .pure_none)))))

/-- A declaration is read, or what a script without types has in its place. -/
theorem YieldsWhere.typedOr {q : Reader Node} (h : MakesWhere T isInner q) :
    MakesWhere T isInner (do
      match ← typedDeclaration r with
      | some d => return d
      | none => q) := by
  refine .bind (always_typedDeclaration r).anywhere fun o ho ↦ ?_
  cases o with
  | some d => exact .pure (isInner_of_isTypedDeclaration (ho d rfl))
  | none => exact h

instance (ds : List Node) : MakesWhere T isInner (declaration r ds) := by
  unfold declaration
  exact .step fun _ ↦ .ite inferInstance (.step fun _ ↦ .step fun _ ↦ .step fun _ ↦
    .ite (.step fun _ ↦ inferInstance) (.step fun _ ↦
      .typedOr r (.step fun _ ↦ .ite inferInstance inferInstance)))

instance (ds : List Node) : MakesWhere T isInner (ambientDeclaration r ds) := by
  unfold ambientDeclaration
  exact .step fun _ ↦ .step fun _ ↦ .pure rfl

instance (ds : List Node) : MakesWhere T isInner (decoratedDeclaration r ds) := by
  unfold decoratedDeclaration
  exact .step fun _ ↦ .ite inferInstance inferInstance

instance (isSingle : Bool) : MakesWhere T isInner (plainStatement r isSingle) := by
  have hfunction : MakesWhere T isInner (functionDeclaration r) := inferInstance
  unfold plainStatement
  exact .step fun t ↦ .ite (.step fun _ ↦ .pure rfl) (.step fun _ ↦ .ite (.pure rfl)
    (.ite (.step fun _ ↦ inferInstance) (.step fun _ ↦ .ite inferInstance (.step fun following ↦
      .ite (.bind hfunction fun f hf ↦ .step fun _ ↦ .pure hf) (.step fun _ ↦
        .ite inferInstance (.typedOr r inferInstance))))))

/-! ## Imports and exports -/

instance : Makes isImport (importFrom false) := by
  unfold importFrom
  exact .step fun _ ↦ .step fun _ ↦ .step fun (source, attributes) ↦ .pure rfl

instance : Makes isImport importDeclaration := by
  unfold importDeclaration
  refine .step fun _ ↦ .step fun t ↦ ?_
  split
  · exact .step fun (source, attributes) ↦ .pure rfl
  · refine .firstOf ?_
    simp only [List.forall_mem_cons]
    exact ⟨inferInstance, .typedOnly, .typedOnly, .typedOnly, nofun⟩

instance (isType : Bool) : MakesWhere T isExportClause (exportList isType) := by
  unfold exportList
  exact .step fun _ ↦ .step fun (specifiers, _) ↦ .step fun _ ↦ .ite
    (.step fun (source, attributes) ↦ .pure rfl) (.step fun _ ↦ .step fun _ ↦ .pure rfl)

instance (isType : Bool) : MakesWhere T isExportClause (exportAll isType) := by
  unfold exportAll
  refine .step fun _ ↦ .step fun _ ↦ .ite (.step fun _ ↦ ?_) (.step fun _ ↦ ?_) <;>
  exact .step fun _ ↦ .step fun (source, attributes) ↦ .pure rfl

theorem isExportBody_of_isExportClause {n : Node} (h : isExportClause n = true) :
    isExportBody n = true := by
  unfold isExportClause at h
  split at h
  · rfl
  · rfl
  · cases h

instance (ds : List Node) : Makes isExportBody (exportStatement r ds) := by
  have hlist : Makes isExportClause (exportList false) := inferInstance
  have hall : Makes isExportClause (exportAll false) := inferInstance
  have hdefault : Makes isExportBody (exportDefault r ds) := by
    unfold exportDefault
    exact .step fun _ ↦ .step fun (inner, node) ↦ .ite (.step fun _ ↦ .pure rfl) (.pure rfl)
  have hdeclaration : Makes isExportBody (exportedDeclaration r ds) := by
    rw [exportedDeclaration_eq]
    exact .step fun (inner, node) ↦ .pure rfl
  unfold exportStatement
  exact .step fun _ ↦ .step fun _ ↦ .step fun _ ↦ .ite hdefault
    (.ite (hlist.mono fun _ ↦ isExportBody_of_isExportClause)
      (.ite (hall.mono fun _ ↦ isExportBody_of_isExportClause) (.ite .typedOnly (.ite .typedOnly
        (.ite .typedOnly (.ite .typedOnly hdeclaration))))))

/-! ## Directives -/

theorem isOrdinary_of_isInner {n : Node} (h : isInner n = true) : isOrdinary n = true := by
  cases n <;> first
    | rfl
    | cases h

theorem isOrdinary_of_isImport {n : Node} (h : isImport n = true) : isOrdinary n = true := by
  cases n <;> first
    | rfl
    | cases h

theorem isOrdinary_of_isExportBody {n : Node} (h : isExportBody n = true) :
    isOrdinary n = true := by
  cases n <;> first
    | rfl
    | cases h

end Downlevel.Script.Grammar
