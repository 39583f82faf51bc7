import Downlevel.Proofs.Script.Grammar.Statement

/-!
# What imports and exports carry

The rules for whole statements are taken apart here as well: how a single statement is read, what is
kept while statements are read in a row, and where the statements of a script come from.
-/

namespace Downlevel.Script.Grammar

variable {source : List Char} (r : Rules) [Rules.Sound source r]

/-! ## Imports -/

instance : Steps source exportName := by
  unfold exportName
  refine .bind fun t ↦ ?_
  split <;> infer_instance

instance : Steps source importAttribute := by
  unfold importAttribute
  infer_instance

instance : Steps source importAttributes := by
  unfold importAttributes
  infer_instance

instance : Steps source listedName := by
  have hplain : Steps source (do
      let n ← exportName
      let other ← if ← takeWord "as" then pure (some (← exportName)) else pure none
      guardThat ((← isAtMark ",") || (← isAtMark closeBrace))
      return (n, other)) :=
    .bind fun _ ↦ .bind fun _ ↦ .ite inferInstance inferInstance
  unfold listedName
  refine .bind fun o ↦ ?_
  cases o with
  | none => exact .bind fun _ ↦ .bind fun _ ↦ .bind fun (n, other) ↦ inferInstance
  | some o => infer_instance

instance : Steps source importSpecifier := by
  unfold importSpecifier
  refine .bind fun (n, other, isType) ↦ ?_
  dsimp only
  split <;> infer_instance

instance : Steps source importClause := by
  unfold importClause
  refine .bind fun t ↦ .ite (.bind fun _ ↦ .bind fun first ↦ ?_) (.bind fun first ↦ ?_) <;>
  exact .ite (.bind fun _ ↦ .ite inferInstance inferInstance)
    (.bind fun _ ↦ .ite inferInstance inferInstance)

instance : Steps source moduleSource := by
  unfold moduleSource
  infer_instance

instance (isType : Bool) : Carries source true [] (importFrom isType) := by
  unfold importFrom
  exact .step fun _ ↦ .step fun _ ↦ .step fun (source, attributes) ↦ .pure

instance (isType : Bool) : Carries source true [] (importEquals isType) := by
  unfold importEquals
  refine .step fun _ ↦ .step fun _ ↦ .step fun _ ↦ .step fun _ ↦ .ite (.step fun _ ↦ .step fun _ ↦
    .step fun _ ↦ .step fun _ ↦ .value (.step fun _ ↦ .pure)) (.step fun _ ↦ .grow (fun e ↦ ?_)
      fun e ↦ .step fun _ ↦ .pure)
  exact .step fun _ ↦ .ite (.step fun _ ↦ .pure) .pure

/-- The first of several rules that does not fail is taken. -/
theorem exists_of_firstOf {rules : List (Reader Node)} {ctx : Context} {c c' : Cursor} {n : Node}
    (h : (do
      for rule in rules do
        match ← attempt rule with
        | some node => return node
        | none => pure ()
      fail : Reader Node) ctx c = some (n, c')) : ∃ rule ∈ rules, rule ctx c = some (n, c') := by
  induction rules with
  | nil => cases h
  | cons rule rules ih =>
    simp only [List.forIn_cons, bind_assoc] at h
    obtain ⟨o, c₁, ho, h⟩ := exists_of_bind_eq_some h
    unfold attempt at ho
    split at ho
    · next hrule =>
      cases ho
      cases h
      exact ⟨rule, List.mem_cons_self, hrule⟩
    · cases ho
      obtain ⟨rule', hmem, hrule'⟩ := ih h
      exact ⟨rule', List.mem_cons_of_mem _ hmem, hrule'⟩

theorem carries_firstOf {late : Bool} {known : List (Span × Span)} {rules : List (Reader Node)}
    (h : ∀ rule ∈ rules, Carries source late known rule) :
    Carries source late known (do
      for rule in rules do
        match ← attempt rule with
        | some node => return node
        | none => pure ()
      fail : Reader Node) where
  found hc hrules := by
    obtain ⟨rule, hmem, hrule⟩ := exists_of_firstOf hrules
    exact (h rule hmem).found hc hrule

instance : Opens source [] importDeclaration := by
  unfold importDeclaration
  refine .first fun _ ↦ .step fun t ↦ ?_
  split
  · exact .step fun (source, attributes) ↦ .pure
  · refine carries_firstOf ?_
    simp only [List.forall_mem_cons]
    refine ⟨inferInstance, ?_, ?_, ?_, nofun⟩
    · exact .step fun _ ↦ .step fun _ ↦ inferInstance
    · exact .step fun _ ↦ inferInstance
    · exact .step fun _ ↦ .step fun _ ↦ inferInstance

/-! ## Exports -/

instance : Steps source exportSpecifier := by
  unfold exportSpecifier
  exact .bind fun (n, other, isType) ↦ inferInstance

instance (isType : Bool) : Opens source [] (exportList isType) := by
  unfold exportList
  exact .first fun _ ↦ .step fun (specifiers, _) ↦ .step fun _ ↦
    .ite (.step fun (source, attributes) ↦ .pure) (.step fun _ ↦ .step fun _ ↦ .pure)

instance (isType : Bool) : Opens source [] (exportAll isType) := by
  unfold exportAll
  refine .first fun _ ↦ .step fun _ ↦ .ite (.step fun _ ↦ ?_) (.step fun _ ↦ ?_) <;>
  exact .step fun _ ↦ .step fun (source, attributes) ↦ .pure

theorem opens_spanned {known : List (Span × Span)} {rule : Reader Node}
    (h : Opens source known rule) : Opens source known (spanned rule) := by
  unfold spanned
  exact .step fun _ ↦ .along h fun _ ↦ .step fun _ ↦ .pure

theorem carries_spanned {known : List (Span × Span)} {rule : Reader Node}
    (h : Carries source false known rule) : Carries source false known (spanned rule) := by
  unfold spanned
  exact .step fun _ ↦ .along [] h fun _ ↦ .step fun _ ↦ .pure

theorem carries_defaultValue (ds : List Node) :
    Carries source false (imports ds) (defaultValue r ds) := by
  unfold defaultValue
  refine .step fun t ↦ .step fun following ↦ .step fun isAbstract ↦ .ite (.step fun _ ↦ ?_) ?_ <;>
  · refine .ite (.bind fun own ↦ .step fun _ ↦ .step fun _ ↦ .ite (.step fun _ ↦ ?_) ?_)
      (.step fun _ ↦ .ite (.bind fun _ ↦ .pure) (.ite .anew .anew)) <;>
    exact .along [] (opens_classRest r (ds ++ own)).carries.early fun _ ↦ .pure

instance (ds : List Node) : Moves source (defaultValue r ds) := by
  have hclass (own : List Node) : Moves source (classRest r (ds ++ own)) :=
    (opens_classRest r _).moves
  have hsteps (own : List Node) : Steps source (classRest r (ds ++ own)) :=
    (opens_classRest r _).carries.steps
  unfold defaultValue
  refine .right fun t ↦ .right fun following ↦ .right fun isAbstract ↦
    .ite (.right fun _ ↦ ?_) ?_ <;>
  exact .ite (.right fun _ ↦ .right fun _ ↦ .right fun _ ↦ .ite inferInstance inferInstance)
    (.right fun _ ↦ .ite inferInstance (.ite inferInstance inferInstance))

theorem opens_exportDefault (ds : List Node) :
    Opens source (imports ds) (exportDefault r ds) := by
  unfold exportDefault
  exact .first fun _ ↦ .along [] (carries_spanned (carries_defaultValue r ds)) fun (inner, node) ↦
    .ite (.step fun _ ↦ .pure) .pure

/-- The declaration that an export names, with the decorators in front of the export or behind
it. -/
def namedDeclaration (ds : List Node) : Reader Node := do
  let own ← decorators r
  guardThat (ds.isEmpty || own.isEmpty)
  decoratedDeclaration r (ds ++ own)

theorem exportedDeclaration_eq (r : Rules) (ds : List Node) :
    exportedDeclaration r ds = do
      let (inner, node) ← spanned (namedDeclaration r ds)
      return .exportDeclaration inner node :=
  rfl

theorem opens_namedDeclaration (ds : List Node) :
    Opens source (imports ds) (namedDeclaration r ds) := by
  unfold namedDeclaration
  exact .bind fun own ↦ .step fun _ ↦
    imports_append ds own ▸ opens_decoratedDeclaration r (ds ++ own)

theorem opens_exportedDeclaration (ds : List Node) :
    Opens source (imports ds) (exportedDeclaration r ds) := by
  rw [exportedDeclaration_eq]
  exact .along (opens_spanned (opens_namedDeclaration r ds)) fun (inner, node) ↦ .pure

instance : Opens source [] exportOfTypes := by
  unfold exportOfTypes
  exact .step fun _ ↦ .first fun _ ↦ .step fun _ ↦ .ite inferInstance inferInstance

instance : Opens source [] exportAsNamespace := by
  unfold exportAsNamespace
  exact .step fun _ ↦ .first fun _ ↦ .step fun _ ↦ .step fun _ ↦ .step fun _ ↦ .pure

theorem opens_exportStatement (ds : List Node) :
    Opens source (imports ds) (exportStatement r ds) := by
  have hequals (isType : Bool) : Carries source false [] (spanned (importEquals isType)) :=
    carries_spanned inferInstance
  unfold exportStatement
  refine .first fun _ ↦ .step fun t ↦ .step fun following ↦
    .ite (opens_exportDefault r ds).carries.early (.ite .anew (.ite .anew (.ite
      (.step fun _ ↦ .step fun _ ↦ .bind fun _ ↦ .step fun _ ↦ .pure) (.ite ?_ (.ite .anew
        (.ite .anew (opens_exportedDeclaration r ds).carries.early))))))
  exact .step fun _ ↦ .step fun _ ↦ .step fun _ ↦ .step fun _ ↦ .ite
    (.step fun _ ↦ .bind fun (inner, node) ↦ .pure) (.bind fun (inner, node) ↦ .pure)

/-! ## All statements -/

instance (body : Reader Node) [Carries source false [] body] :
    Carries source false [] (itemOf body) := by
  unfold itemOf
  exact .step fun t ↦ .bind fun node ↦ .step fun _ ↦ .pure

instance (isSingle : Bool) : Carries source false [] (statement r isSingle) := by
  have hexport : Carries source false [] (exportStatement r []) :=
    (opens_exportStatement r []).carries.early
  unfold statement
  refine .step fun t ↦ .step fun following ↦ .ite (.bind fun ds ↦ .step fun _ ↦ .ite
    (.step fun keyword ↦ ?_) ?_) (.ite inferInstance (.ite inferInstance inferInstance))
  · exact .along [] (opens_exportStatement r ds).carries.early fun _ ↦ .step fun _ ↦ .pure
  · exact .along [] (opens_decoratedDeclaration r ds).carries.early fun _ ↦ .step fun _ ↦ .pure

/-! ## The rules tied together -/

/-- What is known of the rules that others enter holds of those that enter them. -/
instance : Rules.Sound source r.next where
  type := inferInstanceAs (Steps source (Grammar.type r))
  typeOperand := inferInstanceAs (Steps source (Grammar.typeOperand r))
  assignment := inferInstanceAs (Expresses source isImportCall (Grammar.assignment r))
  expression := inferInstanceAs (Expresses source isImportCall (Grammar.expression r))
  unary := inferInstanceAs (Expresses source isImportCall (Grammar.unary r))
  operand level := inferInstanceAs (Expresses source isImportCall (Grammar.operand r level))
  leftHandSide := inferInstanceAs (Carries source false [] (Grammar.leftHandSide r))
  constructed := inferInstanceAs (Carries source false [] (Grammar.constructed r))
  binding := inferInstanceAs (Carries source false [] (Grammar.binding r))
  target := inferInstanceAs (Carries source false [] (Grammar.target r))
  statement isSingle := inferInstanceAs (Carries source false [] (Grammar.statement r isSingle))

/-- Rules that always fail are sound. -/
instance : Rules.Sound source default where
  type := ⟨fun _ h ↦ by cases h⟩
  typeOperand := ⟨fun _ h ↦ by cases h⟩
  assignment := ⟨fun _ h ↦ by cases h⟩
  expression := ⟨fun _ h ↦ by cases h⟩
  unary := ⟨fun _ h ↦ by cases h⟩
  operand _ := ⟨fun _ h ↦ by cases h⟩
  leftHandSide := ⟨fun _ h ↦ by cases h⟩
  constructed := ⟨fun _ h ↦ by cases h⟩
  binding := ⟨fun _ h ↦ by cases h⟩
  target := ⟨fun _ h ↦ by cases h⟩
  statement _ := ⟨fun _ h ↦ by cases h⟩

instance rules_sound (size : Nat) : Rules.Sound source (Rules.nested size) := by
  induction size with
  | zero => exact inferInstanceAs (Rules.Sound source default)
  | succ size ih => exact inferInstanceAs (Rules.Sound source (Rules.nested size).next)

end Downlevel.Script.Grammar

namespace Downlevel.Script

/-! ## How statements are read -/

namespace Grammar

variable {r : Rules} {ctx : Context} {c c' : Cursor} {n : Node}

theorem exists_itemOf {p : Reader Node} (h : itemOf p ctx c = some (n, c')) :
    ∃ body, p ctx c = some (body, c') ∧
      n = .item ⟨c.token.span.start, c'.lastStop⟩ c.token.comments body := by
  obtain ⟨t, c₁, hpeek, h⟩ := exists_of_bind_eq_some h
  cases hpeek
  obtain ⟨body, c₁, hbody, h⟩ := exists_of_bind_eq_some h
  cases h
  exact ⟨body, hbody, rfl⟩

/-- All ways to read a statement. Decorators may stand in front of an export, which then starts
behind them, or belong to a class. -/
inductive ReadsStatement (r : Rules) (isSingle : Bool) (ctx : Context) (c : Cursor) :
    Node → Cursor → Prop where
  | decoratedExport {ds : List Node} {body : Node} {c₁ c' : Cursor}
      (hmark : c.token.isMark "@" = true) (hdecorators : decorators r ctx c = some (ds, c₁))
      (hword : c₁.token.isWord "export" = true)
      (hbody : exportStatement r ds ctx c₁ = some (body, c')) :
    ReadsStatement r isSingle ctx c
      (.item ⟨c₁.token.span.start, c'.lastStop⟩ c₁.token.comments body) c'
  | decorated {ds : List Node} {body : Node} {c₁ c' : Cursor} (hmark : c.token.isMark "@" = true)
      (hdecorators : decorators r ctx c = some (ds, c₁))
      (hbody : decoratedDeclaration r ds ctx c₁ = some (body, c')) :
    ReadsStatement r isSingle ctx c
      (.item ⟨c.token.span.start, c'.lastStop⟩ c.token.comments body) c'
  | exported {body : Node} {c' : Cursor} (hword : c.token.isWord "export" = true)
      (hbody : exportStatement r [] ctx c = some (body, c')) :
    ReadsStatement r isSingle ctx c
      (.item ⟨c.token.span.start, c'.lastStop⟩ c.token.comments body) c'
  | imported {body : Node} {c' : Cursor} (hword : c.token.isWord "import" = true)
      (hbody : importDeclaration ctx c = some (body, c')) :
    ReadsStatement r isSingle ctx c
      (.item ⟨c.token.span.start, c'.lastStop⟩ c.token.comments body) c'
  | plain {body : Node} {c' : Cursor} (hbody : plainStatement r isSingle ctx c = some (body, c')) :
    ReadsStatement r isSingle ctx c
      (.item ⟨c.token.span.start, c'.lastStop⟩ c.token.comments body) c'

theorem readsStatement_of_statement {isSingle : Bool}
    (h : statement r isSingle ctx c = some (n, c')) : ReadsStatement r isSingle ctx c n c' := by
  unfold statement at h
  obtain ⟨t, c₁, hpeek, h⟩ := exists_of_bind_eq_some h
  cases hpeek
  obtain ⟨following, c₁, hpeek, h⟩ := exists_of_bind_eq_some h
  cases hpeek
  split at h
  · next hmark =>
    obtain ⟨ds, c₁, hdecorators, h⟩ := exists_of_bind_eq_some h
    obtain ⟨isExport, c₂, hexport, h⟩ := exists_of_bind_eq_some h
    cases hexport
    split at h
    · next hword =>
      obtain ⟨keyword, c₂, hpeek, h⟩ := exists_of_bind_eq_some h
      cases hpeek
      obtain ⟨body, c₂, hbody, h⟩ := exists_of_bind_eq_some h
      cases h
      exact .decoratedExport hmark hdecorators hword hbody
    · obtain ⟨body, c₂, hbody, h⟩ := exists_of_bind_eq_some h
      cases h
      exact .decorated hmark hdecorators hbody
  split at h
  · next hword =>
    obtain ⟨body, hbody, rfl⟩ := exists_itemOf h
    exact .exported hword hbody
  split at h
  · next himport =>
    obtain ⟨body, hbody, rfl⟩ := exists_itemOf h
    rw [Bool.and_eq_true, Bool.and_eq_true] at himport
    exact .imported himport.1.1 hbody
  · obtain ⟨body, hbody, rfl⟩ := exists_itemOf h
    exact .plain hbody

/-- What every statement keeps, and every directive that a statement becomes, is kept while
statements are read in a row. They are collected in reverse. -/
theorem statements_induction {isEnd : Token → Bool} {ns : List Node}
    (Inv : List Node → Cursor → Prop) (hstart : Inv [] c)
    (hitem : ∀ {items c₁ n c₂}, Inv items c₁ → r.statement false ctx c₁ = some (n, c₂) →
      Inv (n :: items) c₂)
    (hdirective : ∀ {items c₁ span leading body c₂ raw}, Inv items c₁ →
      r.statement false ctx c₁ = some (.item span leading body, c₂) →
      directiveText c₁.token (.item span leading body) = some raw →
      Inv (.item span leading (.directive raw) :: items) c₂)
    (h : statements r isEnd ctx c = some (ns, c')) : Inv ns.reverse c' := by
  unfold statements at h
  obtain ⟨⟨reversed, isStart⟩, c₁, hloop, h⟩ := exists_of_bind_eq_some h
  cases h
  rw [List.reverse_reverse]
  refine grow_induction (fun a c₁ ↦ Inv a.1 c₁) ?_ hstart hloop
  rintro ⟨items, isStart⟩ c₁ o c₂ hinv hstep
  obtain ⟨t, c₃, hpeek, hstep⟩ := exists_of_bind_eq_some hstep
  cases hpeek
  split at hstep
  · cases hstep
    exact hinv
  · obtain ⟨n, c₃, hn, hstep⟩ := exists_of_bind_eq_some hstep
    generalize hraw : (if isStart = true then directiveText c₁.token n else none) = directive
      at hstep
    split at hstep
    · cases hstep
      exact hdirective hinv hn (Option.ite_none_right_eq_some.mp hraw).2
    · cases hstep
      exact hitem hinv hn

end Grammar

open Grammar

/-- The statements of a script are read in a row, from its first token to its end. -/
theorem exists_statements_of_parse {typed : Bool} {source : List Char} {m : Module}
    (h : parse typed source = some m) :
    ∃ c c', c.At source ∧ statements (Rules.nested (source.length + 2)) Token.isFinish
      (Context.ofScript typed (source.length + 2)) c = some (m.items, c') := by
  unfold parse at h
  dsimp only at h
  obtain ⟨⟨m', c'⟩, hbody, rfl⟩ := Option.map_eq_some_iff.mp h
  have hstart := Cursor.At.next (.inl (Scanner.takes_interpreter source)) false true false []
  unfold moduleBody at hbody
  obtain ⟨items, c₁, hitems, hbody⟩ := exists_of_bind_eq_some hbody
  obtain ⟨c₂, c₃, -, hbody⟩ := exists_of_bind_eq_some hbody
  obtain ⟨u, c₃, -, hbody⟩ := exists_of_bind_eq_some hbody
  obtain ⟨isTyped, c₃, -, hbody⟩ := exists_of_bind_eq_some hbody
  obtain ⟨u, c₃, -, hbody⟩ := exists_of_bind_eq_some hbody
  cases hbody
  exact ⟨_, _, hstart, hitems⟩

end Downlevel.Script
