import Downlevel.Proofs.Script.BoundNames
import Downlevel.Proofs.Script.Grammar.Kind

/-!
# The shapes of what is read

What holds of everything that a rule makes, stated on the rule: what a declaration binds is a
binding pattern, and in a script without types nothing is imported or exported as a type.
-/

namespace Downlevel.Script

namespace Grammar

section Lists

variable {α : Type} {P : α → Prop} {element : Reader α}

theorem yields_listUpTo (close : String) (h : Yields P element) :
    Yields (fun x ↦ ∀ a ∈ x.1, P a) (listUpTo close element) := by
  unfold listUpTo
  refine .bind (.repeats (P := fun x ↦ ∀ a ∈ x.1, P a) nofun ?_) fun (reversed, again, hasComma)
    hreversed ↦ .step fun _ ↦ .pure fun a ha ↦ hreversed a (List.mem_reverse.mp ha)
  rintro ⟨as, again, hasComma⟩ has
  refine .step fun _ ↦ .ite (.pure nofun) (.bind h fun a ha ↦ .step fun _ ↦ .pure ?_)
  rintro b ⟨⟩
  exact List.forall_mem_cons.mpr ⟨ha, has⟩

theorem yields_commaSeparated (h : Yields P element) :
    Yields (fun as ↦ ∀ a ∈ as, P a) (commaSeparated element) := by
  unfold commaSeparated
  refine .bind h fun first hfirst ↦ .bind (.repeats (P := fun as ↦ ∀ a ∈ as, P a)
    (List.forall_mem_singleton.mpr hfirst) fun as has ↦ ?_) fun reversed hreversed ↦
      .pure fun a ha ↦ hreversed a (List.mem_reverse.mp ha)
  refine .step fun _ ↦ .ite (.bind h fun a ha ↦ .pure ?_) (.pure nofun)
  rintro b ⟨⟩
  exact List.forall_mem_cons.mpr ⟨ha, has⟩

end Lists

/-! ## Binding patterns -/

/-- A pattern, or a part of one, that binds names. -/
def IsBinding (p : Node) : Prop := ∃ ns, Binds p ns

section Patterns

variable {r : Rules} {element rest : Reader Node}

theorem yields_withDefault {p : Node} (hp : IsBinding p) : Yields IsBinding (withDefault r p) := by
  obtain ⟨ns, hp⟩ := hp
  unfold withDefault
  exact .step fun _ ↦ .ite (.step fun v ↦ .pure ⟨ns, hp.withDefault v⟩) (.pure ⟨ns, hp⟩)

theorem isBinding_array {es : List Node} (h : ∀ e ∈ es, IsBinding e) : IsBinding (.array es) := by
  obtain ⟨ns, hes⟩ := bindsAll_of_forall h
  exact ⟨ns, .array hes⟩

theorem isBinding_object {ps : List Node} (h : ∀ p ∈ ps, IsBinding p) :
    IsBinding (.object ps) := by
  obtain ⟨ns, hps⟩ := bindsAll_of_forall h
  exact ⟨ns, .object hps⟩

theorem isBinding_spread {p : Node} (h : IsBinding p) : IsBinding (.spread p) := by
  obtain ⟨ns, hp⟩ := h
  exact ⟨ns, .rest hp⟩

/-- One more element of a pattern. -/
theorem forall_isBinding_cons {e : Node} {es : List Node} {isLast : Bool} (he : IsBinding e)
    (hes : ∀ e ∈ es, IsBinding e) :
    ∀ x ∈ some (e :: es, isLast), ∀ e ∈ x.1, IsBinding e := by
  rintro x ⟨⟩
  exact List.forall_mem_cons.mpr ⟨he, hes⟩

theorem yields_arrayPattern (helement : Yields IsBinding element) (hrest : Yields IsBinding rest) :
    Yields IsBinding (arrayPattern element rest) := by
  unfold arrayPattern
  refine .step fun _ ↦ .bind (.repeats (P := fun x ↦ ∀ e ∈ x.1, IsBinding e) nofun ?_)
    fun (reversed, isLast) hreversed ↦ .step fun _ ↦ .pure
      (isBinding_array fun e he ↦ hreversed e (List.mem_reverse.mp he))
  rintro ⟨es, isLast⟩ hes
  refine .step fun _ ↦ .ite (.pure nofun) (.step fun _ ↦ .ite ?_ (.step fun _ ↦ .ite ?_ ?_))
  · exact .pure (forall_isBinding_cons ⟨[], .elision⟩ hes)
  · exact .bind hrest fun p hp ↦ .pure (forall_isBinding_cons (isBinding_spread hp) hes)
  · refine .bind helement fun e he ↦ .step fun _ ↦ ?_
    exact .ite (.step fun _ ↦ .pure (forall_isBinding_cons he hes))
      (.pure (forall_isBinding_cons he hes))

theorem yields_patternProperty (helement : Yields IsBinding element) :
    Yields IsBinding (patternProperty r element) := by
  unfold patternProperty
  refine .step fun _ ↦ .ite ?_ ?_
  · refine .step fun key ↦ .step fun _ ↦ .bind helement fun p hp ↦ ?_
    obtain ⟨ns, hp⟩ := hp
    exact .pure ⟨ns, .property key hp⟩
  · exact .step fun n ↦ .step fun _ ↦ .ite (.step fun v ↦ .pure ⟨[n], .shorthand n (some v)⟩)
      (.pure ⟨[n], .shorthand n none⟩)

theorem yields_objectPattern (helement : Yields IsBinding element) (hrest : Yields IsBinding rest) :
    Yields IsBinding (objectPattern r element rest) := by
  unfold objectPattern
  refine .step fun _ ↦ .bind (.repeats (P := fun x ↦ ∀ p ∈ x.1, IsBinding p) nofun ?_)
    fun (reversed, isLast) hreversed ↦ .step fun _ ↦ .pure
      (isBinding_object fun p hp ↦ hreversed p (List.mem_reverse.mp hp))
  rintro ⟨ps, isLast⟩ hps
  refine .step fun _ ↦ .ite (.pure nofun) (.step fun _ ↦ .ite ?_ ?_)
  · exact .bind hrest fun p hp ↦ .pure (forall_isBinding_cons (isBinding_spread hp) hps)
  · refine .bind (yields_patternProperty helement) fun p hp ↦ .step fun _ ↦ ?_
    exact .ite (.step fun _ ↦ .pure (forall_isBinding_cons hp hps))
      (.pure (forall_isBinding_cons hp hps))

theorem yields_binding (h : Yields IsBinding r.binding) : Yields IsBinding (binding r) := by
  have hname : Yields IsBinding (do return .identifier (← name) : Reader Node) :=
    .step fun n ↦ .pure ⟨[n], .name n⟩
  have helement : Yields IsBinding (bindingElement r) := by
    unfold bindingElement
    exact .bind h fun p hp ↦ yields_withDefault hp
  unfold binding
  exact .step fun _ ↦ .ite (yields_arrayPattern helement h)
    (.ite (yields_objectPattern helement hname) hname)

theorem yields_nested_binding (n : Nat) : Yields IsBinding (Rules.nested n).binding := by
  induction n with
  | zero => exact .fail
  | succ n ih => exact yields_binding ih

end Patterns

/-! ## Declarations -/

/-- A declaration that declares names. -/
def IsDeclaring (d : Node) : Prop := ∃ ns, Declares d ns

section Declarations

variable {r : Rules}

theorem yields_declarator (h : Yields IsBinding r.binding) : Yields IsBinding (declarator r) := by
  unfold declarator
  refine .bind h fun p hp ↦ .settle (.step fun _ ↦ .step fun _ ↦ ?_)
  obtain ⟨ns, hp⟩ := hp
  exact .ite (.step fun v ↦ .step fun initial ↦ .pure ⟨ns, hp.declarator initial⟩)
    (.step fun initial ↦ .pure ⟨ns, hp.declarator initial⟩)

theorem yields_variableStatement (h : Yields IsBinding r.binding) (isSingle : Bool) :
    Yields IsDeclaring (variableStatement r isSingle) := by
  have hlist : Yields (fun x ↦ ∀ d ∈ x.2, IsBinding d) (variableList r) := by
    unfold variableList
    exact .step fun kind ↦ .bind (yields_commaSeparated (yields_declarator h)) fun ds hds ↦
      .pure hds
  unfold variableStatement
  refine .bind hlist fun (kind, ds) hds ↦ .step fun _ ↦ .step fun _ ↦ .step fun _ ↦ .step fun _ ↦ ?_
  obtain ⟨ns, hds⟩ := bindsAll_of_forall hds
  exact .pure ⟨ns, .variables kind hds⟩

theorem yields_functionDeclaration : Yields IsDeclaring (functionDeclaration r) := by
  unfold functionDeclaration
  refine .step fun f ↦ ?_
  split
  · exact .pure ⟨_, .function _ _ _ _ _⟩
  · exact .fail

theorem yields_classDeclaration (ds : List Node) : Yields IsDeclaring (classDeclaration r ds) := by
  unfold classDeclaration
  refine .step fun c ↦ ?_
  split
  · exact .pure ⟨_, .classDef _ _ _ _⟩
  · exact .fail

theorem yields_declaration (h : Yields IsBinding r.binding) (ds : List Node) :
    Yields IsDeclaring (declaration r ds) := by
  unfold declaration
  refine .step fun _ ↦ .ite (yields_classDeclaration ds) (.settle (.step fun _ ↦ .step fun _ ↦
    .ite (.step fun _ ↦ yields_classDeclaration ds) (.step fun _ ↦ .settle (.step fun _ ↦ ?_))))
  exact .ite (yields_variableStatement h false) yields_functionDeclaration

theorem yields_decoratedDeclaration (h : Yields IsBinding r.binding) (ds : List Node) :
    Yields IsDeclaring (decoratedDeclaration r ds) := by
  unfold decoratedDeclaration
  refine .settle ?_
  exact yields_declaration h ds

end Declarations

/-! ## Exports -/

/-- The body of a statement that exports nothing as a type. -/
def ExportsValues : Node → Prop
  | .exportDeclaration _ d => IsDeclaring d
  | .exportList l => l.isType = false ∧ ∀ s ∈ l.specifiers, s.isType = false
  | .exportAll a => a.isType = false
  | _ => True

/-- A statement with such a body. -/
def IsValueItem : Node → Prop
  | .item _ _ body => ExportsValues body
  | _ => False

theorem exportsValues_of_isInner {n : Node} (h : isInner n = true) : ExportsValues n := by
  unfold ExportsValues
  split
  · cases h
  · cases h
  · cases h
  · trivial

theorem exportsValues_of_isImport {n : Node} (h : isImport n = true) : ExportsValues n := by
  unfold isImport at h
  split at h
  · trivial
  · cases h

section Exports

variable {r : Rules}

theorem yields_listedName : Yields (fun x ↦ x.2.2 = false) listedName := by
  unfold listedName
  refine .step fun found ↦ ?_
  cases found with
  | none => exact .typedOnly
  | some x => exact .pure rfl

theorem yields_exportSpecifier : Yields (fun s ↦ s.isType = false) exportSpecifier := by
  unfold exportSpecifier
  exact .bind yields_listedName fun (n, other, isType) htype ↦ .pure htype

theorem yields_exportList : Yields ExportsValues (exportList false) := by
  unfold exportList
  refine .step fun _ ↦ .bind (yields_listUpTo closeBrace yields_exportSpecifier)
    fun found hfound ↦ .step fun _ ↦ ?_
  exact .ite (.step fun _ ↦ .pure ⟨rfl, hfound⟩)
    (.step fun _ ↦ .step fun _ ↦ .pure ⟨rfl, hfound⟩)

theorem yields_exportAll : Yields ExportsValues (exportAll false) := by
  unfold exportAll
  refine .step fun _ ↦ .step fun _ ↦ .ite (.step fun _ ↦ ?_) (.step fun _ ↦ ?_) <;>
  exact .step fun _ ↦ .step fun _ ↦ .pure rfl

theorem yields_spanned {P : Node → Prop} {p : Reader Node} (h : Yields P p) :
    Yields (fun x ↦ P x.2) (spanned p) := by
  unfold spanned
  exact .step fun _ ↦ .bind h fun n hn ↦ .step fun _ ↦ .pure hn

theorem yields_exportDefault (ds : List Node) : Yields ExportsValues (exportDefault r ds) := by
  unfold exportDefault
  refine .step fun _ ↦ .step fun found ↦ ?_
  dsimp only
  split
  · exact .step fun _ ↦ .pure trivial
  · exact .pure trivial

theorem yields_exportedDeclaration (h : Yields IsBinding r.binding) (ds : List Node) :
    Yields ExportsValues (exportedDeclaration r ds) := by
  have hdeclaration : Yields IsDeclaring (namedDeclaration r ds) := by
    unfold namedDeclaration
    exact .step fun own ↦ .step fun _ ↦ yields_decoratedDeclaration h (ds ++ own)
  rw [exportedDeclaration_eq]
  exact .bind (yields_spanned hdeclaration) fun _ hnode ↦ .pure hnode

theorem yields_exportStatement (h : Yields IsBinding r.binding) (ds : List Node) :
    Yields ExportsValues (exportStatement r ds) := by
  unfold exportStatement
  refine .step fun _ ↦ .step fun _ ↦ .step fun _ ↦ .ite (yields_exportDefault ds)
    (.ite yields_exportList (.ite yields_exportAll (.ite .typedOnly (.ite .typedOnly
      (.ite .typedOnly (.ite .typedOnly ?_))))))
  exact yields_exportedDeclaration h ds

end Exports

/-! ## Imports -/

/-- A specifier that binds something when the script runs. -/
def IsValueSpecifier (s : ImportSpecifier) : Prop := (RuntimeImport.ofSpecifier s).isSome = true

/-- The body of a statement that imports nothing as a type. -/
def ImportsValues : Node → Prop
  | .importDeclaration i => i.isType = false ∧
      ∀ s ∈ i.specifiers.getD [], IsValueSpecifier s
  | _ => True

section Imports

theorem yields_importSpecifier : Yields IsValueSpecifier importSpecifier := by
  unfold importSpecifier
  refine .bind yields_listedName fun (n, other, isType) htype ↦ ?_
  have htype : isType = false := htype
  subst htype
  dsimp only
  split
  · exact .step fun _ ↦ .step fun _ ↦ .pure rfl
  · exact .fail

theorem yields_importClause : Yields (fun ss ↦ ∀ s ∈ ss, IsValueSpecifier s) importClause := by
  have hmore (first : List ImportSpecifier) (hfirst : ∀ s ∈ first, IsValueSpecifier s) :
      Yields (fun ss ↦ ∀ s ∈ ss, IsValueSpecifier s) (do
        if ← takeMark "*" then
          word "as"
          return first ++ [.wholeModule (← name)]
        else
          mark openBrace
          return first ++ (← listUpTo closeBrace importSpecifier).1) := by
    refine .step fun _ ↦ .ite (.step fun _ ↦ .step fun n ↦ .pure ?_)
      (.step fun _ ↦ .bind (yields_listUpTo closeBrace yields_importSpecifier)
        fun (ss, _) hss ↦ .pure ?_)
    · exact List.forall_mem_append.mpr ⟨hfirst, List.forall_mem_singleton.mpr rfl⟩
    · exact List.forall_mem_append.mpr ⟨hfirst, hss⟩
  unfold importClause
  refine .step fun t ↦ .ite (.step fun n ↦ ?_) ?_
  · have hdefault : ∀ s ∈ [ImportSpecifier.defaultExport n], IsValueSpecifier s :=
      List.forall_mem_singleton.mpr rfl
    exact .bind (.pure hdefault) fun first hfirst ↦ .ite
      (.step fun _ ↦ .ite (hmore first hfirst) (.pure hfirst))
      (.step fun _ ↦ .ite (hmore first hfirst) (.pure hfirst))
  · exact .bind (P := fun ss ↦ ∀ s ∈ ss, IsValueSpecifier s) (.pure nofun) fun first hfirst ↦ .ite
      (.step fun _ ↦ .ite (hmore first hfirst) (.pure hfirst))
      (.step fun _ ↦ .ite (hmore first hfirst) (.pure hfirst))

theorem yields_importDeclaration : Yields ImportsValues importDeclaration := by
  have hfrom : Yields ImportsValues (importFrom false) := by
    unfold importFrom
    exact .bind yields_importClause fun specifiers hspecifiers ↦ .step fun _ ↦
      .step fun _ ↦ .pure ⟨rfl, hspecifiers⟩
  unfold importDeclaration
  refine .step fun _ ↦ .step fun t ↦ ?_
  split
  · exact .step fun _ ↦ .pure ⟨rfl, List.forall_mem_nil _⟩
  · refine .firstOf ?_
    simp only [List.forall_mem_cons]
    exact ⟨hfrom, .typedOnly, .typedOnly, .typedOnly, List.forall_mem_nil _⟩

theorem importsValues_of_isInner {n : Node} (h : isInner n = true) : ImportsValues n := by
  unfold ImportsValues
  split
  · cases h
  · trivial

theorem importsValues_of_isExportBody {n : Node} (h : isExportBody n = true) :
    ImportsValues n := by
  unfold ImportsValues
  split
  · cases h
  · trivial

end Imports

/-! ## Statements -/

section Statements

variable {P : Node → Prop} {r : Rules}

/-- A statement whose body has a property. -/
def HasBody (P : Node → Prop) : Node → Prop
  | .item _ _ body => P body
  | _ => False

theorem yields_itemOf {p : Reader Node} (h : Yields P p) : Yields (HasBody P) (itemOf p) := by
  unfold itemOf
  exact .step fun _ ↦ .bind h fun n hn ↦ .step fun _ ↦ .pure hn

/-- What holds of all imports and exports, and of everything else, holds of all statements. -/
theorem yields_statement (hinner : ∀ n, isInner n = true → P n)
    (himport : Yields P importDeclaration) (hexport : ∀ ds, Yields P (exportStatement r ds)) :
    Yields (HasBody P) (statement r false) := by
  have hplain : Makes isInner (plainStatement r false) := inferInstance
  have hdeclaration (ds : List Node) : Makes isInner (decoratedDeclaration r ds) := inferInstance
  unfold statement
  refine .step fun _ ↦ .step fun _ ↦ .ite (.step fun ds ↦ .step fun _ ↦ .ite ?_ ?_)
    (.ite (yields_itemOf (hexport [])) (.ite ?_ ?_))
  · exact .step fun _ ↦ .bind (hexport ds) fun n hn ↦ .step fun _ ↦ .pure hn
  · exact .bind (hdeclaration ds) fun n hn ↦ .step fun _ ↦ .pure (hinner n hn)
  · exact yields_itemOf himport
  · exact yields_itemOf (hplain.mono hinner)

theorem yields_statements {isEnd : Token → Bool} (hdirective : ∀ raw, P (.directive raw))
    (h : Yields (HasBody P) (r.statement false)) :
    Yields (fun ns ↦ ∀ n ∈ ns, HasBody P n) (statements r isEnd) := by
  unfold statements
  refine .bind (.repeats (P := fun x ↦ ∀ n ∈ x.1, HasBody P n) nofun ?_)
    fun (reversed, isStart) hreversed ↦ .pure fun n hn ↦ hreversed n (List.mem_reverse.mp hn)
  rintro ⟨items, isStart⟩ hitems
  refine .step fun t ↦ .ite (.pure nofun) (.bind h fun item hitem ↦ ?_)
  generalize (if isStart = true then directiveText t item else none) = directive
  split
  · refine .pure ?_
    rintro x ⟨⟩
    exact List.forall_mem_cons.mpr ⟨hdirective _, hitems⟩
  · refine .pure ?_
    rintro x ⟨⟩
    exact List.forall_mem_cons.mpr ⟨hitem, hitems⟩

/-- So it holds of every statement of a script. -/
theorem hasBody_of_parse (hinner : ∀ n, isInner n = true → P n)
    (hdirective : ∀ raw, P (.directive raw)) (himport : Yields P importDeclaration)
    (hexport : ∀ n ds, Yields P (exportStatement (Rules.nested n) ds)) {source : List Char}
    {m : Module} (h : parse false source = some m) : ∀ n ∈ m.items, HasBody P n := by
  obtain ⟨c, c', -, hitems⟩ := exists_statements_of_parse h
  have hstatement : Yields (HasBody P) ((Rules.nested (source.length + 2)).statement false) :=
    yields_statement hinner himport (hexport (source.length + 1))
  exact (yields_statements hdirective hstatement).yields rfl hitems

end Statements

end Grammar

/-! ## Scripts -/

/-- A script without types exports nothing as a type, and what it declares in an export is bound by
binding patterns. -/
theorem isValueItem_of_parse {source : List Char} {m : Module} (h : parse false source = some m) :
    ∀ n ∈ m.items, Grammar.IsValueItem n := by
  have himport : Grammar.Makes Grammar.isImport Grammar.importDeclaration := inferInstance
  exact Grammar.hasBody_of_parse (fun _ ↦ Grammar.exportsValues_of_isInner) (fun _ ↦ trivial)
    (himport.mono fun _ ↦ Grammar.exportsValues_of_isImport)
    (fun n ↦ Grammar.yields_exportStatement (Grammar.yields_nested_binding n)) h

/-- A script without types imports nothing as a type. -/
theorem importsValues_of_parse {source : List Char} {m : Module} (h : parse false source = some m) :
    ∀ n ∈ m.items, Grammar.HasBody Grammar.ImportsValues n := by
  have hexport (r : Grammar.Rules) (ds : List Node) :
      Grammar.Makes Grammar.isExportBody (Grammar.exportStatement r ds) := inferInstance
  exact Grammar.hasBody_of_parse (fun _ ↦ Grammar.importsValues_of_isInner) (fun _ ↦ trivial)
    Grammar.yields_importDeclaration
    (fun _ ds ↦ (hexport _ ds).mono fun _ ↦ Grammar.importsValues_of_isExportBody) h

end Downlevel.Script
