import Downlevel.CommonJs.Conversion

/-!
# The steps of a conversion

What converting a single statement can do to a draft, with the conditions under which it does it.
Whatever a run over the statements of a script keeps is proved from these cases, so the functions
that convert a statement are taken apart in this module alone.
-/

namespace Downlevel.CommonJs

open Script

/-- A statement takes the place of an import with the given bindings, and the names are those with
the ones it needs. -/
inductive Replaces (names : Names) (specifier : String) (bs : List RuntimeImport) :
    ImportStatement → Names → Prop where
  | effect (hbindings : bs = []) : Replaces names specifier bs (.effect specifier) names
  | fields {fields : List (String × String)} (hfields : bs.mapM plainField? = some fields) :
    Replaces names specifier bs (.fields specifier fields) names
  | defaultOnly {localName : String} (hbindings : bs = [.default localName]) :
    Replaces names specifier bs
      (.defaultOnly names.forDefault.1 specifier localName) names.forDefault.2
  | reference (hsingle : ∀ localName, bs ≠ [.default localName])
      (hfields : bs.mapM plainField? = none) :
    Replaces names specifier bs
      (.reference names.forWhole.1 specifier (names.forWhole.2.forModule specifier).1 bs)
      (names.forWhole.2.forModule specifier).2

/-- Whether a statement is neither touched nor collected. -/
def isLeft (features : Features) : Node → Bool
  | .item _ _ (.importDeclaration i) =>
    !(i.isType || (ScopedImport.owner? features.guarded i.source.value).isSome || features.modules)
  | .item _ _ (.exportDefault ..) | .item _ _ (.exportDeclaration ..) | .item _ _ (.exportList _)
  | .item _ _ (.exportAll _) => !features.modules
  | .item _ _ (.expressionStatement e) => !(features.hoists && isHoisted e)
  | _ => true

namespace Draft

variable {features : Features} {source : List Char} {promises : List Edit} {d d' : Draft}

theorem exists_require_eq (d : Draft) (specifier : String) (bs : List RuntimeImport) :
    ∃ s names, Replaces d.names specifier bs s names ∧
      d.require specifier bs = { d with names }.addImport s := by
  unfold require
  split
  · exact ⟨_, _, .effect rfl, rfl⟩
  · next hfields => exact ⟨_, _, .fields hfields, rfl⟩
  · exact ⟨_, _, .defaultOnly rfl, rfl⟩
  · next hsingle hfields => exact ⟨_, _, .reference hsingle hfields, rfl⟩

/-- All that one statement can do to a draft. -/
inductive Step (features : Features) (source : List Char) (promises : List Edit) (d : Draft) :
    Node → Draft → Prop where
  | left {n : Node} (hleft : isLeft features n = true) : Step features source promises d n d
  /-- An import of types leaves nothing. -/
  | importedTypes {span : Span} {leading : List Comment} {i : ImportDeclaration}
      (htypes : i.isType = true ∨ ScopedImport.owner? features.guarded i.source.value = none ∧
        features.modules = true ∧ namesOnlyTypes i = true) :
    Step features source promises d (.item span leading (.importDeclaration i)) (d.cut source span)
  | guardedImport {span : Span} {leading : List Comment} {i : ImportDeclaration}
      {kind : ScopedImport} {text : String} (htype : i.isType = false)
      (howner : ScopedImport.owner? features.guarded i.source.value = some kind)
      (htext : kind.statements i.source.value i.bindings = .ok text) :
    Step features source promises d (.item span leading (.importDeclaration i))
      ((d.addImport (.guarded text)).cut source span)
  | replacedImport {span : Span} {leading : List Comment} {i : ImportDeclaration}
      {s : ImportStatement} {names : Names} (htype : i.isType = false)
      (howner : ScopedImport.owner? features.guarded i.source.value = none)
      (hmodules : features.modules = true) (hvalues : namesOnlyTypes i = false)
      (hs : Replaces d.names i.source.value i.bindings s names) :
    Step features source promises d (.item span leading (.importDeclaration i))
      (({ d with names }.addImport s).cut source span)
  | defaultType {span inner : Span} {leading : List Comment} {n : String}
      (hmodules : features.modules = true) :
    Step features source promises d
      (.item span leading (.exportDefault inner (.typeDeclaration n))) (d.marked.cut source span)
  | namedDefault {span inner : Span} {leading : List Comment} {value f : Node} {name : String}
      {names : List String} (hmodules : features.modules = true)
      (hvalue : value = .functionDeclaration f ∨ value = .classDeclaration f)
      (hnames : value.declaredNames = name :: names) :
    Step features source promises d (.item span leading (.exportDefault inner value))
      ((d.marked.edit ⟨span.start, inner.start⟩ "").addExports [.value "default" name])
  /-- A declaration without a name is assigned, and needs a semicolon then. -/
  | namelessDefault {span inner : Span} {leading : List Comment} {value f : Node}
      (hmodules : features.modules = true)
      (hvalue : value = .functionDeclaration f ∨ value = .classDeclaration f)
      (hnames : value.declaredNames = []) :
    Step features source promises d (.item span leading (.exportDefault inner value))
      ((d.marked.edit ⟨span.start, inner.start⟩ defaultAssignment).edit ⟨inner.stop, inner.stop⟩ ";")
  | assignedDefault {span inner : Span} {leading : List Comment} {value : Node}
      (hmodules : features.modules = true) (htype : ∀ n, value ≠ .typeDeclaration n)
      (hfunction : ∀ f, value ≠ .functionDeclaration f)
      (hclass : ∀ c, value ≠ .classDeclaration c) :
    Step features source promises d (.item span leading (.exportDefault inner value))
      (d.marked.edit ⟨span.start, inner.start⟩ defaultAssignment)
  | declaration {span inner : Span} {leading : List Comment} {declaration : Node}
      (hmodules : features.modules = true) (hruntime : isRuntimeDeclaration declaration = true) :
    Step features source promises d (.item span leading (.exportDeclaration inner declaration))
      ((d.marked.edit ⟨span.start, inner.start⟩ "").addExports
        (declaration.declaredNames.map fun n ↦ .value n n))
  | declaredType {span inner : Span} {leading : List Comment} {declaration : Node}
      (hmodules : features.modules = true) (hruntime : isRuntimeDeclaration declaration = false) :
    Step features source promises d (.item span leading (.exportDeclaration inner declaration))
      (d.marked.cut source span)
  | listOfTypes {span : Span} {leading : List Comment} {l : ExportList}
      (hmodules : features.modules = true) (htype : l.isType = true) :
    Step features source promises d (.item span leading (.exportList l)) (d.cut source span)
  | listFrom {span : Span} {leading : List Comment} {l : ExportList} {m : StringLiteral}
      (hmodules : features.modules = true) (htype : l.isType = false) (hsource : l.source = some m) :
    Step features source promises d (.item span leading (.exportList l))
      (((d.marked.reexport m.value).2.addExports ((l.specifiers.filter (!·.isType)).map fun s ↦
        .getter s.exported.text (d.marked.reexport m.value).1 s.source.text)).cut source span)
  | list {span : Span} {leading : List Comment} {l : ExportList}
      (hmodules : features.modules = true) (htype : l.isType = false) (hsource : l.source = none) :
    Step features source promises d (.item span leading (.exportList l))
      ((d.marked.addExports ((l.specifiers.filter (!·.isType)).map fun s ↦
        .value s.exported.text s.source.text)).cut source span)
  | allTypes {span : Span} {leading : List Comment} {a : ExportAll}
      (hmodules : features.modules = true) (htype : a.isType = true) :
    Step features source promises d (.item span leading (.exportAll a)) (d.cut source span)
  | wholeModule {span : Span} {leading : List Comment} {a : ExportAll} {name : ExportName}
      (hmodules : features.modules = true) (htype : a.isType = false)
      (hexported : a.exported = some name) :
    Step features source promises d (.item span leading (.exportAll a))
      (((d.marked.reexport a.source.value).2.addExports
        [.value name.text (d.marked.reexport a.source.value).1]).cut source span)
  | everything {span : Span} {leading : List Comment} {a : ExportAll}
      (hmodules : features.modules = true) (htype : a.isType = false)
      (hexported : a.exported = none) :
    Step features source promises d (.item span leading (.exportAll a))
      (((d.marked.reexport a.source.value).2.addExports
        [.all (d.marked.reexport a.source.value).1]).cut source span)
  | hoisted {span : Span} {leading : List Comment} {e : Node}
      (hcall : (features.hoists && isHoisted e) = true) :
    Step features source promises d (.item span leading (.expressionStatement e))
      (d.hoist source promises span)

section Cases

variable {span inner : Span} {leading : List Comment}

theorem step_importDeclaration {i : ImportDeclaration}
    (h : d.importDeclaration features source span i = .ok d') :
    d.Step features source promises (.item span leading (.importDeclaration i)) d' := by
  unfold importDeclaration at h
  dsimp only at h
  split at h
  · next htype =>
    cases h
    exact .importedTypes (.inl htype)
  · next htype =>
    rw [Bool.not_eq_true] at htype
    split at h
    · next kind howner =>
      split at h
      · next text htext =>
        cases h
        exact .guardedImport htype howner htext
      · cases h
    · next howner =>
      split at h
      · next hmodules =>
        cases h
        rw [Bool.not_eq_true'] at hmodules
        exact .left (by rw [isLeft, htype, howner, hmodules]; rfl)
      · next hmodules =>
        rw [Bool.not_eq_true', Bool.not_eq_false] at hmodules
        split at h
        · next htypes =>
          cases h
          exact .importedTypes (.inr ⟨howner, hmodules, htypes⟩)
        · next hvalues =>
          cases h
          obtain ⟨s, names, hs, hrequire⟩ := d.exists_require_eq i.source.value i.bindings
          rw [hrequire]
          exact .replacedImport htype howner hmodules (Bool.eq_false_iff.mpr hvalues) hs

theorem step_exportDefault (hmodules : features.modules = true) (d : Draft) (value : Node) :
    d.Step features source promises (.item span leading (.exportDefault inner value))
      (d.exportDefault source span inner value) := by
  unfold exportDefault
  dsimp only
  split
  · exact .defaultType hmodules
  · split
    · next hnames => exact .namedDefault hmodules (.inl rfl) hnames
    · next hnames => exact .namelessDefault hmodules (.inl rfl) hnames
  · split
    · next hnames => exact .namedDefault hmodules (.inr rfl) hnames
    · next hnames => exact .namelessDefault hmodules (.inr rfl) hnames
  · next htype hfunction hclass => exact .assignedDefault hmodules htype hfunction hclass

theorem step_exportDeclaration (hmodules : features.modules = true) (d : Draft)
    (declaration : Node) :
    d.Step features source promises (.item span leading (.exportDeclaration inner declaration))
      (d.exportDeclaration source span inner declaration) := by
  unfold exportDeclaration
  split
  · next hruntime => exact .declaration hmodules hruntime
  · next hruntime => exact .declaredType hmodules (Bool.eq_false_iff.mpr hruntime)

theorem step_exportList (hmodules : features.modules = true) (d : Draft) (l : ExportList) :
    d.Step features source promises (.item span leading (.exportList l))
      (d.exportList source span l) := by
  unfold exportList
  dsimp only
  split
  · next htype => exact .listOfTypes hmodules htype
  · next htype =>
    rw [Bool.not_eq_true] at htype
    split
    · next hsource => exact .listFrom hmodules htype hsource
    · next hsource => exact .list hmodules htype hsource

theorem step_exportAll (hmodules : features.modules = true) (d : Draft) (a : ExportAll) :
    d.Step features source promises (.item span leading (.exportAll a))
      (d.exportAll source span a) := by
  unfold exportAll
  dsimp only
  split
  · next htype => exact .allTypes hmodules htype
  · next htype =>
    rw [Bool.not_eq_true] at htype
    split
    · next hexported => exact .wholeModule hmodules htype hexported
    · next hexported => exact .everything hmodules htype hexported

end Cases

/-- Converting a statement is one of the steps. -/
theorem step_of_convert {n : Node} (h : d.convert features source promises n = .ok d') :
    d.Step features source promises n d' := by
  unfold convert at h
  split at h
  · exact step_importDeclaration h
  · cases h
    split
    · next hmodules => exact step_exportDefault hmodules d _
    · next hmodules => exact .left (by rw [isLeft, Bool.eq_false_iff.mpr hmodules]; rfl)
  · cases h
    split
    · next hmodules => exact step_exportDeclaration hmodules d _
    · next hmodules => exact .left (by rw [isLeft, Bool.eq_false_iff.mpr hmodules]; rfl)
  · cases h
    split
    · next hmodules => exact step_exportList hmodules d _
    · next hmodules => exact .left (by rw [isLeft, Bool.eq_false_iff.mpr hmodules]; rfl)
  · cases h
    split
    · next hmodules => exact step_exportAll hmodules d _
    · next hmodules => exact .left (by rw [isLeft, Bool.eq_false_iff.mpr hmodules]; rfl)
  · cases h
    split
    · next hcall => exact .hoisted hcall
    · next hcall => exact .left (by rw [isLeft, Bool.eq_false_iff.mpr hcall]; rfl)
  · cases h
    exact .left (by unfold isLeft; grind)

end Draft

end Downlevel.CommonJs
