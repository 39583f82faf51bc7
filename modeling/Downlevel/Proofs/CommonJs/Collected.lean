import Downlevel.Proofs.CommonJs.ConversionSteps
import Mathlib.Data.List.Basic

/-!
# What a draft collects

A draft is filled by one pass over the statements of a script. Every field is described by what a
single statement adds to it, and the run lemma turns that into a statement about whole scripts. The
edits do not depend on the draft: a statement is either cut out, or it loses the words in front of
what it exports, or it is left alone.
-/

namespace Downlevel.CommonJs

open Script

/-! ## Runs -/

section Run

variable {ε σ α : Type} {step : σ → α → Except ε σ}

/-- What every step keeps, given the steps made before, holds of a whole run. -/
theorem foldlM_induction (Inv : List α → σ → Prop) {s t : σ} {as : List α} (hstart : Inv [] s)
    (hstep : ∀ done a u v, Inv done u → step u a = .ok v → Inv (done ++ [a]) v)
    (hrun : as.foldlM step s = .ok t) : Inv as t := by
  suffices h : ∀ (as done : List α) (u : σ), Inv done u → as.foldlM step u = .ok t →
      Inv (done ++ as) t by
    simpa using h as [] s hstart hrun
  intro as
  induction as with
  | nil =>
    intro done u hu hrun
    cases hrun
    rwa [List.append_nil]
  | cons a as ih =>
    intro done u hu hrun
    rw [List.foldlM_cons] at hrun
    cases hv : step u a with
    | error e => rw [hv] at hrun; cases hrun
    | ok v =>
      rw [hv] at hrun
      have h := ih (done ++ [a]) v (hstep done a u v hu hv) hrun
      rwa [List.append_assoc, List.singleton_append] at h

/-- A list that every step extends by what its element adds. -/
theorem foldlM_flatMap {β : Type} (field : σ → List β) {added : α → List β} {s t : σ} {as : List α}
    (hstep : ∀ u a v, step u a = .ok v → field v = field u ++ added a)
    (hrun : as.foldlM step s = .ok t) : field t = field s ++ as.flatMap added := by
  refine foldlM_induction (fun done u ↦ field u = field s ++ done.flatMap added)
    (by simp) (fun done a u v hu hv ↦ ?_) hrun
  rw [hstep u a v hv, hu, List.flatMap_append, List.append_assoc, List.flatMap_cons,
    List.flatMap_nil, List.append_nil]

end Run

/-! ## Edits -/

/-- The edit that cuts a span out, except for its line feeds. -/
def cutEdit (source : List Char) (span : Span) : Edit :=
  ⟨span, String.ofList (List.replicate (Text.newlines (Text.slice source span)) '\n')⟩

/-- Whether a default export only declares a type. -/
def isTypeDeclaration : Node → Bool
  | .typeDeclaration _ => true
  | _ => false

/-- Whether a statement is cut out. -/
def isCut (features : Features) : Node → Bool
  | .item _ _ (.importDeclaration i) =>
    i.isType || (ScopedImport.owner? features.guarded i.source.value).isSome || features.modules
  | .item _ _ (.exportDefault _ value) => features.modules && isTypeDeclaration value
  | .item _ _ (.exportDeclaration _ d) => features.modules && !isRuntimeDeclaration d
  | .item _ _ (.exportList _) => features.modules
  | .item _ _ (.exportAll _) => features.modules
  | .item _ _ (.expressionStatement e) => features.hoists && isHoisted e
  | _ => false

/-- The edits of a default export that stays. -/
def defaultEdits (span inner : Span) (value : Node) : List Edit :=
  let front : Span := ⟨span.start, inner.start⟩
  match value with
  | .functionDeclaration _ | .classDeclaration _ =>
    match value.declaredNames with
    | _ :: _ => [⟨front, ""⟩]
    | [] => [⟨front, defaultAssignment⟩, ⟨⟨inner.stop, inner.stop⟩, ";"⟩]
  | _ => [⟨front, defaultAssignment⟩]

/-- The edits of a statement that stays, at the ends of what it exports. -/
def exportEdits (features : Features) : Node → List Edit
  | .item span _ (.exportDefault inner value) =>
    if features.modules then defaultEdits span inner value else []
  | .item span _ (.exportDeclaration inner _) =>
    if features.modules then [⟨⟨span.start, inner.start⟩, ""⟩] else []
  | _ => []

/-- The span of an item. -/
def itemSpan : Node → Span
  | .item span _ _ => span
  | _ => ⟨0, 0⟩

/-- The edits that a statement calls for. -/
def editsOf (features : Features) (source : List Char) (n : Node) : List Edit :=
  if isCut features n then [cutEdit source (itemSpan n)] else exportEdits features n

section Statement

variable {features : Features} {source : List Char} {promises : List Edit} {d d' : Draft} {n : Node}

theorem editsOf_of_isCut (hcut : isCut features n = true) :
    editsOf features source n = [cutEdit source (itemSpan n)] := if_pos hcut

theorem editsOf_of_isLeft (hleft : isLeft features n = true) : editsOf features source n = [] := by
  have hcut : isCut features n = false := by
    unfold isLeft at hleft
    unfold isCut
    grind
  have hexport : exportEdits features n = [] := by
    unfold isLeft at hleft
    unfold exportEdits
    grind
  rw [editsOf, hcut, if_neg Bool.false_ne_true, hexport]

namespace Draft

@[simp] theorem edit_edits (d : Draft) (span : Span) (text : String) :
    (d.edit span text).edits = d.edits ++ [⟨span, text⟩] := rfl

@[simp] theorem addExports_edits (d : Draft) (ss : List ExportStatement) :
    (d.addExports ss).edits = d.edits := rfl

@[simp] theorem marked_edits (d : Draft) : d.marked.edits = d.edits := rfl

/-- A statement adds the edits that it calls for. -/
theorem convert_edits (h : d.convert features source promises n = .ok d') :
    d'.edits = d.edits ++ editsOf features source n := by
  have hcut : isCut features n = true → d'.edits = d.edits ++ [cutEdit source (itemSpan n)] →
      d'.edits = d.edits ++ editsOf features source n := fun hcut hedits ↦ by
    rw [editsOf_of_isCut hcut, hedits]
  cases step_of_convert h with
  | left hleft => rw [editsOf_of_isLeft hleft, List.append_nil]
  | importedTypes htypes =>
    refine hcut ?_ rfl
    rcases htypes with htype | ⟨-, hmodules, -⟩
    · rw [isCut, htype, Bool.true_or, Bool.true_or]
    · rw [isCut, hmodules, Bool.or_true]
  | guardedImport _ howner => exact hcut (by rw [isCut, howner]; simp) rfl
  | replacedImport _ _ hmodules => exact hcut (by rw [isCut, hmodules, Bool.or_true]) rfl
  | defaultType hmodules => exact hcut (by rw [isCut, hmodules]; rfl) rfl
  | namedDefault hmodules hvalue hnames =>
    rcases hvalue with rfl | rfl <;>
      simp [editsOf, isCut, isTypeDeclaration, exportEdits, defaultEdits, hmodules, hnames]
  | namelessDefault hmodules hvalue hnames =>
    rcases hvalue with rfl | rfl <;>
      simp [editsOf, isCut, isTypeDeclaration, exportEdits, defaultEdits, hmodules, hnames]
  | @assignedDefault _ _ _ value hmodules htype hfunction hclass =>
    have htype : isTypeDeclaration value = false := by unfold isTypeDeclaration; grind
    simp [editsOf, isCut, exportEdits, defaultEdits, hmodules, htype]
  | declaration hmodules hruntime => simp [editsOf, isCut, exportEdits, hmodules, hruntime]
  | declaredType hmodules hruntime => exact hcut (by rw [isCut, hmodules, hruntime]; rfl) rfl
  | listOfTypes hmodules => exact hcut hmodules rfl
  | listFrom hmodules => exact hcut hmodules rfl
  | list hmodules => exact hcut hmodules rfl
  | allTypes hmodules => exact hcut hmodules rfl
  | wholeModule hmodules => exact hcut hmodules rfl
  | everything hmodules => exact hcut hmodules rfl
  | hoisted hcall => exact hcut hcall rfl

end Draft

end Statement

/-! ## Drafts of scripts -/

/-- The edits that convert the dynamic imports of a script. -/
def promisesOf (features : Features) (source : List Char) (m : Module) : List Edit :=
  (promiseEdits features source m (Names.ofScript m)).1

theorem promisesOf_eq (features : Features) (source : List Char) (m : Module) :
    promisesOf features source m
      = if features.dynamicImports then
          (dynamicImports m).map (promiseEdit source (Names.ofScript m).forWhole.1)
        else [] := by
  unfold promisesOf promiseEdits
  cases features.dynamicImports with
  | false => rfl
  | true =>
    simp only [if_true]
    cases dynamicImports m <;> rfl

/-- What a draft starts from. -/
def emptyDraft (features : Features) (source : List Char) (m : Module) : Draft :=
  { (default : Draft) with names := (promiseEdits features source m (Names.ofScript m)).2 }

/-- A draft is one run over the statements, with the edits of the dynamic imports at its end. -/
theorem exists_run_of_draft {features : Features} {source : List Char} {m : Module} {d : Draft}
    (h : draft features source m = .ok d) :
    ∃ r, m.items.foldlM (Draft.convert features source (promisesOf features source m))
        (emptyDraft features source m) = .ok r ∧
      d = { r with edits := r.edits ++ promisesOf features source m } := by
  unfold draft at h
  dsimp only at h
  cases hrun : m.items.foldlM (Draft.convert features source (promisesOf features source m))
      (emptyDraft features source m) with
  | error e =>
    rw [promisesOf, emptyDraft] at hrun
    rw [hrun] at h
    cases h
  | ok r =>
    refine ⟨r, rfl, ?_⟩
    rw [promisesOf, emptyDraft] at hrun
    rw [hrun] at h
    cases h
    rfl

/-- The edits of a script: those of its statements, and those of its dynamic imports. -/
def recordedEdits (features : Features) (source : List Char) (m : Module) : List Edit :=
  m.items.flatMap (editsOf features source) ++ promisesOf features source m

theorem edits_of_draft {features : Features} {source : List Char} {m : Module} {d : Draft}
    (h : draft features source m = .ok d) : d.edits = recordedEdits features source m := by
  obtain ⟨r, hrun, rfl⟩ := exists_run_of_draft h
  have hedits := foldlM_flatMap Draft.edits
    (fun _ _ _ hstep ↦ Draft.convert_edits hstep) hrun
  rw [hedits]
  rfl

end Downlevel.CommonJs
