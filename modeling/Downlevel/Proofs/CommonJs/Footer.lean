import Downlevel.Proofs.CommonJs.Exports
import Downlevel.Proofs.CommonJs.Header
import Downlevel.Proofs.Script.Distinct
import Downlevel.Proofs.Script.Name
import Mathlib.Data.List.Forall2
import Mathlib.Data.List.Pairwise

/-!
# Statements that write the exports

The statements at the end of a converted script refer to modules by generated names, and to values
by names of the script. Generated names differ from each other and from all names of the script, so
each statement means the export that it was made for. This is followed through the run of the
conversion, and then a run of the statements is a run of the exports of the script.
-/

namespace Downlevel.CommonJs

open Script

/-! ## References -/

/-- The names that are bound to modules, with the modules they are bound to. -/
def boundModules (imports : List ImportStatement) : List (String × String) :=
  imports.filterMap fun
    | .reference _ specifier name _ => some (name, specifier)
    | _ => none

/-- The module that a name refers to. -/
def reference? (imports : List ImportStatement) (name : String) : Option String :=
  (boundModules imports).lookup name

theorem boundModules_append (imports : List ImportStatement) (s : ImportStatement) :
    boundModules (imports ++ [s]) = boundModules imports ++ boundModules [s] :=
  List.filterMap_append

/-- If no name is bound twice, a name refers to the module that it is bound to. -/
theorem lookup_eq_some {α β : Type} [BEq α] [LawfulBEq α] {ps : List (α × β)} {a : α} {b : β}
    (hnodup : (ps.map Prod.fst).Nodup) (h : (a, b) ∈ ps) : ps.lookup a = some b := by
  induction ps with
  | nil => cases h
  | cons p ps ih =>
    rw [List.map_cons, List.nodup_cons] at hnodup
    rcases List.mem_cons.mp h with rfl | h
    · exact List.lookup_cons_self
    · have hne : a ≠ p.1 := fun heq ↦ hnodup.1 (heq ▸ List.mem_map_of_mem h)
      rw [List.lookup_cons, beq_eq_false_iff_ne.mpr hne]
      exact ih hnodup.2 h

theorem lookup_eq_none {α β : Type} [BEq α] [LawfulBEq α] {ps : List (α × β)} {a : α}
    (h : a ∉ ps.map Prod.fst) : ps.lookup a = none := by
  rw [List.lookup_eq_none_iff]
  refine fun p hp ↦ bne_iff_ne.mpr fun heq ↦ h ?_
  rw [heq]
  exact List.mem_map_of_mem hp

/-! ## What statements mean -/

variable {V : Type}

namespace World

variable (W : World V)

/-- What a statement at the end of a script writes, if the references in it are bound. -/
def meaning (imports : List ImportStatement) :
    ExportStatement → Except Thrown (List (String × Write V))
  | .value k target =>
    .ok [(k, .assign (((reference? imports target).map fun s ↦ (W.required s).self).getD
      (W.scope target)))]
  | .getter k r imported =>
    match reference? imports r with
    | some s => .ok (W.writes (.member k s imported))
    | none => .error .referenceError
  | .all r =>
    match reference? imports r with
    | some s => .ok (W.writes (.everything s))
    | none => .error .referenceError

/-- Runs the statements at the end of a script on the object of exports. -/
def runFooter (imports : List ImportStatement) (o : ExportObject V) (ss : List ExportStatement) :
    Except Thrown (ExportObject V) :=
  ss.foldlM (fun o s ↦ W.meaning imports s >>= W.run o) o

end World

/-- A statement is the one of an export: it refers to the module from which that comes, or to the
name of the script. -/
inductive Denotes (imports : List ImportStatement) (names : List String) :
    ExportStatement → OwnExport → Prop
  | name {k n : String} (h : n ∈ names) : Denotes imports names (.value k n) (.name k n)
  | member {k r s i : String} (h : (r, s) ∈ boundModules imports) :
    Denotes imports names (.getter k r i) (.member k s i)
  | whole {k r s : String} (h : (r, s) ∈ boundModules imports) :
    Denotes imports names (.value k r) (.whole k s)
  | everything {r s : String} (h : (r, s) ∈ boundModules imports) :
    Denotes imports names (.all r) (.everything s)

section Meaning

variable {imports : List ImportStatement} {names : List String}

theorem Denotes.mono {imports' : List ImportStatement}
    (hsub : boundModules imports ⊆ boundModules imports') {s : ExportStatement} {e : OwnExport}
    (h : Denotes imports names s e) : Denotes imports' names s e := by
  cases h with
  | name h => exact .name h
  | member h => exact .member (hsub h)
  | whole h => exact .whole (hsub h)
  | everything h => exact .everything (hsub h)

theorem denotes_map {α : Type} {f : α → ExportStatement} {g : α → OwnExport} {as : List α}
    (h : ∀ a ∈ as, Denotes imports names (f a) (g a)) :
    List.Forall₂ (Denotes imports names) (as.map f) (as.map g) := by
  rw [List.forall₂_map_left_iff, List.forall₂_map_right_iff, List.forall₂_same]
  exact h

/-- If generated names are bound once and are not names of the script, a statement writes what its
export does. -/
theorem Denotes.meaning_eq (W : World V) (hnodup : ((boundModules imports).map Prod.fst).Nodup)
    (hfresh : ∀ r ∈ (boundModules imports).map Prod.fst, r ∉ names) {s : ExportStatement}
    {e : OwnExport} (h : Denotes imports names s e) : W.meaning imports s = .ok (W.writes e) := by
  cases h with
  | name h =>
    have hnone : reference? imports _ = none := lookup_eq_none fun hr ↦ hfresh _ hr h
    rw [World.meaning, hnone]
    rfl
  | member h =>
    have hsome : reference? imports _ = some _ := lookup_eq_some hnodup h
    rw [World.meaning, hsome]
  | whole h =>
    have hsome : reference? imports _ = some _ := lookup_eq_some hnodup h
    rw [World.meaning, hsome]
    rfl
  | everything h =>
    have hsome : reference? imports _ = some _ := lookup_eq_some hnodup h
    rw [World.meaning, hsome]

theorem runFooter_eq (W : World V) {ss : List ExportStatement} {own : List OwnExport}
    (h : List.Forall₂ (fun s e ↦ W.meaning imports s = .ok (W.writes e)) ss own)
    (o : ExportObject V) : W.runFooter imports o ss = W.run o (own.flatMap W.writes) := by
  induction h generalizing o with
  | nil => rfl
  | cons hs _ ih =>
    rw [World.runFooter, List.foldlM_cons, hs, List.flatMap_cons, World.run, List.foldlM_append]
    exact bind_congr ih

end Meaning

/-! ## Hygiene -/

/-- Generated names are in use, they differ from each other, and none of them is a name of the
script. -/
structure Hygienic (names used : List String) (imports : List ImportStatement) : Prop where
  names_used : names ⊆ used
  references_used : (boundModules imports).map Prod.fst ⊆ used
  references_nodup : ((boundModules imports).map Prod.fst).Nodup
  references_fresh : ∀ r ∈ (boundModules imports).map Prod.fst, r ∉ names

namespace Hygienic

variable {names used used' : List String} {imports : List ImportStatement}

theorem of_subset (h : Hygienic names used imports) (hsub : used ⊆ used') :
    Hygienic names used' imports where
  names_used := List.Subset.trans h.names_used hsub
  references_used := List.Subset.trans h.references_used hsub
  references_nodup := h.references_nodup
  references_fresh := h.references_fresh

/-- A statement that binds no reference. -/
theorem append_other (h : Hygienic names used imports) {s : ImportStatement}
    (hs : boundModules [s] = []) : Hygienic names used (imports ++ [s]) := by
  have heq : boundModules (imports ++ [s]) = boundModules imports := by
    rw [boundModules_append, hs, List.append_nil]
  exact ⟨h.names_used, by rw [heq]; exact h.references_used, by rw [heq]; exact h.references_nodup,
    by rw [heq]; exact h.references_fresh⟩

/-- A statement that binds a name not in use. -/
theorem append_reference (h : Hygienic names used imports) {helper specifier name : String}
    {bindings : List RuntimeImport} (hname : name ∉ used) :
    Hygienic names (name :: used) (imports ++ [.reference helper specifier name bindings]) := by
  have heq : (boundModules (imports ++ [.reference helper specifier name bindings])).map Prod.fst
      = (boundModules imports).map Prod.fst ++ [name] := by
    rw [boundModules_append, List.map_append]
    rfl
  have hsub : used ⊆ name :: used := List.subset_cons_self name used
  refine ⟨List.Subset.trans h.names_used hsub, ?_, ?_, ?_⟩
  · rw [heq]
    exact List.append_subset.mpr ⟨List.Subset.trans h.references_used hsub, by simp⟩
  · rw [heq, List.nodup_append]
    refine ⟨h.references_nodup, List.nodup_singleton name, fun r hr s hs hrs ↦ hname ?_⟩
    rw [← List.mem_singleton.mp hs, ← hrs]
    exact h.references_used hr
  · rw [heq]
    intro r hr hrn
    rcases List.mem_append.mp hr with hr | hr
    · exact h.references_fresh r hr hrn
    · rw [List.mem_singleton.mp hr] at hrn
      exact hname (h.names_used hrn)

end Hygienic

theorem subset_used_forDefault (names : Names) : names.used ⊆ names.forDefault.2.used := by
  unfold Names.forDefault
  split
  · exact List.Subset.refl _
  · exact List.subset_cons_self _ _

theorem subset_used_forWhole (names : Names) : names.used ⊆ names.forWhole.2.used := by
  unfold Names.forWhole
  split
  · exact List.Subset.refl _
  · exact List.subset_cons_self _ _

theorem subset_used_promiseEdits (features : Features) (source : List Char) (m : Module)
    (names : Names) : names.used ⊆ (promiseEdits features source m names).2.used := by
  unfold promiseEdits
  split
  · exact List.Subset.refl _
  · exact subset_used_forWhole names

/-! ## Names of exports -/

section Names

variable (span inner : Span) (leading : List Comment)

theorem item_names_subset (body : Node) : namesIn [body] ⊆ namesIn [.item span leading body] :=
  Node.namesIn_singleton_subset (List.subset_cons_self ..)

theorem exportList_names_subset {l : ExportList} (hsource : l.source = none) :
    (l.specifiers.map fun s ↦ s.source.text) ⊆ namesIn [.item span leading (.exportList l)] := by
  obtain ⟨specifiers, source, attributes, isType⟩ := l
  cases hsource
  have hown := Node.ownNames_subset (.exportList ⟨specifiers, none, attributes, isType⟩)
  exact List.Subset.trans hown (item_names_subset span leading _)

theorem exportDeclaration_names_subset (declaration : Node) :
    declaration.declaredNames
      ⊆ namesIn [.item span leading (.exportDeclaration inner declaration)] := by
  have hinner : namesIn [declaration] ⊆ namesIn [.exportDeclaration inner declaration] :=
    Node.namesIn_singleton_subset (List.subset_cons_self ..)
  exact List.Subset.trans (Node.declaredNames_subset declaration)
    (List.Subset.trans hinner (item_names_subset span leading _))

theorem exportDefault_names_subset (value : Node) :
    value.declaredNames ⊆ namesIn [.item span leading (.exportDefault inner value)] := by
  have hinner : namesIn [value] ⊆ namesIn [.exportDefault inner value] :=
    Node.namesIn_singleton_subset (List.subset_cons_self ..)
  exact List.Subset.trans (Node.declaredNames_subset value)
    (List.Subset.trans hinner (item_names_subset span leading _))

end Names

/-! ## The run of the conversion -/

/-- A draft has collected the statements of exports, and its generated names are hygienic. -/
structure Tracks (names : List String) (own : List OwnExport) (d : Draft) : Prop where
  hygienic : Hygienic names d.names.used d.imports
  denotes : List.Forall₂ (Denotes d.imports names) d.exports own
  marked : own ≠ [] → d.hasExports = true

namespace Tracks

variable {names : List String} {own : List OwnExport} {d : Draft} {features : Features}
  {source : List Char}

theorem mark (h : Tracks names own d) : Tracks names own d.marked :=
  ⟨h.hygienic, h.denotes, fun _ ↦ rfl⟩

theorem cut (h : Tracks names own d) (span : Span) : Tracks names own (d.cut source span) :=
  ⟨h.hygienic, h.denotes, h.marked⟩

theorem edit (h : Tracks names own d) (span : Span) (text : String) :
    Tracks names own (d.edit span text) :=
  ⟨h.hygienic, h.denotes, h.marked⟩

theorem hoist (h : Tracks names own d) (promises : List Edit) (span : Span) :
    Tracks names own (d.hoist source promises span) :=
  ⟨h.hygienic, h.denotes, h.marked⟩

/-- A statement for an import that binds no reference. -/
theorem addOther (h : Tracks names own d) {s : ImportStatement} (hs : boundModules [s] = [])
    {names' : Names} (hsub : d.names.used ⊆ names'.used) :
    Tracks names own ({ d with names := names' }.addImport s) where
  hygienic := (h.hygienic.of_subset hsub).append_other hs
  denotes := h.denotes.imp fun _ _ hse ↦ hse.mono (by
    have happend : boundModules ({ d with names := names' }.addImport s).imports
        = boundModules d.imports ++ boundModules [s] := boundModules_append _ _
    rw [happend, hs, List.append_nil]
    exact List.Subset.refl _)
  marked := h.marked

/-- A statement for an import that binds a fresh reference. -/
theorem addReference (h : Tracks names own d) (helper specifier : String)
    (bindings : List RuntimeImport) {names' : Names} (hsub : d.names.used ⊆ names'.used) :
    Tracks names own ({ d with names := (names'.forModule specifier).2 }.addImport
      (.reference helper specifier (names'.forModule specifier).1 bindings)) where
  hygienic := (h.hygienic.of_subset hsub).append_reference (unusedName_notMem _ _)
  denotes := h.denotes.imp fun _ _ hse ↦ hse.mono (by
    have happend : boundModules ({ d with names := (names'.forModule specifier).2 }.addImport
          (.reference helper specifier (names'.forModule specifier).1 bindings)).imports
        = boundModules d.imports ++ [((names'.forModule specifier).1, specifier)] :=
      boundModules_append _ _
    rw [happend]
    exact List.subset_append_left _ _)
  marked := h.marked

theorem addExports (h : Tracks names own d) (hmarked : d.hasExports = true)
    {ss : List ExportStatement} {own' : List OwnExport}
    (hs : List.Forall₂ (Denotes d.imports names) ss own') :
    Tracks names (own ++ own') (d.addExports ss) where
  hygienic := h.hygienic
  denotes := List.rel_append h.denotes hs
  marked _ := hmarked

/-- The statement that takes the place of an import. -/
theorem replaces (h : Tracks names own d) {specifier : String} {bs : List RuntimeImport}
    {s : ImportStatement} {names' : Names} (hs : Replaces d.names specifier bs s names') :
    Tracks names own ({ d with names := names' }.addImport s) := by
  cases hs with
  | effect => exact h.addOther rfl (List.Subset.refl _)
  | fields => exact h.addOther rfl (List.Subset.refl _)
  | defaultOnly => exact h.addOther rfl (subset_used_forDefault d.names)
  | reference => exact h.addReference _ specifier _ (subset_used_forWhole d.names)

theorem reexport (h : Tracks names own d) (specifier : String) :
    Tracks names own (d.reexport specifier).2 :=
  h.addReference _ specifier [] (subset_used_forWhole d.names)

theorem mem_boundModules_reexport (d : Draft) (specifier : String) :
    ((d.reexport specifier).1, specifier) ∈ boundModules (d.reexport specifier).2.imports := by
  have happend : boundModules (d.reexport specifier).2.imports
      = boundModules d.imports ++ [((d.reexport specifier).1, specifier)] :=
    boundModules_append _ _
  rw [happend]
  exact List.mem_append_right _ (List.mem_singleton_self _)

/-- One statement. -/
theorem convert (h : Tracks names own d) (hmodules : features.modules = true) {d' : Draft}
    {promises : List Edit} {n : Node} (hnames : namesIn [n] ⊆ names)
    (hd : d.convert features source promises n = .ok d') :
    Tracks names (own ++ ownExports n) d' := by
  have hsame : ownExports n = [] → Tracks names own d' →
      Tracks names (own ++ ownExports n) d' := fun hnone hd ↦ by rwa [hnone, List.append_nil]
  cases Draft.step_of_convert hd with
  | left hleft =>
    refine hsame ?_ h
    unfold isLeft at hleft
    unfold ownExports
    grind
  | importedTypes => exact hsame rfl (h.cut _)
  | guardedImport => exact hsame rfl ((h.addOther rfl (List.Subset.refl _)).cut _)
  | replacedImport _ _ _ _ hs => exact hsame rfl ((h.replaces hs).cut _)
  | defaultType => exact hsame rfl (h.mark.cut _)
  | @namedDefault span inner leading value f name ns _ hvalue hdeclared =>
    have hname : name ∈ names := hnames (exportDefault_names_subset span inner leading value (by
      rw [hdeclared]
      exact List.mem_cons_self))
    have hown : ownExports (.item span leading (.exportDefault inner value))
        = [.name "default" name] := by
      rcases hvalue with rfl | rfl <;> simp only [ownExports, hdeclared]
    rw [hown]
    exact (h.mark.edit _ _).addExports rfl (.cons (.name hname) .nil)
  | namelessDefault _ hvalue hdeclared =>
    refine hsame ?_ ((h.mark.edit _ _).edit _ _)
    rcases hvalue with rfl | rfl <;> simp only [ownExports, hdeclared]
  | assignedDefault _ htype hfunction hclass =>
    refine hsame ?_ (h.mark.edit _ _)
    unfold ownExports
    grind
  | @declaration span inner leading declaration _ hruntime =>
    rw [ownExports, if_pos hruntime]
    exact (h.mark.edit _ _).addExports rfl (denotes_map fun n hn ↦
      .name (hnames (exportDeclaration_names_subset span inner leading _ hn)))
  | declaredType _ hruntime =>
    exact hsame (by rw [ownExports, hruntime]; rfl) (h.mark.cut _)
  | listOfTypes _ htype => exact hsame (by rw [ownExports, htype]; rfl) (h.cut _)
  | listFrom _ htype hsource =>
    rw [ownExports, htype, if_neg Bool.false_ne_true, hsource]
    exact ((h.mark.reexport _).addExports rfl (denotes_map fun e _ ↦
      .member (mem_boundModules_reexport _ _))).cut _
  | @list span leading l _ htype hsource =>
    rw [ownExports, htype, if_neg Bool.false_ne_true, hsource]
    refine (h.mark.addExports rfl (denotes_map fun e he ↦
      .name (hnames (exportList_names_subset span leading hsource ?_)))).cut span
    exact List.mem_map_of_mem (List.mem_of_mem_filter he)
  | allTypes _ htype => exact hsame (by rw [ownExports, htype]; rfl) (h.cut _)
  | wholeModule _ htype hexported =>
    rw [ownExports, htype, if_neg Bool.false_ne_true, hexported]
    exact ((h.mark.reexport _).addExports rfl
      (.cons (.whole (mem_boundModules_reexport _ _)) .nil)).cut _
  | everything _ htype hexported =>
    rw [ownExports, htype, if_neg Bool.false_ne_true, hexported]
    exact ((h.mark.reexport _).addExports rfl
      (.cons (.everything (mem_boundModules_reexport _ _)) .nil)).cut _
  | hoisted => exact hsame rfl (h.hoist _ _)

end Tracks

/-- The statements at the end of a converted script are those of its exports, in their order. -/
theorem tracks_of_draft {features : Features} {source : List Char} {m : Module} {d : Draft}
    (hmodules : features.modules = true) (h : draft features source m = .ok d) :
    Tracks (namesIn m.items) (m.items.flatMap ownExports) d := by
  obtain ⟨r, hrun, rfl⟩ := exists_run_of_draft h
  have hstart : Hygienic (namesIn m.items)
      (emptyDraft features source m).names.used (emptyDraft features source m).imports := by
    refine ⟨?_, List.nil_subset _, List.nodup_nil, nofun⟩
    exact subset_used_promiseEdits features source m (Names.ofScript m)
  -- The invariant holds for statements of the script, since their names are in use from the start.
  have htracks : (∀ n ∈ m.items, n ∈ m.items) →
      Tracks (namesIn m.items) (m.items.flatMap ownExports) r := by
    refine foldlM_induction (fun done u ↦ (∀ n ∈ done, n ∈ m.items) →
      Tracks (namesIn m.items) (done.flatMap ownExports) u) (fun _ ↦ ?_)
      (fun done n u v hu hv hmem ↦ ?_) hrun
    · exact ⟨hstart, .nil, fun h ↦ absurd rfl h⟩
    · have hn : namesIn [n] ⊆ namesIn m.items := fun name hname ↦
        mem_namesIn.mpr ⟨n, hmem n (by simp), hname⟩
      rw [List.flatMap_append, List.flatMap_singleton]
      exact (hu fun x hx ↦ hmem x (List.mem_append_left _ hx)).convert hmodules hn hv
  have hr := htracks fun _ hn ↦ hn
  exact ⟨hr.hygienic, hr.denotes, hr.marked⟩

/-! ## Distinct names -/

/-- A statement gives its exports names that it is accepted with. -/
theorem exportNames_sublist (n : Node) :
    (exportNames (ownExports n)).Sublist (Grammar.exportedNames n) := by
  -- Declarations export each name as it is; lists may leave out the exports of types.
  have hname : ∀ ns : List String, exportNames (ns.map fun n ↦ .name n n) = ns := by
    intro ns
    rw [exportNames, List.filterMap_map]
    exact List.filterMap_some
  unfold ownExports
  split
  · split
    · split
      · exact List.Sublist.refl _
      · exact List.nil_sublist _
    · split
      · exact List.Sublist.refl _
      · exact List.nil_sublist _
    · exact List.nil_sublist _
  · split
    · rw [hname]
      exact List.Sublist.refl _
    · exact List.nil_sublist _
  · next l =>
    have hlist : ∀ f : ExportSpecifier → OwnExport, (∀ s, (f s).exported? = some s.exported.text) →
        (exportNames ((l.specifiers.filter (!·.isType)).map f)).Sublist
          (l.specifiers.map fun s ↦ s.exported.text) := by
      intro f hf
      have hcomp : OwnExport.exported? ∘ f = some ∘ fun s ↦ s.exported.text := funext hf
      rw [exportNames, List.filterMap_map, hcomp, List.filterMap_eq_map]
      exact List.filter_sublist.map _
    split
    · exact List.nil_sublist _
    · split
      · exact hlist _ fun _ ↦ rfl
      · exact hlist _ fun _ ↦ rfl
  · next a =>
    split
    · exact List.nil_sublist _
    · split
      · next hexported =>
        rw [Grammar.exportedNames, hexported]
        exact List.Sublist.refl _
      · exact List.nil_sublist _
  · exact List.nil_sublist _

theorem nodup_exportNames {source : List Char} {m : Module} (h : parse false source = some m) :
    (exportNames (m.items.flatMap ownExports)).Nodup := by
  refine List.Nodup.sublist ?_ (nodup_exportedNames h)
  induction m.items with
  | nil => exact List.Sublist.refl _
  | cons n ns ih =>
    rw [List.flatMap_cons, List.flatMap_cons, exportNames, List.filterMap_append]
    exact (exportNames_sublist n).append ih

theorem default_of_assignsDefault {n : Node} (h : assignsDefault n = true) :
    "default" ∈ Grammar.exportedNames n ∧ ownExports n = [] := by
  unfold assignsDefault at h
  split at h
  · next span leading inner value =>
    refine ⟨List.mem_cons_self, ?_⟩
    unfold ownExports
    cases value with
    | typeDeclaration n => cases h
    | functionDeclaration f => simp only [List.isEmpty_iff.mp h]
    | classDeclaration c => simp only [List.isEmpty_iff.mp h]
    | _ => rfl
  · cases h

/-- A default export that is assigned in its place is the only one. -/
theorem default_notMem_exportNames {source : List Char} {m : Module}
    (h : parse false source = some m) (hassigns : m.items.any assignsDefault = true) :
    "default" ∉ exportNames (m.items.flatMap ownExports) := by
  obtain ⟨n, hn, hassigns⟩ := List.any_eq_true.mp hassigns
  intro hmem
  obtain ⟨e, he, hname⟩ := mem_exportNames.mp hmem
  obtain ⟨n', hn', he⟩ := List.mem_flatMap.mp he
  have hsecond : "default" ∈ Grammar.exportedNames n' :=
    (exportNames_sublist n').mem (mem_exportNames.mpr ⟨e, he, hname⟩)
  have hfirst := default_of_assignsDefault hassigns
  have hne : n ≠ n' := by
    rintro rfl
    rw [hfirst.2] at he
    cases he
  -- No two statements export the same name.
  have hdisjoint := (List.nodup_flatMap.mp (nodup_exportedNames h)).2
  have : Std.Symm fun a b ↦ List.Disjoint (Grammar.exportedNames a) (Grammar.exportedNames b) :=
    ⟨fun _ _ hab ↦ List.disjoint_symm hab⟩
  exact hdisjoint.forall hn hn' hne hfirst.1 hsecond

/-! ## Converted scripts -/

/-- When the exports of a converted script read right. The statements at its end run without an
error, every export with a name of its own has its value, and every key that a single module passes
on has the value of that module, exactly if the mark of converted modules is not the name of an
export and the writes of every key do no harm in the order in which the exports are written. An
assignment to `__proto__` is not covered. -/
theorem footer_readsRight_iff {config : ModuleConfig} {filename code : String} {m : Module}
    {parts : Parts} (hmodules : config.runs .modulesCommonJs = true)
    (hparse : parse false code.toList = some m) (hparts : partsOf config filename code = .ok parts)
    (hproto : ∀ e ∈ m.items.flatMap ownExports,
      e.isAssigned = true → e.exported? ≠ some "__proto__") :
    ∃ d : Draft, parts = d.parts (Features.ofConfig config) code.toList ∧
      ∀ (V : Type) (W : World V),
        (∃ o, W.runFooter d.imports
              (W.startObject d.hasExports (m.items.any assignsDefault)) d.exports = .ok o ∧
            ∀ key, W.ReadsRight (m.items.flatMap ownExports) (m.items.any assignsDefault) key
              (o key))
          ↔ "__esModule" ∉ exportNames (m.items.flatMap ownExports) ∧
            ∀ key, Harmless W key (W.writesOf (m.items.flatMap ownExports) key) := by
  obtain ⟨m', d, hparse', hdraft, rfl⟩ := exists_draft_of_partsOf hparts
  rw [hparse] at hparse'
  cases hparse'
  have hfeatures : (Features.ofConfig config).modules = true := hmodules
  have htracks := tracks_of_draft hfeatures hdraft
  refine ⟨d, rfl, fun V W ↦ ?_⟩
  have hmeaning : List.Forall₂ (fun s e ↦ W.meaning d.imports s = .ok (W.writes e)) d.exports
      (m.items.flatMap ownExports) := htracks.denotes.imp fun _ _ hse ↦
    hse.meaning_eq W htracks.hygienic.references_nodup htracks.hygienic.references_fresh
  rw [runFooter_eq W hmeaning]
  exact exists_run_readsRight_iff (nodup_exportNames hparse) (default_notMem_exportNames hparse)
    htracks.marked hproto

/-- A script exports `true` as `a`, and the module that it passes on has `false` under that key. -/
def collidingWorld : World Bool where
  scope _ := true
  required _ := ⟨true, ["a"], fun _ ↦ false⟩
  defaultValue := true
  mark := true
  same u v := u == v
  same_symm h := by rw [eq_of_beq h]; exact beq_self_eq_true _
  same_trans h h' := by rw [eq_of_beq h]; exact h'
  inherited _ := none
  assignPrototype _ := .ok none

/-- Behind an export of everything, an export of a key that was passed on does not read right. -/
theorem not_readsRight_of_collision :
    let code := "export * from \"./c\";\nexport const a = 1;\n"
    let config : ModuleConfig := ⟨.off, [], [.modulesCommonJs]⟩
    ∃ (m : Module) (d : Draft), parse false code.toList = some m ∧
      partsOf config "a.js" code = .ok (d.parts (Features.ofConfig config) code.toList) ∧
      ¬∃ o, collidingWorld.runFooter d.imports
            (collidingWorld.startObject d.hasExports (m.items.any assignsDefault)) d.exports
          = .ok o ∧
        ∀ key, collidingWorld.ReadsRight (m.items.flatMap ownExports) (m.items.any assignsDefault)
          key (o key) := by
  intro code config
  have hread : ((parse false code.toList).any fun m ↦ decide
      (m.items.flatMap ownExports = [.everything "./c", .name "a" "a"])) = true := by
    decide +kernel
  obtain ⟨m, hparse, hown⟩ := (Option.any_eq_true ..).mp hread
  rw [decide_eq_true_iff] at hown
  have hdone : (partsOf config "a.js" code).toOption.isSome = true := by decide +kernel
  cases hparts : partsOf config "a.js" code with
  | error e => rw [hparts] at hdone; cases hdone
  | ok parts =>
    obtain ⟨d, rfl, hiff⟩ := footer_readsRight_iff rfl hparse hparts (by rw [hown]; decide)
    refine ⟨m, d, hparse, rfl, fun hright ↦ ?_⟩
    have hharmless := ((hiff Bool collidingWorld).mp hright).2 "a"
    rw [hown] at hharmless
    -- The key is passed on first, and then a value is assigned to its getter.
    have hwrites : collidingWorld.writesOf [.everything "./c", .name "a" "a"] "a"
        = [.copy false, .assign true] := by decide
    rw [hwrites] at hharmless
    obtain ⟨slot, hrun, -⟩ := (World.harmless_iff (by decide) (by decide)).mpr hharmless
    cases hrun

end Downlevel.CommonJs
