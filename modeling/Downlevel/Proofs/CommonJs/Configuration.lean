import Downlevel.Proofs.CommonJs.MapComments
import Downlevel.Proofs.ScopedImport.Ownership

/-!
# What a conversion takes from its configuration

A conversion asks a configuration which passes are on and what becomes of the map, and nothing else.
Which passes are on decides about the parts of the converted script; the order of the passes could
only tell apart the owners of a module name, of which there is at most one. What becomes of the map
is decided when the parts are there, so it decides about nothing but the last line and what is
handed back. The name of the script and the map of the step before go into the map alone.
-/

namespace Downlevel

/-! ## Order and repetition of passes -/

/-- Two configurations have the same passes on, in any order and any number of times, and treat maps
alike. -/
structure ModuleConfig.AsksAlike (c c' : ModuleConfig) : Prop where
  sourceMaps : c.sourceMaps = c'.sourceMaps
  passes : ∀ p, p ∈ c.passes ↔ p ∈ c'.passes
  presets : Preset.jest ∈ c.presets ↔ Preset.jest ∈ c'.presets

namespace ModuleConfig

variable {c c' : ModuleConfig}

theorem mem_guardedKinds {k : ScopedImport} : k ∈ c.guardedKinds ↔ .scopedImport k ∈ c.passes := by
  unfold guardedKinds
  rw [List.mem_filterMap]
  constructor
  · rintro ⟨p, hp, hk⟩
    cases p <;> cases hk
    exact hp
  · intro hk
    exact ⟨_, hk, rfl⟩

theorem AsksAlike.runs (h : c.AsksAlike c') (p : Pass) : c.runs p = c'.runs p := by
  rw [Bool.eq_iff_iff, ModuleConfig.runs, ModuleConfig.runs, List.contains_iff_mem,
    List.contains_iff_mem]
  exact h.passes p

theorem AsksAlike.uses (h : c.AsksAlike c') : c.uses .jest = c'.uses .jest := by
  rw [Bool.eq_iff_iff, ModuleConfig.uses, ModuleConfig.uses, List.contains_iff_mem,
    List.contains_iff_mem]
  exact h.presets

end ModuleConfig

namespace CommonJs

open Script Text

/-! ## Features that ask for the same -/

/-- Two lists of features ask for the same, and every module name has the same owner. -/
structure Features.Alike (f g : Features) : Prop where
  modules : f.modules = g.modules
  dynamicImports : f.dynamicImports = g.dynamicImports
  hoists : f.hoists = g.hoists
  owner : ∀ specifier, ScopedImport.owner? f.guarded specifier
    = ScopedImport.owner? g.guarded specifier

theorem Features.alike_ofConfig {c c' : ModuleConfig} (h : c.AsksAlike c') :
    (Features.ofConfig c).Alike (Features.ofConfig c') where
  modules := h.runs .modulesCommonJs
  dynamicImports := by
    unfold Features.ofConfig
    rw [h.runs, h.runs]
  hoists := h.uses
  owner _ := ScopedImport.owner?_congr fun _ ↦
    ModuleConfig.mem_guardedKinds.trans ((h.passes _).trans ModuleConfig.mem_guardedKinds.symm)

namespace Features.Alike

variable {f g : Features}

theorem importDeclaration (h : f.Alike g) (source : List Char) (d : Draft) (span : Span)
    (i : ImportDeclaration) :
    d.importDeclaration f source span i = d.importDeclaration g source span i := by
  unfold Draft.importDeclaration
  dsimp only
  rw [h.owner, h.modules]

/-- One statement. -/
theorem convert (h : f.Alike g) (source : List Char) (promises : List Edit) (d : Draft)
    (n : Node) : d.convert f source promises n = d.convert g source promises n := by
  unfold Draft.convert
  split
  · exact h.importDeclaration source d _ _
  · rw [h.modules]
  · rw [h.modules]
  · rw [h.modules]
  · rw [h.modules]
  · rw [h.hoists]
  · rfl

/-- The whole run. -/
theorem draft (h : f.Alike g) (source : List Char) (m : Module) :
    draft f source m = draft g source m := by
  have hpromises : promiseEdits f source m (Names.ofScript m)
      = promiseEdits g source m (Names.ofScript m) := by
    unfold promiseEdits
    rw [h.dynamicImports]
  have hconvert : Draft.convert f source = Draft.convert g source := by
    funext promises d n
    exact h.convert source promises d n
  unfold CommonJs.draft
  rw [hpromises, hconvert]

theorem parts (h : f.Alike g) (source : List Char) (d : Draft) :
    d.parts f source = d.parts g source := by
  unfold Draft.parts header preamble
  rw [h.modules]

theorem partsOf {c c' : ModuleConfig} (h : (Features.ofConfig c).Alike (Features.ofConfig c'))
    (filename code : String) : partsOf c filename code = partsOf c' filename code := by
  unfold CommonJs.partsOf
  dsimp only
  cases parse false code.toList with
  | none => rfl
  | some m =>
    dsimp only
    rw [h.draft]
    cases CommonJs.draft (Features.ofConfig c') code.toList m with
    | error e => rfl
    | ok d => exact congrArg Except.ok (h.parts code.toList d)

end Features.Alike

/-- Configurations that ask for the same convert alike, whatever the order of their passes. Only the
owners of module names are looked for in that order, and a name has at most one owner. -/
theorem convert_eq_of_asksAlike {c c' : ModuleConfig} (h : c.AsksAlike c') :
    (∀ filename code input, convert c filename code input = convert c' filename code input) ∧
      (∀ (specifier : String) (k k' : ScopedImport),
        k.owns specifier = true → k'.owns specifier = true → k = k') ∧
      ∀ (specifier : String) (kinds kinds' : List ScopedImport),
        (∀ k, k ∈ kinds ↔ k ∈ kinds') →
          ScopedImport.owner? kinds specifier = ScopedImport.owner? kinds' specifier := by
  refine ⟨fun filename code input ↦ ?_, fun _ _ _ ↦ ScopedImport.eq_of_owns,
    fun _ _ _ ↦ ScopedImport.owner?_congr⟩
  have hparts := (Features.alike_ofConfig h).partsOf filename code
  unfold convert
  rw [hparts, h.sourceMaps]

/-- With its passes the other way round, and some of them twice, the default configuration converts
a script with a scoped import and a call that moves as before. -/
theorem convert_eq_of_asksAlike_reverse :
    let c : ModuleConfig := default
    let c' : ModuleConfig := ⟨.both, [.jest, .jest], c.passes.reverse ++ [.modulesCommonJs]⟩
    let code := "import a from \"@salesforce/label/c.a\";\njest.mock(\"b\");\nexport default a;\n"
    c.AsksAlike c' ∧ c ≠ c' ∧ ∃ unit,
      convert c "a.js" code none = .ok unit ∧ convert c' "a.js" code none = .ok unit := by
  intro c c' code
  have hasks : c.AsksAlike c' := by
    refine ⟨rfl, fun p ↦ ?_, by decide⟩
    have hmodules : Pass.modulesCommonJs ∈ c.passes := by decide
    rw [List.mem_append, List.mem_reverse, List.mem_singleton]
    exact ⟨.inl, fun hp ↦ hp.elim id fun heq ↦ heq ▸ hmodules⟩
  have hdone : (convert c "a.js" code none).toOption.isSome = true := by decide +kernel
  cases hconvert : convert c "a.js" code none with
  | error e => rw [hconvert] at hdone; cases hdone
  | ok unit =>
    refine ⟨hasks, by decide, unit, rfl, ?_⟩
    rw [← (convert_eq_of_asksAlike hasks).1, hconvert]

/-! ## Maps within scripts and beside them -/

/-- A script with its map in a line of its own at the end. -/
def withMap (text : String) (map : SourceMap) : String :=
  text ++ (if text.toList.getLast? = some '\n' then "" else "\n") ++ map.comment

theorem toList_withMap (text : List Char) (map : SourceMap) :
    (withMap (String.ofList text) map).toList = freshLine text ++ map.comment.toList := by
  unfold withMap freshLine endsLine
  rw [String.toList_append, String.toList_append, String.toList_ofList]
  by_cases hends : text.getLast? = some '\n'
  · simp [hends]
  · simp [hends]

/-- The map stands in the last line. -/
theorem getLast?_lines_withMap (text : String) (map : SourceMap) :
    (lines (withMap text map).toList).getLast? = some map.comment.toList := by
  obtain ⟨front, hlines, -⟩ :=
    (wholeLines_freshLine text.toList).exists_lines_append map.comment.toList
  have hcomment := lines_of_notMem (newlines_eq_zero.mp (newlines_comment map))
  rw [← String.ofList_toList (s := text), toList_withMap, hlines, hcomment]
  exact List.getLast?_concat

section Policies

variable {config : ModuleConfig} {filename code : String} {parts : Parts}

/-- What becomes of the map has no part in the conversion. -/
theorem partsOf_policy (config : ModuleConfig) (policy : MapPolicy) (filename code : String) :
    partsOf { config with sourceMaps := policy } filename code = partsOf config filename code := rfl

/-- What a script is called has no part in its conversion, but a failure may name it. -/
theorem partsOf_cases (config : ModuleConfig) (code : String) :
    (∀ filename, ∃ e, partsOf config filename code = .error e) ∨
      ∃ parts, ∀ filename, partsOf config filename code = .ok parts := by
  unfold partsOf
  dsimp only
  cases parse false code.toList with
  | none => exact .inl fun filename ↦ ⟨_, rfl⟩
  | some m =>
    dsimp only
    cases draft (Features.ofConfig config) code.toList m with
    | error e => exact .inl fun _ ↦ ⟨e, rfl⟩
    | ok d => exact .inr ⟨_, fun _ ↦ rfl⟩

theorem convert_of_partsOf_error {e : Failure} (h : partsOf config filename code = .error e)
    (input : Option SourceMap) : convert config filename code input = .error e := by
  unfold convert
  rw [h]
  rfl

theorem convert_of_partsOf (h : partsOf config filename code = .ok parts)
    (input : Option SourceMap) :
    convert config filename code input
      = .ok ⟨if config.sourceMaps.carries then
            withMap (String.ofList parts.text) (mapOf parts filename code input)
          else String.ofList parts.text,
          if config.sourceMaps.handsBack then some (mapOf parts filename code input) else none⟩ := by
  unfold convert
  rw [h]
  dsimp only [bind, Except.bind, pure, Except.pure]
  split
  · rw [← toList_withMap, String.ofList_toList]
  · rfl

/-- Whatever becomes of the map, the conversion fails in the same way, or makes the same script with
the same map. The map is handed back, or stands in a line of its own at the end, or both, or neither.
The script does not depend on what it is called or on the map of the step before. -/
theorem convert_policies (config : ModuleConfig) (code : String) :
    (∀ filename, ∃ e, ∀ policy input,
      convert { config with sourceMaps := policy } filename code input = .error e) ∨
      ∃ text, ∀ filename input, ∃ map,
        convert { config with sourceMaps := .off } filename code input = .ok ⟨text, none⟩ ∧
          convert { config with sourceMaps := .external } filename code input
            = .ok ⟨text, some map⟩ ∧
          convert { config with sourceMaps := .inline } filename code input
            = .ok ⟨withMap text map, none⟩ ∧
          convert { config with sourceMaps := .both } filename code input
            = .ok ⟨withMap text map, some map⟩ ∧
          (lines (withMap text map).toList).getLast? = some map.comment.toList := by
  rcases partsOf_cases config code with hfails | ⟨parts, hparts⟩
  · refine .inl fun filename ↦ ?_
    obtain ⟨e, he⟩ := hfails filename
    exact ⟨e, fun policy input ↦
      convert_of_partsOf_error ((partsOf_policy config policy filename code).trans he) input⟩
  · refine .inr ⟨String.ofList parts.text, fun filename input ↦ ?_⟩
    have hpolicy : ∀ policy,
        partsOf { config with sourceMaps := policy } filename code = .ok parts :=
      fun policy ↦ (partsOf_policy config policy filename code).trans (hparts filename)
    exact ⟨mapOf parts filename code input, convert_of_partsOf (hpolicy .off) input,
      convert_of_partsOf (hpolicy .external) input, convert_of_partsOf (hpolicy .inline) input,
      convert_of_partsOf (hpolicy .both) input, getLast?_lines_withMap _ _⟩

end Policies

end CommonJs

end Downlevel
