import Downlevel.Proofs.CommonJs.MapComments
import Downlevel.Proofs.CommonJs.Statements
import Downlevel.Proofs.Script.Grammar.Shape
import Mathlib.Data.List.TakeWhile

/-!
# Declarations in a header

Behind the preamble, a header has the calls that move and then the statements that load modules.
These declare the names that the script imports, in whatever form it imports them, and the
references to modules, which are generated.

A name that a script declares cannot be read before its declaration has run: reading it throws.
All calls that move start from the name `jest`, and all of them stand in front of all declarations.
So each of them throws if the script imports that name, and none if it leaves the name to the
environment.
-/

namespace Downlevel.CommonJs

open Script Text

/-! ## Lines of joined texts -/

section Lines

variable {line text as : List Char}

theorem WholeLines.mem_lines_append (h : WholeLines as) (hline : line ≠ []) (bs : List Char) :
    line ∈ lines (as ++ bs) ↔ line ∈ lines as ∨ line ∈ lines bs := by
  have hempty : line ∉ lines [] := fun hmem ↦ hline (List.mem_singleton.mp hmem)
  rcases h with rfl | h
  · rw [List.nil_append, or_iff_right hempty]
  · rw [endsLine, beq_iff_eq, List.getLast?_eq_some_iff] at h
    obtain ⟨as, rfl⟩ := h
    rw [List.append_assoc, List.singleton_append, lines_append_newline, lines_append_newline,
      List.mem_append, List.mem_append, or_iff_left hempty]

theorem mem_lines_flatMap {α : Type} {f : α → List Char} {xs : List α}
    (h : ∀ x ∈ xs, WholeLines (f x)) (hline : line ≠ []) :
    line ∈ lines (xs.flatMap f) ↔ ∃ x ∈ xs, line ∈ lines (f x) := by
  induction xs with
  | nil => simpa [lines] using hline
  | cons x xs ih =>
    obtain ⟨hx, hxs⟩ := List.forall_mem_cons.mp h
    rw [List.flatMap_cons, hx.mem_lines_append hline, ih hxs, List.exists_mem_cons_iff]

/-- A text of one line. -/
theorem mem_lines_of_newlines (hone : newlines text = 1) (hwhole : WholeLines text)
    (hline : line ≠ []) : line ∈ lines text ↔ line ++ ['\n'] = text := by
  have hends : endsLine text = true := hwhole.resolve_left fun hnil ↦ by
    rw [hnil] at hone
    cases hone
  rw [endsLine, beq_iff_eq, List.getLast?_eq_some_iff] at hends
  obtain ⟨front, rfl⟩ := hends
  rw [newlines_append, newlines_cons_newline, newlines_nil, Nat.add_eq_right] at hone
  rw [lines_append_newline, lines_of_notMem (newlines_eq_zero.mp hone), List.append_left_inj,
    List.mem_append, List.mem_singleton]
  exact or_iff_left fun hmem ↦ hline (List.mem_singleton.mp hmem)

end Lines

/-! ## Names that statements declare -/

/-- The line that declares a variable without a value. -/
def variableLine (name : String) : List Char := ("let " ++ name ++ ";").toList

/-- Whether a statement that takes the place of an import declares a name: in a pattern, in a list
of constants, or on a line of its own. -/
def ImportStatement.declares (name : String) : ImportStatement → Bool
  | effect _ => false
  | fields _ fs => (fs.map Prod.snd).contains name
  | defaultOnly _ _ n => name == n
  | reference _ _ n bs => name == n || (bs.map RuntimeImport.localName).contains name
  | guarded text => (lines text.toList).contains (variableLine name)

/-- The names that a statement imports. -/
def importedBy : Node → List String
  | .item _ _ (.importDeclaration i) => (i.specifiers.getD []).map ImportSpecifier.localName
  | _ => []

/-- The names that a script imports. -/
def importedNames (m : Module) : List String := m.items.flatMap importedBy

/-! ### Guarded imports -/

section Guarded

variable {name localName specifier : String}

theorem variableLine_ne_nil (name : String) : variableLine name ≠ [] := by
  rw [variableLine, String.toList_append]
  exact List.append_ne_nil_of_right_ne_nil _ (by decide)

theorem variableLine_notMem {text : String} (hone : newlines text.toList = 1)
    (hwhole : WholeLines text.toList) (hhead : text.toList.head? ≠ some 'l') :
    variableLine name ∉ lines text.toList := by
  rw [mem_lines_of_newlines hone hwhole (variableLine_ne_nil name)]
  rintro heq
  rw [← heq, variableLine, String.toList_append, String.toList_append] at hhead
  exact hhead rfl

theorem variableLine_mem_declaration (h : IsNameText localName) :
    variableLine name ∈ lines ("let " ++ localName ++ ";\n").toList ↔ name = localName := by
  have hclose : ";\n".toList = [';', '\n'] := by decide
  have hone : newlines ("let " ++ localName ++ ";\n").toList = 1 := by
    simp only [String.toList_append, newlines_append, h.newlines]
    decide
  rw [mem_lines_of_newlines hone (wholeLines_append_string _ rfl) (variableLine_ne_nil name)]
  simp [variableLine, hclose, String.toList_inj]

theorem variableLine_notMem_assignment {value : String} (h : IsNameText localName)
    (hvalue : newlines value.toList = 0) :
    variableLine name ∉ lines ("  " ++ localName ++ " = " ++ value ++ ";\n").toList := by
  refine variableLine_notMem ?_ (wholeLines_append_string _ rfl) ?_
  · simp only [String.toList_append, newlines_append, h.newlines, hvalue]
    decide
  · simp [String.toList_append]

/-- A guarded import declares its variable on the first of its lines, and no other one. -/
theorem variableLine_mem_guardedVariable {exported fallback : String} (h : IsNameText localName)
    (hfallback : newlines fallback.toList = 0) :
    variableLine name
        ∈ lines (ScopedImport.guardedVariable localName specifier exported fallback).toList
      ↔ name = localName := by
  have hwhole : ∀ front : String, WholeLines (front ++ ";\n").toList := fun _ ↦
    wholeLines_append_string _ rfl
  have hne := variableLine_ne_nil name
  -- Each of the lines behind the first one starts with another letter.
  have htry : variableLine name ∉ lines "try \x7b\n".toList :=
    variableLine_notMem (by decide +kernel) (.inr rfl) (by decide)
  have hloaded : variableLine name ∉ lines
      ("  " ++ localName ++ " = " ++ (requireCall specifier ++ propertyAccess exported)
        ++ ";\n").toList := variableLine_notMem_assignment h (newlines_loaded ..)
  have hcatch : variableLine name ∉ lines "\x7d catch (e) \x7b\n".toList :=
    variableLine_notMem (by decide +kernel) (.inr rfl) (by decide)
  have hfailed : variableLine name ∉ lines ("  " ++ localName ++ " = " ++ fallback
      ++ ";\n").toList := variableLine_notMem_assignment h hfallback
  have hend : variableLine name ∉ lines "\x7d\n".toList :=
    variableLine_notMem (by decide +kernel) (.inr rfl) (by decide)
  rw [guardedVariable_eq, String.toList_append, (hwhole _).mem_lines_append hne,
    variableLine_mem_declaration h, or_iff_left]
  rw [String.toList_append, WholeLines.mem_lines_append (.inr rfl) hne, or_iff_right htry,
    String.toList_append, (hwhole _).mem_lines_append hne, or_iff_right hloaded,
    String.toList_append, WholeLines.mem_lines_append (.inr rfl) hne, or_iff_right hcatch,
    String.toList_append, (hwhole _).mem_lines_append hne, or_iff_right hfailed]
  exact hend

theorem variableLine_mem_statements {kind : ScopedImport} {bs : List RuntimeImport} {text : String}
    (hbs : ∀ b ∈ bs, IsNameText b.localName) (h : kind.statements specifier bs = .ok text) :
    variableLine name ∈ lines text.toList ↔ name ∈ bs.map RuntimeImport.localName := by
  obtain ⟨texts, rfl, hall⟩ := exists_scopedStatements h
  have hone : ∀ {b t}, b ∈ bs → kind.statement specifier b = .ok t →
      (variableLine name ∈ lines t.toList ↔ name = b.localName) := by
    intro b t hb hstatement
    obtain ⟨exported, fallback, rfl, hfallback⟩ := exists_guardedVariable hstatement
    exact variableLine_mem_guardedVariable (hbs b hb) hfallback.newlines
  have hwhole : ∀ t ∈ texts, WholeLines t.toList := fun t ht ↦ by
    obtain ⟨b, -, hstatement⟩ := exists_of_mem_forall₂ hall ht
    exact wholeLines_scopedStatement hstatement
  rw [String.toList_join, mem_lines_flatMap hwhole (variableLine_ne_nil name), List.mem_map]
  constructor
  · rintro ⟨t, ht, hline⟩
    obtain ⟨b, hb, hstatement⟩ := exists_of_mem_forall₂ hall ht
    exact ⟨b, hb, ((hone hb hstatement).mp hline).symm⟩
  · rintro ⟨b, hb, rfl⟩
    obtain ⟨t, ht, hstatement⟩ := exists_of_mem_forall₂ hall.flip hb
    exact ⟨t, ht, (hone hb hstatement).mpr rfl⟩

end Guarded

/-! ### Imports of a script -/

section Imports

variable {features : Features} {source : List Char} {m : Module} {d : Draft} {n : Node}
  {name : String}

/-- Without types, every specifier is bound when the script runs. -/
theorem forall₂_bindings {i : ImportDeclaration}
    (h : Grammar.ImportsValues (.importDeclaration i)) :
    List.Forall₂ (fun s b ↦ RuntimeImport.ofSpecifier s = some b)
      (i.specifiers.getD []) i.bindings := by
  obtain ⟨-, hvalues⟩ := h
  unfold ImportDeclaration.bindings
  generalize i.specifiers.getD [] = specifiers at hvalues ⊢
  induction specifiers with
  | nil => exact .nil
  | cons s ss ih =>
    obtain ⟨hs, hss⟩ := List.forall_mem_cons.mp hvalues
    obtain ⟨b, hb⟩ := Option.isSome_iff_exists.mp hs
    rw [List.filterMap_cons_some hb]
    exact .cons hb (ih hss)

theorem bindings_localName {i : ImportDeclaration}
    (h : Grammar.ImportsValues (.importDeclaration i)) :
    i.bindings.map RuntimeImport.localName
      = (i.specifiers.getD []).map ImportSpecifier.localName := by
  rw [← List.forall₂_eq_eq_eq, List.forall₂_map_left_iff, List.forall₂_map_right_iff]
  exact (forall₂_bindings h).flip.imp fun _ _ hb ↦ localName_of_ofSpecifier hb

/-- A statement that takes the place of an import declares what this imports, and perhaps a
reference to the module. -/
theorem StandsFor.declares_iff {s : ImportStatement} (h : StandsFor features n s)
    (hvalues : Grammar.HasBody Grammar.ImportsValues n)
    (hnames : ∀ name ∈ namesIn [n], IsNameText name) :
    s.declares name = true
      ↔ name ∈ importedBy n ∨ name ∈ (boundModules [s]).map Prod.fst := by
  cases h with
  | @guarded span leading i kind text howner htext =>
    have hmem : variableLine name ∈ lines text.toList ↔ name ∈ i.bindings.map _ :=
      variableLine_mem_statements (fun b hb ↦
        hnames _ (import_names_subset span leading i (List.mem_map_of_mem hb))) htext
    rw [bindings_localName hvalues] at hmem
    simpa [ImportStatement.declares, importedBy, boundModules] using hmem
  | effect hbindings =>
    have hlocal := bindings_localName hvalues
    rw [hbindings] at hlocal
    simp [ImportStatement.declares, importedBy, boundModules, ← hlocal]
  | fields hfields =>
    have hlocal := map_snd_of_mapM hfields
    rw [bindings_localName hvalues] at hlocal
    simp [ImportStatement.declares, importedBy, boundModules, hlocal]
  | defaultOnly hbindings =>
    have hlocal := bindings_localName hvalues
    rw [hbindings] at hlocal
    simp [ImportStatement.declares, importedBy, boundModules, ← hlocal, RuntimeImport.localName]
  | reference =>
    have hlocal := bindings_localName hvalues
    simp [ImportStatement.declares, importedBy, boundModules, hlocal, or_comm]
  | exportList => simp [ImportStatement.declares, importedBy, boundModules]
  | exportAll => simp [ImportStatement.declares, importedBy, boundModules]

/-- A script without types loads a module for every import. -/
theorem loads_of_mem_importedBy (hmodules : features.modules = true)
    (hvalues : Grammar.HasBody Grammar.ImportsValues n) (h : name ∈ importedBy n) :
    loads features n = true := by
  unfold importedBy at h
  split at h
  · next i =>
    have hvalues : Grammar.ImportsValues (.importDeclaration i) := hvalues
    rw [← bindings_localName hvalues] at h
    obtain ⟨b, hb, -⟩ := List.mem_map.mp h
    have hbinds : i.bindings.isEmpty = false :=
      List.isEmpty_eq_false_iff.mpr (List.ne_nil_of_mem hb)
    rw [loads, hvalues.1, hmodules, namesOnlyTypes, hbinds, Bool.and_false, Bool.not_false,
      Bool.and_true, Bool.or_true, Bool.and_true]
  · cases h

/-- The statements that load modules declare what a script imports and the references to
modules. -/
theorem declares_iff_of_draft (hmodules : features.modules = true)
    (hparse : parse false source = some m) (h : draft features source m = .ok d) (name : String) :
    d.imports.any (ImportStatement.declares name) = true
      ↔ name ∈ importedNames m ∨ name ∈ (boundModules d.imports).map Prod.fst := by
  have hvalues := importsValues_of_parse hparse
  have hone : ∀ {n s}, n ∈ m.items → StandsFor features n s →
      (s.declares name = true ↔ name ∈ importedBy n ∨ name ∈ (boundModules [s]).map Prod.fst) :=
    fun hn hs ↦ hs.declares_iff (hvalues _ hn) fun l hl ↦
      isNamePart_of_parse hparse l (mem_namesIn.mpr ⟨_, hn, hl⟩)
  rw [List.any_eq_true]
  constructor
  · rintro ⟨s, hs, hdeclares⟩
    obtain ⟨n, hn, hstand⟩ := exists_standsFor h hs
    refine ((hone hn hstand).mp hdeclares).imp
      (fun himported ↦ List.mem_flatMap.mpr ⟨n, hn, himported⟩) fun hreference ↦ ?_
    exact List.map_subset _ (boundModules_subset hs) hreference
  · rintro (himported | hreference)
    · -- An import that binds something loads its module, so a statement takes its place.
      obtain ⟨n, hn, himported⟩ := List.mem_flatMap.mp himported
      have hloads := loads_of_mem_importedBy hmodules (hvalues n hn) himported
      obtain ⟨s, hs, hstand⟩ :=
        exists_of_mem_forall₂ (standsFor_of_draft h).flip (List.mem_filter.mpr ⟨hn, hloads⟩)
      exact ⟨s, hs, (hone hn hstand).mpr (.inl himported)⟩
    · obtain ⟨helper, specifier, bs, hs⟩ := exists_reference_of_mem hreference
      exact ⟨_, hs, by simp [ImportStatement.declares]⟩

end Imports

/-! ## Statements in order -/

/-- A statement of a header behind the preamble. -/
inductive HeaderStep where
  /-- A call of a method of `jest`. -/
  | call (text : List Char)
  /-- Loads a module. -/
  | load (statement : ImportStatement)

namespace HeaderStep

/-- The text of a statement, with its line end. -/
def text : HeaderStep → List Char
  | call text => text ++ ['\n']
  | load s => s.text.toList

/-- Whether a statement declares a name. -/
def declares (name : String) : HeaderStep → Bool
  | call _ => false
  | load s => s.declares name

/-- The text of a call. -/
def call? : HeaderStep → Option (List Char)
  | call text => some text
  | load _ => none

end HeaderStep

/-- The calls that stand in front of the declaration of a name. They cannot read it, because a name
that is declared has no value before its declaration has run. Where nothing declares the name, it
is left to the environment, and no call is too early. -/
def earlyCalls (name : String) (steps : List HeaderStep) : List (List Char) :=
  if steps.any (HeaderStep.declares name) then
    (steps.takeWhile fun s ↦ !s.declares name).filterMap HeaderStep.call?
  else []

/-- A name is declared in front of every call. -/
def DeclaredFirst (name : String) (steps : List HeaderStep) : Prop :=
  ∀ front text back, steps = front ++ .call text :: back → ∃ s ∈ front, s.declares name = true

section Steps

variable {name : String} {steps : List HeaderStep}

theorem declaredFirst_iff (h : steps.any (HeaderStep.declares name) = true) :
    DeclaredFirst name steps ↔ earlyCalls name steps = [] := by
  rw [earlyCalls, if_pos h, List.filterMap_eq_nil_iff]
  constructor
  · intro hfirst s hs
    cases s with
    | load s => rfl
    | call text =>
      -- What stands in front of this call does not declare the name, against the hypothesis.
      obtain ⟨front, back, hsplit⟩ := List.append_of_mem hs
      have hsteps := List.takeWhile_append_dropWhile (p := fun s ↦ !s.declares name) (l := steps)
      rw [hsplit, List.append_assoc] at hsteps
      obtain ⟨t, ht, hdeclares⟩ := hfirst front text _ hsteps.symm
      have hnone := List.mem_takeWhile_imp (hsplit ▸ List.mem_append_left _ ht)
      rw [hdeclares] at hnone
      cases hnone
  · rintro hnone front text back rfl
    by_contra hfirst
    -- Then the call is among the statements in front of the declaration.
    have hfront : ∀ s ∈ front, (!s.declares name) = true := fun s hs ↦ by
      rw [Bool.not_eq_true', ← Bool.not_eq_true]
      exact fun hdeclares ↦ hfirst ⟨s, hs, hdeclares⟩
    have hcall := hnone (.call text) (by
      rw [List.takeWhile_append_of_pos hfront]
      exact List.mem_append_right _ List.mem_cons_self)
    cases hcall

theorem any_declares_append (calls : List (List Char)) (statements : List ImportStatement) :
    (calls.map HeaderStep.call ++ statements.map HeaderStep.load).any (HeaderStep.declares name)
      = statements.any (ImportStatement.declares name) := by
  have hcalls : (calls.map HeaderStep.call).any (HeaderStep.declares name) = false := by
    rw [List.any_map]
    exact List.any_eq_false.mpr fun _ _ ↦ Bool.false_ne_true
  rw [List.any_append, hcalls, Bool.false_or, List.any_map]
  rfl

/-- If all calls stand in front of all other statements, then all of them are too early or none
is. -/
theorem earlyCalls_append (calls : List (List Char)) (statements : List ImportStatement) :
    earlyCalls name (calls.map .call ++ statements.map .load)
      = if statements.any (ImportStatement.declares name) then calls else [] := by
  have hcalls : ∀ s ∈ calls.map HeaderStep.call, (!s.declares name) = true :=
    List.forall_mem_map.mpr fun _ _ ↦ rfl
  have hfound : (calls.map HeaderStep.call).filterMap HeaderStep.call? = calls := by
    rw [List.filterMap_map]
    exact List.filterMap_some
  have hrest : ((statements.map HeaderStep.load).takeWhile fun s ↦ !s.declares name).filterMap
      HeaderStep.call? = [] := by
    refine List.filterMap_eq_nil_iff.mpr fun s hs ↦ ?_
    obtain ⟨t, -, rfl⟩ := List.mem_map.mp ((List.takeWhile_sublist _).subset hs)
    rfl
  rw [earlyCalls, any_declares_append, List.takeWhile_append_of_pos hcalls, List.filterMap_append,
    hfound, hrest, List.append_nil]

end Steps

/-! ## Converted scripts -/

section Header

variable {features : Features} {source : List Char} {m : Module} {d : Draft}

/-- The statements of a header behind the preamble. -/
def headerSteps (features : Features) (source : List Char) (m : Module) (d : Draft) :
    List HeaderStep :=
  ((mockCalls m).map (movedText features source m)).map .call ++ d.imports.map .load

/-- Behind the preamble, a header declares what its script imports and nothing else but generated
names. No call that moves reads `jest` too early if the script does not import it, and all of them
do if it does. -/
structure HeaderDeclares (features : Features) (source : List Char) (m : Module) (d : Draft) :
    Prop where
  header : (d.parts features source).header = (preamble features d).toList
    ++ (headerSteps features source m d).flatMap HeaderStep.text
  imported : ∀ name ∈ importedNames m,
    (headerSteps features source m d).any (HeaderStep.declares name) = true
  imported_or_generated : ∀ name,
    (headerSteps features source m d).any (HeaderStep.declares name) = true →
      name ∈ importedNames m ∨ LooksGenerated name
  early : earlyCalls "jest" (headerSteps features source m d)
    = if "jest" ∈ importedNames m then (mockCalls m).map (movedText features source m) else []
  first_iff : "jest" ∈ importedNames m →
    (DeclaredFirst "jest" (headerSteps features source m d) ↔ mockCalls m = [])

theorem looksGenerated_of_mem_boundModules (h : draft features source m = .ok d) {name : String}
    (hname : name ∈ (boundModules d.imports).map Prod.fst) : LooksGenerated name :=
  (wellNamed_of_draft h).looksGenerated name (mem_generatedNames.mpr (.inr (.inr hname)))

theorem headerDeclares_of_draft (hhoists : features.hoists = true)
    (hmodules : features.modules = true) (hparse : parse false source = some m)
    (h : draft features source m = .ok d) : HeaderDeclares features source m d := by
  have hdeclares := declares_iff_of_draft hmodules hparse h
  have hjest : d.imports.any (ImportStatement.declares "jest") = true
      ↔ "jest" ∈ importedNames m := by
    refine (hdeclares "jest").trans (or_iff_left fun hmem ↦ ?_)
    -- Generated names begin with an underscore.
    obtain ⟨-, hhead⟩ := looksGenerated_of_mem_boundModules h hmem
    exact absurd hhead (by decide)
  have hearly : earlyCalls "jest" (headerSteps features source m d)
      = if "jest" ∈ importedNames m then (mockCalls m).map (movedText features source m)
        else [] := by
    rw [headerSteps, earlyCalls_append]
    exact if_congr hjest rfl rfl
  refine ⟨?_, fun name hname ↦ ?_, fun name hname ↦ ?_, hearly, fun himported ↦ ?_⟩
  · rw [header_of_draft h, movedCalls_eq hhoists, headerSteps, List.flatMap_append,
      List.flatMap_map, List.flatMap_map, List.flatMap_map, List.append_assoc]
    rfl
  · rw [headerSteps, any_declares_append]
    exact (hdeclares name).mpr (.inl hname)
  · rw [headerSteps, any_declares_append] at hname
    exact ((hdeclares name).mp hname).imp_right (looksGenerated_of_mem_boundModules h)
  · have hdeclared : (headerSteps features source m d).any (HeaderStep.declares "jest") = true := by
      rw [headerSteps, any_declares_append]
      exact hjest.mpr himported
    rw [declaredFirst_iff hdeclared, hearly, if_pos himported, List.map_eq_nil_iff]

end Header

/-- In every script that is converted with its imports and its calls that replace modules, the
header declares what the script imports, but `jest` only behind all calls that start from it. -/
theorem headerDeclares_of_convert {config : ModuleConfig} {filename code : String}
    {input : Option SourceMap} {unit : ScriptUnit} {m : Module}
    (hparse : parse false code.toList = some m) (huses : config.uses .jest = true)
    (hruns : config.runs .modulesCommonJs = true)
    (hconvert : convert config filename code input = .ok unit) :
    ∃ d tail, draft (Features.ofConfig config) code.toList m = .ok d ∧
      HeaderDeclares (Features.ofConfig config) code.toList m d ∧
      unit.code.toList = (d.parts (Features.ofConfig config) code.toList).header
        ++ dropMapComments (d.parts (Features.ofConfig config) code.toList).body ++ tail := by
  obtain ⟨d, tail, hdraft, hcode⟩ := exists_draft_of_convert hparse hconvert
  exact ⟨d, tail, hdraft, headerDeclares_of_draft huses hruns hparse hdraft, hcode⟩

/-- A call that starts from an imported `jest` runs too early. -/
theorem headerDeclares_of_convert_jest :
    let code := "import \x7b jest \x7d from \"@jest/globals\";\njest.mock(\"a\");\n"
    let config : ModuleConfig := ⟨.off, [.jest], [.modulesCommonJs]⟩
    let features := Features.ofConfig config
    ∃ unit m d tail, convert config "a.js" code none = .ok unit ∧
      HeaderDeclares features code.toList m d ∧
      unit.code.toList = (d.parts features code.toList).header
        ++ dropMapComments (d.parts features code.toList).body ++ tail ∧
      earlyCalls "jest" (headerSteps features code.toList m d) = ["jest.mock(\"a\");".toList] ∧
      ¬DeclaredFirst "jest" (headerSteps features code.toList m d) := by
  intro code config features
  have hread : ((parse false code.toList).any fun m ↦ decide ("jest" ∈ importedNames m) &&
      decide ((mockCalls m).map (movedText features code.toList m)
        = ["jest.mock(\"a\");".toList])) = true := by
    decide +kernel
  obtain ⟨m, hparse, hm⟩ := (Option.any_eq_true ..).mp hread
  rw [Bool.and_eq_true, decide_eq_true_iff, decide_eq_true_iff] at hm
  obtain ⟨himported, hmoved⟩ := hm
  have hcalls : mockCalls m ≠ [] := fun hnil ↦ by
    rw [hnil] at hmoved
    cases hmoved
  have hdone : (convert config "a.js" code none).toOption.isSome = true := by decide +kernel
  cases hconvert : convert config "a.js" code none with
  | error e => rw [hconvert] at hdone; cases hdone
  | ok unit =>
    obtain ⟨d, tail, -, hdeclares, hcode⟩ :=
      headerDeclares_of_convert hparse (by decide) (by decide) hconvert
    refine ⟨unit, m, d, tail, rfl, hdeclares, hcode, ?_,
      fun hfirst ↦ hcalls ((hdeclares.first_iff himported).mp hfirst)⟩
    rw [hdeclares.early, if_pos himported, hmoved]

/-- In the converted script, the call stands in front of the constant that it starts from. -/
theorem call_before_declaration :
    let code := "import \x7b jest \x7d from \"@jest/globals\";\njest.mock(\"a\");\n"
    let config : ModuleConfig := ⟨.off, [.jest], [.modulesCommonJs]⟩
    ∃ (m m' : Module) (unit : ScriptUnit), parse false code.toList = some m ∧
      convert config "a.js" code none = .ok unit ∧ parse false unit.code.toList = some m' ∧
      "jest" ∈ importedNames m ∧
      statementTexts unit.code.toList m'
        = ["\"use strict\";".toList, "jest.mock(\"a\");".toList,
          "const \x7b jest \x7d = require(\"@jest/globals\");".toList] := by
  intro code config
  let features := Features.ofConfig config
  let imports : List ImportStatement := [.fields "@jest/globals" [("jest", "jest")]]
  let cuts : List Edit := [⟨⟨0, 37⟩, ""⟩, ⟨⟨38, 53⟩, ""⟩]
  let script := "\"use strict\";\njest.mock(\"a\");\n"
    ++ "const \x7b jest \x7d = require(\"@jest/globals\");\n" ++ "\n\n"
  have hread : ((parse false code.toList).any fun m ↦ decide ("jest" ∈ importedNames m) &&
      (draft features code.toList m).toOption.any fun d ↦ decide (d.hasExports = false ∧
        d.names.defaultHelper = none ∧ d.names.wholeHelper = none ∧ d.exports = [] ∧
        d.hoisted = ["jest.mock(\"a\");"] ∧ d.imports = imports ∧ d.edits = cuts)) = true := by
    decide +kernel
  have hagain : (parse false script.toList).any (fun m' ↦ decide (statementTexts script.toList m'
      = ["\"use strict\";".toList, "jest.mock(\"a\");".toList,
        "const \x7b jest \x7d = require(\"@jest/globals\");".toList])) = true := by
    decide +kernel
  have hbody : Edit.apply 0 cuts code.toList = ['\n', '\n'] := by
    rw [Edit.apply_eq_splice (by decide) (by decide)]
    decide +kernel
  obtain ⟨m, hparse, hm⟩ := (Option.any_eq_true ..).mp hread
  obtain ⟨m', hparse', htexts⟩ := (Option.any_eq_true ..).mp hagain
  rw [Bool.and_eq_true, decide_eq_true_iff] at hm
  obtain ⟨himported, hm⟩ := hm
  cases hdraft : draft features code.toList m with
  | error e => rw [hdraft] at hm; cases hm
  | ok d =>
    rw [hdraft] at hm
    obtain ⟨_, hd, hm⟩ := (Option.any_eq_true ..).mp hm
    cases hd
    obtain ⟨hmark, hdefault, hwhole, hexports, hhoisted, himports, hcuts⟩ := of_decide_eq_true hm
    have hheader : header features d = "\"use strict\";\njest.mock(\"a\");\n"
        ++ "const \x7b jest \x7d = require(\"@jest/globals\");\n" := by
      rw [header, preamble, hmark, hdefault, hwhole, hhoisted, himports]
      decide +kernel
    have hparts : d.parts features code.toList
        = ⟨(header features d).toList, Edit.apply 0 cuts code.toList, []⟩ := by
      rw [Draft.parts, hexports, hcuts]
      rfl
    obtain ⟨unit, hconvert, hcode⟩ : ∃ unit, convert config "a.js" code none = .ok unit ∧
        unit.code.toList = (d.parts features code.toList).text :=
      exists_code_of_draft hparse hdraft rfl
    have hscript : unit.code.toList = script.toList := by
      rw [hcode, hparts, hheader, hbody]
      decide +kernel
    refine ⟨m, m', unit, hparse, hconvert, ?_, himported, ?_⟩
    · rw [hscript]
      exact hparse'
    · rw [hscript]
      exact of_decide_eq_true htexts

end Downlevel.CommonJs
