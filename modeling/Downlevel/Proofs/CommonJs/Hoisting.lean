import Downlevel.Proofs.CommonJs.LineCount
import Downlevel.Proofs.CommonJs.Parsed
import Downlevel.Proofs.Text.Leaves
import Mathlib.Data.List.Forall2

/-!
# Calls that move to the start

A call that replaces a module by a test double has to run before anything is loaded, so it moves to
the header, above all statements that load modules. It takes along what the edits of dynamic imports
make of its text; these edits are carried out on the cut of the text alone. The same edits are made
for the body as well, where they are dropped, because the call is cut out there.
-/

namespace Downlevel.CommonJs

open Script Text

variable {features : Features} {source : List Char} {m : Module} {n : Node} {d d' : Draft}

/-! ## Calls and their texts -/

/-- Whether a statement is a call that replaces modules by test doubles. -/
def isMockCall : Node → Bool
  | .item _ _ (.expressionStatement e) => isHoisted e
  | _ => false

/-- The calls of a script that replace modules by test doubles. -/
def mockCalls (m : Module) : List Node := m.items.filter isMockCall

/-- The calls of a script that move: all that replace modules by test doubles, or none. -/
def movedCalls (features : Features) (m : Module) : List Node :=
  m.items.filter fun n ↦ features.hoists && isMockCall n

theorem movedCalls_eq (hhoists : features.hoists = true) (m : Module) :
    movedCalls features m = mockCalls m := by
  rw [movedCalls, hhoists]
  rfl

/-- What the edits of the dynamic imports in a statement make of its text. -/
def movedText (features : Features) (source : List Char) (m : Module) (n : Node) : List Char :=
  Edit.apply (itemSpan n).start
    ((promisesOf features source m).filter fun e ↦ within e.span (itemSpan n))
    (slice source (itemSpan n))

theorem mem_movedCalls (h : n ∈ movedCalls features m) :
    n ∈ m.items ∧ isCut features n = true ∧ content n = itemSpan n := by
  obtain ⟨hn, hmoved⟩ := List.mem_filter.mp h
  rw [Bool.and_eq_true] at hmoved
  obtain ⟨hhoists, hcall⟩ := hmoved
  unfold isMockCall at hcall
  split at hcall
  · exact ⟨hn, by rw [isCut, hhoists, hcall]; rfl, rfl⟩
  · cases hcall

/-- Only a call that replaces a module by a test double adds to the calls that move. -/
theorem Draft.convert_hoisted {promises : List Edit}
    (h : d.convert features source promises n = .ok d') :
    d'.hoisted = d.hoisted ++ if features.hoists && isMockCall n then
      [String.ofList (Edit.apply (itemSpan n).start
        (promises.filter fun e ↦ within e.span (itemSpan n)) (slice source (itemSpan n)))]
      else [] := by
  have hstays {b : Bool} {texts : List String} (hb : b = false) (hd : d'.hoisted = d.hoisted) :
      d'.hoisted = d.hoisted ++ if b then texts else [] := by
    rw [hd, hb, if_neg Bool.false_ne_true, List.append_nil]
  cases step_of_convert h with
  | left hleft =>
    refine hstays ?_ rfl
    unfold isLeft at hleft
    unfold isMockCall
    grind
  | hoisted hcall =>
    rw [isMockCall, if_pos hcall]
    rfl
  | _ => exact hstays (Bool.and_false _) rfl

/-- The calls of a script move in their order, each with its text. -/
theorem hoisted_of_draft (h : draft features source m = .ok d) :
    d.hoisted
      = (movedCalls features m).map fun n ↦ String.ofList (movedText features source m n) := by
  obtain ⟨r, hrun, rfl⟩ := exists_run_of_draft h
  have hhoisted := foldlM_flatMap Draft.hoisted
    (fun _ _ _ hstep ↦ Draft.convert_hoisted hstep) hrun
  have hempty : (emptyDraft features source m).hoisted = [] := rfl
  rw [hhoisted, hempty, List.nil_append, movedCalls]
  induction m.items with
  | nil => rfl
  | cons n ns ih =>
    rw [List.flatMap_cons, ih, List.filter_cons]
    split <;> rfl

/-! ## Statements that load modules -/

/-- Whether a statement is an import or an export for which a module is loaded. -/
def loads (features : Features) : Node → Bool
  | .item _ _ (.importDeclaration i) =>
    !i.isType && ((ScopedImport.owner? features.guarded i.source.value).isSome
      || features.modules && !namesOnlyTypes i)
  | .item _ _ (.exportList l) => features.modules && !l.isType && l.source.isSome
  | .item _ _ (.exportAll a) => features.modules && !a.isType
  | _ => false

/-- A statement of the header takes the place of an import or an export: it loads the module that
this names, and binds what this binds. -/
inductive StandsFor (features : Features) : Node → ImportStatement → Prop where
  | guarded {span : Span} {leading : List Comment} {i : ImportDeclaration} {kind : ScopedImport}
      {text : String} (howner : ScopedImport.owner? features.guarded i.source.value = some kind)
      (htext : kind.statements i.source.value i.bindings = .ok text) :
      StandsFor features (.item span leading (.importDeclaration i)) (.guarded text)
  | effect {span : Span} {leading : List Comment} {i : ImportDeclaration}
      (hbindings : i.bindings = []) :
      StandsFor features (.item span leading (.importDeclaration i)) (.effect i.source.value)
  | fields {span : Span} {leading : List Comment} {i : ImportDeclaration}
      {fields : List (String × String)} (hfields : i.bindings.mapM plainField? = some fields) :
      StandsFor features (.item span leading (.importDeclaration i))
        (.fields i.source.value fields)
  | defaultOnly {span : Span} {leading : List Comment} {i : ImportDeclaration}
      {helper localName : String} (hbindings : i.bindings = [.default localName]) :
      StandsFor features (.item span leading (.importDeclaration i))
        (.defaultOnly helper i.source.value localName)
  | reference {span : Span} {leading : List Comment} {i : ImportDeclaration}
      {helper name : String} :
      StandsFor features (.item span leading (.importDeclaration i))
        (.reference helper i.source.value name i.bindings)
  | exportList {span : Span} {leading : List Comment} {l : ExportList} {s : StringLiteral}
      {helper name : String} (hsource : l.source = some s) :
      StandsFor features (.item span leading (.exportList l)) (.reference helper s.value name [])
  | exportAll {span : Span} {leading : List Comment} {a : ExportAll} {helper name : String} :
      StandsFor features (.item span leading (.exportAll a))
        (.reference helper a.source.value name [])

namespace Draft

/-- What a statement adds to those that load modules. -/
def LoadsFor (features : Features) (n : Node) (d d' : Draft) : Prop :=
  ∃ added, d'.imports = d.imports ++ added ∧
    List.Forall₂ (StandsFor features) ([n].filter (loads features)) added

theorem LoadsFor.none (hloads : loads features n = false) (h : d'.imports = d.imports) :
    LoadsFor features n d d' :=
  ⟨[], by rw [h, List.append_nil], by rw [List.filter_cons, hloads]; exact .nil⟩

theorem LoadsFor.one {s : ImportStatement} (hloads : loads features n = true)
    (h : d'.imports = d.imports ++ [s]) (hs : StandsFor features n s) : LoadsFor features n d d' :=
  ⟨[s], h, by rw [List.filter_cons, hloads]; exact .cons hs .nil⟩

theorem standsFor_of_replaces {span : Span} {leading : List Comment} {i : ImportDeclaration}
    {names names' : Names} {s : ImportStatement}
    (h : Replaces names i.source.value i.bindings s names') :
    StandsFor features (.item span leading (.importDeclaration i)) s := by
  cases h with
  | effect hbindings => exact .effect hbindings
  | fields hfields => exact .fields hfields
  | defaultOnly hbindings => exact .defaultOnly hbindings
  | reference => exact .reference

/-- One statement. -/
theorem loadsFor_convert {promises : List Edit}
    (h : d.convert features source promises n = .ok d') : LoadsFor features n d d' := by
  cases step_of_convert h with
  | left hleft =>
    refine .none ?_ rfl
    unfold isLeft at hleft
    unfold loads
    grind
  | importedTypes htypes =>
    refine .none ?_ rfl
    rcases htypes with htype | ⟨howner, -, htypes⟩
    · rw [loads, htype]
      rfl
    · rw [loads, howner, htypes, Bool.not_true, Bool.and_false]
      exact Bool.and_false _
  | guardedImport htype howner htext =>
    exact .one (by rw [loads, htype, howner]; rfl) rfl (.guarded howner htext)
  | replacedImport htype howner hmodules hvalues hs =>
    exact .one (by rw [loads, htype, howner, hmodules, hvalues]; rfl) rfl (standsFor_of_replaces hs)
  | listOfTypes _ htype => exact .none (by rw [loads, htype, Bool.not_true, Bool.and_false]; rfl) rfl
  | listFrom hmodules htype hsource =>
    exact .one (by rw [loads, hmodules, htype, hsource]; rfl) rfl (.exportList hsource)
  | list _ _ hsource => exact .none (by rw [loads, hsource]; exact Bool.and_false _) rfl
  | allTypes _ htype => exact .none (by rw [loads, htype]; exact Bool.and_false _) rfl
  | wholeModule hmodules htype => exact .one (by rw [loads, hmodules, htype]; rfl) rfl .exportAll
  | everything hmodules htype => exact .one (by rw [loads, hmodules, htype]; rfl) rfl .exportAll
  | _ => exact .none rfl rfl

end Draft

/-- The statements of the header take the places of those that load modules, in their order. -/
theorem standsFor_of_draft (h : draft features source m = .ok d) :
    List.Forall₂ (StandsFor features) (m.items.filter (loads features)) d.imports := by
  obtain ⟨r, hrun, rfl⟩ := exists_run_of_draft h
  refine foldlM_induction
    (fun done u ↦ List.Forall₂ (StandsFor features) (done.filter (loads features)) u.imports)
    .nil (fun done n u v hu hv ↦ ?_) hrun
  obtain ⟨added, himports, hadded⟩ := Draft.loadsFor_convert hv
  rw [List.filter_append, himports]
  exact List.rel_append hu hadded

/-! ## Where the calls were -/

section Leaves

/-- A statement that is cut out takes the edits inside it along. -/
theorem WellPlaced.isOutermost_cut (h : WellPlaced source m) (hn : n ∈ m.items)
    (hcut : isCut features n = true) :
    Edit.IsOutermost (recordedEdits features source m) (cutEdit source (itemSpan n)) := by
  have hedits := cutEdit_mem_editsOf source hcut
  have hnonempty := h.item_nonempty hn
  intro f hf hne hnested
  rcases mem_recordedEdits.mp hf with ⟨n', hn', hf⟩ | hf
  · rcases h.edits_apart hn hn' hedits hf with heq | hapart
    · exact hne (by rw [heq])
    · exact hapart.not_nested hnonempty hnested
  · obtain ⟨-, p, hp, rfl⟩ := mem_promisesOf hf
    rcases h.import_edit hp hn hedits with hapart | ⟨-, -, hinside, -⟩
    · exact hapart.symm.not_nested hnonempty hnested
    · -- Each of the two spans would stand in the other one.
      have hspan : p.1 = itemSpan n := by
        unfold Span.Nested at hinside hnested
        have hstart : p.1.start = (itemSpan n).start := Nat.le_antisymm hnested.1 hinside.1
        have hstop : p.1.stop = (itemSpan n).stop := Nat.le_antisymm hinside.2.2 hnested.2.2
        rw [Span.mk.injEq]
        exact ⟨hstart, hstop⟩
      exact hne hspan

/-- A statement that is cut out leaves its line feeds. -/
theorem WellPlaced.leaves_cut (h : WellPlaced source m) (hn : n ∈ m.items)
    (hcut : isCut features n = true) :
    Edit.Leaves source ⟨0, width source⟩ (recordedEdits features source m) (itemSpan n)
      (List.replicate (newlines (slice source (itemSpan n))) '\n') := by
  have hmem := mem_recordedEdits.mpr (.inl ⟨n, hn, cutEdit_mem_editsOf source hcut⟩)
  have hleaves := Edit.leaves_of_mem (Edit.covers_whole source) (fun _ _ ↦ Nat.zero_le _)
    (fun e he ↦ ⟨h.recorded_covers he, (h.recorded_covers he).stop_isBoundary.le_width⟩)
    (h.mem_outermost.mpr ⟨hmem, h.isOutermost_cut hn hcut⟩) (h.item_nonempty hn)
  rw [cutEdit, String.toList_ofList] at hleaves
  exact hleaves

/-- The edits of the dynamic imports leave for a statement what those inside it make of its
text. -/
theorem WellPlaced.leaves_movedText (h : WellPlaced source m) (hn : n ∈ m.items)
    (hcontent : content n = itemSpan n) (features : Features) :
    Edit.Leaves source ⟨0, width source⟩ (promisesOf features source m) (itemSpan n)
      (movedText features source m n) := by
  have hroom : ∀ e ∈ promisesOf features source m, e.span.start < e.span.stop := by
    intro e he
    obtain ⟨-, p, hp, rfl⟩ := mem_promisesOf he
    exact h.import_nonempty hp
  have hwithin : ∀ e ∈ promisesOf features source m,
      e.span.Nested (itemSpan n) ∨ e.span.Apart (itemSpan n) := by
    intro e he
    obtain ⟨-, p, hp, rfl⟩ := mem_promisesOf he
    have hplaced := h.import_placed p hp n hn
    rwa [hcontent] at hplaced
  have hapart : (promisesOf features source m).Pairwise fun e f ↦ e.span.Apart f.span := by
    rw [promisesOf_eq]
    split
    · rw [List.pairwise_map]
      exact h.imports_apart
    · exact .nil
  have hinside : (promisesOf features source m).filter (fun e ↦ within e.span (itemSpan n))
      = (promisesOf features source m).filter fun e ↦ decide (e.span.Nested (itemSpan n)) := by
    refine List.filter_congr fun e he ↦ ?_
    have hroom := hroom e he
    rw [within, ← Bool.decide_and, decide_eq_decide]
    unfold Span.Nested
    omega
  have hitem := h.item_covers n hn
  rw [movedText, hinside]
  refine Edit.leaves_within (Edit.covers_whole source)
    (fun _ _ ↦ Nat.zero_le _) (fun e he ↦ ?_) hitem (Nat.zero_le _)
    hitem.stop_isBoundary.le_width hapart hroom hwithin
  have hcovers := h.recorded_covers (mem_recordedEdits.mpr (.inr he))
  exact ⟨hcovers, hcovers.stop_isBoundary.le_width⟩

end Leaves

/-! ## Headers -/

theorem toList_join_map {α : Type} (f : α → String) (as : List α) :
    (String.join (as.map f)).toList = as.flatMap fun a ↦ (f a).toList := by
  rw [String.toList_join, List.flatMap_map]

/-- The header has the lines of the preamble, then each call that moves on lines of its own, then
what loads modules. -/
theorem header_of_draft (h : draft features source m = .ok d) :
    (d.parts features source).header
      = (preamble features d).toList
        ++ ((movedCalls features m).flatMap fun n ↦ movedText features source m n ++ ['\n'])
        ++ d.imports.flatMap fun s ↦ s.text.toList := by
  have hparts : (d.parts features source).header = (header features d).toList := rfl
  rw [hparts, header, hoisted_of_draft h, String.toList_append, String.toList_append,
    List.map_map, toList_join_map, toList_join_map]
  simp only [Function.comp_apply, String.toList_append, String.toList_ofList]
  rfl

/-! ## Converted scripts -/

/-- The calls of a script that replace modules by test doubles are moved. The header has the lines
of the preamble, then each of the calls on lines of its own, then what loads modules. A call takes
along what the edits of dynamic imports leave for it in the script, and leaves its line feeds
behind. -/
structure CallsMoved (features : Features) (source : List Char) (m : Module) (d : Draft) :
    Prop where
  header : (d.parts features source).header
    = (preamble features d).toList
      ++ ((mockCalls m).flatMap fun n ↦ movedText features source m n ++ ['\n'])
      ++ d.imports.flatMap fun s ↦ s.text.toList
  imports : List.Forall₂ (StandsFor features) (m.items.filter (loads features)) d.imports
  moved : ∀ n ∈ mockCalls m, Edit.Leaves source ⟨0, width source⟩ (promisesOf features source m)
    (itemSpan n) (movedText features source m n)
  body : (d.parts features source).body = Edit.apply 0 d.edits source
  left : ∀ n ∈ mockCalls m, Edit.Leaves source ⟨0, width source⟩ d.edits (itemSpan n)
    (List.replicate (newlines (slice source (itemSpan n))) '\n')

theorem callsMoved_of_draft (hplaced : WellPlaced source m) (hhoists : features.hoists = true)
    (h : draft features source m = .ok d) : CallsMoved features source m d where
  header := by rw [header_of_draft h, movedCalls_eq hhoists]
  imports := standsFor_of_draft h
  moved n hn := by
    rw [← movedCalls_eq hhoists] at hn
    obtain ⟨hn, -, hcontent⟩ := mem_movedCalls hn
    exact hplaced.leaves_movedText hn hcontent features
  body := rfl
  left n hn := by
    rw [← movedCalls_eq hhoists] at hn
    obtain ⟨hn, hcut, -⟩ := mem_movedCalls hn
    rw [edits_of_draft h]
    exact hplaced.leaves_cut hn hcut

/-- If calls that replace modules by test doubles move at all, then they move in every script that
is converted, above everything that loads a module. -/
theorem callsMoved_of_convert {config : ModuleConfig} {filename code : String}
    {input : Option SourceMap} {unit : ScriptUnit} (hparse : parse false code.toList = some m)
    (huses : config.uses .jest = true)
    (hconvert : convert config filename code input = .ok unit) :
    ∃ d tail, draft (Features.ofConfig config) code.toList m = .ok d ∧
      CallsMoved (Features.ofConfig config) code.toList m d ∧
      unit.code.toList = (d.parts (Features.ofConfig config) code.toList).header
        ++ dropMapComments (d.parts (Features.ofConfig config) code.toList).body ++ tail := by
  obtain ⟨parts, tail, hparts, hcode, -⟩ := exists_parts_of_convert hconvert
  obtain ⟨m', d, hparse', hdraft, rfl⟩ := exists_draft_of_partsOf hparts
  rw [hparse] at hparse'
  cases hparse'
  exact ⟨d, tail, hdraft, callsMoved_of_draft (wellPlaced_of_parse hparse) huses hdraft, hcode⟩

/-- A call with a dynamic import in it moves above the import in front of it. -/
theorem callsMoved_of_convert_mock :
    let code := "import \"a\";\nfoo();\njest.mock(\"b\", () => import(\n  \"c\"));\n"
    let config : ModuleConfig := ⟨.off, [.jest], [.modulesCommonJs, .dynamicImport]⟩
    let features := Features.ofConfig config
    ∃ unit m d tail, convert config "a.js" code none = .ok unit ∧
      CallsMoved features code.toList m d ∧
      unit.code.toList = (d.parts features code.toList).header
        ++ dropMapComments (d.parts features code.toList).body ++ tail ∧
      (mockCalls m).map (fun n ↦ String.ofList (movedText features code.toList m n))
        = ["jest.mock(\"b\", () => "
          ++ "Promise.resolve().then(() => _interopRequireWildcard(require(\"c\"))));"] := by
  intro code config features
  have hread : ((parse false code.toList).any fun m ↦
      decide ((mockCalls m).map (fun n ↦ String.ofList (movedText features code.toList m n))
        = ["jest.mock(\"b\", () => "
          ++ "Promise.resolve().then(() => _interopRequireWildcard(require(\"c\"))));"])) = true := by
    decide +kernel
  obtain ⟨m, hparse, hm⟩ := (Option.any_eq_true ..).mp hread
  rw [decide_eq_true_iff] at hm
  have hdone : (convert config "a.js" code none).toOption.isSome = true := by decide +kernel
  cases hconvert : convert config "a.js" code none with
  | error e => rw [hconvert] at hdone; cases hdone
  | ok unit =>
    obtain ⟨d, tail, -, hmoved, hcode⟩ := callsMoved_of_convert hparse (by decide) hconvert
    exact ⟨unit, m, d, tail, rfl, hmoved, hcode, hm⟩

end Downlevel.CommonJs
