import Downlevel.Proofs.CommonJs.MapLines

/-!
# Comments with maps in converted scripts

Which lines of a converted script refer to maps. Comments with maps are dropped from the body, and
the statements that a conversion writes have no lines that refer to maps, because what is not
generated in them consists of names and literals. So the last line refers to the map of the
conversion if it has to, and in front of it only the calls that move to the start bring lines of
the script that refer to other maps.
-/

namespace Downlevel.CommonJs

open Script Text

variable {features : Features} {source : List Char} {m : Module} {d d' : Draft} {n : Node}

/-! ## Names in statements for imports -/

section Imports

variable (span : Span) (leading : List Comment)

theorem localName_of_ofSpecifier {s : ImportSpecifier} {b : RuntimeImport}
    (h : RuntimeImport.ofSpecifier s = some b) : b.localName = s.localName := by
  cases s with
  | named imported localName isType =>
    cases isType <;> cases h
    rfl
  | _ =>
    cases h
    rfl

theorem import_names_subset (i : ImportDeclaration) :
    (i.bindings.map RuntimeImport.localName)
      ⊆ namesIn [.item span leading (.importDeclaration i)] := by
  intro name hname
  obtain ⟨b, hb, rfl⟩ := List.mem_map.mp hname
  obtain ⟨s, hs, hbinds⟩ := List.mem_filterMap.mp hb
  refine List.Subset.trans (Node.ownNames_subset (.importDeclaration i))
    (item_names_subset span leading _) ?_
  rw [localName_of_ofSpecifier hbinds]
  exact List.mem_map_of_mem hs

/-- Plain fields are imports of names other than `default`. -/
theorem eq_map_of_mapM {bs : List RuntimeImport} {fields : List (String × String)}
    (h : bs.mapM plainField? = some fields) :
    bs = fields.map (fun f ↦ .named f.1 f.2) ∧ ∀ f ∈ fields, f.1 ≠ "default" := by
  induction bs generalizing fields with
  | nil =>
    cases h
    exact ⟨rfl, List.forall_mem_nil _⟩
  | cons b bs ih =>
    rw [List.mapM_cons] at h
    obtain ⟨field, hfield, h⟩ := Option.bind_eq_some_iff.mp h
    obtain ⟨rest, hrest, h⟩ := Option.bind_eq_some_iff.mp h
    cases h
    obtain ⟨hbs, hnames⟩ := ih hrest
    have hone : b = .named field.1 field.2 ∧ field.1 ≠ "default" := by
      unfold plainField? at hfield
      split at hfield
      · split at hfield
        · cases hfield
        · next hname =>
          cases hfield
          exact ⟨rfl, hname⟩
      · cases hfield
    exact ⟨by rw [List.map_cons, ← hone.1, ← hbs], List.forall_mem_cons.mpr ⟨hone.2, hnames⟩⟩

theorem map_snd_of_mapM {bs : List RuntimeImport} {fields : List (String × String)}
    (h : bs.mapM plainField? = some fields) :
    fields.map Prod.snd = bs.map RuntimeImport.localName := by
  obtain ⟨rfl, -⟩ := eq_map_of_mapM h
  rw [List.map_map]
  rfl

end Imports

/-- A statement that takes the place of an import refers to no maps, if the names of the import and
those that are generated are made of characters of names. -/
theorem StandsFor.mapLines_text {s : ImportStatement} (h : StandsFor features n s)
    (hscript : ∀ name ∈ namesIn [n], IsNameText name)
    (hdefault : ∀ helper specifier l, s = .defaultOnly helper specifier l → IsNameText helper)
    (hreference : ∀ helper specifier name bs, s = .reference helper specifier name bs →
      IsNameText helper ∧ IsNameText name) :
    mapLines s.text.toList = [] := by
  cases h with
  | @guarded span leading i kind text howner htext =>
    refine ImportStatement.mapLines_text (List.forall_mem_nil _) fun text' heq ↦ ?_
    cases heq
    exact mapLines_scopedStatements (fun b hb ↦
      hscript _ (import_names_subset span leading i (List.mem_map_of_mem hb))) htext
  | effect => exact ImportStatement.mapLines_text (List.forall_mem_nil _) fun _ heq ↦ by cases heq
  | @fields span leading i fields hfields =>
    refine ImportStatement.mapLines_text (fun name hname ↦ ?_) fun _ heq ↦ by cases heq
    rw [ImportStatement.names, map_snd_of_mapM hfields] at hname
    exact hscript _ (import_names_subset span leading i hname)
  | @defaultOnly span leading i helper localName hbindings =>
    refine ImportStatement.mapLines_text (List.forall_mem_cons.mpr
      ⟨hdefault _ _ _ rfl, List.forall_mem_singleton.mpr (hscript _ ?_)⟩) fun _ heq ↦ by cases heq
    refine import_names_subset span leading i ?_
    rw [hbindings]
    exact List.mem_singleton_self _
  | @reference span leading i helper name =>
    obtain ⟨hhelper, hname⟩ := hreference _ _ _ _ rfl
    exact ImportStatement.mapLines_text (List.forall_mem_cons.mpr ⟨hhelper,
      List.forall_mem_cons.mpr ⟨hname, fun name hname ↦
        hscript _ (import_names_subset span leading i hname)⟩⟩) fun _ heq ↦ by cases heq
  | exportList hsource =>
    obtain ⟨hhelper, hname⟩ := hreference _ _ _ _ rfl
    exact ImportStatement.mapLines_text (List.forall_mem_cons.mpr ⟨hhelper,
      List.forall_mem_cons.mpr ⟨hname, List.forall_mem_nil _⟩⟩) fun _ heq ↦ by cases heq
  | exportAll =>
    obtain ⟨hhelper, hname⟩ := hreference _ _ _ _ rfl
    exact ImportStatement.mapLines_text (List.forall_mem_cons.mpr ⟨hhelper,
      List.forall_mem_cons.mpr ⟨hname, List.forall_mem_nil _⟩⟩) fun _ heq ↦ by cases heq

/-! ## Names in the statements of a draft -/

theorem LooksGenerated.isNameText {name : String} (h : LooksGenerated name) : IsNameText name :=
  isNamePart_of_isAsciiName h.1

theorem isNameText_of_generated (h : draft features source m = .ok d) :
    ∀ name ∈ generatedNames d, IsNameText name := fun name hname ↦
  ((wellNamed_of_draft h).looksGenerated name hname).isNameText

theorem mem_generatedNames {name : String} : name ∈ generatedNames d ↔
    d.names.defaultHelper = some name ∨ d.names.wholeHelper = some name ∨
      name ∈ (boundModules d.imports).map Prod.fst := by
  simp [generatedNames, Names.generated]

theorem boundModules_subset {imports : List ImportStatement} {s : ImportStatement}
    (hs : s ∈ imports) : boundModules [s] ⊆ boundModules imports :=
  List.filterMap_subset _ (List.cons_subset.mpr ⟨hs, List.nil_subset _⟩)

theorem mem_boundModules {imports : List ImportStatement}
    {helper specifier name : String} {bs : List RuntimeImport}
    (h : .reference helper specifier name bs ∈ imports) :
    (name, specifier) ∈ boundModules imports :=
  boundModules_subset h List.mem_cons_self

theorem exists_reference_of_mem {imports : List ImportStatement} {name : String}
    (h : name ∈ (boundModules imports).map Prod.fst) :
    ∃ helper specifier bs, .reference helper specifier name bs ∈ imports := by
  obtain ⟨⟨_, specifier⟩, hbound, rfl⟩ := List.mem_map.mp h
  obtain ⟨s, hs, heq⟩ := List.mem_filterMap.mp hbound
  cases s with
  | reference helper specifier name bs =>
    cases heq
    exact ⟨helper, specifier, bs, hs⟩
  | _ => cases heq

/-- Every statement of the header takes the place of a statement of the script. -/
theorem exists_standsFor (h : draft features source m = .ok d) {s : ImportStatement}
    (hs : s ∈ d.imports) : ∃ n ∈ m.items, StandsFor features n s := by
  obtain ⟨n, hn, hstand⟩ := exists_of_mem_forall₂ (standsFor_of_draft h) hs
  exact ⟨n, (List.mem_filter.mp hn).1, hstand⟩

theorem mapLines_import (hparse : parse false source = some m)
    (h : draft features source m = .ok d) {s : ImportStatement} (hs : s ∈ d.imports) :
    mapLines s.text.toList = [] := by
  obtain ⟨n, hn, hstands⟩ := exists_standsFor h hs
  have hgenerated := isNameText_of_generated h
  have hnamed := wellNamed_of_draft h
  refine hstands.mapLines_text (fun name hname ↦ ?_) ?_ ?_
  · exact isNamePart_of_parse hparse name (mem_namesIn.mpr ⟨n, hn, hname⟩)
  · rintro helper specifier l rfl
    exact hgenerated _ (mem_generatedNames.mpr (.inl (hnamed.defaultHelper _ _ _ hs)))
  · rintro helper specifier name bs rfl
    exact ⟨hgenerated _ (mem_generatedNames.mpr (.inr (.inl (hnamed.wholeHelper _ _ _ _ hs)))),
      hgenerated _ (mem_generatedNames.mpr
        (.inr (.inr (List.mem_map_of_mem (mem_boundModules hs)))))⟩

/-- Exports are left alone unless modules are converted. -/
theorem exports_of_draft_eq_nil (hmodules : features.modules = false)
    (h : draft features source m = .ok d) : d.exports = [] := by
  obtain ⟨r, hrun, rfl⟩ := exists_run_of_draft h
  refine foldlM_induction (fun _ u ↦ u.exports = []) rfl (fun _ n u v hu hv ↦ ?_) hrun
  cases Draft.step_of_convert hv with
  | left => exact hu
  | importedTypes => exact hu
  | guardedImport => exact hu
  | replacedImport => exact hu
  | hoisted => exact hu
  | _ => exact absurd ‹features.modules = true› (by rw [hmodules]; exact Bool.false_ne_true)

theorem mapLines_export (hparse : parse false source = some m)
    (h : draft features source m = .ok d) {s : ExportStatement} (hs : s ∈ d.exports) :
    mapLines s.text.toList = [] := by
  cases hmodules : features.modules with
  | false =>
    rw [exports_of_draft_eq_nil hmodules h] at hs
    cases hs
  | true =>
    have hreference : ∀ {r specifier : String}, (r, specifier) ∈ boundModules d.imports →
        IsNameText r := fun hr ↦ isNameText_of_generated h _
      (mem_generatedNames.mpr (.inr (.inr (List.mem_map_of_mem hr))))
    obtain ⟨e, -, hdenotes⟩ :=
      exists_of_mem_forall₂ (tracks_of_draft hmodules h).denotes.flip hs
    have hname : ∀ name ∈ s.names, IsNameText name := by
      cases hdenotes with
      | name hname => exact List.forall_mem_singleton.mpr (isNamePart_of_parse hparse _ hname)
      | member hr => exact List.forall_mem_singleton.mpr (hreference hr)
      | whole hr => exact List.forall_mem_singleton.mpr (hreference hr)
      | everything hr => exact List.forall_mem_singleton.mpr (hreference hr)
    exact ExportStatement.mapLines_text hname

/-! ## The parts of a converted script -/

theorem mapLines_preamble (h : draft features source m = .ok d) :
    mapLines (preamble features d).toList = [] := by
  have hlines : mapLines "\"use strict\";\n".toList = [] ∧ mapLines
      "Object.defineProperty(exports, \"__esModule\", \x7b value: true \x7d);\n".toList = [] := by
    decide +kernel
  have hif : ∀ (b : Bool) (text : String), WholeLines text.toList → mapLines text.toList = [] →
      WholeLines (if b then text else "").toList ∧ mapLines (if b then text else "").toList = [] := by
    rintro (_ | _) text hwhole htext
    · exact ⟨.inl rfl, rfl⟩
    · exact ⟨hwhole, htext⟩
  have hhelper : ∀ (name : Option String) (f : String → String),
      (∀ n, name = some n → WholeLines (f n).toList ∧ mapLines (f n).toList = []) →
      WholeLines ((name.map f).getD "").toList ∧ mapLines ((name.map f).getD "").toList = [] := by
    rintro (_ | n) f hf
    · exact ⟨.inl rfl, rfl⟩
    · exact hf n rfl
  have hstrict := hif features.modules _ (.inr rfl) hlines.1
  have hmark := hif (features.modules && d.hasExports) _ (.inr rfl) hlines.2
  have hdefault := hhelper d.names.defaultHelper defaultHelperText fun n hn ↦
    ⟨wholeLines_append_string _ rfl, mapLines_defaultHelperText
      (isNameText_of_generated h n (mem_generatedNames.mpr (.inl hn)))⟩
  have hwhole := hhelper d.names.wholeHelper wholeHelperText fun n hn ↦
    ⟨wholeLines_append_string _ rfl, mapLines_wholeHelperText
      (isNameText_of_generated h n (mem_generatedNames.mpr (.inr (.inl hn))))⟩
  rw [preamble, String.toList_append, String.toList_append, String.toList_append,
    ((hstrict.1.append hmark.1).append hdefault.1).mapLines_append,
    (hstrict.1.append hmark.1).mapLines_append, hstrict.1.mapLines_append, hstrict.2, hmark.2,
    hdefault.2, hwhole.2]
  rfl

/-- The lines of the header that refer to maps are those of the calls that move. -/
theorem mapLines_header (hparse : parse false source = some m)
    (h : draft features source m = .ok d) :
    mapLines (d.parts features source).header
      = (movedCalls features m).flatMap fun n ↦ mapLines (movedText features source m n) := by
  have hcalls : ∀ n ∈ movedCalls features m,
      WholeLines (movedText features source m n ++ ['\n']) := fun n _ ↦ .of_endsLine_append rfl
  have himports : mapLines (d.imports.flatMap fun s ↦ s.text.toList) = [] := by
    rw [mapLines_flatMap (importsEndLines_of_draft h), List.flatMap_eq_nil_iff]
    exact fun s hs ↦ mapLines_import hparse h hs
  have hmoved : WholeLines ((movedCalls features m).flatMap fun n ↦
      movedText features source m n ++ ['\n']) := .flatMap hcalls
  rw [header_of_draft h, ((wholeLines_preamble features d).append hmoved).mapLines_append,
    (wholeLines_preamble features d).mapLines_append, mapLines_preamble h, himports,
    mapLines_flatMap hcalls, List.nil_append, List.append_nil]
  simp only [mapLines_newline]

theorem mapLines_footer (hparse : parse false source = some m)
    (h : draft features source m = .ok d) : mapLines (d.parts features source).footer = [] := by
  have hfooter : (d.parts features source).footer = d.exports.flatMap fun s ↦ s.text.toList :=
    toList_join_map ExportStatement.text d.exports
  rw [hfooter, mapLines_flatMap fun s _ ↦ s.wholeLines_text, List.flatMap_eq_nil_iff]
  exact fun s hs ↦ mapLines_export hparse h hs

/-- In front of the comment with its map, a converted script has no line that refers to a map but
those of the calls that move, and it does not end in one of these. -/
theorem exists_lines_text_eq (hparse : parse false source = some m)
    (h : draft features source m = .ok d) :
    ∃ front last, lines (d.parts features source).text = front ++ [last] ∧
      front.filter refersToMap
        = (movedCalls features m).flatMap (fun n ↦ mapLines (movedText features source m n)) ∧
      refersToMap last = false := by
  have hwhole : WholeLines (d.parts features source).header := wholeLines_header h
  unfold Parts.text
  dsimp only
  split
  · rw [← mapLines_header hparse h]
    exact exists_lines_eq_concat hwhole (mapLines_dropMapComments _)
  · have hmain : mapLines (freshLine ((d.parts features source).header
        ++ dropMapComments (d.parts features source).body))
        = (movedCalls features m).flatMap fun n ↦ mapLines (movedText features source m n) := by
      rw [mapLines_freshLine, hwhole.mapLines_append, mapLines_dropMapComments, List.append_nil,
        mapLines_header hparse h]
    rw [← hmain]
    exact exists_lines_eq_concat (wholeLines_freshLine _) (mapLines_footer hparse h)

/-! ## The comment with the map -/

theorem newlines_digits (bytes : List Nat) : newlines (Base64.digits bytes) = 0 := by
  have hdigit : ∀ n, Base64.digit n ≠ '\n' := by
    intro n
    have halphabet : Base64.alphabet.all (· != '\n') = true := by decide +kernel
    rw [Base64.digit, List.getD_eq_getElem?_getD]
    cases hn : Base64.alphabet[n]? with
    | none => decide
    | some c => simpa using List.all_eq_true.mp halphabet c (List.mem_of_getElem? hn)
  fun_induction Base64.digits bytes with
  | case1 => rfl
  | case2 a => simp [newlines_eq_zero, (hdigit _).symm]
  | case3 a b => simp [newlines_eq_zero, (hdigit _).symm]
  | case4 a b c rest ih =>
    simp only [newlines_cons_of_ne (hdigit _), ih]

theorem newlines_comment (map : SourceMap) : newlines map.comment.toList = 0 := by
  rw [SourceMap.comment, SourceMap.dataUrl, Base64.encode, String.toList_append,
    String.toList_append, String.toList_ofList, newlines_append, newlines_append, newlines_digits]
  decide

theorem refersToMap_comment (map : SourceMap) : refersToMap map.comment.toList = true := by
  have hhead : SourceMap.commentHead.toList = '/' :: "/# sourceMappingURL=".toList := by decide
  have hprefix : "//# sourceMappingURL=".toList <+: map.comment.toList := by
    rw [SourceMap.comment, String.toList_append]
    exact List.prefix_append ..
  have hstart : map.comment.toList.dropWhile (fun c ↦ c == ' ' || c == '\t')
      = map.comment.toList := by
    rw [SourceMap.comment, String.toList_append, hhead, List.cons_append,
      List.dropWhile_cons_of_neg (by decide)]
  rw [refersToMap, hstart, Bool.or_eq_true]
  exact .inl (List.isPrefixOf_iff_prefix.mpr hprefix)

/-! ## Converted scripts -/

/-- The last line of a converted script refers to a map exactly if the configuration asks for
scripts that carry their maps, and then it is the comment with the map of this conversion. Of the
lines in front of it, only those that a moved call brings along refer to maps. -/
theorem mapComments_of_convert {config : ModuleConfig} {filename code : String}
    {input : Option SourceMap} {unit : ScriptUnit} (hparse : parse false code.toList = some m)
    (hconvert : convert config filename code input = .ok unit) :
    let features := Features.ofConfig config
    ∃ parts front last, partsOf config filename code = .ok parts ∧
      lines unit.code.toList = front ++ [last] ∧
      front.filter refersToMap
        = (movedCalls features m).flatMap (fun n ↦ mapLines (movedText features code.toList m n)) ∧
      refersToMap last = config.sourceMaps.carries ∧
      (config.sourceMaps.carries = true → last = (mapOf parts filename code input).comment.toList) ∧
      unit.map = if config.sourceMaps.handsBack then some (mapOf parts filename code input)
        else none := by
  intro features
  obtain ⟨parts, hparts, hcode, hmap⟩ := code_of_convert hconvert
  obtain ⟨m', d, hparse', hdraft, rfl⟩ := exists_draft_of_partsOf hparts
  rw [hparse] at hparse'
  cases hparse'
  obtain ⟨front, last, hlines, hfront, hlast⟩ := exists_lines_text_eq hparse hdraft
  cases hcarries : config.sourceMaps.carries with
  | false =>
    rw [hcarries, if_neg Bool.false_ne_true] at hcode
    exact ⟨_, front, last, hparts, by rw [hcode, hlines], hfront, hlast, nofun, hmap⟩
  | true =>
    rw [hcarries, if_pos rfl] at hcode
    obtain ⟨ahead, hahead, hfilter⟩ := (wholeLines_freshLine
      (d.parts (Features.ofConfig config) code.toList).text).exists_lines_append
      (mapOf (d.parts (Features.ofConfig config) code.toList) filename code input).comment.toList
    refine ⟨_, ahead, _, hparts, ?_, ?_, refersToMap_comment _, fun _ ↦ rfl, hmap⟩
    · rw [hcode, hahead, lines_of_notMem (newlines_eq_zero.mp (newlines_comment _))]
    · rw [hfilter, mapLines_freshLine, mapLines, hlines, List.filter_append, hfront,
        List.filter_cons, hlast]
      exact List.append_nil _

/-- The comment of an earlier step is dropped, and the last line carries the new map. -/
theorem mapComments_of_convert_stale :
    let code := "foo();\n//# sourceMappingURL=x.map\nbar();\n"
    let config : ModuleConfig := ⟨.inline, [.jest], [.modulesCommonJs]⟩
    ∃ unit parts front last, convert config "a.js" code none = .ok unit ∧
      lines unit.code.toList = front ++ [last] ∧ front.filter refersToMap = [] ∧
      last = (mapOf parts "a.js" code none).comment.toList := by
  intro code config
  have hread : ((parse false code.toList).any fun m ↦
      (movedCalls (Features.ofConfig config) m).isEmpty) = true := by
    decide +kernel
  obtain ⟨m, hparse, hm⟩ := (Option.any_eq_true ..).mp hread
  have hdone : (convert config "a.js" code none).toOption.isSome = true := by decide +kernel
  cases hconvert : convert config "a.js" code none with
  | error e => rw [hconvert] at hdone; cases hdone
  | ok unit =>
    obtain ⟨parts, front, last, -, hlines, hfront, -, hlast, -⟩ :=
      mapComments_of_convert hparse hconvert
    rw [List.isEmpty_iff.mp hm] at hfront
    exact ⟨unit, parts, front, last, rfl, hlines, hfront, hlast rfl⟩

/-- A call that moves takes the comment of an earlier step along. -/
theorem mapComment_moved_along :
    let code := "jest.mock(\"a\", () => \x7b\n//# sourceMappingURL=x.map\n\x7d);\n"
    let config : ModuleConfig := ⟨.off, [.jest], (default : ModuleConfig).passes⟩
    ∃ unit front last, convert config "a.js" code none = .ok unit ∧
      lines unit.code.toList = front ++ [last] ∧
      "//# sourceMappingURL=x.map".toList ∈ front.filter refersToMap := by
  intro code config
  have hdone : (convert config "a.js" code none).toOption.any (fun unit ↦
      ((lines unit.code.toList).getLast?.isSome) && decide ("//# sourceMappingURL=x.map".toList
        ∈ (lines unit.code.toList).dropLast.filter refersToMap)) = true := by
    decide +kernel
  cases hconvert : convert config "a.js" code none with
  | error e => rw [hconvert] at hdone; cases hdone
  | ok unit =>
    rw [hconvert] at hdone
    obtain ⟨_, hunit, hdone⟩ := (Option.any_eq_true ..).mp hdone
    cases hunit
    rw [Bool.and_eq_true, decide_eq_true_iff] at hdone
    obtain ⟨last, hlast⟩ := Option.isSome_iff_exists.mp hdone.1
    exact ⟨unit, _, last, rfl, (List.dropLast_append_getLast? last hlast).symm, hdone.2⟩

end Downlevel.CommonJs
