import Downlevel.Proofs.CommonJs.Assignment
import Downlevel.Proofs.CommonJs.Footer
import Downlevel.Proofs.CommonJs.Statements
import Downlevel.Proofs.Script.Grammar.Shape

/-!
# Exports under names of their own

What a module exports under which names, by the rules of the language, and where a converted script
writes it. Every name is written once. A statement at the end of the script writes it, with the
binding of the script or the export of the other module that it stands for; only a default export
that has no name of its own is written in the body, where the expression stands.
-/

namespace Downlevel.CommonJs

open Script Text

/-! ## Exports by the rules of the language -/

/-- What an exported name stands for. -/
inductive ExportTarget where
  /-- A binding of the script. -/
  | binding (name : String)
  /-- An export of another module. -/
  | member (specifier imported : String)
  /-- Another module as one object. -/
  | whole (specifier : String)
  /-- The value of what stands at a span. -/
  | value (span : Span)
  deriving DecidableEq, Repr

/-- Whether a target is exported where it stands. -/
def ExportTarget.isValue : ExportTarget → Bool
  | .value _ => true
  | _ => false

/-- A declaration of a function or a class with a name. -/
inductive IsNamed : Node → String → Prop where
  | function (n : String) (isAsync isGenerator : Bool) (ps : List Node) (body : Option Node) :
    IsNamed (.functionDeclaration (.function (some n) isAsync isGenerator ps body)) n
  | classDef (ds : List Node) (n : String) (heritage : Option Node) (members : List Node) :
    IsNamed (.classDeclaration (.classDef ds (some n) heritage members)) n

/-- Whether a statement exports something. -/
def isExport : Node → Bool
  | .item _ _ (.exportDeclaration ..) | .item _ _ (.exportDefault ..) | .item _ _ (.exportList _)
  | .item _ _ (.exportAll _) => true
  | _ => false

/-- A statement exports targets under names. An export of everything has no names of its own. -/
inductive Exports : Node → List (String × ExportTarget) → Prop where
  | declaration {span inner : Span} {leading : List Comment} {d : Node} {ns : List String}
      (h : Declares d ns) :
    Exports (.item span leading (.exportDeclaration inner d)) (ns.map fun n ↦ (n, .binding n))
  | namedDefault {span inner : Span} {leading : List Comment} {value : Node} {name : String}
      (h : IsNamed value name) :
    Exports (.item span leading (.exportDefault inner value)) [("default", .binding name)]
  | default {span inner : Span} {leading : List Comment} {value : Node}
      (h : ∀ name, ¬IsNamed value name) :
    Exports (.item span leading (.exportDefault inner value)) [("default", .value inner)]
  | list {span : Span} {leading : List Comment} {l : ExportList} (h : l.source = none) :
    Exports (.item span leading (.exportList l))
      (l.specifiers.map fun s ↦ (s.exported.text, .binding s.source.text))
  | listFrom {span : Span} {leading : List Comment} {l : ExportList} {s : StringLiteral}
      (h : l.source = some s) :
    Exports (.item span leading (.exportList l))
      (l.specifiers.map fun e ↦ (e.exported.text, .member s.value e.source.text))
  | wholeModule {span : Span} {leading : List Comment} {a : ExportAll} {name : ExportName}
      (h : a.exported = some name) :
    Exports (.item span leading (.exportAll a)) [(name.text, .whole a.source.value)]
  | everything {span : Span} {leading : List Comment} {a : ExportAll} (h : a.exported = none) :
    Exports (.item span leading (.exportAll a)) []
  | nothing {n : Node} (h : isExport n = false) : Exports n []

variable {features : Features} {source : List Char} {m : Module} {n : Node} {d d' : Draft}
  {inner span : Span} {leading : List Comment} {value : Node}

/-- The names under which a statement exports something are those that no two exports of a script
may share. -/
theorem Exports.map_fst {own : List (String × ExportTarget)} (h : Exports n own) :
    own.map Prod.fst = Grammar.exportedNames n := by
  cases h with
  | declaration h =>
    rw [Grammar.exportedNames, h.declaredNames_eq, List.map_map]
    exact List.map_id _
  | namedDefault h => rfl
  | default h => rfl
  | list h =>
    rw [Grammar.exportedNames, List.map_map]
    rfl
  | listFrom h =>
    rw [Grammar.exportedNames, List.map_map]
    rfl
  | wholeModule h =>
    rw [Grammar.exportedNames, h]
    rfl
  | everything h =>
    rw [Grammar.exportedNames, h]
    rfl
  | nothing h =>
    have hnone : Grammar.exportedNames n = [] := by
      unfold isExport at h
      unfold Grammar.exportedNames
      grind
    rw [hnone]
    rfl

/-! ## The exports that are collected -/

/-- Whether a statement exports a type by default. -/
def exportsInterface : Node → Bool
  | .item _ _ (.exportDefault _ value) => isTypeDeclaration value
  | _ => false

/-- An export with a name of its own. -/
def OwnExport.target? : OwnExport → Option (String × ExportTarget)
  | name k n => some (k, .binding n)
  | member k s i => some (k, .member s i)
  | whole k s => some (k, .whole s)
  | everything _ => none

/-- The default export that a statement assigns where it stands. -/
def assignedEntries (n : Node) : List (String × ExportTarget) :=
  if assignsDefault n then (exportedSpan? n).toList.map fun inner ↦ ("default", .value inner)
  else []

/-- The exports of a statement under names of their own, as the conversion takes them. -/
def entriesOf (n : Node) : List (String × ExportTarget) :=
  (ownExports n).filterMap OwnExport.target? ++ assignedEntries n

theorem isNamed_iff {f : Node} (hkind : value = .functionDeclaration f ∨ value = .classDeclaration f)
    {name : String} : IsNamed value name ↔ ∃ ns, value.declaredNames = name :: ns := by
  constructor
  · rintro (_ | _)
    · exact ⟨[], rfl⟩
    · exact ⟨[], rfl⟩
  · rintro ⟨ns, hns⟩
    rcases hkind with rfl | rfl
    · unfold Node.declaredNames at hns
      split at hns
      · cases ‹Node.functionDeclaration f = _›
      · next n _ _ _ _ heq =>
        cases heq
        cases n with
        | none => cases hns
        | some n =>
          cases hns
          exact .function ..
      · cases ‹Node.functionDeclaration f = _›
      · cases hns
    · unfold Node.declaredNames at hns
      split at hns
      · cases ‹Node.classDeclaration f = _›
      · cases ‹Node.classDeclaration f = _›
      · next ds n _ _ heq =>
        cases heq
        cases n with
        | none => cases hns
        | some n =>
          cases hns
          exact .classDef ..
      · cases hns

theorem filterMap_target?_map {α : Type} (f : α → OwnExport) (g : α → String × ExportTarget)
    (h : ∀ a, (f a).target? = some (g a)) (as : List α) :
    (as.map f).filterMap OwnExport.target? = as.map g := by
  have hcomp : OwnExport.target? ∘ f = some ∘ g := funext h
  rw [List.filterMap_map, hcomp, List.filterMap_eq_map]

theorem isRuntimeDeclaration_of_declares {ns : List String} (h : Declares value ns) :
    isRuntimeDeclaration value = true := by
  cases h <;> rfl

/-- The conversion takes the default export of a declaration by its name, if it has one. -/
theorem exports_exportDefault (hvalue : isTypeDeclaration value = false) :
    Exports (.item span leading (.exportDefault inner value))
      (entriesOf (.item span leading (.exportDefault inner value))) := by
  have hdeclaration : ∀ f, value = .functionDeclaration f ∨ value = .classDeclaration f →
      Exports (.item span leading (.exportDefault inner value))
        (entriesOf (.item span leading (.exportDefault inner value))) := by
    intro f hkind
    cases hnames : value.declaredNames with
    | nil =>
      have hentries : entriesOf (.item span leading (.exportDefault inner value))
          = [("default", .value inner)] := by
        rcases hkind with rfl | rfl <;>
        · simp only [entriesOf, ownExports, assignedEntries, assignsDefault, hnames]
          rfl
      rw [hentries]
      refine .default fun name hname ↦ ?_
      obtain ⟨ns, hns⟩ := (isNamed_iff hkind).mp hname
      rw [hnames] at hns
      cases hns
    | cons name ns =>
      have hentries : entriesOf (.item span leading (.exportDefault inner value))
          = [("default", .binding name)] := by
        rcases hkind with rfl | rfl <;>
        · simp only [entriesOf, ownExports, assignedEntries, assignsDefault, hnames]
          rfl
      rw [hentries]
      exact .namedDefault ((isNamed_iff hkind).mpr ⟨ns, hnames⟩)
  cases value with
  | typeDeclaration n => cases hvalue
  | functionDeclaration f => exact hdeclaration f (.inl rfl)
  | classDeclaration c => exact hdeclaration c (.inr rfl)
  | _ => exact .default fun name hname ↦ by cases hname

theorem exports_exportDeclaration {declaration : Node} {ns : List String}
    (hd : Declares declaration ns) :
    Exports (.item span leading (.exportDeclaration inner declaration))
      (entriesOf (.item span leading (.exportDeclaration inner declaration))) := by
  have hentries : entriesOf (.item span leading (.exportDeclaration inner declaration))
      = ns.map fun n ↦ (n, .binding n) := by
    rw [entriesOf, ownExports, if_pos (isRuntimeDeclaration_of_declares hd),
      hd.declaredNames_eq, filterMap_target?_map _ _ fun _ ↦ rfl]
    exact List.append_nil _
  rw [hentries]
  exact .declaration hd

theorem exports_exportList {l : ExportList} (htype : l.isType = false)
    (hspecifiers : ∀ s ∈ l.specifiers, s.isType = false) :
    Exports (.item span leading (.exportList l)) (entriesOf (.item span leading (.exportList l))) := by
  have hall : l.specifiers.filter (fun s ↦ !s.isType) = l.specifiers :=
    List.filter_eq_self.mpr fun s hs ↦ by rw [hspecifiers s hs]; rfl
  cases hsource : l.source with
  | none =>
    have hentries : entriesOf (.item span leading (.exportList l))
        = l.specifiers.map fun s ↦ (s.exported.text, .binding s.source.text) := by
      simp only [entriesOf, ownExports, htype, hsource, hall]
      rw [if_neg Bool.false_ne_true, filterMap_target?_map _ _ fun _ ↦ rfl]
      exact List.append_nil _
    rw [hentries]
    exact .list hsource
  | some s =>
    have hentries : entriesOf (.item span leading (.exportList l))
        = l.specifiers.map fun e ↦ (e.exported.text, .member s.value e.source.text) := by
      simp only [entriesOf, ownExports, htype, hsource, hall]
      rw [if_neg Bool.false_ne_true, filterMap_target?_map _ _ fun _ ↦ rfl]
      exact List.append_nil _
    rw [hentries]
    exact .listFrom hsource

theorem exports_exportAll {a : ExportAll} (htype : a.isType = false) :
    Exports (.item span leading (.exportAll a)) (entriesOf (.item span leading (.exportAll a))) := by
  cases hexported : a.exported with
  | none =>
    have hentries : entriesOf (.item span leading (.exportAll a)) = [] := by
      simp only [entriesOf, ownExports, htype, hexported]
      rfl
    rw [hentries]
    exact .everything hexported
  | some name =>
    have hentries : entriesOf (.item span leading (.exportAll a))
        = [(name.text, .whole a.source.value)] := by
      simp only [entriesOf, ownExports, htype, hexported]
      rfl
    rw [hentries]
    exact .wholeModule hexported

theorem entriesOf_eq_nil (hn : isExport n = false) : entriesOf n = [] := by
  unfold isExport at hn
  have hown : ownExports n = [] := by
    unfold ownExports
    grind
  have hassigned : assignsDefault n = false := by
    unfold assignsDefault
    grind
  rw [entriesOf, hown, assignedEntries, hassigned]
  rfl

/-- What the conversion takes for the exports of a statement are its exports. -/
theorem exports_entriesOf (hn : Grammar.IsValueItem n) (hinterface : exportsInterface n = false) :
    Exports n (entriesOf n) := by
  unfold Grammar.IsValueItem at hn
  split at hn
  · next span leading body =>
    cases body with
    | exportDeclaration inner d =>
      obtain ⟨ns, hd⟩ := hn
      exact exports_exportDeclaration hd
    | exportDefault inner value => exact exports_exportDefault hinterface
    | exportList l => exact exports_exportList hn.1 hn.2
    | exportAll a => exact exports_exportAll hn
    | _ =>
      rw [entriesOf_eq_nil rfl]
      exact .nothing rfl
  · cases hn

/-! ## Statements at the end of the script -/

/-- A statement writes a target under a name. A generated name in it refers to the module that it is
bound to, and any other name to a binding of the script. -/
inductive Writes (imports : List ImportStatement) :
    ExportStatement → String × ExportTarget → Prop where
  | binding {k n : String} (h : reference? imports n = none) :
    Writes imports (.value k n) (k, .binding n)
  | member {k r s i : String} (h : reference? imports r = some s) :
    Writes imports (.getter k r i) (k, .member s i)
  | whole {k r s : String} (h : reference? imports r = some s) :
    Writes imports (.value k r) (k, .whole s)

/-- Whether a statement writes a single name. -/
def ExportStatement.isSingle : ExportStatement → Bool
  | all _ => false
  | _ => true

theorem writes_of_denotes {imports : List ImportStatement} {names : List String}
    (hnodup : ((boundModules imports).map Prod.fst).Nodup)
    (hfresh : ∀ r ∈ (boundModules imports).map Prod.fst, r ∉ names)
    {ss : List ExportStatement} {own : List OwnExport}
    (h : List.Forall₂ (Denotes imports names) ss own) :
    List.Forall₂ (Writes imports) (ss.filter ExportStatement.isSingle)
      (own.filterMap OwnExport.target?) := by
  induction h with
  | nil => exact .nil
  | cons hs hss ih =>
    cases hs with
    | name hname => exact .cons (.binding (lookup_eq_none fun hr ↦ hfresh _ hr hname)) ih
    | member hbound => exact .cons (.member (lookup_eq_some hnodup hbound)) ih
    | whole hbound => exact .cons (.whole (lookup_eq_some hnodup hbound)) ih
    | everything hbound => exact ih

/-! ## The mark of converted modules -/

/-- A statement that exports something leaves the mark. -/
theorem Draft.convert_hasExports {promises : List Edit} (hmodules : features.modules = true)
    (hn : Grammar.IsValueItem n) (h : d.convert features source promises n = .ok d') :
    d'.hasExports = (d.hasExports || isExport n) := by
  have hplain : isExport n = false → d'.hasExports = d.hasExports →
      d'.hasExports = (d.hasExports || isExport n) := fun hn hd ↦ by rw [hn, hd, Bool.or_false]
  have hexport : isExport n = true → d'.hasExports = true →
      d'.hasExports = (d.hasExports || isExport n) := fun hn hd ↦ by rw [hn, hd, Bool.or_true]
  cases Draft.step_of_convert h with
  | left hleft =>
    refine hplain ?_ rfl
    unfold isLeft at hleft
    unfold isExport
    grind
  | importedTypes => exact hplain rfl rfl
  | guardedImport => exact hplain rfl rfl
  | replacedImport => exact hplain rfl rfl
  | hoisted => exact hplain rfl rfl
  | listOfTypes _ htype => exact absurd (htype.symm.trans hn.1) (by decide)
  | allTypes _ htype => exact absurd (htype.symm.trans hn) (by decide)
  | _ => exact hexport rfl rfl

theorem hasExports_of_draft (hmodules : features.modules = true)
    (hitems : ∀ n ∈ m.items, Grammar.IsValueItem n) (h : draft features source m = .ok d) :
    d.hasExports = m.items.any isExport := by
  obtain ⟨r, hrun, rfl⟩ := exists_run_of_draft h
  refine foldlM_induction
    (fun done u ↦ (∀ n ∈ done, Grammar.IsValueItem n) → u.hasExports = done.any isExport)
    (fun _ ↦ rfl) (fun done n u v hu hv hdone ↦ ?_) hrun hitems
  rw [List.forall_mem_append, List.forall_mem_singleton] at hdone
  rw [Draft.convert_hasExports hmodules hdone.2 hv, hu hdone.1, List.any_append, List.any_cons,
    List.any_nil, Bool.or_false]

/-! ## Scripts -/

theorem isValue_of_target? {e : OwnExport} {t : String × ExportTarget} (h : e.target? = some t) :
    t.2.isValue = false := by
  cases e <;> cases h <;> rfl

/-- The exports of a statement that are not written where they stand. -/
theorem filter_entriesOf_not_isValue (n : Node) :
    (entriesOf n).filter (fun t ↦ !t.2.isValue) = (ownExports n).filterMap OwnExport.target? := by
  have hown : ((ownExports n).filterMap OwnExport.target?).filter (fun t ↦ !t.2.isValue)
      = (ownExports n).filterMap OwnExport.target? := by
    refine List.filter_eq_self.mpr fun t ht ↦ ?_
    obtain ⟨e, -, he⟩ := List.mem_filterMap.mp ht
    rw [isValue_of_target? he]
    rfl
  have hassigned : (assignedEntries n).filter (fun t ↦ !t.2.isValue) = [] := by
    refine List.filter_eq_nil_iff.mpr fun t ht ↦ ?_
    unfold assignedEntries at ht
    split at ht
    · obtain ⟨inner, -, rfl⟩ := List.mem_map.mp ht
      exact Bool.false_ne_true
    · cases ht
  rw [entriesOf, List.filter_append, hown, hassigned, List.append_nil]

/-- The exports of a statement that are written where they stand. -/
theorem filter_entriesOf_isValue (n : Node) :
    (entriesOf n).filter (fun t ↦ t.2.isValue) = assignedEntries n := by
  have hown : ((ownExports n).filterMap OwnExport.target?).filter (fun t ↦ t.2.isValue) = [] := by
    refine List.filter_eq_nil_iff.mpr fun t ht ↦ ?_
    obtain ⟨e, -, he⟩ := List.mem_filterMap.mp ht
    rw [isValue_of_target? he]
    exact Bool.false_ne_true
  have hassigned : (assignedEntries n).filter (fun t ↦ t.2.isValue) = assignedEntries n := by
    refine List.filter_eq_self.mpr fun t ht ↦ ?_
    unfold assignedEntries at ht
    split at ht
    · obtain ⟨inner, -, rfl⟩ := List.mem_map.mp ht
      rfl
    · cases ht
  rw [entriesOf, List.filter_append, hown, hassigned, List.nil_append]

theorem flatMap_assignedEntries (ns : List Node) :
    ns.flatMap assignedEntries
      = ((ns.filter assignsDefault).flatMap fun n ↦ (exportedSpan? n).toList).map
          fun inner ↦ ("default", ExportTarget.value inner) := by
  induction ns with
  | nil => rfl
  | cons n ns ih =>
    rw [List.flatMap_cons, ih, assignedEntries]
    cases hn : assignsDefault n with
    | false =>
      rw [List.filter_cons_of_neg (by rw [hn]; exact Bool.false_ne_true),
        if_neg Bool.false_ne_true, List.nil_append]
    | true =>
      rw [List.filter_cons_of_pos hn, if_pos rfl, List.flatMap_cons, List.map_append]

/-! ## Converted scripts -/

/-- The line that marks a converted module. -/
def markLine : String := "Object.defineProperty(exports, \"__esModule\", \x7b value: true \x7d);\n"

/-- The exports of a script are written. No name is written twice. Each statement at the end of the
script that writes a single name writes one of the exports that do not stand in the body, in their
order, and each assignment in the body writes one of those that do. The header has the mark of
converted modules exactly if the script exports something. -/
structure ExportsWritten (features : Features) (source : List Char) (m : Module) (d : Draft)
    (own : List (String × ExportTarget)) : Prop where
  nodup : (own.map Prod.fst).Nodup
  footer : List.Forall₂ (Writes d.imports) (d.exports.filter ExportStatement.isSingle)
    (own.filter fun t ↦ !t.2.isValue)
  body : List.Forall₂
    (fun e t ↦ ∃ inner, t = ("default", .value inner) ∧ Assigns features source m e inner)
    (assignments features source m) (own.filter fun t ↦ t.2.isValue)
  header : (d.parts features source).header
    = "\"use strict\";\n".toList ++ (if m.items.any isExport then markLine.toList else [])
      ++ ((d.names.defaultHelper.map defaultHelperText).getD "").toList
      ++ ((d.names.wholeHelper.map wholeHelperText).getD "").toList
      ++ ((movedCalls features m).flatMap fun n ↦ movedText features source m n ++ ['\n'])
      ++ d.imports.flatMap fun s ↦ s.text.toList

theorem exists_exportsWritten_of_draft (hparse : parse false source = some m)
    (hmodules : features.modules = true) (hinterface : ∀ n ∈ m.items, exportsInterface n = false)
    (h : draft features source m = .ok d) :
    ∃ own, List.Forall₂ Exports m.items own ∧ ExportsWritten features source m d own.flatten := by
  have hitems := isValueItem_of_parse hparse
  have hplaced := wellPlaced_of_parse hparse
  have htracks := tracks_of_draft hmodules h
  have hexports : ∀ n ∈ m.items, Exports n (entriesOf n) := fun n hn ↦
    exports_entriesOf (hitems n hn) (hinterface n hn)
  refine ⟨m.items.map entriesOf,
    List.forall₂_map_right_iff.mpr (List.forall₂_same.mpr hexports), ?_⟩
  rw [← List.flatMap_def]
  refine ⟨?_, ?_, ?_, ?_⟩
  · have hnames : (m.items.flatMap entriesOf).map Prod.fst
        = m.items.flatMap Grammar.exportedNames := by
      rw [List.map_flatMap]
      exact List.flatMap_congr fun n hn ↦ (hexports n hn).map_fst
    rw [hnames]
    exact nodup_exportedNames hparse
  · -- All but values are written in the footer, by the exports of the draft.
    have hown : (m.items.flatMap entriesOf).filter (fun t ↦ !t.2.isValue)
        = (m.items.flatMap ownExports).filterMap OwnExport.target? := by
      rw [List.filter_flatMap, List.filterMap_flatMap]
      exact List.flatMap_congr fun n _ ↦ filter_entriesOf_not_isValue n
    rw [hown]
    exact writes_of_denotes htracks.hygienic.references_nodup htracks.hygienic.references_fresh
      htracks.denotes
  · -- Values are assigned where they stand.
    have hown : (m.items.flatMap entriesOf).filter (fun t ↦ t.2.isValue)
        = ((m.items.filter assignsDefault).flatMap fun n ↦ (exportedSpan? n).toList).map
            fun inner ↦ ("default", ExportTarget.value inner) := by
      rw [List.filter_flatMap, ← flatMap_assignedEntries]
      exact List.flatMap_congr fun n _ ↦ filter_entriesOf_isValue n
    rw [hown, List.forall₂_map_right_iff]
    exact (hplaced.assigns hmodules).imp fun e inner he ↦ ⟨inner, rfl, he⟩
  · have hmark := hasExports_of_draft hmodules hitems h
    have hline : ∀ exports : Bool, (if exports = true then markLine else "").toList
        = if exports = true then markLine.toList else [] := by
      rintro (_ | _) <;> rfl
    rw [header_of_draft h, preamble, hmodules, hmark, Bool.true_and, if_pos rfl, ← hline]
    simp only [String.toList_append, List.append_assoc]
    rfl

/-- Whatever is converted with its modules, the exports of the script are written. -/
theorem exportsWritten_of_convert {config : ModuleConfig} {filename code : String}
    {input : Option SourceMap} {unit : ScriptUnit} (hparse : parse false code.toList = some m)
    (hmodules : config.runs .modulesCommonJs = true)
    (hinterface : ∀ n ∈ m.items, exportsInterface n = false)
    (hconvert : convert config filename code input = .ok unit) :
    ∃ d own gap rest, draft (Features.ofConfig config) code.toList m = .ok d ∧
      List.Forall₂ Exports m.items own ∧
      ExportsWritten (Features.ofConfig config) code.toList m d own.flatten ∧
      (gap = [] ∨ gap = ['\n']) ∧
      unit.code.toList = (d.parts (Features.ofConfig config) code.toList).header
        ++ dropMapComments (bodyOf (Features.ofConfig config) code.toList m) ++ gap
        ++ (d.exports.flatMap fun s ↦ s.text.toList) ++ rest := by
  obtain ⟨parts, hparts, hcode, -⟩ := code_of_convert hconvert
  obtain ⟨m', d, hparse', hdraft, rfl⟩ := exists_draft_of_partsOf hparts
  rw [hparse] at hparse'
  cases hparse'
  obtain ⟨own, hown, hwritten⟩ := exists_exportsWritten_of_draft hparse hmodules hinterface hdraft
  have hfooter : (d.parts (Features.ofConfig config) code.toList).footer
      = d.exports.flatMap fun s ↦ s.text.toList := toList_join_map _ _
  obtain ⟨gap, hgap, htext⟩ := (d.parts (Features.ofConfig config) code.toList).exists_text_eq
  rw [body_of_draft hdraft, hfooter] at htext
  have hrest : ∃ rest, unit.code.toList
      = (d.parts (Features.ofConfig config) code.toList).text ++ rest := by
    rw [hcode]
    split
    · obtain ⟨line, -, hline⟩ :=
        exists_freshLine_eq (d.parts (Features.ofConfig config) code.toList).text
      exact ⟨_, by rw [hline, List.append_assoc]⟩
    · exact ⟨[], (List.append_nil _).symm⟩
  obtain ⟨rest, hrest⟩ := hrest
  exact ⟨d, own, gap, rest, hdraft, hown, hwritten, hgap, by rw [hrest, htext]⟩

/-- A script with an export of each kind. -/
theorem exportsWritten_of_convert_kinds :
    let code :=
      "export default x;\nexport let \x7ba, b: [c]\x7d = y;\nexport \x7bz as \"w\"\x7d from \"v\";\n"
    let config : ModuleConfig := ⟨.off, [], [.modulesCommonJs]⟩
    let features := Features.ofConfig config
    ∃ unit m d own gap rest, convert config "a.js" code none = .ok unit ∧
      List.Forall₂ Exports m.items own ∧ ExportsWritten features code.toList m d own.flatten ∧
      unit.code.toList = (d.parts features code.toList).header
        ++ dropMapComments (bodyOf features code.toList m) ++ gap
        ++ (d.exports.flatMap fun s ↦ s.text.toList) ++ rest ∧
      (m.items.filter assignsDefault).filterMap exportedSpan? = [⟨15, 16⟩] ∧
      d.exports = [.value "a" "a", .value "c" "c", .getter "w" "_v" "z"] := by
  intro code config features
  have hread : ((parse false code.toList).any fun m ↦
      decide (∀ n ∈ m.items, exportsInterface n = false) &&
      decide ((m.items.filter assignsDefault).filterMap exportedSpan? = [⟨15, 16⟩]) &&
      (draft features code.toList m).toOption.any fun d ↦ decide
        (d.exports = [.value "a" "a", .value "c" "c", .getter "w" "_v" "z"])) = true := by
    decide +kernel
  obtain ⟨m, hparse, hm⟩ := (Option.any_eq_true ..).mp hread
  rw [Bool.and_eq_true, Bool.and_eq_true, decide_eq_true_iff, decide_eq_true_iff] at hm
  obtain ⟨⟨hinterface, hassigned⟩, hm⟩ := hm
  cases hdraft : draft features code.toList m with
  | error e => rw [hdraft] at hm; cases hm
  | ok d =>
    rw [hdraft, Except.toOption, Option.any_some, decide_eq_true_iff] at hm
    have hdone : ∃ unit, convert config "a.js" code none = .ok unit :=
      exists_convert_of_draft hparse hdraft
    obtain ⟨unit, hconvert⟩ := hdone
    obtain ⟨d', own, gap, rest, hdraft', hown, hwritten, -, hcode⟩ :=
      exportsWritten_of_convert hparse (by decide) hinterface hconvert
    rw [hdraft] at hdraft'
    cases hdraft'
    exact ⟨unit, m, d, own, gap, rest, hconvert, hown, hwritten, hcode, hassigned, hm⟩

/-- With the import behind it taken out, a value without a semicolon runs into the next statement,
and another value is exported. -/
theorem exported_value_merged :
    let code := "export default foo\nimport \"x\";\n(bar)\n"
    let config : ModuleConfig := ⟨.off, [], [.modulesCommonJs]⟩
    ∃ (m m' : Module) (unit : ScriptUnit), parse false code.toList = some m ∧
      convert config "a.js" code none = .ok unit ∧
      parse false unit.code.toList = some m' ∧
      statementTexts code.toList m
        = ["export default foo".toList, "import \"x\";".toList, "(bar)".toList] ∧
      (statementTexts unit.code.toList m').drop 2
        = ["require(\"x\");".toList, "exports.default = foo\n\n(bar)".toList] := by
  intro code config
  let features := Features.ofConfig config
  -- The two edits stand in a row, so the body is their splice.
  have hread : ((parse false code.toList).any fun m ↦
      decide (statementTexts code.toList m
        = ["export default foo".toList, "import \"x\";".toList, "(bar)".toList]) &&
      (draft features code.toList m).toOption.any fun d ↦
        decide (d.edits.Pairwise fun e f ↦ e.span.stop ≤ f.span.start) &&
        decide (∀ e ∈ d.edits, e.span.start < e.span.stop) && decide (d.exports = []) &&
        (parse false ((header features d).toList
          ++ dropMapComments (Edit.splice 0 d.edits code.toList))).any fun m' ↦
            decide ((statementTexts ((header features d).toList
              ++ dropMapComments (Edit.splice 0 d.edits code.toList)) m').drop 2
                = ["require(\"x\");".toList, "exports.default = foo\n\n(bar)".toList])) = true := by
    decide +kernel
  obtain ⟨m, hparse, hm⟩ := (Option.any_eq_true ..).mp hread
  rw [Bool.and_eq_true, decide_eq_true_iff] at hm
  obtain ⟨htexts, hm⟩ := hm
  obtain ⟨d, hdraft, hd⟩ := (Option.any_eq_true ..).mp hm
  rw [Bool.and_eq_true, Bool.and_eq_true, Bool.and_eq_true, decide_eq_true_iff, decide_eq_true_iff,
    decide_eq_true_iff] at hd
  obtain ⟨⟨⟨hrow, hroom⟩, hexports⟩, hd⟩ := hd
  obtain ⟨m', hparse', htexts'⟩ := (Option.any_eq_true ..).mp hd
  have hdraft : draft features code.toList m = .ok d := by
    cases hresult : draft features code.toList m with
    | error e => rw [hresult] at hdraft; cases hdraft
    | ok d' => rw [hresult] at hdraft; cases hdraft; rfl
  have hdone : ∃ unit, convert config "a.js" code none = .ok unit :=
    exists_convert_of_draft hparse hdraft
  obtain ⟨unit, hconvert⟩ := hdone
  obtain ⟨parts, hparts, hcode, -⟩ := code_of_convert hconvert
  obtain ⟨m₁, d₁, hparse₁, hdraft₁, rfl⟩ := exists_draft_of_partsOf hparts
  rw [hparse] at hparse₁
  cases hparse₁
  rw [hdraft] at hdraft₁
  cases hdraft₁
  have htext : unit.code.toList
      = (header features d).toList ++ dropMapComments (Edit.splice 0 d.edits code.toList) := by
    rw [hcode, ← Edit.apply_eq_splice hrow hroom]
    unfold Parts.text Draft.parts
    rw [hexports]
    rfl
  rw [← htext] at hparse' htexts'
  exact ⟨m, m', unit, hparse, hconvert, hparse', htexts, of_decide_eq_true htexts'⟩

end Downlevel.CommonJs
