import Downlevel.Proofs.CommonJs.Pieces

/-!
# Where generated names occur

A name that begins like a generated one and is no name of the script can only be in a piece that the
conversion writes with it. So it is a generated one, and the header declares it: helpers in the
preamble, and each reference at the start of the one statement that loads its module. Statements for
exports and converted dynamic imports stand behind that, wherever an edit or a moved call puts them.

A helper is named when a statement or a dynamic import first asks for it. What asked for it stays
until the end: statements of the header are never dropped, and of the edits for dynamic imports one
is carried out in the body or in a call that moves.
-/

namespace Downlevel.CommonJs

open Script Text Lexeme

variable {features : Features} {source : List Char} {m : Module} {d d' : Draft} {e : Edit}
  {p : Piece} {name text : String} {names : List String}

/-! ## Names that a script does not have -/

/-- A name that begins like a generated one and is no name of the script. -/
def IsForeign (m : Module) (name : String) : Prop :=
  beginsGenerated name = true ∧ name ∉ namesIn m.items

instance (m : Module) : DecidablePred (IsForeign m) := fun _ ↦ inferInstanceAs (Decidable (_ ∧ _))

theorem isForeign_of_fresh {references : List String} {ns : Names}
    (h : ns.Fresh (namesIn m.items) references) (hname : name ∈ ns.generated references) :
    IsForeign m name :=
  ⟨(h.looksGenerated name hname).beginsGenerated, h.notMem_script name hname⟩

theorem isForeign_of_draft (h : draft features source m = .ok d) (hname : name ∈ generatedNames d) :
    IsForeign m name := isForeign_of_fresh (namesApart_of_draft h).fresh hname

theorem MentionsOnly.mono {names' : List String} (h : MentionsOnly text names)
    (hsub : names ⊆ names') : MentionsOnly text names' :=
  ⟨h.1, fun n hn hbegins ↦ hsub (h.2 n hn hbegins)⟩

/-- The generated names differ from each other. -/
theorem helpers_apart (h : draft features source m = .ok d) :
    (∀ a b, d.names.defaultHelper = some a → d.names.wholeHelper = some b → a ≠ b) ∧
      ∀ r ∈ (boundModules d.imports).map Prod.fst,
        d.names.defaultHelper ≠ some r ∧ d.names.wholeHelper ≠ some r := by
  have hnodup := (wellNamed_of_draft h).nodup
  rw [generatedNames, Names.generated, List.nodup_append', List.nodup_append'] at hnodup
  obtain ⟨⟨-, -, hhelpers⟩, -, hreferences⟩ := hnodup
  refine ⟨?_, fun r hr ↦ ⟨fun hdefault ↦ ?_, fun hwhole ↦ ?_⟩⟩
  · rintro a b ha hb rfl
    exact hhelpers (Option.mem_toList.mpr ha) (Option.mem_toList.mpr hb)
  · exact hreferences (List.mem_append_left _ (Option.mem_toList.mpr hdefault)) hr
  · exact hreferences (List.mem_append_right _ (Option.mem_toList.mpr hwhole)) hr

theorem isWord_of_helper (h : draft features source m = .ok d)
    (hname : d.names.defaultHelper = some name ∨ d.names.wholeHelper = some name) :
    Literal.IsWord name.toList := isWord_of_mem_generatedNames h (helper_mem_generatedNames hname)

theorem defines_defaultHelper (h : draft features source m = .ok d)
    (hname : d.names.defaultHelper = some name) : Defines (defaultHelperText name) name :=
  defines_defaultHelperText (isWord_of_helper h (.inl hname))

theorem defines_wholeHelper (h : draft features source m = .ok d)
    (hname : d.names.wholeHelper = some name) : Defines (wholeHelperText name) name :=
  defines_wholeHelperText (isWord_of_helper h (.inr hname))

/-! ## Statements for imports -/

section Imports

variable {s : ImportStatement}

namespace ImportStatement

theorem mem_names_of_mem_identifiers (h : name ∈ s.identifiers)
    (hbegins : CommonJs.beginsGenerated name = true) : name ∈ s.names := by
  have hconst : name ≠ "const" := by rintro rfl; exact absurd hbegins (by decide)
  have hrequire : name ≠ "require" := by rintro rfl; exact absurd hbegins (by decide)
  cases s with
  | effect => exact absurd (List.mem_singleton.mp h) hrequire
  | fields specifier fs => simpa [identifiers, ImportStatement.names, hconst, hrequire] using h
  | defaultOnly helper specifier n =>
    have h := List.mem_of_ne_of_mem hconst h
    simp only [List.mem_cons, List.not_mem_nil, or_false] at h
    simp only [ImportStatement.names, List.mem_cons, List.not_mem_nil, or_false]
    grind
  | reference helper specifier n bs =>
    simp only [identifiers, List.mem_cons, List.mem_flatMap, List.not_mem_nil, or_false] at h
    simp only [ImportStatement.names, List.mem_cons, List.mem_map]
    grind
  | guarded => cases h

/-- The constants of a statement: at most a reference, and then names of the script. -/
theorem constants_fst (s : ImportStatement) :
    s.constants.map Prod.fst = (boundModules [s]).map Prod.fst ++ s.locals := by
  cases s with
  | fields specifier fs => exact List.map_map
  | reference helper specifier n bs => exact congrArg (n :: ·) List.map_map
  | _ => rfl

end ImportStatement

/-- What a guarded import declares are names of the script. -/
theorem exists_lexemes_of_isGuarded (hparse : parse false source = some m)
    (h : draft features source m = .ok d) (hs : s ∈ d.imports) (hguarded : s.isGuarded = true) :
    ∃ ls, lexemes? s.text.toList = some ls ∧ ls.getLast? ≠ some (.mark ';') ∧
      ∀ n, .name n ∈ ls → beginsGenerated n = true → n ∈ namesIn m.items := by
  obtain ⟨n, hn, hstand⟩ := exists_standsFor h hs
  cases hstand with
  | guarded _ htext =>
    obtain ⟨ls, hls, hlast, hwords⟩ := exists_lexemes_guarded
      (fun b hb ↦ isWord_of_parse hparse _ (localName_mem_namesIn hn hb)) htext
    refine ⟨ls, hls, hlast, fun w hw hbegins ↦ ?_⟩
    obtain ⟨b, hb, rfl⟩ := List.mem_map.mp (hwords w hw hbegins)
    exact localName_mem_namesIn hn hb
  | _ => cases hguarded

theorem mentionsOnly_import (hparse : parse false source = some m)
    (h : draft features source m = .ok d) (hs : s ∈ d.imports) :
    MentionsOnly s.text (s.names ++ namesIn m.items) := by
  cases hguarded : s.isGuarded with
  | false =>
    have hwords := isWord_names hparse h hs
    refine mentionsOnly_of_lexemes (ImportStatement.lexemes?_text hwords hguarded)
      fun n hn hbegins ↦ List.mem_append_left _ ?_
    rw [ImportStatement.identifiers_lexemes hguarded] at hn
    exact ImportStatement.mem_names_of_mem_identifiers hn hbegins
  | true =>
    obtain ⟨ls, hls, -, hscript⟩ := exists_lexemes_of_isGuarded hparse h hs hguarded
    exact mentionsOnly_of_lexemes hls fun n hn hbegins ↦
      List.mem_append_right _ (hscript n (name_mem_of_mem_identifiersBehind hn) hbegins)

/-- A statement declares its reference, and otherwise only names of the script. -/
theorem filter_declaredIn_import (hparse : parse false source = some m)
    (h : draft features source m = .ok d) (hs : s ∈ d.imports) :
    (declaredIn s.text).filter (fun n ↦ decide (IsForeign m n))
      = (boundModules [s]).map Prod.fst := by
  have hreference : ∀ r ∈ (boundModules [s]).map Prod.fst, r ∈ generatedNames d := fun r hr ↦
    mem_generatedNames.mpr (.inr (.inr (List.map_subset _ (boundModules_subset hs) hr)))
  cases hguarded : s.isGuarded with
  | false =>
    have hlocals := locals_subset h hs
    have hdeclared : declaredIn s.text = (boundModules [s]).map Prod.fst ++ s.locals := by
      rw [ImportStatement.declaredIn_text (isWord_names hparse h hs) hguarded,
        ImportStatement.constants_fst]
      rintro helper specifier n bs rfl b hb rfl
      exact notMem_namesIn_of_draft h (hreference _ List.mem_cons_self)
        (hlocals (List.mem_map_of_mem hb))
    have hforeign : ((boundModules [s]).map Prod.fst).filter (fun n ↦ decide (IsForeign m n))
        = (boundModules [s]).map Prod.fst :=
      List.filter_eq_self.mpr fun r hr ↦ decide_eq_true (isForeign_of_draft h (hreference r hr))
    have hscript : s.locals.filter (fun n ↦ decide (IsForeign m n)) = [] :=
      List.filter_eq_nil_iff.mpr fun n hn hforeign ↦ (of_decide_eq_true hforeign).2 (hlocals hn)
    rw [hdeclared, List.filter_append, hforeign, hscript, List.append_nil]
  | true =>
    obtain ⟨ls, hls, hlast, hscript⟩ := exists_lexemes_of_isGuarded hparse h hs hguarded
    have hnone : boundModules [s] = [] := by
      cases s <;> first | rfl | cases hguarded
    rw [hnone, declaredIn_eq hls hlast]
    refine List.filter_eq_nil_iff.mpr fun n hn hforeign ↦ ?_
    obtain ⟨hbegins, hnot⟩ := of_decide_eq_true hforeign
    exact hnot (hscript n (name_mem_of_mem_declaredBehind hn) hbegins)

end Imports

/-! ## Where pieces come from -/

/-- Where a piece of the header or the body comes from, with the names that it is written with. -/
inductive Origin (d : Draft) : Piece → List String → Prop where
  /-- It is a part of the script. -/
  | copied (span : Span) : Origin d (.copied span) []
  /-- It is a text without generated names. -/
  | plain {text : String} (htext : MentionsOnly text []) : Origin d (.written text) []
  | defaultHelper {name : String} (hhelper : d.names.defaultHelper = some name) :
    Origin d (.written (defaultHelperText name)) [name]
  | wholeHelper {name : String} (hhelper : d.names.wholeHelper = some name) :
    Origin d (.written (wholeHelperText name)) [name]
  /-- It stands in front of the argument of a dynamic import. -/
  | promise {name : String} (hhelper : d.names.wholeHelper = some name) :
    Origin d (.written (promiseFront name)) [name]
  /-- It takes the place of an import, or of an export from another module. -/
  | load {s : ImportStatement} (hs : s ∈ d.imports) : Origin d (.written s.text) s.names

section Origins

theorem mem_preamblePieces (hp : p ∈ preamblePieces features d) :
    (∃ text, p = .written text ∧ MentionsOnly text []) ∨
      (∃ helper, d.names.defaultHelper = some helper ∧ p = .written (defaultHelperText helper)) ∨
      ∃ helper, d.names.wholeHelper = some helper ∧ p = .written (wholeHelperText helper) := by
  have hstrict : MentionsOnly "\"use strict\";\n" [] :=
    (SpellsOnly.of_check (by decide)).mentionsOnly
  have hmark : MentionsOnly
      "Object.defineProperty(exports, \"__esModule\", \x7b value: true \x7d);\n" [] :=
    (SpellsOnly.of_check (by decide +kernel)).mentionsOnly
  rw [preamblePieces, List.mem_map] at hp
  obtain ⟨text, htext, rfl⟩ := hp
  simp only [List.mem_append, Option.mem_toList, Option.map_eq_some_iff] at htext
  rcases htext with ((htext | htext) | ⟨helper, hhelper, rfl⟩) | ⟨helper, hhelper, rfl⟩
  · split at htext
    · rw [List.mem_singleton.mp htext]
      exact .inl ⟨_, rfl, hstrict⟩
    · cases htext
  · split at htext
    · rw [List.mem_singleton.mp htext]
      exact .inl ⟨_, rfl, hmark⟩
    · cases htext
  · exact .inr (.inl ⟨helper, hhelper, rfl⟩)
  · exact .inr (.inr ⟨helper, hhelper, rfl⟩)

theorem exists_origin_of_edit (h : draft features source m = .ok d)
    (he : e ∈ recordedEdits features source m) (hp : p ∈ editPieces features source m e) :
    ∃ names, Origin d p names := by
  have hclose : MentionsOnly ")))" [] := (SpellsOnly.of_check (by decide)).mentionsOnly
  by_cases hpromise : e ∈ promisesOf features source m
  · obtain ⟨argument, hpieces⟩ := exists_editPieces_eq hpromise
    rw [hpieces] at hp
    simp only [List.mem_cons, List.not_mem_nil, or_false] at hp
    rcases hp with rfl | rfl | rfl
    · exact ⟨_, .promise (hasHelper_of_draft (List.ne_nil_of_mem hpromise) h)⟩
    · exact ⟨_, .copied argument⟩
    · exact ⟨_, .plain hclose⟩
  · obtain ⟨n, -, he⟩ := (mem_recordedEdits.mp he).resolve_right hpromise
    rw [editPieces_of_notMem hpromise, List.mem_singleton] at hp
    rw [hp]
    exact ⟨_, .plain (mentionsOnly_of_mem_editsOf he)⟩

theorem exists_origin_of_splice (h : draft features source m = .ok d) {base stop : Nat}
    {es : List Edit} (hes : es ⊆ recordedEdits features source m)
    (hp : p ∈ splicePieces (editPieces features source m) base es stop) :
    ∃ names, Origin d p names := by
  rcases mem_splicePieces hp with ⟨span, rfl⟩ | ⟨e, he, hp⟩
  · exact ⟨_, .copied span⟩
  · exact exists_origin_of_edit h (hes he) hp

theorem exists_origin_of_header (h : draft features source m = .ok d)
    (hp : p ∈ headerPieces features source m d) : ∃ names, Origin d p names := by
  have hline : MentionsOnly "\n" [] := (SpellsOnly.of_check (by decide)).mentionsOnly
  rw [headerPieces, List.mem_append, List.mem_append] at hp
  rcases hp with (hp | hp) | hp
  · rcases mem_preamblePieces hp with ⟨text, rfl, htext⟩ | ⟨helper, hhelper, rfl⟩ |
      ⟨helper, hhelper, rfl⟩
    · exact ⟨_, .plain htext⟩
    · exact ⟨_, .defaultHelper hhelper⟩
    · exact ⟨_, .wholeHelper hhelper⟩
  · obtain ⟨n, -, hp⟩ := List.mem_flatMap.mp hp
    rcases List.mem_append.mp hp with hp | hp
    · refine exists_origin_of_splice h (fun e he ↦ mem_recordedEdits.mpr (.inr ?_)) hp
      exact (List.mem_filter.mp (Edit.mem_of_mem_outermost he)).1
    · rw [List.mem_singleton.mp hp]
      exact ⟨_, .plain hline⟩
  · obtain ⟨s, hs, rfl⟩ := List.mem_map.mp hp
    exact ⟨_, .load hs⟩

theorem exists_origin_of_body (h : draft features source m = .ok d)
    (hp : p ∈ bodyPieces features source m) : ∃ names, Origin d p names :=
  exists_origin_of_splice h (fun _ ↦ Edit.mem_of_mem_outermost) hp

namespace Origin

theorem mentionsOnly (hparse : parse false source = some m) (h : draft features source m = .ok d)
    (horigin : Origin d (.written text) names) : MentionsOnly text (names ++ namesIn m.items) := by
  cases horigin with
  | plain htext => exact htext.mono (List.nil_subset _)
  | defaultHelper hhelper =>
    exact (defines_defaultHelper h hhelper).mentions.mono (List.subset_append_left ..)
  | wholeHelper hhelper =>
    exact (defines_wholeHelper h hhelper).mentions.mono (List.subset_append_left ..)
  | @promise helper hhelper =>
    have hword := isWord_of_helper h (.inr hhelper)
    have hlexemes := lexemes?_promiseFront hword
    refine mentionsOnly_of_lexemes hlexemes fun n hn hbegins ↦ ?_
    rw [← identifiersOf_eq hlexemes, identifiersOf_promiseFront hword] at hn
    simp only [List.mem_cons, List.not_mem_nil, or_false] at hn
    rcases hn with rfl | rfl | rfl
    · exact absurd hbegins (by decide)
    · exact List.mem_cons_self
    · exact absurd hbegins (by decide)
  | load hs => exact mentionsOnly_import hparse h hs

theorem mem_names (hparse : parse false source = some m) (h : draft features source m = .ok d)
    (horigin : Origin d p names) (hname : name ∈ p.identifiers m) (hforeign : IsForeign m name) :
    name ∈ names := by
  cases p with
  | written text =>
    refine (List.mem_append.mp ?_).resolve_right hforeign.2
    exact (horigin.mentionsOnly hparse h).2 name hname hforeign.1
  | copied span => exact absurd hname hforeign.2

/-- The names that a statement is written with are generated or names of the script. -/
theorem mem_generatedNames (h : draft features source m = .ok d) (horigin : Origin d p names)
    (hname : name ∈ names) : name ∈ generatedNames d ∨ name ∈ namesIn m.items := by
  cases horigin with
  | copied => cases hname
  | plain => cases hname
  | defaultHelper hdefault =>
    rw [List.mem_singleton.mp hname]
    exact .inl (helper_mem_generatedNames (.inl hdefault))
  | wholeHelper hwhole =>
    rw [List.mem_singleton.mp hname]
    exact .inl (helper_mem_generatedNames (.inr hwhole))
  | promise hwhole =>
    rw [List.mem_singleton.mp hname]
    exact .inl (helper_mem_generatedNames (.inr hwhole))
  | load hs => exact mem_generatedNames_or_script h hs hname

end Origin

end Origins

end Downlevel.CommonJs
