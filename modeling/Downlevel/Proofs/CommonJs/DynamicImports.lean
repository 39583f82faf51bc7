import Downlevel.Proofs.CommonJs.Hoisting
import Downlevel.Proofs.Script.Children

/-!
# Dynamic imports

A dynamic import is found wherever it stands, unless it stands in another one: the search does not
go inside those it finds. Each one that is found is converted once, in the body or in a call that
moves to the header. So all import expressions of a script are converted exactly if none of them
stands in another one, in its argument or in its options.
-/

namespace Downlevel.CommonJs

open Script Text

variable {features : Features} {source : List Char} {m : Module} {n : Node} {d d' : Draft}
  {e : Edit}

/-! ## Import expressions -/

/-- All import expressions of a script, those that stand in others as well. -/
def importExpressions (m : Module) : List (Span × Span) :=
  (Node.nodes m.items).filterMap dynamicImport?

/-- An import expression of a script stands in another one. -/
def HasNestedImport (m : Module) : Prop :=
  ∃ n ∈ Node.nodes m.items, (dynamicImport? n).isSome ∧
    ∃ k ∈ Node.nodes n.children, (dynamicImport? k).isSome

/-- The import expressions inside those that the conversion finds. -/
def nestedImports (m : Module) : List (Span × Span) :=
  (Node.outermost (fun n ↦ (dynamicImport? n).isSome) m.items).flatMap fun n ↦
    if (dynamicImport? n).isSome then (Node.nodes n.children).filterMap dynamicImport? else []

/-- The import expressions of a script are those that are found and those inside them. -/
theorem importExpressions_perm (m : Module) :
    (importExpressions m).Perm (dynamicImports m ++ nestedImports m) := by
  have hnodes := Node.nodes_eq_flatMap_outermost (fun n ↦ (dynamicImport? n).isSome) m.items
  have hcons : ∀ n : Node,
      (n :: if (dynamicImport? n).isSome then Node.nodes n.children else []).filterMap dynamicImport?
        = (dynamicImport? n).toList
          ++ if (dynamicImport? n).isSome then (Node.nodes n.children).filterMap dynamicImport?
            else [] := by
    intro n
    rw [List.filterMap_cons]
    cases dynamicImport? n <;> rfl
  rw [importExpressions, hnodes, List.filterMap_flatMap]
  simp only [hcons]
  rw [dynamicImports, List.filterMap_eq_flatMap_toList, nestedImports]
  exact (List.flatMap_append_perm _ _ _).symm

theorem nestedImports_eq_nil_iff (m : Module) : nestedImports m = [] ↔ ¬HasNestedImport m := by
  have hnodes := Node.nodes_eq_flatMap_outermost (fun n ↦ (dynamicImport? n).isSome) m.items
  rw [nestedImports, List.flatMap_eq_nil_iff]
  constructor
  · rintro hnone ⟨n, hn, himport, k, hk, hkimport⟩
    -- The outer import is found itself, or it stands in one that is found.
    rw [hnodes] at hn
    obtain ⟨x, hx, hn⟩ := List.mem_flatMap.mp hn
    have hnonex := hnone x hx
    rcases List.mem_cons.mp hn with rfl | hn
    · rw [if_pos himport, List.filterMap_eq_nil_iff] at hnonex
      rw [hnonex k hk] at hkimport
      cases hkimport
    · split at hn
      · next hximport =>
        rw [if_pos hximport, List.filterMap_eq_nil_iff] at hnonex
        rw [hnonex n hn] at himport
        cases himport
      · cases hn
  · intro hnested x hx
    split
    · next hximport =>
      rw [List.filterMap_eq_nil_iff]
      intro k hk
      by_contra hkimport
      refine hnested ⟨x, ?_, hximport, k, hk, Option.isSome_iff_ne_none.mpr hkimport⟩
      rw [hnodes]
      exact List.mem_flatMap.mpr ⟨x, hx, List.mem_cons_self⟩
    · rfl

/-! ## Conversions -/

/-- The name of the helper that converted dynamic imports call. -/
def importHelper (m : Module) : String := (Names.ofScript m).forWhole.1

/-- The conversions that are carried out in the body. -/
def bodyConversions (features : Features) (source : List Char) (m : Module) : List Edit :=
  (Edit.outermost (recordedEdits features source m)).filter fun e ↦
    decide (e ∈ promisesOf features source m)

/-- The conversions that are carried out in a call that moves. -/
def callConversions (features : Features) (source : List Char) (m : Module) (n : Node) :
    List Edit :=
  Edit.outermost ((promisesOf features source m).filter fun e ↦ within e.span (itemSpan n))

/-- All conversions of dynamic imports that are carried out. -/
def conversions (features : Features) (source : List Char) (m : Module) : List Edit :=
  bodyConversions features source m
    ++ (movedCalls features m).flatMap (callConversions features source m)

/-- A dynamic import in a statement that is cut out stands in a call that moves. -/
def ImportsStay (features : Features) (m : Module) : Prop :=
  ∀ n ∈ m.items, isCut features n = true → ∀ p ∈ dynamicImports m, p.1.Nested (itemSpan n) →
    (features.hoists && isMockCall n) = true

theorem importsStay_of_parse (h : parse false source = some m) (features : Features) :
    ImportsStay features m := by
  intro n hn hcut p hp hnested
  obtain ⟨span, leading, e, rfl⟩ := exists_expression_of_cut h hn hcut hp hnested
  exact hcut

instance (m : Module) : Decidable (HasNestedImport m) :=
  inferInstanceAs (Decidable (∃ n ∈ Node.nodes m.items, _ ∧ ∃ k ∈ Node.nodes n.children, _))

namespace WellPlaced

theorem promises_apart (h : WellPlaced source m) (features : Features) :
    (promisesOf features source m).Pairwise fun e f ↦ e.span.Apart f.span := by
  rw [promisesOf_eq]
  split
  · rw [List.pairwise_map]
    exact h.imports_apart
  · exact .nil

theorem promise_nonempty (h : WellPlaced source m) (he : e ∈ promisesOf features source m) :
    e.span.start < e.span.stop := by
  obtain ⟨-, p, hp, rfl⟩ := mem_promisesOf he
  exact h.import_nonempty hp

theorem promises_nodup (h : WellPlaced source m) (features : Features) :
    (promisesOf features source m).Nodup :=
  (h.promises_apart features).imp_of_mem fun he _ hapart hef ↦
    hapart.ne (h.promise_nonempty he) (congrArg Edit.span hef)

theorem recorded_nodup (h : WellPlaced source m) (features : Features) :
    (recordedEdits features source m).Nodup :=
  (h.recorded_distinct features).imp fun hne hef ↦ hne (congrArg Edit.span hef)

theorem outermost_nodup (h : WellPlaced source m) (features : Features) :
    (Edit.outermost (recordedEdits features source m)).Nodup :=
  (Edit.outermost_perm (h.laminar features)).nodup_iff.mpr ((h.recorded_nodup features).filter _)

theorem mem_bodyConversions (h : WellPlaced source m) :
    e ∈ bodyConversions features source m
      ↔ e ∈ promisesOf features source m ∧ inCutStatement features m e.span = false := by
  rw [bodyConversions, List.mem_filter, decide_eq_true_iff, h.mem_outermost]
  constructor
  · rintro ⟨⟨-, houter⟩, he⟩
    obtain ⟨-, p, hp, rfl⟩ := mem_promisesOf he
    exact ⟨he, (h.isOutermost_promise hp _).mp houter⟩
  · rintro ⟨he, hcut⟩
    refine ⟨⟨mem_recordedEdits.mpr (.inr he), ?_⟩, he⟩
    obtain ⟨-, p, hp, rfl⟩ := mem_promisesOf he
    exact (h.isOutermost_promise hp _).mpr hcut

theorem callConversions_perm (h : WellPlaced source m) (n : Node) :
    (callConversions features source m n).Perm
      ((promisesOf features source m).filter fun e ↦ within e.span (itemSpan n)) :=
  Edit.outermost_perm_of_apart ((h.promises_apart features).filter _) fun _ he ↦
    h.promise_nonempty (List.mem_filter.mp he).1

theorem mem_callConversions (h : WellPlaced source m) :
    e ∈ callConversions features source m n
      ↔ e ∈ promisesOf features source m ∧ e.span.Nested (itemSpan n) := by
  rw [(h.callConversions_perm n).mem_iff, List.mem_filter]
  refine and_congr_right fun he ↦ ?_
  have hroom := h.promise_nonempty he
  rw [within, Bool.and_eq_true, decide_eq_true_iff, decide_eq_true_iff]
  unfold Span.Nested
  omega

theorem conversions_nodup (h : WellPlaced source m) (features : Features) :
    (conversions features source m).Nodup := by
  refine List.nodup_append'.mpr ⟨?_, List.nodup_flatMap.mpr ⟨fun n _ ↦ ?_, ?_⟩, ?_⟩
  · exact (h.outermost_nodup features).filter _
  · exact (h.callConversions_perm n).nodup_iff.mpr ((h.promises_nodup features).filter _)
  · -- No import stands in two statements.
    refine (h.items_ordered.sublist List.filter_sublist).imp fun {a b} hab e hea heb ↦ ?_
    have hina := (h.mem_callConversions.mp hea).2
    have hinb := (h.mem_callConversions.mp heb).2
    have hroom := h.promise_nonempty (h.mem_callConversions.mp hea).1
    unfold Span.Nested at hina hinb
    omega
  · intro e hbody hcall
    obtain ⟨n, hn, hcall⟩ := List.mem_flatMap.mp hcall
    obtain ⟨hn, hcut, -⟩ := mem_movedCalls hn
    have hnotcut := (h.mem_bodyConversions.mp hbody).2
    rw [inCutStatement_eq_true.mpr ⟨n, hn, hcut, (h.mem_callConversions.mp hcall).2⟩] at hnotcut
    cases hnotcut

/-- Every dynamic import that is found is converted once. -/
theorem conversions_perm (h : WellPlaced source m) (hstay : ImportsStay features m) :
    (conversions features source m).Perm (promisesOf features source m) := by
  refine (List.perm_ext_iff_of_nodup (h.conversions_nodup features)
    (h.promises_nodup features)).mpr fun e ↦ ?_
  rw [conversions, List.mem_append, List.mem_flatMap, h.mem_bodyConversions]
  constructor
  · rintro (⟨he, -⟩ | ⟨n, -, he⟩)
    · exact he
    · exact (h.mem_callConversions.mp he).1
  · intro he
    cases hcut : inCutStatement features m e.span with
    | false => exact .inl ⟨he, rfl⟩
    | true =>
      obtain ⟨n, hn, hcutn, hnested⟩ := inCutStatement_eq_true.mp hcut
      obtain ⟨-, p, hp, rfl⟩ := mem_promisesOf he
      exact .inr ⟨n, List.mem_filter.mpr ⟨hn, hstay n hn hcutn p hp hnested⟩,
        h.mem_callConversions.mpr ⟨he, hnested⟩⟩

/-- All import expressions are converted once exactly if none stands in another one. -/
theorem conversions_perm_iff (h : WellPlaced source m) (hstay : ImportsStay features m)
    (hdynamic : features.dynamicImports = true) :
    (conversions features source m).Perm
        ((importExpressions m).map (promiseEdit source (importHelper m)))
      ↔ ¬HasNestedImport m := by
  have hfound := h.conversions_perm hstay
  rw [promisesOf_eq, if_pos hdynamic] at hfound
  have hall := importExpressions_perm m
  rw [← nestedImports_eq_nil_iff]
  constructor
  · intro hperm
    have hlength := hperm.length_eq
    rw [hfound.length_eq, List.length_map, List.length_map, hall.length_eq,
      List.length_append] at hlength
    exact List.eq_nil_of_length_eq_zero (by omega)
  · intro hnone
    rw [hnone, List.append_nil] at hall
    exact hfound.trans (hall.symm.map _)

end WellPlaced

/-! ## The helper -/

/-- Helpers that are there keep their names. -/
structure Names.KeepsHelpers (names names' : Names) : Prop where
  defaultHelper : ∀ {helper}, names.defaultHelper = some helper →
    names'.defaultHelper = some helper
  wholeHelper : ∀ {helper}, names.wholeHelper = some helper → names'.wholeHelper = some helper

namespace Names.KeepsHelpers

theorem refl (names : Names) : names.KeepsHelpers names := ⟨id, id⟩

theorem forDefault (names : Names) : names.KeepsHelpers names.forDefault.2 := by
  unfold Names.forDefault
  split
  · exact refl names
  · next hnone => exact ⟨fun h ↦ absurd (h.symm.trans hnone) (Option.some_ne_none _), id⟩

theorem forWhole (names : Names) : names.KeepsHelpers names.forWhole.2 := by
  unfold Names.forWhole
  split
  · exact refl names
  · next hnone => exact ⟨id, fun h ↦ absurd (h.symm.trans hnone) (Option.some_ne_none _)⟩

/-- A reference to a module only adds to the names in use. -/
theorem reference (names : Names) (specifier : String) :
    names.KeepsHelpers (names.forWhole.2.forModule specifier).2 :=
  ⟨(forWhole names).defaultHelper, (forWhole names).wholeHelper⟩

end Names.KeepsHelpers

namespace Draft

/-- One statement. -/
theorem keepsHelpers_convert {promises : List Edit}
    (hd : d.convert features source promises n = .ok d') : d.names.KeepsHelpers d'.names := by
  cases step_of_convert hd with
  | replacedImport _ _ _ _ hs =>
    cases hs with
    | effect => exact .refl d.names
    | fields => exact .refl d.names
    | defaultOnly => exact .forDefault d.names
    | reference => exact .reference d.names _
  | listFrom => exact .reference d.names _
  | wholeModule => exact .reference d.names _
  | everything => exact .reference d.names _
  | _ => exact .refl d.names

/-- A draft that has a helper for all exports of a module. -/
def HasHelper (d : Draft) (helper : String) : Prop := d.names.wholeHelper = some helper

end Draft

/-- The helper that converted dynamic imports call is defined in the header. -/
theorem hasHelper_of_draft (hfound : promisesOf features source m ≠ [])
    (h : draft features source m = .ok d) : d.HasHelper (importHelper m) := by
  obtain ⟨r, hrun, rfl⟩ := exists_run_of_draft h
  refine foldlM_induction (fun _ u ↦ u.HasHelper (importHelper m)) ?_
    (fun _ _ _ _ hu hv ↦ (Draft.keepsHelpers_convert hv).wholeHelper hu) hrun
  have hnames : (emptyDraft features source m).names = (Names.ofScript m).forWhole.2 := by
    rw [emptyDraft, promiseEdits]
    rw [promisesOf, promiseEdits] at hfound
    split
    · next hnone => rw [hnone] at hfound; exact absurd rfl hfound
    · rfl
  rw [Draft.HasHelper, hnames]
  rfl

/-! ## Converted scripts -/

/-- The dynamic imports of a script that do not stand in others are converted: each stands once in
the body or in a call that moved to the header, as a call of the helper with its argument, in the
place of its span. -/
structure ImportsConverted (features : Features) (source : List Char) (m : Module) (d : Draft) :
    Prop where
  header : (d.parts features source).header
    = (preamble features d).toList
      ++ ((movedCalls features m).flatMap fun n ↦ movedText features source m n ++ ['\n'])
      ++ d.imports.flatMap fun s ↦ s.text.toList
  helper : dynamicImports m ≠ [] → d.names.wholeHelper = some (importHelper m)
  body : (d.parts features source).body = bodyOf features source m
  inBody : ∀ e ∈ bodyConversions features source m,
    Edit.Leaves source ⟨0, width source⟩ (recordedEdits features source m) e.span e.text.toList
  inCall : ∀ n ∈ movedCalls features m, ∀ e ∈ callConversions features source m n,
    Edit.Leaves source (itemSpan n)
      ((promisesOf features source m).filter fun e ↦ within e.span (itemSpan n)) e.span
      e.text.toList
  once : (conversions features source m).Perm
    ((dynamicImports m).map (promiseEdit source (importHelper m)))

theorem importsConverted_of_draft (hplaced : WellPlaced source m)
    (hstay : ImportsStay features m) (hdynamic : features.dynamicImports = true)
    (h : draft features source m = .ok d) : ImportsConverted features source m d where
  header := header_of_draft h
  helper hfound := by
    have hpromises : promisesOf features source m ≠ [] := by
      rw [promisesOf_eq, if_pos hdynamic]
      simpa using hfound
    exact hasHelper_of_draft hpromises h
  body := by
    rw [bodyOf, ← edits_of_draft h]
    rfl
  inBody e he := by
    have hrecorded := (List.mem_filter.mp he).1
    exact Edit.leaves_of_mem (Edit.covers_whole source) (fun _ _ ↦ Nat.zero_le _)
      (fun f hf ↦ ⟨hplaced.recorded_covers hf,
        (hplaced.recorded_covers hf).stop_isBoundary.le_width⟩) hrecorded
      (hplaced.promise_nonempty (hplaced.mem_bodyConversions.mp he).1)
  inCall n hn e he := by
    obtain ⟨hn, -, -⟩ := mem_movedCalls hn
    have hinside : ∀ f ∈ (promisesOf features source m).filter (fun f ↦
        within f.span (itemSpan n)), f.span.Covers source ∧
          (itemSpan n).start ≤ f.span.start ∧ f.span.stop ≤ (itemSpan n).stop := by
      intro f hf
      obtain ⟨hf, hwithin⟩ := List.mem_filter.mp hf
      rw [within, Bool.and_eq_true, decide_eq_true_iff, decide_eq_true_iff] at hwithin
      exact ⟨hplaced.recorded_covers (mem_recordedEdits.mpr (.inr hf)), hwithin⟩
    exact Edit.leaves_of_mem (hplaced.item_covers n hn) (fun f hf ↦ (hinside f hf).2.1)
      (fun f hf ↦ ⟨(hinside f hf).1, (hinside f hf).2.2⟩) he
      (hplaced.promise_nonempty (hplaced.mem_callConversions.mp he).1)
  once := by
    have hperm : (conversions features source m).Perm (promisesOf features source m) :=
      hplaced.conversions_perm hstay
    rwa [promisesOf_eq, if_pos hdynamic] at hperm

/-- A script whose modules and dynamic imports are converted has all its import expressions
converted, each once, exactly if none of them stands in another one. Those that do are left as they
are, in the argument of the outer one, or dropped with its options. -/
theorem importsConverted_of_convert {config : ModuleConfig} {filename code : String}
    {input : Option SourceMap} {unit : ScriptUnit} (hparse : parse false code.toList = some m)
    (hmodules : config.runs .modulesCommonJs = true) (hdynamic : config.runs .dynamicImport = true)
    (hconvert : convert config filename code input = .ok unit) :
    ∃ d tail, draft (Features.ofConfig config) code.toList m = .ok d ∧
      ImportsConverted (Features.ofConfig config) code.toList m d ∧
      unit.code.toList = (d.parts (Features.ofConfig config) code.toList).header
        ++ dropMapComments (d.parts (Features.ofConfig config) code.toList).body ++ tail ∧
      ((conversions (Features.ofConfig config) code.toList m).Perm
          ((importExpressions m).map (promiseEdit code.toList (importHelper m)))
        ↔ ¬HasNestedImport m) := by
  obtain ⟨parts, tail, hparts, hcode, -⟩ := exists_parts_of_convert hconvert
  obtain ⟨m', d, hparse', hdraft, rfl⟩ := exists_draft_of_partsOf hparts
  rw [hparse] at hparse'
  cases hparse'
  have hfeature : (Features.ofConfig config).dynamicImports = true := by
    rw [Features.ofConfig, hmodules, hdynamic]
    rfl
  have hplaced := wellPlaced_of_parse hparse
  have hstay := importsStay_of_parse hparse (Features.ofConfig config)
  exact ⟨d, tail, hdraft, importsConverted_of_draft hplaced hstay hfeature hdraft, hcode,
    hplaced.conversions_perm_iff hstay hfeature⟩

/-- A dynamic import in the argument of another one is not converted. -/
theorem not_conversions_perm_of_nested :
    let code := "import(import(\"a\"));\n"
    let config : ModuleConfig := ⟨.off, [], [.modulesCommonJs, .dynamicImport]⟩
    let features := Features.ofConfig config
    ∃ unit m, convert config "a.js" code none = .ok unit ∧ parse false code.toList = some m ∧
      (importExpressions m).length = 2 ∧
      (conversions features code.toList m).map Edit.text
        = ["Promise.resolve().then(() => _interopRequireWildcard(require(import(\"a\"))))"] ∧
      ¬(conversions features code.toList m).Perm
        ((importExpressions m).map (promiseEdit code.toList (importHelper m))) := by
  intro code config features
  have hread : ((parse false code.toList).any fun m ↦ decide (HasNestedImport m) &&
      decide ((importExpressions m).length = 2 ∧
        (conversions features code.toList m).map Edit.text
          = ["Promise.resolve().then(() => _interopRequireWildcard(require(import(\"a\"))))"]))
      = true := by
    decide +kernel
  obtain ⟨m, hparse, hm⟩ := (Option.any_eq_true ..).mp hread
  simp only [Bool.and_eq_true, decide_eq_true_iff] at hm
  obtain ⟨hnested, hlength, htexts⟩ := hm
  have hdone : (convert config "a.js" code none).toOption.isSome = true := by decide +kernel
  cases hconvert : convert config "a.js" code none with
  | error e => rw [hconvert] at hdone; cases hdone
  | ok unit =>
    obtain ⟨-, -, -, -, -, hiff⟩ :=
      importsConverted_of_convert hparse (by decide) (by decide) hconvert
    exact ⟨unit, m, rfl, hparse, hlength, htexts, fun hall ↦ hiff.mp hall hnested⟩

end Downlevel.CommonJs
