import Downlevel.Proofs.CommonJs.Occurrences

/-!
# Generated names are declared

Every generated name is declared once, in the header. In front of its declaration nothing mentions
it: of the lines of the preamble, only its definition mentions a helper, and of the whole header,
only the statement that declares it mentions a reference. A helper is defined exactly if something
else than its definition mentions it.

That a helper which is named is mentioned in the end is an invariant of the run for the statements
of the header. For dynamic imports it is due to the conversions, of which none is lost.
-/

namespace Downlevel.CommonJs

open Script Text Lexeme

variable {features : Features} {source : List Char} {m : Module} {d d' : Draft} {e : Edit}
  {p : Piece} {name text : String} {ps qs : List Piece}

/-! ## Declarations -/

/-- The first thing that a piece does is to declare a name. -/
structure Piece.Declares (m : Module) (p : Piece) (name : String) : Prop where
  declared : name ∈ p.declared m
  first : ∃ word rest, word ∈ declaringWords ∧ p.identifiers m = word :: name :: rest

theorem Piece.Declares.mentions (h : p.Declares m name) : name ∈ p.identifiers m := by
  obtain ⟨word, rest, -, hidentifiers⟩ := h.first
  rw [hidentifiers]
  exact List.mem_cons_of_mem _ List.mem_cons_self

theorem Defines.declares (h : Defines text name) : (Piece.written text).Declares m name := by
  obtain ⟨-, ⟨rest, hbegins⟩, others, hdeclared, -⟩ := h
  refine ⟨?_, "function", rest, by decide, hbegins⟩
  rw [Piece.declared, hdeclared]
  exact List.mem_cons_self

/-- The statement for a reference declares it. -/
theorem declares_reference (hparse : parse false source = some m)
    (h : draft features source m = .ok d) {helper specifier : String} {bs : List RuntimeImport}
    (hs : .reference helper specifier name bs ∈ d.imports) :
    (Piece.written (ImportStatement.reference helper specifier name bs).text).Declares m name := by
  have hfilter := filter_declaredIn_import hparse h hs
  refine ⟨?_, "const", _, by decide,
    ImportStatement.identifiersOf_text (isWord_names hparse h hs) rfl⟩
  have hmem : name ∈ (boundModules [.reference helper specifier name bs]).map Prod.fst :=
    List.mem_cons_self
  rw [← hfilter] at hmem
  exact (List.mem_filter.mp hmem).1

/-- A name is declared in a sequence of pieces, and in front of that nothing mentions it. -/
def DeclaredFirstIn (m : Module) (ps : List Piece) (name : String) : Prop :=
  ∃ front p back, ps = front ++ p :: back ∧ (∀ q ∈ front, name ∉ q.identifiers m) ∧
    p.Declares m name

theorem DeclaredFirstIn.append (h : DeclaredFirstIn m ps name) (qs : List Piece) :
    DeclaredFirstIn m (ps ++ qs) name := by
  obtain ⟨front, p, back, rfl, hfront, hdeclares⟩ := h
  exact ⟨front, p, back ++ qs, by rw [List.append_assoc, List.cons_append], hfront, hdeclares⟩

/-- If all pieces that mention a name declare it, the first one does. -/
theorem declaredFirstIn_of_forall (hp : p ∈ ps) (hname : name ∈ p.identifiers m)
    (hall : ∀ q ∈ ps, name ∈ q.identifiers m → q.Declares m name) : DeclaredFirstIn m ps name := by
  have hsome : (ps.find? fun q ↦ decide (name ∈ q.identifiers m)).isSome = true :=
    List.find?_isSome.mpr ⟨p, hp, decide_eq_true hname⟩
  obtain ⟨q, hq⟩ := Option.isSome_iff_exists.mp hsome
  have hmem := List.mem_of_find?_eq_some hq
  obtain ⟨hmentions, front, back, hsplit, hfront⟩ := List.find?_eq_some_iff_append.mp hq
  refine ⟨front, q, back, hsplit, fun r hr hname ↦ ?_, hall q hmem (of_decide_eq_true hmentions)⟩
  have hnone := hfront r hr
  rw [decide_eq_true hname] at hnone
  cases hnone

theorem defaultHelper_mem_preamble (hname : d.names.defaultHelper = some name) :
    .written (defaultHelperText name) ∈ preamblePieces features d := by
  rw [preamblePieces, hname]
  exact List.mem_map_of_mem (List.mem_append_left _ (List.mem_append_right _ List.mem_cons_self))

theorem wholeHelper_mem_preamble (hname : d.names.wholeHelper = some name) :
    .written (wholeHelperText name) ∈ preamblePieces features d := by
  rw [preamblePieces, hname]
  exact List.mem_map_of_mem (List.mem_append_right _ List.mem_cons_self)

/-- A line of the preamble that mentions a helper defines it. -/
theorem declares_of_mem_preamble (h : draft features source m = .ok d)
    (hname : d.names.defaultHelper = some name ∨ d.names.wholeHelper = some name)
    (hp : p ∈ preamblePieces features d) (hmentions : name ∈ p.identifiers m) :
    p.Declares m name := by
  have hbegins := (isForeign_of_draft h (helper_mem_generatedNames hname)).1
  rcases mem_preamblePieces hp with ⟨text, rfl, htext⟩ | ⟨helper, hhelper, rfl⟩ |
    ⟨helper, hhelper, rfl⟩
  · cases htext.2 name hmentions hbegins
  · have hdefines := defines_defaultHelper h hhelper
    rw [List.mem_singleton.mp (hdefines.mentions.2 name hmentions hbegins)]
    exact hdefines.declares
  · have hdefines := defines_wholeHelper h hhelper
    rw [List.mem_singleton.mp (hdefines.mentions.2 name hmentions hbegins)]
    exact hdefines.declares

/-- A piece of the header that mentions a reference declares it. -/
theorem declares_of_mem_header (hparse : parse false source = some m)
    (h : draft features source m = .ok d) (hname : name ∈ (boundModules d.imports).map Prod.fst)
    (hp : p ∈ headerPieces features source m d) (hmentions : name ∈ p.identifiers m) :
    p.Declares m name := by
  obtain ⟨hdefault, hwhole⟩ := (helpers_apart h).2 name hname
  have hforeign := isForeign_of_draft h (mem_generatedNames.mpr (.inr (.inr hname)))
  obtain ⟨names, horigin⟩ := exists_origin_of_header h hp
  have hmem := horigin.mem_names hparse h hmentions hforeign
  -- The name is none of the helpers and none of the script, which leaves one place for it.
  cases horigin with
  | copied => cases hmem
  | plain => cases hmem
  | defaultHelper hhelper =>
    rw [← List.mem_singleton.mp hmem] at hhelper
    exact absurd hhelper hdefault
  | wholeHelper hhelper =>
    rw [← List.mem_singleton.mp hmem] at hhelper
    exact absurd hhelper hwhole
  | promise hhelper =>
    rw [← List.mem_singleton.mp hmem] at hhelper
    exact absurd hhelper hwhole
  | @load s hs =>
    have hnamed := wellNamed_of_draft h
    -- Names that imports bind are of the script, so they are not the reference either.
    have hlocal : name ∉ s.locals := fun hlocal ↦ hforeign.2 (locals_subset h hs hlocal)
    cases s with
    | effect => cases hmem
    | guarded => cases hmem
    | fields => exact absurd hmem hlocal
    | defaultOnly =>
      rcases List.mem_cons.mp hmem with rfl | hmem
      · exact absurd (hnamed.defaultHelper _ _ _ hs) hdefault
      · exact absurd hmem hlocal
    | reference =>
      rcases List.mem_cons.mp hmem with rfl | hmem
      · exact absurd (hnamed.wholeHelper _ _ _ _ hs) hwhole
      · rcases List.mem_cons.mp hmem with rfl | hmem
        · exact declares_reference hparse h hs
        · exact absurd hmem hlocal

/-- In the header, nothing in front of the declaration of a generated name mentions it. -/
theorem declaredFirstIn_header (hparse : parse false source = some m)
    (h : draft features source m = .ok d) (hname : name ∈ generatedNames d) :
    DeclaredFirstIn m (headerPieces features source m d) name := by
  have hhelper : ∀ {text}, (d.names.defaultHelper = some name ∨ d.names.wholeHelper = some name) →
      Defines text name → .written text ∈ preamblePieces features d →
      DeclaredFirstIn m (headerPieces features source m d) name := fun hhelper hdefines hp ↦ by
    have hfirst : DeclaredFirstIn m (preamblePieces features d) name :=
      declaredFirstIn_of_forall hp (hdefines.declares (m := m)).mentions
        fun q hq ↦ declares_of_mem_preamble h hhelper hq
    rw [headerPieces, List.append_assoc]
    exact hfirst.append _
  rcases mem_generatedNames.mp hname with hdefault | hwhole | hreference
  · exact hhelper (.inl hdefault) (defines_defaultHelper h hdefault)
      (defaultHelper_mem_preamble hdefault)
  · exact hhelper (.inr hwhole) (defines_wholeHelper h hwhole) (wholeHelper_mem_preamble hwhole)
  · obtain ⟨helper, specifier, bs, hs⟩ := exists_reference_of_mem hreference
    exact declaredFirstIn_of_forall (List.mem_append_right _ (List.mem_map_of_mem hs))
      (declares_reference hparse h hs).mentions fun q hq ↦
        declares_of_mem_header hparse h hreference hq

/-! ## How often a name is declared -/

/-- The foreign names that are declared in a sequence of pieces. -/
def foreignDeclared (m : Module) (ps : List Piece) : List String :=
  (ps.flatMap (Piece.declared m)).filter fun n ↦ decide (IsForeign m n)

theorem foreignDeclared_append :
    foreignDeclared m (ps ++ qs) = foreignDeclared m ps ++ foreignDeclared m qs := by
  rw [foreignDeclared, List.flatMap_append, List.filter_append]
  rfl

theorem foreignDeclared_eq_nil (h : ∀ p ∈ ps, p.declared m = [] ∨ ∃ span, p = .copied span) :
    foreignDeclared m ps = [] := by
  rw [foreignDeclared, List.filter_eq_nil_iff]
  intro n hn hforeign
  obtain ⟨p, hp, hn⟩ := List.mem_flatMap.mp hn
  rcases h p hp with hnone | ⟨span, rfl⟩
  · rw [hnone] at hn
    cases hn
  · exact (of_decide_eq_true hforeign).2 hn

/-- A definition declares its name. -/
theorem Defines.foreignDeclared_eq (h : Defines text name) (hforeign : IsForeign m name) :
    foreignDeclared m [.written text] = [name] := by
  obtain ⟨rest, hdeclared, hrest⟩ := h.declared
  have hnone : rest.filter (fun n ↦ decide (IsForeign m n)) = [] := by
    refine List.filter_eq_nil_iff.mpr fun n hn hforeign ↦ ?_
    have hbegins := (of_decide_eq_true hforeign).1
    rw [hrest n hn] at hbegins
    cases hbegins
  rw [foreignDeclared, List.flatMap_singleton, Piece.declared, hdeclared,
    List.filter_cons_of_pos (p := fun n ↦ decide (IsForeign m n)) (decide_eq_true hforeign), hnone]

theorem foreignDeclared_preamble (h : draft features source m = .ok d) :
    foreignDeclared m (preamblePieces features d)
      = d.names.defaultHelper.toList ++ d.names.wholeHelper.toList := by
  have hline : ∀ (b : Bool) (text : String), declaredIn text = [] →
      foreignDeclared m ((if b then [text] else []).map .written) = [] := by
    rintro (_ | _) text htext
    · rfl
    · exact foreignDeclared_eq_nil fun p hp ↦ .inl (by rwa [List.mem_singleton.mp hp])
  have hdefault : foreignDeclared m
      ((d.names.defaultHelper.map defaultHelperText).toList.map .written)
        = d.names.defaultHelper.toList := by
    cases hname : d.names.defaultHelper with
    | none => rfl
    | some name =>
      exact (defines_defaultHelper h hname).foreignDeclared_eq
        (isForeign_of_draft h (helper_mem_generatedNames (.inl hname)))
  have hwhole : foreignDeclared m
      ((d.names.wholeHelper.map wholeHelperText).toList.map .written)
        = d.names.wholeHelper.toList := by
    cases hname : d.names.wholeHelper with
    | none => rfl
    | some name =>
      exact (defines_wholeHelper h hname).foreignDeclared_eq
        (isForeign_of_draft h (helper_mem_generatedNames (.inr hname)))
  rw [preamblePieces]
  simp only [List.map_append, foreignDeclared_append]
  rw [hline _ _ (by decide +kernel), hline _ _ (by decide +kernel), hdefault, hwhole]
  rfl

theorem foreignDeclared_call (h : draft features source m = .ok d) {n : Node} :
    foreignDeclared m (callPieces features source m n) = [] := by
  have hclose : declaredIn ")))" = [] := by decide
  have hline : declaredIn "\n" = [] := by decide
  refine foreignDeclared_eq_nil fun p hp ↦ ?_
  rcases List.mem_append.mp hp with hp | hp
  · rcases mem_splicePieces hp with hcopied | ⟨e, he, hp⟩
    · exact .inr hcopied
    · have hpromise := (List.mem_filter.mp (Edit.mem_of_mem_outermost he)).1
      have hhelper := hasHelper_of_draft (List.ne_nil_of_mem hpromise) h
      obtain ⟨argument, hpieces⟩ := exists_editPieces_eq hpromise
      rw [hpieces] at hp
      simp only [List.mem_cons, List.not_mem_nil, or_false] at hp
      rcases hp with rfl | rfl | rfl
      · exact .inl (declaredIn_promiseFront (isWord_of_helper h (.inr hhelper)))
      · exact .inr ⟨argument, rfl⟩
      · exact .inl hclose
  · rw [List.mem_singleton.mp hp]
    exact .inl hline

theorem foreignDeclared_imports (hparse : parse false source = some m)
    (h : draft features source m = .ok d) :
    foreignDeclared m (importPieces d) = (boundModules d.imports).map Prod.fst := by
  have hbound : boundModules d.imports = d.imports.flatMap fun s ↦ boundModules [s] := by
    rw [boundModules, List.filterMap_eq_flatMap_toList]
    exact List.flatMap_congr fun s _ ↦ by cases s <;> rfl
  rw [foreignDeclared, importPieces, List.flatMap_map, List.filter_flatMap, hbound,
    List.map_flatMap]
  exact List.flatMap_congr fun s hs ↦ filter_declaredIn_import hparse h hs

/-- The header declares the generated names, each of them once, and no other foreign name. -/
theorem foreignDeclared_header (hparse : parse false source = some m)
    (h : draft features source m = .ok d) :
    foreignDeclared m (headerPieces features source m d) = generatedNames d := by
  have hcalls : foreignDeclared m
      ((movedCalls features m).flatMap (callPieces features source m)) = [] := by
    rw [foreignDeclared, List.flatMap_assoc, List.filter_flatMap, List.flatMap_eq_nil_iff]
    exact fun n _ ↦ foreignDeclared_call h
  rw [headerPieces, foreignDeclared_append, foreignDeclared_append, foreignDeclared_preamble h,
    hcalls, foreignDeclared_imports hparse h, List.append_nil]
  rfl

theorem count_declared_header (hparse : parse false source = some m)
    (h : draft features source m = .ok d) (hname : name ∈ generatedNames d) :
    ((headerPieces features source m d).flatMap (Piece.declared m)).count name = 1 := by
  have hforeign := decide_eq_true (isForeign_of_draft h hname)
  have hcount := List.count_eq_one_of_mem (wellNamed_of_draft h).nodup hname
  rw [← foreignDeclared_header hparse h] at hcount
  rwa [foreignDeclared, List.count_filter (p := fun n ↦ decide (IsForeign m n)) hforeign] at hcount

/-! ## What asks for helpers -/

/-- A statement of the header calls the helper for default exports. -/
def CallsDefault (imports : List ImportStatement) (helper : String) : Prop :=
  ∃ specifier n, .defaultOnly helper specifier n ∈ imports

/-- A statement of the header calls the helper for all exports. -/
def CallsWhole (imports : List ImportStatement) (helper : String) : Prop :=
  ∃ specifier name bs, .reference helper specifier name bs ∈ imports

/-- A draft has a helper only if something asked for it: a statement of the header, or what was
there from the start. -/
structure Asked (start : Option String) (d : Draft) : Prop where
  defaultHelper : ∀ helper, d.names.defaultHelper = some helper → CallsDefault d.imports helper
  wholeHelper : ∀ helper, d.names.wholeHelper = some helper →
    start = some helper ∨ CallsWhole d.imports helper

namespace Asked

variable {start found : Option String}

theorem keepDefault (h : Asked start d) (hsame : d'.names.defaultHelper = d.names.defaultHelper)
    (hsub : d.imports ⊆ d'.imports) :
    ∀ helper, d'.names.defaultHelper = some helper → CallsDefault d'.imports helper := by
  intro helper hhelper
  rw [hsame] at hhelper
  obtain ⟨specifier, n, hs⟩ := h.defaultHelper helper hhelper
  exact ⟨specifier, n, hsub hs⟩

theorem keepWhole (h : Asked start d) (hsame : d'.names.wholeHelper = d.names.wholeHelper)
    (hsub : d.imports ⊆ d'.imports) : ∀ helper, d'.names.wholeHelper = some helper →
      start = some helper ∨ CallsWhole d'.imports helper := by
  intro helper hhelper
  rw [hsame] at hhelper
  refine (h.wholeHelper helper hhelper).imp_right ?_
  rintro ⟨specifier, name, bs, hs⟩
  exact ⟨specifier, name, bs, hsub hs⟩

/-- One statement. -/
theorem generates (h : Asked start d) (hd : d.Generates d' found) : Asked start d' := by
  cases hd with
  | nothing hnames himports =>
    have hsub : d.imports ⊆ d'.imports := by rw [himports]; exact List.Subset.refl _
    exact ⟨h.keepDefault (by rw [hnames]) hsub, h.keepWhole (by rw [hnames]) hsub⟩
  | plain s _ _ hnames himports =>
    have hsub : d.imports ⊆ d'.imports := by rw [himports]; exact List.subset_append_left ..
    exact ⟨h.keepDefault (by rw [hnames]) hsub, h.keepWhole (by rw [hnames]) hsub⟩
  | defaultOnly specifier n hnames himports =>
    have hsub : d.imports ⊆ d'.imports := by rw [himports]; exact List.subset_append_left ..
    obtain ⟨hnamed, hsame, -⟩ := forDefault_eq d.names
    refine ⟨fun helper hhelper ↦ ⟨specifier, n, ?_⟩, h.keepWhole (by rw [hnames, hsame]) hsub⟩
    rw [hnames, hnamed, Option.some_inj] at hhelper
    rw [himports, ← hhelper]
    exact List.mem_append_right _ List.mem_cons_self
  | reference specifier bs hnames himports =>
    have hsub : d.imports ⊆ d'.imports := by rw [himports]; exact List.subset_append_left ..
    obtain ⟨hnamed, hsame, -⟩ := forWhole_eq d.names
    refine ⟨h.keepDefault (by rw [hnames]; exact hsame) hsub, fun helper hhelper ↦
      .inr ⟨specifier, (d.names.forWhole.2.forModule specifier).1, bs, ?_⟩⟩
    have hhelper : d.names.forWhole.2.wholeHelper = some helper := by rwa [hnames] at hhelper
    rw [hnamed, Option.some_inj] at hhelper
    rw [himports, ← hhelper]
    exact List.mem_append_right _ List.mem_cons_self

end Asked

/-- A helper of a converted script is called by a statement of the header or a dynamic import. -/
theorem asked_of_draft (h : draft features source m = .ok d) :
    (∀ helper, d.names.defaultHelper = some helper → CallsDefault d.imports helper) ∧
      ∀ helper, d.names.wholeHelper = some helper →
        promisesOf features source m ≠ [] ∨ CallsWhole d.imports helper := by
  obtain ⟨r, hrun, rfl⟩ := exists_run_of_draft h
  have hnone : (emptyDraft features source m).names.defaultHelper = none := by
    rw [emptyDraft, promiseEdits]
    split <;> rfl
  have hstart : Asked (emptyDraft features source m).names.wholeHelper
      (emptyDraft features source m) :=
    ⟨fun helper hhelper ↦ (by rw [hnone] at hhelper; cases hhelper), fun _ ↦ .inl⟩
  have hasked := foldlM_induction
    (fun _ u ↦ Asked (emptyDraft features source m).names.wholeHelper u) hstart
    (fun _ _ _ _ hu hv ↦ hu.generates (Draft.generates_convert hv)) hrun
  refine ⟨hasked.defaultHelper, fun helper hhelper ↦
    (hasked.wholeHelper helper hhelper).imp_left ?_⟩
  intro hhelper hnil
  -- Without a dynamic import there is no helper at the start.
  have hfound : (if features.dynamicImports then dynamicImports m else []) = [] := by
    rw [promisesOf_eq] at hnil
    by_cases hdynamic : features.dynamicImports = true
    · rw [if_pos hdynamic] at hnil ⊢
      exact List.map_eq_nil_iff.mp hnil
    · rw [if_neg hdynamic]
  rw [emptyDraft, promiseEdits, hfound] at hhelper
  cases hhelper

/-! ## Helpers and who calls them -/

/-- The pieces of a converted script. -/
def pieces (features : Features) (source : List Char) (m : Module) (d : Draft) : List Piece :=
  headerPieces features source m d ++ bodyPieces features source m ++ footerPieces d

/-- A name is mentioned by a piece other than a given text. -/
def MentionedBeside (features : Features) (source : List Char) (m : Module) (d : Draft)
    (text name : String) : Prop :=
  ∃ p ∈ pieces features source m d, p ≠ .written text ∧ name ∈ p.identifiers m

theorem mentionsOnly_export (hparse : parse false source = some m)
    (h : draft features source m = .ok d) {s : ExportStatement} (hs : s ∈ d.exports) :
    MentionsOnly s.text s.names ∧ ∀ n ∈ s.names, n ∈ generatedNames d ∨ n ∈ namesIn m.items := by
  have hmodules : features.modules = true := by
    by_contra hmodules
    rw [exports_of_draft_eq_nil (Bool.eq_false_iff.mpr hmodules) h] at hs
    cases hs
  have hreference : ∀ {r specifier : String}, (r, specifier) ∈ boundModules d.imports →
      ∀ n ∈ [r], n ∈ generatedNames d ∨ n ∈ namesIn m.items := fun hr n hn ↦ by
    rw [List.mem_singleton.mp hn]
    exact .inl (mem_generatedNames.mpr (.inr (.inr (List.mem_map_of_mem hr))))
  have hnames : ∀ n ∈ s.names, n ∈ generatedNames d ∨ n ∈ namesIn m.items := by
    obtain ⟨own, -, hdenotes⟩ := exists_of_mem_forall₂ (tracks_of_draft hmodules h).denotes.flip hs
    cases hdenotes with
    | name hn => exact List.forall_mem_singleton.mpr (.inr hn)
    | member hr => exact hreference hr
    | whole hr => exact hreference hr
    | everything hr => exact hreference hr
  refine ⟨ExportStatement.mentionsOnly_text fun n hn ↦ ?_, hnames⟩
  exact (hnames n hn).elim (isWord_of_mem_generatedNames h) (isWord_of_parse hparse n)

theorem exists_origin_of_pieces (h : draft features source m = .ok d)
    (hp : p ∈ pieces features source m d) :
    (∃ names, Origin d p names) ∨ ∃ s ∈ d.exports, p = .written s.text := by
  rw [pieces, List.mem_append, List.mem_append] at hp
  rcases hp with (hp | hp) | hp
  · exact .inl (exists_origin_of_header h hp)
  · exact .inl (exists_origin_of_body h hp)
  · obtain ⟨s, hs, rfl⟩ := List.mem_map.mp hp
    exact .inr ⟨s, hs, rfl⟩

/-- What a conversion writes has closed strings. -/
theorem isSome_lexemes_of_pieces (hparse : parse false source = some m)
    (h : draft features source m = .ok d) (hp : .written text ∈ pieces features source m d) :
    (lexemes? text.toList).isSome = true := by
  rcases exists_origin_of_pieces h hp with ⟨names, horigin⟩ | ⟨s, hs, heq⟩
  · exact (horigin.mentionsOnly hparse h).1
  · cases heq
    exact (mentionsOnly_export hparse h hs).1.1

/-- Every name that looks like a generated one is one, or is a name of the script. -/
theorem mem_generatedNames_of_pieces (hparse : parse false source = some m)
    (h : draft features source m = .ok d) (hp : p ∈ pieces features source m d)
    (hname : name ∈ p.identifiers m) (hforeign : IsForeign m name) : name ∈ generatedNames d := by
  rcases exists_origin_of_pieces h hp with ⟨names, horigin⟩ | ⟨s, hs, rfl⟩
  · have hmem := horigin.mem_names hparse h hname hforeign
    exact (horigin.mem_generatedNames h hmem).resolve_right hforeign.2
  · obtain ⟨hmentions, hnames⟩ := mentionsOnly_export hparse h hs
    exact (hnames name (hmentions.2 name hname hforeign.1)).resolve_right hforeign.2

/-- A piece that begins with another word than a definition. -/
theorem Defines.written_ne (h : Defines text name) {other word : String} {rest : List String}
    (hother : identifiersOf other = word :: rest) (hword : word ≠ "function") :
    Piece.written other ≠ .written text := by
  rintro heq
  cases heq
  obtain ⟨rest', hbegins⟩ := h.begins
  rw [hbegins, List.cons.injEq] at hother
  exact hword hother.1.symm

theorem mentionedBeside_defaultHelper (hparse : parse false source = some m)
    (h : draft features source m = .ok d) (hname : d.names.defaultHelper = some name) :
    MentionedBeside features source m d (defaultHelperText name) name := by
  obtain ⟨specifier, n, hs⟩ := (asked_of_draft h).1 name hname
  have hidentifiers := ImportStatement.identifiersOf_text (isWord_names hparse h hs) rfl
  refine ⟨.written (ImportStatement.text _), ?_,
    (defines_defaultHelper h hname).written_ne hidentifiers (by decide), ?_⟩
  · exact List.mem_append_left _ (List.mem_append_left _ (List.mem_append_right _
      (List.mem_map_of_mem hs)))
  · rw [Piece.identifiers, hidentifiers]
    exact List.mem_cons_of_mem _ (List.mem_cons_of_mem _ List.mem_cons_self)

theorem mentionedBeside_wholeHelper (hparse : parse false source = some m)
    (h : draft features source m = .ok d) (hname : d.names.wholeHelper = some name) :
    MentionedBeside features source m d (wholeHelperText name) name := by
  have hdefines := defines_wholeHelper h hname
  rcases (asked_of_draft h).2 name hname with hfound | ⟨specifier, r, bs, hs⟩
  · have hhelper : d.names.wholeHelper = some (importHelper m) := hasHelper_of_draft hfound h
    rw [hname, Option.some_inj] at hhelper
    have hidentifiers := identifiersOf_promiseFront (isWord_of_helper h (.inr hname))
    have hfront := promiseFront_mem_pieces (wellPlaced_of_parse hparse)
      (importsStay_of_parse hparse features) d hfound
    rw [← hhelper] at hfront
    refine ⟨_, List.mem_append_left _ hfront, hdefines.written_ne hidentifiers (by decide), ?_⟩
    rw [Piece.identifiers, hidentifiers]
    simp
  · have hidentifiers := ImportStatement.identifiersOf_text (isWord_names hparse h hs) rfl
    refine ⟨.written (ImportStatement.text _), ?_, hdefines.written_ne hidentifiers (by decide), ?_⟩
    · exact List.mem_append_left _ (List.mem_append_left _ (List.mem_append_right _
        (List.mem_map_of_mem hs)))
    · rw [Piece.identifiers, hidentifiers]
      exact List.mem_cons_of_mem _ (List.mem_cons_of_mem _ List.mem_cons_self)

/-- A name that a helper has, or would get if something asked for it. -/
structure NameFor (m : Module) (d : Draft) (helper : Option String) (name : String) : Prop where
  foreign : IsForeign m name
  word : Literal.IsWord name.toList
  named : name ∈ generatedNames d → helper = some name

theorem nameFor_of_fresh {helper : Option String} {ns : Names} {references : List String}
    (h : draft features source m = .ok d) (hfresh : ns.Fresh (namesIn m.items) references)
    (hmem : name ∈ ns.generated references) (hsame : ∀ n, helper = some n → n = name)
    (hunused : helper = none → name ∉ d.names.used) : NameFor m d helper name := by
  refine ⟨isForeign_of_fresh hfresh hmem, (hfresh.looksGenerated name hmem).isWord, ?_⟩
  intro hgenerated
  cases hhelper : helper with
  | some n => rw [hsame n hhelper]
  | none =>
    exact absurd ((namesApart_of_draft h).fresh.generated_used hgenerated) (hunused hhelper)

theorem nameFor_forDefault (h : draft features source m = .ok d) :
    NameFor m d d.names.defaultHelper d.names.forDefault.1 := by
  obtain ⟨hnamed, -, hsame⟩ := forDefault_eq d.names
  refine nameFor_of_fresh h (namesApart_of_draft h).fresh.forDefault ?_
    (fun n hn ↦ by rw [hsame n hn]) fun hnone ↦ ?_
  · rw [Names.generated, hnamed]
    exact List.mem_cons_self
  · rw [Names.forDefault, hnone]
    exact unusedName_notMem d.names.used _

theorem nameFor_forWhole (h : draft features source m = .ok d) :
    NameFor m d d.names.wholeHelper d.names.forWhole.1 := by
  obtain ⟨hnamed, -, hsame⟩ := forWhole_eq d.names
  refine nameFor_of_fresh h (namesApart_of_draft h).fresh.forWhole ?_
    (fun n hn ↦ by rw [hsame n hn]) fun hnone ↦ ?_
  · rw [Names.generated, hnamed]
    exact List.mem_append_left _ (List.mem_append_right _ List.mem_cons_self)
  · rw [Names.forWhole, hnone]
    exact unusedName_notMem d.names.used _

/-- A helper is defined exactly if something else than its definition mentions it. -/
theorem NameFor.mem_header_iff {helper : Option String} {definition : String}
    (hname : NameFor m d helper name) (hparse : parse false source = some m)
    (h : draft features source m = .ok d) (hdefines : Defines definition name)
    (hdefined : helper = some name → .written definition ∈ preamblePieces features d)
    (hasked : helper = some name → MentionedBeside features source m d definition name) :
    .written definition ∈ headerPieces features source m d
      ↔ MentionedBeside features source m d definition name := by
  constructor
  · intro hmem
    have hgenerated := mem_generatedNames_of_pieces hparse h
      (List.mem_append_left _ (List.mem_append_left _ hmem)) (hdefines.declares (m := m)).mentions
      hname.foreign
    exact hasked (hname.named hgenerated)
  · rintro ⟨p, hp, -, hmentions⟩
    have hgenerated := mem_generatedNames_of_pieces hparse h hp hmentions hname.foreign
    exact List.mem_append_left _ (List.mem_append_left _ (hdefined (hname.named hgenerated)))

/-! ## Converted scripts -/

/-- The three parts of a converted script are sequences of pieces, of which those that are written
have closed strings. A name in them that begins like a generated one is one, or it is a name of the
script. Every generated name is no name of the script, the header declares it once, and nothing in
front of that mentions it. The header defines each helper exactly if something else mentions it, by
the name that the helper has or would get if something asked for it. -/
structure NamesDeclared (features : Features) (source : List Char) (m : Module) (d : Draft) :
    Prop where
  header : (d.parts features source).header = textOf source (headerPieces features source m d)
  body : (d.parts features source).body = textOf source (bodyPieces features source m)
  footer : (d.parts features source).footer = textOf source (footerPieces d)
  closed : ∀ text, .written text ∈ pieces features source m d →
    (lexemes? text.toList).isSome = true
  generated : ∀ p ∈ pieces features source m d, ∀ name ∈ p.identifiers m, IsForeign m name →
    name ∈ generatedNames d
  foreign : ∀ name ∈ generatedNames d, IsForeign m name
  once : ∀ name ∈ generatedNames d,
    ((headerPieces features source m d).flatMap (Piece.declared m)).count name = 1
  first : ∀ name ∈ generatedNames d, DeclaredFirstIn m (headerPieces features source m d) name
  defaultHelper : let name := d.names.forDefault.1
    .written (defaultHelperText name) ∈ headerPieces features source m d
      ↔ MentionedBeside features source m d (defaultHelperText name) name
  wholeHelper : let name := d.names.forWhole.1
    .written (wholeHelperText name) ∈ headerPieces features source m d
      ↔ MentionedBeside features source m d (wholeHelperText name) name

theorem namesDeclared_of_draft (hparse : parse false source = some m)
    (h : draft features source m = .ok d) : NamesDeclared features source m d where
  header := (textOf_headerPieces (wellPlaced_of_parse hparse) h).symm
  body := (textOf_bodyPieces (wellPlaced_of_parse hparse) h).symm
  footer := (textOf_footerPieces features source d).symm
  closed _ hp := isSome_lexemes_of_pieces hparse h hp
  generated _ hp _ hname hforeign := mem_generatedNames_of_pieces hparse h hp hname hforeign
  foreign _ hname := isForeign_of_draft h hname
  once _ hname := count_declared_header hparse h hname
  first _ hname := declaredFirstIn_header hparse h hname
  defaultHelper := by
    have hname := nameFor_forDefault h
    exact hname.mem_header_iff hparse h (defines_defaultHelperText hname.word)
      defaultHelper_mem_preamble (mentionedBeside_defaultHelper hparse h)
  wholeHelper := by
    have hname := nameFor_forWhole h
    exact hname.mem_header_iff hparse h (defines_wholeHelperText hname.word)
      wholeHelper_mem_preamble (mentionedBeside_wholeHelper hparse h)

/-- Whatever is converted, for whatever configuration, the generated names are declared, and of the
helpers those are defined that are called. -/
theorem namesDeclared_of_convert {config : ModuleConfig} {filename code : String}
    {input : Option SourceMap} {unit : ScriptUnit} (hparse : parse false code.toList = some m)
    (hconvert : convert config filename code input = .ok unit) :
    ∃ d, draft (Features.ofConfig config) code.toList m = .ok d ∧
      partsOf config filename code = .ok (d.parts (Features.ofConfig config) code.toList) ∧
      NamesDeclared (Features.ofConfig config) code.toList m d := by
  obtain ⟨parts, hparts, -, -⟩ := code_of_convert hconvert
  obtain ⟨m', d, hparse', hdraft, rfl⟩ := exists_draft_of_partsOf hparts
  rw [hparse] at hparse'
  cases hparse'
  exact ⟨d, hdraft, hparts, namesDeclared_of_draft hparse hdraft⟩

/-- Names that are asked for in the header, in a call that moves, and in the body; the script has
one that begins like them. -/
theorem namesDeclared_of_convert_mock :
    let code := "import a from \"a\";\nexport * from \"./b.js\";\nvar _b = import(\"c\");\n"
      ++ "jest.mock(\"d\", () => import(\"e\"));\n"
    let config : ModuleConfig := ⟨.off, [.jest], [.modulesCommonJs, .dynamicImport]⟩
    ∃ unit m d, convert config "a.js" code none = .ok unit ∧ parse false code.toList = some m ∧
      partsOf config "a.js" code = .ok (d.parts (Features.ofConfig config) code.toList) ∧
      NamesDeclared (Features.ofConfig config) code.toList m d ∧
      generatedNames d = ["_interopRequireDefault", "_interopRequireWildcard", "_b2"] := by
  intro code config
  have hread : ((parse false code.toList).any fun m ↦
      (draft (Features.ofConfig config) code.toList m).toOption.any fun d ↦ decide
        (generatedNames d = ["_interopRequireDefault", "_interopRequireWildcard", "_b2"]))
      = true := by
    decide +kernel
  obtain ⟨m, hparse, hm⟩ := (Option.any_eq_true ..).mp hread
  cases hdraft : draft (Features.ofConfig config) code.toList m with
  | error e => rw [hdraft] at hm; cases hm
  | ok d =>
    rw [hdraft, Except.toOption, Option.any_some, decide_eq_true_iff] at hm
    obtain ⟨unit, hconvert⟩ : ∃ unit, convert config "a.js" code none = .ok unit :=
      exists_convert_of_draft hparse hdraft
    obtain ⟨d', hdraft', hparts, hdeclared⟩ := namesDeclared_of_convert hparse hconvert
    rw [hdraft] at hdraft'
    cases hdraft'
    exact ⟨unit, m, d, hconvert, hparse, hparts, hdeclared, hm⟩

end Downlevel.CommonJs
