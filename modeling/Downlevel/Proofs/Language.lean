import Downlevel.Compilation
import Downlevel.Language
import Mathlib.Data.List.Basic

/-!
# What the end of a path decides

Three questions are put to a path: which language it names, under which name its compiled script
goes in source maps, and whether it is a scoped style sheet. The first two look at the extension of
the last component, the third at the last letters of the whole path, and the name is the path with
letters added. They fit together because of what a point and letters behind it do to any path
whatever (`FilePath.extension?_of_toList`): these letters are the extension, unless the point
starts a component.
-/

namespace Downlevel

namespace FilePath

variable {cs front part stem tail ext : List Char} {path : String}

/-! ### Components -/

theorem components_ne_nil (cs : List Char) : components cs ≠ [] := by
  cases cs with
  | nil => simp [components]
  | cons c cs => rw [components]; split <;> (try split) <;> simp

theorem components_of_notMem (h : '/' ∉ part) : components part = [part] := by
  induction part with
  | nil => rfl
  | cons c part ih =>
    rw [List.mem_cons, not_or] at h
    rw [components, ih h.2]
    exact if_neg (Ne.symm h.1)

/-- A slash stands between two components, whatever comes before and after it. -/
theorem components_append_slash (front back : List Char) :
    components (front ++ '/' :: back) = components front ++ components back := by
  induction front with
  | nil =>
    obtain ⟨part, parts, hparts⟩ := List.exists_cons_of_ne_nil (components_ne_nil back)
    simp [components, hparts]
  | cons c front ih =>
    obtain ⟨part, parts, hparts⟩ := List.exists_cons_of_ne_nil (components_ne_nil front)
    rw [List.cons_append, components, ih, components, hparts]
    by_cases hc : c = '/' <;> simp [hc]

/-- Every text is one component, or a directory, a slash and a component. -/
theorem exists_component (cs : List Char) :
    ∃ part, '/' ∉ part ∧ (cs = part ∨ ∃ front, cs = front ++ '/' :: part) := by
  induction cs with
  | nil => exact ⟨[], List.not_mem_nil, .inl rfl⟩
  | cons c cs ih =>
    obtain ⟨part, hpart, rfl | ⟨front, rfl⟩⟩ := ih
    · by_cases hc : c = '/'
      · exact ⟨cs, hpart, .inr ⟨[], by rw [hc]; rfl⟩⟩
      · exact ⟨c :: cs, by simp [hpart, Ne.symm hc], .inl rfl⟩
    · exact ⟨part, hpart, .inr ⟨c :: front, rfl⟩⟩

/-- The component behind the last slash is the last one, where it counts. -/
theorem lastComponent_eq (hpath : path.toList = part ∨ ∃ front, path.toList = front ++ '/' :: part)
    (hslash : '/' ∉ part) (hne : part ≠ []) (hpoint : part ≠ ['.']) :
    lastComponent path = part := by
  have hlast : ∃ parts, components path.toList = parts ++ [part] := by
    rcases hpath with hpath | ⟨front, hpath⟩
    · exact ⟨[], by rw [hpath, components_of_notMem hslash]; rfl⟩
    · exact ⟨components front,
        by rw [hpath, components_append_slash, components_of_notMem hslash]⟩
  obtain ⟨parts, hparts⟩ := hlast
  rw [lastComponent, hparts]
  simp [hne, hpoint]

/-- A slash at the end of a path does not count, and neither do a slash and a point. -/
theorem extension?_append_slash (path : String) {last : String} (h : last = "" ∨ last = ".") :
    extension? (path ++ "/" ++ last) = extension? path := by
  have hslash : '/' ∉ last.toList := by rcases h with rfl | rfl <;> simp
  have hparts : components (path ++ "/" ++ last).toList =
      components path.toList ++ [last.toList] := by
    rw [← components_of_notMem hslash, ← components_append_slash]
    simp
  have hlast : lastComponent (path ++ "/" ++ last) = lastComponent path := by
    rw [lastComponent, hparts, List.reverse_append, List.reverse_singleton, List.cons_append,
      List.nil_append, List.find?_cons_of_neg (by rcases h with rfl | rfl <;> simp), lastComponent]
  rw [extension?, extension?, hlast]

/-! ### The last point -/

theorem splitLast_of_notMem (h : '.' ∉ cs) : splitLast cs = none := by
  induction cs with
  | nil => rfl
  | cons c cs ih =>
    rw [List.mem_cons, not_or] at h
    rw [splitLast, ih h.2]
    exact if_neg (Ne.symm h.1)

theorem splitLast_append (stem : List Char) (h : '.' ∉ tail) :
    splitLast (stem ++ '.' :: tail) = some (stem, tail) := by
  induction stem with
  | nil => simp [splitLast, splitLast_of_notMem h]
  | cons c stem ih => simp [splitLast, ih]

/-- Whether the name of a file would start behind a text: it is empty, or it ends in a slash. -/
def EndsDirectory (cs : List Char) : Prop := ∀ c ∈ cs.getLast?, c = '/'

instance (cs : List Char) : Decidable (EndsDirectory cs) :=
  inferInstanceAs (Decidable (∀ c ∈ cs.getLast?, c = '/'))

theorem endsDirectory_iff (hcs : cs = part ∨ ∃ front, cs = front ++ '/' :: part)
    (hslash : '/' ∉ part) : EndsDirectory cs ↔ part = [] := by
  rcases List.eq_nil_or_concat part with rfl | ⟨init, c, rfl⟩
  · rcases hcs with rfl | ⟨front, rfl⟩ <;> simp [EndsDirectory]
  · have hc : c ≠ '/' := by
      rintro rfl
      exact hslash (by simp)
    have hlast : cs.getLast? = some c := by
      rcases hcs with rfl | ⟨front, rfl⟩
      · simp
      · simp [List.getLast?_append, List.getLast?_cons]
    simp [EndsDirectory, hlast, hc]

/-- Letters behind a point at the end of a path are its extension, unless the point starts a
component. This holds for every text before the point, with empty components, `.` and `..`. -/
theorem extension?_of_toList (hpath : path.toList = front ++ '.' :: ext) (hne : ext ≠ [])
    (hslash : '/' ∉ ext) (hpoint : '.' ∉ ext) :
    extension? path = if EndsDirectory front then none else some (String.ofList ext) := by
  obtain ⟨stem, hstem, hfront⟩ := exists_component front
  -- The components `.` and `..` hold nothing but points.
  have hpoints : ∀ points : List Char, (∀ c ∈ points, c = '.') → stem ++ '.' :: ext ≠ points := by
    rintro _ hall rfl
    obtain ⟨c, ext, rfl⟩ := List.exists_cons_of_ne_nil hne
    exact hpoint (by simp [hall c (by simp)])
  have hlast : lastComponent path = stem ++ '.' :: ext := by
    refine lastComponent_eq ?_ (by simp [hstem, hslash]) (by simp) (hpoints _ (by simp))
    rcases hfront with rfl | ⟨directory, rfl⟩
    · exact .inl hpath
    · exact .inr ⟨directory, by simpa using hpath⟩
  rw [extension?, hlast, if_neg (hpoints _ (by simp)), splitLast_append stem hpoint]
  cases stem with
  | nil => rw [if_pos ((endsDirectory_iff hfront hstem).2 rfl)]
  | cons c stem => rw [if_neg (fun h ↦ by simpa using (endsDirectory_iff hfront hstem).1 h)]

end FilePath

/-! ### The questions -/

/-- The extension of a name that has been marked as compiled is never that of a script. -/
theorem extension?_append_compiled_ne (path : String) :
    FilePath.extension? (path ++ ".compiled") ≠ some "js" := by
  have hpath : (path ++ ".compiled").toList = path.toList ++ '.' :: "compiled".toList := by simp
  rw [FilePath.extension?_of_toList hpath (by decide) (by decide) (by decide)]
  split
  · exact (Option.some_ne_none _).symm
  · decide

theorem compiledName_eq_self_iff (path : String) :
    compiledName path = path ↔ FilePath.extension? path = some "js" := by
  by_cases h : FilePath.extension? path = some "js" <;> simp [compiledName, h]

/-- Two paths never share the name of their compiled scripts. A name that is marked as compiled is
not the path of a script, so it is not the name of a path that keeps its own. -/
theorem compiledName_injective : Function.Injective compiledName := by
  intro p q h
  by_cases hp : FilePath.extension? p = some "js" <;>
    by_cases hq : FilePath.extension? q = some "js"
  · rwa [(compiledName_eq_self_iff p).2 hp, (compiledName_eq_self_iff q).2 hq] at h
  · rw [(compiledName_eq_self_iff p).2 hp, compiledName, if_neg hq] at h
    exact absurd (h ▸ hp) (extension?_append_compiled_ne q)
  · rw [(compiledName_eq_self_iff q).2 hq, compiledName, if_neg hp] at h
    exact absurd (h ▸ hq) (extension?_append_compiled_ne p)
  · simpa [compiledName, hp, hq] using h

/-- What the last letters mark as a scoped style sheet is a style sheet by its extension too. -/
theorem ofPath_of_hasScopedStyleSuffix {path : String} (h : hasScopedStyleSuffix path = true) :
    Language.ofPath path = .style := by
  obtain ⟨front, hfront⟩ := List.isSuffixOf_iff_suffix.1 h
  have hpath : path.toList = (front ++ ".scoped".toList) ++ '.' :: "css".toList := by
    simpa using hfront.symm
  have hstarts : ¬ FilePath.EndsDirectory (front ++ ".scoped".toList) := by
    simp [FilePath.EndsDirectory, List.getLast?_append]
  rw [Language.ofPath, FilePath.extension?_of_toList hpath (by decide) (by decide) (by decide),
    if_neg hstarts]
  rfl

/-- The questions to a path agree, for all paths: the names of compiled scripts differ where the
paths do, a path that keeps its name is the path of a script, and the default mark of scoped styles
is put on style sheets only, so that the compiler never sees it with a script or with markup. -/
theorem path_questions_agree (p q : String) :
    (compiledName p = compiledName q → p = q) ∧
      (compiledName p = p → Language.ofPath p = .plainScript) ∧
      (hasScopedStyleSuffix p = true → Language.ofPath p = .style) ∧
      (Language.ofPath p ≠ .style →
        (CompilerOptions.ofPath hasScopedStyleSuffix p).scopedStyles = false) := by
  refine ⟨fun h ↦ compiledName_injective h, fun h ↦ ?_, ofPath_of_hasScopedStyleSuffix, fun h ↦ ?_⟩
  · rw [Language.ofPath, (compiledName_eq_self_iff p).1 h]
    rfl
  · exact Bool.eq_false_iff.2 (mt ofPath_of_hasScopedStyleSuffix h)

/-- A slash and a point behind a script leave it a script, the name of a scoped style sheet may
start with a point, and a name that starts with the mark of compiled scripts is not the name of
any other path. -/
theorem path_questions_agree_odd :
    Language.ofPath "c/foo.js/." = .plainScript ∧
      Language.ofPath "c//.scoped.css" = .style ∧
      (CompilerOptions.ofPath hasScopedStyleSuffix "c/foo.js/.compiled").scopedStyles = false ∧
      compiledName "c/foo.js/" ≠ compiledName "c/foo.js/.compiled" :=
  ⟨(path_questions_agree "c/foo.js/." "").2.1 (by decide +kernel),
    (path_questions_agree "c//.scoped.css" "").2.2.1 (by decide +kernel),
    (path_questions_agree "c/foo.js/.compiled" "").2.2.2 (by decide +kernel),
    fun h ↦ absurd ((path_questions_agree _ _).1 h) (by decide +kernel)⟩

end Downlevel
