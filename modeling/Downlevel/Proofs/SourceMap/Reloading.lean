import Downlevel.SourceMap.Json
import Mathlib.Data.List.Basic

/-!
# Reading maps again

A map that is written is read as itself, unless its version is zero: zero is no version marker, so
what is written for such a map is not read as a map at all. Nothing that is done to a map changes
its version, so it is settled where the map comes from. A marker that counts as true can stand for
version zero all the same, because numbers count modulo 2^32 and strings by the number they spell.
-/

namespace Downlevel.SourceMap

/-! ## Fields -/

theorem string?_string (s : String) : Json.string? (.string s) = some s := rfl

theorem mapM_map_eq_some {α β : Type} {read : β → Option α} {write : α → β}
    (h : ∀ a, read (write a) = some a) (as : List α) : (as.map write).mapM read = some as := by
  have hpure : read ∘ write = fun a ↦ pure (id a) := funext h
  rw [List.mapM_map, hpure, List.mapM_pure, List.map_id]
  rfl

theorem strings?_stringsToJson (ss : List String) : strings? (stringsToJson ss) = some ss :=
  mapM_map_eq_some string?_string ss

theorem content?_contentToJson (c : Option String) : content? (contentToJson c) = some c := by
  cases c <;> rfl

theorem contents?_array (cs : List (Option String)) :
    contents? (.array (cs.map contentToJson)) = some cs :=
  mapM_map_eq_some content?_contentToJson cs

/-- A field that may be missing is read as what was written, unless that is null. -/
theorem nullable_map {α : Type} {read : Json → Option α} {write : α → Json}
    (h : ∀ a, read (write a) = some a) (hnull : ∀ a, write a ≠ .null) (o : Option α) :
    nullable read (o.map write) = some o := by
  cases o with
  | none => rfl
  | some a =>
    rw [Option.map_some, nullable, h]
    · rfl
    · exact hnull a

/-- The fields of a written map. -/
theorem get?_toJson (m : SourceMap) :
    m.toJson.get? "version" = some (.number (.natural m.version.toNat)) ∧
      m.toJson.get? "file" = m.file.map .string ∧
      m.toJson.get? "sourceRoot" = m.sourceRoot.map .string ∧
      m.toJson.get? "sources" = some (stringsToJson m.sources) ∧
      m.toJson.get? "sourcesContent"
        = m.sourcesContent.map (fun cs ↦ .array (cs.map contentToJson)) ∧
      m.toJson.get? "names" = some (stringsToJson m.names) ∧
      m.toJson.get? "mappings" = some (.string m.mappings) := by
  obtain ⟨version, file, root, sources, contents, names, mappings⟩ := m
  cases file <;> cases root <;> cases contents <;> exact ⟨rfl, rfl, rfl, rfl, rfl, rfl, rfl⟩

/-! ## Maps that are read as themselves -/

theorem isMarker_version (v : UInt32) :
    isMarker (.number (.natural v.toNat)) = true ↔ v ≠ 0 := by
  rw [isMarker, Json.Number.isZero, Bool.not_eq_true', beq_eq_false_iff_ne, ne_eq, ne_eq,
    ← UInt32.toNat_inj]
  rfl

theorem versionOf_toNat (v : UInt32) : versionOf (.number (.natural v.toNat)) = v :=
  UInt32.ofNat_toNat

/-- A written map is read as itself, unless its version is zero. -/
theorem ofJson?_toJson (m : SourceMap) :
    ofJson? m.toJson = if m.version = 0 then none else some m := by
  obtain ⟨hversion, hfile, hroot, hsources, hcontents, hnames, hmappings⟩ := m.get?_toJson
  have hnotNull : ∀ s, Json.string s ≠ .null := nofun
  have hfile' := nullable_map string?_string hnotNull m.file
  have hroot' := nullable_map string?_string hnotNull m.sourceRoot
  have hcontents' := nullable_map contents?_array nofun m.sourcesContent
  -- Field by field, what is written is read; only the marker is left to be tested.
  unfold ofJson?
  rw [hversion, hfile, hroot, hsources, hcontents, hnames, hmappings, hfile', hroot', hcontents',
    defaulted, defaulted, defaulted, strings?_stringsToJson, strings?_stringsToJson,
    string?_string]
  by_cases hzero : m.version = 0
  · rw [if_pos hzero, hzero]
    rfl
  · rw [if_neg hzero]
    dsimp only [bind, Option.bind]
    rw [if_pos ((isMarker_version _).mpr hzero), versionOf_toNat]
    rfl

/-! ## Markers that stand for zero -/

/-- What is left of a spelled version behind a plus sign, if there is one. -/
def spelledDigits (s : String) : List Char :=
  match s.toList with
  | '+' :: cs => cs
  | cs => cs

/-- Whether a marker stands for version zero: a natural number that is a multiple of 2^32, or a
string with no other digits than zeros. -/
def standsForZero : Json → Bool
  | .number (.natural n) => n % UInt32.size == 0
  | .string s => !(spelledDigits s).isEmpty && (spelledDigits s).all (· == '0')
  | _ => false

theorem digit_eq_zero_iff {c : Char} (h : c.isDigit = true) : c.toNat - 48 = 0 ↔ c = '0' := by
  rw [Char.isDigit, Bool.and_eq_true, decide_eq_true_iff, decide_eq_true_iff] at h
  have hlow : 48 ≤ c.toNat := UInt32.le_iff_toNat_le.mp h.1
  constructor
  · intro hzero
    have hval : c.toNat = '0'.toNat := Nat.le_antisymm (Nat.sub_eq_zero_iff_le.mp hzero) hlow
    exact Char.toNat_inj.mp hval
  · rintro rfl
    rfl

theorem foldl_digits_eq_zero_iff {cs : List Char} (h : cs.all Char.isDigit = true) (n : Nat) :
    cs.foldl (fun n c ↦ n * 10 + (c.toNat - 48)) n = 0 ↔ n = 0 ∧ cs.all (· == '0') = true := by
  induction cs generalizing n with
  | nil => simp
  | cons c cs ih =>
    rw [List.all_cons, Bool.and_eq_true] at h
    rw [List.foldl_cons, ih h.2, List.all_cons, Bool.and_eq_true, beq_iff_eq,
      ← digit_eq_zero_iff h.1, ← and_assoc]
    refine and_congr_left fun _ ↦ ?_
    omega

theorem digitsValue?_eq_zero_iff {cs : List Char} :
    digitsValue? cs = some 0 ↔ (!cs.isEmpty && cs.all (· == '0')) = true := by
  unfold digitsValue?
  by_cases hdigits : cs.all Char.isDigit = true
  · cases cs with
    | nil => simp
    | cons c cs =>
      simp only [hdigits, List.isEmpty_cons, Bool.not_true, Bool.or_self, Bool.false_eq_true,
        if_false, Option.some_inj, Bool.not_false, Bool.true_and]
      exact (foldl_digits_eq_zero_iff hdigits 0).trans (and_iff_right rfl)
  · have hzeros : cs.all (· == '0') = false := by
      rw [← Bool.not_eq_true]
      refine fun hall ↦ hdigits (List.all_eq_true.mpr fun c hc ↦ ?_)
      rw [beq_iff_eq.mp (List.all_eq_true.mp hall c hc)]
      rfl
    rw [Bool.not_eq_true] at hdigits
    simp [hdigits, hzeros]

theorem spelledVersion?_eq (s : String) :
    spelledVersion? s = (digitsValue? (spelledDigits s)).bind fun n ↦
      if n < UInt32.size then some (UInt32.ofNat n) else none := by
  fun_cases spelledDigits s with
  | case1 cs heq =>
    rw [spelledVersion?, heq]
    rfl
  | case2 hplain =>
    unfold spelledVersion?
    split
    · next heq => exact absurd heq (hplain _)
    · rfl

theorem ofNat_eq_zero_iff (n : Nat) : UInt32.ofNat n = 0 ↔ n % UInt32.size = 0 := by
  rw [← UInt32.toNat_inj, UInt32.toNat_ofNat']
  rfl

theorem spelledVersion?_eq_zero_iff {s : String} :
    spelledVersion? s = some 0 ↔ digitsValue? (spelledDigits s) = some 0 := by
  rw [spelledVersion?_eq]
  cases digitsValue? (spelledDigits s) with
  | none => simp
  | some n =>
    rw [Option.bind_some, Option.some_inj]
    by_cases hsmall : n < UInt32.size
    · rw [if_pos hsmall, Option.some_inj, ofNat_eq_zero_iff, Nat.mod_eq_of_lt hsmall]
    · rw [if_neg hsmall]
      have hpos : n ≠ 0 := fun hzero ↦ hsmall (hzero ▸ by decide)
      simp [hpos]

/-- Which markers stand for version zero. -/
theorem versionOf_eq_zero_iff (v : Json) : versionOf v = 0 ↔ standsForZero v = true := by
  have hthird : (3 : UInt32) ≠ 0 := by decide
  cases v with
  | number n =>
    cases n with
    | natural n => exact (ofNat_eq_zero_iff n).trans beq_iff_eq.symm
    | negative n => exact iff_of_false hthird Bool.false_ne_true
    | decimal isNegative m e => exact iff_of_false hthird Bool.false_ne_true
  | string s =>
    rw [versionOf, standsForZero, ← digitsValue?_eq_zero_iff, ← spelledVersion?_eq_zero_iff]
    cases spelledVersion? s with
    | none => exact iff_of_false hthird (Option.some_ne_none 0).symm
    | some n => rw [Option.getD_some, Option.some_inj]
  | null => exact iff_of_false hthird Bool.false_ne_true
  | bool b => exact iff_of_false hthird Bool.false_ne_true
  | array vs => exact iff_of_false hthird Bool.false_ne_true
  | object fs => exact iff_of_false hthird Bool.false_ne_true

/-! ## Where maps come from -/

/-- What a map is made from. -/
inductive Origin where
  /-- A value that is read as a map. -/
  | value (v : Json)
  /-- A source whose lines are sent to themselves. -/
  | lines (filename source : String) (headerLines : Nat)

namespace Origin

/-- The map, if there is one. -/
def map? : Origin → Option SourceMap
  | value v => ofJson? v
  | lines filename source headerLines => some (ofLines filename source headerLines)

/-- Whether the map has a marker that stands for version zero. -/
def hasZeroVersion : Origin → Bool
  | value v => (v.get? "version").any standsForZero
  | lines .. => false

theorem version_of_ofJson? {v : Json} {m : SourceMap} (h : ofJson? v = some m) :
    ∃ marker, v.get? "version" = some marker ∧ m.version = versionOf marker := by
  unfold ofJson? at h
  obtain ⟨marker, hmarker, h⟩ := Option.bind_eq_some_iff.mp h
  refine ⟨marker, hmarker, ?_⟩
  split at h
  · obtain ⟨file, -, h⟩ := Option.bind_eq_some_iff.mp h
    obtain ⟨root, -, h⟩ := Option.bind_eq_some_iff.mp h
    obtain ⟨sources, -, h⟩ := Option.bind_eq_some_iff.mp h
    obtain ⟨contents, -, h⟩ := Option.bind_eq_some_iff.mp h
    obtain ⟨names, -, h⟩ := Option.bind_eq_some_iff.mp h
    obtain ⟨mappings, -, h⟩ := Option.bind_eq_some_iff.mp h
    cases h
    rfl
  · cases h

theorem version_eq_zero_iff {o : Origin} {m : SourceMap} (h : o.map? = some m) :
    m.version = 0 ↔ o.hasZeroVersion = true := by
  cases o with
  | value v =>
    obtain ⟨marker, hmarker, hversion⟩ := version_of_ofJson? h
    rw [hasZeroVersion, hmarker, Option.any_some, hversion, versionOf_eq_zero_iff]
  | lines filename source headerLines =>
    cases h
    have hthird : (3 : UInt32) ≠ 0 := by decide
    exact iff_of_false hthird Bool.false_ne_true

end Origin

/-! ## What is done to maps -/

/-- What can be done to a map. -/
inductive Step where
  /-- Puts lines in front of the generated script. -/
  | shift (lines : Nat)
  /-- Names the generated script anew. -/
  | name (filename : String)
  /-- Writes the map and reads it again; a map that is not read stays as it is. -/
  | reload

namespace Step

/-- The map after a step. -/
def apply (m : SourceMap) : Step → SourceMap
  | shift lines => m.shift lines
  | name filename => m.named filename
  | reload => (ofJson? m.toJson).getD m

/-- Reading a map again changes nothing. -/
theorem apply_reload (m : SourceMap) : reload.apply m = m := by
  rw [apply, ofJson?_toJson]
  split <;> rfl

/-- One step keeps the version. -/
theorem version_apply (m : SourceMap) (s : Step) : (s.apply m).version = m.version := by
  cases s with
  | shift lines => rfl
  | name filename => rfl
  | reload => rw [apply_reload]

/-- So does a whole run. -/
theorem version_foldl_apply (m : SourceMap) (steps : List Step) :
    (steps.foldl apply m).version = m.version := by
  induction steps generalizing m with
  | nil => rfl
  | cons s steps ih => rw [List.foldl_cons, ih, version_apply]

end Step

/-! ## Reloading -/

/-- Wherever a map comes from and whatever is done to it, it is read as itself when it is written,
unless its first marker stands for version zero; then it is not read as a map at all. -/
theorem reload_eq_ite {o : Origin} {m : SourceMap} (h : o.map? = some m)
    (steps : List Step) :
    ofJson? (steps.foldl Step.apply m).toJson
      = if o.hasZeroVersion then none else some (steps.foldl Step.apply m) := by
  have hzero : (steps.foldl Step.apply m).version = 0 ↔ o.hasZeroVersion = true := by
    rw [Step.version_foldl_apply, Origin.version_eq_zero_iff h]
  rw [ofJson?_toJson]
  exact if_congr hzero rfl rfl

/-- A map with a marker that has to be cut to 32 bits, and with fields that are null or missing. -/
theorem reload_eq_ite_wide :
    let v : Json := .object [("version", .number (.natural 4294967299)), ("file", .null),
      ("sourcesContent", .array [.null, .string "a"]), ("mappings", .string "AAAA")]
    let m : SourceMap := ⟨3, none, none, [], some [none, some "a"], [], "AAAA"⟩
    ofJson? v = some m ∧
      ofJson? ((m.shift 2).named "a.js").toJson = some ((m.shift 2).named "a.js") := by
  intro v m
  have hread : (Origin.value v).map? = some m := by decide +kernel
  exact ⟨hread, reload_eq_ite hread [.shift 2, .name "a.js"]⟩

/-- A number that leaves zero when it is cut to 32 bits counts as true, but the map that is read is
not read again. -/
theorem not_reloaded_of_zero_version :
    let v : Json := .object [("version", .number (.natural 4294967296))]
    ∃ m, ofJson? v = some m ∧ ofJson? m.toJson = none :=
  ⟨⟨0, none, none, [], none, [], ""⟩, by decide +kernel, by decide +kernel⟩

end Downlevel.SourceMap
