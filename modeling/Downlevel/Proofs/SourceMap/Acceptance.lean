import Downlevel.Proofs.SourceMap.Reloading
import Mathlib.Algebra.Order.Field.Rat
import Mathlib.Algebra.Order.Field.Power
import Mathlib.Data.Rat.Cast.Order
import Mathlib.Data.Set.List

/-!
# Values that are read as maps

Which values are source maps, and what is kept of them. Acceptance is stated on the shape of a value
(`IsMapValue`), and the map that is read on its fields (`Describes`), both without the reader. The
reader looks at nothing but the fields of the format, so other fields do not matter, and of the
marker it only keeps the version that it stands for.

A number is a marker unless it is zero as a double, which is said here of its exact value.
-/

namespace Downlevel

namespace Json

/-! ## The value of a number -/

/-- The exact value of a number. -/
def Number.value : Number → ℚ
  | .natural n => n
  | .negative n => -n
  | .decimal isNegative m e => (if isNegative then -1 else 1) * (m * 10 ^ e)

/-- Half of the least positive double. What is not further away from zero than this is rounded to
zero, the even one of the two nearest doubles. -/
def halfLeastDouble : ℚ := (2 ^ 1075)⁻¹

theorem halfLeastDouble_lt_one : halfLeastDouble < 1 :=
  inv_lt_one_of_one_lt₀ (one_lt_pow₀ one_lt_two (by decide))

theorem halfLeastDouble_pos : 0 < halfLeastDouble := inv_pos.mpr (pow_pos two_pos _)

theorem natCast_le_halfLeastDouble_iff (n : ℕ) : (n : ℚ) ≤ halfLeastDouble ↔ n = 0 := by
  constructor
  · intro h
    have hone : (n : ℚ) < (1 : ℕ) := by
      rw [Nat.cast_one]
      exact lt_of_le_of_lt h halfLeastDouble_lt_one
    exact Nat.lt_one_iff.mp (Nat.cast_lt.mp hone)
  · rintro rfl
    rw [Nat.cast_zero]
    exact halfLeastDouble_pos.le

/-- A power of ten with more zeros than the other side has bits is above it. -/
theorem le_pow_min_iff (m d k : ℕ) :
    m * 2 ^ d ≤ 10 ^ min k (m.log2 + (d + 1)) ↔ m * 2 ^ d ≤ 10 ^ k := by
  rcases Nat.le_total k (m.log2 + (d + 1)) with hk | hk
  · rw [Nat.min_eq_left hk]
  · have hbits : m * 2 ^ d ≤ 10 ^ (m.log2 + (d + 1)) :=
      calc m * 2 ^ d ≤ 2 ^ (m.log2 + 1) * 2 ^ d :=
            Nat.mul_le_mul_right _ Nat.lt_log2_self.le
        _ = 2 ^ (m.log2 + (d + 1)) := by rw [← pow_add, Nat.add_assoc, Nat.add_comm 1 d]
        _ ≤ 10 ^ (m.log2 + (d + 1)) := Nat.pow_le_pow_left (by decide) _
    rw [Nat.min_eq_right hk]
    exact iff_of_true hbits (hbits.trans (Nat.pow_le_pow_right (by decide) hk))

theorem mul_inv_pow_le_iff (m d k : ℕ) :
    (m : ℚ) * (10 ^ k)⁻¹ ≤ (2 ^ d)⁻¹ ↔ m * 2 ^ d ≤ 10 ^ k := by
  have hten : (0 : ℚ) < 10 ^ k := pow_pos (by norm_num) k
  have htwo : (0 : ℚ) < 2 ^ d := pow_pos two_pos d
  rw [mul_inv_le_iff₀ hten, ← div_eq_inv_mul, le_div_iff₀ htwo]
  exact_mod_cast Iff.rfl

theorem abs_value_decimal (isNegative : Bool) (m : ℕ) (e : ℤ) :
    |(Number.decimal isNegative m e).value| = m * 10 ^ e := by
  have hnonneg : (0 : ℚ) ≤ m * 10 ^ e := mul_nonneg m.cast_nonneg (zpow_nonneg (by norm_num) e)
  cases isNegative <;> simp [Number.value, abs_of_nonneg hnonneg]

/-- A number is zero exactly if the double nearest to it is. -/
theorem Number.isZero_iff (n : Number) : n.isZero = true ↔ |n.value| ≤ halfLeastDouble := by
  cases n with
  | natural n =>
    rw [value, abs_of_nonneg n.cast_nonneg, natCast_le_halfLeastDouble_iff]
    exact beq_iff_eq
  | negative n =>
    rw [value, abs_neg, abs_of_nonneg n.cast_nonneg, natCast_le_halfLeastDouble_iff]
    exact beq_iff_eq
  | decimal isNegative m e =>
    rw [abs_value_decimal]
    cases e with
    | ofNat k =>
      have hcast : (m : ℚ) * 10 ^ Int.ofNat k = (m * 10 ^ k : ℕ) := by
        rw [Int.ofNat_eq_natCast, zpow_natCast, Nat.cast_mul, Nat.cast_pow, Nat.cast_ofNat]
      rw [hcast, natCast_le_halfLeastDouble_iff, Nat.mul_eq_zero,
        or_iff_left (pow_ne_zero k (by decide))]
      exact beq_iff_eq
    | negSucc k =>
      have hzero : (decimal isNegative m (.negSucc k)).isZero = true
          ↔ m <<< 1075 ≤ 10 ^ min (k + 1) (m.log2 + (1075 + 1)) := by
        rw [isZero, decide_eq_true_iff]
        rfl
      rw [hzero, zpow_negSucc, halfLeastDouble]
      generalize 1075 = d
      rw [Nat.shiftLeft_eq, le_pow_min_iff, mul_inv_pow_le_iff]

/-! ## Fields of an object -/

/-- An object with a field of a given value, instead of the one it had or besides those it had. -/
def withField (v : Json) (name : String) (x : Json) : Json :=
  match v with
  | .object fields => .object (fields.filter (·.1 != name) ++ [(name, x)])
  | v => v

/-- An object without a field. -/
def withoutField (v : Json) (name : String) : Json :=
  match v with
  | .object fields => .object (fields.filter (·.1 != name))
  | v => v

variable {name other : String}

theorem filter_filter_ne (h : other ≠ name) (fields : List (String × Json)) :
    (fields.filter (·.1 != name)).filter (·.1 == other) = fields.filter (·.1 == other) := by
  rw [List.filter_filter]
  refine List.filter_congr fun f _ ↦ ?_
  by_cases hf : f.1 = other
  · simp [hf, h]
  · simp [hf]

theorem get?_withField_self (fields : List (String × Json)) (x : Json) :
    ((Json.object fields).withField name x).get? name = some x := by
  simp [withField, get?, List.filter_append]

theorem get?_withField_of_ne (h : other ≠ name) (v x : Json) :
    (v.withField name x).get? other = v.get? other := by
  cases v with
  | object fields =>
    have hnew : [(name, x)].filter (·.1 == other) = [] := by simp [h.symm]
    rw [withField, get?, get?, List.filter_append, filter_filter_ne h, hnew, List.append_nil]
  | _ => rfl

theorem get?_withoutField_of_ne (h : other ≠ name) (v : Json) :
    (v.withoutField name).get? other = v.get? other := by
  cases v with
  | object fields => rw [withoutField, get?, get?, filter_filter_ne h]
  | _ => rfl

theorem exists_object_of_get? {v x : Json} (h : v.get? name = some x) :
    ∃ fields, v = .object fields := by
  cases v with
  | object fields => exact ⟨fields, rfl⟩
  | _ => cases h

end Json

namespace SourceMap

variable {v w : Json} {m : SourceMap}

/-! ## The shape of a map -/

/-- What says that an object is a source map: a number that is not zero, a string that is not empty,
truth, an array or an object. -/
inductive CountsAsVersion : Json → Prop
  | number {n : Json.Number} : Json.halfLeastDouble < |n.value| → CountsAsVersion (.number n)
  | string {s : String} : s ≠ "" → CountsAsVersion (.string s)
  | truth : CountsAsVersion (.bool true)
  | array (items : List Json) : CountsAsVersion (.array items)
  | object (fields : List (String × Json)) : CountsAsVersion (.object fields)

/-- A string. -/
def IsText (x : Json) : Prop := ∃ s, x = .string s

/-- Null, or something of a kind. -/
def IsNullOr (P : Json → Prop) (x : Json) : Prop := x = .null ∨ P x

/-- An array of things of a kind. -/
def IsListOf (P : Json → Prop) (x : Json) : Prop := ∃ items, x = .array items ∧ ∀ y ∈ items, P y

/-- An object with a version marker in which every field of the format is of the right kind, or
missing. -/
structure IsMapValue (v : Json) : Prop where
  isObject : ∃ fields, v = .object fields
  version : ∃ marker, v.get? "version" = some marker ∧ CountsAsVersion marker
  file : ∀ x ∈ v.get? "file", IsNullOr IsText x
  sourceRoot : ∀ x ∈ v.get? "sourceRoot", IsNullOr IsText x
  sources : ∀ x ∈ v.get? "sources", IsListOf IsText x
  sourcesContent : ∀ x ∈ v.get? "sourcesContent", IsNullOr (IsListOf (IsNullOr IsText)) x
  names : ∀ x ∈ v.get? "names", IsListOf IsText x
  mappings : ∀ x ∈ v.get? "mappings", IsText x

/-! ## What a map keeps -/

/-- The texts of sources as a value. -/
def contentsToJson (cs : List (Option String)) : Json := .array (cs.map contentToJson)

/-- A field that may be missing or null is what a value is written as. -/
def HoldsOptional {α : Type} (write : α → Json) (field : Option Json) : Option α → Prop
  | none => field = none ∨ field = some .null
  | some a => field = some (write a)

/-- A field is what a value is written as, or is missing, and the value is the default. -/
def HoldsOr {α : Type} (write : α → Json) (default : α) (field : Option Json) (a : α) : Prop :=
  field = some (write a) ∨ field = none ∧ a = default

/-- The fields of a map are those of a value, and its version is what the marker stands for. -/
structure Describes (v : Json) (m : SourceMap) : Prop where
  version : ∃ marker, v.get? "version" = some marker ∧ CountsAsVersion marker ∧
    m.version = versionOf marker
  file : HoldsOptional .string (v.get? "file") m.file
  sourceRoot : HoldsOptional .string (v.get? "sourceRoot") m.sourceRoot
  sources : HoldsOr stringsToJson [] (v.get? "sources") m.sources
  sourcesContent : HoldsOptional contentsToJson (v.get? "sourcesContent") m.sourcesContent
  names : HoldsOr stringsToJson [] (v.get? "names") m.names
  mappings : HoldsOr .string "" (v.get? "mappings") m.mappings

/-! ## Reading a field -/

section Fields

variable {α : Type} {read : Json → Option α} {write : α → Json} {field : Option Json}

theorem nullable_eq_some_iff (h : ∀ x a, read x = some a ↔ x = write a)
    (hnull : ∀ a, write a ≠ .null) {o : Option α} :
    nullable read field = some o ↔ HoldsOptional write field o := by
  fun_cases nullable read field with
  | case1 => cases o <;> simp [HoldsOptional]
  | case2 =>
    cases o with
    | none => simp [HoldsOptional]
    | some a => simpa [HoldsOptional] using (hnull a).symm
  | case3 x hx =>
    have hx : x ≠ .null := hx
    cases o with
    | none => simp [HoldsOptional, hx]
    | some a => simp [HoldsOptional, h]

theorem defaulted_eq_some_iff (h : ∀ x a, read x = some a ↔ x = write a) {default a : α} :
    defaulted read default field = some a ↔ HoldsOr write default field a := by
  cases field with
  | none => simp [defaulted, HoldsOr, eq_comm]
  | some x => simp [defaulted, HoldsOr, h]

theorem exists_holdsOptional_iff {P : Json → Prop} (h : ∀ x, P x ↔ ∃ a, x = write a)
    (field : Option Json) :
    (∃ o, HoldsOptional write field o) ↔ ∀ x ∈ field, IsNullOr P x := by
  cases field with
  | none => exact iff_of_true ⟨none, .inl rfl⟩ nofun
  | some x =>
    simp only [Option.mem_def, Option.some_inj, forall_eq', IsNullOr, h]
    constructor
    · rintro ⟨o, ho⟩
      cases o with
      | none => exact .inl (by simpa [HoldsOptional] using ho)
      | some a => exact .inr ⟨a, Option.some_inj.mp ho⟩
    · rintro (rfl | ⟨a, rfl⟩)
      · exact ⟨none, .inr rfl⟩
      · exact ⟨some a, rfl⟩

theorem exists_holdsOr_iff {P : Json → Prop} (h : ∀ x, P x ↔ ∃ a, x = write a) (default : α)
    (field : Option Json) :
    (∃ a, HoldsOr write default field a) ↔ ∀ x ∈ field, P x := by
  cases field with
  | none => exact iff_of_true ⟨default, .inr ⟨rfl, rfl⟩⟩ nofun
  | some x => simp [HoldsOr, h]

/-- A list is read if each of its elements is. -/
theorem mapM_eq_some_iff (h : ∀ x a, read x = some a ↔ x = write a) {xs : List Json}
    {as : List α} : xs.mapM read = some as ↔ xs = as.map write := by
  induction xs generalizing as with
  | nil => cases as <;> simp
  | cons x xs ih =>
    rw [List.mapM_cons]
    simp only [Option.bind_eq_bind, Option.bind_eq_some_iff, h, ih, Option.pure_def,
      Option.some_inj]
    constructor
    · rintro ⟨a, rfl, as, rfl, rfl⟩
      rfl
    · intro heq
      cases as with
      | nil => cases heq
      | cons a as =>
        obtain ⟨rfl, rfl⟩ := List.cons.inj heq
        exact ⟨a, rfl, as, rfl, rfl⟩

theorem isListOf_iff {P : Json → Prop} (h : ∀ x, P x ↔ ∃ a, x = write a) (x : Json) :
    IsListOf P x ↔ ∃ as : List α, x = .array (as.map write) := by
  constructor
  · rintro ⟨items, rfl, hitems⟩
    have hwritten : items ∈ Set.range (List.map write) := by
      rw [Set.range_list_map]
      exact fun y hy ↦ ((h y).mp (hitems y hy)).imp fun a ha ↦ ha.symm
    obtain ⟨as, rfl⟩ := hwritten
    exact ⟨as, rfl⟩
  · rintro ⟨as, rfl⟩
    exact ⟨_, rfl, List.forall_mem_map.mpr fun a _ ↦ (h _).mpr ⟨a, rfl⟩⟩

end Fields

theorem string?_eq_some_iff (x : Json) (s : String) : x.string? = some s ↔ x = .string s := by
  cases x <;> simp [Json.string?]

theorem strings?_eq_some_iff (x : Json) (ss : List String) :
    strings? x = some ss ↔ x = stringsToJson ss := by
  cases x <;> simp [strings?, Json.array?, stringsToJson, mapM_eq_some_iff string?_eq_some_iff]

theorem content?_eq_some_iff (x : Json) (c : Option String) :
    content? x = some c ↔ x = contentToJson c := by
  cases x <;> cases c <;> simp [content?, contentToJson]

theorem contents?_eq_some_iff (x : Json) (cs : List (Option String)) :
    contents? x = some cs ↔ x = contentsToJson cs := by
  cases x <;> simp [contents?, Json.array?, contentsToJson, mapM_eq_some_iff content?_eq_some_iff]

theorem isMarker_iff (x : Json) : isMarker x = true ↔ CountsAsVersion x := by
  cases x with
  | null => exact iff_of_false Bool.false_ne_true nofun
  | bool b =>
    cases b with
    | false => exact iff_of_false Bool.false_ne_true nofun
    | true => exact iff_of_true rfl .truth
  | number n =>
    rw [isMarker, Bool.not_eq_true', ← Bool.not_eq_true, n.isZero_iff, not_le]
    exact ⟨.number, fun h ↦ by cases h; assumption⟩
  | string s =>
    rw [isMarker, bne_iff_ne]
    exact ⟨.string, fun h ↦ by cases h; assumption⟩
  | array items => exact iff_of_true rfl (.array items)
  | object fields => exact iff_of_true rfl (.object fields)

/-! ## Reading a map -/

theorem text_eq_some_iff {field : Option Json} {o : Option String} :
    nullable Json.string? field = some o ↔ HoldsOptional .string field o :=
  nullable_eq_some_iff string?_eq_some_iff nofun

theorem contents_eq_some_iff {field : Option Json} {o : Option (List (Option String))} :
    nullable contents? field = some o ↔ HoldsOptional contentsToJson field o :=
  nullable_eq_some_iff contents?_eq_some_iff nofun

/-- A map is read from a value exactly if its fields are those of the value. -/
theorem ofJson?_eq_some_iff : ofJson? v = some m ↔ Describes v m := by
  unfold ofJson?
  constructor
  · intro h
    obtain ⟨marker, hmarker, h⟩ := Option.bind_eq_some_iff.mp h
    split at h
    · next hcounts =>
      obtain ⟨file, hfile, h⟩ := Option.bind_eq_some_iff.mp h
      obtain ⟨root, hroot, h⟩ := Option.bind_eq_some_iff.mp h
      obtain ⟨sources, hsources, h⟩ := Option.bind_eq_some_iff.mp h
      obtain ⟨contents, hcontents, h⟩ := Option.bind_eq_some_iff.mp h
      obtain ⟨names, hnames, h⟩ := Option.bind_eq_some_iff.mp h
      obtain ⟨mappings, hmappings, h⟩ := Option.bind_eq_some_iff.mp h
      cases h
      exact ⟨⟨marker, hmarker, (isMarker_iff marker).mp hcounts, rfl⟩,
        text_eq_some_iff.mp hfile, text_eq_some_iff.mp hroot,
        (defaulted_eq_some_iff strings?_eq_some_iff).mp hsources,
        contents_eq_some_iff.mp hcontents,
        (defaulted_eq_some_iff strings?_eq_some_iff).mp hnames,
        (defaulted_eq_some_iff string?_eq_some_iff).mp hmappings⟩
    · cases h
  · rintro ⟨⟨marker, hmarker, hcounts, hversion⟩, hfile, hroot, hsources, hcontents, hnames,
      hmappings⟩
    rw [hmarker, text_eq_some_iff.mpr hfile, text_eq_some_iff.mpr hroot,
      (defaulted_eq_some_iff strings?_eq_some_iff).mpr hsources, contents_eq_some_iff.mpr hcontents,
      (defaulted_eq_some_iff strings?_eq_some_iff).mpr hnames,
      (defaulted_eq_some_iff string?_eq_some_iff).mpr hmappings]
    dsimp only [bind, Option.bind]
    rw [if_pos ((isMarker_iff marker).mpr hcounts), ← hversion]
    rfl

theorem isText_iff (x : Json) : IsText x ↔ ∃ s, x = .string s := Iff.rfl

theorem isNullOrText_iff (x : Json) : IsNullOr IsText x ↔ ∃ c, x = contentToJson c := by
  constructor
  · rintro (rfl | ⟨s, rfl⟩)
    · exact ⟨none, rfl⟩
    · exact ⟨some s, rfl⟩
  · rintro ⟨c, rfl⟩
    cases c with
    | none => exact .inl rfl
    | some s => exact .inr ⟨s, rfl⟩

/-- A value describes a map exactly if it has the shape of one. -/
theorem exists_describes_iff : (∃ m, Describes v m) ↔ IsMapValue v := by
  have htext (name : String) := exists_holdsOptional_iff isText_iff (v.get? name)
  have hlist (name : String) : (∃ ss, HoldsOr stringsToJson [] (v.get? name) ss) ↔ _ :=
    exists_holdsOr_iff (isListOf_iff isText_iff) [] (v.get? name)
  have hcontents : (∃ o, HoldsOptional contentsToJson (v.get? "sourcesContent") o) ↔ _ :=
    exists_holdsOptional_iff (isListOf_iff isNullOrText_iff) (v.get? "sourcesContent")
  have hmappings := exists_holdsOr_iff isText_iff "" (v.get? "mappings")
  constructor
  · rintro ⟨m, h⟩
    obtain ⟨marker, hmarker, hcounts, -⟩ := h.version
    exact ⟨Json.exists_object_of_get? hmarker, ⟨marker, hmarker, hcounts⟩,
      (htext "file").mp ⟨_, h.file⟩, (htext "sourceRoot").mp ⟨_, h.sourceRoot⟩,
      (hlist "sources").mp ⟨_, h.sources⟩, hcontents.mp ⟨_, h.sourcesContent⟩,
      (hlist "names").mp ⟨_, h.names⟩, hmappings.mp ⟨_, h.mappings⟩⟩
  · intro h
    obtain ⟨marker, hmarker, hcounts⟩ := h.version
    obtain ⟨file, hfile⟩ := (htext "file").mpr h.file
    obtain ⟨root, hroot⟩ := (htext "sourceRoot").mpr h.sourceRoot
    obtain ⟨sources, hsources⟩ := (hlist "sources").mpr h.sources
    obtain ⟨contents, hcontents⟩ := hcontents.mpr h.sourcesContent
    obtain ⟨names, hnames⟩ := (hlist "names").mpr h.names
    obtain ⟨mappings, hmappings⟩ := hmappings.mpr h.mappings
    exact ⟨⟨versionOf marker, file, root, sources, contents, names, mappings⟩,
      ⟨marker, hmarker, hcounts, rfl⟩, hfile, hroot, hsources, hcontents, hnames, hmappings⟩

/-! ## What does not matter -/

/-- The fields of the format. -/
def fieldNames : List String :=
  ["version", "file", "sourceRoot", "sources", "sourcesContent", "names", "mappings"]

/-- Nothing but the fields of the format is looked at. -/
theorem ofJson?_congr (h : ∀ name ∈ fieldNames, v.get? name = w.get? name) :
    ofJson? v = ofJson? w := by
  simp only [fieldNames, List.forall_mem_cons] at h
  obtain ⟨hversion, hfile, hroot, hsources, hcontents, hnames, hmappings, -⟩ := h
  rw [ofJson?, ofJson?, hversion, hfile, hroot, hsources, hcontents, hnames, hmappings]

/-- Another marker only changes the version. -/
theorem Describes.withVersion (h : Describes v m) {marker : Json}
    (hcounts : CountsAsVersion marker) :
    Describes (v.withField "version" marker) { m with version := versionOf marker } := by
  obtain ⟨old, hold, -, -⟩ := h.version
  obtain ⟨fields, rfl⟩ := Json.exists_object_of_get? hold
  have hkept {name : String} (hname : name ≠ "version") :
      ((Json.object fields).withField "version" marker).get? name
        = (Json.object fields).get? name :=
    Json.get?_withField_of_ne hname _ _
  refine ⟨⟨marker, Json.get?_withField_self fields marker, hcounts, rfl⟩, ?_, ?_, ?_, ?_, ?_, ?_⟩
  · rw [hkept (by decide)]
    exact h.file
  · rw [hkept (by decide)]
    exact h.sourceRoot
  · rw [hkept (by decide)]
    exact h.sources
  · rw [hkept (by decide)]
    exact h.sourcesContent
  · rw [hkept (by decide)]
    exact h.names
  · rw [hkept (by decide)]
    exact h.mappings

/-! ## Acceptance -/

/-- A value is read as a map exactly if it has the shape of one. The map that is read has the fields
of the value. Setting or removing a field that the format does not know changes nothing, and another
marker changes nothing but the version. -/
theorem ofJson?_accepts (v : Json) :
    ((ofJson? v).isSome = true ↔ IsMapValue v) ∧
      (∀ m, ofJson? v = some m ↔ Describes v m) ∧
      (∀ name, name ∉ fieldNames →
        (∀ x, ofJson? (v.withField name x) = ofJson? v) ∧
          ofJson? (v.withoutField name) = ofJson? v) ∧
      ∀ marker, CountsAsVersion marker → IsMapValue v →
        ofJson? (v.withField "version" marker)
          = (ofJson? v).map fun m ↦ { m with version := versionOf marker } := by
  have hread {m : SourceMap} : ofJson? v = some m ↔ Describes v m := ofJson?_eq_some_iff
  refine ⟨?_, fun m ↦ hread, fun name hname ↦ ⟨fun x ↦ ?_, ?_⟩, fun marker hmarker hvalue ↦ ?_⟩
  · rw [Option.isSome_iff_exists, ← exists_describes_iff]
    exact exists_congr fun m ↦ hread
  · exact ofJson?_congr fun other hother ↦
      Json.get?_withField_of_ne (ne_of_mem_of_not_mem hother hname) v x
  · exact ofJson?_congr fun other hother ↦
      Json.get?_withoutField_of_ne (ne_of_mem_of_not_mem hother hname) v
  · obtain ⟨m, hm⟩ := exists_describes_iff.mpr hvalue
    rw [hread.mpr hm, Option.map_some, ofJson?_eq_some_iff]
    exact hm.withVersion hmarker

/-- A map with an unknown field, an array as its marker, and fields that are null or missing. -/
theorem ofJson?_accepts_sparse :
    let v : Json := .object [("debugId", .bool true), ("version", .array []), ("file", .null),
      ("sourcesContent", .array [.null, .string "a"]), ("mappings", .string "AAAA")]
    "debugId" ∉ fieldNames ∧ CountsAsVersion (.string "4") ∧ IsMapValue v ∧
      ofJson? (v.withoutField "debugId")
        = some ⟨3, none, none, [], some [none, some "a"], [], "AAAA"⟩ ∧
      ofJson? (v.withField "version" (.string "4"))
        = some ⟨4, none, none, [], some [none, some "a"], [], "AAAA"⟩ := by
  intro v
  obtain ⟨haccepts, -, hother, hversion⟩ := ofJson?_accepts v
  have hread : ofJson? v = some ⟨3, none, none, [], some [none, some "a"], [], "AAAA"⟩ := by
    decide +kernel
  have hname : "debugId" ∉ fieldNames := by decide
  have hmarker : CountsAsVersion (.string "4") := .string (by decide)
  have hvalue : IsMapValue v := haccepts.mp (by rw [hread]; rfl)
  have hfour : versionOf (.string "4") = 4 := by decide +kernel
  refine ⟨hname, hmarker, hvalue, ?_, ?_⟩
  · rw [(hother "debugId" hname).2, hread]
  · rw [hversion _ hmarker hvalue, hread, Option.map_some, hfour]

end SourceMap

end Downlevel
