import Downlevel.Proofs.Json.Reading
import Downlevel.Proofs.SourceMap.Reloading
import Downlevel.Proofs.Text.Base64
import Downlevel.SourceMap.DataUrl

/-!
# Maps read from their comments

The comment of a script holds its map in three layers: a value, the text of the value, and the bytes
of that text in base 64. Each of them can be undone, so the map is found again in the comment, and
no two maps have the same comment. This also holds of a map that is not accepted when it is read,
because its version is zero. Whatever stands in a map, its comment stays in its line.
-/

namespace Downlevel.SourceMap

variable {v : Json} {m m' : SourceMap}

/-! ## The fields of a written map -/

/-- A value has the fields of a map, those that are missing left out. -/
structure Carries (v : Json) (m : SourceMap) : Prop where
  version : v.get? "version" = some (.number (.natural m.version.toNat))
  file : v.get? "file" = m.file.map .string
  sourceRoot : v.get? "sourceRoot" = m.sourceRoot.map .string
  sources : v.get? "sources" = some (stringsToJson m.sources)
  sourcesContent : v.get? "sourcesContent"
    = m.sourcesContent.map fun cs ↦ .array (cs.map contentToJson)
  names : v.get? "names" = some (stringsToJson m.names)
  mappings : v.get? "mappings" = some (.string m.mappings)

theorem carries_toJson (m : SourceMap) : Carries m.toJson m := by
  obtain ⟨hversion, hfile, hroot, hsources, hcontents, hnames, hmappings⟩ := m.get?_toJson
  exact ⟨hversion, hfile, hroot, hsources, hcontents, hnames, hmappings⟩

theorem stringsToJson_injective : Function.Injective stringsToJson := fun ss tt h ↦ by
  have hread := congrArg strings? h
  rwa [strings?_stringsToJson, strings?_stringsToJson, Option.some_inj] at hread

theorem contents_injective :
    Function.Injective fun cs : List (Option String) ↦ Json.array (cs.map contentToJson) :=
  fun cs ds h ↦ by
    have hread := congrArg contents? h
    dsimp only at hread
    rwa [contents?_array, contents?_array, Option.some_inj] at hread

/-- The fields of a value determine the map that it has them from. -/
theorem Carries.unique (h : Carries v m) (h' : Carries v m') : m = m' := by
  have htext : Function.Injective Json.string := fun s t hst ↦ Json.string.inj hst
  have hversion : m.version = m'.version := by
    have heq := h.version.symm.trans h'.version
    rw [Option.some_inj, Json.number.injEq, Json.Number.natural.injEq] at heq
    exact UInt32.toNat_inj.mp heq
  have hfile : m.file = m'.file := Option.map_injective htext (h.file.symm.trans h'.file)
  have hroot : m.sourceRoot = m'.sourceRoot :=
    Option.map_injective htext (h.sourceRoot.symm.trans h'.sourceRoot)
  have hsources : m.sources = m'.sources :=
    stringsToJson_injective (Option.some_inj.mp (h.sources.symm.trans h'.sources))
  have hcontents : m.sourcesContent = m'.sourcesContent :=
    Option.map_injective contents_injective (h.sourcesContent.symm.trans h'.sourcesContent)
  have hnames : m.names = m'.names :=
    stringsToJson_injective (Option.some_inj.mp (h.names.symm.trans h'.names))
  have hmappings : m.mappings = m'.mappings :=
    htext (Option.some_inj.mp (h.mappings.symm.trans h'.mappings))
  cases m
  cases m'
  congr

/-! ## Values and texts -/

theorem isExact_stringsToJson (ss : List String) : (stringsToJson ss).IsExact := by
  refine .array fun v hv ↦ ?_
  obtain ⟨s, -, rfl⟩ := List.mem_map.mp hv
  exact .string s

theorem isExact_contents (cs : List (Option String)) :
    (Json.array (cs.map contentToJson)).IsExact := by
  refine .array fun v hv ↦ ?_
  obtain ⟨c, -, rfl⟩ := List.mem_map.mp hv
  cases c with
  | none => exact .null
  | some s => exact .string s

theorem isExact_optionalField {α : Type} {write : α → Json} (h : ∀ a, (write a).IsExact)
    (name : String) (o : Option α) : ∀ f ∈ optionalField name write o, f.2.IsExact := by
  cases o with
  | none => exact List.forall_mem_nil _
  | some a => exact List.forall_mem_singleton.mpr (h a)

theorem isExact_toJson (m : SourceMap) : m.toJson.IsExact := by
  have hversion : (Json.Number.natural m.version.toNat).IsExact :=
    Nat.lt_trans m.version.toNat_lt_size (by decide)
  unfold toJson
  refine .object ?_
  simp only [List.forall_mem_append, List.forall_mem_cons]
  exact ⟨⟨⟨⟨⟨⟨.number hversion, List.forall_mem_nil _⟩, isExact_optionalField .string _ _⟩,
    isExact_optionalField .string _ _⟩, isExact_stringsToJson _, List.forall_mem_nil _⟩,
    isExact_optionalField isExact_contents _ _⟩, isExact_stringsToJson _, .string _,
    List.forall_mem_nil _⟩

/-! ## Bytes -/

/-- The bytes of a text are read as the text. -/
theorem fromUTF8?_utf8 (s : String) :
    String.fromUTF8? (Text.utf8 s).toByteArray = some s := by
  have hbytes : (Text.utf8 s).toByteArray = s.toByteArray := by
    rw [Text.utf8, ← List.utf8Encode, ← String.toByteArray_ofList, String.ofList_toList]
  rw [hbytes, String.fromUTF8?, dif_pos s.isValidUTF8]
  rfl

/-- The digits of the comment of a map are read as the bytes of its text. -/
theorem decode?_encode (s : String) :
    Text.Base64.decode? (Text.Base64.encode s).toList = some ((Text.utf8 s).map UInt8.toNat) := by
  rw [Text.Base64.encode, String.toList_ofList]
  refine Text.Base64.decode?_digits fun b hb ↦ ?_
  obtain ⟨byte, -, rfl⟩ := List.mem_map.mp hb
  exact byte.toNat_lt_size

/-! ## The line of a comment -/

/-- A character that is printed: no control character, and no line end of any kind. -/
def IsPrinted (c : Char) : Prop := 0x20 ≤ c.toNat ∧ c.toNat < 0x7f
  deriving Decidable

theorem isPrinted_comment (m : SourceMap) : ∀ c ∈ m.comment.toList, IsPrinted c := by
  have hall {cs : List Char} (h : cs.all (fun c ↦ decide (IsPrinted c)) = true) :
      ∀ c ∈ cs, IsPrinted c := by simpa using h
  have hcomment : ∀ c ∈ commentHead.toList, IsPrinted c := hall (by decide)
  have hurl : ∀ c ∈ dataUrlHead.toList, IsPrinted c := hall (by decide)
  have halphabet : ∀ c ∈ Text.Base64.alphabet, IsPrinted c := hall (by decide)
  have hpad : IsPrinted '=' := by decide
  rw [comment, dataUrl, Text.Base64.encode, String.toList_append, String.toList_append,
    String.toList_ofList]
  simp only [List.forall_mem_append]
  refine ⟨hcomment, hurl, fun c hc ↦ ?_⟩
  rcases Text.Base64.mem_of_mem_digits hc with hc | rfl
  · exact halphabet c hc
  · exact hpad

/-! ## Maps in comments -/

/-- The value that a comment carries. -/
def ofComment? (comment : String) : Option Json := do
  let head := "//# sourceMappingURL=data:application/json;charset=utf-8;base64,".toList
  let digits ←
    if head.isPrefixOf comment.toList then some (comment.toList.drop head.length) else none
  let bytes ← Text.Base64.decode? digits
  let text ← String.fromUTF8? (bytes.map UInt8.ofNat).toByteArray
  Json.parse text

/-- The comment of a map carries the value of the map. -/
theorem ofComment?_comment (m : SourceMap) : ofComment? m.comment = some m.toJson := by
  have hhead : m.comment.toList
      = "//# sourceMappingURL=data:application/json;charset=utf-8;base64,".toList
        ++ (Text.Base64.encode m.toJson.render).toList := by
    rw [comment, dataUrl, String.toList_append, String.toList_append, ← List.append_assoc]
    rfl
  have hbytes : ((Text.utf8 m.toJson.render).map UInt8.toNat).map UInt8.ofNat
      = Text.utf8 m.toJson.render := by
    have hbyte : UInt8.ofNat ∘ UInt8.toNat = id := funext fun b ↦ UInt8.ofNat_toNat
    rw [List.map_map, hbyte, List.map_id]
  rw [ofComment?]
  dsimp only
  rw [hhead, if_pos (List.isPrefixOf_iff_prefix.mpr (List.prefix_append _ _)), List.drop_left]
  dsimp only [bind, Option.bind]
  rw [decode?_encode]
  dsimp only
  rw [hbytes, fromUTF8?_utf8]
  exact Json.parse_render m.isExact_toJson

/-- The comment of a map is one line of printed characters. What stands behind its head is read as
bytes in base 64, these as a text, and this as the value of the map, which has the fields of the map
and of no other one. So different maps have different comments. -/
theorem comment_decodes (m : SourceMap) :
    (∀ c ∈ m.comment.toList, IsPrinted c) ∧ ofComment? m.comment = some m.toJson ∧
      Carries m.toJson m ∧ (∀ m', Carries m.toJson m' → m' = m) ∧
      ∀ m' : SourceMap, m'.comment = m.comment → m' = m := by
  refine ⟨m.isPrinted_comment, m.ofComment?_comment, m.carries_toJson,
    fun m' h ↦ h.unique m.carries_toJson, fun m' h ↦ ?_⟩
  have hvalue : m'.toJson = m.toJson := by
    have hread := m'.ofComment?_comment
    rw [h, ofComment?_comment, Option.some_inj] at hread
    exact hread.symm
  have hcarries : Carries m.toJson m' := hvalue ▸ m'.carries_toJson
  exact hcarries.unique m.carries_toJson

/-- A map that is not accepted when it is read, with line ends, a quote and characters of two and
four bytes in its texts. -/
theorem comment_decodes_unversioned :
    let m : SourceMap := ⟨0, none, some "é\"\n\x00", ["😀"], some [none, some ""], [], ";AAAA"⟩
    let again : SourceMap := { m with version := 0 }
    '=' ∈ m.comment.toList ∧ IsPrinted '=' ∧ ofComment? m.comment = some m.toJson ∧
      Carries m.toJson again ∧ again = m ∧ again.comment = m.comment := by
  intro m again
  obtain ⟨hprinted, hread, hcarries, hunique, hcomment⟩ := comment_decodes m
  have hmem : '=' ∈ m.comment.toList := by
    rw [comment, commentHead, String.toList_append]
    exact List.mem_append_left _ (by decide)
  exact ⟨hmem, hprinted '=' hmem, hread, hcarries, hunique again hcarries, rfl⟩

end Downlevel.SourceMap
