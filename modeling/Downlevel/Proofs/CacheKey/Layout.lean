import Downlevel.CacheKey.Basic
import Downlevel.Proofs.Text.Quoted

/-!
# What the bytes of a key determine

The bytes that are digested for a key are the UTF-8 form of one text: the quoted configuration, the
name of the layout, and the fields with a zero character behind each. The text of a file and its
configuration may hold zero characters themselves, so the fields cannot be told apart by looking for
zeros from the left. The configuration is known from its quoted form; the fields behind it hold no
zero, and neither does the path in front of it. So the fields are found one by one from the right,
and the configuration is stepped over where it stands a second time.
-/

namespace Downlevel

namespace Text

/-- Two strings with the same bytes are the same. -/
theorem flatMap_utf8EncodeChar_inj {s t : List Char}
    (h : s.flatMap String.utf8EncodeChar = t.flatMap String.utf8EncodeChar) : s = t := by
  have hencode : s.utf8Encode = t.utf8Encode := congrArg List.toByteArray h
  rw [← String.toByteArray_ofList, ← String.toByteArray_ofList, String.toByteArray_inj] at hencode
  exact String.ofList_inj.mp hencode

/-- Behind the last occurrence of a character, a text is cut in one way only. -/
theorem append_cons_inj_of_notMem_right {c : Char} {x y s t : List Char} (hs : c ∉ s) (ht : c ∉ t)
    (h : x ++ c :: s = y ++ c :: t) : x = y ∧ s = t := by
  have hbehind : ∀ {s t m : List Char}, c ∉ s → c :: s = m ++ c :: t → m = [] ∧ s = t := by
    intro s t m hs hm
    cases m with
    | nil => exact ⟨rfl, (List.cons.inj hm).2⟩
    | cons d m =>
      refine absurd ?_ hs
      rw [(List.cons.inj hm).2]
      exact List.mem_append_right m List.mem_cons_self
  rcases List.append_eq_append_iff.mp h with ⟨m, rfl, hm⟩ | ⟨m, rfl, hm⟩
  · obtain ⟨rfl, rfl⟩ := hbehind hs hm
    exact ⟨(List.append_nil x).symm, rfl⟩
  · obtain ⟨rfl, rfl⟩ := hbehind ht hm
    exact ⟨List.append_nil y, rfl⟩

end Text

namespace KeyFields

open Text

/-! ## The text that is digested -/

/-- The text of a field with a zero character behind it. -/
def terminated (s : String) : List Char := s.toList ++ ['\x00']

/-- The text whose bytes are digested. -/
def text (input : KeyFields) : List Char :=
  Quoted.encode input.configText.toList ++ (terminated layoutName ++ input.inOrder.flatMap terminated)

theorem delimited_eq (s : String) :
    delimited s = (terminated s).flatMap String.utf8EncodeChar := by
  rw [delimited, terminated, List.flatMap_append]
  rfl

theorem bytes_eq (input : KeyFields) : input.bytes = input.text.flatMap String.utf8EncodeChar := by
  have hquote : utf8 (Quoted.quote input.configText)
      = (Quoted.encode input.configText.toList).flatMap String.utf8EncodeChar := by
    rw [utf8, Quoted.quote, String.toList_ofList]
  have hfields : ∀ ss : List String,
      ss.flatMap delimited = (ss.flatMap terminated).flatMap String.utf8EncodeChar := by
    intro ss
    rw [List.flatMap_assoc]
    exact List.flatMap_congr fun s _ ↦ delimited_eq s
  rw [bytes, text, List.flatMap_append, List.flatMap_append, hquote, delimited_eq, hfields,
    List.append_assoc]

/-! ## Reading the fields back -/

/-- Only the text of a file and its configuration may hold zero characters: paths, variables of the
environment and versions cannot. -/
structure HasPlainNames (input : KeyFields) : Prop where
  path : '\x00' ∉ input.sourcePath.toList
  environment : '\x00' ∉ input.environment.toList
  version : '\x00' ∉ input.compilerVersion.toList

instance (input : KeyFields) : Decidable input.HasPlainNames :=
  decidable_of_iff
    ('\x00' ∉ input.sourcePath.toList ∧ '\x00' ∉ input.environment.toList ∧
      '\x00' ∉ input.compilerVersion.toList)
    ⟨fun ⟨h1, h2, h3⟩ ↦ ⟨h1, h2, h3⟩, fun ⟨h1, h2, h3⟩ ↦ ⟨h1, h2, h3⟩⟩

/-- The digested text gives every field back. -/
theorem eq_of_text_eq {a b : KeyFields} (ha : a.HasPlainNames) (hb : b.HasPlainNames)
    (h : a.text = b.text) : a = b := by
  obtain ⟨source, path, config, environment, version⟩ := a
  obtain ⟨source', path', config', environment', version'⟩ := b
  obtain ⟨hpath, henvironment, hversion⟩ := ha
  obtain ⟨hpath', henvironment', hversion'⟩ := hb
  dsimp only at hpath henvironment hversion hpath' henvironment' hversion'
  -- From the left, the quoted configuration ends by itself.
  obtain ⟨hconfig, hrest⟩ := Quoted.encode_append_inj h
  rw [String.toList_inj] at hconfig
  dsimp only at hconfig
  subst hconfig
  have hfields := List.append_cancel_left hrest
  simp only [inOrder, terminated, List.flatMap_cons, List.flatMap_nil, List.append_nil,
    ← List.append_assoc] at hfields
  -- From the right, every name ends at the last zero that is left.
  have hlast := List.append_cancel_right hfields
  simp only [List.append_assoc _ ['\x00'] _, List.singleton_append] at hlast
  obtain ⟨hfront, hversions⟩ := append_cons_inj_of_notMem_right hversion hversion' hlast
  obtain ⟨hfront, henvironments⟩ := append_cons_inj_of_notMem_right henvironment henvironment' hfront
  have hfront := List.append_cancel_right hfront
  obtain ⟨hsources, hpaths⟩ := append_cons_inj_of_notMem_right hpath hpath' hfront
  rw [String.toList_inj] at hversions henvironments hsources hpaths
  rw [hversions, henvironments, hsources, hpaths]

theorem eq_of_bytes_eq {a b : KeyFields} (ha : a.HasPlainNames) (hb : b.HasPlainNames)
    (h : a.bytes = b.bytes) : a = b := by
  rw [bytes_eq, bytes_eq] at h
  exact eq_of_text_eq ha hb (flatMap_utf8EncodeChar_inj h)

/-- The digested bytes determine all fields of a key. -/
theorem bytes_inj_iff {a b : KeyFields} (ha : a.HasPlainNames) (hb : b.HasPlainNames) :
    a.bytes = b.bytes ↔ a = b :=
  ⟨eq_of_bytes_eq ha hb, congrArg bytes⟩

/-- Two keys whose fields have the same bytes one behind the other: only the quoted configuration in
front of them tells where the path stands. -/
theorem bytes_ne_of_same_fields :
    let a : KeyFields := ⟨"x\x00p.js", "q.js", "c", "test", "2.45.3"⟩
    let b : KeyFields := ⟨"x", "p.js", "q.js\x00c", "test", "2.45.3"⟩
    a.HasPlainNames ∧ b.HasPlainNames ∧
      a.inOrder.flatMap delimited = b.inOrder.flatMap delimited ∧ a.bytes ≠ b.bytes := by
  intro a b
  have ha : a.HasPlainNames := by decide +kernel
  have hb : b.HasPlainNames := by decide +kernel
  refine ⟨ha, hb, by decide +kernel, fun h ↦ ?_⟩
  have hsame := (bytes_inj_iff ha hb).mp h
  exact absurd hsame (by decide +kernel)

end KeyFields

end Downlevel
