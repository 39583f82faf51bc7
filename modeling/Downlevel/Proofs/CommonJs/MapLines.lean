import Downlevel.Proofs.CommonJs.Footer
import Downlevel.Proofs.CommonJs.GeneratedNames
import Downlevel.Proofs.Script.Spelling.Module
import Downlevel.Proofs.Text.Letter

/-!
# Lines that refer to maps

The lines of a converted script that refer to maps. Statements that a conversion writes have none:
whatever they name, they stand in lines of their own, and something stands in each of these lines
in front of the first slash. Only the calls that move to the start keep their lines from the script,
because comments with maps are dropped from the body alone.
-/

namespace Downlevel.CommonJs

open Script Text

/-- The lines of a text that refer to maps. -/
def mapLines (text : List Char) : List (List Char) := (lines text).filter refersToMap

/-! ## Lines of joined texts -/

section Lines

variable {line text as bs : List Char}

theorem lines_of_notMem (h : '\n' ∉ line) : lines line = [line] := by
  induction line with
  | nil => rfl
  | cons c cs ih =>
    obtain ⟨first, rest, hlines, hcons⟩ := lines_cons c cs
    rw [ih fun hmem ↦ h (List.mem_cons_of_mem c hmem)] at hlines
    cases hlines
    rw [hcons, if_neg fun heq : c = '\n' ↦ h (heq ▸ List.mem_cons_self)]

theorem lines_append_newline (as bs : List Char) :
    lines (as ++ '\n' :: bs) = lines as ++ lines bs := by
  induction as with
  | nil =>
    obtain ⟨first, rest, hlines, hcons⟩ := lines_cons '\n' bs
    rw [List.nil_append, hcons, if_pos rfl, hlines]
    rfl
  | cons c cs ih =>
    obtain ⟨first, rest, hlines, hcons⟩ := lines_cons c cs
    obtain ⟨first', rest', hlines', hcons'⟩ := lines_cons c (cs ++ '\n' :: bs)
    rw [ih, hlines, List.cons_append] at hlines'
    cases hlines'
    rw [List.cons_append, hcons, hcons']
    split <;> rfl

theorem notMem_of_mem_lines (h : line ∈ lines text) : '\n' ∉ line := by
  induction text generalizing line with
  | nil =>
    rw [List.mem_singleton.mp h]
    exact List.not_mem_nil
  | cons c cs ih =>
    obtain ⟨first, rest, hlines, hcons⟩ := lines_cons c cs
    rw [hlines] at ih
    rw [hcons] at h
    split at h
    · rcases List.mem_cons.mp h with rfl | h
      · exact List.not_mem_nil
      · exact ih h
    · next hc =>
      rcases List.mem_cons.mp h with rfl | h
      · exact fun hmem ↦ (List.mem_cons.mp hmem).elim (fun heq ↦ hc heq.symm)
          (ih List.mem_cons_self)
      · exact ih (List.mem_cons_of_mem _ h)

theorem lines_unlines {rest : List (List Char)} (h : ∀ l ∈ line :: rest, '\n' ∉ l) :
    lines (unlines (line :: rest)) = line :: rest := by
  induction rest generalizing line with
  | nil => exact lines_of_notMem (h line List.mem_cons_self)
  | cons next rest ih =>
    rw [unlines, lines_append_newline, lines_of_notMem (h line List.mem_cons_self),
      ih fun l hl ↦ h l (List.mem_cons_of_mem _ hl)]
    rfl

theorem mapLines_append_newline (as bs : List Char) :
    mapLines (as ++ '\n' :: bs) = mapLines as ++ mapLines bs := by
  rw [mapLines, lines_append_newline, List.filter_append]
  rfl

theorem mapLines_newline (as : List Char) : mapLines (as ++ ['\n']) = mapLines as := by
  rw [mapLines_append_newline]
  exact List.append_nil _

/-- Behind whole lines, the lines of a text go on. -/
theorem WholeLines.exists_lines_append (h : WholeLines as) (bs : List Char) :
    ∃ front, lines (as ++ bs) = front ++ lines bs ∧ front.filter refersToMap = mapLines as := by
  rcases h with rfl | h
  · exact ⟨[], rfl, rfl⟩
  · rw [endsLine, beq_iff_eq, List.getLast?_eq_some_iff] at h
    obtain ⟨as, rfl⟩ := h
    refine ⟨lines as, ?_, (mapLines_newline as).symm⟩
    rw [List.append_assoc, List.singleton_append, lines_append_newline]

theorem WholeLines.mapLines_append (h : WholeLines as) (bs : List Char) :
    mapLines (as ++ bs) = mapLines as ++ mapLines bs := by
  obtain ⟨front, hlines, hfront⟩ := h.exists_lines_append bs
  rw [mapLines, hlines, List.filter_append, hfront]
  rfl

theorem mapLines_flatMap {α : Type} {f : α → List Char} {xs : List α}
    (h : ∀ x ∈ xs, WholeLines (f x)) : mapLines (xs.flatMap f) = xs.flatMap fun x ↦ mapLines (f x) := by
  induction xs with
  | nil => rfl
  | cons x xs ih =>
    rw [List.flatMap_cons, List.flatMap_cons, (h x List.mem_cons_self).mapLines_append,
      ih fun y hy ↦ h y (List.mem_cons_of_mem x hy)]

theorem wholeLines_freshLine (text : List Char) : WholeLines (freshLine text) := by
  unfold freshLine
  split
  · next hends => exact .inr hends
  · exact .of_endsLine_append rfl

theorem mapLines_freshLine (text : List Char) : mapLines (freshLine text) = mapLines text := by
  unfold freshLine
  split
  · rfl
  · exact mapLines_newline text

/-- Behind whole lines and a text that refers to no maps, a script does not end in a line that
does. -/
theorem exists_lines_eq_concat (has : WholeLines as) (hbs : mapLines bs = []) :
    ∃ front last, lines (as ++ bs) = front ++ [last] ∧ front.filter refersToMap = mapLines as ∧
      refersToMap last = false := by
  obtain ⟨front, hlines, hfront⟩ := has.exists_lines_append bs
  obtain ⟨rest, hrest⟩ := exists_lines_eq bs
  obtain ⟨inner, last, hlast⟩ := (List.eq_nil_or_concat' (lines bs)).resolve_left
    (by rw [hrest]; exact List.cons_ne_nil _ _)
  rw [mapLines, hlast, List.filter_append, List.append_eq_nil_iff] at hbs
  refine ⟨front ++ inner, last, ?_, ?_, ?_⟩
  · rw [hlines, hlast, List.append_assoc]
  · rw [List.filter_append, hbs.1, List.append_nil, hfront]
  · simpa using hbs.2

/-- Comments with maps are dropped. -/
theorem mapLines_dropMapComments (text : List Char) : mapLines (dropMapComments text) = [] := by
  have hkept : ∀ line, refersToMap (keptLine line) = false := by
    intro line
    unfold keptLine
    split
    · rfl
    · next h => simpa using h
  have hlines : lines (dropMapComments text) = (lines text).map keptLine := by
    obtain ⟨rest, hrest⟩ := exists_lines_eq text
    rw [dropMapComments, hrest]
    refine lines_unlines fun l hl ↦ ?_
    have hl : l ∈ (firstLine text :: rest).map keptLine := hl
    rw [← hrest] at hl
    obtain ⟨line, hline, rfl⟩ := List.mem_map.mp hl
    unfold keptLine
    split
    · exact List.not_mem_nil
    · exact notMem_of_mem_lines hline
  rw [mapLines, hlines, List.filter_eq_nil_iff]
  rintro _ hmem
  obtain ⟨line, -, rfl⟩ := List.mem_map.mp hmem
  rw [hkept]
  exact Bool.false_ne_true

end Lines

/-! ## Lines that do not refer to maps -/

/-- A line with something in front of its first slash that is neither a blank nor a tab. -/
theorem refersToMap_append {front behind : List Char} {c : Char} (hfront : '/' ∉ front)
    (hc : c ≠ ' ' ∧ c ≠ '\t' ∧ c ≠ '/') : refersToMap (front ++ c :: behind) = false := by
  have hfirst : ∀ {d : Char} (ds : List Char), d ≠ ' ' ∧ d ≠ '\t' ∧ d ≠ '/' →
      refersToMap (d :: ds) = false := by
    intro d ds ⟨hblank, htab, hslash⟩
    have hhash : "//# sourceMappingURL=".toList = '/' :: "/# sourceMappingURL=".toList := by decide
    have hat : "//@ sourceMappingURL=".toList = '/' :: "/@ sourceMappingURL=".toList := by decide
    have hne : ('/' == d) = false := by simpa using hslash.symm
    rw [refersToMap, List.dropWhile_cons_of_neg (by simp [hblank, htab]), hhash, hat]
    simp only [List.isPrefixOf_cons_cons, hne, Bool.false_and, Bool.or_false]
  induction front with
  | nil => exact hfirst behind hc
  | cons d ds ih =>
    have hd : d ≠ '/' := fun heq ↦ hfront (heq ▸ List.mem_cons_self)
    have hds := ih fun hmem ↦ hfront (List.mem_cons_of_mem d hmem)
    by_cases hblank : d = ' ' ∨ d = '\t'
    · rw [refersToMap] at hds
      rw [List.cons_append, refersToMap, List.dropWhile_cons_of_pos (by simpa using hblank)]
      exact hds
    · rw [not_or] at hblank
      exact hfirst _ ⟨hblank.1, hblank.2, hd⟩

theorem mapLines_cons_line {front behind rest : List Char} {c : Char} (hfront : '/' ∉ front)
    (hc : c ≠ ' ' ∧ c ≠ '\t' ∧ c ≠ '/') (hline : newlines (front ++ c :: behind) = 0) :
    mapLines (front ++ c :: behind ++ '\n' :: rest) = mapLines rest := by
  have hnone : mapLines (front ++ c :: behind) = [] := by
    rw [mapLines, lines_of_notMem (newlines_eq_zero.mp hline), List.filter_cons,
      refersToMap_append hfront hc]
    rfl
  rw [mapLines_append_newline, hnone, List.nil_append]

/-- A text of one line that starts with a letter. -/
theorem mapLines_of_newlines {text : List Char} {c : Char} (hhead : text.head? = some c)
    (hc : c.isAlpha = true) (hone : newlines text = 1) (hwhole : WholeLines text) :
    mapLines text = [] := by
  have hends : endsLine text = true := hwhole.resolve_left fun hnil ↦ by
    rw [hnil] at hhead
    cases hhead
  rw [endsLine, beq_iff_eq, List.getLast?_eq_some_iff] at hends
  obtain ⟨line, rfl⟩ := hends
  rw [newlines_append, newlines_cons_newline, newlines_nil, Nat.add_eq_right] at hone
  have hplain : c ≠ ' ' ∧ c ≠ '\t' ∧ c ≠ '/' ∧ c ≠ '\n' := by
    refine ⟨?_, ?_, ?_, ?_⟩ <;> rintro rfl <;> cases hc
  cases line with
  | nil =>
    cases hhead
    exact absurd rfl hplain.2.2.2
  | cons d ds =>
    cases hhead
    have hline : newlines ([] ++ c :: ds) = 0 := hone
    exact mapLines_cons_line List.not_mem_nil ⟨hplain.1, hplain.2.1, hplain.2.2.1⟩ hline

/-! ## Texts without line feeds -/

section Inline

variable {name : String}

theorem newlines_of_isNamePart {cs : List Char} (h : ∀ c ∈ cs, isNamePart c = true) :
    newlines cs = 0 := by
  have hfeed : isNamePart '\n' = false := by decide
  refine newlines_eq_zero.mpr fun hmem ↦ ?_
  rw [h _ hmem] at hfeed
  cases hfeed

theorem newlines_stringLiteral (s : String) : newlines (stringLiteral s).toList = 0 := by
  have hdigit : ∀ n < 16, '\n' ≠ Quoted.hexDigit n := by decide
  have hescape : ∀ c, '\n' ∉ Quoted.escape c := by
    intro c hmem
    unfold Quoted.escape at hmem
    split_ifs at hmem with _ _ hfeed _ _ _ _ hcontrol
    all_goals simp at hmem
    · rcases hmem with heq | heq
      · exact hdigit _ (by omega) heq
      · exact hdigit _ (by omega) heq
    · exact hfeed hmem.symm
  rw [stringLiteral, Quoted.quote, String.toList_ofList, Quoted.encode, newlines_eq_zero]
  simp [hescape]

theorem newlines_writtenKey (s : String) : newlines (writtenKey s).toList = 0 := by
  unfold writtenKey
  split
  · next h => exact newlines_of_isNamePart (isNamePart_of_isAsciiName h)
  · exact newlines_stringLiteral s

theorem newlines_propertyAccess (s : String) : newlines (propertyAccess s).toList = 0 := by
  unfold propertyAccess
  split
  · next h =>
    rw [String.toList_append, newlines_append,
      newlines_of_isNamePart (isNamePart_of_isAsciiName h)]
    decide
  · simp only [String.toList_append, newlines_append, newlines_stringLiteral]
    decide

theorem newlines_requireCall (s : String) : newlines (requireCall s).toList = 0 := by
  simp only [requireCall, String.toList_append, newlines_append, newlines_stringLiteral]
  decide

theorem newlines_loaded (specifier exported : String) :
    newlines (requireCall specifier ++ propertyAccess exported).toList = 0 := by
  rw [String.toList_append, newlines_append, newlines_requireCall, newlines_propertyAccess]

theorem newlines_fallback (kind : ScopedImport) (resource : String) :
    newlines (kind.fallback resource).toList = 0 := by
  have hlater : newlines ScopedImport.laterNothing.toList = 0 := by decide
  have hdefaults : ∀ p ∈ ScopedImport.localeDefaults, newlines p.2.toList = 0 := by decide +kernel
  have hundefined : newlines "undefined".toList = 0 := by decide
  have hschema : newlines (ScopedImport.schemaDescription resource).toList = 0 := by
    unfold ScopedImport.schemaDescription
    dsimp only
    split
    · simp only [String.toList_append, newlines_append, newlines_stringLiteral]
      decide
    · simp only [String.toList_append, newlines_append, newlines_stringLiteral]
      decide
  unfold ScopedImport.fallback
  split
  · exact newlines_stringLiteral _
  · exact newlines_stringLiteral _
  · exact newlines_stringLiteral _
  · exact newlines_stringLiteral _
  · exact hschema
  · cases hlookup : ScopedImport.localeDefaults.lookup resource with
    | none => exact hundefined
    | some value =>
      obtain ⟨before, behind, heq, -⟩ := List.lookup_eq_some_iff.mp hlookup
      refine hdefaults (resource, value) ?_
      rw [heq]
      exact List.mem_append_right _ List.mem_cons_self
  · split
    · exact newlines_stringLiteral _
    · split <;> decide
  · split
    · exact newlines_stringLiteral _
    · exact hundefined
  · exact hlater
  · exact hlater
  · decide
  · exact hundefined
  · exact hundefined
  · exact hundefined

end Inline

/-! ## Statements -/

section Statements

/-- Whether a name consists of characters of names. -/
def IsNameText (name : String) : Prop := ∀ c ∈ name.toList, isNamePart c = true

theorem IsNameText.newlines {name : String} (h : IsNameText name) : newlines name.toList = 0 :=
  newlines_of_isNamePart h

theorem IsNameText.slash_notMem {name : String} (h : IsNameText name) : '/' ∉ name.toList := by
  have hslash : isNamePart '/' = false := by decide
  intro hmem
  rw [h _ hmem] at hslash
  cases hslash

variable {name helper specifier : String}

theorem mapLines_defaultHelperText (h : IsNameText name) :
    mapLines (defaultHelperText name).toList = [] := by
  have hhead : "function ".toList.head? = some 'f' := by decide
  refine mapLines_of_newlines (c := 'f') ?_ rfl ?_ (wholeLines_append_string _ rfl)
  · simp only [defaultHelperText, String.toList_append, List.head?_append, hhead, Option.some_or]
  · simp only [defaultHelperText, String.toList_append, newlines_append, h.newlines]
    decide +kernel

theorem mapLines_wholeHelperText (h : IsNameText name) :
    mapLines (wholeHelperText name).toList = [] := by
  have hhead : "function ".toList.head? = some 'f' := by decide
  refine mapLines_of_newlines (c := 'f') ?_ rfl ?_ (wholeLines_append_string _ rfl)
  · simp only [wholeHelperText, String.toList_append, List.head?_append, hhead, Option.some_or]
  · simp only [wholeHelperText, String.toList_append, newlines_append, h.newlines]
    decide +kernel

theorem newlines_intercalate {texts : List String} (h : ∀ t ∈ texts, newlines t.toList = 0) :
    newlines (", ".intercalate texts).toList = 0 := by
  have hcomma : newlines ", ".toList = 0 := by decide
  rw [String.toList_intercalate]
  induction texts with
  | nil => rfl
  | cons t ts ih =>
    have ht := h t List.mem_cons_self
    have hts := ih fun u hu ↦ h u (List.mem_cons_of_mem t hu)
    cases ts with
    | nil =>
      rw [List.map_singleton, List.intercalate_singleton]
      exact ht
    | cons u us =>
      rw [List.map_cons] at hts
      rw [List.map_cons, List.map_cons, List.intercalate_cons_cons, newlines_append,
        newlines_append, ht, hcomma, hts]

theorem newlines_fieldText {field : String × String} (h : IsNameText field.2) :
    newlines (fieldText field).toList = 0 := by
  obtain ⟨imported, localName⟩ := field
  unfold fieldText
  dsimp only
  split
  · exact h.newlines
  · simp only [String.toList_append, newlines_append, newlines_writtenKey, h.newlines]
    decide

theorem newlines_bindingText {reference : String} {b : RuntimeImport}
    (hreference : IsNameText reference) (h : IsNameText b.localName) :
    newlines (bindingText reference b).toList = 0 := by
  have hlocal := h.newlines
  unfold bindingText
  cases b <;>
  · simp only [RuntimeImport.localName] at hlocal
    simp only [String.toList_append, newlines_append, hreference.newlines, hlocal,
      newlines_propertyAccess]
    decide

/-! ### Imports -/

/-- The names that a statement for an import has in it as they are. -/
def ImportStatement.names : ImportStatement → List String
  | effect _ | guarded _ => []
  | fields _ fs => fs.map Prod.snd
  | defaultOnly helper _ n => [helper, n]
  | reference helper _ n bs => helper :: n :: bs.map RuntimeImport.localName

theorem ImportStatement.mapLines_text {s : ImportStatement} (h : ∀ name ∈ s.names, IsNameText name)
    (hguarded : ∀ text, s = .guarded text → mapLines text.toList = []) :
    mapLines s.text.toList = [] := by
  -- Each statement is one line, and starts with a letter where a map line starts with a slash.
  have hrequire : "require(".toList.head? = some 'r' := by decide
  have hconst : "const ".toList.head? = some 'c' := by decide
  have hopen : "const \x7b ".toList.head? = some 'c' := by decide
  cases s with
  | effect specifier =>
    refine mapLines_of_newlines (c := 'r') ?_ rfl ?_ (wholeLines_append_string _ rfl)
    · simp only [text, requireCall, String.toList_append, List.head?_append, hrequire,
        Option.some_or]
    · simp only [text, String.toList_append, newlines_append, newlines_requireCall]
      decide
  | fields specifier fs =>
    have hfields : newlines (", ".intercalate (fs.map fieldText)).toList = 0 :=
      newlines_intercalate (List.forall_mem_map.mpr fun f hf ↦
        newlines_fieldText (h f.2 (List.mem_map_of_mem hf)))
    refine mapLines_of_newlines (c := 'c') ?_ rfl ?_ (wholeLines_append_string _ rfl)
    · simp only [text, String.toList_append, List.head?_append, hopen, Option.some_or]
    · simp only [text, String.toList_append, newlines_append, newlines_requireCall, hfields]
      decide
  | defaultOnly helper specifier n =>
    simp only [names, List.forall_mem_cons] at h
    refine mapLines_of_newlines (c := 'c') ?_ rfl ?_ (wholeLines_append_string _ rfl)
    · simp only [text, String.toList_append, List.head?_append, hconst, Option.some_or]
    · simp only [text, String.toList_append, newlines_append, newlines_requireCall, h.1.newlines,
        h.2.1.newlines]
      decide
  | reference helper specifier n bs =>
    simp only [names, List.forall_mem_cons, List.forall_mem_map] at h
    obtain ⟨hhelper, hn, hbs⟩ := h
    have hcall : newlines (n ++ " = " ++ helper ++ "(" ++ requireCall specifier ++ ")").toList
        = 0 := by
      simp only [String.toList_append, newlines_append, newlines_requireCall, hhelper.newlines,
        hn.newlines]
      decide
    have hall := newlines_intercalate (List.forall_mem_cons.mpr ⟨hcall,
      List.forall_mem_map.mpr fun b hb ↦ newlines_bindingText hn (hbs b hb)⟩)
    refine mapLines_of_newlines (c := 'c') ?_ rfl ?_ (wholeLines_append_string _ rfl)
    · simp only [text, String.toList_append, List.head?_append, hconst, Option.some_or]
    · rw [text, String.toList_append, newlines_append, String.toList_append, newlines_append, hall]
      decide
  | guarded text => exact hguarded text rfl

/-! ### Guarded imports -/

/-- A guarded import, line by line. -/
theorem guardedVariable_eq (localName specifier exported fallback : String) :
    ScopedImport.guardedVariable localName specifier exported fallback
      = "let " ++ localName ++ ";\n" ++ ("try \x7b\n"
        ++ ("  " ++ localName ++ " = " ++ (requireCall specifier ++ propertyAccess exported) ++ ";\n"
        ++ ("\x7d catch (e) \x7b\n" ++ ("  " ++ localName ++ " = " ++ fallback ++ ";\n"
        ++ "\x7d\n")))) := by
  have htry : ";\n" ++ ("try \x7b\n" ++ "  ") = ";\ntry \x7b\n  " := by decide +kernel
  have hcatch : ";\n" ++ ("\x7d catch (e) \x7b\n" ++ "  ") = ";\n\x7d catch (e) \x7b\n  " := by
    decide +kernel
  have hend : ";\n" ++ "\x7d\n" = ";\n\x7d\n" := by decide +kernel
  have hrequire : " = " ++ "require(" = " = require(" := by decide +kernel
  unfold ScopedImport.guardedVariable requireCall
  rw [← htry, ← hcatch, ← hend, ← hrequire]
  simp only [String.append_assoc]

/-- An assignment on a line of its own. -/
theorem mapLines_assignment {value : String} (h : IsNameText name)
    (hvalue : newlines value.toList = 0) :
    mapLines ("  " ++ name ++ " = " ++ value ++ ";\n").toList = [] := by
  have hline : newlines ([' ', ' '] ++ name.toList ++ [' '] ++ '=' :: (' ' :: (value.toList ++ [';'])))
      = 0 := by
    have hnone : '\n' ∉ name.toList ∧ '\n' ∉ value.toList :=
      ⟨newlines_eq_zero.mp h.newlines, newlines_eq_zero.mp hvalue⟩
    rw [newlines_eq_zero]
    simp [hnone]
  have hpieces : ∀ blanks sign close : String, blanks.toList = [' ', ' '] →
      sign.toList = [' ', '=', ' '] → close.toList = [';', '\n'] →
      mapLines (blanks ++ name ++ sign ++ value ++ close).toList = [] := by
    intro blanks sign close hblanks hsign hclose
    have hnone : mapLines ([' ', ' '] ++ name.toList ++ [' ']
        ++ '=' :: (' ' :: (value.toList ++ [';'])) ++ ['\n']) = [] :=
      mapLines_cons_line (by simp [h.slash_notMem]) (by decide) hline
    simpa [String.toList_append, hblanks, hsign, hclose] using hnone
  exact hpieces _ _ _ (by decide) (by decide) (by decide)

theorem mapLines_guardedVariable {localName specifier exported fallback : String}
    (h : IsNameText localName) (hfallback : newlines fallback.toList = 0) :
    mapLines (ScopedImport.guardedVariable localName specifier exported fallback).toList = [] := by
  have hlet : mapLines ("let " ++ localName ++ ";\n").toList = [] := by
    have hhead : "let ".toList.head? = some 'l' := by decide
    refine mapLines_of_newlines (c := 'l') ?_ rfl ?_ (wholeLines_append_string _ rfl)
    · simp only [String.toList_append, List.head?_append, hhead, Option.some_or]
    · simp only [String.toList_append, newlines_append, h.newlines]
      decide
  have hwords : mapLines "try \x7b\n".toList = [] ∧ mapLines "\x7d catch (e) \x7b\n".toList = []
      ∧ mapLines "\x7d\n".toList = [] := by decide +kernel
  have hwhole : ∀ front : String, WholeLines (front ++ ";\n").toList := fun _ ↦
    wholeLines_append_string _ rfl
  rw [guardedVariable_eq, String.toList_append, (hwhole _).mapLines_append, hlet, String.toList_append,
    WholeLines.mapLines_append (.inr rfl), hwords.1, String.toList_append,
    (hwhole _).mapLines_append, mapLines_assignment h (newlines_loaded ..), String.toList_append,
    WholeLines.mapLines_append (.inr rfl), hwords.2.1, String.toList_append,
    (hwhole _).mapLines_append, mapLines_assignment h hfallback, hwords.2.2]
  rfl

theorem newlines_helperFallback {value : String}
    (h : ScopedImport.helperFallback? name = some value) : newlines value.toList = 0 := by
  have hlater : newlines ScopedImport.laterNothing.toList = 0 := by decide
  unfold ScopedImport.helperFallback? at h
  split_ifs at h
  · cases h
    exact hlater
  · cases h
    decide

/-- A value stands in for the default export of a module of a kind, or for a helper. -/
def IsFallback (kind : ScopedImport) (exported fallback : String) : Prop :=
  exported = "default" ∧ (∃ resource, fallback = kind.fallback resource) ∨
    ScopedImport.helperFallback? exported = some fallback

theorem IsFallback.newlines {kind : ScopedImport} {exported fallback : String}
    (h : IsFallback kind exported fallback) : newlines fallback.toList = 0 := by
  rcases h with ⟨-, resource, rfl⟩ | h
  · exact newlines_fallback kind resource
  · exact newlines_helperFallback h

/-- A guarded import declares what it binds. -/
theorem exists_guardedVariable {kind : ScopedImport} {text : String} {b : RuntimeImport}
    (h : kind.statement specifier b = .ok text) : ∃ exported fallback : String,
      text = ScopedImport.guardedVariable b.localName specifier exported fallback ∧
        IsFallback kind exported fallback := by
  unfold ScopedImport.statement at h
  split at h
  · unfold ScopedImport.helperStatement at h
    split at h
    · split at h
      · next value hvalue =>
        cases h
        exact ⟨_, _, rfl, .inr hvalue⟩
      · cases h
    · cases h
  · unfold ScopedImport.resourceStatement at h
    split at h
    · cases h
      exact ⟨_, _, rfl, .inl ⟨rfl, _, rfl⟩⟩
    · cases h

theorem mapLines_scopedStatement {kind : ScopedImport} {text : String} {b : RuntimeImport}
    (hb : IsNameText b.localName) (h : kind.statement specifier b = .ok text) :
    mapLines text.toList = [] := by
  obtain ⟨exported, fallback, rfl, hfallback⟩ := exists_guardedVariable h
  exact mapLines_guardedVariable hb hfallback.newlines

theorem mapLines_scopedStatements {kind : ScopedImport} {text : String} {bs : List RuntimeImport}
    (hbs : ∀ b ∈ bs, IsNameText b.localName) (h : kind.statements specifier bs = .ok text) :
    mapLines text.toList = [] := by
  obtain ⟨texts, rfl, hall⟩ := exists_scopedStatements h
  have hone : ∀ t ∈ texts, WholeLines t.toList ∧ mapLines t.toList = [] := by
    intro t ht
    obtain ⟨b, hb, hstatement⟩ := exists_of_mem_forall₂ hall ht
    exact ⟨wholeLines_scopedStatement hstatement,
      mapLines_scopedStatement (hbs b hb) hstatement⟩
  rw [String.toList_join, mapLines_flatMap fun t ht ↦ (hone t ht).1, List.flatMap_eq_nil_iff]
  exact fun t ht ↦ (hone t ht).2

/-! ### Exports -/

/-- The names that a statement for exports has in it as they are. -/
def ExportStatement.names : ExportStatement → List String
  | value _ target => [target]
  | getter _ r _ | all r => [r]

theorem ExportStatement.wholeLines_text (s : ExportStatement) : WholeLines s.text.toList := by
  cases s <;> exact wholeLines_append_string _ rfl

theorem ExportStatement.mapLines_text {s : ExportStatement}
    (h : ∀ name ∈ s.names, IsNameText name) : mapLines s.text.toList = [] := by
  have hexports : "exports".toList.head? = some 'e' := by decide
  have hdefine : "Object.defineProperty(exports, ".toList.head? = some 'O' := by decide
  have hkeys : "Object.keys(".toList.head? = some 'O' := by decide
  have hwhole := s.wholeLines_text
  unfold text at hwhole ⊢
  cases s with
  | value exported target =>
    have htarget := (h target List.mem_cons_self).newlines
    refine mapLines_of_newlines (c := 'e') ?_ rfl ?_ hwhole
    · simp only [String.toList_append, List.head?_append, hexports, Option.some_or]
    · simp only [String.toList_append, newlines_append, newlines_propertyAccess, htarget]
      decide
  | getter exported r imported =>
    have hr := (h r List.mem_cons_self).newlines
    refine mapLines_of_newlines (c := 'O') ?_ rfl ?_ hwhole
    · simp only [String.toList_append, List.head?_append, hdefine, Option.some_or]
    · simp only [String.toList_append, newlines_append, newlines_propertyAccess,
        newlines_stringLiteral, hr]
      decide
  | all r =>
    have hr := (h r List.mem_cons_self).newlines
    refine mapLines_of_newlines (c := 'O') ?_ rfl ?_ hwhole
    · simp only [String.toList_append, List.head?_append, hkeys, Option.some_or]
    · simp only [String.toList_append, newlines_append, hr]
      decide +kernel

end Statements

end Downlevel.CommonJs
